import Mathlib.Data.List.TakeWhile
import ChipEight.CommandLine.Reading
import ChipEight.Proofs.Text.Numeral

/-!
# Arguments of a run without a window

A text that does not start with a dash is a word, and so is every numeral, a negative one included.
The arguments that ask for a number of ticks without a window, with a seed, are therefore read as
what they ask for, unless one of the numerals is too long.

## Main definitions

* `headlessArguments`: a file, and the switches for a run without a window.
* `Options.headlessRun`: the options that they add up to.
* `unreadableNumeral`: why they are refused if a numeral is too long.
-/

namespace ChipEight.CommandLine

open Text

namespace Token

variable {text : String} {c : Char} {cs : List Char}

/-- Behind the first dash of a spelling there is no digit. -/
theorem not_isDigit_of_mem_spellings :
    ∀ entry ∈ Switch.spellings, (entry.1.toList[1]?.all fun c => !c.isDigit) = true := by
  decide

theorem ne_of_isDigit {entry : String × Switch} (hentry : entry ∈ Switch.spellings)
    (hc : c.isDigit = true) : entry.1.toList[1]? ≠ some c := by
  intro h
  have hnot := not_isDigit_of_mem_spellings entry hentry
  simp [h, hc] at hnot

theorem ofSpelling?_of_isDigit (htext : text.toList = '-' :: c :: cs) (hc : c.isDigit = true) :
    Switch.ofSpelling? text = none := by
  rw [Switch.ofSpelling?, Option.map_eq_none_iff, List.find?_eq_none]
  intro entry hentry h
  have hsecond := ne_of_isDigit hentry hc
  simp_all

theorem candidates_of_isDigit (hc : c.isDigit = true) : candidates ('-' :: c :: cs) false = [] := by
  rw [candidates, List.filterMap_eq_nil_iff]
  intro entry hentry
  have hsecond := ne_of_isDigit hentry hc
  have hletters : entry.1.toList ≠ ('-' :: c :: cs).take 2 := fun h => hsecond (by rw [h]; rfl)
  have hbeginning : ('-' :: c :: cs).isPrefixOf entry.1.toList = false := by
    rw [Bool.eq_false_iff]
    intro h
    obtain ⟨rest, hrest⟩ := List.isPrefixOf_iff_prefix.1 h
    exact hsecond (by rw [← hrest]; rfl)
  simp only [Bool.false_eq_true, if_false, if_neg hletters, hbeginning]

theorem splitAtSign_of_isDigit (h : ∀ d ∈ cs, d.isDigit = true) :
    splitAtSign ('-' :: cs) = ('-' :: cs, none) := by
  have hdrop : ('-' :: cs).dropWhile (· ≠ '=') = [] := by
    rw [List.dropWhile_eq_nil_iff]
    intro d hd
    obtain rfl | hd := List.mem_cons.1 hd
    · rfl
    · have hdigit := h d hd
      rw [decide_eq_true_eq]
      rintro rfl
      cases hdigit
  rw [splitAtSign, hdrop]

theorem isNegativeNumber_of_isDigit (hne : cs ≠ []) (h : ∀ d ∈ cs, d.isDigit = true) :
    isNegativeNumber ('-' :: cs) = true := by
  have hend : ('-' :: cs).getLast? ≠ some '\n' := by
    intro hlast
    obtain hd | hd := List.mem_cons.1 (List.mem_of_getLast? hlast)
    · cases hd
    · cases h _ hd
  have hdrop : cs.dropWhile (fun d => (DecimalDigit.value? d).isSome) = [] := by
    rw [List.dropWhile_eq_nil_iff]
    intro d hd
    rw [DecimalDigit.value?_of_isDigit (h d hd)]
    rfl
  rw [isNegativeNumber, if_neg hend]
  simp [hdrop, hne]

/-- A dash and digits are a word, as no switch is spelled like them. -/
theorem ofDashed_of_isDigit (htext : text.toList = '-' :: c :: cs)
    (h : ∀ d ∈ c :: cs, d.isDigit = true) : ofDashed text false = .ok (.word text) := by
  have hc : c.isDigit = true := h c List.mem_cons_self
  have hnumber := isNegativeNumber_of_isDigit (List.cons_ne_nil c cs) h
  have hspelling := ofSpelling?_of_isDigit htext hc
  have hfront : String.ofList ('-' :: c :: cs) = text := by rw [← htext, String.ofList_toList]
  simp only [ofDashed, htext, splitAtSign_of_isDigit h, hfront, hspelling,
    candidates_of_isDigit hc, hnumber, Bool.true_or, if_true]

theorem ofText_of_no_dash (h : text.toList.head? ≠ some '-') : ofText text = .ok (.word text) := by
  unfold ofText
  split
  · simp_all
  · rfl

theorem ofText_numeral (n : Int) : ofText (toString n) = .ok (.word (toString n)) := by
  cases n with
  | ofNat n =>
    apply ofText_of_no_dash
    rw [Int.ofNat_eq_natCast, Integer.toList_toString_natCast]
    intro h
    cases Integer.isDigit_of_mem_toDigits _ (List.mem_of_head? h)
  | negSucc n =>
    obtain ⟨c, cs, hcs⟩ :=
      List.exists_cons_of_ne_nil (Nat.toDigits_ne_nil (n := n + 1) (b := 10))
    have hdigits : ∀ d ∈ c :: cs, d.isDigit = true := by
      rw [← hcs]
      exact Integer.isDigit_of_mem_toDigits
    have htext : (toString (Int.negSucc n)).toList = '-' :: c :: cs := by
      rw [Integer.toList_toString_negSucc, hcs]
    have hc : decide (c = '-') = false := by
      rw [decide_eq_false_iff_not]
      rintro rfl
      cases hdigits _ List.mem_cons_self
    rw [ofText, htext]
    simp only [hc]
    exact ofDashed_of_isDigit htext hdigits

/-- Two dashes alone are no token by themselves. -/
theorem ne_dashes_of_ofText {token : Token} (h : ofText text = .ok token) : text ≠ "--" := by
  rintro rfl
  have hdashes : (ofText "--").toOption = none := by decide
  rw [h] at hdashes
  cases hdashes

theorem ofArguments_cons {token : Token} {args : List String} {tokens : List Token}
    (h : ofText text = .ok token) (hargs : ofArguments args = .ok tokens) :
    ofArguments (text :: args) = .ok (token :: tokens) := by
  rw [ofArguments, if_neg (ne_dashes_of_ofText h), h, hargs]
  rfl

end Token

/-- The arguments for a run of a file without a window. -/
def headlessArguments (file : String) (steps seed : Int) : List String :=
  [file, "--headless", "--steps", toString steps, "--seed", toString seed]

/-- The options of a run without a window. -/
def Options.headlessRun (steps seed : Int) : Options :=
  { Options.usual with headless := true, steps, seed := some seed }

variable {file : String}

theorem ofArguments_headless (h : file.toList.head? ≠ some '-') (steps seed : Int) :
    Token.ofArguments (headlessArguments file steps seed) =
      .ok [.word file, .switch .headless true none, .switch .steps true none,
        .word (toString steps), .switch .seed true none, .word (toString seed)] := by
  have hheadless : Token.ofText "--headless" = .ok (.switch .headless true none) := by decide
  have hsteps : Token.ofText "--steps" = .ok (.switch .steps true none) := by decide
  have hseed : Token.ofText "--seed" = .ok (.switch .seed true none) := by decide
  exact Token.ofArguments_cons (Token.ofText_of_no_dash h) <|
    Token.ofArguments_cons hheadless <| Token.ofArguments_cons hsteps <|
    Token.ofArguments_cons (Token.ofText_numeral steps) <| Token.ofArguments_cons hseed <|
    Token.ofArguments_cons (Token.ofText_numeral seed) rfl

namespace Draft

theorem give_of_readable (d : Draft) (s : Switch) {n : Int} (h : Integer.Readable n) :
    d.give s (toString n) = .ok { d with options := d.options.setValue n s } := by
  rw [give, Integer.read?_toString, if_pos h]

theorem give_of_not_readable (d : Draft) (s : Switch) {n : Int} (h : ¬Integer.Readable n) :
    d.give s (toString n) = .error (.refused (.notAnInteger s (toString n))) := by
  rw [give, Integer.read?_toString, if_neg h]

/-- The file and the switch for a run without a window are taken first. -/
theorem take_headless (file steps seed : String) :
    empty.take [.word file, .switch .headless true none, .switch .steps true none, .word steps,
        .switch .seed true none, .word seed] =
      give ⟨some file, { Options.usual with headless := true }, []⟩ .steps steps >>= fun d =>
        d.give .seed seed >>= fun d => d.take [] :=
  rfl

end Draft

/-- What the arguments ask for is read from them, if both numerals can be read. -/
theorem read_headlessArguments (h : file.toList.head? ≠ some '-') {steps seed : Int}
    (hsteps : Integer.Readable steps) (hseed : Integer.Readable seed) :
    read (headlessArguments file steps seed) = .ok ⟨file, .headlessRun steps seed⟩ := by
  simp only [read, ofArguments_headless h, Draft.take_headless, Draft.give_of_readable _ _ hsteps,
    Draft.give_of_readable _ _ hseed]
  rfl

/-- The refusal of a numeral that cannot be read, that of the ticks before that of the seed. -/
def unreadableNumeral (steps seed : Int) : Refusal :=
  if Integer.Readable steps then .notAnInteger .seed (toString seed)
  else .notAnInteger .steps (toString steps)

theorem read_headlessArguments_of_not_readable (h : file.toList.head? ≠ some '-')
    {steps seed : Int} (hnot : ¬(Integer.Readable steps ∧ Integer.Readable seed)) :
    read (headlessArguments file steps seed) =
      .error (.refused (unreadableNumeral steps seed)) := by
  unfold unreadableNumeral
  by_cases hsteps : Integer.Readable steps
  · have hseed : ¬Integer.Readable seed := fun hseed => hnot ⟨hsteps, hseed⟩
    simp only [read, ofArguments_headless h, Draft.take_headless,
      Draft.give_of_readable _ _ hsteps, Draft.give_of_not_readable _ _ hseed, if_pos hsteps]
    rfl
  · simp only [read, ofArguments_headless h, Draft.take_headless,
      Draft.give_of_not_readable _ _ hsteps, if_neg hsteps]
    rfl

end ChipEight.CommandLine
