import ChipEight.Proofs.Text.Hexadecimal
import ChipEight.Proofs.Text.Numeral

/-!
# Texts told from their pieces

A text that is put together from pieces tells the pieces if it can be seen where each of them ends:
they are all of one length, or a separator does not occur in what it separates, or a value behind
its label holds no blank while the next label begins with one.

## Main definitions

* `EndsNumeral`: a character that stands in no numeral.
* `labelled`: labels with a value behind each of them.
-/

namespace ChipEight.Text

theorem notMem_join {c : Char} {ps : List String} (h : ∀ p ∈ ps, c ∉ p.toList) :
    c ∉ (String.join ps).toList := by
  rw [String.toList_join]
  intro hmem
  obtain ⟨p, hp, hc⟩ := List.mem_flatMap.1 hmem
  exact h p hp hc

/-- Pieces of the same length, which is not zero, are told from what they make one behind
another. -/
theorem eq_of_join_eq {n : Nat} (hn : 0 < n) {as bs : List String} (ha : ∀ a ∈ as, a.length = n)
    (hb : ∀ b ∈ bs, b.length = n) (h : String.join as = String.join bs) : as = bs := by
  induction as generalizing bs with
  | nil =>
    cases bs with
    | nil => rfl
    | cons b bs =>
      have hlength := congrArg String.length h
      rw [String.join_nil, String.join_cons, String.length_append, String.length_empty,
        hb b List.mem_cons_self] at hlength
      omega
  | cons a as ih =>
    cases bs with
    | nil =>
      have hlength := congrArg String.length h
      rw [String.join_nil, String.join_cons, String.length_append, String.length_empty,
        ha a List.mem_cons_self] at hlength
      omega
    | cons b bs =>
      obtain ⟨ha, has⟩ := List.forall_mem_cons.1 ha
      obtain ⟨hb, hbs⟩ := List.forall_mem_cons.1 hb
      have hlength : a.toList.length = b.toList.length := by
        rw [String.length_toList, String.length_toList, ha, hb]
      have hchars := congrArg String.toList h
      rw [String.join_cons, String.join_cons, String.toList_append, String.toList_append] at hchars
      obtain ⟨hhead, htail⟩ := List.append_inj hchars hlength
      rw [String.toList_inj.1 hhead, ih has hbs (String.toList_inj.1 htail)]

/-- Pieces that do not hold the character between them are told from what they make with it. -/
theorem eq_of_intercalate_eq {sep : String} {c : Char} (hsep : sep.toList = [c])
    {as bs : List String} (hna : as ≠ []) (hnb : bs ≠ []) (ha : ∀ a ∈ as, c ∉ a.toList)
    (hb : ∀ b ∈ bs, c ∉ b.toList) (h : sep.intercalate as = sep.intercalate bs) : as = bs := by
  have hsplit {ps : List String} (hn : ps ≠ []) (hp : ∀ p ∈ ps, c ∉ p.toList) :
      (sep.intercalate ps).toList.splitOn c = ps.map String.toList := by
    rw [String.toList_intercalate, hsep]
    exact List.splitOn_intercalate _ (by simpa using hp) (by simpa using hn)
  have hchars : as.map String.toList = bs.map String.toList := by
    rw [← hsplit hna ha, ← hsplit hnb hb, h]
  exact (List.map_inj_right fun _ _ => String.toList_inj.1).1 hchars

/-- A separator in front and between is one in front of each piece. -/
theorem append_intercalate (sep : String) {as : List String} (h : as ≠ []) :
    sep ++ sep.intercalate as = String.join (as.map (sep ++ ·)) := by
  induction as with
  | nil => contradiction
  | cons a as ih =>
    cases as with
    | nil => simp
    | cons b as =>
      rw [String.intercalate_cons_cons, List.map_cons, String.join_cons,
        ← ih (List.cons_ne_nil b as), String.append_assoc, String.append_assoc]

/-- The character stands in no numeral, so a numeral has ended where the character stands. -/
structure EndsNumeral (c : Char) : Prop where
  ne_sign : c ≠ '-'
  notMem_alphabet : c ∉ Hex.alphabet
  not_isDigit : c.isDigit = false

theorem EndsNumeral.notMem_padded {c : Char} (hc : EndsNumeral c) (w : Nat) (n : Int) :
    c ∉ (Hex.padded w n).toList :=
  Hex.notMem_padded hc.ne_sign hc.notMem_alphabet w n

theorem EndsNumeral.notMem_toDigits {c : Char} (hc : EndsNumeral c) (n : Nat) :
    c ∉ Nat.toDigits 10 n := by
  intro h
  have hdigit := Integer.isDigit_of_mem_toDigits c h
  rw [hc.not_isDigit] at hdigit
  cases hdigit

theorem endsNumeral_blank : EndsNumeral ' ' := ⟨by decide, by decide, rfl⟩

theorem endsNumeral_newline : EndsNumeral '\n' := ⟨by decide, by decide, rfl⟩

/-! ## Labels and values -/

/-- Labels with a value behind each of them. -/
def labelled (fields : List (String × String)) : String :=
  String.join (fields.map fun f => f.1 ++ f.2)

theorem labelled_cons (f : String × String) (fields : List (String × String)) :
    labelled (f :: fields) = f.1 ++ (f.2 ++ labelled fields) := by
  rw [labelled, List.map_cons, String.join_cons, String.append_assoc]
  rfl

theorem notMem_labelled {c : Char} {fields : List (String × String)}
    (h : ∀ f ∈ fields, c ∉ f.1.toList ∧ c ∉ f.2.toList) : c ∉ (labelled fields).toList := by
  refine notMem_join (List.forall_mem_map.2 fun f hf => ?_)
  simpa using h f hf

/-- What stands in front of the first blank is told from the whole. -/
theorem append_inj_of_blank {as bs xs ys : List Char} (ha : ' ' ∉ as) (hb : ' ' ∉ bs)
    (hx : ∀ x ∈ xs.head?, x = ' ') (hy : ∀ y ∈ ys.head?, y = ' ') (h : as ++ xs = bs ++ ys) :
    as = bs ∧ xs = ys := by
  have hfront {cs zs : List Char} (hc : ' ' ∉ cs) (hz : ∀ z ∈ zs.head?, z = ' ') :
      (cs ++ zs).takeWhile (· ≠ ' ') = cs := by
    have hnone : zs.takeWhile (· ≠ ' ') = [] := by
      cases zs with
      | nil => rfl
      | cons z zs => simp [hz z rfl]
    have hall : ∀ c ∈ cs, decide (c ≠ ' ') = true := fun c hcs =>
      decide_eq_true fun hblank => hc (hblank ▸ hcs)
    rw [List.takeWhile_append_of_pos hall, hnone, List.append_nil]
  have hfronts : as = bs := by rw [← hfront ha hx, h, hfront hb hy]
  subst hfronts
  exact ⟨rfl, List.append_cancel_left h⟩

/-- Values without blanks are told from a text in which every label begins with a blank. -/
theorem eq_of_labelled_eq {fs gs : List (String × String)}
    (hlabels : fs.map (·.1) = gs.map (·.1)) (hstart : ∀ f ∈ fs, f.1.toList.head? = some ' ')
    (hf : ∀ f ∈ fs, ' ' ∉ f.2.toList) (hg : ∀ g ∈ gs, ' ' ∉ g.2.toList)
    (h : labelled fs = labelled gs) : fs = gs := by
  have hhead {ps : List (String × String)} (hp : ∀ p ∈ ps, p.1.toList.head? = some ' ') :
      ∀ c ∈ (labelled ps).toList.head?, c = ' ' := by
    cases ps with
    | nil => simp [labelled]
    | cons p ps => simp [labelled_cons, List.head?_append, hp p List.mem_cons_self]
  induction fs generalizing gs with
  | nil => exact (List.map_eq_nil_iff.1 hlabels.symm).symm
  | cons f fs ih =>
    cases gs with
    | nil => cases hlabels
    | cons g gs =>
      obtain ⟨hlabel, hlabels⟩ := List.cons.inj hlabels
      obtain ⟨-, hstart⟩ := List.forall_mem_cons.1 hstart
      obtain ⟨hvalue, hf⟩ := List.forall_mem_cons.1 hf
      obtain ⟨hvalue', hg⟩ := List.forall_mem_cons.1 hg
      have hstart' : ∀ g ∈ gs, g.1.toList.head? = some ' ' := by
        have hmap : ∀ label ∈ gs.map (·.1), label.toList.head? = some ' ' :=
          hlabels ▸ List.forall_mem_map.2 hstart
        exact List.forall_mem_map.1 hmap
      have hchars := congrArg String.toList h
      simp only [labelled_cons, hlabel, String.toList_append, List.append_cancel_left_eq] at hchars
      obtain ⟨hsame, hrest⟩ := append_inj_of_blank hvalue hvalue' (hhead hstart) (hhead hstart')
        hchars
      rw [ih hlabels hstart hf hg (String.toList_inj.1 hrest),
        Prod.ext hlabel (String.toList_inj.1 hsame)]

/-- The same of several texts with labels and values. -/
theorem eq_of_map_labelled_eq {fss gss : List (List (String × String))}
    (hlabels : fss.map (·.map (·.1)) = gss.map (·.map (·.1)))
    (hstart : ∀ fs ∈ fss, ∀ f ∈ fs, f.1.toList.head? = some ' ')
    (hf : ∀ fs ∈ fss, ∀ f ∈ fs, ' ' ∉ f.2.toList) (hg : ∀ gs ∈ gss, ∀ g ∈ gs, ' ' ∉ g.2.toList)
    (h : fss.map labelled = gss.map labelled) : fss = gss := by
  induction fss generalizing gss with
  | nil => exact (List.map_eq_nil_iff.1 hlabels.symm).symm
  | cons fs fss ih =>
    cases gss with
    | nil => cases hlabels
    | cons gs gss =>
      obtain ⟨hlabel, hlabels⟩ := List.cons.inj hlabels
      obtain ⟨htext, h⟩ := List.cons.inj h
      rw [List.forall_mem_cons] at hstart hf hg
      rw [eq_of_labelled_eq hlabel hstart.1 hf.1 hg.1 htext, ih hlabels hstart.2 hf.2 hg.2 h]

end ChipEight.Text
