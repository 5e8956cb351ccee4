import Mathlib.Data.List.Induction
import ChipEight.Proofs.Host.Switches

/-!
# Tones begin and end in turn

A beeper can be opened, told whether a tone is wanted and closed in any order, and an opening can
fail while a tone goes on. Whatever the order is, a tone begins only when the one before it has
ended, the beeper knows whether one goes on, and it goes on only while the beeper holds a tone.

## Main definitions

* `Beeper.Request`, `Beeper.perform`, `Beeper.performAll`: what can be asked of a beeper, and what
  it calls and becomes.
* `Beeper.InStep`: the beeper and the calls that were made for it agree.
* `Beeper.IsOpenAfter`: requests that leave the beeper open.
-/

namespace ChipEight.Host

open Numeric

namespace Beeper

variable {b : Beeper} {calls : List Call}

/-! ## Requests -/

/-- What can be asked of a beeper. -/
inductive Request where
  /-- The host and what was called before. -/
  | openOn (platform : Platform) (before : Array Call)
  | update (wanted : Bool)
  | close

/-- What a beeper calls and becomes if one thing is asked of it. An opening that fails leaves it as
it was. -/
def perform (b : Beeper) : Request → List Call × Beeper
  | .openOn platform before =>
    let (effects, o) := b.openOn platform before
    (effects.calls.toList, o.state)
  | .update wanted => b.update wanted
  | .close => b.close

/-- The same for one request after another. -/
def performAll (b : Beeper) (requests : List Request) : List Call × Beeper :=
  requests.foldl (fun (calls, b) r => (calls ++ (b.perform r).1, (b.perform r).2)) ([], b)

theorem performAll_concat (b : Beeper) (requests : List Request) (r : Request) :
    b.performAll (requests ++ [r]) =
      ((b.performAll requests).1 ++ ((b.performAll requests).2.perform r).1,
        ((b.performAll requests).2.perform r).2) := by
  simp [performAll, List.foldl_append]

/-! ## One request -/

/-- A request switches the sound from what it was to what it is behind the request. -/
theorem switches_perform (h : b.playing = true → b.sound ≠ none) (r : Request) :
    (b.perform r).1.filter Call.isSwitch = switches b.playing [(b.perform r).2.playing] := by
  cases r with
  | openOn platform before =>
    obtain ⟨hcalls, ho | ⟨e, ho⟩⟩ | ⟨sound, hcalls, ⟨e, ho⟩ | ⟨tone, ho⟩⟩ :=
      b.openOn_cases platform before <;> simp [perform, hcalls, ho, switches, Call.isSwitch]
  | update wanted =>
    by_cases hs : b.sound = none
    · simp [perform, update_of_silent hs, switches]
    · show (b.update wanted).1.filter Call.isSwitch =
        switches b.playing [(b.update wanted).2.playing]
      rw [filter_update, update_of_ready hs]
      simp [switches]
  | close =>
    cases hp : b.playing <;> simp [perform, close_of_held h, hp, switches, Call.isSwitch]

theorem held_perform (h : b.playing = true → b.sound ≠ none) (r : Request) :
    (b.perform r).2.playing = true → (b.perform r).2.sound ≠ none := by
  cases r with
  | openOn platform before =>
    obtain ⟨-, ho | ⟨e, ho⟩⟩ | ⟨sound, -, ⟨e, ho⟩ | ⟨tone, ho⟩⟩ := b.openOn_cases platform before
    · simpa [perform, ho] using h
    · simpa [perform, ho] using h
    · simpa [perform, ho] using h
    · simp [perform, ho]
  | update wanted =>
    by_cases hs : b.sound = none
    · simpa [perform, update_of_silent hs] using h
    · simp [perform, update_of_ready hs, hs]
  | close => simp [perform, close_of_held h]

/-! ## Beepers in step with their calls -/

/-- The beeper and the calls made for it so far agree. The calls that switch a sound are whole
tones, with one more start behind them if the beeper plays; and then the beeper holds a tone. -/
structure InStep (calls : List Call) (b : Beeper) : Prop where
  switches : ∃ n, calls.filter Call.isSwitch = pulses n ++ if b.playing then [.play (-1)] else []
  held : b.playing = true → b.sound ≠ none

theorem InStep.closed (sampleRate : Int) (frequency volume : Quantity) :
    InStep [] (closed sampleRate frequency volume) :=
  ⟨⟨0, rfl⟩, by simp [Beeper.closed]⟩

theorem InStep.perform (h : InStep calls b) (r : Request) :
    InStep (calls ++ (b.perform r).1) (b.perform r).2 := by
  obtain ⟨n, hn⟩ := h.switches
  refine ⟨?_, held_perform h.held r⟩
  rw [List.filter_append, hn, switches_perform h.held]
  cases b.playing <;> cases (b.perform r).2.playing
  case true.false =>
    -- The tone that went on ends, and is one of the whole ones from now on.
    exact ⟨n + 1, by simp [pulses_succ_eq_append, Host.switches]⟩
  all_goals exact ⟨n, by simp [Host.switches]⟩

theorem InStep.performAll (h : InStep [] b) (requests : List Request) :
    InStep (b.performAll requests).1 (b.performAll requests).2 := by
  induction requests using List.reverseRecOn with
  | nil => exact h
  | append_singleton requests r ih =>
    rw [performAll_concat]
    exact ih.perform r

/-- The beeper knows which call was the last one to switch a sound. -/
theorem InStep.playing_iff (h : InStep calls b) :
    b.playing = true ↔ (calls.filter Call.isSwitch).getLast? = some (.play (-1)) := by
  obtain ⟨n, hn⟩ := h.switches
  rw [hn]
  cases b.playing with
  | false => simpa using getLast?_pulses_ne n
  | true => simp

/-! ## Open and closed -/

/-- The request opens the beeper: there is a mixer, and a tone can be made for it. -/
def Opens (b : Beeper) : Request → Prop
  | .openOn platform before => (b.openOn platform before).2.answer = .ok true
  | _ => False

/-- One of the requests opens the beeper, and none behind it closes it. So a beeper is not open
before an opening has succeeded, nor between its being closed and the next opening that succeeds. -/
def IsOpenAfter (b : Beeper) (requests : List Request) : Prop :=
  ∃ before r after, requests = before ++ r :: after ∧
    (b.performAll before).2.Opens r ∧ .close ∉ after

theorem isOpenAfter_concat (b : Beeper) (requests : List Request) (r : Request) :
    b.IsOpenAfter (requests ++ [r]) ↔
      (b.performAll requests).2.Opens r ∨ b.IsOpenAfter requests ∧ r ≠ .close := by
  constructor
  · rintro ⟨before, q, after, heq, hopens, hclose⟩
    obtain rfl | ⟨after, p, rfl⟩ := List.eq_nil_or_concat after
    · obtain ⟨rfl, hr⟩ := List.append_inj' heq rfl
      exact .inl (List.singleton_inj.1 hr ▸ hopens)
    · rw [List.concat_eq_append, ← List.cons_append, ← List.append_assoc] at heq
      obtain ⟨rfl, hr⟩ := List.append_inj' heq rfl
      obtain rfl := List.singleton_inj.1 hr
      exact .inr ⟨⟨before, q, after, rfl, hopens, by grind⟩, by grind⟩
  · rintro (hopens | ⟨⟨before, q, after, rfl, hopens, hclose⟩, hr⟩)
    · exact ⟨requests, r, [], rfl, hopens, by simp⟩
    · exact ⟨before, q, after ++ [r], by simp, hopens, by grind⟩

/-- Behind a request the beeper holds a tone if it is opened by it, or holds one already and is not
closed. -/
theorem sound_perform (b : Beeper) (r : Request) :
    (b.perform r).2.sound ≠ none ↔ b.Opens r ∨ b.sound ≠ none ∧ r ≠ .close := by
  cases r with
  | openOn platform before =>
    obtain ⟨-, ho | ⟨e, ho⟩⟩ | ⟨sound, -, ⟨e, ho⟩ | ⟨tone, ho⟩⟩ :=
      b.openOn_cases platform before <;>
      simp [perform, Opens, ho, Outcome.done, Outcome.stopped]
  | update wanted =>
    by_cases hs : b.sound = none
    · simp [perform, Opens, update_of_silent hs, hs]
    · simp [perform, Opens, update_of_ready hs]
  | close => simp [perform, close, Opens]

theorem sound_performAll (h : b.sound = none) (requests : List Request) :
    (b.performAll requests).2.sound ≠ none ↔ b.IsOpenAfter requests := by
  induction requests using List.reverseRecOn with
  | nil => simp [performAll, IsOpenAfter, h]
  | append_singleton requests r ih =>
    rw [performAll_concat, isOpenAfter_concat, sound_perform, ih]

/-- Whatever has been asked of a new beeper, its tones begin and end in turn. It plays if and only
if the last call to switch a sound is a start, and then it holds a tone; it holds one if and only if
it is open. To be told whether a tone is wanted calls nothing and changes nothing if and only if
this is the case already, or the beeper is not open. Once it is closed, it neither plays nor holds a
tone. -/
theorem tones_begin_and_end_in_turn (sampleRate : Int) (frequency volume : Quantity)
    (requests : List Request) :
    let b := closed sampleRate frequency volume
    let c := (b.performAll requests).2
    let calls := (b.performAll requests).1.filter Call.isSwitch
    (∃ n, calls = pulses n ∨ calls = pulses n ++ [.play (-1)]) ∧
      (c.playing = true ↔ calls.getLast? = some (.play (-1))) ∧
      (c.playing = true → c.sound ≠ none) ∧
      (c.sound ≠ none ↔ b.IsOpenAfter requests) ∧
      (∀ wanted, c.update wanted = ([], c) ↔
        wanted = c.playing ∨ ¬b.IsOpenAfter requests) ∧
      c.close.2.playing = false ∧ c.close.2.sound = none := by
  intro b c calls
  have hstep : InStep (b.performAll requests).1 c :=
    (InStep.closed sampleRate frequency volume).performAll requests
  have hsound : c.sound ≠ none ↔ b.IsOpenAfter requests := sound_performAll rfl requests
  refine ⟨?_, hstep.playing_iff, hstep.held, hsound, fun wanted => ?_, ?_⟩
  · obtain ⟨n, hn⟩ := hstep.switches
    cases hp : c.playing with
    | false => exact ⟨n, .inl (by simpa [hp] using hn)⟩
    | true => exact ⟨n, .inr (by simpa [hp] using hn)⟩
  · rw [update_eq_self_iff, ← hsound, not_not]
  · rw [close_of_held hstep.held]
    exact ⟨rfl, rfl⟩

/-- There is no mixer at first, no tone can be made for the next one but one, whose rate is out of
all bounds, and a beeper that has been closed is told that a tone is wanted: two tones begin, and
the second one goes on. -/
theorem second_tone_behind_failed_openings :
    let b := closed usualRate usualFrequency usualVolume
    let device (rate channels : Int) : Platform := .willing (.device rate channels)
    let requests : List Request :=
      [.update true, .openOn (.willing (.absent "no device")) #[], .update true,
        .openOn (device 44100 2) #[], .update true, .openOn (device (1 <<< 1100) 1) #[],
        .update true, .close, .update true, .openOn (device 22050 1) #[], .update true]
    let c := (b.performAll requests).2
    let calls := (b.performAll requests).1.filter Call.isSwitch
    (b.openOn (device (1 <<< 1100) 1) #[]).2.fault? ≠ none ∧
      calls = [.play (-1), .stop, .play (-1)] ∧ c.playing = true ∧ b.IsOpenAfter requests ∧
      c.update true = ([], c) ∧ c.update false ≠ ([], c) ∧ c.close.2.playing = false := by
  intro b device requests c calls
  have hfails : (b.openOn (device (1 <<< 1100) 1) #[]).2.fault? ≠ none := by decide +kernel
  have hcalls : calls = [.play (-1), .stop, .play (-1)] := by decide +kernel
  clear_value requests
  obtain ⟨-, hplaying, hheld, hopen, hupdate, hclosed, -⟩ :=
    tones_begin_and_end_in_turn usualRate usualFrequency usualVolume requests
  have hon : c.playing = true := hplaying.2 (congrArg List.getLast? hcalls)
  have hafter : b.IsOpenAfter requests := hopen.1 (hheld hon)
  refine ⟨hfails, hcalls, hon, hafter, (hupdate true).2 (.inl hon.symm), fun hsame => ?_, hclosed⟩
  obtain hoff | hshut := (hupdate false).1 hsame
  · cases hoff.trans hon
  · exact hshut hafter

end Beeper

end ChipEight.Host
