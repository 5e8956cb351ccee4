import ChipEight.Host.Beeper

/-!
# The beeper as a switch

A beeper is told again and again whether a tone is wanted, and calls the host only when this
changes. So the calls that switch a sound can be told from the wishes alone: with the tone off
before and behind them they are pairs of a start and a stop, one for every time that a tone begins.

## Main definitions

* `Call.isSwitch`, `Call.Calm`, `looping`: the calls that switch a sound, those that neither do so
  nor shut down the host, and whether a sound goes on behind calls.
* `switches`: the calls for a list of wishes.
* `rises`, `pulses`: how often a tone begins, and the calls for that many tones.
* `Beeper.updateAll`: a beeper that is told one wish after another.
-/

namespace ChipEight.Host

/-! ## Sound among calls -/

namespace Call

/-- Whether the call switches a sound on or off. -/
def isSwitch : Call → Bool
  | .play _ | .stop => true
  | _ => false

/-- The call neither switches a sound nor shuts down the host. -/
def Calm (c : Call) : Prop := c ≠ .quit ∧ c.isSwitch = false

/-- Whether a sound goes on behind the call, `on` telling of the time before it. -/
def sounds (on : Bool) : Call → Bool
  | .play _ => true
  | .stop => false
  | _ => on

end Call

theorem filter_isSwitch_of_calm {calls : List Call} (h : ∀ c ∈ calls, c.Calm) :
    calls.filter Call.isSwitch = [] :=
  List.filter_eq_nil_iff.2 fun c hc => by simp [(h c hc).2]

/-- Whether a sound goes on behind all of the calls. -/
def looping (calls : List Call) : Bool := calls.foldl Call.sounds false

/-- No other calls matter to the sound. -/
theorem looping_filter (calls : List Call) :
    looping (calls.filter Call.isSwitch) = looping calls := by
  unfold looping
  generalize false = on
  induction calls generalizing on with
  | nil => rfl
  | cons c calls ih => cases c <;> exact ih _

/-! ## Wishes -/

/-- The calls that switch a sound, which is on or off at first, as it is wanted. -/
def switches (on : Bool) : List Bool → List Call
  | [] => []
  | wanted :: rest =>
    (if wanted = on then [] else [if wanted then .play (-1) else .stop]) ++ switches wanted rest

/-- How often a tone begins: it is wanted and was not before. -/
def rises (on : Bool) (tones : List Bool) : Nat := (tones.zip (on :: tones)).count (true, false)

theorem rises_cons (on tone : Bool) (tones : List Bool) :
    rises on (tone :: tones) = rises tone tones + if tone = true ∧ on = false then 1 else 0 := by
  simp [rises, List.count_cons]

/-- A sound is started and stopped, a number of times. -/
def pulses : Nat → List Call
  | 0 => []
  | n + 1 => .play (-1) :: .stop :: pulses n

theorem pulses_succ_eq_append (n : Nat) : pulses (n + 1) = pulses n ++ [.play (-1), .stop] := by
  induction n with
  | zero => rfl
  | succ n ih => exact congrArg (fun calls => .play (-1) :: .stop :: calls) ih

/-- The last call of pulses is no start. -/
theorem getLast?_pulses_ne (n : Nat) : (pulses n).getLast? ≠ some (.play (-1)) := by
  cases n with
  | zero => simp [pulses]
  | succ n => simp [pulses_succ_eq_append]

/-- If a tone is off in the end, every start has its stop behind it. -/
theorem switches_append_false (on : Bool) (tones : List Bool) :
    switches on (tones ++ [false]) =
      (if on then [.stop] else []) ++ pulses (rises on tones) := by
  induction tones generalizing on with
  | nil => cases on <;> rfl
  | cons tone tones ih =>
    rw [List.cons_append, switches, ih, rises_cons]
    cases on <;> cases tone <;> simp [pulses]

theorem looping_pulses (n : Nat) : looping (pulses n) = false := by
  induction n with
  | zero => rfl
  | succ n ih => exact ih

theorem count_play_pulses (n : Nat) : (pulses n).count (.play (-1)) = n := by
  induction n with
  | zero => rfl
  | succ n ih => simp [pulses, ih]

/-! ## A beeper and its wishes -/

namespace Beeper

variable {b : Beeper}

/-- What a beeper calls and becomes if it is told one wish after another. -/
def updateAll (b : Beeper) : List Bool → List Call × Beeper
  | [] => ([], b)
  | wanted :: rest =>
    let (calls, b) := b.update wanted
    let (calls', b) := b.updateAll rest
    (calls ++ calls', b)

theorem updateAll_append (b : Beeper) (xs ys : List Bool) :
    b.updateAll (xs ++ ys) =
      ((b.updateAll xs).1 ++ ((b.updateAll xs).2.updateAll ys).1,
        ((b.updateAll xs).2.updateAll ys).2) := by
  induction xs generalizing b with
  | nil => simp [updateAll]
  | cons x xs ih => simp [updateAll, ih]

/-- Without a tone that is ready nothing is called. -/
theorem update_of_silent (h : b.sound = none) (wanted : Bool) : b.update wanted = ([], b) := by
  simp [update, h]

theorem update_of_ready (h : b.sound ≠ none) (wanted : Bool) :
    b.update wanted =
      (if wanted = b.playing then [] else [if wanted then .play (-1) else .stop],
        { b with playing := wanted }) := by
  by_cases hw : wanted = b.playing
  · simp [update, hw]
  · simp [update, h, hw]

/-- Nothing is called for what is the case already, or without a tone. -/
theorem update_eq_self_iff (wanted : Bool) :
    b.update wanted = ([], b) ↔ wanted = b.playing ∨ b.sound = none := by
  by_cases hs : b.sound = none
  · simp [update_of_silent hs, hs]
  · rw [update_of_ready hs]
    by_cases hw : wanted = b.playing <;> simp [hw, hs]

/-- A beeper that holds a tone whenever it plays gives up both. -/
theorem close_of_held (h : b.playing = true → b.sound ≠ none) :
    b.close = (if b.playing then [.stop] else [], { b with playing := false, sound := none }) := by
  cases hp : b.playing with
  | false => simp [close, update, hp]
  | true => simp [close, update_of_ready (h hp), hp]

theorem calls_update (b : Beeper) (wanted : Bool) :
    ∀ c ∈ (b.update wanted).1, c = .play (-1) ∨ c = .stop := by
  unfold update
  split
  · simp
  · cases wanted <;> simp

/-- A beeper that is told a wish calls nothing that does not switch a sound. -/
theorem filter_update (b : Beeper) (wanted : Bool) :
    (b.update wanted).1.filter Call.isSwitch = (b.update wanted).1 :=
  List.filter_eq_self.2 fun c hc => by obtain rfl | rfl := b.calls_update wanted c hc <;> rfl

theorem filter_close (b : Beeper) : b.close.1.filter Call.isSwitch = b.close.1 :=
  b.filter_update false

/-- With a tone that is ready, what is called and whether it plays follow from the wishes. -/
theorem updateAll_of_ready (h : b.sound ≠ none) (tones : List Bool) :
    b.updateAll tones =
      (switches b.playing tones, { b with playing := tones.getLastD b.playing }) := by
  induction tones generalizing b with
  | nil => rfl
  | cons tone tones ih =>
    have hrest := ih (b := { b with playing := tone }) h
    rw [updateAll, update_of_ready h]
    simp only [hrest, switches, List.getLastD_cons]

theorem playing_updateAll (h : b.sound ≠ none) (tones : List Bool) :
    (b.updateAll tones).2.playing = tones.getLastD b.playing := by
  rw [updateAll_of_ready h]

/-- A beeper that has been opened, told wishes and closed. -/
theorem close_updateAll (h : b.sound ≠ none) (hp : b.playing = false) (tones : List Bool) :
    (b.updateAll tones).1 ++ (b.updateAll tones).2.close.1 = pulses (rises false tones) ∧
      (b.updateAll tones).2.close.2 = { b with sound := none } := by
  have hlast (c : Beeper) : c.updateAll [false] = c.update false := by simp [updateAll]
  have hall := updateAll_append b tones [false]
  rw [updateAll_of_ready h (tones ++ [false]), switches_append_false, hlast, hp] at hall
  obtain ⟨hcalls, hbeeper⟩ := Prod.ext_iff.1 hall
  constructor
  · exact hcalls.symm
  · show { ((b.updateAll tones).2.update false).2 with sound := none } = _
    rw [← hbeeper, List.getLastD_concat, ← hp]

/-! ## The beeper is opened -/

/-- There is no mixer, or no tone can be made for it, or the host makes no sound of the tone, or the
beeper becomes ready. -/
theorem openOn_cases (b : Beeper) (platform : Platform) (before : Array Call) :
    let calls := (b.openOn platform before).1.calls.toList
    let o := (b.openOn platform before).2
    (calls = [.mixerInit b.sampleRate (-16) 1] ∧ (o = .done b false ∨ ∃ e, o = .stopped b e)) ∨
    ∃ sound, calls = [.mixerInit b.sampleRate (-16) 1, .makeSound sound] ∧
      ((∃ e, o = .stopped b e) ∨ ∃ tone, o = .done { b with sound := some tone } true) := by
  unfold openOn
  cases platform.mixer with
  | absent reason => exact .inl ⟨rfl, .inl rfl⟩
  | device rate channels =>
    rcases htone : b.tone platform rate channels with e | tone <;> simp only [htone]
    · exact .inl ⟨rfl, .inr ⟨e, rfl⟩⟩
    · refine .inr ⟨soundOf tone channels, ?_⟩
      split
      · exact ⟨rfl, .inl ⟨_, rfl⟩⟩
      · exact ⟨rfl, .inr ⟨tone, rfl⟩⟩

/-- Whether or not a beeper can be opened, no sound is switched by it. -/
theorem calm_openOn (b : Beeper) (platform : Platform) (before : Array Call) :
    ∀ c ∈ (b.openOn platform before).1.calls.toList, c.Calm := by
  obtain ⟨hcalls, -⟩ | ⟨sound, hcalls, -⟩ := b.openOn_cases platform before <;>
    simp [hcalls, Call.Calm, Call.isSwitch]

end Beeper

end ChipEight.Host
