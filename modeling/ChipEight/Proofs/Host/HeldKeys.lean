import ChipEight.Proofs.Host.Runners

/-!
# Which keys are held

Several host keys may stand for one key, but a window keeps one flag for it and nothing for each of
them. So the flag follows the latest event of any host key that stands for the key. It is never set
while all of them are up, and if there is but one, it is set exactly while that one is down. But it
is cleared when one of several host keys comes up, even if another one is still down.

## Main definitions

* `Event.moves?`, `Host.latestMove?`: what an event, and what the latest of many, does to host keys
  of some kind.
* `Host.IsDown`, `Host.Alternate`: a host key that is down, and events of host keys that go down and
  come up by turns.
* `Window.StandsFor`: the host keys that stand for a key.
* `Feed.only`: the events that pass a test.
-/

namespace ChipEight

theorem Keypad.get_released (k : Key) : released.get k = false := by
  simp [released, get]

namespace Host

open Session

namespace Event

/-- Whether the event presses or releases a host key of some kind, if it is about one. -/
def moves? (P : Int → Bool) : Event → Option Bool
  | .keyDown key => if P key then some true else none
  | .keyUp key => if P key then some false else none
  | _ => none

/-- Whether the event is about no host key that stands for nothing. -/
def isMapped (keyOf : Int → Option Key) (e : Event) : Bool :=
  e.hostKey?.all fun key => (keyOf key).isSome

end Event

/-- Whether the latest event about host keys of some kind presses or releases one. -/
def latestMove? (P : Int → Bool) (events : List Event) : Option Bool :=
  events.findSomeRev? (Event.moves? P)

/-- The latest event about the host key presses it. -/
def IsDown (events : List Event) (key : Int) : Prop := latestMove? (· = key) events = some true

instance (events : List Event) (key : Int) : Decidable (IsDown events key) :=
  inferInstanceAs (Decidable (_ = _))

/-- Every host key goes down and comes up by turns, and goes down first. -/
def Alternate (events : List Event) : Prop :=
  ∀ key : Int, (false :: events.filterMap (Event.moves? (· = key))).IsChain (· ≠ ·)

/-- The host key stands for a key. -/
def Window.StandsFor (w : Window) (key : Int) (k : Key) : Prop := w.keyOf key = some k

instance (w : Window) (key : Int) (k : Key) : Decidable (w.StandsFor key k) :=
  inferInstanceAs (Decidable (_ = _))

theorem Window.StandsFor.mem_keymap {w : Window} {key : Int} {k : Key} (h : w.StandsFor key k) :
    (key, k) ∈ w.keymap := by
  obtain ⟨⟨key', k'⟩, hentry, rfl⟩ := Option.map_eq_some_iff.1 h
  rw [List.findRev?_eq_find?_reverse] at hentry
  obtain rfl : key' = key := by simpa using List.find?_some hentry
  exact List.mem_reverse.1 (List.mem_of_find?_eq_some hentry)

namespace Feed

/-- The events of the first `n` batches. -/
def events (f : Feed) (n : Nat) : List Event := (List.range n).flatMap f.batch

/-- The feed with the events alone that pass a test. -/
def only (p : Event → Bool) (f : Feed) : Feed :=
  { f with batches := f.batches.map (List.filter p) }

end Feed

variable {keyOf : Int → Option Key} {P : Int → Bool} {e : Event} {es : List Event}

/-! ## One event -/

namespace Event

/-- A key is held behind an event if a host key for it was pressed, and not if one was released. -/
theorem get_hold (hescape : keyOf escapeKey = none) (held : Keypad) (e : Event) (k : Key) :
    (e.hold keyOf held).get k = (e.moves? fun key => keyOf key = some k).getD (held.get k) := by
  cases e with
  | keyDown key =>
    by_cases h : key = escapeKey
    · subst h
      simp [hold, moves?, hescape]
    · cases hk : keyOf key with
      | none => simp [hold, moves?, h, hk]
      | some l => by_cases hl : l = k <;> simp [hold, moves?, h, hk, hl, Keypad.get_set]
  | keyUp key =>
    cases hk : keyOf key with
    | none => simp [hold, moves?, hk]
    | some l => by_cases hl : l = k <;> simp [hold, moves?, hk, hl, Keypad.get_set]
  | quit | other | stop => rfl

theorem moves?_eq_none_iff : e.moves? P = none ↔ ∀ key ∈ e.hostKey?, P key = false := by
  cases e <;> simp [moves?, hostKey?]

theorem moves?_eq_some_true_iff :
    e.moves? P = some true ↔ ∃ key, e = .keyDown key ∧ P key = true := by
  cases e <;> simp [moves?]

end Event

/-! ## Many events -/

/-- What an earlier event did counts only if no later one is about such a host key. -/
theorem latestMove?_cons (P : Int → Bool) (e : Event) (es : List Event) :
    latestMove? P (e :: es) = (latestMove? P es).or (e.moves? P) := by
  rw [latestMove?, latestMove?, List.findSomeRev?]
  cases es.findSomeRev? (Event.moves? P) <;> rfl

theorem latestMove?_cons_eq_some_iff {b : Bool} :
    latestMove? P (e :: es) = some b ↔
      latestMove? P es = some b ∨ latestMove? P es = none ∧ e.moves? P = some b := by
  rw [latestMove?_cons, Option.or_eq_some_iff]

theorem latestMove?_eq_none_iff :
    latestMove? P es = none ↔ ∀ e ∈ es, ∀ key ∈ e.hostKey?, P key = false := by
  induction es with
  | nil => simp [latestMove?, List.findSomeRev?]
  | cons e es ih => grind [latestMove?_cons, Event.moves?_eq_none_iff]

/-- Events that are about no host key of a kind are about none of a narrower kind. -/
theorem latestMove?_eq_none_of_imp {Q : Int → Bool} (hQ : ∀ key, Q key = true → P key = true)
    (h : latestMove? P es = none) : latestMove? Q es = none := by
  rw [latestMove?_eq_none_iff] at h ⊢
  intro e he key hkey
  have hP := h e he key hkey
  exact Bool.eq_false_of_not_eq_true fun hQkey => absurd (hQ key hQkey) (by simp [hP])

/-- If the latest event about some host keys is a press, then one of them is down. -/
theorem exists_isDown (h : latestMove? P es = some true) : ∃ key, P key = true ∧ IsDown es key := by
  induction es with
  | nil => cases h
  | cons e es ih =>
    obtain hlater | ⟨hnone, he⟩ := latestMove?_cons_eq_some_iff.1 h
    · obtain ⟨key, hkey, hdown⟩ := ih hlater
      exact ⟨key, hkey, latestMove?_cons_eq_some_iff.2 (.inl hdown)⟩
    · obtain ⟨key, rfl, hkey⟩ := Event.moves?_eq_some_true_iff.1 he
      have hquiet : latestMove? (· = key) es = none :=
        latestMove?_eq_none_of_imp (fun l hl => of_decide_eq_true hl ▸ hkey) hnone
      have hpress : Event.moves? (· = key) (.keyDown key) = some true := by simp [Event.moves?]
      exact ⟨key, hkey, latestMove?_cons_eq_some_iff.2 (.inr ⟨hquiet, hpress⟩)⟩

theorem get_foldl_hold (hescape : keyOf escapeKey = none) (held : Keypad) (es : List Event)
    (k : Key) :
    (es.foldl (Event.hold keyOf) held).get k =
      (latestMove? (fun key => keyOf key = some k) es).getD (held.get k) := by
  induction es generalizing held with
  | nil => rfl
  | cons e es ih =>
    rw [List.foldl_cons, ih, Event.get_hold hescape, latestMove?_cons]
    cases latestMove? (fun key => keyOf key = some k) es <;> rfl

/-- Events about host keys that stand for no key can be left out. -/
theorem foldl_hold_filter (keyOf : Int → Option Key) (held : Keypad) (es : List Event) :
    (es.filter (Event.isMapped keyOf)).foldl (Event.hold keyOf) held =
      es.foldl (Event.hold keyOf) held := by
  induction es generalizing held with
  | nil => rfl
  | cons e es ih =>
    cases h : e.isMapped keyOf with
    | true => rw [List.filter_cons_of_pos h, List.foldl_cons, List.foldl_cons, ih]
    | false =>
      have hnone : ∀ key ∈ e.hostKey?, keyOf key = none := by
        intro key hkey
        rw [Event.isMapped, hkey] at h
        exact Option.isNone_iff_eq_none.1 (by simpa using h)
      rw [List.filter_cons_of_neg (by simp [h]), List.foldl_cons, Event.hold_of_forall hnone, ih]

/-! ## Polls -/

namespace Feed

theorem batch_only {p : Event → Bool} (hquit : p .quit = true) (f : Feed) :
    (f.only p).batch = fun i => (f.batch i).filter p := by
  funext i
  simp only [batch, only, List.getElem?_map]
  cases f.batches[i]? with
  | some batch => rfl
  | none => by_cases hq : f.quitsAtEnd = true <;> simp [hquit, hq]

theorem events_only {p : Event → Bool} (hquit : p .quit = true) (f : Feed) (n : Nat) :
    (f.only p).events n = (f.events n).filter p := by
  rw [events, events, batch_only hquit, List.filter_flatMap]

end Feed

/-- Polls take the batches of the feed one by one. -/
theorem iterate_poll (s : Session) (n : Nat) :
    (poll^[n] s).feed = s.feed.skip n ∧ (poll^[n] s).window.keymap = s.window.keymap ∧
      (poll^[n] s).window.held = s.window.heldAfter s.feed n := by
  induction n with
  | zero => exact ⟨rfl, rfl, rfl⟩
  | succ n ih =>
    obtain ⟨hfeed, hkeymap, hheld⟩ := ih
    rw [Function.iterate_succ_apply', feed_poll, keymap_poll, held_poll, hfeed, Feed.skip_skip,
      Window.heldAfter_add hkeymap hheld]
    exact ⟨rfl, hkeymap, rfl⟩

theorem held_iterate_poll (s : Session) (n : Nat) :
    (poll^[n] s).window.held = (s.feed.events n).foldl (Event.hold s.window.keyOf) s.window.held :=
  (iterate_poll s n).2.2

namespace Session

/-- From a keypad on which nothing is held, a key is held behind a poll exactly if the latest event
so far of the host keys that stand for it is a press. So some host key for it is down while it is
held, and if no other host key stands for it, it is held as long as that one is down. Host keys
that stand for nothing have no effect. -/
theorem held_follows_latest_event {s : Session} (hstart : s.window.held = .released)
    (hescape : s.window.keyOf escapeKey = none) (n : Nat) :
    let w := s.window
    let events := s.feed.events n
    let held := (poll^[n] s).window.held
    (∀ k, (held.get k = true ↔ latestMove? (w.StandsFor · k) events = some true) ∧
      (held.get k = true → ∃ key, w.StandsFor key k ∧ IsDown events key) ∧
      ((∀ key key', w.StandsFor key k → w.StandsFor key' k → key = key') →
        (held.get k = true ↔ ∃ key, w.StandsFor key k ∧ IsDown events key))) ∧
    (poll^[n] { s with feed := s.feed.only (Event.isMapped w.keyOf) }).window.held = held := by
  intro w events held
  have hflag (k : Key) : held.get k = (latestMove? (w.StandsFor · k) events).getD false := by
    rw [show held = _ from held_iterate_poll s n, get_foldl_hold hescape, hstart,
      Keypad.get_released]
    rfl
  have hget (k : Key) :
      held.get k = true ↔ latestMove? (w.StandsFor · k) events = some true := by
    rw [hflag]
    cases latestMove? (w.StandsFor · k) events <;> simp
  have hdown (k : Key) (hk : held.get k = true) :
      ∃ key, w.StandsFor key k ∧ IsDown events key := by
    obtain ⟨key, hkey, hdown⟩ := exists_isDown ((hget k).1 hk)
    exact ⟨key, of_decide_eq_true hkey, hdown⟩
  refine ⟨fun k => ⟨hget k, hdown k, fun hone => ⟨hdown k, ?_⟩⟩, ?_⟩
  · rintro ⟨key, hkey, hdown⟩
    have honly : (fun l => decide (w.StandsFor l k)) = fun l => decide (l = key) := by
      funext l
      exact decide_eq_decide.2 ⟨fun hl => hone l key hl hkey, fun hl => hl ▸ hkey⟩
    rw [hget k, honly]
    exact hdown
  · rw [held_iterate_poll, Feed.events_only rfl]
    exact (foldl_hold_filter w.keyOf w.held events).trans (held_iterate_poll s n).symm

/-- Two host keys stand for seven and one for nine; all three go down, and one of the two comes
up, as does one that stands for nothing. -/
theorem nine_held_and_seven_not :
    let w := Window.create 16 300 Window.usualTitle [(120, 7), (121, 7), (50, 9)] .usual none
    let feed : Feed :=
      ⟨[[.keyDown 120, .keyDown 121, .keyDown 50], [.keyUp 121, .other, .keyUp 51]], false⟩
    let s : Session := .fresh w (.fresh (.tape [] 0)) feed (.willing (.absent ""))
    let held := (poll^[2] s).window.held
    w.held = .released ∧ w.keyOf escapeKey = none ∧
      IsDown (feed.events 2) 50 ∧ held.get 9 = true ∧ held.get 7 = false := by
  intro w feed s held
  have hstart : s.window.held = .released := rfl
  have hescape : s.window.keyOf escapeKey = none := by decide
  have hdown : IsDown (feed.events 2) 50 := by decide
  have hnine : w.StandsFor 50 9 := by decide
  have honly (key : Int) (hkey : w.StandsFor key 9) : key = 50 := by
    simpa [w, Window.create] using hkey.mem_keymap
  obtain ⟨hkeys, -⟩ := held_follows_latest_event hstart hescape 2
  obtain ⟨-, -, hone⟩ := hkeys 9
  have hheld := (hone fun l l' hl hl' => (honly l hl).trans (honly l' hl').symm).2
    ⟨50, hnine, hdown⟩
  have hseven : latestMove? (w.StandsFor · 7) (feed.events 2) = some false := by decide
  refine ⟨hstart, hescape, hdown, hheld, Bool.eq_false_of_not_eq_true fun h => ?_⟩
  have hpress := (hkeys 7).1.1 h
  exact absurd (hseven.symm.trans hpress) (by decide)

/-- Host keys that stand for the same key do not add up. Two of them go down and one comes up, and
the key is not held, though the other one is still down. -/
theorem released_under_pressed_host_key :
    let w := Window.create 16 300 Window.usualTitle [(120, 7), (121, 7)] .usual none
    let feed : Feed := ⟨[[.keyDown 120, .keyDown 121], [.keyUp 121]], false⟩
    let s : Session := .fresh w (.fresh (.tape [] 0)) feed (.willing (.absent ""))
    w.held = .released ∧ w.keyOf escapeKey = none ∧ Alternate (feed.events 2) ∧
      ¬((poll^[2] s).window.held.get 7 = true ↔
        ∃ key, w.StandsFor key 7 ∧ IsDown (feed.events 2) key) := by
  intro w feed s
  have hdown : w.StandsFor 120 7 ∧ IsDown (feed.events 2) 120 := by decide
  have hreleased : (poll^[2] s).window.held.get 7 = false := by decide
  refine ⟨rfl, by decide, fun key => ?_, fun h => ?_⟩
  · have hevents : feed.events 2 = [.keyDown 120, .keyDown 121, .keyUp 121] := rfl
    rw [hevents]
    by_cases hfirst : 120 = key
    · subst hfirst
      decide
    · by_cases hsecond : 121 = key
      · subst hsecond
        decide
      · simp [Event.moves?, hfirst, hsecond]
  · rw [h.2 ⟨120, hdown⟩] at hreleased
    cases hreleased

end Session

end Host

end ChipEight
