import ChipEight.Proofs.Host.Rounds

/-!
# A run as a fold over its events

Where a run of a window ends can be told from its events and its number of rounds alone: it ends
behind the first batch that asks to stop, or when its rounds are used up, whichever comes first.
Until then it makes one tick for every batch, with the keys that the events so far have left held.

## Main definitions

* `Feed.FirstStop`: the first batch that asks to stop.
-/

namespace ChipEight.Host

open Outcome Session

namespace Feed

/-- The batch behind `k` others is the first one that asks to stop. -/
def FirstStop (f : Feed) (k : Nat) : Prop :=
  (f.batch k).any Event.asksToStop = true ∧ ∀ i < k, (f.batch i).any Event.asksToStop = false

variable {f : Feed} {k : Nat}

theorem batch_of_length_le {i : Nat} (h : f.batches.length ≤ i) :
    f.batch i = if f.quitsAtEnd then [.quit] else [] := by
  rw [batch, List.getElem?_eq_none h, Option.getD_none]

/-- Batches behind the end are all alike, so the first one that asks to stop is not far behind. -/
theorem FirstStop.le_length (h : f.FirstStop k) : k ≤ f.batches.length := by
  refine Nat.le_of_not_lt fun hlt => ?_
  have hstop := h.1
  have hquiet := h.2 _ hlt
  rw [batch_of_length_le (Nat.le_of_lt hlt)] at hstop
  rw [batch_of_length_le (Nat.le_refl _), hstop] at hquiet
  cases hquiet

/-- A run without a number of rounds has enough of them to reach the first batch that asks to
stop. -/
theorem FirstStop.lt_rounds (h : f.FirstStop k) : k < rounds f none := by
  have hle := h.le_length
  have hstop := h.1
  by_cases hlt : k < f.batches.length
  · exact Nat.lt_of_lt_of_le hlt (Nat.le_add_right ..)
  · -- Behind the end only the quit of the feed can ask to stop.
    rw [batch_of_length_le (Nat.le_of_not_lt hlt)] at hstop
    cases hq : f.quitsAtEnd with
    | false => simp [hq] at hstop
    | true => simp only [rounds, hq, if_true]; omega

end Feed

namespace Window

variable {w : Window} {m : Machine} {feed : Feed} {platform : Platform} {limit : Option Int}

/-- A run whose rounds last until a batch asks to stop takes that batch to its end and makes no
tick behind it. -/
theorem run_of_firstStop
    (hhost : (w.run m feed platform limit).fault?.all RunFault.ofMachine = true)
    {k : Nat} (hk : feed.FirstStop k) (hlimit : ∀ n ∈ limit, k < n.toNat)
    (hok : (m.tickAll (w.reports feed k)).fault? = none) :
    let o := w.run m feed platform limit
    o.answer = .ok k ∧ o.state.machine = (m.tickAll (w.reports feed k)).state.1 ∧
      o.state.window.held = w.heldAfter feed (k + 1) ∧ o.state.feed = feed.skip (k + 1) := by
  have hlt : k < rounds feed limit := by
    cases limit with
    | some n => exact hlimit n rfl
    | none => exact hk.lt_rounds
  obtain ⟨s, t, hs, hfeed, hmachine, hticks, -, hrest, -⟩ :=
    loop_of_quiet hhost (Nat.le_of_lt hlt) hk.2
  obtain ⟨hskip, hheld, hkeymap, hloop⟩ := hrest hok
  -- The rounds are more than `k`, so the batch that asks to stop is polled too.
  obtain ⟨j, hj⟩ : ∃ j, rounds s.feed limit = k + (j + 1) :=
    ⟨rounds feed limit - k - 1, by rw [hfeed]; omega⟩
  have hstop : t.poll.window.stopRequested = true := by
    rw [Session.poll_eq, hskip, Feed.batch_skip, Nat.add_zero, hk.1]
    exact Bool.or_true _
  have hrun : w.run m feed platform limit = .done t.poll.finish t.poll.ticks :=
    run_of_done hs (by rw [hj, hloop, loop_of_stop hstop])
  rw [hrun]
  refine ⟨?_, ?_, ?_, ?_⟩
  · show Except.ok t.poll.ticks = _
    rw [ticks_poll, hticks]
    exact congrArg Except.ok ((length_inTurn_of_done hok).trans (length_reports w feed k))
  · show t.poll.finish.machine = _
    rw [machine_finish, machine_poll, hmachine]
  · show t.poll.finish.window.held = _
    rw [held_finish, held_poll, hskip, heldAfter_add hkeymap hheld]
  · show t.poll.finish.feed = _
    rw [feed_finish, feed_poll, hskip, Feed.skip_skip]

/-- A run whose rounds are used up before a batch asks to stop leaves the feed as it is behind
them. -/
theorem run_of_limit {n : Int}
    (hhost : (w.run m feed platform (some n)).fault?.all RunFault.ofMachine = true)
    (hq : ∀ i < n.toNat, (feed.batch i).any Event.asksToStop = false)
    (hok : (m.tickAll (w.reports feed n.toNat)).fault? = none) :
    let o := w.run m feed platform (some n)
    o.answer = .ok n.toNat ∧ o.state.machine = (m.tickAll (w.reports feed n.toNat)).state.1 ∧
      o.state.window.held = w.heldAfter feed n.toNat ∧ o.state.feed = feed.skip n.toNat := by
  obtain ⟨s, t, hs, -, hmachine, hticks, -, hrest, -⟩ := loop_of_quiet hhost (Nat.le_refl _) hq
  obtain ⟨hskip, hheld, -, hloop⟩ := hrest hok
  have hrun : w.run m feed platform (some n) = .done t.finish t.ticks := run_of_done hs (hloop 0)
  rw [hrun]
  refine ⟨?_, t.machine_finish.trans hmachine, t.held_finish.trans hheld,
    t.feed_finish.trans hskip⟩
  show Except.ok t.ticks = _
  rw [hticks]
  exact congrArg Except.ok ((length_inTurn_of_done hok).trans (length_reports w feed n.toNat))

/-- A run that is not ended by the host goes on until a batch of events asks to stop or its rounds
are used up. If `k` batches come before the first that asks to stop, and the rounds do not end with
them, there are `k` ticks and that batch is taken to its end; if the rounds are used up before,
there are as many ticks as rounds, and the feed is left for the next run with the batch behind them.
Either way every tick sees the keys that the events up to it have left held. -/
theorem run_follows_events
    (hhost : (w.run m feed platform limit).fault?.all RunFault.ofMachine = true) :
    let o := w.run m feed platform limit
    (∀ k, feed.FirstStop k → (∀ n ∈ limit, k < n.toNat) →
      let played := m.tickAll (w.reports feed k)
      played.fault? = none →
        o.answer = .ok k ∧ o.state.machine = played.state.1 ∧
        o.state.window.held = w.heldAfter feed (k + 1) ∧
        o.state.feed = feed.skip (k + 1)) ∧
    ∀ n ∈ limit, (∀ i < n.toNat, (feed.batch i).any Event.asksToStop = false) →
      let played := m.tickAll (w.reports feed n.toNat)
      played.fault? = none →
        o.answer = .ok n.toNat ∧ o.state.machine = played.state.1 ∧
        o.state.window.held = w.heldAfter feed n.toNat ∧
        o.state.feed = feed.skip n.toNat := by
  constructor
  · intro k hk hlimit played hok
    exact run_of_firstStop hhost hk hlimit hok
  · intro n hn hq played hok
    obtain rfl : limit = some n := hn
    exact run_of_limit hhost hq hok

/-- A key that goes down before the end is asked for and one that goes down behind it: the machine
waits for a key and sees the first, and both are held in the end. -/
theorem first_key_seen_and_second_held :
    let m := (Machine.fresh (.tape [] 0)).perform (.load [0xF0, 0x0A])
    let w := create 16 300 usualTitle [(120, 7), (121, 9)] .usual none
    let feed : Feed := ⟨[[.keyDown 120], [.other, .quit, .keyDown 121], [.keyUp 120]], false⟩
    let o := w.run m feed (.willing (.absent "")) (some 5)
    o.answer = .ok 1 ∧ o.state.machine.reg 0 = 7 ∧ o.state.window.held.held = [7, 9] ∧
      o.state.feed.batches = [[.keyUp 120]] := by
  intro m w feed o
  have hm : m.Reachable := (Machine.Reachable.fresh _).perform _
  have hhost : o.fault?.all RunFault.ofMachine = true :=
    ofMachine_of_willing hm.bounded (by decide +kernel) (some 5)
  have hstop : feed.FirstStop 1 := ⟨by decide +kernel, by decide +kernel⟩
  have hok : (m.tickAll (w.reports feed 1)).fault? = none := by decide +kernel
  have hlimit : ∀ n ∈ some (5 : Int), 1 < n.toNat := by
    rintro n ⟨⟩
    decide
  obtain ⟨ha, hmachine, hheld, hfeed⟩ := (run_follows_events hhost).1 1 hstop hlimit hok
  refine ⟨ha, ?_, ?_, ?_⟩
  · rw [hmachine]
    decide +kernel
  · rw [hheld]
    decide +kernel
  · rw [hfeed]
    rfl

end Window

end ChipEight.Host
