import ChipEight.Proofs.Host.Rounds

/-!
# No screen is stale

The screen is shown once before the loop and then only behind ticks that signal a redraw. As no
other tick changes a pixel, what can be seen is the screen of the machine all the same, from the
start of the loop on and after every completed tick. For the same reason the last snapshot of a
recorded run is the screen of the machine.

## Main definitions

* `Canvas`, `Effects.visible`: what can be seen after calls to the host.
* `Session.UpToDate`: what can be seen is the screen of the machine.
-/

namespace ChipEight

open Outcome Host

namespace Host

/-! ## What can be seen -/

/-- A picture takes three steps to be seen: it is drawn on a surface, the surface is drawn on the
hidden side of the window, and the sides are swapped. -/
structure Canvas where
  surface : Option Picture
  hidden : Option Picture
  front : Option Picture

namespace Canvas

def blank : Canvas := ⟨none, none, none⟩

def after (c : Canvas) : Call → Canvas
  | .surface _ _ => { c with surface := none }
  | .setMode _ _ => { c with hidden := none, front := none }
  | .blit p => { c with surface := some p }
  | .scale _ _ => { c with hidden := c.surface }
  | .flip => { c with front := c.hidden }
  | _ => c

end Canvas

/-- The picture that can be seen after all calls. -/
def Effects.visible (e : Effects) : Option Picture :=
  (e.calls.toList.foldl Canvas.after .blank).front

/-- Sound and time do not reach the canvas. -/
theorem Canvas.foldl_after_of_beeps {beeps : List Call}
    (h : ∀ c ∈ beeps, c = .play (-1) ∨ c = .stop) (c : Canvas) :
    beeps.foldl Canvas.after c = c := by
  induction beeps with
  | nil => rfl
  | cons b beeps ih =>
    obtain ⟨rfl | rfl, hbeeps⟩ := List.forall_mem_cons.1 h <;> exact ih hbeeps

namespace Session

variable {s t : Session} {m : Machine} {keys : Keys} {signals : Signals} {n : Nat}

/-! ## The invariant of the loop -/

/-- What can be seen is the screen of the machine. -/
def UpToDate (s : Session) : Prop :=
  ∃ p, Picture.ofScreen s.machine.screen s.window.palette = .ok p ∧ s.effects.visible = some p

/-- What a completed round leaves is up to date: the screen is shown if this is signalled, and is
what it was if not. -/
theorem UpToDate.of_completed (hs : s.UpToDate) (ht : s.machine.tick keys = .done m signals)
    (h : s.poll.Completed m signals t) : t.UpToDate := by
  obtain ⟨beeper, hwindow⟩ := h.window
  obtain ⟨shown, beeps, hredraw, hno, hbeeps, hcalls⟩ := h.calls
  have hpalette : t.window.palette = s.window.palette := by simp [hwindow]
  have hvisible : t.effects.visible =
      (shown.foldl Canvas.after (s.effects.calls.toList.foldl Canvas.after .blank)).front := by
    rw [Effects.visible, hcalls, List.foldl_append, List.foldl_append,
      Canvas.foldl_after_of_beeps hbeeps, List.foldl_append, effects_poll]
    rfl
  rw [UpToDate, hvisible, h.machine, hpalette]
  cases hr : signals.redraw with
  | true =>
    obtain ⟨p, hp, rfl⟩ := hredraw hr
    exact ⟨p, by rwa [palette_poll] at hp, rfl⟩
  | false =>
    rw [hno hr, Machine.screen_of_tick ht hr]
    exact hs

/-- A loop that the host does not end comes to the session after any of the ticks that it completes,
and goes on from it. -/
theorem loop_reaches (hs : s.UpToDate)
    (hhost : (s.loop n).fault?.all RunFault.ofMachine = true) {j : Nat}
    (hj : s.ticks + j ≤ (s.loop n).state.ticks) :
    ∃ t, s.loop j = .done t () ∧ t.ticks = s.ticks + j ∧ t.UpToDate ∧
      t.window.palette = s.window.palette ∧ s.loop n = t.loop (n - j) := by
  -- A loop that ends before its first tick is completed has counted none, against `hj`.
  induction j generalizing s n with
  | zero => exact ⟨s, rfl, rfl, hs, rfl, rfl⟩
  | succ j ih =>
    cases n with
    | zero =>
      simp only [loop, state_done] at hj
      omega
    | succ n =>
      cases hstop : s.poll.window.stopRequested with
      | true =>
        rw [loop_of_stop hstop] at hj
        simp only [state_done, ticks_poll] at hj
        omega
      | false =>
        obtain ⟨m, e, t, -, hstep, -, hticks, -⟩ | ⟨_, _, t, e, -, hstep, he⟩ |
          ⟨m, signals, t, ht, hstep, hround⟩ := s.round_cases
        · rw [loop_of_stopped hstop hstep] at hj
          simp only [state_stopped, hticks] at hj
          omega
        · rw [loop_of_stopped hstop hstep, fault?_stopped, Option.all_some, he.not_ofMachine] at hhost
          cases hhost
        · obtain ⟨beeper, hwindow⟩ := hround.window
          have hticks : t.ticks = s.ticks + 1 := by rw [hround.ticks, ticks_poll]
          rw [loop_of_done hstop hstep] at hj hhost
          obtain ⟨u, hu, huticks, hupToDate, hpalette, hrest⟩ :=
            ih (hs.of_completed ht hround) hhost (by omega)
          refine ⟨u, ?_, by omega, hupToDate, ?_, ?_⟩
          · rw [loop_of_done hstop hstep, hu]
          · simp [hpalette, hwindow]
          · rw [loop_of_done hstop hstep, hrest, Nat.add_sub_add_right]

end Session

/-- What a run of a window has come to after any of the ticks that it completes, if it is not ended
by the host. -/
theorem Window.loop_up_to_date {w : Window} {m : Machine} {feed : Feed} {platform : Platform}
    {limit : Option Int} {s : Session} (hs : w.loopStart m feed platform = .done s ())
    (hhost : (w.run m feed platform limit).fault?.all RunFault.ofMachine = true) {j : Nat}
    (hj : j ≤ (w.run m feed platform limit).state.ticks) :
    let t := (s.loop j).state
    let n := Session.rounds s.feed limit
    t.ticks = j ∧ s.loop n = t.loop (n - j) ∧
      ∃ p, Picture.ofScreen t.machine.screen w.palette = .ok p ∧ t.effects.visible = some p := by
  intro t n
  have h := started_of_loopStart hs
  obtain ⟨p, before, hp, hcalls⟩ := h.shown
  obtain ⟨beeper, hwindow⟩ := h.window
  have hpalette : s.window.palette = w.palette := by rw [hwindow]
  have hstart : s.UpToDate := by
    refine ⟨p, by rwa [h.machine, hpalette], ?_⟩
    rw [Effects.visible, hcalls, List.foldl_append]
    rfl
  rw [run_of_loopStart hs] at hj
  obtain ⟨u, hu, hticks, hupToDate, hpalette', hrest⟩ :=
    Session.loop_reaches hstart (n := n) (j := j) (by rwa [← fault?_run hs])
      (by simpa [h.ticks] using hj)
  obtain rfl : t = u := congrArg Outcome.state hu
  refine ⟨by rw [hticks, h.ticks, Nat.zero_add], hrest, ?_⟩
  rw [← hpalette, ← hpalette']
  exact hupToDate

end Host

/-! ## The invariant of a recorder -/

namespace Recorder

variable {r : Recorder} {m : Machine} {keys : Keys} {n : Nat}

/-- A recorded run goes on from where its first ticks have left the recorder and the machine. -/
theorem recordTicks_add (h : (r.recordTicks m keys n).fault? = none) (k : Nat) :
    r.recordTicks m keys (n + k) =
      (r.recordTicks m keys n).state.1.recordTicks (r.recordTicks m keys n).state.2 keys k := by
  induction n generalizing r m with
  | zero => simp only [Nat.zero_add, recordTicks, done]
  | succ n ih =>
    rw [Nat.add_right_comm]
    simp only [recordTicks] at h ⊢
    rcases ht : m.tick keys with ⟨t, e | signals⟩
    · rw [ht] at h
      cases h
    · rw [ht] at h
      exact ih h

/-- What a run adds to the snapshots ends with the screen of the machine, and it adds nothing only
if that screen is the one of the start. -/
theorem screen_recordTicks (h : (r.recordTicks m keys n).fault? = none) :
    ∃ new, (r.recordTicks m keys n).state.1.snapshots = r.snapshots ++ new ∧
      (r.recordTicks m keys n).state.2.screen = new.back?.getD m.screen := by
  induction n generalizing r m with
  | zero => exact ⟨#[], by simp [recordTicks], rfl⟩
  | succ n ih =>
    simp only [recordTicks] at h ⊢
    rcases ht : m.tick keys with ⟨t, e | signals⟩
    · rw [ht] at h
      cases h
    · rw [ht] at h
      obtain ⟨new, hnew, hscreen⟩ := ih h
      cases hr : signals.redraw with
      | true =>
        refine ⟨#[t.screen] ++ new, hnew.trans ?_, hscreen.trans ?_⟩
        · simp [note, hr]
        · cases hb : new.back? <;> simp [hb]
      | false =>
        refine ⟨new, hnew.trans ?_, hscreen.trans ?_⟩
        · simp [note, hr]
        · rw [Machine.screen_of_tick ht hr]

end Recorder

/-! ## Windows and recorders -/

namespace Machine

variable {m : Machine}

/-- When the loop of a window begins and after every tick that it completes, what can be seen is
the screen that the machine has by then, unless the host refuses to show it. After every completed
tick of a recorded run, the screen is the last snapshot of this run, or what it was at the start if
there is none. -/
theorem no_screen_is_stale (m : Machine) :
    (∀ (w : Window) (feed : Feed) (platform : Platform) (limit : Option Int) (s : Session),
      w.loopStart m feed platform = .done s () →
      (w.run m feed platform limit).fault?.all RunFault.ofMachine = true →
      ∀ j ≤ (w.run m feed platform limit).state.ticks,
        let t := (s.loop j).state
        let n := Session.rounds s.feed limit
        t.ticks = j ∧ s.loop n = t.loop (n - j) ∧
        ∃ p, Picture.ofScreen t.machine.screen w.palette = .ok p ∧ t.effects.visible = some p) ∧
    ∀ (r : Recorder) (keys : Keys) (j : Nat),
      let o := r.recordTicks m keys j
      o.fault? = none →
        (∀ k, r.recordTicks m keys (j + k) = o.state.1.recordTicks o.state.2 keys k) ∧
        ∃ new, o.state.1.snapshots = r.snapshots ++ new ∧
          o.state.2.screen = new.back?.getD m.screen :=
  ⟨fun _ _ _ _ _ hs hhost _ hj => Window.loop_up_to_date hs hhost hj,
    fun _ _ _ hok => ⟨Recorder.recordTicks_add hok, Recorder.screen_recordTicks hok⟩⟩

/-- A glyph is drawn by the first tick. The second one only jumps, so the window does not show the
screen again and the recorder takes no second snapshot. -/
theorem glyph_seen_behind_jump :
    let m := (fresh (.tape [] 0)).perform (.load [0xD0, 0x05, 0x12, 0x02])
    let w := Window.create 16 300 Window.usualTitle [] .usual none
    let platform := Platform.willing (.absent "")
    m.Reachable ∧
      (∃ s p, w.loopStart m ⟨[], false⟩ platform = .done s () ∧
        (s.loop 2).state.ticks = 2 ∧
        Picture.ofScreen (s.loop 2).state.machine.screen w.palette = .ok p ∧
        (s.loop 2).state.effects.visible = some p) ∧
      ∃ snapshot, (Recorder.empty.recordTicks m .none 2).state.1.snapshots = #[snapshot] ∧
        (Recorder.empty.recordTicks m .none 2).state.2.screen = snapshot := by
  intro m w platform
  have hm : m.Reachable := (Reachable.fresh _).perform _
  obtain ⟨hwindow, hrecorder⟩ := no_screen_is_stale m
  refine ⟨hm, ?_, ?_⟩
  · have hhost : (w.run m ⟨[], false⟩ platform (some 3)).fault?.all RunFault.ofMachine = true :=
      Window.ofMachine_of_willing hm.bounded (by decide +kernel) (some 3)
    have hticks : 2 ≤ (w.run m ⟨[], false⟩ platform (some 3)).state.ticks := by decide +kernel
    obtain ⟨s, hs⟩ := Window.exists_loopStart hhost
    obtain ⟨hticks, -, p, hp, hvisible⟩ := hwindow w _ _ _ s hs hhost 2 hticks
    exact ⟨s, p, hs, hticks, hp, hvisible⟩
  · have hsize : (Recorder.empty.recordTicks m .none 2).state.1.snapshots.size = 1 := by
      decide +kernel
    obtain ⟨-, new, hnew, hscreen⟩ := hrecorder .empty .none 2 (by decide +kernel)
    rw [Recorder.empty, Array.empty_append] at hnew
    obtain ⟨snapshot, rfl⟩ : ∃ snapshot, new = #[snapshot] :=
      Array.size_eq_one_iff.1 (by rw [← hnew]; exact hsize)
    exact ⟨snapshot, hnew, hscreen⟩

end Machine

end ChipEight
