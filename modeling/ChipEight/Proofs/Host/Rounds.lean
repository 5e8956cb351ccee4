import ChipEight.Host.Window
import ChipEight.Proofs.Host.Switches
import ChipEight.Proofs.Machine.Requests
import ChipEight.Proofs.Machine.Runs
import ChipEight.Proofs.Screen.Presenting

/-!
# Rounds of the window's loop

What one round does, said once: a batch of events changes the keys that are held and may ask to
stop; a tick that is completed is counted, shown if it signals a redraw, and sounded; a tick that
faults ends the loop, and so does a call that the host refuses. From it follows what many rounds do:
as long as no batch asks to stop and the host goes along, they are ticks in turn, each with the keys
that the events so far have left held.

## Main definitions

* `Event.asksToStop`, `Event.hold`: what an event means to the run and to the keys.
* `Feed.batch`, `Feed.skip`: the batches of a feed by their number.
* `Window.heldAfter`, `Window.reports`: the keys held after some batches, and what ticks see of
  them.
* `RunFault.ofMachine`, `RunFault.ofShowing`, `RunFault.OfHost`: the faults of the machine, those
  that have kept a screen from being shown, and those that the host accounts for.
* `Session.Completed`, `Session.Follows`, `Session.Polled`: what one round and what many rounds
  leave.
* `Window.Prepared`, `Window.Unprepared`: what the opening of a window and its beeper leaves.
* `Window.loopStart`, `Window.Started`: the session with which the loop of a run begins.
-/

namespace ChipEight.Host

open Outcome

/-! ## Events -/

namespace Event

/-- Whether the event asks for the end of the run. -/
def asksToStop : Event → Bool
  | .quit | .stop => true
  | .keyDown key => key = escapeKey
  | _ => false

/-- The keys that are held after the event, if `keyOf` says what host keys stand for. The host key
that closes the window is never held down. -/
def hold (keyOf : Int → Option Key) (held : Keypad) : Event → Keypad
  | .keyDown key => if key = escapeKey then held else (keyOf key).elim held (held.set · true)
  | .keyUp key => (keyOf key).elim held (held.set · false)
  | _ => held

end Event

namespace Window

theorem press_eq (w : Window) (key : Int) (pressed : Bool) :
    w.press key pressed =
      { w with held := (w.keyOf key).elim w.held (w.held.set · pressed) } := by
  unfold press
  cases w.keyOf key <;> rfl

theorem handle_eq (w : Window) (e : Event) :
    w.handle e =
      { w with
        held := e.hold w.keyOf w.held
        stopRequested := w.stopRequested || e.asksToStop } := by
  cases e with
  | keyDown key =>
    by_cases h : key = escapeKey <;> simp [handle, Event.hold, Event.asksToStop, h, stop, press_eq]
  | keyUp key => simp [handle, Event.hold, Event.asksToStop, press_eq]
  | quit | other | stop => simp [handle, Event.hold, Event.asksToStop, stop]

theorem foldl_handle (w : Window) (es : List Event) :
    es.foldl handle w =
      { w with
        held := es.foldl (Event.hold w.keyOf) w.held
        stopRequested := w.stopRequested || es.any Event.asksToStop } := by
  induction es generalizing w with
  | nil => simp
  | cons e es ih =>
    have hk : (w.handle e).keyOf = w.keyOf := by rw [handle_eq]; rfl
    rw [List.foldl_cons, ih, hk, handle_eq]
    simp [Bool.or_assoc]

end Window

/-! ## Batches -/

namespace Feed

/-- The batch that a poll gives after a number of others. -/
def batch (f : Feed) (i : Nat) : List Event :=
  f.batches[i]?.getD (if f.quitsAtEnd then [.quit] else [])

/-- The feed without its first batches. -/
def skip (f : Feed) (n : Nat) : Feed := { f with batches := f.batches.drop n }

@[simp] theorem skip_skip (f : Feed) (m n : Nat) : (f.skip m).skip n = f.skip (m + n) := by
  simp [skip]

@[simp] theorem batch_skip (f : Feed) (n i : Nat) : (f.skip n).batch i = f.batch (n + i) := by
  rw [batch, batch, skip, List.getElem?_drop]

theorem poll_eq (f : Feed) : f.poll = (f.batch 0, f.skip 1) := by
  obtain ⟨batches, q⟩ := f
  cases batches <;> rfl

end Feed

namespace Window

/-- The keys that are held after the first `n` batches of a feed. -/
def heldAfter (w : Window) (feed : Feed) (n : Nat) : Keypad :=
  ((List.range n).flatMap feed.batch).foldl (Event.hold w.keyOf) w.held

/-- What `n` ticks see of the keys, if each is made behind one more batch. -/
def reports (w : Window) (feed : Feed) (n : Nat) : List Keys :=
  (List.range n).map fun i => (w.heldAfter feed (i + 1)).toKeys

@[simp] theorem length_reports (w : Window) (feed : Feed) (n : Nat) :
    (w.reports feed n).length = n := by simp [reports]

variable {v w : Window}

/-- A window that has taken some batches goes on with the rest of the feed. -/
theorem heldAfter_add {feed : Feed} {n : Nat} (hk : v.keymap = w.keymap)
    (hh : v.held = w.heldAfter feed n) (k : Nat) :
    v.heldAfter (feed.skip n) k = w.heldAfter feed (n + k) := by
  have hkeyOf : v.keyOf = w.keyOf := by unfold keyOf; rw [hk]
  have hbatch : (feed.skip n).batch = fun i => feed.batch (n + i) := by
    funext i
    rw [Feed.batch_skip]
  rw [heldAfter, heldAfter, hkeyOf, hh, hbatch, List.range_add]
  simp [heldAfter, List.flatMap_map]

theorem reports_succ {feed : Feed} (hk : v.keymap = w.keymap)
    (hh : v.held = w.heldAfter feed 1) (n : Nat) :
    w.reports feed (n + 1) = v.held.toKeys :: v.reports (feed.skip 1) n := by
  rw [reports, reports, List.range_succ_eq_map, List.map_cons, List.map_map, hh]
  congr 2
  funext i
  rw [heldAfter_add hk hh, Nat.add_comm 1]
  rfl

end Window

/-! ## The host refuses -/

namespace Call

/-- Whether the call is one of those that show a picture. -/
def shows : Call → Bool
  | .blit _ | .scale _ _ | .flip => true
  | _ => false

end Call

namespace RunFault

/-- Whether the fault is one of the machine, and not one of the host. -/
def ofMachine : RunFault → Bool
  | .machine _ => true
  | _ => false

/-- Whether the fault has kept a screen from being shown. -/
def ofShowing : RunFault → Bool
  | .picture _ => true
  | .refused c _ => c.shows
  | _ => false

/-- The host accounts for the fault: it has refused a call, or there is no picture of the screen that
it is to show. -/
def OfHost (e : RunFault) (platform : Platform) (screen : Screen) (palette : Palette) : Prop :=
  (∃ f, e = .picture f ∧ Picture.ofScreen screen palette = .error f) ∨
    ∃ c reason before, e = .refused c reason ∧ platform.refusal? before c = some reason

theorem OfHost.not_ofMachine {e : RunFault} {platform : Platform} {screen : Screen}
    {palette : Palette} (h : e.OfHost platform screen palette) : e.ofMachine = false := by
  obtain ⟨f, rfl, -⟩ | ⟨c, reason, before, rfl, -⟩ := h
  · rfl
  · rfl

end RunFault

theorem Window.shows_of_mem_showing {w : Window} {p : Picture} :
    ∀ c ∈ w.showing p, c.shows = true := by
  simp [showing, Call.shows]

namespace Session

variable {s t : Session} {m : Machine} {signals : Signals} {e : Fault}

theorem ask_cases (s : Session) (c : Call) :
    s.ask c = .done (s.call c) () ∨
      ∃ reason, s.ask c = .stopped (s.call c) (.refused c reason) ∧
        s.platform.refusal? s.effects.calls c = some reason := by
  unfold ask
  split
  · exact .inl rfl
  · rename_i reason hreason
    exact .inr ⟨reason, rfl, hreason⟩

/-- Calls in turn are all made, or the last one that is made is refused. -/
theorem askAll_cases (s : Session) (cs : List Call) :
    s.askAll cs = .done { s with effects := s.effects.callAll cs } () ∨
      ∃ before c after reason, cs = before ++ c :: after ∧
        s.askAll cs =
          .stopped { s with effects := s.effects.callAll (before ++ [c]) } (.refused c reason) ∧
        ∃ calls, s.platform.refusal? calls c = some reason := by
  induction cs generalizing s with
  | nil => exact .inl (by simp [askAll])
  | cons c cs ih =>
    obtain hask | ⟨reason, hask, hreason⟩ := s.ask_cases c
    · rw [askAll, hask, done_andThen]
      obtain hrest | ⟨before, d, after, reason, rfl, hrest, hreason⟩ := ih (s.call c)
      · exact .inl (by rw [hrest]; simp [call])
      · exact .inr ⟨c :: before, d, after, reason, rfl, by rw [hrest]; simp [call], hreason⟩
    · refine .inr ⟨[], c, cs, reason, rfl, ?_, _, hreason⟩
      rw [askAll, hask, stopped_andThen]
      simp [call]

/-- The screen is shown, or the showing stops on the way. -/
theorem present_cases (s : Session) :
    (∃ p, Picture.ofScreen s.machine.screen s.window.palette = .ok p ∧
      s.present =
        .done { s with
          window := { s.window with frames := s.window.frames + 1 }
          effects := s.effects.callAll (s.window.showing p) } ()) ∨
    ∃ made e, s.present = .stopped { s with effects := s.effects.callAll made } e ∧
      e.OfHost s.platform s.machine.screen s.window.palette ∧ e.ofShowing = true ∧
      ∀ c ∈ made, c.shows = true := by
  cases hp : Picture.ofScreen s.machine.screen s.window.palette with
  | error e =>
    exact .inr ⟨[], .picture e, by simp [present, hp], .inl ⟨e, rfl, hp⟩, rfl, by simp⟩
  | ok p =>
    obtain hask | ⟨before, c, after, reason, hcs, hask, calls, hreason⟩ :=
      s.askAll_cases (s.window.showing p)
    · exact .inl ⟨p, rfl, by simp only [present, hp, hask, done_andThen]⟩
    · have hshows : ∀ d ∈ before ++ c :: after, d.shows = true := hcs ▸ Window.shows_of_mem_showing
      refine .inr ⟨before ++ [c], .refused c reason, ?_, .inr ⟨c, reason, calls, rfl, hreason⟩,
        hshows c (by simp), fun d hd => ?_⟩
      · simp only [present, hp, hask, stopped_andThen]
      · exact hshows d (by grind)

/-- Showing the screen if a redraw is signalled. -/
theorem present_if_cases (s : Session) (redraw : Bool) :
    (∃ shown,
      (redraw = true → ∃ p, Picture.ofScreen s.machine.screen s.window.palette = .ok p ∧
        shown = s.window.showing p) ∧
      (redraw = false → shown = []) ∧
      (if redraw then s.present else .done s ()) =
        .done { s with
          window := { s.window with frames := s.window.frames + if redraw then 1 else 0 }
          effects := s.effects.callAll shown } ()) ∨
    ∃ t e, (if redraw then s.present else .done s ()) = .stopped t e ∧
      e.OfHost s.platform s.machine.screen s.window.palette := by
  cases redraw with
  | false => exact .inl ⟨[], by simp, by simp, by simp⟩
  | true =>
    obtain ⟨p, hp, hpresent⟩ | ⟨made, e, hpresent, he, -⟩ := s.present_cases
    · exact .inl ⟨s.window.showing p, fun _ => ⟨p, hp, rfl⟩, by simp, hpresent⟩
    · exact .inr ⟨_, e, hpresent, he⟩

/-! ## One round -/

/-- What a completed round leaves, its tick having left the machine `m` with its signals: the
session that it began with is `s`, its events being handled already. -/
structure Completed (s : Session) (m : Machine) (signals : Signals) (t : Session) : Prop where
  platform : t.platform = s.platform
  machine : t.machine = m
  feed : t.feed = s.feed
  ticks : t.ticks = s.ticks + 1
  window : ∃ beeper, t.window =
    { s.window with
      frames := s.window.frames + if signals.redraw then 1 else 0
      beeper }
  calls : ∃ shown beeps,
    (signals.redraw = true → ∃ p, Picture.ofScreen m.screen s.window.palette = .ok p ∧
      shown = s.window.showing p) ∧
    (signals.redraw = false → shown = []) ∧
    (∀ c ∈ beeps, c = .play (-1) ∨ c = .stop) ∧
    t.effects.calls.toList =
      s.effects.calls.toList ++ shown ++ beeps ++ [.clock s.window.hz]

theorem soundTone_eq (s : Session) (on : Bool) :
    ∃ beeps : List Call, (∀ c ∈ beeps, c = .play (-1) ∨ c = .stop) ∧
      s.soundTone on =
        { s with
          window := { s.window with beeper := (s.soundTone on).window.beeper }
          effects := s.effects.callAll beeps } := by
  cases hb : s.window.beeper with
  | none =>
    have hs : s.soundTone on = s := by simp only [soundTone, hb]
    exact ⟨[], by simp, by simp [hs]⟩
  | some b =>
    refine ⟨(b.update on).1, b.calls_update on, ?_⟩
    simp only [soundTone, hb]

theorem tick_of_stopped (h : s.machine.tick s.window.held.toKeys = .stopped m e) :
    s.tick =
      .stopped { s with
        machine := m
        effects := s.effects.noteAll (s.machine.tickLog s.window.held.toKeys) } (.machine e) := by
  simp only [tick, h]
  rfl

/-- The session behind a completed tick that has left the machine `m`. -/
def ticked (s : Session) (m : Machine) : Session :=
  { s with
    machine := m
    effects := s.effects.noteAll (s.machine.tickLog s.window.held.toKeys)
    ticks := s.ticks + 1 }

theorem tick_of_done (h : s.machine.tick s.window.held.toKeys = .done m signals) :
    s.tick = .done (s.ticked m) signals := by
  simp only [tick, h]
  rfl

/-- What a round does behind its tick. -/
theorem step_of_ticked (h : s.machine.tick s.window.held.toKeys = .done m signals) :
    s.step =
      (if signals.redraw then (s.ticked m).present else .done (s.ticked m) ()).andThen fun v _ =>
        (v.soundTone signals.tone).ask (.clock v.window.hz) := by
  rw [step, tick_of_done h, done_andThen]

/-- A round is over if its tick faults. -/
theorem step_of_stopped (h : s.machine.tick s.window.held.toKeys = .stopped m e) :
    ∃ t, s.step = .stopped t (.machine e) ∧ t.machine = m ∧ t.ticks = s.ticks ∧
      t.window = s.window := by
  refine ⟨{ s with
    machine := m
    effects := s.effects.noteAll (s.machine.tickLog s.window.held.toKeys) }, ?_, rfl, rfl, rfl⟩
  rw [step, tick_of_stopped h, stopped_andThen]

/-- A round whose tick is completed stops at what the host refuses, or is completed. -/
theorem step_of_done (h : s.machine.tick s.window.held.toKeys = .done m signals) :
    (∃ t e, s.step = .stopped t e ∧ e.OfHost s.platform m.screen s.window.palette) ∨
      ∃ t, s.step = .done t () ∧ s.Completed m signals t := by
  have hstep := step_of_ticked h
  obtain ⟨shown, hredraw, hno, hshown⟩ | ⟨t, e, hshown, he⟩ :=
    (s.ticked m).present_if_cases signals.redraw
  · rw [hstep, hshown, done_andThen]
    generalize hv : ({ s.ticked m with
      window := { (s.ticked m).window with
        frames := (s.ticked m).window.frames + if signals.redraw then 1 else 0 }
      effects := (s.ticked m).effects.callAll shown } : Session) = v
    obtain ⟨beeps, hbeeps, hsound⟩ := v.soundTone_eq signals.tone
    obtain hclock | ⟨reason, hclock, hreason⟩ :=
      (v.soundTone signals.tone).ask_cases (.clock v.window.hz)
    · refine .inr ⟨_, hclock, ?_⟩
      rw [hsound]
      subst hv
      refine ⟨rfl, rfl, rfl, rfl, ⟨_, rfl⟩, shown, beeps, hredraw, hno, hbeeps, ?_⟩
      simp [ticked, call, Effects.call, Effects.callAll, Effects.noteAll]
    · have hplatform : (v.soundTone signals.tone).platform = s.platform := by
        rw [hsound, ← hv]
        rfl
      rw [hplatform] at hreason
      exact .inl ⟨_, _, hclock, .inr ⟨_, reason, _, rfl, hreason⟩⟩
  · exact .inl ⟨t, e, by rw [hstep, hshown, stopped_andThen], he⟩

/-! ## Many rounds -/

theorem poll_eq (s : Session) :
    s.poll =
      { s with
        feed := s.feed.skip 1
        window := { s.window with
          held := s.window.heldAfter s.feed 1
          stopRequested := s.window.stopRequested || (s.feed.batch 0).any Event.asksToStop } } := by
  simp only [poll, Feed.poll_eq, Window.foldl_handle, Window.heldAfter]
  simp

/-- Events leave everything of a window alone but the keys that are held and the wish to stop. -/
theorem window_poll (s : Session)
    (h : s.poll.window.stopRequested = s.window.stopRequested) :
    s.poll.window = { s.window with held := s.window.heldAfter s.feed 1 } := by
  rw [poll_eq] at h ⊢
  simp only at h
  rw [h]

@[simp] theorem feed_poll (s : Session) : s.poll.feed = s.feed.skip 1 := by rw [poll_eq]

@[simp] theorem platform_poll (s : Session) : s.poll.platform = s.platform := by rw [poll_eq]

@[simp] theorem machine_poll (s : Session) : s.poll.machine = s.machine := by rw [poll_eq]

@[simp] theorem ticks_poll (s : Session) : s.poll.ticks = s.ticks := by rw [poll_eq]

@[simp] theorem frames_poll (s : Session) : s.poll.window.frames = s.window.frames := by
  rw [poll_eq]

@[simp] theorem effects_poll (s : Session) : s.poll.effects = s.effects := by rw [poll_eq]

@[simp] theorem keymap_poll (s : Session) : s.poll.window.keymap = s.window.keymap := by
  rw [poll_eq]

@[simp] theorem palette_poll (s : Session) : s.poll.window.palette = s.window.palette := by
  rw [poll_eq]

@[simp] theorem held_poll (s : Session) :
    s.poll.window.held = s.window.heldAfter s.feed 1 := by rw [poll_eq]

theorem loop_of_stop (h : s.poll.window.stopRequested = true) (n : Nat) :
    s.loop (n + 1) = .done s.poll () := by
  simp only [loop, h, if_true]

theorem loop_of_done (h : s.poll.window.stopRequested = false) (hs : s.poll.step = .done t ())
    (n : Nat) : s.loop (n + 1) = t.loop n := by
  simp [loop, h, hs]

theorem loop_of_stopped {e : RunFault} (h : s.poll.window.stopRequested = false)
    (hs : s.poll.step = .stopped t e) (n : Nat) : s.loop (n + 1) = .stopped t e := by
  simp [loop, h, hs]

/-- The machine is where ticks have left it, and the completed ones are counted and shown. -/
structure Follows (s : Session) (played : Outcome Fault (Machine × List Signals) Unit)
    (t : Session) : Prop where
  machine : t.machine = played.state.1
  ticks : t.ticks = s.ticks + played.state.2.length
  frames : t.window.frames = s.window.frames + played.state.2.countP (·.redraw)

/-- The first `n` batches are taken, and nothing has changed in the window but the keys that are
held, the frames shown and the beeper. -/
structure Polled (s : Session) (n : Nat) (t : Session) : Prop where
  feed : t.feed = s.feed.skip n
  window : ∃ frames beeper, t.window =
    { s.window with held := s.window.heldAfter s.feed n, frames, beeper }

/-- A completed round and what follows it. -/
theorem Completed.follows {keys : Keys} {reports : List Keys} {u : Session}
    (h : s.poll.Completed m signals t) (ht : s.machine.tick keys = .done m signals)
    (hu : t.Follows (m.tickAll reports) u) :
    s.Follows (s.machine.tickAll (keys :: reports)) u := by
  obtain ⟨beeper, hwindow⟩ := h.window
  have hframes := congrArg Window.frames hwindow
  rw [Machine.tickAll_cons_of_done ht]
  refine ⟨hu.machine, ?_, ?_⟩
  · simp only [hu.ticks, h.ticks, ticks_poll, state_inside, List.length_cons]
    omega
  · simp only [hu.frames, hframes, frames_poll, state_inside, List.countP_cons]
    omega

theorem Completed.polled {n : Nat} {u : Session} (h : s.poll.Completed m signals t)
    (hstop : s.poll.window.stopRequested = s.window.stopRequested) (hu : t.Polled n u) :
    s.Polled (n + 1) u := by
  obtain ⟨beeper, hwindow⟩ := h.window
  obtain ⟨frames, beeper', hwindow'⟩ := hu.window
  have hfeed : t.feed = s.feed.skip 1 := by rw [h.feed, feed_poll]
  have hheld : t.window.heldAfter t.feed n = s.window.heldAfter s.feed (n + 1) := by
    rw [hfeed, Window.heldAfter_add (w := s.window) (by simp [hwindow]) (by simp [hwindow]),
      Nat.add_comm]
  refine ⟨?_, frames, beeper', ?_⟩
  · rw [hu.feed, hfeed, Feed.skip_skip, Nat.add_comm]
  · rw [hwindow', hheld, hwindow, window_poll s hstop]

/-- A round behind its events stops with the fault of its tick, or at what the host refuses, or is
completed. -/
theorem round_cases (s : Session) :
    (∃ m e t, s.machine.tick s.poll.window.held.toKeys = .stopped m e ∧
      s.poll.step = .stopped t (.machine e) ∧
      t.machine = m ∧ t.ticks = s.ticks ∧ t.window.frames = s.window.frames) ∨
    (∃ m signals t e, s.machine.tick s.poll.window.held.toKeys = .done m signals ∧
      s.poll.step = .stopped t e ∧ e.OfHost s.platform m.screen s.window.palette) ∨
    ∃ m signals t, s.machine.tick s.poll.window.held.toKeys = .done m signals ∧
      s.poll.step = .done t () ∧ s.poll.Completed m signals t := by
  rcases ht : s.machine.tick s.poll.window.held.toKeys with ⟨m, e | signals⟩
  · obtain ⟨t, hstep, hm, hticks, hwindow⟩ :=
      step_of_stopped (s := s.poll) (by rw [machine_poll]; exact ht)
    exact .inl ⟨m, e, t, rfl, hstep, hm, by rw [hticks, ticks_poll], by rw [hwindow, frames_poll]⟩
  · obtain ⟨t, e, hstep, he⟩ | ⟨t, hstep, hround⟩ :=
      step_of_done (s := s.poll) (by rw [machine_poll]; exact ht)
    · rw [platform_poll, palette_poll] at he
      exact .inr (.inl ⟨m, signals, t, e, rfl, hstep, he⟩)
    · exact .inr (.inr ⟨m, signals, t, rfl, hstep, hround⟩)

/-- As long as no batch asks to stop, rounds are ticks in turn: the loop goes on from the session
behind them, or it is over with the first of them that faults. But it is over, too, with the first
one in which the host refuses something. -/
theorem loop_of_quiet (hs : s.window.stopRequested = false) {n : Nat}
    (hq : ∀ i < n, (s.feed.batch i).any Event.asksToStop = false) :
    let played := s.machine.tickAll (s.window.reports s.feed n)
    (∃ t e, e.ofMachine = false ∧ ∀ k, s.loop (n + k) = .stopped t e) ∨
    ∃ t, s.Follows played t ∧
      (played.fault? = none → s.Polled n t ∧ ∀ k, s.loop (n + k) = t.loop k) ∧
      ∀ e, played.fault? = some e → ∀ k, s.loop (n + k) = .stopped t (.machine e) := by
  induction n generalizing s with
  | zero =>
    refine .inr ⟨s, ⟨rfl, rfl, rfl⟩, fun _ => ⟨⟨rfl, _, _, rfl⟩, fun k => ?_⟩, fun e he => ?_⟩
    · rw [Nat.zero_add]
    · cases he
  | succ n ih =>
    have hstop : s.poll.window.stopRequested = false := by
      rw [poll_eq]
      simp [hs, hq 0 (Nat.succ_pos n)]
    obtain ⟨m, e, t, ht, hstep, hm, hticks, hframes⟩ | ⟨_, _, t, e, -, hstep, he⟩ |
      ⟨m, signals, t, ht, hstep, hround⟩ := s.round_cases
    · rw [Window.reports_succ s.keymap_poll s.held_poll, Machine.tickAll_cons_of_stopped ht]
      refine .inr ⟨t, ⟨hm, hticks, hframes⟩, nofun, fun e' he k => ?_⟩
      cases he
      rw [Nat.add_right_comm]
      exact loop_of_stopped hstop hstep _
    · refine .inl ⟨t, e, he.not_ofMachine, fun k => ?_⟩
      rw [Nat.add_right_comm]
      exact loop_of_stopped hstop hstep _
    · -- The session behind the round has one batch less and the keys of that batch, so the
      -- remaining ticks are told the same from there as from the start.
      obtain ⟨beeper, hwindow⟩ := hround.window
      have hfeed : t.feed = s.feed.skip 1 := by rw [hround.feed, feed_poll]
      have hreports : s.window.reports s.feed (n + 1) =
          s.poll.window.held.toKeys :: t.window.reports t.feed n := by
        rw [hfeed, Window.reports_succ (v := t.window) (by simp [hwindow]) (by simp [hwindow]),
          hwindow]
      have hrest := ih (s := t) (by simpa [hwindow] using hstop) (fun i hi => by
          rw [hfeed, Feed.batch_skip, Nat.add_comm]
          exact hq (i + 1) (Nat.succ_lt_succ hi))
      have hloop (k : Nat) : s.loop (n + 1 + k) = t.loop (n + k) := by
        rw [Nat.add_right_comm, loop_of_done hstop hstep]
      rw [hround.machine] at hrest
      obtain ⟨u, e, he, hrefused⟩ | ⟨u, hu, hrest, hfault⟩ := hrest
      · exact .inl ⟨u, e, he, fun k => by rw [hloop, hrefused]⟩
      · rw [hreports]
        refine .inr ⟨u, hround.follows ht hu, fun hok => ?_, fun e he k => ?_⟩
        · rw [Machine.tickAll_cons_of_done ht] at hok
          refine ⟨hround.polled (hstop.trans hs.symm) (hrest hok).1, fun k => ?_⟩
          rw [hloop, (hrest hok).2]
        · rw [Machine.tickAll_cons_of_done ht] at he
          rw [hloop, hfault e he]

/-- A machine within bounds has a screen that can be shown in any two colours, so nothing but what
it reports itself and what the host refuses ends a loop. -/
theorem cause_of_loop {colours : List Colour} (hm : s.machine.Bounded)
    (hc : s.window.palette.colours = .ok colours) {n : Nat} {e : RunFault}
    (he : (s.loop n).fault? = some e) :
    (∃ f, e = .machine f ∧ f.isReported = true) ∨
      ∃ c reason before, e = .refused c reason ∧ s.platform.refusal? before c = some reason := by
  induction n generalizing s with
  | zero => cases he
  | succ n ih =>
    cases hstop : s.poll.window.stopRequested with
    | true =>
      rw [loop_of_stop hstop] at he
      cases he
    | false =>
      have hbounded := hm.tick s.poll.window.held.toKeys
      obtain ⟨m, f, t, ht, hstep, -⟩ | ⟨m, signals, t, f, ht, hstep, hf⟩ |
        ⟨m, signals, t, ht, hstep, hround⟩ := s.round_cases
      · rw [loop_of_stopped hstop hstep] at he
        obtain rfl := Option.some.inj he
        exact .inl ⟨f, rfl, hm.isReported_tick (congrArg Outcome.fault? ht)⟩
      · rw [loop_of_stopped hstop hstep] at he
        obtain rfl := Option.some.inj he
        rw [ht, state_done] at hbounded
        obtain ⟨p, hp⟩ := Picture.exists_ofScreen_of_colours hbounded.hasPixels hbounded.binary hc
        obtain ⟨g, -, hg⟩ | hrefused := hf
        · cases hp.symm.trans hg
        · exact .inr hrefused
      · rw [loop_of_done hstop hstep] at he
        rw [ht, state_done] at hbounded
        obtain ⟨beeper, hwindow⟩ := hround.window
        have hpalette : t.window.palette = s.window.palette := by rw [hwindow, ← s.palette_poll]
        have hplatform : t.platform = s.platform := hround.platform.trans s.platform_poll
        rw [← hplatform]
        exact ih (hround.machine ▸ hbounded) (hpalette ▸ hc) he

/-! ## Before the loop and behind it -/

/-- The window is opened, or one of the calls that open it is refused. -/
theorem start_cases (s : Session) :
    s.start =
        .done { s with
          effects := (s.effects.callAll (.init :: s.window.opening)).note s.window.openedLine } () ∨
      ∃ before c after reason, s.window.opening = before ++ c :: after ∧
        s.start =
          .stopped { s with effects := s.effects.callAll (.init :: (before ++ [c])) }
            (.refused c reason) ∧
        ∃ calls, s.platform.refusal? calls c = some reason := by
  obtain hask | ⟨before, c, after, reason, hcs, hask, hreason⟩ :=
    (s.call .init).askAll_cases s.window.opening
  · exact .inl (by rw [start, hask, done_andThen]; simp [call])
  · refine .inr ⟨before, c, after, reason, hcs, ?_, hreason⟩
    rw [start, hask, stopped_andThen]
    simp [call]

/-- There is no beeper, or there is none any more, or no tone can be made for it, or it is ready. -/
theorem openBeeper_cases (s : Session) :
    (s.window.beeper = none ∧ s.openBeeper = .done s ()) ∨
    ∃ b, s.window.beeper = some b ∧
      let opened := b.openOn s.platform s.effects.calls
      let t := { s with effects := s.effects ++ opened.1 }
      s.openBeeper = .done { t with window := { s.window with beeper := none } } () ∨
      (∃ e, s.openBeeper = .stopped t (.tone e) ∧ opened.2.fault? = some e) ∨
      ∃ tone sound,
        opened.1.calls.toList = [.mixerInit b.sampleRate (-16) 1, .makeSound sound] ∧
        s.openBeeper =
          .done { t with
            window := { s.window with beeper := some { b with sound := some tone } } } () := by
  unfold openBeeper
  cases hb : s.window.beeper with
  | none => exact .inl ⟨rfl, rfl⟩
  | some b =>
    refine .inr ⟨b, rfl, ?_⟩
    obtain ⟨-, ho | ⟨e, ho⟩⟩ | ⟨sound, hcalls, ⟨e, ho⟩ | ⟨tone, ho⟩⟩ :=
      b.openOn_cases s.platform s.effects.calls <;> simp only [ho, done, stopped]
    · exact .inl trivial
    · exact .inr (.inl ⟨e, rfl, rfl⟩)
    · exact .inr (.inl ⟨e, rfl, rfl⟩)
    · exact .inr (.inr ⟨tone, sound, hcalls, rfl⟩)

/-- Shutting down changes the beeper and what was called. -/
theorem finish_eq (s : Session) :
    ∃ beeper effects, s.finish = { s with window := { s.window with beeper }, effects } := by
  unfold finish
  split
  · exact ⟨_, _, rfl⟩
  · exact ⟨_, _, rfl⟩

@[simp] theorem machine_finish (s : Session) : s.finish.machine = s.machine := by
  obtain ⟨_, _, h⟩ := s.finish_eq
  rw [h]

@[simp] theorem feed_finish (s : Session) : s.finish.feed = s.feed := by
  obtain ⟨_, _, h⟩ := s.finish_eq
  rw [h]

@[simp] theorem ticks_finish (s : Session) : s.finish.ticks = s.ticks := by
  obtain ⟨_, _, h⟩ := s.finish_eq
  rw [h]

@[simp] theorem held_finish (s : Session) : s.finish.window.held = s.window.held := by
  obtain ⟨_, _, h⟩ := s.finish_eq
  rw [h]

@[simp] theorem frames_finish (s : Session) : s.finish.window.frames = s.window.frames := by
  obtain ⟨_, _, h⟩ := s.finish_eq
  rw [h]

end Session

namespace Window

open Session

/-- The session with which the loop of a run begins: the window and the beeper are open, and the
screen has been shown. -/
def loopStart (w : Window) (machine : Machine) (feed : Feed) (platform : Platform) :
    Outcome RunFault Session Unit :=
  (w.prepare machine feed platform).andThen fun s _ => s.present

variable {w : Window} {m : Machine} {feed : Feed} {platform : Platform} {limit : Option Int}
  {s t : Session}

/-- What the opening of a window and its beeper leaves. A beeper that is left is the one that the
window had, and a tone has been made for it. -/
structure Prepared (w : Window) (m : Machine) (feed : Feed) (platform : Platform) (s : Session) :
    Prop where
  platform : s.platform = platform
  machine : s.machine = m
  feed : s.feed = feed
  ticks : s.ticks = 0
  window : ∃ beeper, s.window = { w with beeper, stopRequested := false }
  calls : ∃ rest, s.effects.calls.toList = .init :: rest ∧ ∀ c ∈ rest, c.Calm
  beeper : ∀ b ∈ s.window.beeper, ∃ c tone sound, w.beeper = some c ∧
    b = { c with sound := some tone } ∧
    .mixerInit c.sampleRate (-16) 1 ∈ s.effects.calls.toList ∧
    .makeSound sound ∈ s.effects.calls.toList

/-- What is left if this stops on the way, and why it does: the host refuses to open the window, or
there is no tone for the beeper. -/
structure Unprepared (w : Window) (platform : Platform) (s : Session) (e : RunFault) : Prop where
  window : s.window = w
  ticks : s.ticks = 0
  calls : ∃ rest, s.effects.calls.toList = .init :: rest ∧ ∀ c ∈ rest, c.Calm
  fault :
    (∃ c ∈ w.opening, ∃ reason before, e = .refused c reason ∧
      platform.refusal? before c = some reason) ∨
    ∃ b ∈ w.beeper, ∃ t before, e = .tone t ∧ (b.openOn platform before).2.fault? = some t

theorem calm_of_mem_opening (w : Window) : ∀ c ∈ w.opening, c.Calm := by
  simp [opening, Call.Calm, Call.isSwitch]

theorem Unprepared.not_ofMachine {e : RunFault} (h : w.Unprepared platform s e) :
    e.ofMachine = false := by
  obtain ⟨c, -, reason, before, rfl, -⟩ | ⟨b, -, t, before, rfl, -⟩ := h.fault
  · rfl
  · rfl

/-- The window and its beeper are opened, or this stops on the way. -/
theorem prepare_cases (w : Window) (m : Machine) (feed : Feed) (platform : Platform) :
    (∃ s, w.prepare m feed platform = .done s () ∧ w.Prepared m feed platform s) ∨
      ∃ s e, w.prepare m feed platform = .stopped s e ∧ w.Unprepared platform s e := by
  obtain hstart | ⟨before, c, after, reason, hopening, hstart, calls, hreason⟩ :=
    (Session.fresh w m feed platform).start_cases
  · let u : Session := { Session.fresh w m feed platform with
      effects := (Effects.none.callAll (.init :: w.opening)).note w.openedLine }
    have hprepare : w.prepare m feed platform = u.openBeeper.andThen fun s _ =>
        .done { s with window := { s.window with stopRequested := false } } () := by
      rw [prepare, hstart, done_andThen]
      rfl
    have hcalls : u.effects.calls.toList = .init :: w.opening := by
      simp [u, Effects.none, Effects.callAll, Effects.note]
    obtain ⟨hb, hopen⟩ | ⟨b, hb, hopen⟩ := u.openBeeper_cases
    · rw [hopen, done_andThen] at hprepare
      refine .inl ⟨_, hprepare, rfl, rfl, rfl, rfl, ⟨_, rfl⟩, ⟨_, hcalls, w.calm_of_mem_opening⟩, ?_⟩
      intro c hc
      cases hb.symm.trans hc
    · have hall := List.forall_mem_append.2
        ⟨w.calm_of_mem_opening, b.calm_openOn u.platform u.effects.calls⟩
      have happend : (u.effects ++ (b.openOn u.platform u.effects.calls).1).calls.toList =
          .init :: (w.opening ++ (b.openOn u.platform u.effects.calls).1.calls.toList) :=
        (Array.toList_append ..).trans (by rw [hcalls]; rfl)
      obtain hopen | ⟨e, hopen, he⟩ | ⟨tone, sound, hmade, hopen⟩ := hopen
      · rw [hopen, done_andThen] at hprepare
        exact .inl ⟨_, hprepare, rfl, rfl, rfl, rfl, ⟨_, rfl⟩, ⟨_, happend, hall⟩, by simp⟩
      · rw [hopen, stopped_andThen] at hprepare
        exact .inr ⟨_, _, hprepare, rfl, rfl, ⟨_, happend, hall⟩,
          .inr ⟨b, hb, e, _, rfl, he⟩⟩
      · rw [hopen, done_andThen] at hprepare
        refine .inl ⟨_, hprepare, rfl, rfl, rfl, rfl, ⟨_, rfl⟩, ⟨_, happend, hall⟩, fun c hc => ?_⟩
        refine ⟨b, tone, sound, hb, (Option.some.inj hc).symm, ?_, ?_⟩ <;> rw [happend, hmade] <;>
          simp
  · have hprepare : w.prepare m feed platform =
        (Session.fresh w m feed platform).start.andThen _ := rfl
    rw [hstart, stopped_andThen] at hprepare
    have hmem : ∀ d ∈ before ++ c :: after, d.Calm := hopening ▸ w.calm_of_mem_opening
    refine .inr ⟨_, _, hprepare, rfl, rfl, ⟨before ++ [c], ?_, fun d hd => hmem d (by grind)⟩,
      .inl ⟨c, ?_, reason, calls, rfl, hreason⟩⟩
    · simp [Session.fresh, Effects.none, Effects.callAll]
    · exact (hopening ▸ by simp : c ∈ (Session.fresh w m feed platform).window.opening)

/-- A run without trouble before its loop is its loop and the shutting down. -/
theorem run_of_loopStart (h : w.loopStart m feed platform = .done s ()) :
    let o := s.loop (rounds s.feed limit)
    w.run m feed platform limit = ⟨o.state.finish, o.answer.map fun _ => o.state.ticks⟩ := by
  obtain ⟨t, e, hprepare, hstop⟩ | ⟨t, ⟨⟩, hprepare, hpresent⟩ :=
    andThen_cases (w.prepare m feed platform) fun s _ => s.present
  · cases hstop.symm.trans h
  · have hs : t.present = .done s () := hpresent.symm.trans h
    rw [run, hprepare, done_andThen, perform, hs, done_andThen]

theorem run_of_done (h : w.loopStart m feed platform = .done s ())
    (hl : s.loop (rounds s.feed limit) = .done t ()) :
    w.run m feed platform limit = .done t.finish t.ticks := by
  rw [run_of_loopStart h, hl]
  rfl

theorem run_of_stopped {e : RunFault} (h : w.loopStart m feed platform = .done s ())
    (hl : s.loop (rounds s.feed limit) = .stopped t e) :
    w.run m feed platform limit = .stopped t.finish e := by
  rw [run_of_loopStart h, hl]
  rfl

/-- A run whose loop has begun ends with the fault of its loop, if any. -/
theorem fault?_run (h : w.loopStart m feed platform = .done s ()) :
    (w.run m feed platform limit).fault? = (s.loop (rounds s.feed limit)).fault? := by
  rw [run_of_loopStart h]
  rcases s.loop (rounds s.feed limit) with ⟨t, e | _⟩ <;> rfl

theorem run_of_prepared (h : w.prepare m feed platform = .done s ()) :
    let o := s.perform limit
    w.run m feed platform limit = ⟨o.state.finish, o.answer.map fun _ => o.state.ticks⟩ := by
  rw [run, h, done_andThen]

/-- A run is over with a fault that comes up before its guarded part. -/
theorem run_of_unprepared {e : RunFault} (h : w.prepare m feed platform = .stopped s e) :
    w.run m feed platform limit = .stopped s e := by
  rw [run, h, stopped_andThen]

/-- A run that is not ended by the host comes to its loop. -/
theorem exists_loopStart
    (h : (w.run m feed platform limit).fault?.all RunFault.ofMachine = true) :
    ∃ s, w.loopStart m feed platform = .done s () := by
  obtain ⟨s, hprepare, -⟩ | ⟨s, e, hprepare, hs⟩ := w.prepare_cases m feed platform
  · rw [loopStart, hprepare, done_andThen]
    obtain ⟨p, -, hpresent⟩ | ⟨made, e, hpresent, he, -⟩ := s.present_cases
    · exact ⟨_, hpresent⟩
    · have hrun : (w.run m feed platform limit).fault? = some e := by
        rw [run_of_prepared hprepare, perform, hpresent, stopped_andThen]
        rfl
      rw [hrun, Option.all_some, he.not_ofMachine] at h
      cases h
  · rw [run_of_unprepared hprepare, fault?_stopped, Option.all_some, hs.not_ofMachine] at h
    cases h

/-- What the session is with which a loop begins, if nothing went wrong before. -/
structure Started (w : Window) (m : Machine) (feed : Feed) (platform : Platform) (s : Session) :
    Prop where
  platform : s.platform = platform
  machine : s.machine = m
  feed : s.feed = feed
  ticks : s.ticks = 0
  window : ∃ beeper, s.window =
    { w with frames := w.frames + 1, beeper, stopRequested := false }
  shown : ∃ p before, Picture.ofScreen m.screen w.palette = .ok p ∧
    s.effects.calls.toList = before ++ w.showing p

theorem started_of_loopStart (h : w.loopStart m feed platform = .done s ()) :
    w.Started m feed platform s := by
  unfold loopStart at h
  obtain ⟨t, hprepare, ht⟩ | ⟨t, e, hprepare, -⟩ := w.prepare_cases m feed platform
  · rw [hprepare, done_andThen] at h
    obtain ⟨p, hp, hpresent⟩ | ⟨made, e, hpresent, -, -⟩ := t.present_cases
    · obtain rfl : _ = s := congrArg Outcome.state (hpresent.symm.trans h)
      obtain ⟨beeper, hwindow⟩ := ht.window
      rw [ht.machine, hwindow] at hp
      refine ⟨ht.platform, ht.machine, ht.feed, ht.ticks, ⟨beeper, ?_⟩, p, t.effects.calls.toList, hp, ?_⟩
      · simp [hwindow]
      · simp [hwindow, Effects.callAll, showing, width, height]
    · cases hpresent.symm.trans h
  · rw [hprepare, stopped_andThen] at h
    cases h

/-- Once its first screen has been shown, nothing ends a run of a machine within bounds but what the
machine reports and what the host refuses. -/
theorem cause_of_run (hm : m.Bounded) (hs : w.loopStart m feed platform = .done s ())
    {e : RunFault} (he : (w.run m feed platform limit).fault? = some e) :
    (∃ f, e = .machine f ∧ f.isReported = true) ∨
      ∃ c reason before, e = .refused c reason ∧ platform.refusal? before c = some reason := by
  have hstarted := started_of_loopStart hs
  obtain ⟨p, -, hp, -⟩ := hstarted.shown
  obtain ⟨-, colours, -, -, hc, -⟩ := Picture.exists_of_ofScreen hp
  obtain ⟨beeper, hwindow⟩ := hstarted.window
  rw [fault?_run hs] at he
  rw [← hstarted.platform]
  exact cause_of_loop (hstarted.machine ▸ hm) (by rw [hwindow]; exact hc) he

/-- A host that refuses nothing does not end a run that has come to its loop. -/
theorem ofMachine_of_willing {mixer : Mixer} (hm : m.Bounded)
    (h : (w.loopStart m feed (.willing mixer)).fault? = none) (limit : Option Int) :
    (w.run m feed (.willing mixer) limit).fault?.all RunFault.ofMachine = true := by
  obtain ⟨⟨⟩, hs⟩ := exists_eq_done_of_fault? h
  cases he : (w.run m feed (.willing mixer) limit).fault? with
  | none => rfl
  | some e =>
    obtain ⟨f, rfl, -⟩ | ⟨c, reason, before, -, hrefused⟩ := cause_of_run hm hs he
    · rfl
    · cases hrefused

/-- A run that has begun well makes ticks as long as no batch asks to stop and the host does not
refuse anything. -/
theorem Started.loop_of_quiet (h : w.Started m feed platform s) {n : Nat}
    (hq : ∀ i < n, (feed.batch i).any Event.asksToStop = false) :
    let played := m.tickAll (w.reports feed n)
    (∃ t e, e.ofMachine = false ∧ ∀ k, s.loop (n + k) = .stopped t e) ∨
    ∃ t : Session, t.machine = played.state.1 ∧ t.ticks = played.state.2.length ∧
      t.window.frames = w.frames + 1 + played.state.2.countP (·.redraw) ∧
      (played.fault? = none →
        t.feed = feed.skip n ∧ t.window.held = w.heldAfter feed n ∧
        t.window.keymap = w.keymap ∧ ∀ k, s.loop (n + k) = t.loop k) ∧
      ∀ e, played.fault? = some e → ∀ k, s.loop (n + k) = .stopped t (.machine e) := by
  obtain ⟨beeper, hwindow⟩ := h.window
  have hkeymap : s.window.keymap = w.keymap := by rw [hwindow]
  have hheld : s.window.held = w.held := by rw [hwindow]
  have hframes : s.window.frames = w.frames + 1 := by rw [hwindow]
  have hreports : s.window.reports s.feed n = w.reports feed n := by
    rw [hwindow, h.feed]
    rfl
  have hquiet := Session.loop_of_quiet (s := s) (n := n) (by rw [hwindow]) (by rwa [h.feed])
  rw [h.machine, hreports] at hquiet
  obtain hrefused | ⟨t, ht, hrest, hfault⟩ := hquiet
  · exact .inl hrefused
  · refine .inr ⟨t, ht.machine, ?_, ?_, fun hok => ?_, hfault⟩
    · rw [ht.ticks, h.ticks, Nat.zero_add]
    · rw [ht.frames, hframes]
    · obtain ⟨hpolled, hloop⟩ := hrest hok
      obtain ⟨frames, beeper', hwindow'⟩ := hpolled.window
      refine ⟨by rw [hpolled.feed, h.feed], ?_, ?_, hloop⟩
      · rw [hwindow', h.feed]
        exact (heldAfter_add (n := 0) hkeymap hheld n).trans (by rw [Nat.zero_add])
      · rw [hwindow', hkeymap]

/-- A run that is not ended by the host makes ticks as long as no batch asks to stop. -/
theorem loop_of_quiet (h : (w.run m feed platform limit).fault?.all RunFault.ofMachine = true)
    {n : Nat} (hn : n ≤ rounds feed limit)
    (hq : ∀ i < n, (feed.batch i).any Event.asksToStop = false) :
    let played := m.tickAll (w.reports feed n)
    ∃ s t : Session, w.loopStart m feed platform = .done s () ∧ s.feed = feed ∧
      t.machine = played.state.1 ∧ t.ticks = played.state.2.length ∧
      t.window.frames = w.frames + 1 + played.state.2.countP (·.redraw) ∧
      (played.fault? = none →
        t.feed = feed.skip n ∧ t.window.held = w.heldAfter feed n ∧
        t.window.keymap = w.keymap ∧ ∀ k, s.loop (n + k) = t.loop k) ∧
      ∀ e, played.fault? = some e → ∀ k, s.loop (n + k) = .stopped t (.machine e) := by
  obtain ⟨s, hs⟩ := exists_loopStart h
  have hstarted := started_of_loopStart hs
  obtain ⟨t, e, he, hloop⟩ | ⟨t, ht⟩ := hstarted.loop_of_quiet hq
  · have hrefused := hloop (rounds feed limit - n)
    rw [Nat.add_sub_of_le hn, ← hstarted.feed] at hrefused
    rw [run_of_stopped hs hrefused, fault?_stopped, Option.all_some, he] at h
    cases h
  · exact ⟨s, t, hs, hstarted.feed, ht⟩

end Window

end ChipEight.Host
