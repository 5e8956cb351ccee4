import ChipEight.Proofs.Host.Rounds
import ChipEight.Proofs.Host.Switches

/-!
# The host is shut down

Whatever ends the loop of a window, be it its number of rounds, an event, a fault of the machine, a
screen that cannot be shown or a call that the host refuses: the tone is switched off and the host
is shut down, and nothing is called behind that. Only while the window and its beeper are being
opened the host is not yet guarded. If it refuses to open the window, or no tone can be made, the
run ends with the host started, though silent.

## Main definitions

* `Window.Later`, `Window.InUse`, `Window.AtRest`: the windows that come up in use, and what holds
  of them between two runs.
* `Session.Continues`: a session and a later one of the same run, its beeper having been told a
  list of wishes.
* `RunFault.behindTone`: a fault behind which the beeper has been told of the tick before it.
* `Session.wishes`: what the beeper is told while a loop goes on.
-/

namespace ChipEight.Host

open Outcome Numeric

/-! ## Windows in use -/

namespace Window

/-- The windows that a window becomes when runs are made of it, on machines of any kind, and
somebody asks it to stop in between. -/
inductive Later (w : Window) : Window → Prop where
  | refl : Later w w
  | stop {v : Window} (h : Later w v) : Later w v.stop
  | run {v : Window} (h : Later w v) (m : Machine) (feed : Feed) (platform : Platform)
      (limit : Option Int) : Later w (v.run m feed platform limit).state.window

/-- A new window comes to this one. A frequency and a volume are given for its tone, if it has
one. -/
def InUse (w : Window) : Prop :=
  ∃ scale hz title keymap palette, ∃ tone : Option (Quantity × Quantity),
    (create scale hz title keymap palette
      (tone.map fun t => .closed Beeper.usualRate t.1 t.2)).Later w

theorem Later.trans {w v u : Window} (h : w.Later v) (g : v.Later u) : w.Later u := by
  induction g with
  | refl => exact h
  | stop _ ih => exact ih.stop
  | run _ m feed platform limit ih => exact ih.run m feed platform limit

theorem InUse.later {w v : Window} (h : w.InUse) (g : w.Later v) : v.InUse := by
  obtain ⟨scale, hz, title, keymap, palette, tone, h⟩ := h
  exact ⟨scale, hz, title, keymap, palette, tone, h.trans g⟩

/-- No tone plays, and none is ready. -/
def AtRest (w : Window) : Prop := ∀ b ∈ w.beeper, b.playing = false ∧ b.sound = none

end Window

/-! ## Sessions of one run -/

theorem Call.calm_of_shows {c : Call} (h : c.shows = true) : c.Calm := by
  cases c <;> simp_all [shows, Calm, isSwitch]

/-- Whether the fault has come up in the loop behind the switching of the tone. -/
def RunFault.behindTone : RunFault → Bool
  | .refused c _ => !c.shows
  | _ => false

namespace Session

variable {s t u : Session} {xs ys : List Bool} {m : Machine} {signals : Signals}

/-- What was called, in order. -/
def calls (s : Session) : List Call := s.effects.calls.toList

/-- The host is not shut down between the first session and the second one, and the beeper is told
these wishes. -/
structure Continues (s : Session) (tones : List Bool) (t : Session) : Prop where
  beeper : t.window.beeper = s.window.beeper.map fun b => (b.updateAll tones).2
  calls : ∃ new, t.calls = s.calls ++ new ∧ .quit ∉ new ∧
    new.filter Call.isSwitch = s.window.beeper.elim [] fun b => (b.updateAll tones).1

/-- Other calls can be made at any time. -/
theorem continues_of_calls {new : List Call} (hbeeper : t.window.beeper = s.window.beeper)
    (hcalls : t.calls = s.calls ++ new) (hnew : ∀ c ∈ new, c.Calm) : s.Continues [] t := by
  refine ⟨?_, new, hcalls, fun hquit => (hnew _ hquit).1 rfl, ?_⟩
  · rw [hbeeper]
    cases s.window.beeper <;> rfl
  · rw [filter_isSwitch_of_calm hnew]
    cases s.window.beeper <;> rfl

theorem continues_of_eq (hbeeper : t.window.beeper = s.window.beeper) (hcalls : t.calls = s.calls) :
    s.Continues [] t :=
  continues_of_calls hbeeper (hcalls.trans (List.append_nil _).symm) (by simp)

theorem Continues.trans (h : s.Continues xs t) (g : t.Continues ys u) :
    s.Continues (xs ++ ys) u := by
  obtain ⟨new, hcalls, hquit, hnew⟩ := h.calls
  obtain ⟨new', hcalls', hquit', hnew'⟩ := g.calls
  refine ⟨?_, new ++ new', ?_, ?_, ?_⟩
  · rw [g.beeper, h.beeper]
    cases s.window.beeper <;> simp [Beeper.updateAll_append]
  · rw [hcalls', hcalls, List.append_assoc]
  · simp [hquit, hquit']
  · rw [List.filter_append, hnew, hnew', h.beeper]
    cases s.window.beeper <;> simp [Beeper.updateAll_append]

theorem continues_poll (s : Session) : s.Continues [] s.poll := by
  rw [poll_eq]
  exact continues_of_eq rfl rfl

theorem continues_present (s : Session) : s.Continues [] s.present.state := by
  obtain ⟨p, -, hpresent⟩ | ⟨made, e, hpresent, -, -, hmade⟩ := s.present_cases <;> rw [hpresent]
  · exact continues_of_calls rfl Array.toList_appendList
      fun c hc => Call.calm_of_shows (Window.shows_of_mem_showing c hc)
  · exact continues_of_calls rfl Array.toList_appendList
      fun c hc => Call.calm_of_shows (hmade c hc)

theorem continues_soundTone (s : Session) (on : Bool) : s.Continues [on] (s.soundTone on) := by
  cases hb : s.window.beeper with
  | none =>
    have hs : s.soundTone on = s := by simp only [soundTone, hb]
    rw [hs]
    exact ⟨by simp [hb], [], by simp, by simp, by simp [hb]⟩
  | some b =>
    refine ⟨by simp [soundTone, hb, Beeper.updateAll], (b.update on).1, ?_, fun hquit => ?_, ?_⟩
    · simp [soundTone, hb, calls, Effects.callAll]
    · obtain h | h := b.calls_update on _ hquit <;> cases h
    · rw [hb, b.filter_update]
      simp [Beeper.updateAll]

theorem continues_clock (s : Session) (rate : Int) : s.Continues [] (s.call (.clock rate)) := by
  refine continues_of_calls rfl (Array.toList_push ..) fun c hc => ?_
  obtain rfl := List.mem_singleton.1 hc
  simp [Call.Calm, Call.isSwitch]

/-- To show the screen or not makes no difference to the beeper and to the machine. -/
theorem shown_or_not (s : Session) (redraw : Bool) :
    let o := if redraw then s.present else .done s ()
    s.Continues [] o.state ∧ o.state.machine = s.machine ∧ o.state.ticks = s.ticks ∧
      ∀ e ∈ o.fault?, e.ofShowing = true := by
  cases redraw with
  | false => exact ⟨continues_of_eq rfl rfl, rfl, rfl, by simp⟩
  | true =>
    refine ⟨continues_present s, ?_⟩
    obtain ⟨p, -, hpresent⟩ | ⟨made, e, hpresent, -, he, -⟩ := s.present_cases
    · simp [hpresent]
    · simp [hpresent, he]

theorem machine_soundTone (s : Session) (on : Bool) : (s.soundTone on).machine = s.machine := by
  unfold soundTone
  split <;> rfl

theorem ticks_soundTone (s : Session) (on : Bool) : (s.soundTone on).ticks = s.ticks := by
  unfold soundTone
  split <;> rfl

/-- A round behind its events either stops before the beeper is told anything, or tells it whether
its tick has signalled a tone, and then the clock decides whether it is completed. -/
theorem step_cases (s : Session) :
    (∃ t e, s.step = .stopped t e ∧ e.behindTone = false ∧ s.Continues [] t ∧
      t.ticks = s.ticks + if e.ofShowing then 1 else 0) ∨
    ∃ t, s.Continues [t.machine.signals.tone] t ∧ t.ticks = s.ticks + 1 ∧
      (s.step = .done t () ∨
        ∃ e, s.step = .stopped t e ∧ e.behindTone = true ∧ e.ofShowing = false) := by
  rcases htick : s.machine.tick s.window.held.toKeys with ⟨m, e | signals⟩
  · have hticked := tick_of_stopped htick
    refine .inl ⟨s.tick.state, .machine e, ?_, rfl, ?_, ?_⟩
    · rw [step, hticked, stopped_andThen, state_stopped]
    · rw [hticked]
      exact continues_of_eq rfl rfl
    · rw [hticked]
      rfl
  · have hticked : s.Continues [] (s.ticked m) := continues_of_eq rfl rfl
    have hstep := step_of_ticked htick
    obtain ⟨hshown, hmachine, hticks, hfault⟩ := (s.ticked m).shown_or_not signals.redraw
    obtain ⟨v, e, hv, hnext⟩ | ⟨v, ⟨⟩, hv, hnext⟩ :=
      andThen_cases (if signals.redraw then (s.ticked m).present else .done (s.ticked m) ())
        fun v _ => (v.soundTone signals.tone).ask (.clock v.window.hz)
    · rw [hv] at hshown hticks hfault
      have he : e.ofShowing = true := hfault e rfl
      refine .inl ⟨v, e, hstep.trans hnext, ?_, hticked.trans hshown, ?_⟩
      · cases e <;> simp_all [RunFault.ofShowing, RunFault.behindTone]
      · rw [he]
        exact hticks
    · rw [hv] at hshown hmachine hticks
      let t := (v.soundTone signals.tone).call (.clock v.window.hz)
      have hsounded : v.Continues [signals.tone] t :=
        (continues_soundTone v signals.tone).trans (continues_clock _ v.window.hz)
      have hsignals : t.machine.signals = signals := by
        show (v.soundTone signals.tone).machine.signals = signals
        rw [machine_soundTone]
        exact (congrArg Machine.signals hmachine).trans (Machine.signals_of_tick htick)
      refine .inr ⟨t, ?_, (v.ticks_soundTone signals.tone).trans hticks, ?_⟩
      · rw [hsignals]
        exact (hticked.trans hshown).trans hsounded
      · obtain hclock | ⟨reason, hclock, -⟩ :=
          (v.soundTone signals.tone).ask_cases (.clock v.window.hz)
        · exact .inl ((hstep.trans hnext).trans hclock)
        · exact .inr ⟨_, (hstep.trans hnext).trans hclock, rfl, rfl⟩

/-- What the beeper is told while a loop goes on: in every round that comes so far, whether its tick
has signalled a tone. -/
def wishes (s : Session) : Nat → List Bool
  | 0 => []
  | n + 1 =>
    let s := s.poll
    if s.window.stopRequested then []
    else
      match s.step with
      | ⟨t, .error e⟩ => if e.behindTone then [t.machine.signals.tone] else []
      | ⟨t, .ok _⟩ => t.machine.signals.tone :: t.wishes n

theorem wishes_of_stop (h : s.poll.window.stopRequested = true) (n : Nat) :
    s.wishes (n + 1) = [] := by
  simp only [wishes, h, if_true]

theorem wishes_of_done (h : s.poll.window.stopRequested = false) (hs : s.poll.step = .done t ())
    (n : Nat) : s.wishes (n + 1) = t.machine.signals.tone :: t.wishes n := by
  simp only [wishes, h, hs, Outcome.done]
  rfl

theorem wishes_of_stopped {e : RunFault} (h : s.poll.window.stopRequested = false)
    (hs : s.poll.step = .stopped t e) (n : Nat) :
    s.wishes (n + 1) = if e.behindTone then [t.machine.signals.tone] else [] := by
  simp only [wishes, h, hs, Outcome.stopped]
  rfl

theorem continues_loop (s : Session) (n : Nat) :
    s.Continues (s.wishes n) (s.loop n).state := by
  induction n generalizing s with
  | zero => exact continues_of_eq rfl rfl
  | succ n ih =>
    have hpoll := continues_poll s
    cases hstop : s.poll.window.stopRequested with
    | true =>
      rw [loop_of_stop hstop, wishes_of_stop hstop]
      exact hpoll
    | false =>
      obtain ⟨t, e, hstep, he, ht, -⟩ | ⟨t, ht, -, hstep | ⟨e, hstep, he, -⟩⟩ := s.poll.step_cases
      · rw [loop_of_stopped hstop hstep, wishes_of_stopped hstop hstep, he]
        exact hpoll.trans ht
      · rw [loop_of_done hstop hstep, wishes_of_done hstop hstep]
        exact (hpoll.trans ht).trans (ih t)
      · rw [loop_of_stopped hstop hstep, wishes_of_stopped hstop hstep, he]
        exact hpoll.trans ht

theorem continues_perform (s : Session) (limit : Option Int) :
    ∃ tones, s.Continues tones (s.perform limit).state := by
  have hpresent := continues_present s
  obtain ⟨t, e, h, hperform⟩ | ⟨t, ⟨⟩, h, hperform⟩ :=
    andThen_cases s.present fun s _ => s.loop (rounds s.feed limit)
  · exact ⟨[], by rwa [perform, hperform, ← h]⟩
  · rw [h] at hpresent
    exact ⟨_, by rw [perform, hperform]; exact hpresent.trans (continues_loop t _)⟩

theorem calls_finish (s : Session) :
    s.finish.calls =
      s.calls ++ (s.window.beeper.elim [] fun b => b.close.1) ++ [.quit] := by
  unfold finish
  cases s.window.beeper <;> simp [calls, call, Effects.call, Effects.callAll]

theorem beeper_finish (s : Session) :
    s.finish.window.beeper = s.window.beeper.map fun b => b.close.2 := by
  unfold finish
  cases h : s.window.beeper <;> simp [call, h]

/-- A session that began with a ready beeper, or none, and is finished: every tone that was started
is stopped, and the host is shut down behind that. -/
theorem Continues.finish (h : s.Continues xs t)
    (hready : ∀ b ∈ s.window.beeper, b.sound ≠ none ∧ b.playing = false) :
    t.finish.window.beeper = (s.window.beeper.map fun b => { b with sound := none }) ∧
      ∃ new, t.finish.calls = s.calls ++ new ++ [.quit] ∧ .quit ∉ new ∧
        new.filter Call.isSwitch = s.window.beeper.elim [] fun _ => pulses (rises false xs) := by
  obtain ⟨new, hcalls, hquit, hnew⟩ := h.calls
  rw [calls_finish, beeper_finish, hcalls, h.beeper]
  cases hb : s.window.beeper with
  | none => exact ⟨rfl, new, by simp, hquit, by rw [hnew, hb]; rfl⟩
  | some b =>
    obtain ⟨hsound, hplaying⟩ := hready b hb
    obtain ⟨hpulses, hclosed⟩ := Beeper.close_updateAll hsound hplaying xs
    refine ⟨congrArg some hclosed, new ++ (b.updateAll xs).2.close.1, by simp, fun hmem => ?_, ?_⟩
    · obtain hmem | hmem := List.mem_append.1 hmem
      · exact hquit hmem
      · obtain h | h := (b.updateAll xs).2.calls_update false _ hmem <;> cases h
    · rw [List.filter_append, hnew, hb, Option.elim_some, Beeper.filter_close, hpulses]
      rfl

end Session

/-! ## The whole run -/

namespace Window

open Session

variable {w : Window} {m : Machine} {feed : Feed} {platform : Platform} {limit : Option Int}
  {s : Session} {b : Beeper} {tones : List Bool}

/-- To start the host switches no sound and shuts nothing down. -/
theorem calm_of_init {calls : List Call}
    (h : ∃ rest, calls = .init :: rest ∧ ∀ c ∈ rest, c.Calm) : ∀ c ∈ calls, c.Calm := by
  obtain ⟨rest, rfl, hcalm⟩ := h
  exact List.forall_mem_cons.2 ⟨by simp [Call.Calm, Call.isSwitch], hcalm⟩

theorem Prepared.calm (h : w.Prepared m feed platform s) : ∀ c ∈ s.calls, c.Calm :=
  calm_of_init h.calls

theorem Unprepared.calm {e : RunFault} (h : w.Unprepared platform s e) : ∀ c ∈ s.calls, c.Calm :=
  calm_of_init h.calls

/-- A beeper that has been opened is ready to play. -/
theorem Prepared.ready (h : w.Prepared m feed platform s) (hw : w.AtRest) :
    ∀ b ∈ s.window.beeper, b.sound ≠ none ∧ b.playing = false := by
  intro b hb
  obtain ⟨c, tone, sound, hc, rfl, -⟩ := h.beeper b hb
  exact ⟨Option.some_ne_none tone, (hw c hc).1⟩

/-- A run whose window has been opened: the wishes that the beeper is told decide which calls switch
the sound, and the host is shut down behind everything else. -/
theorem run_of_continues (hw : w.AtRest) (hs : w.prepare m feed platform = .done s ())
    (h : w.Prepared m feed platform s) (hc : s.Continues tones (s.perform limit).state) :
    let t := (w.run m feed platform limit).state
    t.window.beeper = (s.window.beeper.map fun b => { b with sound := none }) ∧
      ∃ new, t.calls = s.calls ++ new ++ [.quit] ∧ .quit ∉ s.calls ++ new ∧
        (s.calls ++ new).filter Call.isSwitch =
          s.window.beeper.elim [] fun _ => pulses (rises false tones) := by
  obtain ⟨hbeeper, new, hcalls, hquit, hnew⟩ := hc.finish (h.ready hw)
  rw [run_of_prepared hs]
  refine ⟨hbeeper, new, hcalls, ?_, ?_⟩
  · rw [List.mem_append, not_or]
    exact ⟨fun hmem => (h.calm _ hmem).1 rfl, hquit⟩
  · rw [List.filter_append, filter_isSwitch_of_calm h.calm, hnew]
    rfl

/-- A run leaves the beeper at rest, however it ends. -/
theorem AtRest.run (hw : w.AtRest) (m : Machine) (feed : Feed) (platform : Platform)
    (limit : Option Int) : (w.run m feed platform limit).state.window.AtRest := by
  obtain ⟨s, hprepare, hs⟩ | ⟨s, e, hprepare, hs⟩ := w.prepare_cases m feed platform
  · obtain ⟨tones, hc⟩ := continues_perform s limit
    obtain ⟨hbeeper, -⟩ := run_of_continues hw hprepare hs hc
    intro c hc
    rw [hbeeper] at hc
    obtain ⟨b, hb, rfl⟩ := Option.map_eq_some_iff.1 hc
    exact ⟨(hs.ready hw b hb).2, rfl⟩
  · rw [run_of_unprepared hprepare, state_stopped, hs.window]
    exact hw

theorem AtRest.later {v : Window} (hw : w.AtRest) (h : w.Later v) : v.AtRest := by
  induction h with
  | refl => exact hw
  | stop _ ih => exact ih
  | run _ m feed platform limit ih => exact ih.run m feed platform limit

theorem InUse.atRest (h : w.InUse) : w.AtRest := by
  obtain ⟨scale, hz, title, keymap, palette, tone, h⟩ := h
  refine AtRest.later (fun b hb => ?_) h
  obtain ⟨t, -, rfl⟩ := Option.map_eq_some_iff.1 hb
  exact ⟨rfl, rfl⟩

/-- Behind every run of a window in use no tone goes on. If the window and its beeper could be
opened, nothing but one call to shut down the host ends what is called, whatever the machine, the
events, the colours or the host make of the run. If they could not, because the host refuses to open
the window or no tone can be made, the run is over before anything is shown, and the host has been
started and is not shut down. -/
theorem shut_down_unless_unprepared (hw : w.InUse) (m : Machine) (feed : Feed)
    (platform : Platform) (limit : Option Int) :
    let o := w.run m feed platform limit
    let prepared := w.prepare m feed platform
    looping o.state.calls = false ∧ (∀ b ∈ o.state.window.beeper, b.playing = false) ∧
      (prepared.fault? = none →
        ∃ between, o.state.calls = .init :: (between ++ [.quit]) ∧ .quit ∉ between) ∧
      ∀ e, prepared.fault? = some e →
        o.answer = .error e ∧ o.state.window = w ∧
        (∃ rest, o.state.calls = .init :: rest ∧ .quit ∉ rest) ∧
        ((∃ c ∈ w.opening, ∃ reason before, e = .refused c reason ∧
            platform.refusal? before c = some reason) ∨
          ∃ b ∈ w.beeper, ∃ t before, e = .tone t ∧
            (b.openOn platform before).2.fault? = some t) := by
  intro o prepared
  have hrest := hw.atRest.run m feed platform limit
  obtain ⟨s, hprepare, hs⟩ | ⟨s, e, hprepare, hs⟩ := w.prepare_cases m feed platform
  · obtain ⟨tones, hc⟩ := continues_perform s limit
    obtain ⟨-, new, hcalls, hquit, hswitches⟩ := run_of_continues hw.atRest hprepare hs hc
    refine ⟨?_, fun b hb => (hrest b hb).1, fun _ => ?_, fun e he => ?_⟩
    · rw [← looping_filter, hcalls, List.filter_append, hswitches]
      cases s.window.beeper with
      | none => rfl
      | some b => exact (congrArg looping (List.append_nil _)).trans (looping_pulses _)
    · obtain ⟨rest, hrest, -⟩ := hs.calls
      rw [show s.calls = _ from hrest] at hcalls hquit
      exact ⟨rest ++ new, hcalls, fun hmem => hquit (.tail _ hmem)⟩
    · rw [show prepared = _ from hprepare] at he
      cases he
  · have ho : o = .stopped s e := run_of_unprepared hprepare
    obtain ⟨rest, hcalls, hcalm⟩ := hs.calls
    rw [ho]
    refine ⟨?_, fun b hb => ?_, fun h => ?_, fun e' he => ?_⟩
    · rw [state_stopped, ← looping_filter, filter_isSwitch_of_calm hs.calm]
      rfl
    · rw [state_stopped, hs.window] at hb
      exact (hw.atRest b hb).1
    · rw [show prepared = _ from hprepare] at h
      cases h
    · rw [show prepared = _ from hprepare] at he
      obtain rfl : e = e' := Option.some.inj he
      exact ⟨rfl, hs.window, ⟨rest, hcalls, fun hmem => (hcalm _ hmem).1 rfl⟩, hs.fault⟩

/-- A tone begins, and the next instruction is a return without a call: the tone is stopped and the
host is shut down all the same. -/
theorem shut_down_behind_fault :
    let m := (Machine.fresh (.tape [] 0)).perform
      (.load [0x60, 0x01, 0xF0, 0x18, 0x00, 0xEE])
    let w := create 16 300 usualTitle [] .usual
      (some (.closed Beeper.usualRate Beeper.usualFrequency (.whole 1)))
    let o := w.run m ⟨[], false⟩ (.willing (.device 44100 1)) (some 5)
    o.fault? = some (.machine (.callUnderflow 0x204)) ∧ .play (-1) ∈ o.state.calls ∧
      looping o.state.calls = false ∧
      ∃ between, o.state.calls = .init :: (between ++ [.quit]) ∧ .quit ∉ between := by
  intro m w o
  have hw : w.InUse :=
    ⟨16, 300, _, [], .usual, some (Beeper.usualFrequency, .whole 1), .refl⟩
  have hprepared : (w.prepare m ⟨[], false⟩ (.willing (.device 44100 1))).fault? = none := by
    decide +kernel
  obtain ⟨hsilent, -, hquit, -⟩ := shut_down_unless_unprepared hw m ⟨[], false⟩ _ (some 5)
  exact ⟨by decide +kernel, by decide +kernel, hsilent, hquit hprepared⟩

/-- With a frequency of zero there is no tone, and the host stays open behind the run. -/
theorem left_open_without_tone :
    let w := create 16 300 usualTitle [] .usual
      (some (.closed Beeper.usualRate (.whole 0) Beeper.usualVolume))
    let o := w.run (.fresh (.tape [] 0)) ⟨[], false⟩ (.willing (.device 44100 1)) (some 0)
    w.InUse ∧ .init ∈ o.state.calls ∧ .quit ∉ o.state.calls := by
  intro w o
  refine ⟨⟨16, 300, _, [], .usual, some (.whole 0, Beeper.usualVolume), .refl⟩, ?_, ?_⟩
  · decide +kernel
  · decide +kernel

end Window

end ChipEight.Host
