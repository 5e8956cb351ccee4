import ChipEight.Proofs.Host.Shutdown

/-!
# The tone follows the signals

In a run whose beeper has been opened, the tone is on after a completed tick if and only if this
tick signals it. The calls that switch it are told from the signals alone: a start whenever the
signal begins, each with its stop behind it, the last one at the end of the run at the latest.
Behind the end nothing is played until the mixer is asked for and a tone is made again.

Only a tick whose screen cannot be shown leaves the tone as it was. The run is over with it.

## Main definitions

* `Window.tones`: the signals of the completed ticks of a run.
-/

namespace ChipEight.Host

open Outcome

namespace Session

variable {s t : Session}

/-! ## Wishes and ticks -/

/-- The beeper is told something in every round that is counted, unless the screen of the last one
could not be shown. -/
theorem ticks_loop (s : Session) (n : Nat) :
    (s.loop n).state.ticks = s.ticks + (s.wishes n).length +
      if (s.loop n).fault?.any RunFault.ofShowing then 1 else 0 := by
  induction n generalizing s with
  | zero => rfl
  | succ n ih =>
    cases hstop : s.poll.window.stopRequested with
    | true =>
      rw [loop_of_stop hstop, wishes_of_stop hstop]
      exact s.ticks_poll
    | false =>
      obtain ⟨t, e, hstep, he, -, hticks⟩ | ⟨t, -, hticks, hstep | ⟨e, hstep, he, hshown⟩⟩ :=
        s.poll.step_cases <;> rw [ticks_poll] at hticks
      · rw [loop_of_stopped hstop hstep, wishes_of_stopped hstop hstep, he]
        exact hticks
      · rw [loop_of_done hstop hstep, wishes_of_done hstop hstep, ih t, hticks, List.length_cons]
        omega
      · rw [loop_of_stopped hstop hstep, wishes_of_stopped hstop hstep, he, fault?_stopped,
          Option.any_some, hshown]
        exact hticks

/-- A wish is the signal of the tick before it, which the session behind the round still shows. -/
theorem wishes_eq_map (s : Session) (n : Nat) :
    s.wishes n = (List.range (s.wishes n).length).map fun j =>
      (s.loop (j + 1)).state.machine.signals.tone := by
  induction n generalizing s with
  | zero => rfl
  | succ n ih =>
    cases hstop : s.poll.window.stopRequested with
    | true =>
      rw [wishes_of_stop hstop]
      rfl
    | false =>
      obtain ⟨t, e, hstep, he, -⟩ | ⟨t, -, -, hstep | ⟨e, hstep, he, -⟩⟩ := s.poll.step_cases
      · rw [wishes_of_stopped hstop hstep, he]
        rfl
      · have hloop (j : Nat) : s.loop (j + 1) = t.loop j := loop_of_done hstop hstep j
        rw [wishes_of_done hstop hstep, List.length_cons, List.range_succ_eq_map, List.map_cons,
          List.map_map, hloop]
        simp only [Function.comp_def, Nat.succ_eq_add_one, hloop]
        exact congrArg _ (ih t)
      · rw [wishes_of_stopped hstop hstep, he, if_pos rfl, List.length_singleton, List.range_one,
          List.map_singleton, loop_of_stopped hstop hstep]
        rfl

/-- A loop that tells the beeper something in a round has made that many ticks with it, and what
follows is the loop of the session behind that round. -/
theorem loop_through {n j : Nat} (h : j < (s.wishes n).length) :
    (s.wishes (j + 1)).length = j + 1 ∧ (s.loop (j + 1)).state.ticks = s.ticks + (j + 1) ∧
      s.loop n = (s.loop (j + 1)).andThen fun t _ => t.loop (n - (j + 1)) := by
  induction n generalizing s j with
  | zero => cases h
  | succ n ih =>
    cases hstop : s.poll.window.stopRequested with
    | true =>
      rw [wishes_of_stop hstop] at h
      cases h
    | false =>
      obtain ⟨t, e, hstep, he, -⟩ | ⟨t, -, hticks, hstep | ⟨e, hstep, he, -⟩⟩ :=
        s.poll.step_cases
      · rw [wishes_of_stopped hstop hstep, he] at h
        cases h
      · rw [wishes_of_done hstop hstep, List.length_cons] at h
        rw [wishes_of_done hstop hstep, loop_of_done hstop hstep, loop_of_done hstop hstep]
        rw [ticks_poll] at hticks
        cases j with
        | zero => exact ⟨rfl, hticks, rfl⟩
        | succ j =>
          obtain ⟨hlength, hticks', hrest⟩ := ih (Nat.lt_of_succ_lt_succ h)
          refine ⟨congrArg Nat.succ hlength, ?_, ?_⟩
          · rw [hticks', hticks]
            omega
          · rw [hrest, Nat.succ_sub_succ]
      · rw [wishes_of_stopped hstop hstep, he, if_pos rfl, List.length_singleton,
          Nat.lt_one_iff] at h
        subst h
        rw [wishes_of_stopped hstop hstep, he, loop_of_stopped hstop hstep,
          loop_of_stopped hstop hstep]
        exact ⟨rfl, hticks.trans (by rw [ticks_poll]), rfl⟩

end Session

namespace Window

open Session

variable {w : Window} {m : Machine} {feed : Feed} {platform : Platform} {limit : Option Int}
  {b : Beeper} {s : Session}

/-- The signals of the completed ticks of a run, in the order of its rounds: what the machine shows
behind each of them. A last tick whose screen could not be shown is left out. -/
def tones (w : Window) (m : Machine) (feed : Feed) (platform : Platform) (limit : Option Int) :
    List Bool :=
  let s := (w.loopStart m feed platform).state
  let o := w.run m feed platform limit
  (List.range (o.state.ticks - if o.fault?.any RunFault.ofShowing then 1 else 0)).map fun j =>
    (s.loop (j + 1)).state.machine.signals.tone

theorem length_tones :
    (w.tones m feed platform limit).length = (w.run m feed platform limit).state.ticks -
      if (w.run m feed platform limit).fault?.any RunFault.ofShowing then 1 else 0 := by
  simp [tones]

/-- A run whose loop begins tells the beeper the signals of its ticks. -/
theorem tones_of_loopStart (h : w.loopStart m feed platform = .done s ()) :
    w.tones m feed platform limit = s.wishes (rounds s.feed limit) := by
  have hticks : (w.run m feed platform limit).state.ticks =
      (s.wishes (rounds s.feed limit)).length +
        if (w.run m feed platform limit).fault?.any RunFault.ofShowing then 1 else 0 := by
    rw [fault?_run h, run_of_loopStart h, ticks_finish, ticks_loop,
      (started_of_loopStart h).ticks, Nat.zero_add]
  rw [tones, h, hticks, Nat.add_sub_cancel]
  exact (wishes_eq_map s _).symm

/-- The loop begins and its wishes are the signals of the run, or the first screen could not be
shown and there is no round. -/
theorem tones_cases (hprepare : w.prepare m feed platform = .done s ()) (hs : w.Prepared m feed platform s)
    (limit : Option Int) :
    (∃ t, s.present = .done t () ∧ w.loopStart m feed platform = .done t () ∧
      w.tones m feed platform limit = t.wishes (rounds t.feed limit)) ∨
    ∃ t e, s.present = .stopped t e ∧ w.tones m feed platform limit = [] := by
  have hstart : w.loopStart m feed platform = s.present := by
    rw [loopStart, hprepare, done_andThen]
  obtain ⟨p, -, h⟩ | ⟨made, e, h, -⟩ := s.present_cases
  · rw [h] at hstart
    exact .inl ⟨_, h, hstart, tones_of_loopStart hstart⟩
  · have hticks : (w.run m feed platform limit).state.ticks = 0 := by
      rw [run_of_prepared hprepare, perform, h, stopped_andThen, state_stopped, ticks_finish]
      exact hs.ticks
    refine .inr ⟨_, e, h, ?_⟩
    rw [tones, hticks, Nat.zero_sub]
    rfl

/-- Between its opening and the end of a run the beeper is told the signals of the ticks. -/
theorem continues_run (hprepare : w.prepare m feed platform = .done s ()) (hs : w.Prepared m feed platform s)
    (limit : Option Int) :
    s.Continues (w.tones m feed platform limit) (s.perform limit).state := by
  have hpresent := continues_present s
  obtain ⟨t, h, -, htones⟩ | ⟨t, e, h, htones⟩ := tones_cases hprepare hs limit <;>
    rw [h] at hpresent <;> rw [htones, perform, h]
  · rw [done_andThen]
    exact hpresent.trans (continues_loop t _)
  · rw [stopped_andThen]
    exact hpresent

/-- The beeper behind a round that tells it something is on if the tick of this round has signalled
a tone. -/
theorem playing_of_round (hw : w.AtRest) (hprepare : w.prepare m feed platform = .done s ())
    (hs : w.Prepared m feed platform s) (hb : s.window.beeper = some b) {j : Nat}
    (hj : j < (w.tones m feed platform limit).length) :
    let s := (w.loopStart m feed platform).state
    let n := rounds s.feed limit
    let round := s.loop (j + 1)
    round.state.ticks = j + 1 ∧
      s.loop n = round.andThen (fun t _ => t.loop (n - (j + 1))) ∧
      round.state.window.beeper.map (·.playing) = some round.state.machine.signals.tone := by
  obtain ⟨hsound, hplaying⟩ := hs.ready hw b hb
  have hpresent := continues_present s
  obtain ⟨t, h, hstart, htones⟩ | ⟨t, e, -, htones⟩ := tones_cases hprepare hs limit <;>
    rw [htones] at hj
  · rw [hstart]
    rw [h] at hpresent
    obtain ⟨hlength, hticks, hrest⟩ := loop_through hj
    rw [(started_of_loopStart hstart).ticks, Nat.zero_add] at hticks
    refine ⟨hticks, hrest, ?_⟩
    -- The last of the wishes so far is the signal of this round's tick.
    have hlast : (t.wishes (j + 1)).getLastD false =
        (t.loop (j + 1)).state.machine.signals.tone := by
      rw [wishes_eq_map, hlength, List.range_succ, List.map_append, List.map_singleton,
        List.getLastD_concat]
    rw [state_done, (hpresent.trans (continues_loop t (j + 1))).beeper, hb, Option.map_some,
      Option.map_some, List.nil_append, Beeper.playing_updateAll hsound, hplaying, hlast]
  · cases hj

/-- An item that is not in the first part of a list stands behind all of it. -/
theorem exists_append_of_not_mem {xs ys before after : List Call} {c : Call} (hc : c ∉ xs)
    (h : xs ++ ys = before ++ c :: after) :
    ∃ rest, before = xs ++ rest ∧ ys = rest ++ c :: after := by
  obtain ⟨rest, hbefore, hys⟩ | ⟨rest, hxs, hrest⟩ := List.append_eq_append_iff.1 h
  · exact ⟨rest, hbefore, hys⟩
  · cases rest with
    | nil => exact ⟨[], by simpa using hxs.symm, hrest.symm⟩
    | cons d rest =>
      obtain ⟨rfl, -⟩ := List.cons.inj hrest
      exact absurd (hxs ▸ List.mem_append_right before (List.mem_cons_self ..)) hc

/-- Nothing is played in a run before the mixer has been asked for and a tone has been made. -/
theorem sound_made_before_play (hw : w.AtRest) (m : Machine) (feed : Feed) (platform : Platform)
    (limit : Option Int) {before after : List Call} {loops : Int}
    (h : (w.run m feed platform limit).state.calls = before ++ .play loops :: after) :
    ∃ rate size channels sound,
      .mixerInit rate size channels ∈ before ∧ .makeSound sound ∈ before := by
  have hswitch : ¬ (Call.play loops).Calm := by simp [Call.Calm, Call.isSwitch]
  obtain ⟨s, hprepare, hs⟩ | ⟨s, e, hprepare, hs⟩ := w.prepare_cases m feed platform
  · obtain ⟨tones, hc⟩ := continues_perform s limit
    obtain ⟨-, new, hcalls, -, hswitches⟩ := run_of_continues hw hprepare hs hc
    rw [hcalls, List.append_assoc] at h
    obtain ⟨rest, rfl, hrest⟩ :=
      exists_append_of_not_mem (fun hmem => hswitch (hs.calm _ hmem)) h
    cases hb : s.window.beeper with
    | none =>
      have hplay : .play loops ∈ new := by
        have hmem : .play loops ∈ new ++ [.quit] := by simp [hrest]
        simpa using hmem
      have hmem : .play loops ∈ (s.calls ++ new).filter Call.isSwitch :=
        List.mem_filter.2 ⟨List.mem_append_right _ hplay, rfl⟩
      rw [hswitches, hb] at hmem
      cases hmem
    | some b =>
      obtain ⟨c, tone, sound, -, -, hinit, hmade⟩ := hs.beeper b hb
      exact ⟨c.sampleRate, -16, 1, sound, List.mem_append_left _ hinit,
        List.mem_append_left _ hmade⟩
  · rw [run_of_unprepared hprepare, state_stopped] at h
    exact absurd (hs.calm _ (by simp [h])) hswitch

/-- If the window and its beeper have been opened, the beeper is on behind a completed tick of the
run if and only if this tick signals a tone; only a tick whose screen cannot be shown ends the run
before that. There is one call to play for every tick that signals a tone while the one before it
does not, or is none of this run; behind each of these calls there is one to stop, before the next
one and before the host is shut down. At the end of the run the beeper is off and no longer calls
anything, and in later runs nothing is played until the mixer has been asked for and a tone has been
made again. -/
theorem tone_follows_signals (hw : w.InUse) (hprepare : w.prepare m feed platform = .done s ())
    (hb : s.window.beeper = some b) (limit : Option Int) :
    let o := w.run m feed platform limit
    let start := (w.loopStart m feed platform).state
    let n := rounds start.feed limit
    let tones := w.tones m feed platform limit
    (o.fault?.any RunFault.ofShowing = false → tones.length = o.state.ticks) ∧
    (∀ j < tones.length,
      let round := start.loop (j + 1)
      round.state.ticks = j + 1 ∧
        start.loop n = round.andThen (fun t _ => t.loop (n - (j + 1))) ∧
        round.state.window.beeper.map (·.playing) = some round.state.machine.signals.tone) ∧
    o.state.calls.count (.play (-1)) = rises false tones ∧
    (∃ before, o.state.calls = before ++ [.quit] ∧ .quit ∉ before ∧
      before.filter Call.isSwitch = pulses (rises false tones)) ∧
    (∃ c, o.state.window.beeper = some c ∧ c.playing = false ∧ ∀ on, c.update on = ([], c)) ∧
    ∀ v, o.state.window.Later v → ∀ m feed platform limit before after loops,
      (v.run m feed platform limit).state.calls = before ++ .play loops :: after →
        ∃ rate size channels sound,
          .mixerInit rate size channels ∈ before ∧ .makeSound sound ∈ before := by
  intro o start n tones
  obtain ⟨t, hdone, hs⟩ | ⟨t, e, hstopped, -⟩ := w.prepare_cases m feed platform
  · obtain rfl : t = s := congrArg Outcome.state (hdone.symm.trans hprepare)
    obtain ⟨hbeeper, new, hcalls, hquit, hswitches⟩ :=
      run_of_continues hw.atRest hprepare hs (continues_run hprepare hs limit)
    rw [hb, Option.elim_some] at hswitches
    rw [hb, Option.map_some] at hbeeper
    refine ⟨fun hshown => ?_, fun j hj => playing_of_round hw.atRest hprepare hs hb hj,
      ?_, ?_, ?_, ?_⟩
    · rw [length_tones, hshown]
      rfl
    · have hcount := List.count_filter (p := Call.isSwitch) (a := .play (-1))
        (l := t.calls ++ new) rfl
      rw [hcalls, List.count_append, ← hcount, hswitches, count_play_pulses]
      rfl
    · exact ⟨_, hcalls, hquit, hswitches⟩
    · exact ⟨_, hbeeper, (hs.ready hw.atRest b hb).2, Beeper.update_of_silent rfl⟩
    · intro v hv m' feed' platform' limit' before after loops hplay
      have hlater : w.Later v := (Later.refl.run m feed platform limit).trans hv
      exact sound_made_before_play (hw.later hlater).atRest m' feed' platform' limit' hplay
  · cases hstopped.symm.trans hprepare

/-- A tone is signalled by every second tick, and the run ends with one that is on. -/
theorem second_tone_stopped_at_end :
    let m := (Machine.fresh (.tape [] 0)).perform
      (.load [0x60, 0x01, 0xF0, 0x18, 0x12, 0x02])
    let b := Beeper.closed Beeper.usualRate Beeper.usualFrequency (.whole 1)
    let w := create 16 300 usualTitle [] .usual (some b)
    let platform := Platform.willing (.device 44100 1)
    let o := w.run m ⟨[], false⟩ platform (some 4)
    let s := (w.loopStart m ⟨[], false⟩ platform).state
    w.tones m ⟨[], false⟩ platform (some 4) = [false, true, false, true] ∧
      (s.loop 4).state.window.beeper.map (·.playing) = some true ∧
      o.state.calls.count (.play (-1)) = 2 ∧
      ∃ before, o.state.calls = before ++ [.quit] ∧ .quit ∉ before ∧
        before.filter Call.isSwitch = [.play (-1), .stop, .play (-1), .stop] := by
  intro m b w platform o s
  have hw : w.InUse :=
    ⟨16, 300, _, [], .usual, some (Beeper.usualFrequency, .whole 1), .refl⟩
  obtain ⟨c, hb⟩ : ∃ c, (w.prepare m ⟨[], false⟩ platform).state.window.beeper = some c :=
    Option.isSome_iff_exists.1 (by decide +kernel)
  obtain ⟨⟨⟩, hprepare⟩ := exists_eq_done_of_fault?
    (show (w.prepare m ⟨[], false⟩ platform).fault? = none by decide +kernel)
  have htones : w.tones m ⟨[], false⟩ platform (some 4) = [false, true, false, true] := by
    decide +kernel
  obtain ⟨-, hrounds, hcount, hswitches, -, -⟩ := tone_follows_signals hw hprepare hb (some 4)
  rw [htones] at hrounds hcount hswitches
  obtain ⟨-, -, hplaying⟩ := hrounds 3 (by decide)
  refine ⟨htones, ?_, hcount, hswitches⟩
  rw [hplaying]
  decide +kernel

end Window

end ChipEight.Host
