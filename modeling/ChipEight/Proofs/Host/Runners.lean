import ChipEight.Proofs.Host.Rounds

/-!
# Three ways to run a machine

A machine can be run by itself, with a recorder or in a window. All three come down to ticks in
turn: they leave the same machine and stop with the same fault, no matter how the ticks are shared
out among calls, and what they count besides can be told from the signals of the completed ticks.

## Main definitions

* `Event.Idle`: an event that neither asks to stop nor concerns a key.
-/

namespace ChipEight

open Outcome Host

namespace Host

/-! ## Events without a meaning -/

namespace Event

/-- The host key that the event is about. -/
def hostKey? : Event → Option Int
  | .keyDown key | .keyUp key => some key
  | _ => none

/-- The event does not ask for the end of the run, and a host key that it is about stands for no
key. -/
def Idle (keyOf : Int → Option Key) (e : Event) : Prop :=
  e.asksToStop = false ∧ ∀ key ∈ e.hostKey?, keyOf key = none

instance (keyOf : Int → Option Key) (e : Event) : Decidable (e.Idle keyOf) :=
  inferInstanceAs (Decidable (_ ∧ _))

variable {keyOf : Int → Option Key} {e : Event} {es : List Event}

/-- A host key that stands for no key changes nothing. -/
theorem hold_of_forall (h : ∀ key ∈ e.hostKey?, keyOf key = none) (held : Keypad) :
    e.hold keyOf held = held := by
  cases e with
  | keyDown key | keyUp key => simp [Event.hold, h key rfl]
  | quit | other | stop => rfl

theorem foldl_hold_of_idle (h : ∀ e ∈ es, e.Idle keyOf) (held : Keypad) :
    es.foldl (Event.hold keyOf) held = held := by
  induction es with
  | nil => rfl
  | cons e es ih =>
    obtain ⟨he, hes⟩ := List.forall_mem_cons.1 h
    rw [List.foldl_cons, hold_of_forall he.2, ih hes]

end Event

namespace Window

variable {w : Window} {feed : Feed} {n : Nat}

theorem heldAfter_of_idle (h : ∀ i < n, ∀ e ∈ feed.batch i, e.Idle w.keyOf) :
    w.heldAfter feed n = w.held := by
  refine Event.foldl_hold_of_idle (fun e he => ?_) w.held
  obtain ⟨i, hi, he⟩ := List.mem_flatMap.1 he
  exact h i (List.mem_range.1 hi) e he

/-- Without events about keys every tick sees the keys that are held from the start. -/
theorem reports_of_idle (h : ∀ i < n, ∀ e ∈ feed.batch i, e.Idle w.keyOf) :
    w.reports feed n = List.replicate n w.held.toKeys := by
  refine List.eq_replicate_iff.2 ⟨length_reports w feed n, fun keys hkeys => ?_⟩
  obtain ⟨i, hi, rfl⟩ := List.mem_map.1 hkeys
  have hi := List.mem_range.1 hi
  rw [heldAfter_of_idle fun j hj => h j (by omega)]

/-- A window with no key held, which no event reaches and which the host does not end, makes ticks
with no key reported. -/
theorem run_of_idle {m : Machine} {platform : Platform}
    (hhost : (w.run m feed platform (some (n : Int))).fault?.all RunFault.ofMachine = true)
    (hheld : w.held = .released) (hidle : ∀ i < n, ∀ e ∈ feed.batch i, e.Idle w.keyOf) :
    let ticks := m.tickAll (List.replicate n .none)
    let o := w.run m feed platform (some n)
    o.state.machine = ticks.state.1 ∧ o.fault? = ticks.fault?.map .machine ∧
      o.state.window.frames = w.frames + 1 + ticks.state.2.countP (·.redraw) := by
  intro ticks o
  have hquiet : ∀ i < n, (feed.batch i).any Event.asksToStop = false := fun i hi => by
    rw [List.any_eq_false]
    exact fun e he => by simp [(hidle i hi e he).1]
  have hticks : m.tickAll (w.reports feed n) = ticks := by
    rw [reports_of_idle hidle, hheld, Machine.tickAll_replicate_congr Keys.agree_released]
  obtain ⟨s, t, hs, -, hmachine, -, hframes, hrest, hfault⟩ :=
    loop_of_quiet hhost (Nat.le_refl n) hquiet
  rw [hticks] at hmachine hframes hrest hfault
  cases he : ticks.fault? with
  | none =>
    obtain ⟨-, -, -, hloop⟩ := hrest he
    have hrun : o = .done t.finish t.ticks := run_of_done hs (hloop 0)
    rw [hrun]
    exact ⟨t.machine_finish.trans hmachine, rfl, t.frames_finish.trans hframes⟩
  | some e =>
    have hrun : o = .stopped t.finish (.machine e) := run_of_stopped hs (hfault e he 0)
    rw [hrun]
    exact ⟨t.machine_finish.trans hmachine, rfl, t.frames_finish.trans hframes⟩

end Window

end Host

/-! ## The runs compared -/

/-- Calls that all report the same on the keys report it as often as they are asked for ticks. -/
theorem flatMap_replicate_eq (keys : Keys) (ns : List Nat) :
    ns.flatMap (fun n => List.replicate n keys) = List.replicate ns.sum keys := by
  induction ns with
  | nil => rfl
  | cons n ns ih => rw [List.flatMap_cons, ih, List.replicate_append_replicate, List.sum_cons]

namespace Machine

variable {m : Machine}

/-- Runs of a machine and recorded runs, one after another, are the ticks that all of them ask
for. -/
theorem runs_are_ticks (m : Machine) (keys : Keys) (ns : List Nat) (r : Recorder) :
    let ticks := m.tickAll (List.replicate ns.sum keys)
    let runs := inTurn (fun m (n : Nat) => m.run keys n) m ns
    let records := inTurn (Recorder.recordBoth keys) (r, m) ns
    runs.state.1 = ticks.state.1 ∧ runs.fault? = ticks.fault? ∧
    records.state.1.2 = ticks.state.1 ∧ records.fault? = ticks.fault? ∧
    (ticks.fault? = none → runs.state.2.sum = ticks.state.2.countP (·.redraw)) ∧
    records.state.1.1.snapshots.size = r.snapshots.size + ticks.state.2.countP (·.redraw) ∧
    records.state.1.1.toneTicks = r.toneTicks + ticks.state.2.countP (·.tone) := by
  intro ticks runs records
  have hticks : ticks = m.tickAll (ns.flatMap fun n => List.replicate n keys) := by
    rw [flatMap_replicate_eq]
  obtain ⟨hruns, hfault⟩ := inTurn_of_madeOf (madeOf_run keys) m ns
  have hrecord := Recorder.madeOf_recordBoth keys
  obtain ⟨hrecords, hfault'⟩ := inTurn_of_madeOf hrecord (r, m) ns
  rw [hticks]
  refine ⟨hruns, hfault, hrecords, hfault', fun hok => ?_, ?_, ?_⟩
  · exact sum_inTurn_of_madeOf (madeOf_run keys) (fun _ _ _ h => redraws_of_run h)
      (hfault.trans hok)
  · exact measure_inTurn_of_madeOf hrecord (fun s => s.1.snapshots.size)
      (fun s n => (Recorder.recordTicks_eq s.1 s.2 keys n).2.2.1) (r, m) ns
  · exact measure_inTurn_of_madeOf hrecord (fun s => s.1.toneTicks)
      (fun s n => (Recorder.recordTicks_eq s.1 s.2 keys n).2.2.2) (r, m) ns

/-- Runs of a machine and recorded runs are the ticks that all their calls ask for, as far as the
machine and the fault go, and they count the redraws and the tones among the signals of these
ticks. A window with no key held, which no event stops and no event about a key reaches, is as many
ticks as it has rounds, with no key reported, unless the host refuses something; it shows the screen
once before them and then for every redraw. -/
theorem runners_agree (m : Machine) :
    (∀ (keys : Keys) (ns : List Nat) (r : Recorder),
      let ticks := m.tickAll (List.replicate ns.sum keys)
      let runs := inTurn (fun m (n : Nat) => m.run keys n) m ns
      let records := inTurn (Recorder.recordBoth keys) (r, m) ns
      runs.state.1 = ticks.state.1 ∧ runs.fault? = ticks.fault? ∧
      records.state.1.2 = ticks.state.1 ∧ records.fault? = ticks.fault? ∧
      (ticks.fault? = none → runs.state.2.sum = ticks.state.2.countP (·.redraw)) ∧
      records.state.1.1.snapshots.size = r.snapshots.size + ticks.state.2.countP (·.redraw) ∧
      records.state.1.1.toneTicks = r.toneTicks + ticks.state.2.countP (·.tone)) ∧
    ∀ (w : Window) (feed : Feed) (platform : Platform) (n : Nat),
      let ticks := m.tickAll (List.replicate n .none)
      let o := w.run m feed platform (some n)
      o.fault?.all RunFault.ofMachine = true → w.held = .released →
      (∀ i < n, ∀ e ∈ feed.batch i, e.Idle w.keyOf) →
      o.state.machine = ticks.state.1 ∧ o.fault? = ticks.fault?.map .machine ∧
      o.state.window.frames = w.frames + 1 + ticks.state.2.countP (·.redraw) :=
  ⟨runs_are_ticks m, fun _ _ _ _ hhost hheld hidle => Window.run_of_idle hhost hheld hidle⟩

/-- Three ticks of a program that clears the screen over and over, shared out in two ways. -/
theorem two_redraws_in_three_ticks :
    let m := (fresh (.tape [] 0)).perform (.load [0x00, 0xE0, 0x12, 0x00])
    let runs := inTurn (fun m (n : Nat) => m.run .none n) m [2, 1]
    let records := inTurn (Recorder.recordBoth .none) (.empty, m) [1, 0, 2]
    let w := Window.create 16 300 Window.usualTitle [(120, 7)] .usual none
    let feed : Feed := ⟨[[.other], [.keyDown 121]], false⟩
    let o := w.run m feed (.willing (.absent "")) (some (3 : Nat))
    m.Reachable ∧ runs.state.2.sum = 2 ∧ records.state.1.1.snapshots.size = 2 ∧
      records.state.1.1.toneTicks = 0 ∧ o.state.window.frames = 3 ∧ o.fault? = none := by
  intro m runs records w feed o
  have hm : m.Reachable := (Reachable.fresh _).perform _
  have hok : (m.tickAll (List.replicate 3 .none)).fault? = none := by decide +kernel
  have hredraws : (m.tickAll (List.replicate 3 .none)).state.2.countP (·.redraw) = 2 := by
    decide +kernel
  have htones : (m.tickAll (List.replicate 3 .none)).state.2.countP (·.tone) = 0 := by
    decide +kernel
  obtain ⟨hshared, hwindow⟩ := runners_agree m
  obtain ⟨-, -, -, -, hsum, -, -⟩ := hshared .none [2, 1] .empty
  obtain ⟨-, -, -, -, -, hsize, htone⟩ := hshared .none [1, 0, 2] .empty
  have hhost : o.fault?.all RunFault.ofMachine = true :=
    Window.ofMachine_of_willing hm.bounded (by decide +kernel) (some 3)
  obtain ⟨-, hfault, hframes⟩ :=
    hwindow w feed (.willing (.absent "")) 3 hhost rfl (by decide +kernel)
  refine ⟨hm, (hsum hok).trans hredraws, ?_, ?_, ?_, ?_⟩
  · rw [hsize]
    exact congrArg (0 + ·) hredraws
  · rw [htone]
    exact congrArg (0 + ·) htones
  · rw [hframes]
    exact congrArg (0 + 1 + ·) hredraws
  · rw [hfault, hok]
    rfl

end Machine

end ChipEight
