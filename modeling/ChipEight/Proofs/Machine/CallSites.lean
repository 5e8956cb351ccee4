import ChipEight.Proofs.Machine.Requests

/-!
# Calls in progress

The call stack is an array with stale entries above its depth. What it stands for is the list of
the sites of the calls in progress, and that list can be told from the run alone: a completed call
puts its own address at the end, a completed return takes the last one away, a reset takes all of
them away, and no other step matters. Hence a return that matches a call goes on behind it,
whatever has happened between the two.

## Main definitions

* `Move`, `Machine.follow`: the steps of a run, and the machine after them.
* `CallEvent`, `Machine.callEvents`: what the steps of a run mean to the calls in progress.
* `Balanced`: every call has its return.
-/

namespace ChipEight

/-- A step of a run: a tick, with what is known of the keys, or a reset. -/
inductive Move where
  | tick (keys : Keys)
  | reset

inductive CallEvent where
  /-- A call at an address was completed. -/
  | call (site : Int)
  /-- A return was completed. -/
  | ret
  | reset
  | other
  deriving DecidableEq, Repr

/-- The sites of the calls in progress after an event, the latest last. -/
def CallEvent.apply (sites : List Int) : CallEvent → List Int
  | .call site => sites ++ [site]
  | .ret => sites.dropLast
  | .reset => []
  | .other => sites

/-- Every call has its return, and there is no return besides. -/
inductive Balanced : List CallEvent → Prop where
  | nil : Balanced []
  | other {es : List CallEvent} (h : Balanced es) : Balanced (.other :: es)
  | call {es fs : List CallEvent} (site : Int) (h : Balanced es) (g : Balanced fs) :
      Balanced (.call site :: (es ++ .ret :: fs))

theorem Balanced.foldl_apply {es : List CallEvent} (h : Balanced es) (sites : List Int) :
    es.foldl CallEvent.apply sites = sites := by
  induction h generalizing sites with
  | nil => rfl
  | other _ ih => exact ih sites
  | call site _ _ ih ih' =>
    rw [List.foldl_cons, List.foldl_append, ih, List.foldl_cons, ih']
    exact List.dropLast_concat

/-- What the completion of an instruction at an address means to the calls in progress. -/
def Instruction.callEvent (pc : Int) : Instruction → CallEvent
  | .call _ => .call pc
  | .ret => .ret
  | _ => .other

namespace CallStack

theorem pop?_of_live {s : CallStack} {sites : List Int} {site : Int}
    (h : s.live = sites ++ [site]) : ∃ t, s.pop? = some (site, t) ∧ t.live = sites := by
  rcases hp : s.pop? with _ | ⟨addr, t⟩
  · rw [pop?_eq_none_iff.1 hp] at h
    simp at h
  · rw [live_of_pop? hp] at h
    obtain ⟨hlive, haddr⟩ := List.append_inj' h rfl
    exact ⟨t, by rw [List.singleton_inj.1 haddr], hlive⟩

theorem getElem?_entries {s : CallStack} {i : Nat} (h : i < s.depth) :
    s.entries[i]? = s.live[i]? := by
  rw [live, List.getElem?_take_of_lt h, Vector.getElem?_toList]

end CallStack

namespace Machine

variable {m t : Machine} {keys : Keys} {w : Word} {e : Fault}

def move (m : Machine) : Move → Machine
  | .tick keys => (m.tick keys).state
  | .reset => m.reset

/-- The machine after a run. -/
def follow (m : Machine) (moves : List Move) : Machine := moves.foldl move m

def callEvent (m : Machine) : Move → CallEvent
  | .tick keys =>
    match (m.tick keys).answer, m.fetch with
    | .ok _, .ok f => f.instruction.callEvent m.processor.pc
    | _, _ => .other
  | .reset => .reset

/-- What the steps of a run mean to the calls in progress, one after another. -/
def callEvents (m : Machine) : List Move → List CallEvent
  | [] => []
  | move :: moves => m.callEvent move :: (m.move move).callEvents moves

/-! ## One step -/

theorem live_of_done {i : Instruction} (hx : m.execute keys i = .done t ()) :
    t.processor.calls.live = (i.callEvent m.processor.pc).apply m.processor.calls.live := by
  cases hi : i.transfersControl with
  | false =>
    have hs : m.StepsOn (m.execute keys i).state := stepsOn_execute hi
    have ho : i.callEvent m.processor.pc = .other := by
      cases i with
      | ret | call => cases hi
      | _ => rfl
    rw [hx] at hs
    rw [ho]
    exact congrArg CallStack.live hs.calls
  | true =>
    cases i with
    | ret =>
      rcases hp : m.processor.calls.pop? with _ | ⟨addr, calls⟩
      · rw [execute_ret_of_pop?_none hp] at hx
        cases hx
      · rw [execute_ret_of_pop? hp] at hx
        cases hx
        rw [CallStack.live_of_pop? hp]
        exact List.dropLast_concat.symm
    | call target =>
      rcases hp : m.processor.calls.push? m.processor.pc with _ | calls
      · rw [execute_call_of_push?_none hp] at hx
        cases hx
      · rw [execute_call_of_push? hp] at hx
        cases hx
        exact CallStack.live_of_push? hp
    | jump | jumpOffset =>
      cases hx
      rfl
    | _ => cases hi

/-- One step does to the live part of the call stack what its event says. -/
theorem live_move (m : Machine) (move : Move) :
    (m.move move).processor.calls.live = (m.callEvent move).apply m.processor.calls.live := by
  cases move with
  | reset => rfl
  | tick keys =>
    obtain ⟨e, hf, ht⟩ | ⟨f, t, e, hf, hx, ht⟩ | ⟨f, t, hf, hx, ht⟩ := m.tick_cases keys
    · simp only [Machine.move, callEvent, ht, Outcome.stopped]
      rfl
    · have hc := m.quieten.calls_residue f.instruction
      rw [← eq_residue_of_stopped hx] at hc
      simp only [Machine.move, callEvent, ht, Outcome.stopped]
      exact congrArg CallStack.live hc
    · have hl := live_of_done hx
      simp only [Machine.move, callEvent, ht, hf, Outcome.done]
      exact hl

/-! ## Whole runs -/

theorem live_follow (m : Machine) (moves : List Move) :
    (m.follow moves).processor.calls.live =
      (m.callEvents moves).foldl CallEvent.apply m.processor.calls.live := by
  induction moves generalizing m with
  | nil => rfl
  | cons move moves ih =>
    rw [callEvents, List.foldl_cons, ← live_move]
    exact ih (m.move move)

/-- A call is refused by a full stack alone. -/
theorem fault?_tick_call {target : Address} (hf : m.fetch = .ok ⟨w, .call target⟩) :
    (m.tick keys).fault? =
      if m.processor.calls.live.length = callDepth then some (.callOverflow m.processor.pc)
      else none := by
  rw [fault?_tick_of_fetch hf, fault?_execute_call, CallStack.length_live]
  rfl

/-- A return is refused by an empty stack alone. -/
theorem fault?_tick_ret (hf : m.fetch = .ok ⟨w, .ret⟩) :
    (m.tick keys).fault? =
      if m.processor.calls.live = [] then some (.callUnderflow m.processor.pc) else none := by
  have hempty : m.quieten.processor.calls.depth = 0 ↔ m.processor.calls.live = [] := by
    rw [← List.length_eq_zero_iff, CallStack.length_live]
    rfl
  rw [fault?_tick_of_fetch hf, fault?_execute_ret, faultOf]
  split
  · rw [if_pos (hempty.1 ‹_›)]
    rfl
  · rw [if_neg (mt hempty.2 ‹_›)]

/-- A return goes on behind the latest call in progress, and leaves the others in progress. -/
theorem tick_ret (keys : Keys) (hf : m.fetch = .ok ⟨w, .ret⟩) {sites : List Int} {site : Int}
    (hl : m.processor.calls.live = sites ++ [site]) :
    (m.tick keys).fault? = none ∧ (m.tick keys).state.processor.pc = site + 2 ∧
      (m.tick keys).state.processor.calls.live = sites := by
  obtain ⟨t, hp, ht⟩ := CallStack.pop?_of_live hl
  have hq : m.quieten.processor.calls.pop? = some (site, t) := hp
  rw [tick_of_done hf (execute_ret_of_pop? hq)]
  exact ⟨rfl, rfl, ht⟩

/-- A run from a fresh processor, as it is at first and after a reset, keeps the sites of the calls
in progress on the call stack, in order. A call faults exactly if there are as many of them as the
stack holds, a return exactly if there are none, and else it goes on behind the latest one. So
whatever happens between a call and its return, the run goes on behind the call, with the depth
and the entries below it that the call had found. -/
theorem calls_follow_sites (h : m.processor = .fresh) (moves : List Move) :
    let t := m.follow moves
    let sites := (m.callEvents moves).foldl CallEvent.apply []
    (t.processor.calls.depth = sites.length ∧ sites.length ≤ 64 ∧
      ∀ i (hi : i < sites.length), t.processor.calls.entries[i]? = some sites[i]) ∧
    (∀ w target, t.fetch = .ok ⟨w, .call target⟩ → ∀ keys,
      (t.tick keys).fault? =
        if sites.length = 64 then some (.callOverflow t.processor.pc) else none) ∧
    (∀ w, t.fetch = .ok ⟨w, .ret⟩ → ∀ keys,
      (t.tick keys).fault? =
        (if sites = [] then some (.callUnderflow t.processor.pc) else none) ∧
      ∀ site ∈ sites.getLast?, (t.tick keys).state.processor.pc = site + 2) ∧
    ∀ keys, t.callEvent (.tick keys) = .call t.processor.pc → ∀ body,
      Balanced ((t.tick keys).state.callEvents body) →
      let u := (t.tick keys).state.follow body
      ∀ w, u.fetch = .ok ⟨w, .ret⟩ → ∀ keys',
        (u.tick keys').fault? = none ∧
        (u.tick keys').state.processor.pc = t.processor.pc + 2 ∧
        (u.tick keys').state.processor.calls.depth = t.processor.calls.depth ∧
        ∀ i < t.processor.calls.depth,
          (u.tick keys').state.processor.calls.entries[i]? = t.processor.calls.entries[i]? := by
  intro t sites
  have hlive : t.processor.calls.live = sites := by
    have hf := live_follow m moves
    rw [h] at hf
    exact hf
  have hdepth : t.processor.calls.depth = sites.length := by
    rw [← hlive, CallStack.length_live]
  refine ⟨⟨hdepth, hdepth ▸ t.processor.calls.depth_le, ?_⟩, ?_, ?_, ?_⟩
  · intro i hi
    rw [CallStack.getElem?_entries (hdepth ▸ hi), hlive, List.getElem?_eq_getElem hi]
  · intro w target hf keys
    rw [fault?_tick_call hf, hlive]
  · intro w hf keys
    refine ⟨by rw [fault?_tick_ret hf, hlive], fun site hsite => ?_⟩
    obtain ⟨ys, hys⟩ := List.getLast?_eq_some_iff.1 hsite
    exact (tick_ret keys hf (hlive.trans hys)).2.1
  · intro keys hcall body hbody u w hf keys'
    -- The balanced stretch puts back the calls in progress that it found behind the call.
    have hbehind : u.processor.calls.live = sites ++ [t.processor.pc] := by
      have hmove := live_move t (.tick keys)
      rw [hcall, hlive] at hmove
      exact (live_follow _ body).trans ((hbody.foldl_apply _).trans hmove)
    obtain ⟨hok, hpc, hrest⟩ := tick_ret keys' hf hbehind
    have hsame : (u.tick keys').state.processor.calls.depth = t.processor.calls.depth := by
      rw [← CallStack.length_live, hrest, hdepth]
    refine ⟨hok, hpc, hsame, fun i hi => ?_⟩
    rw [CallStack.getElem?_entries (hsame ▸ hi), CallStack.getElem?_entries hi, hrest, hlive]

/-- A call that is made within a call. -/
theorem returns_behind_nested_call :
    let m := (fresh (.tape [] 0)).perform
      (.load [0x22, 0x04, 0x12, 0x02, 0x22, 0x08, 0x00, 0xEE, 0x00, 0xEE])
    let tick := Move.tick .none
    m.processor = .fresh ∧
      m.callEvents [tick, tick, tick, tick] = [.call 0x200, .call 0x204, .ret, .ret] ∧
      (m.follow [tick, tick, tick, tick]).processor.pc = 0x202 := by
  intro m tick
  have hfresh : m.processor = .fresh := rfl
  have hevents : m.callEvents [tick, tick, tick, tick] =
      [.call 0x200, .call 0x204, .ret, .ret] := by decide +kernel
  refine ⟨hfresh, hevents, ?_⟩
  have hcall : m.callEvent tick = .call m.processor.pc := by decide +kernel
  have hbody : Balanced ((m.tick .none).state.callEvents [tick, tick]) := by
    have he : (m.tick .none).state.callEvents [tick, tick] = [.call 0x204, .ret] := by
      decide +kernel
    rw [he]
    exact .call 0x204 .nil .nil
  have hret : ((m.tick .none).state.follow [tick, tick]).fetch = .ok ⟨0x00EE, .ret⟩ := by
    have hw : ((m.tick .none).state.follow [tick, tick]).wordAtPc = 0x00EE := by decide +kernel
    rw [fetch_of_inside (by decide +kernel) (by decide +kernel), hw]
    rfl
  exact ((calls_follow_sites hfresh []).2.2.2 .none hcall _ hbody 0x00EE hret .none).2.1

end Machine

end ChipEight
