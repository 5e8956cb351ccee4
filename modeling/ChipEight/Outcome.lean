/-!
# Outcomes

An operation that can fault part-way leaves more than an error: what it did before the fault
stays. Its outcome is therefore always a state, with the answer or the fault beside it.
-/

namespace ChipEight

/-- The state that an operation reached, and its answer or the fault that cut it short. -/
structure Outcome (ε σ α : Type) where
  state : σ
  answer : Except ε α

namespace Outcome

variable {ε σ τ α β : Type}

/-- The operation went through. -/
def done (state : σ) (answer : α) : Outcome ε σ α := ⟨state, .ok answer⟩

/-- The operation stopped at a fault. -/
def stopped (state : σ) (fault : ε) : Outcome ε σ α := ⟨state, .error fault⟩

/-- The fault, if there was one. -/
def fault? (o : Outcome ε σ α) : Option ε :=
  match o.answer with
  | .ok _ => none
  | .error e => some e

/-- Goes on from where an operation has come to, if it went through. -/
def andThen (o : Outcome ε σ α) (next : σ → α → Outcome ε σ β) : Outcome ε σ β :=
  match o with
  | ⟨s, .ok a⟩ => next s a
  | ⟨s, .error e⟩ => stopped s e

/-- The same outcome, seen as a state that the reached one is part of. -/
def inside (f : σ → τ) (o : Outcome ε σ α) : Outcome ε τ α := ⟨f o.state, o.answer⟩

/-- An operation that changes the state only if it goes through. -/
def ofExcept (before : σ) : Except ε σ → Outcome ε σ Unit
  | .ok after => done after ()
  | .error e => stopped before e

@[simp] theorem state_done (s : σ) (a : α) : (done s a : Outcome ε σ α).state = s := rfl

@[simp] theorem state_stopped (s : σ) (e : ε) : (stopped s e : Outcome ε σ α).state = s := rfl

@[simp] theorem fault?_done (s : σ) (a : α) : (done s a : Outcome ε σ α).fault? = none := rfl

@[simp] theorem fault?_stopped (s : σ) (e : ε) :
    (stopped s e : Outcome ε σ α).fault? = some e := rfl

@[simp] theorem done_andThen (s : σ) (a : α) (next : σ → α → Outcome ε σ β) :
    (done s a).andThen next = next s a := rfl

@[simp] theorem stopped_andThen (s : σ) (e : ε) (next : σ → α → Outcome ε σ β) :
    (stopped s e).andThen next = stopped s e := rfl

theorem answer_eq_error_iff {o : Outcome ε σ α} {e : ε} :
    o.answer = .error e ↔ o.fault? = some e := by
  unfold fault?
  cases o.answer <;> simp

/-- Without answers to tell apart, outcomes with the same fault or none end in the same way. -/
theorem answer_congr {o : Outcome ε σ Unit} {p : Outcome ε τ Unit} (h : o.fault? = p.fault?) :
    o.answer = p.answer := by
  unfold fault? at h
  cases ho : o.answer <;> cases hp : p.answer <;> simp_all

theorem eq_stopped_of_fault? {o : Outcome ε σ α} {e : ε} (h : o.fault? = some e) :
    o = stopped o.state e := by
  rw [stopped, ← answer_eq_error_iff.2 h]

/-- What goes on behind an operation goes on behind its end, or stops where it has stopped. -/
theorem andThen_cases (o : Outcome ε σ α) (next : σ → α → Outcome ε σ β) :
    (∃ s e, o = stopped s e ∧ o.andThen next = stopped s e) ∨
      ∃ s a, o = done s a ∧ o.andThen next = next s a := by
  obtain ⟨s, e | a⟩ := o
  · exact .inl ⟨s, e, rfl, rfl⟩
  · exact .inr ⟨s, a, rfl, rfl⟩

theorem exists_eq_done_of_fault? {o : Outcome ε σ α} (h : o.fault? = none) :
    ∃ a, o = done o.state a := by
  obtain ⟨s, a | a⟩ := o
  · cases h
  · exact ⟨a, rfl⟩

end Outcome

end ChipEight
