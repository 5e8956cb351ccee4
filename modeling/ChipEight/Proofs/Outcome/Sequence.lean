import Mathlib.Algebra.GroupWithZero.Nat
import ChipEight.Outcome

/-!
# Operations in turn

Operations that follow one another until one of them stops. A stop leaves what was done before it,
so the outcome holds the state that was reached and the answers of the operations that went
through, be it all of them or only the first few.

## Main definitions

* `Outcome.inTurn`: an operation for every item of a list.
* `Outcome.MadeOf`: big operations that are blocks of small ones.
-/

namespace ChipEight.Outcome

variable {ε σ τ α β γ δ : Type}

/-- The operation for one item after another, until it stops. The state is the one reached, with
the answers of the operations that went through. -/
def inTurn (op : σ → α → Outcome ε σ β) (s : σ) : List α → Outcome ε (σ × List β) Unit
  | [] => done (s, []) ()
  | a :: as =>
    match op s a with
    | ⟨t, .error e⟩ => stopped (t, []) e
    | ⟨t, .ok b⟩ => (inTurn op t as).inside fun r => (r.1, b :: r.2)

@[simp] theorem state_inside (f : σ → τ) (o : Outcome ε σ α) : (o.inside f).state = f o.state := rfl

@[simp] theorem answer_inside (f : σ → τ) (o : Outcome ε σ α) :
    (o.inside f).answer = o.answer := rfl

section

variable {op : σ → α → Outcome ε σ β} {s t : σ} {a : α} {b : β} {e : ε} {as : List α}

theorem inTurn_cons_of_stopped (h : op s a = stopped t e) :
    inTurn op s (a :: as) = stopped (t, []) e := by
  simp only [inTurn, h, stopped]

theorem inTurn_cons_of_done (h : op s a = done t b) :
    inTurn op s (a :: as) = (inTurn op t as).inside fun r => (r.1, b :: r.2) := by
  simp only [inTurn, h, done]

/-- Items after a stop do not matter. -/
theorem inTurn_append_of_stopped (h : (inTurn op s as).fault? = some e) (bs : List α) :
    inTurn op s (as ++ bs) = inTurn op s as := by
  induction as generalizing s with
  | nil => cases h
  | cons a as ih =>
    rw [List.cons_append]
    rcases ho : op s a with ⟨t, e' | b⟩
    · rw [inTurn_cons_of_stopped ho, inTurn_cons_of_stopped ho]
    · rw [inTurn_cons_of_done ho] at h ⊢
      rw [ih h, inTurn_cons_of_done ho]

/-- Without a stop the second half goes on where the first one got. -/
theorem inTurn_append_of_done (h : (inTurn op s as).fault? = none) (bs : List α) :
    inTurn op s (as ++ bs) =
      (inTurn op (inTurn op s as).state.1 bs).inside
        fun r => (r.1, (inTurn op s as).state.2 ++ r.2) := by
  induction as generalizing s with
  | nil => rfl
  | cons a as ih =>
    rw [List.cons_append]
    rcases ho : op s a with ⟨t, e' | b⟩
    · rw [inTurn_cons_of_stopped ho] at h
      cases h
    · rw [inTurn_cons_of_done ho] at h ⊢
      rw [ih h, inTurn_cons_of_done ho]
      rfl

theorem length_inTurn_of_done (h : (inTurn op s as).fault? = none) :
    (inTurn op s as).state.2.length = as.length := by
  induction as generalizing s with
  | nil => rfl
  | cons a as ih =>
    rcases ho : op s a with ⟨t, e' | b⟩
    · rw [inTurn_cons_of_stopped ho] at h
      cases h
    · rw [inTurn_cons_of_done ho] at h ⊢
      simpa using ih h

end

/-! ## Operations made of smaller ones -/

/-- Every big operation is a block of small ones, as far as a view of its states goes. -/
structure MadeOf (big : τ → γ → Outcome ε τ δ) (op : σ → α → Outcome ε σ β) (view : τ → σ)
    (block : γ → List α) : Prop where
  state (t : τ) (c : γ) : view (big t c).state = (inTurn op (view t) (block c)).state.1
  fault? (t : τ) (c : γ) : (big t c).fault? = (inTurn op (view t) (block c)).fault?

section

variable {op : σ → α → Outcome ε σ β} {view : τ → σ} {block : γ → List α}

/-- Big operations in turn are all their small ones in turn. -/
theorem inTurn_of_madeOf {big : τ → γ → Outcome ε τ δ} (h : MadeOf big op view block) (t : τ)
    (cs : List γ) :
    view (inTurn big t cs).state.1 = (inTurn op (view t) (cs.flatMap block)).state.1 ∧
      (inTurn big t cs).fault? = (inTurn op (view t) (cs.flatMap block)).fault? := by
  induction cs generalizing t with
  | nil => exact ⟨rfl, rfl⟩
  | cons c cs ih =>
    have hs := h.state t c
    have hf := h.fault? t c
    rw [List.flatMap_cons]
    rcases ho : big t c with ⟨u, e | d⟩ <;> rw [ho] at hs hf
    · rw [inTurn_cons_of_stopped ho, inTurn_append_of_stopped hf.symm]
      exact ⟨hs, hf⟩
    · rw [inTurn_cons_of_done ho, inTurn_append_of_done hf.symm, ← hs]
      exact ih u

/-- What every big operation adds to a measure, as many as its small ones have answers of a kind,
big operations in turn add up. -/
theorem measure_inTurn_of_madeOf {big : τ → γ → Outcome ε τ δ} (h : MadeOf big op view block)
    (measure : τ → Nat) {kind : β → Bool}
    (hm : ∀ t c, measure (big t c).state =
      measure t + (inTurn op (view t) (block c)).state.2.countP kind) (t : τ) (cs : List γ) :
    measure (inTurn big t cs).state.1 =
      measure t + (inTurn op (view t) (cs.flatMap block)).state.2.countP kind := by
  induction cs generalizing t with
  | nil => rfl
  | cons c cs ih =>
    have hs := h.state t c
    have hf := h.fault? t c
    have hc := hm t c
    rw [List.flatMap_cons]
    rcases ho : big t c with ⟨u, e | d⟩ <;> rw [ho] at hs hf hc
    · rw [inTurn_cons_of_stopped ho, inTurn_append_of_stopped hf.symm]
      exact hc
    · rw [inTurn_cons_of_done ho, inTurn_append_of_done hf.symm, ← hs]
      have hu : measure u = _ := hc
      simp only [state_inside, ih, hu, List.countP_append, Nat.add_assoc]

/-- If every big operation answers how many of its small ones have answers of a kind, then the
answers of big operations in turn sum up to how many of all small ones have. -/
theorem sum_inTurn_of_madeOf {big : τ → γ → Outcome ε τ Nat} (h : MadeOf big op view block)
    {kind : β → Bool}
    (ha : ∀ t c n, (big t c).answer = .ok n →
      n = (inTurn op (view t) (block c)).state.2.countP kind) {t : τ} {cs : List γ}
    (hok : (inTurn big t cs).fault? = none) :
    (inTurn big t cs).state.2.sum =
      (inTurn op (view t) (cs.flatMap block)).state.2.countP kind := by
  induction cs generalizing t with
  | nil => rfl
  | cons c cs ih =>
    have hs := h.state t c
    have hf := h.fault? t c
    have hc := ha t c
    rw [List.flatMap_cons]
    rcases ho : big t c with ⟨u, e | n⟩ <;> rw [ho] at hs hf hc
    · rw [inTurn_cons_of_stopped ho] at hok
      cases hok
    · rw [inTurn_cons_of_done ho] at hok ⊢
      rw [inTurn_append_of_done hf.symm, ← hs]
      simp only [state_inside, List.sum_cons, List.countP_append, ih hok, hc n rfl]

end

end ChipEight.Outcome
