/-
# Guards of checked code

The condition under which checked code is not stopped, and what holds of its result if it is not:
`Guarded x P Q`. The condition of a sequence is the conjunction of those of its steps
(`Guarded.bind`). That of a loop over a list is that every element fits where the loop comes to it
(`AllFit`), in terms of a view of the state that is as much of it as the conditions look at
(`Guarded.foldWhile`).
-/
import Mt7601.Lib.Checked

namespace Checked

variable {α β : Type}

/-! ## 1. Guards -/

/-- It is not stopped exactly under a condition, and then something holds of its result. -/
structure Guarded (x : Checked α) (P : Prop) (Q : α → Prop) : Prop where
  safe : Safe x ↔ P
  post : ∀ r, x = .ok r → Q r

namespace Guarded

variable {x : Checked α} {P S : Prop} {Q Q' : α → Prop}

theorem ok {a : α} (h : Q a) : Guarded (.ok a : Checked α) True Q :=
  ⟨iff_of_true (safe_ok a) trivial, fun r hr => by cases hr; exact h⟩

theorem error {f : Fault} : Guarded (.error f : Checked α) False Q :=
  ⟨⟨fun h => not_safe_error f h, False.elim⟩, fun _ h => nomatch h⟩

theorem access (size off n : Nat) :
    Guarded (access size off n) (off + n ≤ size) fun _ => True :=
  ⟨safe_access, fun _ _ => trivial⟩

theorem sub (m n : Nat) : Guarded (sub m n) (n ≤ m) (· = m - n) := by
  refine ⟨safe_sub, fun r h => ?_⟩
  unfold Checked.sub at h
  split at h
  · cases h
    rfl
  · exact nomatch h

/-- The condition in other words. -/
theorem congr (h : Guarded x P Q) (hP : P ↔ S) : Guarded x S Q := ⟨h.safe.trans hP, h.post⟩

/-- Less of the result. -/
theorem imp (h : Guarded x P Q) (hQ : ∀ r, Q r → Q' r) : Guarded x P Q' :=
  ⟨h.safe, fun r hr => hQ r (h.post r hr)⟩

/-- The condition holds of what was not stopped. -/
theorem keep (h : Guarded x P Q) : Guarded x P fun r => P ∧ Q r :=
  ⟨h.safe, fun r hr => ⟨h.safe.mp ⟨r, hr⟩, h.post r hr⟩⟩

/-- **The sequence rule.** -/
theorem bind {f : α → Checked β} {R : β → Prop} (h : Guarded x P Q)
    (hf : ∀ r, Q r → Guarded (f r) S R) : Guarded (x >>= f) (P ∧ S) R := by
  cases hx : x with
  | error e =>
    have hP : ¬ P := fun hP => not_safe_error e (hx ▸ h.safe.mpr hP)
    exact error.congr ⟨False.elim, fun hPS => hP hPS.1⟩
  | ok r =>
    have hP : P := h.safe.mp ⟨r, hx⟩
    exact (hf r (h.post r hx)).congr ⟨fun hS => ⟨hP, hS⟩, fun hPS => hPS.2⟩

/-- A first step with one result. -/
theorem bindEq {f : α → Checked β} {R : β → Prop} {a : α} (h : Guarded x P (· = a))
    (hf : Guarded (f a) S R) : Guarded (x >>= f) (P ∧ S) R :=
  h.bind fun r hr => by
    rw [hr]
    exact hf

/-- A last step that cannot be stopped. -/
theorem map {f : α → β} {R : β → Prop} (h : Guarded x P Q) (hR : ∀ r, Q r → R (f r)) :
    Guarded (x >>= fun r => .ok (f r)) P R :=
  (h.bind fun r hr => ok (hR r hr)).congr ⟨fun hP => hP.1, fun hP => ⟨hP, trivial⟩⟩

theorem ite {c : Prop} [Decidable c] {y : Checked α} (hx : c → Guarded x P Q)
    (hy : ¬ c → Guarded y S Q) : Guarded (if c then x else y) (if c then P else S) Q := by
  by_cases hc : c
  · simp only [if_pos hc]
    exact hx hc
  · simp only [if_neg hc]
    exact hy hc

end Guarded

/-! ## 2. Loops over a list -/

variable {σ τ ι ρ ω : Type}

/-- A loop whose steps go on with a state or end it with a result. -/
def foldWhile (step : σ → ι → Checked (σ ⊕ ρ)) : σ → List ι → Checked (σ ⊕ ρ)
  | s, [] => .ok (.inl s)
  | s, i :: l => step s i >>= fun r =>
    match r with
    | .inl s => foldWhile step s l
    | .inr r => .ok (.inr r)

/-- What effects come to, one after the other. -/
def walkWhile (effect : τ → ι → τ ⊕ ω) : τ → List ι → τ ⊕ ω
  | t, [] => .inl t
  | t, i :: l =>
    match effect t i with
    | .inl t => walkWhile effect t l
    | .inr r => .inr r

/-- Every element fits where the effects come to it. -/
def AllFit (fits : τ → ι → Prop) (effect : τ → ι → τ ⊕ ω) : τ → List ι → Prop
  | _, [] => True
  | t, i :: l => fits t i ∧ ∀ t', effect t i = .inl t' → AllFit fits effect t' l

/-- **The loop rule.** The conditions of the steps, and what the steps make of a view of the state,
depend on the view. -/
theorem Guarded.foldWhile {step : σ → ι → Checked (σ ⊕ ρ)} {v : σ → τ} {u : ρ → ω}
    {F : τ → ι → Prop} {E : τ → ι → τ ⊕ ω}
    (h : ∀ s i, Guarded (step s i) (F (v s) i) (Sum.map v u · = E (v s) i)) (s : σ)
    (l : List ι) : Guarded (foldWhile step s l) (AllFit F E (v s) l)
      (Sum.map v u · = walkWhile E (v s) l) := by
  induction l generalizing s with
  | nil => exact ok rfl
  | cons i l ih =>
    rw [Checked.foldWhile, walkWhile, AllFit]
    refine (h s i).bind fun r hr => ?_
    rw [← hr]
    cases r with
    | inl s' =>
      refine (ih s').congr ⟨fun hfit t ht => ?_, fun hall => hall (v s') rfl⟩
      cases ht
      exact hfit
    | inr r =>
      have hend : Guarded (.ok (.inr r) : Checked (σ ⊕ ρ)) True (Sum.map v u · = .inr (u r)) :=
        ok rfl
      refine hend.congr ⟨?_, fun _ => trivial⟩
      intro _ t ht
      exact nomatch ht

/-- Effects that never end the loop. -/
theorem walkWhile_inl (next : τ → ι → τ) (t : τ) (l : List ι) :
    walkWhile (fun t i => (.inl (next t i) : τ ⊕ ω)) t l = .inl (l.foldl next t) := by
  induction l generalizing t with
  | nil => rfl
  | cons i l ih => exact ih _

/-- Where nothing changes the view and nothing ends the loop. -/
theorem allFit_iff_forall {fits : τ → ι → Prop} (t : τ) (l : List ι) :
    AllFit fits (fun t _ => (.inl t : τ ⊕ ω)) t l ↔ ∀ i ∈ l, fits t i := by
  induction l with
  | nil => exact ⟨fun _ i hi => (nomatch hi), fun _ => trivial⟩
  | cons i l ih =>
    rw [List.forall_mem_cons, AllFit, ← ih]
    refine and_congr_right fun _ => ⟨fun h => h t rfl, fun h t' ht => ?_⟩
    cases ht
    exact h

end Checked
