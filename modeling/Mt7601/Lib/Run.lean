/-
# Runs of a deterministic transition function, and what a step lemma says about them

A system that takes one input at a time is a function `step : σ → ι → σ`; a run is the list of
its inputs, and the state a run ends in is the left fold of `step`. Most properties are not
preserved by *every* step but by the steps that meet a condition on the state they start in, so
the condition travels with the run: `StepsMeet step ok s is` says that each input of `is` meets
`ok` at the state the run has reached when the input arrives.

Everything here is about an arbitrary `step`: the induction over runs is made once.
-/
import Mathlib.Data.List.Basic

namespace Run

variable {σ ι ω : Type}

/-- The state a run ends in. -/
def final (step : σ → ι → σ) (s : σ) (is : List ι) : σ :=
  is.foldl step s

/-- **Every step meets the condition** `ok`, which sees the state before the step and the input. -/
def StepsMeet (step : σ → ι → σ) (ok : σ → ι → Prop) : σ → List ι → Prop
  | _, [] => True
  | s, i :: is => ok s i ∧ StepsMeet step ok (step s i) is

@[simp] theorem final_nil (step : σ → ι → σ) (s : σ) : final step s [] = s := rfl

@[simp] theorem final_cons (step : σ → ι → σ) (s : σ) (i : ι) (is : List ι) :
    final step s (i :: is) = final step (step s i) is := rfl

theorem final_append (step : σ → ι → σ) (s : σ) (is js : List ι) :
    final step s (is ++ js) = final step (final step s is) js := by
  simp [final]

@[simp] theorem stepsMeet_nil {step : σ → ι → σ} {ok : σ → ι → Prop} {s : σ} :
    StepsMeet step ok s [] := trivial

@[simp] theorem stepsMeet_cons {step : σ → ι → σ} {ok : σ → ι → Prop} {s : σ} {i : ι}
    {is : List ι} :
    StepsMeet step ok s (i :: is) ↔ ok s i ∧ StepsMeet step ok (step s i) is := Iff.rfl

instance decidableStepsMeet {step : σ → ι → σ} {ok : σ → ι → Prop}
    [hok : ∀ s i, Decidable (ok s i)] : ∀ s is, Decidable (StepsMeet step ok s is)
  | _, [] => .isTrue trivial
  | s, i :: is => @instDecidableAnd _ _ (hok s i) (decidableStepsMeet (step s i) is)

theorem stepsMeet_append {step : σ → ι → σ} {ok : σ → ι → Prop} {js : List ι} :
    ∀ {is : List ι} {s : σ},
      StepsMeet step ok s (is ++ js) ↔
        StepsMeet step ok s is ∧ StepsMeet step ok (final step s is) js
  | [], s => by simp
  | i :: is, s => by
      simp only [List.cons_append, stepsMeet_cons, final_cons]
      rw [stepsMeet_append, and_assoc]

/-- Two conditions that agree wherever the invariant holds agree along a run, if the steps that meet
them keep the invariant. -/
theorem stepsMeet_iff {step : σ → ι → σ} {ok ok' : σ → ι → Prop} (Inv : σ → Prop)
    (hiff : ∀ s i, Inv s → (ok s i ↔ ok' s i)) (hstep : ∀ s i, Inv s → ok s i → Inv (step s i))
    {is : List ι} {s : σ} (hinv : Inv s) : StepsMeet step ok s is ↔ StepsMeet step ok' s is := by
  induction is generalizing s with
  | nil => exact Iff.rfl
  | cons i is ih =>
    rw [stepsMeet_cons, stepsMeet_cons, ← hiff s i hinv]
    exact and_congr_right fun hok => ih (hstep s i hinv hok)

/-- A condition on the inputs alone. -/
theorem stepsMeet_forall {step : σ → ι → σ} {ok : ι → Prop} {is : List ι} {s : σ} :
    StepsMeet step (fun _ i => ok i) s is ↔ ∀ i ∈ is, ok i := by
  induction is generalizing s with
  | nil => simp
  | cons i is ih => rw [stepsMeet_cons, ih, List.forall_mem_cons]

/-- **The run rule.** What one step preserves, when it meets the condition, holds after every run
whose steps all meet it. -/
theorem invariant {step : σ → ι → σ} {ok : σ → ι → Prop} (Inv : σ → Prop)
    (hstep : ∀ s i, Inv s → ok s i → Inv (step s i)) :
    ∀ {is : List ι} {s : σ}, Inv s → StepsMeet step ok s is → Inv (final step s is)
  | [], _, hinv, _ => hinv
  | i :: _, s, hinv, hok => by
      rw [final_cons]
      exact invariant Inv hstep (hstep s i hinv hok.1) hok.2

/-- The run rule for a property every step preserves. -/
theorem invariant_always {step : σ → ι → σ} (Inv : σ → Prop)
    (hstep : ∀ s i, Inv s → Inv (step s i)) {is : List ι} {s : σ} (hinv : Inv s) :
    Inv (final step s is) := by
  induction is generalizing s with
  | nil => exact hinv
  | cons i is ih => exact ih (hstep s i hinv)

/-- The run rule for a property that also speaks of the inputs already taken. -/
theorem invariant_history {step : σ → ι → σ} {ok : σ → ι → Prop} (Inv : List ι → σ → Prop)
    (hstep : ∀ done s i, Inv done s → ok s i → Inv (done ++ [i]) (step s i)) {is : List ι}
    {done : List ι} {s : σ} (hinv : Inv done s) (hok : StepsMeet step ok s is) :
    Inv (done ++ is) (final step s is) := by
  induction is generalizing done s with
  | nil => rwa [List.append_nil]
  | cons i is ih =>
    have hnext : Inv (done ++ [i]) (step s i) := hstep done s i hinv hok.1
    rw [List.append_cons, final_cons]
    exact ih hnext hok.2

/-- **A counter takes every value in between** if no step moves it up by more than one. -/
theorem exists_count_eq {step : σ → ι → σ} (count : σ → Nat)
    (hstep : ∀ s i, count (step s i) ≤ count s + 1) {n : Nat} {is : List ι} {s : σ}
    (hlo : count s ≤ n) (hhi : n ≤ count (final step s is)) :
    ∃ done rest, is = done ++ rest ∧ count (final step s done) = n := by
  induction is generalizing s with
  | nil => exact ⟨[], [], rfl, Nat.le_antisymm hlo hhi⟩
  | cons i is ih =>
    rcases Nat.eq_or_lt_of_le hlo with heq | hlt
    · exact ⟨[], i :: is, rfl, heq⟩
    · have hnext := hstep s i
      obtain ⟨done, rest, rfl, hcount⟩ := ih (s := step s i) (by omega) hhi
      exact ⟨i :: done, rest, rfl, hcount⟩

/-- **The exact condition.** When a step that meets the condition keeps the invariant, and one that
does not destroys the property at once, the property holds all along a run exactly when every step
meets the condition. -/
theorem always_iff {step : σ → ι → σ} {ok : σ → ι → Prop} (Inv Good : σ → Prop)
    (hgood : ∀ s, Inv s → Good s) (hstep : ∀ s i, Inv s → ok s i → Inv (step s i))
    (hbad : ∀ s i, Inv s → ¬ ok s i → ¬ Good (step s i)) {is : List ι} {s : σ} (hinv : Inv s) :
    (∀ done rest, is = done ++ rest → Good (final step s done)) ↔ StepsMeet step ok s is := by
  induction is generalizing s with
  | nil =>
    refine ⟨fun _ => trivial, fun _ done rest hsplit => ?_⟩
    rw [(List.append_eq_nil_iff.mp hsplit.symm).1]
    exact hgood s hinv
  | cons i is ih =>
    constructor
    · intro hall
      have hok : ok s i := by
        by_contra hno
        exact hbad s i hinv hno (hall [i] is rfl)
      refine ⟨hok, (ih (hstep s i hinv hok)).mp fun done rest hsplit => ?_⟩
      exact hall (i :: done) rest (congrArg (i :: ·) hsplit)
    · rintro ⟨hok, hrest⟩ done rest hsplit
      rcases done with _ | ⟨j, done⟩
      · exact hgood s hinv
      · rw [List.cons_append, List.cons.injEq] at hsplit
        rw [← hsplit.1, final_cons]
        exact (ih (hstep s i hinv hok)).mpr hrest done rest hsplit.2

end Run
