/-
# Runs of one key

A list cut where the key of its elements changes. The cut is made as a loop makes it that goes over
the list once: with the run that is being collected, and its key. Nothing is lost and nothing
changes its place, the first run goes as far as the key of the first element does, and there is one
run only where all the keys are the same.
-/
import Mathlib.Data.List.TakeWhile

namespace KeyRuns

variable {α κ : Type} [DecidableEq κ] (key : α → κ)

/-- The runs of what is left behind the run that is being collected. -/
def runsFrom (k : κ) (run : List α) : List α → List (List α)
  | [] => [run]
  | a :: l => if key a = k then runsFrom k (run ++ [a]) l else run :: runsFrom (key a) [a] l

/-- The elements that still belong to the run. -/
def sameKey (k : κ) (l : List α) : List α := l.takeWhile fun a => key a = k

theorem flatten_runsFrom (k : κ) (run l : List α) : (runsFrom key k run l).flatten = run ++ l := by
  induction l generalizing k run with
  | nil => simp [runsFrom]
  | cons a l ih =>
    unfold runsFrom
    split
    · rw [ih]
      simp
    · rw [List.flatten_cons, ih]
      simp

theorem length_runsFrom (k : κ) (run l : List α) :
    (runsFrom key k run l).length ≤ l.length + 1 := by
  induction l generalizing k run with
  | nil => simp [runsFrom]
  | cons a l ih =>
    unfold runsFrom
    split
    · have h := ih k (run ++ [a])
      simp only [List.length_cons]
      omega
    · have h := ih (key a) [a]
      simp only [List.length_cons]
      omega

/-- The first run. -/
theorem exists_runsFrom_eq (k : κ) (run l : List α) :
    ∃ rest, runsFrom key k run l = (run ++ sameKey key k l) :: rest := by
  induction l generalizing run with
  | nil => exact ⟨[], by simp [runsFrom, sameKey]⟩
  | cons a l ih =>
    by_cases ha : key a = k
    · obtain ⟨rest, hrest⟩ := ih (run ++ [a])
      refine ⟨rest, ?_⟩
      rw [runsFrom, if_pos ha, hrest, sameKey, sameKey, List.takeWhile_cons_of_pos (by simpa)]
      simp
    · refine ⟨runsFrom key (key a) [a] l, ?_⟩
      rw [runsFrom, if_neg ha, sameKey, List.takeWhile_cons_of_neg (by simpa)]
      simp

theorem sameKey_eq_self_iff {k : κ} {l : List α} : sameKey key k l = l ↔ ∀ a ∈ l, key a = k := by
  rw [sameKey, List.takeWhile_eq_self_iff]
  simp

end KeyRuns
