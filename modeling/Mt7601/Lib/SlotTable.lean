/-
# Slots that are given out by a scan and found again by an index

A table of slots `1 .. n - 1` serves keys. A slot that is in use belongs to one key (`owner`), and
an index array leads from the key back to the slot; the index `0` says that the key has none. Four
records of one fact are kept side by side: the owners, the index array, a count of the slots in some
status, and a flag for each key whose slot has some mark. This module says when they agree
(`Exact`, `countOf`, `Flagged`) and how they stay in agreement when one slot and one key change.
-/
import Mathlib.Data.Set.Function
import Mathlib.Order.Interval.Finset.Nat

namespace SlotTable

variable {κ : Type} {n : Nat}

/-! ## 1. Owners and indices -/

/-- **The index array and the slots point at each other.** -/
structure Exact (n : Nat) (index : κ → Nat) (owner : Nat → Option κ) : Prop where
  pointsBack : ∀ k, index k ≠ 0 → index k ∈ Finset.Ico 1 n ∧ owner (index k) = some k
  found : ∀ i ∈ Finset.Ico 1 n, ∀ k, owner i = some k → index k = i

section

variable {index index' : κ → Nat} {owner owner' : Nat → Option κ} {i : Nat} {k : κ}

theorem ne_zero_of_mem (hi : i ∈ Finset.Ico 1 n) : i ≠ 0 := by
  intro h0
  have h1 := (Finset.mem_Ico.mp hi).1
  omega

/-- The slot of one key is not the slot of another. -/
theorem Exact.ne_of_ne (h : Exact n index owner) {k' : κ} (hne : k' ≠ k) (hk' : index k' ≠ 0)
    (hown : owner i = some k) : index k' ≠ i := by
  rintro rfl
  obtain ⟨-, hown'⟩ := h.pointsBack k' hk'
  rw [hown'] at hown
  exact hne (Option.some.inj hown)

/-- A slot that is not in use is nobody's. -/
theorem Exact.ne_of_free (h : Exact n index owner) (hk : index k ≠ 0) (hfree : owner i = none) :
    index k ≠ i := by
  rintro rfl
  obtain ⟨-, hown⟩ := h.pointsBack k hk
  rw [hfree] at hown
  exact absurd hown.symm (Option.some_ne_none k)

/-- The table before its first use. -/
theorem Exact.empty (hindex : ∀ k, index k = 0) (howner : ∀ i, owner i = none) :
    Exact n index owner where
  pointsBack := fun k hk => absurd (hindex k) hk
  found := by
    intro i _ k hown
    rw [howner i] at hown
    exact absurd hown.symm (Option.some_ne_none k)

theorem Exact.congr (h : Exact n index owner) (hindex : ∀ k, index' k = index k)
    (howner : ∀ i ∈ Finset.Ico 1 n, owner' i = owner i) : Exact n index' owner' where
  pointsBack := by
    intro k hk
    rw [hindex] at hk ⊢
    obtain ⟨hmem, hown⟩ := h.pointsBack k hk
    exact ⟨hmem, (howner _ hmem).trans hown⟩
  found := by
    intro i hmem k hown
    rw [hindex]
    exact h.found i hmem k ((howner i hmem).symm.trans hown)

variable [DecidableEq κ]

/-- **Giving a free slot** to a key that has none. -/
theorem Exact.claim (h : Exact n index owner) (hi : i ∈ Finset.Ico 1 n) (hfree : owner i = none)
    (hk : index k = 0) (hindex : ∀ k', index' k' = if k' = k then i else index k')
    (howner : ∀ j ∈ Finset.Ico 1 n, owner' j = if j = i then some k else owner j) :
    Exact n index' owner' where
  pointsBack := by
    intro k' hk'
    rw [hindex] at hk' ⊢
    by_cases hkk : k' = k
    · rw [if_pos hkk, howner i hi, if_pos rfl, hkk]
      exact ⟨hi, rfl⟩
    · rw [if_neg hkk] at hk' ⊢
      obtain ⟨hmem, hown⟩ := h.pointsBack k' hk'
      rw [howner _ hmem, if_neg (h.ne_of_free hk' hfree)]
      exact ⟨hmem, hown⟩
  found := by
    intro j hj k' hown
    rw [howner j hj] at hown
    rw [hindex]
    by_cases hji : j = i
    · rw [if_pos hji] at hown
      rw [if_pos (Option.some.inj hown).symm, hji]
    · rw [if_neg hji] at hown
      have hfound := h.found j hj k' hown
      have hkk : k' ≠ k := by
        rintro rfl
        exact ne_zero_of_mem hj (hfound.symm.trans hk)
      rw [if_neg hkk]
      exact hfound

/-- **Taking a slot back** from its key. -/
theorem Exact.release (h : Exact n index owner) (hi : i ∈ Finset.Ico 1 n) (hown : owner i = some k)
    (hindex : ∀ k', index' k' = if k' = k then 0 else index k')
    (howner : ∀ j ∈ Finset.Ico 1 n, owner' j = if j = i then none else owner j) :
    Exact n index' owner' where
  pointsBack := by
    intro k' hk'
    rw [hindex] at hk' ⊢
    by_cases hkk : k' = k
    · rw [if_pos hkk] at hk'
      exact absurd rfl hk'
    · rw [if_neg hkk] at hk' ⊢
      obtain ⟨hmem, hown'⟩ := h.pointsBack k' hk'
      rw [howner _ hmem, if_neg (h.ne_of_ne hkk hk' hown)]
      exact ⟨hmem, hown'⟩
  found := by
    intro j hj k' hown'
    rw [howner j hj] at hown'
    rw [hindex]
    by_cases hji : j = i
    · rw [if_pos hji] at hown'
      exact absurd hown'.symm (Option.some_ne_none k')
    · rw [if_neg hji] at hown'
      have hfound := h.found j hj k' hown'
      have hkk : k' ≠ k := by
        rintro rfl
        exact hji (hfound.symm.trans (h.found i hi k' hown))
      rw [if_neg hkk]
      exact hfound

end

/-! ## 2. The count -/

/-- How many slots `used` holds of. -/
def countOf (n : Nat) (used : Nat → Prop) [DecidablePred used] : Nat :=
  ((Finset.Ico 1 n).filter used).card

section

variable {used used' : Nat → Prop} [DecidablePred used] [DecidablePred used'] {i : Nat}

theorem countOf_congr (h : ∀ j ∈ Finset.Ico 1 n, used' j ↔ used j) :
    countOf n used' = countOf n used := by
  rw [countOf, countOf, Finset.filter_congr h]

theorem countOf_eq_zero (h : ∀ j, ¬ used j) : countOf n used = 0 := by
  rw [countOf, Finset.filter_eq_empty_iff.mpr fun j _ => h j, Finset.card_empty]

/-- A slot comes into use. -/
theorem countOf_insert (hi : i ∈ Finset.Ico 1 n) (hfree : ¬ used i) (hnow : used' i)
    (hsame : ∀ j ≠ i, used' j ↔ used j) : countOf n used' = countOf n used + 1 := by
  have hset : (Finset.Ico 1 n).filter used' = insert i ((Finset.Ico 1 n).filter used) := by
    ext j
    rw [Finset.mem_insert, Finset.mem_filter, Finset.mem_filter]
    rcases eq_or_ne j i with rfl | hji
    · exact ⟨fun _ => .inl rfl, fun _ => ⟨hi, hnow⟩⟩
    · rw [hsame j hji]
      exact ⟨.inr, fun h => h.resolve_left hji⟩
  rw [countOf, hset, Finset.card_insert_of_notMem, countOf]
  exact fun hmem => hfree (Finset.mem_filter.mp hmem).2

/-- A slot goes out of use. -/
theorem countOf_erase (hi : i ∈ Finset.Ico 1 n) (hbusy : used i) (hnow : ¬ used' i)
    (hsame : ∀ j ≠ i, used' j ↔ used j) : countOf n used' = countOf n used - 1 := by
  have hback := countOf_insert hi hnow hbusy fun j hj => (hsame j hj).symm
  omega

/-- **As long as the count is not full, the scan finds a free slot.** -/
theorem scan_finds (isFree : Nat → Bool) (hused : ∀ i, isFree i = true ↔ ¬ used i)
    (hroom : countOf n used < n - 1) :
    ∃ i ∈ Finset.Ico 1 n, ¬ used i ∧ (List.range' 1 (n - 1)).find? isFree = some i := by
  rcases hfind : (List.range' 1 (n - 1)).find? isFree with _ | i
  · -- all of them in use contradicts the count
    have hall : (Finset.Ico 1 n).filter used = Finset.Ico 1 n := by
      refine Finset.filter_eq_self.mpr fun i hi => ?_
      have hmem : i ∈ List.range' 1 (n - 1) := by
        rw [List.mem_range'_1]
        have := Finset.mem_Ico.mp hi
        omega
      have hno := List.find?_eq_none.mp hfind i hmem
      rw [hused] at hno
      exact not_not.mp hno
    rw [countOf, hall, Nat.card_Ico] at hroom
    exact absurd hroom (Nat.lt_irrefl _)
  · have hmem := List.mem_of_find?_eq_some hfind
    rw [List.mem_range'_1] at hmem
    exact ⟨i, Finset.mem_Ico.mpr (by omega), (hused i).mp (List.find?_some hfind), rfl⟩

end

/-! ## 3. The flags -/

/-- **A key's flag is set exactly when its slot is marked.** -/
def Flagged (index : κ → Nat) (marked : Nat → Prop) (flag : κ → Bool) : Prop :=
  ∀ k, flag k = true ↔ index k ≠ 0 ∧ marked (index k)

theorem Flagged.empty {index : κ → Nat} {marked : Nat → Prop} {flag : κ → Bool}
    (hindex : ∀ k, index k = 0) (hflag : ∀ k, flag k = false) : Flagged index marked flag := by
  intro k
  rw [hflag k]
  exact iff_of_false Bool.false_ne_true fun h => h.1 (hindex k)

/-- One key and one slot change, and the slot is no other key's. -/
theorem Flagged.change {index index' : κ → Nat} {marked marked' : Nat → Prop}
    {flag flag' : κ → Bool} (h : Flagged index marked flag) (k : κ) (i : Nat)
    (hother : ∀ k' ≠ k, index k' ≠ 0 → index k' ≠ i)
    (hindex : ∀ k' ≠ k, index' k' = index k')
    (hmarked : ∀ j ≠ i, marked' j ↔ marked j)
    (hflag : ∀ k' ≠ k, flag' k' = flag k')
    (hk : flag' k = true ↔ index' k ≠ 0 ∧ marked' (index' k)) : Flagged index' marked' flag' := by
  intro k'
  by_cases hkk : k' = k
  · rw [hkk]
    exact hk
  · rw [hflag k' hkk, hindex k' hkk, h k']
    constructor
    · rintro ⟨h0, hm⟩
      exact ⟨h0, (hmarked _ (hother k' hkk h0)).mpr hm⟩
    · rintro ⟨h0, hm⟩
      exact ⟨h0, (hmarked _ (hother k' hkk h0)).mp hm⟩

theorem Flagged.congr {index index' : κ → Nat} {marked marked' : Nat → Prop}
    {flag flag' : κ → Bool} (h : Flagged index marked flag) (hindex : ∀ k, index' k = index k)
    (hmarked : ∀ k, index k ≠ 0 → (marked' (index k) ↔ marked (index k)))
    (hflag : ∀ k, flag' k = flag k) : Flagged index' marked' flag' := by
  intro k
  rw [hflag, hindex, h k]
  exact and_congr_right fun h0 => (hmarked k h0).symm

end SlotTable
