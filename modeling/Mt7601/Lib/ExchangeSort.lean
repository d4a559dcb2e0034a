/-
# The exchange sort

Two nested loops over the places of an array: each place is compared with every later one, and the
two are exchanged when the later one belongs in front. `exchangeSort` leaves the largest key first;
what it leaves is the old array with its places permuted (`exists_perm`), in order (`sorted`), and
nothing about it depends on more than the keys (`congr`).
-/
import Mathlib.Logic.Equiv.Basic
import Mathlib.Order.Lattice
import Mathlib.Data.List.Nodup
import Mathlib.Tactic.Common

namespace ExchangeSort

variable {α β : Type*} [LinearOrder β] (key : α → β)

/-! ## 1. The loops -/

/-- Two places exchanged. -/
def swapAt (f : Nat → α) (i j : Nat) : Nat → α :=
  Function.update (Function.update f j (f i)) i (f j)

/-- One comparison. -/
def exchange (f : Nat → α) (ij : Nat × Nat) : Nat → α :=
  if key (f ij.1) < key (f ij.2) then swapAt f ij.1 ij.2 else f

/-- The comparisons of place `i`. -/
def row (n i : Nat) : List (Nat × Nat) := (List.range' (i + 1) (n - (i + 1))).map fun j => (i, j)

/-- All comparisons. -/
def pairs (n : Nat) : List (Nat × Nat) := (List.range (n - 1)).flatMap (row n)

/-- The first `n` places sorted. -/
def exchangeSort (n : Nat) (f : Nat → α) : Nat → α := (pairs n).foldl (exchange key) f

/-! ## 2. A permutation -/

theorem swapAt_eq (f : Nat → α) (i j : Nat) : swapAt f i j = f ∘ Equiv.swap i j := by
  funext k
  unfold swapAt
  rw [Function.comp_apply, Equiv.swap_apply_def]
  by_cases hi : k = i
  · rw [hi, Function.update_self, if_pos rfl]
  · rw [Function.update_of_ne hi, if_neg hi]
    by_cases hj : k = j
    · rw [hj, Function.update_self, if_pos rfl]
    · rw [Function.update_of_ne hj, if_neg hj]

theorem mem_pairs {n : Nat} {ij : Nat × Nat} (h : ij ∈ pairs n) : ij.1 < ij.2 ∧ ij.2 < n := by
  obtain ⟨i, -, hrow⟩ := List.mem_flatMap.mp h
  obtain ⟨j, hj, rfl⟩ := List.mem_map.mp hrow
  rw [List.mem_range'_1] at hj
  dsimp only
  omega

/-- Comparing places below `n` permutes these places. -/
theorem exists_perm_foldl {n : Nat} (l : List (Nat × Nat)) (hl : ∀ ij ∈ l, ij.1 < n ∧ ij.2 < n)
    (f : Nat → α) :
    ∃ σ : Equiv.Perm Nat, (∀ k, n ≤ k → σ k = k) ∧ l.foldl (exchange key) f = f ∘ σ := by
  induction l generalizing f with
  | nil => exact ⟨Equiv.refl Nat, fun _ _ => rfl, rfl⟩
  | cons ij l ih =>
    obtain ⟨hi, hj⟩ := hl ij List.mem_cons_self
    obtain ⟨σ, hfix, heq⟩ := ih (fun ij h => hl ij (List.mem_cons_of_mem _ h)) (exchange key f ij)
    rw [List.foldl_cons, heq]
    unfold exchange
    by_cases hlt : key (f ij.1) < key (f ij.2)
    · rw [if_pos hlt, swapAt_eq]
      refine ⟨σ.trans (Equiv.swap ij.1 ij.2), fun k hk => ?_, rfl⟩
      rw [Equiv.trans_apply, hfix k hk]
      exact Equiv.swap_apply_of_ne_of_ne (by omega) (by omega)
    · rw [if_neg hlt]
      exact ⟨σ, hfix, rfl⟩

/-- **The sort permutes its places.** -/
theorem exists_perm (n : Nat) (f : Nat → α) :
    ∃ σ : Equiv.Perm Nat, (∀ k, n ≤ k → σ k = k) ∧ exchangeSort key n f = f ∘ σ := by
  refine exists_perm_foldl key (pairs n) (fun ij h => ?_) f
  have := mem_pairs h
  omega

/-- A permutation of the places below `n` permutes the list of what stands there. -/
theorem perm_map_range {n : Nat} (f : Nat → α) :
    ((List.range n).map (exchangeSort key n f)).Perm ((List.range n).map f) := by
  obtain ⟨σ, hfix, heq⟩ := exists_perm key n f
  have hlt : ∀ k, σ k < n ↔ k < n := by
    intro k
    constructor
    · intro h
      by_contra hge
      rw [hfix k (Nat.le_of_not_lt hge)] at h
      exact hge h
    · intro h
      by_contra hge
      have hfixed := hfix (σ k) (Nat.le_of_not_lt hge)
      rw [σ.injective hfixed] at hge
      exact hge h
  have hperm : ((List.range n).map σ).Perm (List.range n) := by
    refine (List.perm_ext_iff_of_nodup (List.Nodup.map σ.injective List.nodup_range) List.nodup_range).mpr ?_
    intro k
    rw [List.mem_map, List.mem_range]
    constructor
    · rintro ⟨i, hi, rfl⟩
      exact (hlt i).mpr (List.mem_range.mp hi)
    · intro hk
      refine ⟨σ.symm k, List.mem_range.mpr ((hlt _).mp ?_), σ.apply_symm_apply k⟩
      rw [σ.apply_symm_apply]
      exact hk
  rw [heq, ← List.map_map]
  exact hperm.map f

/-! ## 3. In order -/

/-- Before place `m` is compared with place `i`: the places in front of `i` are final, and place `i`
has the largest key of those it has been compared with. -/
structure Front (n i m : Nat) (f : Nat → α) : Prop where
  final : ∀ a b, a < i → a < b → b < n → key (f b) ≤ key (f a)
  largest : ∀ k, i < k → k < m → key (f k) ≤ key (f i)

variable {key}

/-- A comparison leaves the places other than its two as they are. -/
theorem exchange_of_ne {f : Nat → α} {i j k : Nat} (hi : k ≠ i) (hj : k ≠ j) :
    exchange key f (i, j) k = f k := by
  unfold exchange
  split
  · rw [swapAt, Function.update_of_ne hi, Function.update_of_ne hj]
  · rfl

/-- The larger key comes to the first place, and the other to the second. -/
theorem key_exchange {f : Nat → α} {i j : Nat} (hne : i ≠ j) :
    key (exchange key f (i, j) i) = max (key (f i)) (key (f j)) ∧
      key (exchange key f (i, j) j) = min (key (f i)) (key (f j)) := by
  unfold exchange
  by_cases hlt : key (f i) < key (f j)
  · rw [if_pos hlt, max_eq_right hlt.le, min_eq_left hlt.le]
    constructor
    · rw [swapAt, Function.update_self]
    · rw [swapAt, Function.update_of_ne hne.symm, Function.update_self]
  · rw [if_neg hlt, max_eq_left (not_lt.mp hlt), min_eq_right (not_lt.mp hlt)]
    exact ⟨rfl, rfl⟩

theorem Front.exchange {n i m : Nat} {f : Nat → α} (h : Front key n i m f) (him : i < m)
    (hmn : m < n) : Front key n i (m + 1) (exchange key f (i, m)) := by
  obtain ⟨hfirst, hsecond⟩ := @key_exchange _ _ _ key f _ _ (Nat.ne_of_lt him)
  refine ⟨fun a b ha hab hb => ?_, fun k hik hkm => ?_⟩
  · rw [exchange_of_ne (k := a) (by omega) (by omega)]
    by_cases hbi : b = i
    · rw [hbi, hfirst]
      exact max_le (h.final a i ha ha (by omega)) (h.final a m ha (by omega) hmn)
    by_cases hbm : b = m
    · rw [hbm, hsecond]
      exact (min_le_right _ _).trans (h.final a m ha (by omega) hmn)
    · rw [exchange_of_ne hbi hbm]
      exact h.final a b ha hab hb
  · rw [hfirst]
    by_cases hk : k = m
    · rw [hk, hsecond]
      exact (min_le_left _ _).trans (le_max_left _ _)
    · rw [exchange_of_ne (by omega) hk]
      exact (h.largest k hik (by omega)).trans (le_max_left _ _)

theorem Front.foldl {n i : Nat} (count m : Nat) {f : Nat → α} (h : Front key n i m f)
    (him : i < m) (hmn : m + count ≤ n) :
    Front key n i (m + count)
      (((List.range' m count).map fun j => (i, j)).foldl (ExchangeSort.exchange key) f) := by
  induction count generalizing m f with
  | zero => exact h
  | succ count ih =>
    rw [List.range'_succ, List.map_cons, List.foldl_cons, Nat.add_comm count 1, ← Nat.add_assoc]
    exact ih (m + 1) (h.exchange him (by omega)) (by omega) (by omega)

/-- The comparisons of place `i` make it final. -/
theorem Front.row {n i : Nat} {f : Nat → α} (h : Front key n i (i + 1) f) (hin : i < n) :
    Front key n (i + 1) (i + 2) ((row n i).foldl (ExchangeSort.exchange key) f) := by
  have hrow := h.foldl (n - (i + 1)) (i + 1) (Nat.lt_succ_self i) (by omega)
  rw [show i + 1 + (n - (i + 1)) = n by omega] at hrow
  refine ⟨fun a b ha hab hb => ?_, fun k hik hkm => absurd hkm (by omega)⟩
  by_cases hai : a = i
  · rw [hai]
    exact hrow.largest b (by omega) hb
  · exact hrow.final a b (by omega) hab hb

theorem Front.rows {n : Nat} (count i : Nat) {f : Nat → α} (h : Front key n i (i + 1) f)
    (hin : i + count < n) :
    Front key n (i + count) (i + count + 1)
      (((List.range' i count).flatMap (ExchangeSort.row n)).foldl (ExchangeSort.exchange key) f) := by
  induction count generalizing i f with
  | zero => exact h
  | succ count ih =>
    rw [List.range'_succ, List.flatMap_cons, List.foldl_append, Nat.add_comm count 1, ← Nat.add_assoc]
    exact ih (i + 1) (h.row (by omega)) (by omega)

/-- **The sort leaves the keys in order**, the largest first. -/
theorem sorted {n : Nat} (f : Nat → α) {i j : Nat} (hij : i < j) (hj : j < n) :
    key (exchangeSort key n f j) ≤ key (exchangeSort key n f i) := by
  have hstart : Front key n 0 1 f :=
    ⟨fun a b ha => absurd ha (Nat.not_lt_zero a), fun k hk hk1 => absurd hk1 (by omega)⟩
  have hend := hstart.rows (n - 1) 0 (by omega)
  rw [Nat.zero_add, ← List.range_eq_range'] at hend
  by_cases hi : i < n - 1
  · exact hend.final i j hi hij hj
  · omega

theorem pairwise_map_range {n : Nat} (f : Nat → α) :
    ((List.range n).map (exchangeSort key n f)).Pairwise fun a b => key b ≤ key a := by
  rw [List.pairwise_map]
  refine List.pairwise_lt_range.imp_of_mem fun {i j} _ hj hij => ?_
  exact sorted f hij (List.mem_range.mp hj)

/-! ## 4. Only the keys matter -/

/-- Arrays whose places are related, with equal keys, stay so. -/
theorem congr {R : α → α → Prop} (hkey : ∀ a b, R a b → key a = key b) {f g : Nat → α} {n : Nat}
    (h : ∀ k, k < n → R (f k) (g k)) {k : Nat} (hk : k < n) :
    R (exchangeSort key n f k) (exchangeSort key n g k) := by
  have hall : ∀ (l : List (Nat × Nat)), (∀ ij ∈ l, ij.1 < n ∧ ij.2 < n) → ∀ f g : Nat → α,
      (∀ k, k < n → R (f k) (g k)) → ∀ k, k < n →
        R (l.foldl (exchange key) f k) (l.foldl (exchange key) g k) := by
    intro l
    induction l with
    | nil => exact fun _ f g h => h
    | cons ij l ih =>
      intro hl f g h
      obtain ⟨hi, hj⟩ := hl ij List.mem_cons_self
      refine ih (fun ij h => hl ij (List.mem_cons_of_mem _ h)) _ _ fun k hk => ?_
      have hi' := hkey _ _ (h ij.1 hi)
      have hj' := hkey _ _ (h ij.2 hj)
      unfold exchange
      rw [hi', hj']
      by_cases hlt : key (g ij.1) < key (g ij.2)
      · rw [if_pos hlt, if_pos hlt, swapAt_eq, swapAt_eq]
        refine h _ ?_
        rw [Equiv.swap_apply_def]
        split_ifs <;> omega
      · rw [if_neg hlt, if_neg hlt]
        exact h k hk
  refine hall (pairs n) (fun ij hij => ?_) f g h k hk
  have := mem_pairs hij
  omega

end ExchangeSort
