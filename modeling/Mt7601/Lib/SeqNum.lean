/-
# Sequence numbers modulo `N` and half-open windows

A counter that wraps at `N` has no order of its own: of two numbers either can be called the
earlier one. What does have an order is the *offset* from a fixed base, the number of increments
that lead from the base to the number. This file develops that arithmetic:

* `offset N b s` and how it changes when the base moves forward;
* `Precedes H s t`, the comparison of serial-number arithmetic over `N = 2 * H` numbers ("the
  difference has its top bit set"), and the range in which it agrees with the order of offsets;
* `InWindow N b w l`: a list of numbers that lies in `(b, b + w]`, in increasing order.

The comparison is not transitive on all numbers, so "sorted by it" says little about a list; the
window is what makes the two notions agree (`InWindow.pairwise_precedes`).
-/
import Mathlib.Data.List.Nodup
import Mathlib.Data.List.Perm.Subperm

namespace SeqNum

/-! ## 1. Offsets -/

/-- The number of increments from `b` to `s`, modulo `N`. -/
def offset (N b s : Nat) : Nat :=
  (s % N + N - b % N) % N

variable {N b s t k w : Nat}

theorem offset_lt (hN : 0 < N) : offset N b s < N := Nat.mod_lt _ hN

/-- The offset without a subtraction that could wrap: the two cases of a circle cut at `0`. -/
theorem offset_eq (hN : 0 < N) :
    offset N b s =
      if b % N ≤ s % N then s % N - b % N else s % N + N - b % N := by
  have hs := Nat.mod_lt s hN
  have hb := Nat.mod_lt b hN
  unfold offset
  split
  · rw [show s % N + N - b % N = (s % N - b % N) + N by omega, Nat.add_mod_right,
      Nat.mod_eq_of_lt (by omega)]
  · exact Nat.mod_eq_of_lt (by omega)

@[simp] theorem offset_self (hN : 0 < N) : offset N b b = 0 := by
  rw [offset_eq hN]
  simp

theorem offset_mod (hN : 0 < N) : offset N b (s % N) = offset N b s := by
  simp [offset_eq hN]

theorem offset_base_mod (hN : 0 < N) : offset N (b % N) s = offset N b s := by
  simp [offset_eq hN]

theorem add_mod_cases (hN : 0 < N) (hk : k < N) :
    (b + k) % N = if b % N + k < N then b % N + k else b % N + k - N := by
  have hb := Nat.mod_lt b hN
  rw [Nat.add_mod, Nat.mod_eq_of_lt hk]
  split
  · exact Nat.mod_eq_of_lt ‹_›
  · rw [Nat.mod_eq_sub_mod (by omega), Nat.mod_eq_of_lt (by omega)]

/-- Counting `k` steps from the base leads to offset `k`. -/
theorem offset_add (hk : k < N) : offset N b (b + k) = k := by
  have hN : 0 < N := by omega
  have hb := Nat.mod_lt b hN
  rw [offset_eq hN, add_mod_cases hN hk]
  split <;> split <;> omega

theorem add_offset (hN : 0 < N) : (b + offset N b s) % N = s % N := by
  have hs := Nat.mod_lt s hN
  have hb := Nat.mod_lt b hN
  rw [add_mod_cases hN (offset_lt hN), offset_eq hN]
  split <;> split <;> omega

/-- What leads from the base to the number is the offset. -/
theorem offset_eq_of_add {r : Nat} (hr : r < N) (h : (b + r) % N = s % N) : offset N b s = r := by
  have hN : 0 < N := Nat.zero_lt_of_lt hr
  rw [← offset_mod hN, ← h, offset_mod hN, offset_add hr]

/-- Moving the base forward, not past the number, shortens the way to it. -/
theorem offset_advance (hN : 0 < N) (hk : k ≤ offset N b s) :
    offset N (b + k) s = offset N b s - k := by
  refine offset_eq_of_add (Nat.lt_of_le_of_lt (Nat.sub_le _ _) (offset_lt hN)) ?_
  rw [Nat.add_assoc, Nat.add_sub_cancel' hk, add_offset hN]

/-- Moving the base past the number leads once around the circle. -/
theorem offset_advance_past (hkN : k < N) (hk : offset N b s < k) :
    offset N (b + k) s = offset N b s + N - k := by
  have hN : 0 < N := Nat.zero_lt_of_lt hkN
  refine offset_eq_of_add (by omega) ?_
  have hround : b + k + (offset N b s + N - k) = b + offset N b s + N := by omega
  rw [hround, Nat.add_mod_right, add_offset hN]

/-- The successor of a number is one step farther, unless it is the base. -/
theorem offset_succ (hN : 1 < N) :
    offset N b (s + 1) = if offset N b s + 1 < N then offset N b s + 1 else 0 := by
  have hN0 : 0 < N := Nat.zero_lt_of_lt hN
  have hnext : (b + offset N b s + 1) % N = (s + 1) % N := by
    rw [Nat.add_mod, add_offset hN0, ← Nat.add_mod]
  split
  · exact offset_eq_of_add ‹_› hnext
  · have hlast : offset N b s + 1 = N := by
      have hlt := offset_lt (b := b) (s := s) hN0
      omega
    refine offset_eq_of_add hN0 ?_
    rw [← hnext, Nat.add_assoc, hlast, Nat.add_mod_right, Nat.add_zero]

/-- The number at a given offset is unique. -/
theorem eq_of_offset_eq (hs : s < N) (ht : t < N) (h : offset N b s = offset N b t) :
    s = t := by
  have hN : 0 < N := by omega
  have hb := Nat.mod_lt b hN
  rw [offset_eq hN, offset_eq hN, Nat.mod_eq_of_lt hs, Nat.mod_eq_of_lt ht] at h
  split at h <;> split at h <;> omega

/-- **Offsets from a base are differences of offsets.** The way from `s` to `t`, seen from a base
that lies before both of them in this order. -/
theorem offset_between (hN : 0 < N) (h : offset N b s ≤ offset N b t) :
    offset N s t = offset N b t - offset N b s := by
  rw [← offset_base_mod hN (b := s), ← add_offset hN (b := b) (s := s),
    offset_base_mod hN, offset_advance hN h]

theorem offset_between_back (hN : 0 < N) (h : offset N b s < offset N b t) :
    offset N t s = offset N b s + N - offset N b t := by
  rw [← offset_base_mod hN (b := t), ← add_offset hN (b := b) (s := t),
    offset_base_mod hN, offset_advance_past (offset_lt hN) h]

/-! ## 2. Serial-number comparison -/

/-- **Serial-number arithmetic**: over `2 * H` numbers, `s` precedes `t` when the way from `t` on
to `s` is at least half the circle. -/
def Precedes (H s t : Nat) : Prop :=
  H ≤ offset (2 * H) t s

variable {H : Nat}

theorem precedes_of_offset_lt (h : offset (2 * H) b s < offset (2 * H) b t)
    (hd : offset (2 * H) b t ≤ offset (2 * H) b s + H) : Precedes H s t := by
  unfold Precedes
  rcases Nat.eq_zero_or_pos H with rfl | hH
  · exact Nat.zero_le _
  · have hN : 0 < 2 * H := by omega
    rw [offset_between_back hN h]
    omega

theorem not_precedes_of_offset_le (hH : 0 < H)
    (h : offset (2 * H) b t ≤ offset (2 * H) b s)
    (hd : offset (2 * H) b s < offset (2 * H) b t + H) : ¬ Precedes H s t := by
  have hN : 0 < 2 * H := by omega
  unfold Precedes
  rw [offset_between hN h]
  omega

/-! ## 3. Windows -/

/-- **A list of numbers inside the window `(b, b + w]`, in increasing order.** -/
structure InWindow (N b w : Nat) (l : List Nat) : Prop where
  sorted : l.Pairwise fun s t => offset N b s < offset N b t
  pos : ∀ s ∈ l, 0 < offset N b s
  le : ∀ s ∈ l, offset N b s ≤ w

variable {l l' : List Nat}

theorem InWindow.nil : InWindow N b w [] :=
  ⟨List.Pairwise.nil, by simp, by simp⟩

theorem InWindow.sublist (h : InWindow N b w l) (hl : l'.Sublist l) : InWindow N b w l' :=
  ⟨h.sorted.sublist hl, fun s hs => h.pos s (hl.subset hs), fun s hs => h.le s (hl.subset hs)⟩

theorem InWindow.tail (h : InWindow N b w (s :: l)) : InWindow N b w l :=
  h.sublist (List.sublist_cons_self s l)

theorem InWindow.nodup (h : InWindow N b w l) : l.Nodup :=
  h.sorted.imp fun hlt heq => by subst heq; omega

theorem InWindow.head_lt (h : InWindow N b w (s :: l)) (ht : t ∈ l) :
    offset N b s < offset N b t :=
  (List.pairwise_cons.mp h.sorted).1 t ht

/-- Consing a number below every offset of the list. -/
theorem InWindow.cons (h : InWindow N b w l) (hpos : 0 < offset N b s)
    (hle : offset N b s ≤ w) (hlt : ∀ t ∈ l, offset N b s < offset N b t) :
    InWindow N b w (s :: l) where
  sorted := List.pairwise_cons.mpr ⟨hlt, h.sorted⟩
  pos := by
    intro t ht
    rcases List.mem_cons.mp ht with rfl | ht
    · exact hpos
    · exact h.pos t ht
  le := by
    intro t ht
    rcases List.mem_cons.mp ht with rfl | ht
    · exact hle
    · exact h.le t ht

/-- **Moving the base forward.** The window may follow its base as long as every number of the
list stays ahead of it. -/
theorem InWindow.advance (hN : 0 < N) (h : InWindow N b w l)
    (hk : ∀ s ∈ l, k < offset N b s) : InWindow N (b + k) w l where
  sorted := by
    refine h.sorted.imp_of_mem fun {s t} hs ht hlt => ?_
    have := hk s hs
    have := hk t ht
    rw [offset_advance hN (by omega), offset_advance hN (by omega)]
    omega
  pos := by
    intro s hs
    have := hk s hs
    rw [offset_advance hN (by omega)]
    omega
  le := by
    intro s hs
    have := hk s hs
    have := h.le s hs
    rw [offset_advance hN (by omega)]
    omega

theorem InWindow.base_mod (hN : 0 < N) : InWindow N (b % N) w l ↔ InWindow N b w l := by
  constructor
  · rintro ⟨h₁, h₂, h₃⟩
    simp only [offset_base_mod hN] at h₁ h₂ h₃
    exact ⟨h₁, h₂, h₃⟩
  · rintro ⟨h₁, h₂, h₃⟩
    refine ⟨?_, ?_, ?_⟩ <;> simpa only [offset_base_mod hN]

/-- A window of width `w` holds at most `w` numbers. -/
theorem InWindow.length_le (h : InWindow N b w l) : l.length ≤ w := by
  have hnd : (l.map (offset N b)).Nodup :=
    List.pairwise_map.mpr (h.sorted.imp fun hlt => Nat.ne_of_lt hlt)
  have hsub : l.map (offset N b) ⊆ List.range' 1 w := by
    intro o ho
    obtain ⟨s, hs, rfl⟩ := List.mem_map.mp ho
    have := h.pos s hs
    have := h.le s hs
    rw [List.mem_range'_1]
    omega
  have := (hnd.subperm hsub).length_le
  simpa using this

/-- **Inside a window of at most half the circle the list is sorted by serial-number comparison**,
although that comparison is not transitive in general. -/
theorem InWindow.pairwise_precedes (h : InWindow (2 * H) b w l) (hw : w ≤ H) :
    l.Pairwise (Precedes H) :=
  h.sorted.imp_of_mem fun {s t} _ ht hlt =>
    precedes_of_offset_lt hlt (by have := h.le t ht; omega)

end SeqNum
