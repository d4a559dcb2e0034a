/-
# Circular buffers

A buffer of `size` slots with a head, a tail and a count of what is in it. Neither `push` nor `pop`
looks whether there is room or anything to take: a buffer that is not full takes an entry at its end
(`contents_push`), one that is not empty gives up its front (`contents_pop`), and what a full buffer
does is what the caller has to keep it from.

Behind the front there may be one slot that has been taken out and is still looked at; `push` keeps
off it as long as there is a second free slot (`tail_ne_of_held`).
-/
import Mathlib.Data.List.Range
import Mathlib.Logic.Function.Basic

/-- A circular buffer; its slots are numbered from 0. -/
structure CircBuf (α : Type) where
  num : Nat
  head : Nat
  tail : Nat
  entry : Nat → α

namespace CircBuf

variable {α : Type} {size : Nat}

/-! ## 1. Slots -/

/-- The slot behind slot `i`. -/
def next (size i : Nat) : Nat := if i + 1 = size then 0 else i + 1

/-- The slot `i` places behind slot `head`. -/
def slot (size head i : Nat) : Nat := if head + i < size then head + i else head + i - size

@[simp] theorem slot_zero {head : Nat} (hhead : head < size) : slot size head 0 = head := by
  simp [slot, hhead]

theorem slot_ne {head i j : Nat} (hij : i < j) (hj : j < size) :
    slot size head i ≠ slot size head j := by
  unfold slot
  split <;> split <;> omega

theorem next_slot {head i : Nat} (hhead : head < size) (hi : i < size) :
    next size (slot size head i) = slot size head (i + 1) := by
  unfold next slot
  split <;> split <;> split <;> omega

theorem slot_next {head i : Nat} (hi : i < size) :
    slot size (next size head) i = slot size head (i + 1) := by
  unfold next slot
  split <;> split <;> split <;> omega

/-! ## 2. The two ends -/

/-- An entry into the slot at the tail. -/
def push (size : Nat) (r : CircBuf α) (a : α) : CircBuf α :=
  { r with
    num := r.num + 1
    tail := next size r.tail
    entry := Function.update r.entry r.tail a }

/-- The slot at the head is taken out; it keeps its entry. -/
def pop (size : Nat) (r : CircBuf α) : CircBuf α :=
  { r with
    num := r.num - 1
    head := next size r.head }

/-- What is in the buffer, front first. -/
def contents (size : Nat) (r : CircBuf α) : List α :=
  (List.range r.num).map fun i => r.entry (slot size r.head i)

/-- The head is a slot, the tail is where the contents end, and they fit in. -/
structure WellFormed (size : Nat) (r : CircBuf α) : Prop where
  head_lt : r.head < size
  num_le : r.num ≤ size
  tail_eq : r.tail = slot size r.head r.num

variable {r : CircBuf α}

@[simp] theorem length_contents : (contents size r).length = r.num := by
  simp [contents]

/-- A slot of the contents is none of the free ones. -/
theorem WellFormed.tail_ne (h : WellFormed size r) (hroom : r.num < size) {i : Nat}
    (hi : i < r.num) : r.tail ≠ slot size r.head i := by
  rw [h.tail_eq]
  exact (slot_ne hi hroom).symm

/-- What is in the buffer depends on its own slots alone. -/
theorem contents_congr {r' : CircBuf α} (hnum : r'.num = r.num) (hhead : r'.head = r.head)
    (h : ∀ i < r.num, r'.entry (slot size r.head i) = r.entry (slot size r.head i)) :
    contents size r' = contents size r := by
  rw [contents, contents, hnum, hhead]
  exact List.map_congr_left fun i hi => h i (List.mem_range.1 hi)

/-- **An entry goes to the end**, if there is room. -/
theorem WellFormed.contents_push (h : WellFormed size r) (hroom : r.num < size) (a : α) :
    contents size (push size r a) = contents size r ++ [a] := by
  have hold : ∀ i < r.num, Function.update r.entry r.tail a (slot size r.head i) =
      r.entry (slot size r.head i) := by
    intro i hi
    exact Function.update_of_ne (h.tail_ne hroom hi).symm _ _
  have hnew : Function.update r.entry r.tail a (slot size r.head r.num) = a := by
    rw [← h.tail_eq, Function.update_self]
  rw [contents, push, List.range_succ, List.map_append, List.map_singleton]
  dsimp only
  rw [hnew, contents]
  congr 1
  exact List.map_congr_left fun i hi => hold i (List.mem_range.1 hi)

theorem WellFormed.push (h : WellFormed size r) (hroom : r.num < size) (a : α) :
    WellFormed size (CircBuf.push size r a) where
  head_lt := h.head_lt
  num_le := hroom
  tail_eq := by
    change next size r.tail = slot size r.head (r.num + 1)
    rw [h.tail_eq, next_slot h.head_lt hroom]

/-- **The front is taken out**, if there is one. -/
theorem WellFormed.contents_pop (h : WellFormed size r) (hpos : 0 < r.num) :
    contents size r = r.entry r.head :: contents size (pop size r) := by
  obtain ⟨n, hn⟩ := Nat.exists_eq_succ_of_ne_zero (Nat.pos_iff_ne_zero.1 hpos)
  have hle := h.num_le
  rw [contents, contents, hn, List.range_succ_eq_map, List.map_cons, List.map_map,
    slot_zero h.head_lt]
  congr 1
  rw [pop, hn, Nat.succ_sub_one]
  refine List.map_congr_left fun i hi => ?_
  have hi' := List.mem_range.1 hi
  rw [Function.comp_apply, slot_next (by omega)]

theorem WellFormed.pop (h : WellFormed size r) (hpos : 0 < r.num) :
    WellFormed size (CircBuf.pop size r) where
  head_lt := by
    have hhead := h.head_lt
    change next size r.head < size
    unfold next
    split <;> omega
  num_le := Nat.le_trans (Nat.sub_le _ _) h.num_le
  tail_eq := by
    have hle := h.num_le
    change r.tail = slot size (next size r.head) (r.num - 1)
    rw [h.tail_eq, slot_next (by omega), Nat.sub_add_cancel hpos]

/-! ## 3. The slot in front of the head -/

/-- A slot that has been taken out last. -/
structure Held (size : Nat) (r : CircBuf α) (k : Nat) : Prop where
  lt : k < size
  next_eq : next size k = r.head

theorem WellFormed.held_pop (h : WellFormed size r) : Held size (CircBuf.pop size r) r.head :=
  ⟨h.head_lt, rfl⟩

/-- It is none of the slots of the contents, unless they fill the buffer. -/
theorem Held.slot_ne {k : Nat} (hk : Held size r k) (hroom : r.num < size) {i : Nat}
    (hi : i < r.num) : slot size r.head i ≠ k := by
  have hlt := hk.lt
  have hnext := hk.next_eq
  unfold slot
  unfold next at hnext
  split at hnext <;> split <;> omega

/-- **An entry does not go into it** exactly where another slot is free. -/
theorem WellFormed.tail_ne_iff (h : WellFormed size r) (hroom : r.num < size) {k : Nat}
    (hk : Held size r k) : r.tail ≠ k ↔ r.num + 1 < size := by
  have hhead := h.head_lt
  have hlt := hk.lt
  have hnext := hk.next_eq
  rw [h.tail_eq]
  unfold slot
  unfold next at hnext
  split at hnext <;> split <;> omega

end CircBuf
