/-
# Checked reads of a stretch of memory

An octet, some octets, and a comparison with a text, at an offset of a stretch of memory: each is
stopped when it leaves the stretch, and gives what is there when it does not.
-/
import Mt7601.Lib.Guarded
import Mt7601.Lib.Octets

namespace Checked

/-- The octet at an offset. -/
def octet (mem : List UInt8) (i : Nat) : Checked UInt8 := do
  access mem.length i 1
  return mem.getD i 0

/-- The `n` octets from an offset on. -/
def octets (mem : List UInt8) (off n : Nat) : Checked (List UInt8) := do
  access mem.length off n
  return Mem.read mem off n

/-- A comparison with as many octets as the text has. -/
def equal (mem : List UInt8) (off : Nat) (l : List UInt8) : Checked Bool := do
  access mem.length off l.length
  return Mem.read mem off l.length = l

section

variable {mem : List UInt8}

theorem octet_ok {i : Nat} (h : i < mem.length) : octet mem i = .ok (mem.getD i 0) := by
  rw [octet, access_ok h]
  rfl

theorem octet_error {i : Nat} (h : mem.length ≤ i) : octet mem i = .error .outside := by
  rw [octet, access_error (Nat.lt_succ_of_le h)]
  rfl

theorem octets_ok {off n : Nat} (h : off + n ≤ mem.length) :
    octets mem off n = .ok (Mem.read mem off n) := by
  rw [octets, access_ok h]
  rfl

theorem equal_ok {off : Nat} {l : List UInt8} (h : off + l.length ≤ mem.length) :
    equal mem off l = .ok (decide (Mem.read mem off l.length = l)) := by
  rw [equal, access_ok h]
  rfl

theorem equal_error {off : Nat} {l : List UInt8} (h : mem.length < off + l.length) :
    equal mem off l = .error .outside := by
  rw [equal, access_error h]
  rfl

theorem octet_guarded (i : Nat) :
    Guarded (octet mem i) (i < mem.length) (· = mem.getD i 0) :=
  (Guarded.access _ _ _).map fun _ _ => rfl

theorem octets_guarded (off n : Nat) :
    Guarded (octets mem off n) (off + n ≤ mem.length) (· = Mem.read mem off n) :=
  (Guarded.access _ _ _).map fun _ _ => rfl

theorem equal_guarded (off : Nat) (l : List UInt8) :
    Guarded (equal mem off l) (off + l.length ≤ mem.length)
      (· = decide (Mem.read mem off l.length = l)) :=
  (Guarded.access _ _ _).map fun _ _ => rfl

/-- A comparison, and what is done on either outcome. -/
theorem equal_ite_guarded {β : Type} {off : Nat} {l : List UInt8} {x y : Checked β} {P S : Prop}
    {R : β → Prop} (hx : Mem.read mem off l.length = l → Guarded x P R)
    (hy : Mem.read mem off l.length ≠ l → Guarded y S R) :
    Guarded (equal mem off l >>= fun same => if same = true then x else y)
      (off + l.length ≤ mem.length ∧ if Mem.read mem off l.length = l then P else S) R := by
  refine (equal_guarded off l).bindEq ?_
  by_cases hsame : Mem.read mem off l.length = l
  · rw [if_pos (decide_eq_true hsame), if_pos hsame]
    exact hx hsame
  · rw [if_neg (by rw [decide_eq_true_eq]; exact hsame), if_neg hsame]
    exact hy hsame

end

end Checked
