/-
# Checked lengths and accesses

Code that works on a buffer with lengths it took from outside, run so that the first subtraction
that would wrap and the first access outside the buffer stop it. What such code comes to without
being stopped, it comes to in memory; that it is never stopped is its memory safety.

The rules are those of a monad with two ways to stop: a subtraction and an access go through under a
bound and stop without it, and what is safe step by step is safe (`safe_bind`).
-/

namespace Checked

/-! ## 1. The two ways to stop -/

inductive Fault
  /-- A subtraction would wrap. -/
  | underflow
  /-- An access lies outside the buffer. -/
  | outside
  deriving DecidableEq, Repr

end Checked

abbrev Checked (α : Type) := Except Checked.Fault α

namespace Checked

variable {α β : Type}

/-- `a - b` of unsigned numbers. -/
def sub (a b : Nat) : Checked Nat :=
  if b ≤ a then .ok (a - b) else .error .underflow

/-- An access to `n` octets from offset `off` on, of a buffer of `size` octets. -/
def access (size off n : Nat) : Checked Unit :=
  if off + n ≤ size then .ok () else .error .outside

/-- It is not stopped. -/
def Safe (x : Checked α) : Prop := ∃ a, x = .ok a

/-! ## 2. Rules -/

section

variable {a b size off n : Nat} {x : Checked α} {f : α → Checked β}

@[simp] theorem ok_bind (a : α) : ((.ok a : Checked α) >>= f) = f a := rfl

@[simp] theorem error_bind (e : Fault) : ((.error e : Checked α) >>= f) = .error e := rfl

theorem sub_ok (h : b ≤ a) : sub a b = .ok (a - b) := if_pos h

theorem sub_error (h : a < b) : sub a b = .error .underflow := if_neg (Nat.not_le.2 h)

theorem access_ok (h : off + n ≤ size) : access size off n = .ok () := if_pos h

theorem access_error (h : size < off + n) : access size off n = .error .outside :=
  if_neg (Nat.not_le.2 h)

/-- A subtraction in front: it must go through, and then what is behind it. -/
theorem sub_bind_eq_ok {f : Nat → Checked β} {r : β} :
    (sub a b >>= f) = .ok r ↔ b ≤ a ∧ f (a - b) = .ok r := by
  unfold sub
  split
  · rename_i h
    exact ⟨fun hr => ⟨h, hr⟩, fun hr => hr.2⟩
  · rename_i h
    exact ⟨fun hr => (nomatch hr), fun hr => absurd hr.1 h⟩

/-- An access in front. -/
theorem access_bind_eq_ok {f : Unit → Checked β} {r : β} :
    (access size off n >>= f) = .ok r ↔ off + n ≤ size ∧ f () = .ok r := by
  unfold access
  split
  · rename_i h
    exact ⟨fun hr => ⟨h, hr⟩, fun hr => hr.2⟩
  · rename_i h
    exact ⟨fun hr => (nomatch hr), fun hr => absurd hr.1 h⟩

/-- A step in front. -/
theorem bind_eq_ok {r : β} : (x >>= f) = .ok r ↔ ∃ a, x = .ok a ∧ f a = .ok r := by
  cases x with
  | error e => exact ⟨fun h => (nomatch h), fun h => (nomatch h.choose_spec.1)⟩
  | ok a =>
    constructor
    · intro h
      exact ⟨a, rfl, h⟩
    · rintro ⟨a', ha, h⟩
      cases ha
      exact h

theorem safe_ok (a : α) : Safe (.ok a : Checked α) := ⟨a, rfl⟩

theorem not_safe_error (e : Fault) : ¬ Safe (.error e : Checked α) := by
  rintro ⟨a, ha⟩
  exact nomatch ha

theorem safe_sub : Safe (sub a b) ↔ b ≤ a := by
  unfold sub
  split
  · rename_i h
    exact ⟨fun _ => h, fun _ => safe_ok _⟩
  · rename_i h
    exact ⟨fun hs => absurd hs (not_safe_error _), fun hab => absurd hab h⟩

theorem safe_access : Safe (access size off n) ↔ off + n ≤ size := by
  unfold access
  split
  · rename_i h
    exact ⟨fun _ => h, fun _ => safe_ok _⟩
  · rename_i h
    exact ⟨fun hs => absurd hs (not_safe_error _), fun hab => absurd hab h⟩

/-- **The sequence rule**: safe is what has a safe first step whose result the rest is safe on. -/
theorem safe_bind : Safe (x >>= f) ↔ ∃ a, x = .ok a ∧ Safe (f a) := by
  constructor
  · rintro ⟨r, hr⟩
    obtain ⟨a, ha, hf⟩ := bind_eq_ok.mp hr
    exact ⟨a, ha, r, hf⟩
  · rintro ⟨a, ha, r, hr⟩
    exact ⟨r, bind_eq_ok.mpr ⟨a, ha, hr⟩⟩

/-- A last step that cannot be stopped. -/
theorem safe_map {f : α → β} : Safe (x >>= fun a => .ok (f a)) ↔ Safe x := by
  rw [safe_bind]
  constructor
  · rintro ⟨a, ha, -⟩
    exact ⟨a, ha⟩
  · rintro ⟨a, ha⟩
    exact ⟨a, ha, safe_ok _⟩

end

end Checked
