/-
# Attributes in a row: type, length, value

A message of attributes, each with four octets of type and length in front of its value, and the
loop that hands them to a handler one after the other, as long as more than four octets are left.
A handler changes a state, or it ends the loop. How far the loop goes on behind an attribute is given
by `skip`: by its length, or not at all where the value is a row of attributes itself.

The loop is a fold over the attributes of the message (`loop_eq_run`), whatever the handler does with
them, so that what is said of a loop is proved over a list. A handler that is stopped outside a bound
(`Bounded`) makes a loop that is safe exactly if the bound holds wherever the loop comes
(`Bounded.safe_run`), and that comes to what the handler's effects come to one after the other
(`Bounded.run_eq`).
-/
import Mt7601.Lib.Checked
import Mt7601.Lib.Octets

namespace Tlv

/-! ## 1. Attributes -/

/-- An attribute of a message: its type, and where its value is. -/
structure Attr where
  type : Nat
  off : Nat
  len : Nat
  deriving DecidableEq, Repr

/-- A big-endian number of two octets. -/
def word (data : List UInt8) (off : Nat) : Nat := beVal (Mem.read data off 2)

/-- The attribute whose type is at an offset. -/
def attrAt (data : List UInt8) (off : Nat) : Attr where
  type := word data off
  off := off + 4
  len := word data (off + 2)

/-- The octets of its value, as far as the message has them. -/
def Attr.value (a : Attr) (data : List UInt8) : List UInt8 := (data.drop a.off).take a.len

/-- So many octets are there. -/
def Attr.Has (a : Attr) (data : List UInt8) (n : Nat) : Prop := a.off + n ≤ data.length

/-- Its value is there. -/
def Attr.Inside (a : Attr) (data : List UInt8) : Prop := a.Has data a.len

/-- The attributes that the loop comes by. -/
def attrs (skip : Attr → Nat) (data : List UInt8) (off : Nat) : List Attr :=
  if off + 4 < data.length then
    attrAt data off :: attrs skip data (off + 4 + skip (attrAt data off))
  else []
termination_by data.length - off

/-! ## 2. The loop -/

variable {σ ρ : Type}

/-- The loop over a message. The handler goes on with a state, or ends the loop with a result. -/
def loop (skip : Attr → Nat) (handler : σ → Attr → Checked (σ ⊕ ρ)) (data : List UInt8) (s : σ)
    (off : Nat) : Checked (σ ⊕ ρ) :=
  if off + 4 < data.length then
    handler s (attrAt data off) >>= fun next =>
      match next with
      | .inl s => loop skip handler data s (off + 4 + skip (attrAt data off))
      | .inr r => .ok (.inr r)
  else .ok (.inl s)
termination_by data.length - off

/-- The same over a list of attributes. -/
def run (handler : σ → Attr → Checked (σ ⊕ ρ)) : σ → List Attr → Checked (σ ⊕ ρ)
  | s, [] => .ok (.inl s)
  | s, a :: as =>
    handler s a >>= fun next =>
      match next with
      | .inl s => run handler s as
      | .inr r => .ok (.inr r)

theorem loop_eq_run (skip : Attr → Nat) (handler : σ → Attr → Checked (σ ⊕ ρ)) (data : List UInt8)
    (s : σ) (off : Nat) :
    loop skip handler data s off = run handler s (attrs skip data off) := by
  fun_induction attrs skip data off generalizing s with
  | case1 off hmore ih =>
    rw [loop, if_pos hmore, run]
    congr 1
    funext next
    cases next with
    | inl s => exact ih s
    | inr r => rfl
  | case2 off hmore => rw [loop, if_neg hmore, run]

/-! ## 3. Rules -/

section

variable {handler : σ → Attr → Checked (σ ⊕ ρ)} {s : σ} {a : Attr} {as : List Attr}

theorem run_cons_inl {s' : σ} (h : handler s a = .ok (.inl s')) :
    run handler s (a :: as) = run handler s' as := by
  rw [run, h]
  rfl

theorem run_cons_inr {r : ρ} (h : handler s a = .ok (.inr r)) :
    run handler s (a :: as) = .ok (.inr r) := by
  rw [run, h]
  rfl

theorem run_cons_error {e : Checked.Fault} (h : handler s a = .error e) :
    run handler s (a :: as) = .error e := by
  rw [run, h]
  rfl

end

/-! ## 4. Handlers with a bound and an effect -/

/-- What the effects come to, one after the other. -/
def walk (effect : σ → Attr → σ ⊕ ρ) : σ → List Attr → σ ⊕ ρ
  | s, [] => .inl s
  | s, a :: as =>
    match effect s a with
    | .inl s => walk effect s as
    | .inr r => .inr r

/-- The bound holds at every attribute that the effects come to. -/
def Fits (effect : σ → Attr → σ ⊕ ρ) (bound : σ → Attr → Prop) : σ → List Attr → Prop
  | _, [] => True
  | s, a :: as => bound s a ∧ ∀ s', effect s a = .inl s' → Fits effect bound s' as

/-- A handler that is stopped outside the bound, and has the effect if it is not. -/
structure Bounded (handler : σ → Attr → Checked (σ ⊕ ρ)) (bound : σ → Attr → Prop)
    (effect : σ → Attr → σ ⊕ ρ) : Prop where
  safe : ∀ s a, Checked.Safe (handler s a) ↔ bound s a
  eq : ∀ {s a r}, handler s a = .ok r → r = effect s a

section

variable {handler : σ → Attr → Checked (σ ⊕ ρ)} {bound : σ → Attr → Prop}
  {effect : σ → Attr → σ ⊕ ρ} {s : σ} {as : List Attr}

/-- **The loop is safe** exactly if the bound holds wherever it comes. -/
theorem Bounded.safe_run (h : Bounded handler bound effect) :
    Checked.Safe (run handler s as) ↔ Fits effect bound s as := by
  induction as generalizing s with
  | nil => exact ⟨fun _ => trivial, fun _ => Checked.safe_ok _⟩
  | cons a as ih =>
    cases hnext : handler s a with
    | error e =>
      rw [run_cons_error hnext]
      refine ⟨fun hsafe => absurd hsafe (Checked.not_safe_error e), fun hfits => ?_⟩
      have hsafe := (h.safe s a).2 hfits.1
      rw [hnext] at hsafe
      exact absurd hsafe (Checked.not_safe_error e)
    | ok next =>
      have hbound : bound s a := (h.safe s a).1 ⟨next, hnext⟩
      have heffect := h.eq hnext
      cases next with
      | inl s₁ =>
        rw [run_cons_inl hnext, ih]
        constructor
        · intro hfits
          refine ⟨hbound, fun s' hs' => ?_⟩
          rw [← heffect] at hs'
          cases hs'
          exact hfits
        · exact fun hfits => hfits.2 s₁ heffect.symm
      | inr r =>
        rw [run_cons_inr hnext]
        refine ⟨fun _ => ⟨hbound, fun s' hs' => ?_⟩, fun _ => Checked.safe_ok _⟩
        rw [← heffect] at hs'
        exact nomatch hs'

/-- **What the loop comes to.** -/
theorem Bounded.run_eq (h : Bounded handler bound effect) {r : σ ⊕ ρ}
    (hr : run handler s as = .ok r) : r = walk effect s as := by
  induction as generalizing s with
  | nil =>
    cases hr
    rfl
  | cons a as ih =>
    cases hnext : handler s a with
    | error e =>
      rw [run_cons_error hnext] at hr
      exact nomatch hr
    | ok next =>
      have heffect := h.eq hnext
      rw [walk, ← heffect]
      cases next with
      | inl s₁ =>
        rw [run_cons_inl hnext] at hr
        exact ih hr
      | inr r' =>
        rw [run_cons_inr hnext] at hr
        cases hr
        rfl

/-- A bound that does not depend on the state, of effects that do not end the loop. -/
theorem fits_iff_forall {B : Attr → Prop} (hgoes : ∀ s a, ∃ s', effect s a = .inl s')
    (hbound : ∀ s a, bound s a ↔ B a) : Fits effect bound s as ↔ ∀ a ∈ as, B a := by
  induction as generalizing s with
  | nil => exact ⟨fun _ a ha => (nomatch ha), fun _ => trivial⟩
  | cons a as ih =>
    obtain ⟨s₁, hs₁⟩ := hgoes s a
    rw [List.forall_mem_cons, Fits, hbound]
    refine and_congr_right fun _ => ⟨fun h => ih.1 (h s₁ hs₁), fun h s' hs' => ?_⟩
    rw [hs₁] at hs'
    cases hs'
    exact ih.2 h

/-- What every effect preserves inside the bound, all of them do. -/
theorem walk_inl {P : σ → Prop}
    (hstep : ∀ s a s', a ∈ as → bound s a → P s → effect s a = .inl s' → P s') {s' : σ} (hs : P s)
    (hfits : Fits effect bound s as) (h : walk effect s as = .inl s') : P s' := by
  induction as generalizing s with
  | nil =>
    cases h
    exact hs
  | cons a as ih =>
    have hrest : ∀ s a s', a ∈ as → bound s a → P s → effect s a = .inl s' → P s' :=
      fun s a s' ha => hstep s a s' (List.mem_cons_of_mem _ ha)
    rw [walk] at h
    cases hnext : effect s a with
    | inl s₁ =>
      rw [hnext] at h
      exact ih hrest (hstep s a s₁ List.mem_cons_self hfits.1 hs hnext) (hfits.2 s₁ hnext) h
    | inr r =>
      rw [hnext] at h
      exact nomatch h

/-- What ends the loop ends it at an attribute inside the bound. -/
theorem walk_inr {P : σ → Prop}
    (hstep : ∀ s a s', a ∈ as → bound s a → P s → effect s a = .inl s' → P s') {r : ρ} (hs : P s)
    (hfits : Fits effect bound s as) (h : walk effect s as = .inr r) :
    ∃ s a, a ∈ as ∧ bound s a ∧ P s ∧ effect s a = .inr r := by
  induction as generalizing s with
  | nil => exact nomatch h
  | cons a as ih =>
    have hrest : ∀ s a s', a ∈ as → bound s a → P s → effect s a = .inl s' → P s' :=
      fun s a s' ha => hstep s a s' (List.mem_cons_of_mem _ ha)
    rw [walk] at h
    cases hnext : effect s a with
    | inl s₁ =>
      rw [hnext] at h
      obtain ⟨s₂, a₂, ha₂, hrest⟩ :=
        ih hrest (hstep s a s₁ List.mem_cons_self hfits.1 hs hnext) (hfits.2 s₁ hnext) h
      exact ⟨s₂, a₂, List.mem_cons_of_mem _ ha₂, hrest⟩
    | inr r' =>
      rw [hnext] at h
      cases h
      exact ⟨s, a, List.mem_cons_self, hfits.1, hs, hnext⟩

/-- What of a state follows the attributes by itself. -/
theorem walk_foldl {τ : Type} {v : σ → τ} {step : τ → Attr → τ}
    (hstep : ∀ s a s', a ∈ as → bound s a → effect s a = .inl s' → v s' = step (v s) a)
    {s' : σ} (hfits : Fits effect bound s as) (h : walk effect s as = .inl s') :
    v s' = as.foldl step (v s) := by
  induction as generalizing s with
  | nil =>
    cases h
    rfl
  | cons a as ih =>
    have hrest : ∀ s a s', a ∈ as → bound s a → effect s a = .inl s' → v s' = step (v s) a :=
      fun s a s' ha => hstep s a s' (List.mem_cons_of_mem _ ha)
    rw [walk] at h
    cases hnext : effect s a with
    | inl s₁ =>
      rw [hnext] at h
      rw [List.foldl_cons, ← hstep s a s₁ List.mem_cons_self hfits.1 hnext]
      exact ih hrest (hfits.2 s₁ hnext) h
    | inr r =>
      rw [hnext] at h
      exact nomatch h

end

end Tlv
