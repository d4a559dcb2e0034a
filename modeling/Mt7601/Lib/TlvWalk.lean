/-
# Walks along attributes under a counter

Code that walks along attributes by a pointer into a buffer and a counter of what is left, which it
takes from elsewhere: the counter goes down by each attribute's length, whatever the buffer holds.
Two things differ from one such walk to the next: how much must be left for another round, and the
least value the counter's type has.

A walk is safe exactly if the attributes it comes by are laid out for it (`walk_safe`), and over a
row of items that fill the counter it comes to what its effect on the items comes to
(`walk_items`).
-/
import Mt7601.Lib.Tlv

namespace Tlv

/-! ## 1. Items -/

/-- An attribute by itself. -/
structure Item where
  type : Nat
  value : List UInt8
  typeLt : type < 2 ^ 16
  short : value.length < 2 ^ 16

/-- A number of two octets, big-endian. -/
def beWord (n : Nat) : List UInt8 := [(n / 256).toUInt8, n.toUInt8]

def Item.encode (i : Item) : List UInt8 := beWord i.type ++ (beWord i.value.length ++ i.value)

def encodeAll (items : List Item) : List UInt8 := items.flatMap Item.encode

/-- The item at an offset. -/
def Item.at (i : Item) (off : Nat) : Attr := ⟨i.type, off + 4, i.value.length⟩

section

variable {data rest : List UInt8} {off n : Nat} {i : Item}

theorem beVal_beWord (h : n < 2 ^ 16) : beVal (beWord n) = n := by
  have hhi : (n / 256).toUInt8.toNat = n / 256 := by
    rw [Nat.toUInt8_eq, UInt8.toNat_ofNat']
    omega
  have hlo : n.toUInt8.toNat = n % 256 := by
    rw [Nat.toUInt8_eq, UInt8.toNat_ofNat']
  simp only [beWord, beVal, hhi, hlo, List.length_cons, List.length_nil]
  omega

theorem word_of_drop (h : data.drop off = beWord n ++ rest) (hn : n < 2 ^ 16) :
    word data off = n := by
  rw [word, Mem.read, h]
  exact beVal_beWord hn

theorem length_encode (i : Item) : i.encode.length = 4 + i.value.length := by
  simp [Item.encode, beWord]
  omega

/-- Where an item is in a buffer, its attribute and its value are. -/
theorem attrAt_of_drop (h : data.drop off = i.encode ++ rest) :
    attrAt data off = i.at off ∧ (i.at off).value data = i.value ∧ (i.at off).Inside data ∧
      data.drop (off + 4 + i.value.length) = rest := by
  have htype : word data off = i.type := by
    rw [Item.encode, List.append_assoc] at h
    exact word_of_drop h i.typeLt
  have hdrop : data.drop (off + 2) = beWord i.value.length ++ (i.value ++ rest) := by
    rw [← List.drop_drop, h, Item.encode, List.append_assoc, List.append_assoc]
    rfl
  have hlen : word data (off + 2) = i.value.length := word_of_drop hdrop i.short
  have hvalue : data.drop (off + 4) = i.value ++ rest := by
    have hoff : off + 4 = off + 2 + 2 := rfl
    rw [hoff, ← List.drop_drop, hdrop]
    rfl
  have hsize := congrArg List.length hvalue
  rw [List.length_drop, List.length_append] at hsize
  refine ⟨?_, ?_, ?_, ?_⟩
  · rw [attrAt, htype, hlen]
    rfl
  · rw [Attr.value, Item.at, hvalue, List.take_left]
  · have hfour := congrArg List.length h
    rw [List.length_drop, List.length_append, length_encode] at hfour
    rw [Attr.Inside, Attr.Has, Item.at]
    dsimp only
    omega
  · rw [← List.drop_drop, hvalue, List.drop_left]

end

/-! ## 2. Walks -/

/-- How a walk counts: it goes on while more than `guard` is left, and its counter has `least` for a
least value. -/
structure Counter where
  guard : Nat
  least : Int

variable {σ ρ : Type}

/-- The walk over a buffer from an offset on, with so much left by its counter. Each round reads a
header, lets the attribute be visited, and takes its length off the counter. -/
def counted (c : Counter) (visit : σ → Attr → Checked (σ ⊕ ρ)) (data : List UInt8) (s : σ)
    (off : Nat) (left : Int) : Checked (σ ⊕ ρ) :=
  if c.guard < left then
    Checked.access data.length off 4 >>= fun _ =>
      visit s (attrAt data off) >>= fun next =>
        match next with
        | .inl s =>
          if c.least ≤ left - (4 + (attrAt data off).len) then
            counted c visit data s (off + 4 + (attrAt data off).len)
              (left - (4 + (attrAt data off).len))
          else .error .underflow
        | .inr r => .ok (.inr r)
  else .ok (.inl s)
termination_by left.toNat

/-- Laid out for a walk: each header the walk comes to is in the buffer, the bound holds of its
attribute, and where the walk goes on behind it the counter can take its length. -/
def Laid (c : Counter) (bound : σ → Attr → Prop) (effect : σ → Attr → σ ⊕ ρ) (data : List UInt8)
    (s : σ) (off : Nat) (left : Int) : Prop :=
  if c.guard < left then
    off + 4 ≤ data.length ∧ bound s (attrAt data off) ∧
      ∀ s', effect s (attrAt data off) = .inl s' →
        c.least ≤ left - (4 + (attrAt data off).len) ∧
          Laid c bound effect data s' (off + 4 + (attrAt data off).len)
            (left - (4 + (attrAt data off).len))
  else True
termination_by left.toNat

section

variable {c : Counter} {visit : σ → Attr → Checked (σ ⊕ ρ)} {bound : σ → Attr → Prop}
  {effect : σ → Attr → σ ⊕ ρ} {data : List UInt8} {s : σ} {off : Nat} {left : Int}

/-- **A walk is safe** exactly if the buffer is laid out for it. -/
theorem Bounded.safe_counted (h : Bounded visit bound effect) :
    Checked.Safe (counted c visit data s off left) ↔ Laid c bound effect data s off left := by
  fun_induction Laid c bound effect data s off left with
  | case1 s off left hmore ih =>
    rw [counted, if_pos hmore]
    by_cases hin : off + 4 ≤ data.length
    · rw [Checked.access_ok hin, Checked.ok_bind, and_iff_right hin, ← h.safe s]
      cases hnext : visit s (attrAt data off) with
      | error e =>
        exact iff_of_false (Checked.not_safe_error e) fun hsafe =>
          Checked.not_safe_error e hsafe.1
      | ok next =>
        have heffect := h.eq hnext
        rw [Checked.ok_bind, and_iff_right (Checked.safe_ok _)]
        cases next with
        | inl s₁ =>
          dsimp only
          constructor
          · intro hsafe s' hs'
            rw [← heffect] at hs'
            cases hs'
            by_cases hleast : c.least ≤ left - (4 + (attrAt data off).len)
            · rw [if_pos hleast] at hsafe
              exact ⟨hleast, (ih s₁).mp hsafe⟩
            · rw [if_neg hleast] at hsafe
              exact absurd hsafe (Checked.not_safe_error _)
          · intro hlaid
            obtain ⟨hleast, hrest⟩ := hlaid s₁ heffect.symm
            rw [if_pos hleast]
            exact (ih s₁).mpr hrest
        | inr r =>
          refine iff_of_true (Checked.safe_ok _) fun s' hs' => ?_
          rw [← heffect] at hs'
          cases hs'
    · rw [Checked.access_error (by omega), Checked.error_bind]
      exact iff_of_false (Checked.not_safe_error _) fun hlaid => hin hlaid.1
  | case2 s off left hmore =>
    rw [counted, if_neg hmore]
    exact iff_of_true (Checked.safe_ok _) trivial

end

/-! ## 3. Walks along items -/

/-- What effects on items come to, one after the other. -/
def itemWalk (effect : σ → Item → σ ⊕ ρ) : σ → List Item → σ ⊕ ρ
  | s, [] => .inl s
  | s, i :: is =>
    match effect s i with
    | .inl s => itemWalk effect s is
    | .inr r => .inr r

/-- An effect on attributes is one on items: it looks at the type and the value alone. -/
def Reads (data : List UInt8) (effect : σ → Attr → σ ⊕ ρ) (itemEffect : σ → Item → σ ⊕ ρ)
    (i : Item) : Prop :=
  ∀ s off, (i.at off).value data = i.value → (i.at off).Inside data →
    effect s (i.at off) = itemEffect s i

section

variable {c : Counter} {visit : σ → Attr → Checked (σ ⊕ ρ)} {bound : σ → Attr → Prop}
  {effect : σ → Attr → σ ⊕ ρ} {itemEffect : σ → Item → σ ⊕ ρ} {data rest : List UInt8} {s : σ}
  {r : σ ⊕ ρ}

theorem itemWalk_cons_inl {i : Item} {is : List Item} {s' : σ} (h : itemEffect s i = .inl s') :
    itemWalk itemEffect s (i :: is) = itemWalk itemEffect s' is := by
  rw [itemWalk, h]

theorem itemWalk_cons_inr {i : Item} {is : List Item} {x : ρ} (h : itemEffect s i = .inr x) :
    itemWalk itemEffect s (i :: is) = .inr x := by
  rw [itemWalk, h]

theorem encodeAll_cons (i : Item) (is : List Item) :
    encodeAll (i :: is) = i.encode ++ encodeAll is := rfl

/-- **What a walk along items comes to.**  The counter's guard is no more than a header, and an item
without a value, which a walk may leave out at the end, changes nothing. -/
theorem Bounded.counted_items (h : Bounded visit bound effect) (hguard : c.guard ≤ 4) :
    ∀ {items : List Item} {s : σ} {off : Nat},
      (∀ i ∈ items, Reads data effect itemEffect i) →
      (c.guard ≠ 0 → ∀ i ∈ items, i.value = [] → ∀ s, itemEffect s i = .inl s) →
      data.drop off = encodeAll items ++ rest →
      counted c visit data s off (encodeAll items).length = .ok r →
        r = itemWalk itemEffect s items
  | [], s, off, _, _, _, hr => by
    rw [counted, if_neg (by simp [encodeAll])] at hr
    cases hr
    rfl
  | i :: is, s, off, hreads, hempty, hdrop, hr => by
    rw [encodeAll_cons, List.append_assoc] at hdrop
    obtain ⟨hat, hvalue, hin, hrest⟩ := attrAt_of_drop hdrop
    have hlen : ((encodeAll (i :: is)).length : Int) =
        4 + i.value.length + (encodeAll is).length := by
      rw [encodeAll_cons, List.length_append, length_encode]
      push_cast
      rfl
    have heffect := hreads i List.mem_cons_self s off hvalue hin
    rw [hlen, counted] at hr
    by_cases hmore : (c.guard : Int) < 4 + i.value.length + (encodeAll is).length
    · rw [if_pos hmore, hat] at hr
      obtain ⟨-, hr⟩ := Checked.access_bind_eq_ok.mp hr
      obtain ⟨next, hnext, hr⟩ := Checked.bind_eq_ok.mp hr
      have hnext' := h.eq hnext
      rw [heffect] at hnext'
      cases next with
      | inl s₁ =>
        dsimp only at hr
        by_cases hleast : c.least ≤
            4 + i.value.length + (encodeAll is).length - (4 + ((i.at off).len : Int))
        · rw [if_pos hleast] at hr
          have hleft : (4 : Int) + i.value.length + (encodeAll is).length -
              (4 + ((i.at off).len : Int)) = (encodeAll is).length := by
            have hl : (i.at off).len = i.value.length := rfl
            rw [hl]
            omega
          rw [hleft] at hr
          rw [itemWalk_cons_inl hnext'.symm]
          exact h.counted_items hguard (fun j hj => hreads j (List.mem_cons_of_mem _ hj))
            (fun h0 j hj => hempty h0 j (List.mem_cons_of_mem _ hj)) hrest hr
        · rw [if_neg hleast] at hr
          cases hr
      | inr x =>
        cases hr
        exact (itemWalk_cons_inr hnext'.symm).symm
    · -- nothing but a header is left: an item without a value, the last one
      rw [if_neg hmore] at hr
      cases hr
      have hnil : i.value = [] := List.length_eq_zero_iff.mp (by omega)
      have his : is = [] := by
        cases is with
        | nil => rfl
        | cons j js =>
          rw [encodeAll_cons, List.length_append, length_encode] at hmore
          push_cast at hmore
          omega
      subst his
      have h0 : c.guard ≠ 0 := by
        intro h0
        rw [h0] at hmore
        omega
      rw [itemWalk_cons_inl (hempty h0 i List.mem_cons_self hnil s)]
      rfl

/-- A row of items that fills what is left of a buffer. -/
def RowAt (data : List UInt8) (off : Nat) (left : Int) (items : List Item) : Prop :=
  (∃ rest, data.drop off = encodeAll items ++ rest) ∧ left = (encodeAll items).length

theorem Bounded.safe_map {τ : Type} {f : σ ⊕ ρ → τ} {off : Nat} {left : Int}
    (h : Bounded visit bound effect) :
    Checked.Safe (counted c visit data s off left >>= fun r => .ok (f r)) ↔
      Laid c bound effect data s off left := by
  rw [Checked.safe_bind, ← h.safe_counted]
  exact ⟨fun ⟨r, hr, _⟩ => ⟨r, hr⟩, fun ⟨r, hr⟩ => ⟨r, hr, Checked.safe_ok _⟩⟩

/-- **A walk along a row** it is laid out for, and what is made of it. -/
theorem Bounded.counted_row {τ : Type} {f : σ ⊕ ρ → τ} {off : Nat} {left : Int}
    {items : List Item} (h : Bounded visit bound effect) (hguard : c.guard ≤ 4)
    (hlaid : Laid c bound effect data s off left) (hrow : RowAt data off left items)
    (hreads : ∀ i ∈ items, Reads data effect itemEffect i)
    (hempty : c.guard ≠ 0 → ∀ i ∈ items, i.value = [] → ∀ s, itemEffect s i = .inl s) :
    (counted c visit data s off left >>= fun r => .ok (f r)) =
      .ok (f (itemWalk itemEffect s items)) := by
  obtain ⟨r, hr⟩ := h.safe_counted.mpr hlaid
  obtain ⟨⟨rest, hdrop⟩, rfl⟩ := hrow
  rw [hr, Checked.ok_bind, h.counted_items hguard hreads hempty hdrop hr]

/-- An effect that looks for a type ends the walk at the first item of it. -/
theorem itemWalk_first {t : Nat} {found : Item → ρ} {items : List Item} (s : σ)
    (hfound : ∀ i ∈ items, ∀ s,
      itemEffect s i = if i.type = t then .inr (found i) else .inl s) :
    itemWalk itemEffect s items =
      match items.find? (·.type = t) with
      | some i => .inr (found i)
      | none => .inl s := by
  induction items with
  | nil => rfl
  | cons i is ih =>
    have hi := hfound i List.mem_cons_self s
    by_cases ht : i.type = t
    · rw [if_pos ht] at hi
      rw [itemWalk_cons_inr hi, List.find?_cons_of_pos (by simpa using ht)]
    · rw [if_neg ht] at hi
      rw [itemWalk_cons_inl hi, List.find?_cons_of_neg (by simpa using ht)]
      exact ih fun j hj => hfound j (List.mem_cons_of_mem _ hj)

end

end Tlv
