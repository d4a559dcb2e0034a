/-
# Where the P2P parsers stay inside

When a parser of P2P attributes reads only octets of the frame body, writes only into its buffers and
takes no length from a smaller one. The loops compare a length with what is left of the body, but
read the length behind the last element for it; the attributes are compared with an element that is
taken four octets too long, and what is read of them is not compared with their lengths. So the
condition is one on the frame (`ParserCall.Fits`), attribute by attribute.
-/
import Mt7601.Lib.Guarded
import Mt7601.P2p.GroupInfo

namespace Mt7601.P2p

open Checked (Guarded AllFit walkWhile foldWhile)

/-! ## 1. Reads -/

section

variable {msg : Body}

theorem readOctet_guarded (i : Nat) :
    Guarded (readOctet msg i) (i + 1 ≤ msg.length) (· = octetAt msg i) :=
  (Guarded.access _ _ _).map fun _ _ => rfl

theorem readBe16_guarded (i : Nat) :
    Guarded (readBe16 msg i) (i + 2 ≤ msg.length) (· = be16 msg i) :=
  (Guarded.access _ _ _).map fun _ _ => rfl

theorem readLe_guarded (i n : Nat) :
    Guarded (readLe msg i n) (i + n ≤ msg.length) (· = leVal msg i n) :=
  (Guarded.access _ _ _).map fun _ _ => rfl

theorem readEqual_guarded (l : List UInt8) (i : Nat) :
    Guarded (readEqual msg l i) (i + l.length ≤ msg.length) (· = isAt msg l i) :=
  (Guarded.access _ _ _).map fun _ _ => rfl

theorem moveMemory_guarded (i n : Nat) {m : Nat} (dst : Octets m) (off : Nat) :
    Guarded (moveMemory msg i n dst off) (i + n ≤ msg.length ∧ off + n ≤ m)
      (· = .ofList m (Mem.write dst.toList off (Mem.read msg i n))) :=
  (Guarded.access _ _ _).bind fun _ _ => (Guarded.access _ _ _).map fun _ _ => rfl

theorem octetTo_guarded (i : Nat) (out : Out UInt8) :
    Guarded (octetTo msg i out) (out.isSome → i + 1 ≤ msg.length) (·.isSome = out.isSome) := by
  cases out with
  | none =>
    have h : Guarded (octetTo msg i none) True (·.isSome = false) := .ok rfl
    exact h.congr (by simp)
  | some v =>
    have h : Guarded (octetTo msg i (some v)) (i + 1 ≤ msg.length) (·.isSome = true) :=
      (readOctet_guarded i).map fun _ _ => rfl
    exact h.congr (by simp)

theorem wordTo_guarded (i : Nat) (out : Out Nat) :
    Guarded (wordTo msg i out) (out.isSome → i + 2 ≤ msg.length) (·.isSome = out.isSome) := by
  cases out with
  | none =>
    have h : Guarded (wordTo msg i none) True (·.isSome = false) := .ok rfl
    exact h.congr (by simp)
  | some v =>
    have h : Guarded (wordTo msg i (some v)) (i + 2 ≤ msg.length) (·.isSome = true) :=
      (readBe16_guarded i).map fun _ _ => rfl
    exact h.congr (by simp)

theorem moveTo_guarded (i n : Nat) {m : Nat} (hfit : n ≤ m) (out : Out (Octets m)) :
    Guarded (moveTo msg i n out) (out.isSome → i + n ≤ msg.length) (·.isSome = out.isSome) := by
  cases out with
  | none =>
    have h : Guarded (moveTo msg i n (none : Out (Octets m))) True (·.isSome = false) := .ok rfl
    exact h.congr (by simp)
  | some dst =>
    have h : Guarded (moveTo msg i n (some dst)) (i + n ≤ msg.length ∧ 0 + n ≤ m)
        (·.isSome = true) := (moveMemory_guarded i n dst 0).map fun _ _ => rfl
    exact h.congr (by simp [hfit])

theorem readAttriLen_guarded (hi pos : Nat) :
    Guarded (readAttriLen msg hi pos) (pos + 3 ≤ msg.length) (· = attriLen msg hi pos) := by
  refine ((readOctet_guarded _).bindEq ((readOctet_guarded _).map fun _ hr => ?_)).congr ?_
  · rw [hr]
    rfl
  · omega

/-! ## 2. The loops -/

variable {σ ρ τ ω : Type}

/-- The attributes that a loop comes by, in an element whose attributes end at `fin`. -/
def attrs (w : AttrLoop) (msg : Body) (fin pos len : Nat) : List Attr :=
  if pos + 3 + len ≤ fin then
    ⟨pos, octetAt msg pos, len⟩ ::
      if w.stops ∧ fin ≤ pos + 3 + len then []
      else attrs w msg fin (pos + 3 + len) (attriLen msg w.hi (pos + 3 + len))
  else []
termination_by fin - pos

/-- A step of the loop: the attribute, and the length of the one behind it. -/
def attrStep (w : AttrLoop) (msg : Body) (handler : σ → Attr → Checked (σ ⊕ ρ)) (fin : Nat) (s : σ)
    (a : Attr) : Checked (σ ⊕ ρ) := do
  let _ ← readOctet msg a.pos
  match ← handler s a with
  | .inr r => return .inr r
  | .inl s =>
    if w.stops ∧ fin ≤ a.fin then return .inl s
    else do
      let _ ← readAttriLen msg w.hi a.fin
      return .inl s

theorem attrLoop_eq (w : AttrLoop) (handler : σ → Attr → Checked (σ ⊕ ρ)) {total fin : Nat} (s : σ)
    (pos length len : Nat) (hfin : fin + length = pos + total) :
    attrLoop w msg handler total s pos length len =
      foldWhile (attrStep w msg handler fin) s (attrs w msg fin pos len) := by
  fun_induction attrs w msg fin pos len generalizing s length with
  | case1 pos len hmore ih =>
    rw [attrLoop, if_pos (by omega), foldWhile, attrStep]
    cases hread : readOctet msg pos with
    | error e => rfl
    | ok eid =>
      have heid : eid = octetAt msg pos := (readOctet_guarded pos).post _ hread
      subst heid
      dsimp only [Checked.ok_bind]
      cases handler s ⟨pos, octetAt msg pos, len⟩ with
      | error e => rfl
      | ok r =>
      cases r with
      | inr r => rfl
      | inl s =>
        dsimp only [Checked.ok_bind]
        have hfin' : (⟨pos, octetAt msg pos, len⟩ : Attr).fin = pos + 3 + len := rfl
        have htotal : total ≤ length + 3 + len ↔ fin ≤ pos + 3 + len := by omega
        simp only [hfin', htotal]
        by_cases hlast : w.stops ∧ fin ≤ pos + 3 + len
        · rw [if_pos hlast, if_pos hlast, if_pos hlast]
          rfl
        · rw [if_neg hlast, if_neg hlast, if_neg hlast]
          cases hnext : readAttriLen msg w.hi (pos + 3 + len) with
          | error e => rfl
          | ok next =>
            have hlen : next = attriLen msg w.hi (pos + 3 + len) :=
              (readAttriLen_guarded w.hi (pos + 3 + len)).post _ hnext
            subst hlen
            exact ih s (length + 3 + len) (by omega)
  | case2 pos len hmore =>
    rw [attrLoop, if_neg (by omega), foldWhile]
    rfl

/-- An attribute that fits: its identifier and what is read of it lie inside, and so does the length
of the one behind it, unless the loop ends. -/
def AttrFits (w : AttrLoop) (msg : Body) (fin : Nat) (fits : τ → Attr → Prop)
    (effect : τ → Attr → τ ⊕ ω) (t : τ) (a : Attr) : Prop :=
  a.pos + 1 ≤ msg.length ∧ fits t a ∧
    ∀ t', effect t a = .inl t' → (w.stops ∧ fin ≤ a.fin) ∨ a.fin + 3 ≤ msg.length

section

variable {handler : σ → Attr → Checked (σ ⊕ ρ)} {v : σ → τ} {u : ρ → ω} {F : τ → Attr → Prop}
  {E : τ → Attr → τ ⊕ ω}

theorem attrStep_guarded
    (h : ∀ s a, Guarded (handler s a) (F (v s) a) (Sum.map v u · = E (v s) a))
    (w : AttrLoop) (fin : Nat) (s : σ) (a : Attr) :
    Guarded (attrStep w msg handler fin s a) (AttrFits w msg fin F E (v s) a)
      (Sum.map v u · = E (v s) a) := by
  unfold attrStep AttrFits
  refine (readOctet_guarded a.pos).bindEq ((h s a).bind fun r hr => ?_)
  rw [← hr]
  cases r with
  | inr r =>
    have hend : Guarded (.ok (.inr r) : Checked (σ ⊕ ρ)) True (Sum.map v u · = .inr (u r)) :=
      .ok rfl
    exact hend.congr (by simp)
  | inl s' =>
    by_cases hlast : w.stops ∧ fin ≤ a.fin
    · have hend : Guarded (.ok (.inl s') : Checked (σ ⊕ ρ)) True (Sum.map v u · = .inl (v s')) :=
        .ok rfl
      simp only [if_pos hlast]
      exact hend.congr (by simp [hlast])
    · simp only [if_neg hlast]
      refine ((readAttriLen_guarded w.hi a.fin).map (R := (Sum.map v u · = .inl (v s')))
        fun _ _ => rfl).congr ?_
      simp [hlast]

/-- **The loop over the attributes.** -/
theorem attrLoop_guarded (msg : Body)
    (h : ∀ s a, Guarded (handler s a) (F (v s) a) (Sum.map v u · = E (v s) a))
    (w : AttrLoop) {total fin : Nat} (s : σ) (pos len : Nat) (hfin : fin = pos + total) :
    Guarded (attrLoop w msg handler total s pos 0 len)
      (AllFit (AttrFits w msg fin F E) E (v s) (attrs w msg fin pos len))
      (Sum.map v u · = walkWhile E (v s) (attrs w msg fin pos len)) := by
  rw [attrLoop_eq w handler s pos 0 len (by omega)]
  exact Guarded.foldWhile (attrStep_guarded h w fin) s _

end

/-- The elements that a loop comes by: those whose length is not more than what is left. -/
def elements (msg : Body) (off left : Nat) : List Nat :=
  if (octetAt msg (off + 1)).toNat + 2 ≤ left then
    off :: elements msg (off + 2 + (octetAt msg (off + 1)).toNat)
      (left - (octetAt msg (off + 1)).toNat - 2)
  else []
termination_by left

/-- The offset behind the element at an offset. -/
def elementFin (msg : Body) (off : Nat) : Nat := off + 2 + (octetAt msg (off + 1)).toNat

/-- A step of the loop: the element, and the length of the one behind it. -/
def elementStep (msg : Body) (handler : σ → Nat → Checked ((σ × Bool) ⊕ ρ)) (s : σ) (off : Nat) :
    Checked (σ ⊕ (σ ⊕ ρ)) := do
  match ← handler s off with
  | .inr r => return .inr (.inr r)
  | .inl (s, more) =>
    if more then do
      let _ ← readOctet msg (elementFin msg off + 1)
      return .inl s
    else return .inr (.inl s)

theorem elementLoop_eq (handler : σ → Nat → Checked ((σ × Bool) ⊕ ρ)) (s : σ) (off left : Nat) :
    elementLoop msg handler s off left = (do
      let _ ← readOctet msg (off + 1)
      return Sum.elim .inl id (← foldWhile (elementStep msg handler) s (elements msg off left))) := by
  fun_induction elements msg off left generalizing s with
  | case1 off left hmore ih =>
    rw [elementLoop, foldWhile, elementStep]
    cases hread : readOctet msg (off + 1) with
    | error e => rfl
    | ok len =>
      have hlen : len = octetAt msg (off + 1) := (readOctet_guarded (off + 1)).post _ hread
      subst hlen
      dsimp only [Checked.ok_bind]
      rw [if_pos hmore]
      cases handler s off with
      | error e => rfl
      | ok r =>
      rcases r with ⟨s, more⟩ | r
      · cases more with
        | false => rfl
        | true =>
          dsimp only [Checked.ok_bind]
          rw [if_pos rfl, if_pos rfl, ih s]
          unfold elementFin
          cases readOctet msg (off + 2 + (octetAt msg (off + 1)).toNat + 1) with
          | error e => rfl
          | ok _ => rfl
      · rfl
  | case2 off left hmore =>
    rw [elementLoop, foldWhile]
    cases hread : readOctet msg (off + 1) with
    | error e => rfl
    | ok len =>
      have hlen : len = octetAt msg (off + 1) := (readOctet_guarded (off + 1)).post _ hread
      subst hlen
      dsimp only [Checked.ok_bind]
      rw [if_neg hmore]
      rfl

/-- What an element makes of the view of a loop. -/
def elementEffect (effect : τ → Nat → (τ × Bool) ⊕ ω) (t : τ) (off : Nat) : τ ⊕ (τ ⊕ ω) :=
  match effect t off with
  | .inr r => .inr (.inr r)
  | .inl (t, true) => .inl t
  | .inl (t, false) => .inr (.inl t)

/-- An element that fits, with the two octets behind it if the loop goes on. -/
def ElementFits (msg : Body) (fits : τ → Nat → Prop) (effect : τ → Nat → (τ × Bool) ⊕ ω) (t : τ)
    (off : Nat) : Prop :=
  fits t off ∧ ∀ t', effect t off = .inl (t', true) → elementFin msg off + 2 ≤ msg.length

/-- **The loop over the elements.** -/
theorem elementLoop_guarded (msg : Body) {handler : σ → Nat → Checked ((σ × Bool) ⊕ ρ)} {v : σ → τ} {u : ρ → ω}
    {F : τ → Nat → Prop} {E : τ → Nat → (τ × Bool) ⊕ ω}
    (h : ∀ s off, Guarded (handler s off) (F (v s) off)
      (Sum.map (Prod.map v id) u · = E (v s) off)) (s : σ) (off left : Nat) :
    Guarded (elementLoop msg handler s off left)
      (off + 2 ≤ msg.length ∧
        AllFit (ElementFits msg F E) (elementEffect E) (v s) (elements msg off left))
      fun _ => True := by
  rw [elementLoop_eq]
  refine (readOctet_guarded _).bindEq (Guarded.map (Q := fun r => Sum.map v (Sum.map v u) r =
    walkWhile (elementEffect E) (v s) (elements msg off left)) ?_ fun _ _ => trivial)
  refine Guarded.foldWhile (fun s off => ?_) s _
  unfold elementStep ElementFits elementEffect
  refine (h s off).bind fun r hr => ?_
  rw [← hr]
  rcases r with ⟨s', more⟩ | r
  · cases more with
    | true =>
      refine ((readOctet_guarded _).map (R := (Sum.map v (Sum.map v u) · = .inl (v s')))
        fun _ _ => rfl).congr ?_
      simp [Nat.add_assoc]
    | false =>
      have hend : Guarded (.ok (.inr (.inl s')) : Checked (σ ⊕ (σ ⊕ ρ))) True
        (Sum.map v (Sum.map v u) · = .inr (.inl (v s'))) := .ok rfl
      exact hend.congr (by simp)
  · have hend : Guarded (.ok (.inr (.inr r)) : Checked (σ ⊕ (σ ⊕ ρ))) True
      (Sum.map v (Sum.map v u) · = .inr (.inr (u r))) := .ok rfl
    exact hend.congr (by simp)

/-! ## 3. Parsers that look at every element -/

theorem fallThrough_guarded {x : Checked (σ ⊕ Empty)} {P : Prop} {Q : σ ⊕ Empty → Prop}
    (h : Guarded x P Q) : Guarded (fallThrough x) P fun s => Q (.inl s) := by
  unfold fallThrough
  refine (h.bind (S := True) fun r hr => ?_).congr (by simp)
  rcases r with s | e
  · exact .ok hr
  · exact nomatch e

/-- The attributes of an element for Wi-Fi Direct that these parsers come by. -/
def wifiAttrs (msg : Body) (off : Nat) : List Attr :=
  attrs ⟨8, false⟩ msg (elementFin msg off + 4) (off + 6) (attriLen msg 8 (off + 6))

theorem wifiDirectAttrs_guarded (msg : Body) {handler : σ → Attr → Checked (σ ⊕ ρ)} {v : σ → τ} {u : ρ → ω}
    {F : τ → Attr → Prop} {E : τ → Attr → τ ⊕ ω}
    (h : ∀ s a, Guarded (handler s a) (F (v s) a) (Sum.map v u · = E (v s) a)) (s : σ)
    (off : Nat) : Guarded (wifiDirectAttrs msg handler s off)
      (off + 9 ≤ msg.length ∧
        AllFit (AttrFits ⟨8, false⟩ msg (elementFin msg off + 4) F E) E (v s)
          (wifiAttrs msg off))
      (Sum.map v u · = walkWhile E (v s) (wifiAttrs msg off)) := by
  unfold wifiDirectAttrs
  refine (readAttriLen_guarded 8 (off + 6)).bindEq
    (attrLoop_guarded msg h ⟨8, false⟩ s (off + 6) _ ?_)
  unfold elementFin
  omega

/-- Where an element for Wi-Fi Direct is inside: the length of its first attribute, and of every
attribute that the loop comes by what is read of it, and the length of the one behind. -/
def WifiDirectFits (msg : Body) (F : Attr → Prop) (off : Nat) : Prop :=
  isAt msg wifidirectOui (off + 2) = true → off + 9 ≤ msg.length ∧
    ∀ a ∈ wifiAttrs msg off, a.pos + 1 ≤ msg.length ∧ F a ∧ a.fin + 3 ≤ msg.length

theorem everyElement_guarded (msg : Body) {handler : σ → Attr → Checked (σ ⊕ Empty)} {v : σ → τ}
    {F : τ → Attr → Prop}
    (h : ∀ s a, Guarded (handler s a) (F (v s) a) (Sum.map v id · = .inl (v s))) (s : σ)
    (off : Nat) : Guarded (everyElement msg handler s off)
      (off + 6 ≤ msg.length ∧ WifiDirectFits msg (F (v s)) off)
      (Sum.map (Prod.map v id) id · = .inl (v s, true)) := by
  unfold everyElement WifiDirectFits
  refine (readEqual_guarded _ _).bindEq ?_
  cases isAt msg wifidirectOui (off + 2) with
  | false =>
    have hend : Guarded (.ok (.inl (s, true)) : Checked ((σ × Bool) ⊕ Empty)) True
        (Sum.map (Prod.map v id) id · = .inl (v s, true)) := .ok rfl
    exact hend.congr (by simp)
  | true =>
    have hattrs := wifiDirectAttrs_guarded msg (E := fun t _ => .inl t) h s off
    rw [Checked.allFit_iff_forall] at hattrs
    have hwalk : walkWhile (fun t _ => (.inl t : τ ⊕ Empty)) (v s) (wifiAttrs msg off) =
        .inl (v s) := by
      rw [Checked.walkWhile_inl, List.foldl_fixed]
    rw [hwalk] at hattrs
    refine (hattrs.bind (S := True) fun r hr => ?_).congr ?_
    · rcases r with s' | e
      · have hv : v s' = v s := Sum.inl.inj hr
        exact .ok (by rw [← hv]; rfl)
      · exact nomatch e
    · simp [AttrFits]

/-- A body whose elements are all looked at: behind each there are two more octets. -/
def BodyFits (msg : Body) (F : Attr → Prop) : Prop :=
  2 ≤ msg.length ∧ ∀ off ∈ elements msg 0 msg.length,
    off + 6 ≤ msg.length ∧ WifiDirectFits msg F off ∧ elementFin msg off + 2 ≤ msg.length

/-- A loop that looks at every element, whatever stands in front of its part for Wi-Fi Direct. -/
theorem everyLoop_guarded (msg : Body) {element : σ → Nat → Checked ((σ × Bool) ⊕ Empty)} {v : σ → τ}
    {F : τ → Nat → Prop}
    (h : ∀ s off, Guarded (element s off) (F (v s) off)
      (Sum.map (Prod.map v id) id · = .inl (v s, true))) (s : σ) :
    Guarded (fallThrough (elementLoop msg element s 0 msg.length))
      (2 ≤ msg.length ∧ ∀ off ∈ elements msg 0 msg.length,
        F (v s) off ∧ elementFin msg off + 2 ≤ msg.length)
      fun _ => True := by
  have hloop := elementLoop_guarded msg (E := fun t _ => .inl (t, true)) h s 0
    msg.length
  have heffect : (elementEffect fun (t : τ) (_ : Nat) => (.inl (t, true) : (τ × Bool) ⊕ Empty)) =
      fun t _ => .inl t := rfl
  rw [heffect, Checked.allFit_iff_forall] at hloop
  refine (fallThrough_guarded hloop).congr ?_
  simp [ElementFits]

/-- Extended listen timing: two numbers. -/
def extListenFits (msg : Body) (a : Attr) : Prop :=
  SubId.ofEid a.eid = some .extListenTiming ∧ a.len = 4 → a.octet 0 + 4 ≤ msg.length

theorem extListenAttr_guarded (s : ExtListen) (a : Attr) :
    Guarded (extListenAttr msg s a) (extListenFits msg a)
      (Sum.map (fun _ => ()) id · = .inl ()) := by
  unfold extListenAttr extListenFits
  by_cases hext : SubId.ofEid a.eid = some .extListenTiming ∧ a.len = 4
  · simp only [if_pos hext]
    refine ((readLe_guarded (a.octet 0) 2).bindEq ((readLe_guarded (a.octet 2) 2).map
      (R := (Sum.map (fun _ => ()) id · = .inl ())) fun _ _ => rfl)).congr ?_
    unfold Attr.octet
    constructor
    · intro hin _
      omega
    · intro hin
      have := hin hext
      omega
  · simp only [if_neg hext]
    have hend : Guarded (.ok (.inl s) : Checked (ExtListen ⊕ Empty)) True
      (Sum.map (fun _ => ()) id · = .inl ()) := .ok rfl
    exact hend.congr (by simp [hext])

theorem p2pParseExtListenSubElmt_guarded (msg : Body) (s : ExtListen) :
    Guarded (p2pParseExtListenSubElmt msg s)
      (msg.length ≠ 0 → BodyFits msg (extListenFits msg)) fun _ => True := by
  unfold p2pParseExtListenSubElmt
  by_cases hzero : msg.length = 0
  · rw [if_pos hzero]
    have hend : Guarded (.ok s : Checked ExtListen) True fun _ => True := .ok trivial
    exact hend.congr (by simp [hzero])
  · rw [if_neg hzero]
    have helement := everyElement_guarded msg (v := fun _ => ()) (F := fun _ => extListenFits msg)
      extListenAttr_guarded
    refine (everyLoop_guarded msg (v := fun _ => ()) (F := fun _ off => off + 6 ≤ msg.length ∧
      WifiDirectFits msg (extListenFits msg) off) helement s).congr ?_
    unfold BodyFits
    simp [hzero, and_assoc]

/-- A notice of absence: the windows, or a descriptor. -/
def noaFits (msg : Body) (a : Attr) : Prop :=
  SubId.ofEid a.eid = some .noa →
    a.pos + 5 ≤ msg.length ∧ (octetAt msg (a.pos + 1) ≠ 2 → a.pos + 18 ≤ msg.length)

theorem p2pHandleNoAAttri_guarded (act : NoaActions) (s : Noa) (pos : Nat) :
    Guarded (p2pHandleNoAAttri act msg s pos)
      (pos + 5 ≤ msg.length ∧ (octetAt msg (pos + 1) ≠ 2 → pos + 18 ≤ msg.length))
      fun _ => True := by
  unfold p2pHandleNoAAttri
  by_cases hshort : octetAt msg (pos + 1) = 2
  · have hrun : Guarded (do
        let ctWindow ← readOctet msg (pos + 4)
        return (act.stopNoa { s with ctWindow }, true)) (pos + 5 ≤ msg.length) fun _ => True :=
      ((readOctet_guarded (pos + 4)).map fun _ _ => trivial)
    refine ((readOctet_guarded (pos + 1)).bindEq ?_ (S := pos + 5 ≤ msg.length)).congr ?_
    · rw [if_pos hshort]
      exact hrun
    · constructor
      · intro hin
        exact ⟨hin.2, fun hne => absurd hshort hne⟩
      · intro hin
        exact ⟨by omega, hin.1⟩
  · refine ((readOctet_guarded (pos + 1)).bindEq ?_ (S := pos + 18 ≤ msg.length)).congr ?_
    · rw [if_neg hshort]
      refine ((readOctet_guarded (pos + 3)).bindEq ((readOctet_guarded (pos + 4)).bindEq
        ((readOctet_guarded (pos + 5)).bindEq ((readLe_guarded (pos + 6) 4).bindEq
        ((readLe_guarded (pos + 10) 4).bindEq ((readLe_guarded (pos + 14) 4).map
        fun _ _ => trivial)))))).congr ?_
      omega
    · constructor
      · intro hin
        exact ⟨by omega, fun _ => hin.2⟩
      · intro hin
        exact ⟨by omega, hin.2 hshort⟩

theorem noaAttr_guarded (act : NoaActions) (wcid : Nat) (s : Noa) (a : Attr) :
    Guarded (noaAttr act msg wcid s a) (noaFits msg a) (Sum.map (fun _ => ()) id · = .inl ()) := by
  unfold noaAttr noaFits
  by_cases hnoa : SubId.ofEid a.eid = some .noa
  · simp only [if_pos hnoa]
    refine ((p2pHandleNoAAttri_guarded act _ a.pos).map
      (R := (Sum.map (fun _ => ()) id · = .inl ())) fun _ _ => rfl).congr ?_
    simp [hnoa]
  · simp only [if_neg hnoa]
    have hend : Guarded (.ok (.inl s) : Checked (Noa ⊕ Empty)) True
      (Sum.map (fun _ => ()) id · = .inl ()) := .ok rfl
    exact hend.congr (by simp [hnoa])

theorem p2pParseNoASubElmt_guarded (act : NoaActions) (msg : Body) (wcid : Nat) (s : Noa) :
    Guarded (p2pParseNoASubElmt act msg wcid s)
      (msg.length ≠ 0 → BodyFits msg (noaFits msg)) fun _ => True := by
  unfold p2pParseNoASubElmt
  by_cases hzero : msg.length = 0
  · rw [if_pos hzero]
    have hend : Guarded (.ok s : Checked Noa) True fun _ => True := .ok trivial
    exact hend.congr (by simp [hzero])
  · rw [if_neg hzero]
    have helement := everyElement_guarded msg (v := fun _ => ()) (F := fun _ => noaFits msg)
      (noaAttr_guarded act wcid)
    refine ((everyLoop_guarded msg (v := fun _ => ()) (F := fun _ off => off + 6 ≤ msg.length ∧
      WifiDirectFits msg (noaFits msg) off) helement _).map fun _ _ => trivial).congr ?_
    unfold BodyFits
    simp [hzero, and_assoc]

/-- Manageability, and the minor reason if it is asked for. -/
def manageFits (msg : Body) (given : Bool × Bool) (a : Attr) : Prop :=
  match SubId.ofEid a.eid with
  | some .minorReason => given.1 → a.octet 0 + 1 ≤ msg.length
  | some .manageability => given.2 → a.octet 0 + 1 ≤ msg.length
  | _ => True

/-- Which of the two are asked for. -/
def Manage.given (s : Manage) : Bool × Bool := (s.minorReason.isSome, s.manageability.isSome)

theorem manageAttr_guarded (s : Manage) (a : Attr) :
    Guarded (manageAttr msg s a) (manageFits msg s.given a)
      (Sum.map Manage.given id · = .inl s.given) := by
  unfold manageAttr manageFits
  generalize SubId.ofEid a.eid = id
  rcases id with _ | id
  · exact .ok rfl
  · cases id
    case minorReason =>
      refine (octetTo_guarded (a.octet 0) s.minorReason).map fun r hr => ?_
      simp [Manage.given, hr]
    case manageability =>
      refine (octetTo_guarded (a.octet 0) s.manageability).map fun r hr => ?_
      simp [Manage.given, hr]
    all_goals exact .ok rfl

theorem channelUsage_guarded (s : Manage) (off : Nat) :
    Guarded (channelUsage msg s off)
      (off + 1 ≤ msg.length ∧ (octetAt msg off = ieChannelUsage → off + 5 ≤ msg.length))
      (·.given = s.given) := by
  unfold channelUsage
  refine (readOctet_guarded off).bindEq ?_
  by_cases husage : octetAt msg off = ieChannelUsage
  · rw [if_pos husage]
    have hrun : Guarded (do
        let channel ← readOctet msg (off + 4)
        return { s with channel }) (off + 5 ≤ msg.length) fun s' => s'.given = s.given :=
      (readOctet_guarded (off + 4)).map fun _ _ => rfl
    exact hrun.congr (by simp [husage])
  · rw [if_neg husage]
    have hend : Guarded (.ok s : Checked Manage) True (·.given = s.given) := .ok rfl
    exact hend.congr (by simp [husage])

theorem p2pParseManageSubElmt_guarded (msg : Body) (s : Manage) :
    Guarded (p2pParseManageSubElmt msg s)
      (BodyFits msg (manageFits msg s.given) ∧ ∀ off ∈ elements msg 0 msg.length,
        octetAt msg off = ieChannelUsage → off + 5 ≤ msg.length) fun _ => True := by
  unfold p2pParseManageSubElmt
  have helement : ∀ (s : Manage) (off : Nat), Guarded (do
      let s ← channelUsage msg s off
      everyElement msg (manageAttr msg) s off)
      ((off + 1 ≤ msg.length ∧ (octetAt msg off = ieChannelUsage → off + 5 ≤ msg.length)) ∧
        off + 6 ≤ msg.length ∧ WifiDirectFits msg (manageFits msg s.given) off)
      (Sum.map (Prod.map Manage.given id) id · = .inl (s.given, true)) := by
    intro s off
    refine (channelUsage_guarded s off).bind fun s' hs' => ?_
    rw [← hs']
    exact everyElement_guarded msg manageAttr_guarded s' off
  dsimp only
  refine (everyLoop_guarded msg (F := fun given off =>
    (off + 1 ≤ msg.length ∧ (octetAt msg off = ieChannelUsage → off + 5 ≤ msg.length)) ∧
      off + 6 ≤ msg.length ∧ WifiDirectFits msg (manageFits msg given) off) helement _).congr ?_
  have hgiven : ({ s with
      numOfP2pOtherAttribute := s.numOfP2pOtherAttribute.map fun _ => 0
      totalNumOfP2pAttribute := s.totalNumOfP2pAttribute.map fun _ => 0 } : Manage).given =
      s.given := rfl
  rw [hgiven]
  unfold BodyFits
  constructor
  · rintro ⟨htwo, hall⟩
    refine ⟨⟨htwo, fun off hoff => ?_⟩, fun off hoff => ((hall off hoff).1.1).2⟩
    obtain ⟨⟨-, hin, hwifi⟩, hfin⟩ := hall off hoff
    exact ⟨hin, hwifi, hfin⟩
  · rintro ⟨⟨htwo, hall⟩, husage⟩
    refine ⟨htwo, fun off hoff => ?_⟩
    obtain ⟨hin, hwifi, hfin⟩ := hall off hoff
    exact ⟨⟨⟨by omega, husage off hoff⟩, hin, hwifi⟩, hfin⟩

/-! ## 4. The general parser -/

/-- Which outputs of the general parser are given, and what of the channel list is left. -/
structure Given where
  dpid : Bool
  deviceName : Bool
  devAddr : Bool
  interFAddr : Bool
  bssidAddr : Bool
  ssid : Bool
  configMethod : Bool
  wpsConfigMethod : Bool
  devType : Bool
  listenChannel : Bool
  opChannel : Bool
  channelList : Bool
  intent : Bool
  statusCode : Bool
  inviteFlag : Bool
  left : Fin (maxNumOfChannels + 1)

def SubElmt.given (s : SubElmt) : Given where
  dpid := s.dpid.isSome
  deviceName := s.deviceName.isSome
  devAddr := s.devAddr.isSome
  interFAddr := s.interFAddr.isSome
  bssidAddr := s.bssidAddr.isSome
  ssid := s.ssid.isSome
  configMethod := s.configMethod.isSome
  wpsConfigMethod := s.wpsConfigMethod.isSome
  devType := s.devType.isSome
  listenChannel := s.listenChannel.isSome
  opChannel := s.opChannel.isSome
  channelList := s.channelList.isSome
  intent := s.intent.isSome
  statusCode := s.statusCode.isSome
  inviteFlag := s.inviteFlag.isSome
  left := s.channelListLeft

/-- The number of channels a channel list announces. -/
def channels (msg : Body) (a : Attr) : UInt8 := octetAt msg (a.octet 4)

/-- A channel list: the number of its channels is not negative, and if there is room for them they
are there. -/
def channelListFits (msg : Body) (g : Given) (a : Attr) : Prop :=
  g.channelList → a.octet 4 + 1 ≤ msg.length ∧ (channels msg a).toNat < 128 ∧
    ((channels msg a).toNat ≤ g.left → a.octet 5 + (channels msg a).toNat ≤ msg.length)

/-- What is left behind a channel list. -/
def Given.after (msg : Body) (g : Given) (a : Attr) : Given :=
  if SubId.ofEid a.eid = some .channelList ∧ g.channelList ∧
      (channels msg a).toNat < 128 ∧ (channels msg a).toNat ≤ g.left then
    { g with left := takeChannels g.left (channels msg a).toNat }
  else g

/-- A group identifier: so much as its first length octet says. -/
def groupIdFits (msg : Body) (g : Given) (a : Attr) : Prop :=
  g.ssid ∧ 6 < (octetAt msg (a.pos + 1)).toNat ∧ (octetAt msg (a.pos + 1)).toNat ≤ 38 →
    a.octet 0 + (octetAt msg (a.pos + 1)).toNat ≤ msg.length

/-- A device info: its fixed part, four octets where the name is looked for, and the name where it
is copied from. -/
def deviceInfoFits (msg : Body) (g : Given) (a : Attr) : Prop :=
  let types := octetAt msg (a.octet 16)
  let name := a.octet (nameOffset types)
  a.octet 17 ≤ msg.length ∧ name + 4 ≤ msg.length ∧
    (be16 msg name = wscIdDeviceName ∧ be16 msg (name + 2) ≤ 32 ∧ g.deviceName →
      0 ≤ a.octet 21 + charVal types * 8 ∧
        a.octet 21 + charVal types * 8 + be16 msg (name + 2) ≤ (msg.length : Int))

/-- What is read of an attribute is there. -/
def subElmtFits (msg : Body) (g : Given) (a : Attr) : Prop :=
  match SubId.ofEid a.eid with
  | some .inviteFlag => g.inviteFlag → a.octet 1 ≤ msg.length
  | some .cap => a.octet 2 ≤ msg.length
  | some .ownerIntent => g.intent → a.octet 1 ≤ msg.length
  | some .channelList => channelListFits msg g a
  | some .opChannel => g.opChannel → a.octet 5 ≤ msg.length
  | some .listenChannel => g.listenChannel → a.octet 5 ≤ msg.length
  | some .groupBssid => g.bssidAddr → a.octet 6 ≤ msg.length
  | some .interfaceAddr => g.interFAddr → a.octet 6 ≤ msg.length
  | some .deviceId => g.devAddr → a.octet 6 ≤ msg.length
  | some .groupId => groupIdFits msg g a
  | some .deviceInfo => deviceInfoFits msg g a
  | some .status => g.statusCode → a.octet 1 ≤ msg.length
  | _ => True

theorem charVal_neg {b : UInt8} : charVal b < 0 ↔ ¬ b.toNat < 128 := by
  have hb := b.toNat_lt
  unfold charVal
  split <;> omega

theorem channelListAttr_guarded (s : SubElmt) (a : Attr)
    (hid : SubId.ofEid a.eid = some .channelList) :
    Guarded (channelListAttr msg s a) (channelListFits msg s.given a)
      (·.given = s.given.after msg a) := by
  unfold channelListAttr channelListFits Given.after
  cases hlist : s.channelList with
  | none =>
    have hgiven : s.given.channelList = false := by
      unfold SubElmt.given
      rw [hlist]
      rfl
    rw [hgiven, if_neg (by simp)]
    have hend : Guarded (.ok s : Checked SubElmt) True (·.given = s.given) := .ok rfl
    exact hend.congr (by simp)
  | some dst =>
  have hgiven : s.given.channelList = true := by
    unfold SubElmt.given
    rw [hlist]
    rfl
  have hleft : s.given.left = s.channelListLeft := rfl
  have hmax : s.channelListLeft.val ≤ 54 := Nat.le_of_lt_succ s.channelListLeft.2
  unfold channels
  refine ((readOctet_guarded (a.octet 4)).bindEq ?_ (S := (octetAt msg (a.octet 4)).toNat < 128 ∧
    ((octetAt msg (a.octet 4)).toNat ≤ s.given.left → a.octet 5 + (octetAt msg (a.octet 4)).toNat ≤
      msg.length))).congr (by simp [hgiven])
  generalize octetAt msg (a.octet 4) = n
  have hn := n.toNat_lt
  by_cases hneg : charVal n < 0
  · rw [if_pos hneg]
    have hbig := charVal_neg.mp hneg
    refine ((moveMemory_guarded (a.octet 5) _ dst _).map fun _ _ => ?_).congr ?_
    · rw [if_neg fun h => hbig h.2.2.1]
      unfold SubElmt.given
      rw [hlist]
      rfl
    · unfold maxNumOfChannels
      omega
  rw [if_neg hneg]
  have hsmall : n.toNat < 128 := by
    by_contra hbig
    exact hneg (charVal_neg.mpr hbig)
  by_cases hroom : n.toNat ≤ s.channelListLeft
  · rw [if_pos hroom, if_pos ⟨hid, hgiven, hsmall, hroom⟩]
    refine ((moveMemory_guarded (a.octet 5) _ dst _).map fun _ _ => ?_).congr ?_
    · unfold SubElmt.given
      rw [hlist]
      rfl
    · rw [hleft]
      unfold maxNumOfChannels
      omega
  · rw [if_neg hroom, if_neg fun h => hroom h.2.2.2]
    have hend : Guarded (.ok s : Checked SubElmt) True (·.given = s.given) := .ok rfl
    exact hend.congr ⟨fun _ => ⟨hsmall, fun h => absurd h hroom⟩, fun _ => trivial⟩

theorem groupIdAttr_guarded (s : SubElmt) (a : Attr) :
    Guarded (groupIdAttr msg s a) (groupIdFits msg s.given a) (·.given = s.given) := by
  unfold groupIdAttr groupIdFits
  dsimp only
  by_cases hlen : s.ssid.isSome ∧ 6 < (octetAt msg (a.pos + 1)).toNat ∧
      (octetAt msg (a.pos + 1)).toNat ≤ 38
  · rw [if_pos hlen]
    have hroom : (octetAt msg (a.pos + 1)).toNat - 6 ≤ 32 := by omega
    refine ((moveTo_guarded (a.octet 6) _ hroom s.ssid).map fun r hr => ?_).congr ?_
    · unfold SubElmt.given
      rw [hr]
    · unfold Attr.octet
      constructor
      · intro hin _
        have := hin hlen.1
        omega
      · intro hin _
        have := hin hlen
        omega
  · rw [if_neg hlen]
    have hend : Guarded (.ok s : Checked SubElmt) True (·.given = s.given) := .ok rfl
    exact hend.congr ⟨fun _ h => absurd h hlen, fun _ => trivial⟩

theorem moveFrom_guarded (i : Int) (n : Nat) {m : Nat} (h : n ≤ m) (dst : Octets m) :
    Guarded (moveFrom msg i n dst) (0 ≤ i ∧ i + n ≤ (msg.length : Int)) fun _ => True := by
  unfold moveFrom
  by_cases hi : 0 ≤ i
  · rw [if_pos hi]
    refine ((moveMemory_guarded _ n dst 0).imp fun _ _ => trivial).congr ?_
    omega
  · rw [if_neg hi]
    exact Guarded.error.congr (by simp [hi])

/-- The part of a device info behind its fixed one. -/
theorem deviceNameAttr_guarded (s : SubElmt) (a : Attr) :
    Guarded (deviceNameAttr msg s a) (deviceInfoFits msg s.given a) (·.given = s.given) := by
  unfold deviceNameAttr deviceInfoFits
  dsimp only
  have hfixed : a.octet 16 + 1 = a.octet 17 := rfl
  refine ((readOctet_guarded (a.octet 16)).bindEq ?_).congr (by rw [hfixed])
  generalize octetAt msg (a.octet 16) = types
  have hname : a.octet (nameOffset types + 2) = a.octet (nameOffset types) + 2 := rfl
  rw [hname]
  generalize a.octet (nameOffset types) = name
  have hgiven : s.given.deviceName = s.deviceName.isSome := rfl
  rw [hgiven]
  refine ((readBe16_guarded name).bindEq ((readBe16_guarded (name + 2)).bindEq
    (S := be16 msg name = wscIdDeviceName ∧ be16 msg (name + 2) ≤ 32 ∧ s.deviceName.isSome →
      0 ≤ a.octet 21 + charVal types * 8 ∧
        a.octet 21 + charVal types * 8 + be16 msg (name + 2) ≤ (msg.length : Int)) ?_)).congr ?_
  · by_cases hfound : be16 msg name = wscIdDeviceName ∧ be16 msg (name + 2) ≤ 32
    · rw [if_pos hfound]
      cases hdst : s.deviceName with
      | none =>
        have hend : Guarded (.ok s : Checked SubElmt) True (·.given = s.given) := .ok rfl
        exact hend.congr (by simp)
      | some dst =>
        refine ((moveFrom_guarded _ _ hfound.2 dst).map fun _ _ => ?_).congr ?_
        · unfold SubElmt.given
          rw [hdst]
          rfl
        · exact ⟨fun hin _ => hin, fun hin => hin ⟨hfound.1, hfound.2, rfl⟩⟩
    · rw [if_neg hfound]
      have hend : Guarded (.ok s : Checked SubElmt) True (·.given = s.given) := .ok rfl
      exact hend.congr ⟨fun _ h => absurd ⟨h.1, h.2.1⟩ hfound, fun _ => trivial⟩
  · constructor
    · intro hin
      exact ⟨by omega, hin.2.2⟩
    · intro hin
      exact ⟨by omega, by omega, hin.2⟩

theorem deviceInfoAttr_guarded (s : SubElmt) (a : Attr) :
    Guarded (deviceInfoAttr msg s a) (deviceInfoFits msg s.given a) (·.given = s.given) := by
  unfold deviceInfoAttr
  refine ((moveTo_guarded (a.octet 0) 6 (m := 6) (by omega) s.devAddr).bind fun r₁ h₁ =>
    (wordTo_guarded (a.octet 6) s.configMethod).bind fun r₂ h₂ =>
    (moveTo_guarded (a.octet 8) 8 (m := 8) (by omega) s.devType).bind
      (S := deviceInfoFits msg s.given a) fun r₃ h₃ => ?_).congr ?_
  · have hgiven : ({ s with devAddr := r₁, configMethod := r₂, devType := r₃ } : SubElmt).given =
        s.given := by
      unfold SubElmt.given
      rw [h₁, h₂, h₃]
    rw [← hgiven]
    exact deviceNameAttr_guarded _ a
  · unfold deviceInfoFits Attr.octet
    constructor
    · intro hin
      exact hin.2.2.2
    · intro hin
      have h17 := hin.1
      exact ⟨fun _ => by omega, fun _ => by omega, fun _ => by omega, hin⟩

theorem Given.after_of_ne {g : Given} {a : Attr} (h : SubId.ofEid a.eid ≠ some .channelList) :
    g.after msg a = g := if_neg fun hc => h hc.1

/-- An attribute of the general parser. -/
theorem subElmtAttr_guarded (s : SubElmt) (a : Attr) :
    Guarded (subElmtAttr msg s a) (subElmtFits msg s.given a) (·.given = s.given.after msg a) := by
  by_cases hlist : SubId.ofEid a.eid = some .channelList
  · unfold subElmtAttr subElmtFits
    simp only [hlist]
    exact channelListAttr_guarded s a hlist
  rw [Given.after_of_ne hlist]
  unfold subElmtAttr subElmtFits
  revert hlist
  generalize SubId.ofEid a.eid = id
  intro hlist
  rcases id with _ | id
  · exact .ok rfl
  cases id
  case channelList => exact absurd rfl hlist
  case inviteFlag =>
    refine (octetTo_guarded (a.octet 0) s.inviteFlag).map fun r hr => ?_
    simp only [SubElmt.given, hr]
  case cap =>
    refine ((readOctet_guarded (a.octet 1)).bindEq (S := a.octet 0 + 1 ≤ msg.length) ?_).congr ?_
    · exact (readOctet_guarded (a.octet 0)).map fun _ _ => rfl
    · unfold Attr.octet
      omega
  case ownerIntent =>
    refine (octetTo_guarded (a.octet 0) s.intent).map fun r hr => ?_
    simp only [SubElmt.given, hr]
  case opChannel =>
    refine (octetTo_guarded (a.octet 4) s.opChannel).map fun r hr => ?_
    simp only [SubElmt.given, hr]
  case listenChannel =>
    refine (octetTo_guarded (a.octet 4) s.listenChannel).map fun r hr => ?_
    simp only [SubElmt.given, hr]
  case groupBssid =>
    refine (moveTo_guarded (a.octet 0) 6 (by omega) s.bssidAddr).map fun r hr => ?_
    simp only [SubElmt.given, hr]
  case interfaceAddr =>
    refine (moveTo_guarded (a.octet 0) 6 (by omega) s.interFAddr).map fun r hr => ?_
    simp only [SubElmt.given, hr]
  case deviceId =>
    refine (moveTo_guarded (a.octet 0) 6 (by omega) s.devAddr).map fun r hr => ?_
    simp only [SubElmt.given, hr]
  case groupId => exact groupIdAttr_guarded s a
  case deviceInfo => exact deviceInfoAttr_guarded s a
  case status =>
    refine (octetTo_guarded (a.octet 0) s.statusCode).map fun r hr => ?_
    simp only [SubElmt.given, hr]
  all_goals exact .ok rfl

/-- The attributes of an element of the general parser that is `len` octets long and has them from
`pos` on. -/
def subElmtAttrList (msg : Body) (pos len : Nat) : List Attr :=
  attrs ⟨256, true⟩ msg (pos + (len - 4)) pos (attriLen msg 8 pos)

/-- Such an element is long enough for its OUI, and its attributes fit. -/
def SubElmtAttrsFit (msg : Body) (g : Given) (pos len : Nat) : Prop :=
  4 ≤ len ∧ pos + 3 ≤ msg.length ∧
    AllFit (AttrFits ⟨256, true⟩ msg (pos + (len - 4)) (subElmtFits msg)
      fun g a => (.inl (g.after msg a) : Given ⊕ Empty))
      (fun g a => (.inl (g.after msg a) : Given ⊕ Empty)) g (subElmtAttrList msg pos len)

theorem subElmtAttrs_guarded (s : SubElmt) (pos len : Nat) :
    Guarded (subElmtAttrs msg s pos len) (SubElmtAttrsFit msg s.given pos len)
      (·.given = (subElmtAttrList msg pos len).foldl (Given.after msg) s.given) := by
  unfold subElmtAttrs SubElmtAttrsFit
  refine (Guarded.sub len 4).bindEq ((readAttriLen_guarded 8 pos).bindEq ?_)
  have hstep : ∀ (s : SubElmt) (a : Attr), Guarded (do
      return .inl (← subElmtAttr msg s a) : Checked (SubElmt ⊕ Empty)) (subElmtFits msg s.given a)
      (Sum.map SubElmt.given id · = .inl (s.given.after msg a)) :=
    fun s a => (subElmtAttr_guarded s a).map fun r hr => congrArg Sum.inl hr
  have hloop := attrLoop_guarded msg (F := subElmtFits msg) (E := fun g a => .inl (g.after msg a)) hstep
    ⟨256, true⟩ s pos (attriLen msg 8 pos) (rfl : pos + (len - 4) = pos + (len - 4))
  refine (fallThrough_guarded hloop).imp fun r hr => ?_
  rw [Checked.walkWhile_inl] at hr
  exact Sum.inl.inj hr

/-- The attributes of a WPS element that its loop comes by: where they are, and what is left of the
element. -/
def wpsItems (msg : Body) (pos length : Nat) : List (Nat × Nat) :=
  if 4 < length then
    (pos, length) ::
      if be16 msg (pos + 2) ≤ length - 4 then
        wpsItems msg (pos + 4 + be16 msg (pos + 2)) (length - 4 - be16 msg (pos + 2))
      else []
  else []
termination_by length

/-- What is read of an attribute of a WPS element, for the outputs that are given. -/
def wpsAttrFits (msg : Body) (names : Bool) (g : Given) (type pos : Nat) : Prop :=
  if type = wscIdDeviceName then names ∧ g.deviceName → pos + 32 ≤ msg.length
  else if type = wscIdDevicePwdId then g.dpid → pos + 2 ≤ msg.length
  else if type = wscIdConfigMethods then g.wpsConfigMethod → pos + 2 ≤ msg.length
  else True

/-- An attribute of a WPS element that fits: it is not longer than what is left of the element. -/
def WpsItemFits (msg : Body) (names : Bool) (g : Given) (i : Nat × Nat) : Prop :=
  i.1 + 4 ≤ msg.length ∧ wpsAttrFits msg names g (be16 msg i.1) (i.1 + 4) ∧
    be16 msg (i.1 + 2) ≤ i.2 - 4

theorem wpsAttr_guarded (names : Bool) (s : SubElmt) (type pos len : Nat) :
    Guarded (wpsAttr msg names s type pos len) (wpsAttrFits msg names s.given type pos)
      (·.given = s.given) := by
  have hend : Guarded (.ok s : Checked SubElmt) True (·.given = s.given) := .ok rfl
  unfold wpsAttr wpsAttrFits
  by_cases hname : type = wscIdDeviceName
  · rw [if_pos hname, if_pos hname]
    cases names with
    | false => exact hend.congr (by simp)
    | true =>
      refine ((moveTo_guarded pos 32 (by omega) s.deviceName).map fun r hr => ?_).congr ?_
      · simp only [SubElmt.given, hr]
      · simp [SubElmt.given]
  rw [if_neg hname, if_neg hname]
  by_cases hpwd : type = wscIdDevicePwdId
  · rw [if_pos hpwd, if_pos hpwd]
    refine (wordTo_guarded pos s.dpid).map fun r hr => ?_
    simp only [SubElmt.given, hr]
  rw [if_neg hpwd, if_neg hpwd]
  by_cases hmethods : type = wscIdConfigMethods
  · rw [if_pos hmethods, if_pos hmethods]
    refine (wordTo_guarded pos s.wpsConfigMethod).map fun r hr => ?_
    simp only [SubElmt.given, hr]
  · rw [if_neg hmethods, if_neg hmethods]
    exact hend

/-- A step of the loop over a WPS element. -/
def wpsStep (msg : Body) (names : Bool) (s : SubElmt) (i : Nat × Nat) :
    Checked (SubElmt ⊕ Empty) := do
  let type ← readBe16 msg i.1
  let len ← readBe16 msg (i.1 + 2)
  let s ← wpsAttr msg names s type (i.1 + 4) len
  if len ≤ i.2 - 4 then return .inl s else .error .underflow

theorem wpsStep_guarded (names : Bool) (s : SubElmt) (i : Nat × Nat) :
    Guarded (wpsStep msg names s i) (WpsItemFits msg names s.given i)
      (Sum.map SubElmt.given id · = .inl s.given) := by
  unfold wpsStep WpsItemFits
  refine ((readBe16_guarded i.1).bindEq ((readBe16_guarded (i.1 + 2)).bindEq
    ((wpsAttr_guarded names s _ (i.1 + 4) _).bind (S := be16 msg (i.1 + 2) ≤ i.2 - 4)
      fun s' hs' => ?_))).congr ?_
  · by_cases hlen : be16 msg (i.1 + 2) ≤ i.2 - 4
    · rw [if_pos hlen]
      have hend : Guarded (.ok (.inl s') : Checked (SubElmt ⊕ Empty)) True
        (Sum.map SubElmt.given id · = .inl s.given) := .ok (congrArg Sum.inl hs')
      exact hend.congr (by simp [hlen])
    · rw [if_neg hlen]
      exact Guarded.error.congr (by simp [hlen])
  · constructor
    · intro hin
      exact ⟨by omega, hin.2.2⟩
    · intro hin
      exact ⟨by omega, by omega, hin.2⟩

theorem wpsLoop_eq (names : Bool) (s : SubElmt) (pos length : Nat) :
    wpsLoop msg names s pos length =
      fallThrough (foldWhile (wpsStep msg names) s (wpsItems msg pos length)) := by
  fun_induction wpsItems msg pos length generalizing s with
  | case1 pos length hmore ih =>
    rw [wpsLoop, if_pos hmore, foldWhile, wpsStep]
    dsimp only
    cases readBe16 msg pos with
    | error e => rfl
    | ok type =>
    cases hread : readBe16 msg (pos + 2) with
    | error e => rfl
    | ok len =>
    have hlen' : len = be16 msg (pos + 2) := (readBe16_guarded (pos + 2)).post _ hread
    subst hlen'
    dsimp only [Checked.ok_bind]
    cases wpsAttr msg names s type (pos + 4) (be16 msg (pos + 2)) with
    | error e => rfl
    | ok s' =>
      dsimp only [Checked.ok_bind]
      by_cases hlen : be16 msg (pos + 2) ≤ length - 4
      · rw [if_pos hlen, if_pos hlen, if_pos hlen, ih s']
        rfl
      · rw [if_neg hlen, if_neg hlen]
        rfl
  | case2 pos length hmore =>
    rw [wpsLoop, if_neg hmore, foldWhile]
    rfl

/-- A WPS element that fits: it is long enough for its OUI, and its attributes fit. -/
def WpsFits (msg : Body) (names : Bool) (g : Given) (pos wpsLen : Nat) : Prop :=
  6 ≤ wpsLen ∧ ∀ i ∈ wpsItems msg (pos + 4) (wpsLen - 6), WpsItemFits msg names g i

theorem p2pParseWpsIe_guarded (names : Bool) (s : SubElmt) (pos wpsLen : Nat) :
    Guarded (p2pParseWpsIe msg names s pos wpsLen) (WpsFits msg names s.given pos wpsLen)
      (·.given = s.given) := by
  unfold p2pParseWpsIe WpsFits
  refine (Guarded.sub wpsLen 6).bindEq ?_
  have hgiven : (if names then { s with deviceNameLen := s.deviceNameLen.map fun _ => 0 }
      else s : SubElmt).given = s.given := by
    split <;> rfl
  rw [← hgiven]
  generalize (if names then { s with deviceNameLen := s.deviceNameLen.map fun _ => 0 }
      else s : SubElmt) = s
  rw [wpsLoop_eq]
  have hloop := Guarded.foldWhile (v := SubElmt.given) (u := id) (F := WpsItemFits msg names)
    (E := fun g _ => .inl g) (wpsStep_guarded names) s (wpsItems msg (pos + 4) (wpsLen - 6))
  rw [Checked.allFit_iff_forall] at hloop
  refine (fallThrough_guarded hloop).imp fun r hr => ?_
  rw [Checked.walkWhile_inl, List.foldl_fixed] at hr
  exact Sum.inl.inj hr

/-- The length of an element by its one octet, and by both. -/
def ieLen (msg : Body) (off : Nat) : Nat := (octetAt msg (off + 1)).toNat

def ieLen2 (msg : Body) (off : Nat) : Nat := ieLen msg off + (octetAt msg (off + 2)).toNat * 256

/-- An element of the general parser that fits. -/
def SubElmtElementFits (msg : Body) (bBeacon : Bool) (g : Given) (off : Nat) : Prop :=
  off + 6 ≤ msg.length ∧
    if isAt msg wpsOui (off + 2) then WpsFits msg bBeacon g (off + 2) (ieLen msg off + 2)
    else off + 7 ≤ msg.length ∧
      if isAt msg wifidirectOui (off + 3) then SubElmtAttrsFit msg g (off + 7) (ieLen2 msg off)
      else
        isAt msg wifidirectOui (off + 2) = true → SubElmtAttrsFit msg g (off + 6) (ieLen msg off)

/-- What an element leaves of the room for channels. -/
def Given.afterElement (msg : Body) (g : Given) (off : Nat) : Given :=
  if isAt msg wpsOui (off + 2) then g
  else if isAt msg wifidirectOui (off + 3) then
    (subElmtAttrList msg (off + 7) (ieLen2 msg off)).foldl (Given.after msg) g
  else if isAt msg wifidirectOui (off + 2) then
    (subElmtAttrList msg (off + 6) (ieLen msg off)).foldl (Given.after msg) g
  else g

theorem subElmtElement_guarded (bBeacon : Bool) (s : SubElmt) (off : Nat) :
    Guarded (subElmtElement msg bBeacon s off) (SubElmtElementFits msg bBeacon s.given off)
      (·.given = s.given.afterElement msg off) := by
  unfold subElmtElement SubElmtElementFits Given.afterElement
  refine (readEqual_guarded wpsOui (off + 2)).bindEq ?_
  by_cases hwps : isAt msg wpsOui (off + 2) = true
  · rw [if_pos hwps, if_pos hwps, if_pos hwps]
    exact p2pParseWpsIe_guarded bBeacon s (off + 2) _
  rw [if_neg hwps, if_neg hwps, if_neg hwps]
  by_cases hlong : isAt msg wifidirectOui (off + 3) = true
  · refine (readEqual_guarded wifidirectOui (off + 3)).bindEq ?_
    rw [if_pos hlong, if_pos hlong, if_pos hlong]
    exact subElmtAttrs_guarded s (off + 7) _
  rw [if_neg hlong, if_neg hlong]
  have hshort : Guarded (do
      if ← readEqual msg wifidirectOui (off + 2) then subElmtAttrs msg s (off + 6) (ieLen msg off)
      else return s)
      (off + 6 ≤ msg.length ∧ (isAt msg wifidirectOui (off + 2) = true →
        SubElmtAttrsFit msg s.given (off + 6) (ieLen msg off)))
      (·.given = if isAt msg wifidirectOui (off + 2) then
        (subElmtAttrList msg (off + 6) (ieLen msg off)).foldl (Given.after msg) s.given
        else s.given) := by
    refine (readEqual_guarded wifidirectOui (off + 2)).bindEq ?_
    by_cases houi : isAt msg wifidirectOui (off + 2) = true
    · rw [if_pos houi, if_pos houi]
      exact (subElmtAttrs_guarded s (off + 6) _).congr (by simp [houi])
    · rw [if_neg houi, if_neg houi]
      have hend : Guarded (.ok s : Checked SubElmt) True (·.given = s.given) := .ok rfl
      exact hend.congr (by simp [houi])
  refine ((readEqual_guarded wifidirectOui (off + 3)).bindEq ?_ (S := off + 6 ≤ msg.length ∧
    (isAt msg wifidirectOui (off + 2) = true →
      SubElmtAttrsFit msg s.given (off + 6) (ieLen msg off)))).congr ?_
  · rw [if_neg hlong]
    exact hshort
  · constructor
    · intro hin
      exact ⟨hin.1, hin.2.2⟩
    · intro hin
      exact ⟨hin.1, Nat.le_of_succ_le hin.1, hin.2⟩

theorem readIeLen_guarded (off : Nat) :
    Guarded (readIeLen msg off) (off + 7 ≤ msg.length)
      (· = if isAt msg wifidirectOui (off + 3) then ieLen2 msg off + 1 else ieLen msg off) := by
  unfold readIeLen
  by_cases hlong : isAt msg wifidirectOui (off + 3) = true
  · rw [if_pos hlong]
    refine ((readOctet_guarded (off + 1)).bindEq ((readEqual_guarded wifidirectOui
      (off + 3)).bindEq ?_ (S := off + 3 ≤ msg.length))).congr ?_
    · rw [if_pos hlong]
      refine (readOctet_guarded (off + 2)).map fun r hr => ?_
      rw [hr]
      rfl
    · change (off + 1 + 1 ≤ msg.length ∧ off + 3 + 4 ≤ msg.length ∧ off + 3 ≤ msg.length) ↔ _
      omega
  · rw [if_neg hlong]
    refine ((readOctet_guarded (off + 1)).bindEq ((readEqual_guarded wifidirectOui
      (off + 3)).bindEq ?_ (S := True))).congr ?_
    · rw [if_neg hlong]
      exact .ok rfl
    · change (off + 1 + 1 ≤ msg.length ∧ off + 3 + 4 ≤ msg.length ∧ True) ↔ _
      rw [and_true]
      omega

/-- The elements that the general parser comes by, with the length up to the end of each. -/
def subElements (msg : Body) (off accu : Nat) : List (Nat × Nat) :=
  if accu ≤ msg.length then
    (off, accu) ::
      if msg.length ≤ accu ∨ isAt msg wifidirectOui (off + 3) then []
      else subElements msg (elementFin msg off) (accu + 2 +
        if isAt msg wifidirectOui (elementFin msg off + 3) then ieLen2 msg (elementFin msg off) + 1
        else ieLen msg (elementFin msg off))
  else []
termination_by msg.length + 1 - accu

/-- A step of its loop: the element, and behind one that is not the last the length of the next. -/
def subElmtStep (msg : Body) (bBeacon : Bool) (s : SubElmt) (i : Nat × Nat) :
    Checked (SubElmt ⊕ Empty) := do
  let s ← subElmtElement msg bBeacon s i.1
  if msg.length ≤ i.2 then return .inl s
  else if ← readEqual msg wifidirectOui (i.1 + 3) then return .inl s
  else do
    let _ ← readIeLen msg (elementFin msg i.1)
    return .inl s

/-- An element that fits, with seven octets behind one that is not the last. -/
def SubItemFits (msg : Body) (bBeacon : Bool) (g : Given) (i : Nat × Nat) : Prop :=
  SubElmtElementFits msg bBeacon g i.1 ∧
    (i.2 < msg.length → i.1 + 7 ≤ msg.length ∧
      (isAt msg wifidirectOui (i.1 + 3) = false → elementFin msg i.1 + 7 ≤ msg.length))

theorem subElmtStep_guarded (bBeacon : Bool) (s : SubElmt) (i : Nat × Nat) :
    Guarded (subElmtStep msg bBeacon s i) (SubItemFits msg bBeacon s.given i)
      (Sum.map SubElmt.given id · = .inl (s.given.afterElement msg i.1)) := by
  unfold subElmtStep SubItemFits
  refine (subElmtElement_guarded bBeacon s i.1).bind fun s' hs' => ?_
  have hend : Guarded (.ok (.inl s') : Checked (SubElmt ⊕ Empty)) True
      (Sum.map SubElmt.given id · = .inl (s.given.afterElement msg i.1)) :=
    .ok (congrArg Sum.inl hs')
  by_cases hlast : msg.length ≤ i.2
  · rw [if_pos hlast]
    exact hend.congr ⟨fun _ h => absurd hlast (Nat.not_le.mpr h), fun _ => trivial⟩
  · rw [if_neg hlast]
    have hmore : i.2 < msg.length := Nat.lt_of_not_le hlast
    refine ((readEqual_guarded wifidirectOui (i.1 + 3)).bindEq ?_ (S :=
      isAt msg wifidirectOui (i.1 + 3) = false → elementFin msg i.1 + 7 ≤ msg.length)).congr ?_
    · cases isAt msg wifidirectOui (i.1 + 3) with
      | true => exact hend.congr (by simp)
      | false =>
        have hnext : Guarded (do
            let _ ← readIeLen msg (elementFin msg i.1)
            return .inl s' : Checked (SubElmt ⊕ Empty)) (elementFin msg i.1 + 7 ≤ msg.length)
            (Sum.map SubElmt.given id · = .inl (s.given.afterElement msg i.1)) :=
          (readIeLen_guarded (elementFin msg i.1)).map fun _ _ => congrArg Sum.inl hs'
        exact hnext.congr (by simp)
    · exact ⟨fun hin _ => hin, fun hin => hin hmore⟩

theorem subElmtLoop_eq (bBeacon : Bool) (s : SubElmt) (off accu : Nat) :
    subElmtLoop msg bBeacon s off accu =
      fallThrough (foldWhile (subElmtStep msg bBeacon) s (subElements msg off accu)) := by
  fun_induction subElements msg off accu generalizing s with
  | case1 off accu hin ih =>
    rw [subElmtLoop, if_pos hin, foldWhile, subElmtStep]
    dsimp only
    cases subElmtElement msg bBeacon s off with
    | error e => rfl
    | ok s' =>
    dsimp only [Checked.ok_bind]
    by_cases hlast : msg.length ≤ accu
    · rw [if_pos hlast, if_pos hlast, if_pos (.inl hlast)]
      rfl
    rw [if_neg hlast, if_neg hlast]
    cases hread : readEqual msg wifidirectOui (off + 3) with
    | error e => rfl
    | ok long =>
    have hlong : long = isAt msg wifidirectOui (off + 3) :=
      (readEqual_guarded wifidirectOui (off + 3)).post _ hread
    subst hlong
    dsimp only [Checked.ok_bind]
    by_cases hlong : isAt msg wifidirectOui (off + 3) = true
    · rw [if_pos hlong, if_pos hlong, if_pos (.inr hlong)]
      rfl
    have hgoes : ¬ (msg.length ≤ accu ∨ isAt msg wifidirectOui (off + 3) = true) := by tauto
    rw [if_neg hlong, if_neg hlong, if_neg hgoes]
    change (readIeLen msg (elementFin msg off) >>= fun len =>
      subElmtLoop msg bBeacon s' (elementFin msg off) (accu + 2 + len)) = _
    cases hnext : readIeLen msg (elementFin msg off) with
    | error e => rfl
    | ok len =>
      have hlen := (readIeLen_guarded (elementFin msg off)).post _ hnext
      subst hlen
      exact ih hgoes s'
  | case2 off accu hin =>
    rw [subElmtLoop, if_neg hin, foldWhile]
    rfl

/-- A body that the general parser stays inside of: it has seven octets, and the elements fit that
the parser comes by. -/
def SubElmtBodyFits (msg : Body) (bBeacon : Bool) (g : Given) : Prop :=
  7 ≤ msg.length ∧
    AllFit (SubItemFits msg bBeacon)
      (fun g i => (.inl (g.afterElement msg i.1) : Given ⊕ Empty)) g
      (subElements msg 0 (2 +
        if isAt msg wifidirectOui 3 then ieLen2 msg 0 + 1 else ieLen msg 0))

theorem p2pParseSubElmt_guarded (msg : Body) (bBeacon : Bool) (s : SubElmt) :
    Guarded (p2pParseSubElmt msg bBeacon s)
      (msg.length ≠ 0 → SubElmtBodyFits msg bBeacon s.given) fun _ => True := by
  unfold p2pParseSubElmt
  by_cases hzero : msg.length = 0
  · rw [if_pos hzero]
    have hend : Guarded (.ok s : Checked SubElmt) True fun _ => True := .ok trivial
    exact hend.congr (by simp [hzero])
  · rw [if_neg hzero]
    refine ((readIeLen_guarded 0).bindEq ?_).congr (imp_iff_right hzero).symm
    rw [subElmtLoop_eq]
    have hloop := Guarded.foldWhile (v := SubElmt.given) (u := id) (F := SubItemFits msg bBeacon)
      (E := fun g i => .inl (g.afterElement msg i.1)) (subElmtStep_guarded bBeacon) s
      (subElements msg 0 (2 +
        if isAt msg wifidirectOui (0 + 3) then ieLen2 msg 0 + 1 else ieLen msg 0))
    exact (fallThrough_guarded hloop).imp fun _ _ => trivial

/-! ## 5. The peers of a group -/

/-- What is read of a descriptor that has an entry, and a name that leaves room for the zero behind
it. -/
def storeClientFits (msg : Body) (pos : Nat) (e : P2pEntry) : Prop :=
  pos + 61 + secondaryLen msg pos ≤ msg.length ∧
    (be16 msg (pos + 27 + secondaryLen msg pos) ≤ 32 →
      be16 msg (pos + 27 + secondaryLen msg pos) < 32) ∧
    (32 < be16 msg (pos + 27 + secondaryLen msg pos) → e.deviceNameLen < 32)

/-- The entry behind a descriptor. -/
def clientStored (msg : Body) (pos p2pindex : Nat) (e : P2pEntry) : P2pEntry :=
  let wscLen := be16 msg (pos + 27 + secondaryLen msg pos)
  let deviceNameLen := if wscLen ≤ 32 then wscLen else e.deviceNameLen
  let deviceName : Octets 32 := .ofList 32 (Mem.write e.deviceName.toList 0
    (Mem.read msg (pos + 29 + secondaryLen msg pos) 32))
  { e with
    p2pClientState :=
      if e.p2pClientState = .clientDiscoCommand then .clientDiscoCommand else .discoveryClient
    devCapability := octetAt msg (pos + 13)
    configMethod := be16 msg (pos + 14)
    primaryDevType :=
      .ofList 8 (Mem.write e.primaryDevType.toList 0 (Mem.read msg (pos + 16) 8))
    numSecondaryType := octetAt msg (pos + 24)
    deviceNameLen
    deviceName := .ofList 32 (Mem.write deviceName.toList deviceNameLen [0])
    myGoIndex := p2pindex }

theorem storeClient_guarded (pos p2pindex : Nat) (e : P2pEntry) :
    Guarded (storeClient msg pos p2pindex e) (storeClientFits msg pos e)
      (· = clientStored msg pos p2pindex e) := by
  unfold storeClient
  generalize hlen : (if be16 msg (pos + 27 + secondaryLen msg pos) ≤ 32 then
    be16 msg (pos + 27 + secondaryLen msg pos) else e.deviceNameLen) = len
  refine ((readOctet_guarded (pos + 13)).bindEq ((readBe16_guarded (pos + 14)).bindEq
    ((moveMemory_guarded (pos + 16) 8 e.primaryDevType 0).bindEq
    ((readOctet_guarded (pos + 24)).bindEq
    ((readBe16_guarded (pos + 25 + secondaryLen msg pos)).bindEq
    ((readBe16_guarded (pos + 27 + secondaryLen msg pos)).bindEq
    ((moveMemory_guarded (pos + 29 + secondaryLen msg pos) 32 e.deviceName 0).bindEq
    (S := len + 1 ≤ 32) ?_))))))).congr ?_
  · rw [hlen]
    refine (Guarded.access 32 len 1).map fun _ _ => ?_
    unfold clientStored
    rw [← hlen]
  · unfold storeClientFits
    rw [← hlen]
    split <;> omega

/-- The descriptors that the loop comes by: where they are, and what is left of the attribute. -/
def clientItems (msg : Body) (pos groupInfoLen : Nat) : List (Nat × Nat) :=
  if 0 < groupInfoLen then
    if octetAt msg pos < 23 ∨ groupInfoLen < (octetAt msg pos).toNat then []
    else (pos, groupInfoLen) :: clientItems msg (pos + 1 + (octetAt msg pos).toNat)
      (groupInfoLen - ((octetAt msg pos).toNat + 1))
  else []
termination_by groupInfoLen
decreasing_by exact Nat.sub_lt ‹_› (Nat.succ_pos _)

/-- The length of a descriptor, if there is anything left. -/
def readLength (msg : Body) (pos groupInfoLen : Nat) : Checked Unit :=
  if 0 < groupInfoLen then do
    let _ ← readOctet msg pos
    return ()
  else return ()

theorem readLength_guarded (pos groupInfoLen : Nat) :
    Guarded (readLength msg pos groupInfoLen) (0 < groupInfoLen → pos + 1 ≤ msg.length)
      fun _ => True := by
  unfold readLength
  by_cases hmore : 0 < groupInfoLen
  · rw [if_pos hmore]
    exact ((readOctet_guarded pos).map fun _ _ => trivial).congr (by simp [hmore])
  · rw [if_neg hmore]
    exact (Guarded.ok trivial).congr (by simp [hmore])

/-- What is left of the attribute behind a descriptor. -/
def behind (msg : Body) (i : Nat × Nat) : Nat := i.2 - ((octetAt msg i.1).toNat + 1)

/-- A step of the loop over the descriptors, and the length of the one behind. -/
def clientStep (env : GroupEnv) (msg : Body) (t : P2pTable) (i : Nat × Nat) :
    Checked (P2pTable ⊕ P2pTable) := do
  Checked.access msg.length (i.1 + 1) 6
  match placeClient env.currentAddress t env.p2pindex (devAddrAt msg i.1) with
  | .inr t => return .inr t
  | .inl (t, none) => do
    readLength msg (i.1 + 1 + (octetAt msg i.1).toNat) (behind msg i)
    return .inl t
  | .inl (t, some j) => do
    let e ← storeClient msg i.1 env.p2pindex (t.client j)
    readLength msg (i.1 + 1 + (octetAt msg i.1).toNat) (behind msg i)
    return .inl (env.connectAfterScan (t.set j e) j)

/-- A descriptor that fits: its address, what is stored of it if it has an entry, and the length of
the one behind. -/
def ClientFits (env : GroupEnv) (msg : Body) (t : P2pTable) (i : Nat × Nat) : Prop :=
  i.1 + 7 ≤ msg.length ∧
    match placeClient env.currentAddress t env.p2pindex (devAddrAt msg i.1) with
    | .inr _ => True
    | .inl (_, none) =>
      0 < behind msg i → i.1 + 1 + (octetAt msg i.1).toNat + 1 ≤ msg.length
    | .inl (t, some j) => storeClientFits msg i.1 (t.client j) ∧
      (0 < behind msg i → i.1 + 1 + (octetAt msg i.1).toNat + 1 ≤ msg.length)

/-- The table behind a descriptor, or the one the parser returns with. -/
def clientEffect (env : GroupEnv) (msg : Body) (t : P2pTable) (i : Nat × Nat) :
    P2pTable ⊕ P2pTable :=
  match placeClient env.currentAddress t env.p2pindex (devAddrAt msg i.1) with
  | .inr t => .inr t
  | .inl (t, none) => .inl t
  | .inl (t, some j) =>
    .inl (env.connectAfterScan (t.set j (clientStored msg i.1 env.p2pindex (t.client j))) j)

theorem clientStep_guarded (env : GroupEnv) (t : P2pTable) (i : Nat × Nat) :
    Guarded (clientStep env msg t i) (ClientFits env msg t i) (· = clientEffect env msg t i) := by
  unfold clientStep ClientFits clientEffect
  refine (Guarded.access _ _ _).bind fun _ _ => ?_
  rcases placeClient env.currentAddress t env.p2pindex (devAddrAt msg i.1) with ⟨t', j⟩ | t'
  · cases j with
    | none => exact (readLength_guarded _ _).map fun _ _ => rfl
    | some j =>
      refine (storeClient_guarded i.1 env.p2pindex (t'.client j)).bindEq ?_
      exact (readLength_guarded _ _).map fun _ _ => rfl
  · exact .ok rfl

theorem clientLoop_eq (env : GroupEnv) (t : P2pTable) (pos groupInfoLen : Nat) :
    clientLoop env msg t pos groupInfoLen = (do
      readLength msg pos groupInfoLen
      foldWhile (clientStep env msg) t (clientItems msg pos groupInfoLen)) := by
  fun_induction clientItems msg pos groupInfoLen generalizing t with
  | case1 pos groupInfoLen hmore hbad =>
    rw [clientLoop, readLength, if_pos hmore, if_pos hmore]
    cases hread : readOctet msg pos with
    | error e => rfl
    | ok len =>
      have hlen : len = octetAt msg pos := (readOctet_guarded pos).post _ hread
      subst hlen
      dsimp only [Checked.ok_bind]
      rw [if_pos hbad]
      rfl
  | case2 pos groupInfoLen hmore hgood ih =>
    rw [clientLoop, readLength, if_pos hmore, if_pos hmore]
    cases hread : readOctet msg pos with
    | error e => rfl
    | ok len =>
      have hlen : len = octetAt msg pos := (readOctet_guarded pos).post _ hread
      subst hlen
      dsimp only [Checked.ok_bind]
      rw [if_neg hgood, foldWhile, clientStep]
      dsimp only
      cases Checked.access msg.length (pos + 1) 6 with
      | error e => rfl
      | ok u =>
      dsimp only [Checked.ok_bind]
      rcases placeClient env.currentAddress t env.p2pindex (devAddrAt msg pos) with ⟨t', j⟩ | t'
      · cases j with
        | none =>
          dsimp only
          rw [ih t']
          unfold behind
          cases readLength msg (pos + 1 + (octetAt msg pos).toNat)
            (groupInfoLen - ((octetAt msg pos).toNat + 1)) <;> rfl
        | some j =>
          dsimp only
          cases storeClient msg pos env.p2pindex (t'.client j) with
          | error e => rfl
          | ok e =>
            dsimp only [Checked.ok_bind]
            rw [ih]
            unfold behind
            cases readLength msg (pos + 1 + (octetAt msg pos).toNat)
              (groupInfoLen - ((octetAt msg pos).toNat + 1)) <;> rfl
      · rfl
  | case3 pos groupInfoLen hmore =>
    rw [clientLoop, readLength, if_neg hmore, if_neg hmore]
    rfl

/-- A group info attribute that fits. -/
def groupInfoFits (env : GroupEnv) (msg : Body) (t : P2pTable) (a : Attr) : Prop :=
  SubId.ofEid a.eid = some .groupInfo →
    (0 < a.len → a.octet 0 + 1 ≤ msg.length) ∧
      AllFit (ClientFits env msg) (clientEffect env msg) t (clientItems msg (a.octet 0) a.len)

def groupInfoEffect (env : GroupEnv) (msg : Body) (t : P2pTable) (a : Attr) :
    P2pTable ⊕ P2pTable :=
  if SubId.ofEid a.eid = some .groupInfo then
    walkWhile (clientEffect env msg) t (clientItems msg (a.octet 0) a.len)
  else .inl t

theorem groupInfoAttr_guarded (env : GroupEnv) (t : P2pTable) (a : Attr) :
    Guarded (groupInfoAttr env msg t a) (groupInfoFits env msg t a)
      (Sum.map id id · = groupInfoEffect env msg t a) := by
  unfold groupInfoAttr groupInfoFits groupInfoEffect
  by_cases hinfo : SubId.ofEid a.eid = some .groupInfo
  · rw [if_pos hinfo, if_pos hinfo, clientLoop_eq]
    refine ((readLength_guarded _ _).bind fun _ _ => ?_).congr (imp_iff_right hinfo).symm
    refine Guarded.foldWhile (v := id) (u := id) (fun t i => ?_) t _
    refine (clientStep_guarded env t i).imp fun r hr => ?_
    rw [hr, Sum.map_id_id]
    rfl
  · rw [if_neg hinfo, if_neg hinfo]
    have hend : Guarded (.ok (.inl t) : Checked (P2pTable ⊕ P2pTable)) True
      (Sum.map id id · = .inl t) := .ok rfl
    exact hend.congr (by simp [hinfo])

/-- An element for Wi-Fi Direct that fits, and what it makes of the table. -/
def firstElementFits (env : GroupEnv) (msg : Body) (t : P2pTable) (off : Nat) : Prop :=
  off + 6 ≤ msg.length ∧
    (isAt msg wifidirectOui (off + 2) = true → off + 9 ≤ msg.length ∧
      AllFit (AttrFits ⟨8, false⟩ msg (elementFin msg off + 4) (groupInfoFits env msg)
        (groupInfoEffect env msg)) (groupInfoEffect env msg) t (wifiAttrs msg off))

def firstElementEffect (env : GroupEnv) (msg : Body) (t : P2pTable) (off : Nat) :
    (P2pTable × Bool) ⊕ P2pTable :=
  if isAt msg wifidirectOui (off + 2) then
    Sum.map (·, false) id (walkWhile (groupInfoEffect env msg) t (wifiAttrs msg off))
  else .inl (t, true)

theorem firstElement_guarded (env : GroupEnv) (t : P2pTable) (off : Nat) :
    Guarded (firstElement env msg t off) (firstElementFits env msg t off)
      (Sum.map (Prod.map id id) id · = firstElementEffect env msg t off) := by
  unfold firstElement firstElementFits firstElementEffect
  refine (readEqual_guarded _ _).bindEq ?_
  by_cases houi : isAt msg wifidirectOui (off + 2) = true
  · rw [if_pos houi, if_pos houi]
    have hattrs := wifiDirectAttrs_guarded msg (v := id) (u := id) (F := groupInfoFits env msg)
      (E := groupInfoEffect env msg) (groupInfoAttr_guarded env) t off
    refine (hattrs.bind (S := True) fun r hr => ?_).congr ?_
    · rw [id, Sum.map_id_id] at hr
      rw [← hr]
      rcases r with t' | t'
      · exact .ok rfl
      · exact .ok rfl
    · simp [houi]
  · rw [if_neg houi, if_neg houi]
    have hend : Guarded (.ok (.inl (t, true)) : Checked ((P2pTable × Bool) ⊕ P2pTable)) True
      (Sum.map (Prod.map id id) id · = .inl (t, true)) := .ok rfl
    exact hend.congr (by simp [houi])

/-- A body that the parser of group info attributes stays inside of. -/
def GroupInfoBodyFits (env : GroupEnv) (msg : Body) (t : P2pTable) : Prop :=
  2 ≤ msg.length ∧
    AllFit (ElementFits msg (firstElementFits env msg) (firstElementEffect env msg))
      (elementEffect (firstElementEffect env msg)) t (elements msg 0 msg.length)

theorem p2pParseGroupInfoAttribute_guarded (env : GroupEnv) (msg : Body) (t : P2pTable) :
    Guarded (p2pParseGroupInfoAttribute env msg t) (GroupInfoBodyFits env msg t)
      fun _ => True := by
  unfold p2pParseGroupInfoAttribute GroupInfoBodyFits
  have hloop := elementLoop_guarded msg (v := id) (u := id) (F := firstElementFits env msg)
    (E := firstElementEffect env msg) (firstElement_guarded env) t 0 msg.length
  refine (hloop.bind (S := True) fun r _ => ?_).congr ?_
  · rcases r with t' | t' <;> exact .ok trivial
  · simp

end

/-! ## 6. The parsers together -/

/-- A call of one of the parsers. -/
inductive ParserCall
  | subElmt (bBeacon : Bool) (out : SubElmt)
  | groupInfo (env : GroupEnv) (table : P2pTable)
  | noA (act : NoaActions) (wcid : Nat) (noa : Noa)
  | extListen (timing : ExtListen)
  | manage (out : Manage)

/-- **The call stays inside**: it comes to an end, and until then reads only octets of the body,
writes only into its buffers, and subtracts no more from a length than it is. -/
def ParserCall.StaysInside (msg : Body) : ParserCall → Prop
  | subElmt bBeacon out => Checked.Safe (p2pParseSubElmt msg bBeacon out)
  | groupInfo env table => Checked.Safe (p2pParseGroupInfoAttribute env msg table)
  | noA act wcid noa => Checked.Safe (p2pParseNoASubElmt act msg wcid noa)
  | extListen timing => Checked.Safe (p2pParseExtListenSubElmt msg timing)
  | manage out => Checked.Safe (p2pParseManageSubElmt msg out)

/-- What the call comes by fits. -/
def ParserCall.Fits (msg : Body) : ParserCall → Prop
  | subElmt bBeacon out => msg.length ≠ 0 → SubElmtBodyFits msg bBeacon out.given
  | groupInfo env table => GroupInfoBodyFits env msg table
  | noA _ _ _ => msg.length ≠ 0 → BodyFits msg (noaFits msg)
  | extListen _ => msg.length ≠ 0 → BodyFits msg (extListenFits msg)
  | manage out => BodyFits msg (manageFits msg out.given) ∧
    ∀ off ∈ elements msg 0 msg.length, octetAt msg off = ieChannelUsage → off + 5 ≤ msg.length

/-- **Where the parsers stay inside.** -/
theorem staysInside_iff (msg : Body) (call : ParserCall) :
    call.StaysInside msg ↔ call.Fits msg := by
  cases call with
  | subElmt bBeacon out => exact (p2pParseSubElmt_guarded msg bBeacon out).safe
  | groupInfo env table => exact (p2pParseGroupInfoAttribute_guarded env msg table).safe
  | noA act wcid noa => exact (p2pParseNoASubElmt_guarded act msg wcid noa).safe
  | extListen timing => exact (p2pParseExtListenSubElmt_guarded msg timing).safe
  | manage out => exact (p2pParseManageSubElmt_guarded msg out).safe

namespace Example

/-- The outputs of an invitation request. -/
def inviteOut : SubElmt where
  dpid := none
  groupCap := 0
  deviceCap := 0
  deviceName := none
  deviceNameLen := some 0
  devAddr := some (.zero 6)
  interFAddr := some (.zero 6)
  bssidAddr := some (.zero 6)
  ssidLen := some 0
  ssid := some (.zero 32)
  configMethod := some 0
  wpsConfigMethod := none
  devType := some (.zero 8)
  listenChannel := none
  opChannel := some 0
  channelList := some (.zero maxNumOfChannels)
  intent := none
  statusCode := some 0
  inviteFlag := some 0

/-- A P2P element with a channel list: a country, an operating class and a count of 128. -/
def manyChannels : Body :=
  [221, 12, 0x50, 0x6f, 0x9a, 0x09, 11, 5, 0, 0x58, 0x58, 4, 81, 128]

end Example

/-- A channel list that announces 128 channels is copied with a length that is no less than the
memory. -/
theorem not_staysInside_manyChannels :
    ¬ (ParserCall.subElmt false Example.inviteOut).StaysInside Example.manyChannels := by
  intro h
  have hfits := (p2pParseSubElmt_guarded Example.manyChannels false Example.inviteOut).safe.mp h
  obtain ⟨-, hall⟩ := hfits (by decide)
  rw [if_neg (by decide), subElements, if_pos (by decide)] at hall
  have helement := hall.1.1.2
  rw [if_neg (by decide)] at helement
  have hattrs := helement.2
  rw [if_neg (by decide)] at hattrs
  obtain ⟨-, -, hlist⟩ := hattrs (by decide)
  rw [subElmtAttrList, attrs, if_pos (by decide)] at hlist
  have hcount := (hlist.1.2.1 rfl).2.1
  exact absurd hcount (by decide)

end Mt7601.P2p
