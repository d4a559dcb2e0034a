/-
# What the translation does to a discovery packet

A tag that the driver puts into a packet has to come back out of the answer, and nothing else. What
the handlers come to, against that:

* `TxLaw` and `TxInside`, `Inserts`: the tag of a station is put two octets in front of the end of
  the payload, over what stands there (`insertTag_damages`), so that the packets that keep their tags
  are those that get none;
* `RxLaw` and `RxInside`, `RxClear`: the last four octets of a packet do not move with the others when
  a tag is taken out, a tag is compared in its first six octets only, and two stations may have been
  given one name;
* `pppoeDis_iff`: in both directions these conditions are exact.

Both walks go on as far as the tags say, inside the packet or not: a walk inside it is part of both
conditions.
-/
import Mt7601.Mat.Removal

namespace Mt7601.Mat

open Ba (Ulong)
open Checked (access sub Safe)

/-! ## 1. What is received -/

/-- The header is inside the packet as far as it is read. -/
theorem disCode_bind_safe {p : DisPacket} {α : Type} {f : Option UInt8 → Checked α}
    (hnone : Safe (f none)) :
    Safe (disCode p >>= f) ↔ p.layer < p.data.length ∧
      (p.version = 0x11 → p.layer + 1 < p.data.length ∧ Safe (f (some p.code))) := by
  unfold disCode
  by_cases hin : p.layer < p.data.length
  · rw [Checked.access_ok (by omega), Checked.ok_bind]
    by_cases hver : p.version = 0x11
    · rw [if_neg (not_not.2 hver)]
      by_cases hcode : p.layer + 1 < p.data.length
      · rw [Checked.access_ok (by omega)]
        exact ⟨fun h => ⟨hin, fun _ => ⟨hcode, h⟩⟩, fun h => (h.2 hver).2⟩
      · rw [Checked.access_error (by omega)]
        exact ⟨fun h => absurd h (Checked.not_safe_error _), fun h => absurd (h.2 hver).1 hcode⟩
    · rw [if_pos hver]
      exact ⟨fun _ => ⟨hin, fun h => absurd h hver⟩, fun _ => hnone⟩
  · rw [Checked.access_error (by omega)]
    exact ⟨fun h => absurd h (Checked.not_safe_error _), fun h => absurd h.1 hin⟩

/-- An entry of the table that the driver has named so. -/
def Ours (tb : UidMacMappingTable) (e : UidMacMappingEntry) (name : List UInt8) : Prop :=
  tb.valid ∧ (∃ i, e ∈ tb.uidHash i) ∧ e.uIDAddByUs ∧ e.uIDStr.toList = name

/-- What is to come of a received packet: a tag that the driver has put into an earlier one is taken
out, and it goes to the station of that one; nothing else is touched. -/
structure RxTransparent (tb : UidMacMappingTable) (p : DisPacket) (r : RxResult) (eth : List UInt8)
    (code : UInt8) (ses : Octets 2) (tags : List Tag) (pad : List UInt8) : Prop where
  other : rxTag code = none → r.data = p.data
  noTag : ∀ id, rxTag code = some id → (∀ t ∈ tags, ¬ t.Names id) → r.data = p.data
  ours : ∀ id, rxTag code = some id → ∀ before t after, tags = before ++ t :: after →
    (∀ t' ∈ before, ¬ t'.Names id) → t.Names id → ∀ e, Ours tb e t.value →
      r.inMac = some e.macAddr ∧
        ∃ pad', pad'.length = pad.length ∧ r.data = disFrame eth code ses (before ++ after) pad'
  theirs : ∀ id, rxTag code = some id → ∀ before t after, tags = before ++ t :: after →
    (∀ t' ∈ before, ¬ t'.Names id) → t.Names id → (∀ e, ¬ Ours tb e t.value) → r.data = p.data

section

variable (tb : UidMacMappingTable) (now : Ulong) (getInMac : Mac → Nat → Option Mac) (p : DisPacket)

/-- It stays inside the packet, and a packet that is well formed comes out as it should. -/
def RxLaw : Prop :=
  Safe (matProtoPPPoEDisRx tb now p getInMac) ∧
    ∀ eth code ses tags pad, WellFormed p eth code ses tags pad →
      ∀ r, matProtoPPPoEDisRx tb now p getInMac = .ok r →
        RxTransparent tb p r eth code ses tags pad

/-- The header, the tags up to the one that is looked for, its first six octets and, if it is taken
out, four octets behind it are inside the packet. -/
def RxInside : Prop :=
  p.layer < p.data.length ∧ (p.version = 0x11 → p.layer + 1 < p.data.length ∧
    (p.code = pppoeCodePadt → p.layer + 4 ≤ p.data.length) ∧
    ∀ id, rxTag p.code = some id → p.layer + 6 ≤ p.data.length ∧
      ∃ found, Walk p.data id (p.layer + 6) p.payloadLen found ∧
        ∀ c n, found = some (c, n) → tb.valid → c + min 6 n ≤ p.data.length ∧
          ∀ e, tb.hitOf (p.content c (min 6 n)) = some e → e.uIDAddByUs →
            c + min 6 n + 4 ≤ p.data.length)

/-- The entry that the tag hits is the one it names: if the driver has made it, the tag has no more
octets than it, and those that do not move are the same; and no other entry of that name is for
another station. -/
def RxClear : Prop :=
  ∀ id c n, rxTag p.code = some id → Walk p.data id (p.layer + 6) p.payloadLen (some (c, n)) →
    ∀ e, tb.hitOf (p.content c (min 6 n)) = some e →
      (e.uIDAddByUs → n = 6 ∧ Unmoved p) ∧
      ∀ e', Ours tb e' (p.content c n) → e.uIDAddByUs ∧ e.macAddr = e'.macAddr

variable {tb now getInMac p}

/-- What the handler returns, with the entry that the tag hits. -/
def rxReturn (tb : UidMacMappingTable) (now : Ulong) (p : DisPacket) (c m : Nat)
    (e : UidMacMappingEntry) (data : List UInt8) : RxResult where
  tb := (tb.uidMacTableLookUp (p.content c m) now).1
  data := data
  inMac := some e.macAddr
  ses := if p.code = pppoeCodePads then some (e.macAddr, p.sesID, p.srcMac) else none

/-- The end of the handler, by the entry that the tag hits: none, -/
theorem rxFound_miss {c m : Nat} (hvalid : tb.valid) (hc : c + m ≤ p.data.length)
    (hhit : tb.hitOf (p.content c m) = none) : rxFound tb now p c m =
      .ok { tb := (tb.uidMacTableLookUp (p.content c m) now).1, data := p.data } := by
  have hfound := tb.uidMacTableLookUp_found (p.content c m) now
  rw [hhit, Option.map_none, DisPacket.content] at hfound
  unfold rxFound
  rw [if_pos hvalid, Checked.access_ok hc, Checked.ok_bind]
  dsimp only
  rw [hfound]
  rfl

/-- or one. -/
theorem rxFound_hit {c m : Nat} {e : UidMacMappingEntry} (hvalid : tb.valid)
    (hc : c + m ≤ p.data.length) (hhit : tb.hitOf (p.content c m) = some e) :
    rxFound tb now p c m =
      (if e.uIDAddByUs then removeTag p c m else .ok p.data) >>= fun data =>
        .ok (rxReturn tb now p c m e data) := by
  have hfound := tb.uidMacTableLookUp_found (p.content c m) now
  rw [hhit, Option.map_some, DisPacket.content] at hfound
  unfold rxFound
  rw [if_pos hvalid, Checked.access_ok hc, Checked.ok_bind]
  dsimp only
  rw [hfound]
  dsimp only
  by_cases hours : e.uIDAddByUs
  · rw [if_pos hours, if_pos hours]
    rfl
  · rw [if_neg hours, if_neg hours]
    rfl

theorem rxFound_safe {c m : Nat} : Safe (rxFound tb now p c m) ↔
    (tb.valid → c + m ≤ p.data.length ∧
      ∀ e, tb.hitOf (p.content c m) = some e → e.uIDAddByUs → c + m + 4 ≤ p.data.length) := by
  by_cases hvalid : tb.valid
  · by_cases hin : c + m ≤ p.data.length
    · cases hhit : tb.hitOf (p.content c m) with
      | none =>
        rw [rxFound_miss hvalid hin hhit]
        exact ⟨fun _ _ => ⟨hin, fun e he => nomatch he⟩, fun _ => Checked.safe_ok _⟩
      | some e =>
        rw [rxFound_hit hvalid hin hhit]
        by_cases hours : e.uIDAddByUs
        · rw [if_pos hours]
          constructor
          · intro h _
            obtain ⟨data, hdata, -⟩ := Checked.safe_bind.1 h
            refine ⟨hin, ?_⟩
            rintro e' ⟨⟩ -
            exact (removeTag_safe hin).1 ⟨data, hdata⟩
          · intro h
            obtain ⟨data, hdata⟩ := (removeTag_safe hin).2 ((h hvalid).2 e rfl hours)
            exact Checked.safe_bind.2 ⟨data, hdata, Checked.safe_ok _⟩
        · rw [if_neg hours]
          refine ⟨fun _ _ => ⟨hin, ?_⟩, fun _ => Checked.safe_ok _⟩
          rintro e' ⟨⟩ he'
          exact absurd he' hours
    · have herror : rxFound tb now p c m = .error .outside := by
        unfold rxFound
        rw [if_pos hvalid, Checked.access_error (by omega), Checked.error_bind]
      rw [herror]
      exact ⟨fun h => absurd h (Checked.not_safe_error _), fun h => absurd (h hvalid).1 hin⟩
  · have hok : rxFound tb now p c m = .ok { tb := tb, data := p.data } := by
      unfold rxFound
      rw [if_neg hvalid]
      rfl
    rw [hok]
    exact ⟨fun _ h => absurd h hvalid, fun _ => Checked.safe_ok _⟩

/-- **The handler stays inside the packet** exactly under this condition. -/
theorem matProtoPPPoEDisRx_safe :
    Safe (matProtoPPPoEDisRx tb now p getInMac) ↔ RxInside tb p := by
  unfold matProtoPPPoEDisRx RxInside
  rw [disCode_bind_safe (by exact Checked.safe_ok _)]
  refine and_congr_right fun _ => forall_congr' fun _ => and_congr_right fun _ => ?_
  dsimp only
  by_cases hpadt : p.code = pppoeCodePadt
  · have hnone : rxTag p.code = none := by rw [hpadt]; rfl
    rw [if_pos hpadt, Checked.safe_bind]
    constructor
    · rintro ⟨_, hin, -⟩
      have hin := Checked.safe_access.1 ⟨(), hin⟩
      exact ⟨fun _ => by omega, fun id hid => by rw [hnone] at hid; exact nomatch hid⟩
    · intro h
      have hin := h.1 hpadt
      exact ⟨(), Checked.access_ok (by omega), Checked.safe_ok _⟩
  · rw [if_neg hpadt]
    cases htag : rxTag p.code with
    | none => exact ⟨fun _ => ⟨fun h => absurd h hpadt, fun id hid => nomatch hid⟩,
        fun _ => Checked.safe_ok _⟩
    | some id =>
      simp only [Option.some.injEq, forall_eq']
      rw [Checked.safe_bind]
      constructor
      · rintro ⟨_, hin, h⟩
        have hin := Checked.safe_access.1 ⟨(), hin⟩
        obtain ⟨found, hfound, h⟩ := Checked.safe_bind.1 h
        have hwalk := findTag_eq_ok.1 hfound
        refine ⟨fun h => absurd h hpadt, by omega, found, hwalk, ?_⟩
        rintro c n rfl
        exact rxFound_safe.1 h
      · rintro ⟨-, hin, found, hwalk, h⟩
        refine ⟨(), Checked.access_ok (by omega), Checked.safe_bind.2
          ⟨found, findTag_eq_ok.2 hwalk, ?_⟩⟩
        cases found with
        | none => exact Checked.safe_ok _
        | some found => exact rxFound_safe.2 (h found.1 found.2 rfl)

theorem WellFormed.disCode_eq {eth : List UInt8} {code : UInt8} {ses : Octets 2} {tags : List Tag}
    {pad : List UInt8} (h : WellFormed p eth code ses tags pad) : disCode p = .ok (some code) := by
  have hheader := h.header
  unfold disCode
  rw [Checked.access_ok (by omega), Checked.ok_bind, if_neg (not_not.2 h.version),
    Checked.access_ok (by omega), Checked.ok_bind, h.code_eq]
  rfl

/-- The handler on a packet that is well formed, by where its walk ends. -/
theorem WellFormed.rx_eq {eth : List UInt8} {code : UInt8} {ses : Octets 2} {tags : List Tag}
    {pad : List UInt8} (h : WellFormed p eth code ses tags pad) {id : UInt16}
    (hid : rxTag code = some id) {found : Option (Nat × Nat)}
    (hwalk : Walk p.data id (p.layer + 6) p.payloadLen found) :
    matProtoPPPoEDisRx tb now p getInMac =
      match found with
      | none => .ok { tb := tb, data := p.data }
      | some found => rxFound tb now p found.1 (min 6 found.2) := by
  have hheader := h.header
  have hpadt : ¬ code = pppoeCodePadt := by
    rintro rfl
    exact nomatch hid
  have hcode := h.disCode_eq
  unfold matProtoPPPoEDisRx
  rw [hcode, Checked.ok_bind]
  dsimp only
  rw [if_neg hpadt, hid]
  dsimp only
  rw [Checked.access_ok (by omega), Checked.ok_bind, findTag_eq_ok.2 hwalk, Checked.ok_bind]
  cases found <;> rfl

/-- A packet without a tag to look for is left as it is. -/
theorem WellFormed.rx_other {eth : List UInt8} {code : UInt8} {ses : Octets 2} {tags : List Tag}
    {pad : List UInt8} (h : WellFormed p eth code ses tags pad) (hid : rxTag code = none)
    {r : RxResult} (hr : matProtoPPPoEDisRx tb now p getInMac = .ok r) : r.data = p.data := by
  have hheader := h.header
  have hcode := h.disCode_eq
  unfold matProtoPPPoEDisRx at hr
  rw [hcode, Checked.ok_bind] at hr
  dsimp only at hr
  split at hr
  · rw [Checked.access_ok (by omega), Checked.ok_bind] at hr
    cases hr
    rfl
  · rw [hid] at hr
    cases hr
    rfl

/-- There is a first tag that is looked for, or none. -/
theorem first_named (id : UInt16) (tags : List Tag) :
    (∀ t ∈ tags, ¬ t.Names id) ∨
      ∃ before t after, tags = before ++ t :: after ∧ (∀ t' ∈ before, ¬ t'.Names id) ∧
        t.Names id := by
  induction tags with
  | nil => exact .inl fun t ht => absurd ht List.not_mem_nil
  | cons t ts ih =>
    by_cases ht : t.Names id
    · exact .inr ⟨[], t, ts, rfl, fun t' ht' => absurd ht' List.not_mem_nil, ht⟩
    · rcases ih with hnone | ⟨before, t', after, rfl, hbefore, ht'⟩
      · exact .inl (List.forall_mem_cons.2 ⟨ht, hnone⟩)
      · exact .inr ⟨t :: before, t', after, rfl, List.forall_mem_cons.2 ⟨ht, hbefore⟩, ht'⟩

theorem Walk.unique {data : List UInt8} {id : UInt16} {off left : Nat} {r r' : Option (Nat × Nat)}
    (h : Walk data id off left r) (h' : Walk data id off left r') : r = r' := by
  have heq := (findTag_eq_ok.2 h).symm.trans (findTag_eq_ok.2 h')
  cases heq
  rfl

/-- The first octets of a tag's content. -/
theorem WellFormed.content_take {eth : List UInt8} {code : UInt8} {ses : Octets 2}
    {tags before after : List Tag} {t : Tag} {pad : List UInt8}
    (h : WellFormed p eth code ses tags pad) (htags : tags = before ++ t :: after) {k : Nat}
    (hk : k ≤ t.value.length) :
    p.content (p.layer + 6 + (payload before).length + 4) k = t.value.take k := by
  rw [DisPacket.content, h.content_eq htags, List.take_append_of_le_length hk]

/-- An entry that is hit is in the table, and begins with the tag. -/
theorem hitOf_some {e : UidMacMappingEntry} {tag : List UInt8} (h : tb.hitOf tag = some e) :
    tb.valid ∧ (∃ i, e ∈ tb.uidHash i) ∧ e.uIDStr.toList.take tag.length = tag := by
  unfold UidMacMappingTable.hitOf at h
  split at h
  · rename_i hvalid
    have hpred := List.find?_some h
    exact ⟨hvalid, ⟨_, List.mem_of_find?_eq_some h⟩, by simpa using hpred⟩
  · exact nomatch h

/-- The packet without a tag is another packet. -/
theorem WellFormed.ne_without {eth : List UInt8} {code : UInt8} {ses : Octets 2}
    {before after : List Tag} {t : Tag} {pad pad' : List UInt8}
    (h : WellFormed p eth code ses (before ++ t :: after) pad) (hpad : pad'.length = pad.length) :
    p.data ≠ disFrame eth code ses (before ++ after) pad' := by
  intro heq
  have hlen := congrArg List.length heq
  have hoct := t.length_octets
  have hall := h.length_data
  have heth := h.eth
  simp only [disFrame, htons, payload_append, payload_cons, List.length_append, List.length_cons,
    List.length_nil, List.Vector.toList_length] at hlen hall
  omega

variable {eth : List UInt8} {code : UInt8} {ses : Octets 2} {tags : List Tag} {pad : List UInt8}

/-- A packet that comes out as it should is clear. -/
theorem RxClear.of_law (h : WellFormed p eth code ses tags pad) (hinside : RxInside tb p)
    (hlaw : ∀ r, matProtoPPPoEDisRx tb now p getInMac = .ok r →
      RxTransparent tb p r eth code ses tags pad) : RxClear tb p := by
  intro id c n hid hwalk e hhit
  obtain ⟨hvalid, hmem, hname⟩ := hitOf_some hhit
  have hheader := h.header
  obtain ⟨-, found, hwalk', hin⟩ := (hinside.2 h.version).2.2 id hid
  obtain rfl := hwalk'.unique hwalk
  obtain ⟨hin, hroom⟩ := hin c n rfl hvalid
  rw [h.code_eq] at hid
  have hrx : matProtoPPPoEDisRx tb now p getInMac = _ := h.rx_eq hid hwalk
  dsimp only at hrx
  rw [rxFound_hit hvalid hin hhit] at hrx
  rcases first_named id tags with hnone | ⟨before, t, after, rfl, hbefore, ht⟩
  · exact nomatch hwalk.unique (h.walk_none hnone)
  · cases hwalk.unique (h.walk_found rfl hbefore ht)
    have hfull := h.content_take rfl (Nat.le_refl t.value.length)
    rw [List.take_length] at hfull
    by_cases hours : e.uIDAddByUs
    · -- the tag has been taken out
      rw [if_pos hours] at hrx
      obtain ⟨data, hdata⟩ := (removeTag_safe hin).2 (hroom e hhit hours)
      rw [hdata, Checked.ok_bind] at hrx
      have hr := hlaw _ hrx
      have hsix : t.value.length = 6 := by
        by_contra hsix
        have hnotOurs : ∀ e', ¬ Ours tb e' t.value := by
          rintro e' ⟨-, -, -, hname'⟩
          exact hsix (by rw [← hname', List.Vector.toList_length])
        have hsame : data = p.data := hr.theirs id hid before t after rfl hbefore ht hnotOurs
        have hlen := length_removeTag (by omega) hdata (hroom e hhit hours)
        rw [hsame] at hlen
        omega
      have hmin : min 6 t.value.length = 6 := by omega
      rw [hmin] at hname hdata hhit
      have hsix' : p.content (p.layer + 6 + (payload before).length + 4) 6 = t.value := by
        have hall : ∀ c, p.content c 6 = p.content c t.value.length := by
          intro c
          rw [hsix]
        rw [hall, hfull]
      rw [hsix', List.take_of_length_le (by simp [hsix])] at hname
      have hour : Ours tb e t.value := ⟨hvalid, hmem, hours, hname⟩
      obtain ⟨-, hpad⟩ := hr.ours id hid before t after rfl hbefore ht e hour
      have hroom' := hroom e (by rw [hmin]; exact hhit) hours
      rw [hmin] at hroom'
      refine ⟨fun _ => ⟨hsix, (removeTag_eq h hsix hroom' hdata).1 hpad⟩, fun e' he' => ⟨hours, ?_⟩⟩
      rw [hfull] at he'
      obtain ⟨hmac, -⟩ := hr.ours id hid before t after rfl hbefore ht e' he'
      exact Option.some.inj hmac
    · -- it has been left
      rw [if_neg hours, Checked.ok_bind] at hrx
      have hr := hlaw _ hrx
      refine ⟨fun h => absurd h hours, fun e' he' => ?_⟩
      rw [hfull] at he'
      obtain ⟨-, pad', hpad', hsame⟩ := hr.ours id hid before t after rfl hbefore ht e' he'
      exact absurd hsame (h.ne_without hpad')

/-- What a clear packet comes to, if it has a tag that is looked for. -/
theorem RxTransparent.of_clear (h : WellFormed p eth code ses tags pad) (hinside : RxInside tb p)
    (hclear : RxClear tb p) {r : RxResult}
    (hr : matProtoPPPoEDisRx tb now p getInMac = .ok r) :
    RxTransparent tb p r eth code ses tags pad := by
  have hheader := h.header
  refine ⟨fun hid => h.rx_other hid hr, ?_, ?_, ?_⟩
  · intro id hid hnone
    rw [h.rx_eq hid (h.walk_none hnone)] at hr
    cases hr
    rfl
  · rintro id hid before t after rfl hbefore ht e ⟨hvalid, ⟨i, hmem⟩, hours, hname⟩
    have hsix : t.value.length = 6 := by rw [← hname, List.Vector.toList_length]
    have hmin : min 6 t.value.length = 6 := by omega
    have hwalk := h.walk_found rfl hbefore ht
    have hcode := h.code_eq
    have hid' : rxTag p.code = some id := by rw [hcode, hid]
    have hcontent := h.content_take rfl (Nat.le_refl t.value.length)
    rw [List.take_length] at hcontent
    have hcontent' : p.content (p.layer + 6 + (payload before).length + 4)
        (min 6 t.value.length) = e.uIDStr.toList := by
      have hall : ∀ c, p.content c (min 6 t.value.length) = p.content c t.value.length := by
        intro c
        rw [hmin, hsix]
      rw [hall, hcontent, hname]
    obtain ⟨-, found, hwalk', hin⟩ := (hinside.2 h.version).2.2 id hid'
    obtain rfl := hwalk'.unique hwalk
    obtain ⟨hin, hroom⟩ := hin _ _ rfl hvalid
    obtain ⟨e₁, hhit, -⟩ := tb.hitOf_isSome hvalid hmem
    rw [← hcontent'] at hhit
    obtain ⟨hown, hothers⟩ := hclear id _ _ hid' hwalk e₁ hhit
    obtain ⟨hours₁, hmac⟩ := hothers e ⟨hvalid, ⟨i, hmem⟩, hours, by rw [hcontent, hname]⟩
    obtain ⟨-, hunmoved⟩ := hown hours₁
    have hroom₁ := hroom e₁ hhit hours₁
    obtain ⟨data, hdata⟩ := (removeTag_safe hin).2 hroom₁
    rw [h.rx_eq hid hwalk] at hr
    dsimp only at hr
    rw [rxFound_hit hvalid hin hhit, if_pos hours₁, hdata, Checked.ok_bind] at hr
    cases hr
    rw [hmin] at hdata hroom₁
    exact ⟨congrArg some hmac, (removeTag_eq h hsix hroom₁ hdata).2 hunmoved⟩
  · rintro id hid before t after rfl hbefore ht hnotOurs
    have hwalk := h.walk_found rfl hbefore ht
    have hid' : rxTag p.code = some id := by rw [h.code_eq, hid]
    obtain ⟨-, found, hwalk', hin⟩ := (hinside.2 h.version).2.2 id hid'
    obtain rfl := hwalk'.unique hwalk
    rw [h.rx_eq hid hwalk] at hr
    dsimp only at hr
    by_cases hvalid : tb.valid
    · obtain ⟨hin, -⟩ := hin _ _ rfl hvalid
      cases hhit : tb.hitOf (p.content (p.layer + 6 + (payload before).length + 4)
          (min 6 t.value.length)) with
      | none =>
        rw [rxFound_miss hvalid hin hhit] at hr
        cases hr
        rfl
      | some e =>
        have hours : ¬ e.uIDAddByUs := by
          intro hours
          obtain ⟨-, hmem, hname⟩ := hitOf_some hhit
          obtain ⟨hsix, -⟩ := (hclear id _ _ hid' hwalk e hhit).1 hours
          rw [h.content_take rfl (Nat.min_le_right _ _), hsix] at hname
          have hall : t.value.take (min 6 6) = t.value := List.take_of_length_le (by omega)
          rw [hall, List.take_of_length_le (by simp [hsix])] at hname
          exact hnotOurs e ⟨hvalid, hmem, hours, hname⟩
        rw [rxFound_hit hvalid hin hhit, if_neg hours, Checked.ok_bind] at hr
        cases hr
        rfl
    · rw [rxFound, if_neg hvalid] at hr
      cases hr
      rfl

/-- **What is received comes out as it should** exactly if it is clear. -/
theorem rxLaw_iff :
    RxLaw tb now getInMac p ↔ RxInside tb p ∧ (p.WellFormed → RxClear tb p) := by
  constructor
  · rintro ⟨hsafe, hlaw⟩
    have hinside := matProtoPPPoEDisRx_safe.1 hsafe
    refine ⟨hinside, ?_⟩
    rintro ⟨eth, code, ses, tags, pad, h⟩
    exact RxClear.of_law h hinside (hlaw eth code ses tags pad h)
  · rintro ⟨hinside, hclear⟩
    refine ⟨matProtoPPPoEDisRx_safe.2 hinside, ?_⟩
    intro eth code ses tags pad h r hr
    exact RxTransparent.of_clear h hinside (hclear ⟨eth, code, ses, tags, pad, h⟩) hr

end

/-! ## 2. What is sent -/

/-- The tag that the driver has for an entry. -/
def ourTag (e : UidMacMappingEntry) : Tag where
  id := if e.isServer then pppoeTagIdAcCookie else pppoeTagIdHostUniq
  value := e.uIDStr.toList
  short := by simp

/-- What is to come of a packet to send: a tag that is inserted is one more tag of the packet, and
stands in the table for the station that sends it; a packet without it is as it was. -/
structure TxTransparent (p : DisPacket) (r : TxResult) (eth : List UInt8) (code : UInt8)
    (ses : Octets 2) (tags : List Tag) : Prop where
  inserted : ∀ e, r.ours = some e →
    (∃ pad', r.data = disFrame eth code ses (tags ++ [ourTag e]) pad') ∧
      (∃ i, e ∈ r.tb.uidHash i) ∧ e.uIDAddByUs ∧ e.macAddr = p.srcMac
  untouched : r.ours = none → r.data = p.data

section

variable (tb : UidMacMappingTable) (env : TxEnv) (p : DisPacket)

/-- It stays inside the packet, and a packet that is well formed stays so. -/
def TxLaw : Prop :=
  Safe (matProtoPPPoEDisTx tb env p) ∧
    ∀ eth code ses tags pad, WellFormed p eth code ses tags pad →
      ∀ r, matProtoPPPoEDisTx tb env p = .ok r → TxTransparent p r eth code ses tags

/-- The header, the tags up to the one that is looked for and, of a valid table, its first six
octets are inside the packet. -/
def TxInside : Prop :=
  p.layer < p.data.length ∧ (p.version = 0x11 → p.layer + 1 < p.data.length ∧
    ∀ id, txTag p.code = some id → p.layer + 6 ≤ p.data.length ∧
      ∃ found, Walk p.data id (p.layer + 6) p.payloadLen found ∧
        ∀ c n, found = some (c, n) → tb.valid → c + min 6 n ≤ p.data.length)

/-- A tag is inserted: the packet has none, and there is an entry to be had and room for it. -/
def Inserts : Prop :=
  ∃ id, txTag p.code = some id ∧ Walk p.data id (p.layer + 6) p.payloadLen none ∧
    tb.CanRecord (uidUpdate env p none) ∧ env.copied ∧ env.tail.isSome

variable {tb env p}

theorem txRecord_safe {found : Option (Nat × Nat)} : Safe (txRecord tb env p found) ↔
    (found.getD (0, 0)).1 + (if tb.valid then min 6 (found.getD (0, 0)).2 else 0) ≤
      p.data.length := by
  unfold txRecord
  dsimp only
  rw [Checked.safe_bind]
  constructor
  · rintro ⟨_, hin, -⟩
    exact Checked.safe_access.1 ⟨(), hin⟩
  · intro hin
    refine ⟨(), Checked.access_ok hin, ?_⟩
    split
    · split
      · split
        · have hroom : min p.data.length (p.layer + 4 + p.payloadLen) + 10 ≤ p.data.length + 10 := by
            omega
          unfold insertTag
          dsimp only
          rw [Checked.access_ok hroom]
          exact Checked.safe_ok _
        · exact Checked.safe_ok _
      · exact Checked.safe_ok _
    · exact Checked.safe_ok _

theorem matProtoPPPoEDisTx_safe : Safe (matProtoPPPoEDisTx tb env p) ↔ TxInside tb p := by
  unfold matProtoPPPoEDisTx TxInside
  rw [disCode_bind_safe (by exact Checked.safe_ok _)]
  refine and_congr_right fun _ => forall_congr' fun _ => and_congr_right fun _ => ?_
  dsimp only
  cases htag : txTag p.code with
  | none => exact ⟨fun _ id hid => (nomatch hid), fun _ => Checked.safe_ok _⟩
  | some id =>
    simp only [Option.some.injEq, forall_eq']
    rw [Checked.safe_bind]
    constructor
    · rintro ⟨_, hin, h⟩
      have hin := Checked.safe_access.1 ⟨(), hin⟩
      obtain ⟨found, hfound, h⟩ := Checked.safe_bind.1 h
      refine ⟨by omega, found, findTag_eq_ok.1 hfound, ?_⟩
      rintro c n rfl hvalid
      have hle := txRecord_safe.1 h
      rw [if_pos hvalid] at hle
      exact hle
    · rintro ⟨hin, found, hwalk, h⟩
      refine ⟨(), Checked.access_ok (by omega), Checked.safe_bind.2
        ⟨found, findTag_eq_ok.2 hwalk, txRecord_safe.2 ?_⟩⟩
      cases found with
      | none => simp
      | some found =>
        have hle := hwalk.found_le
        split
        · rename_i hvalid
          exact h _ _ rfl hvalid
        · exact hle.2

/-- The handler on a packet that is well formed, by where its walk ends. -/
theorem WellFormed.tx_eq {eth : List UInt8} {code : UInt8} {ses : Octets 2} {tags : List Tag}
    {pad : List UInt8} (h : WellFormed p eth code ses tags pad) {id : UInt16}
    (hid : txTag code = some id) {found : Option (Nat × Nat)}
    (hwalk : Walk p.data id (p.layer + 6) p.payloadLen found) :
    matProtoPPPoEDisTx tb env p = txRecord tb env p found := by
  have hheader := h.header
  have hcode := h.disCode_eq
  unfold matProtoPPPoEDisTx
  rw [hcode, Checked.ok_bind]
  dsimp only
  rw [hid]
  dsimp only
  rw [Checked.access_ok (by omega), Checked.ok_bind, findTag_eq_ok.2 hwalk, Checked.ok_bind]

theorem insertTag_ok {tail : Octets 10} {e : UidMacMappingEntry} : insertTag p tail e = .ok
    (Mem.write (Mem.write (p.data ++ tail.toList)
      (min p.data.length (p.layer + 4 + p.payloadLen)) (tagOf e)) (p.layer + 4)
        (htons (p.payloadLen + 4 + 6))) := by
  unfold insertTag
  dsimp only
  rw [Checked.access_ok (by omega), Checked.ok_bind]
  rfl

/-- Nothing is inserted, and the packet is as it was, or a tag is. -/
theorem txRecord_cases {found : Option (Nat × Nat)} {r : TxResult}
    (hr : txRecord tb env p found = .ok r) :
    (r.ours = none ∧ r.data = p.data ∧
      ¬ (found = none ∧ tb.CanRecord (uidUpdate env p found) ∧ env.copied ∧ env.tail.isSome)) ∨
    ∃ e tail, found = none ∧ (tb.uidMacTableUpdate (uidUpdate env p found)).2 = some e ∧
      env.copied ∧ env.tail = some tail ∧ r.ours = some e ∧ insertTag p tail e = .ok r.data := by
  have hrecord := tb.uidMacTableUpdate_isSome (uidUpdate env p found)
  unfold txRecord at hr
  dsimp only at hr
  replace hr := (Checked.access_bind_eq_ok.1 hr).2
  split at hr
  · rename_i e hupdated
    split at hr
    · rename_i hcopied
      split at hr
      · rename_i tail htail
        rw [insertTag_ok, Checked.ok_bind] at hr
        cases hr
        exact .inr ⟨e, tail, rfl, hupdated, hcopied, htail, rfl, insertTag_ok⟩
      · rename_i htail
        cases hr
        refine .inl ⟨rfl, rfl, ?_⟩
        rintro ⟨-, -, -, hsome⟩
        rw [htail] at hsome
        exact nomatch hsome
    · rename_i hcopied
      cases hr
      refine .inl ⟨rfl, rfl, ?_⟩
      rintro ⟨-, -, h, -⟩
      exact hcopied h
  · rename_i hother
    cases hr
    refine .inl ⟨rfl, rfl, ?_⟩
    rintro ⟨hnone, hcan, -, -⟩
    obtain ⟨e, he⟩ := Option.isSome_iff_exists.1 (hrecord.2 hcan)
    exact hother e he hnone

/-- **A tag that is inserted damages the packet**: its third octet comes where its first belongs. -/
theorem insertTag_damages {eth : List UInt8} {code : UInt8} {ses : Octets 2} {tags : List Tag}
    {pad : List UInt8} (h : WellFormed p eth code ses tags pad) {tail : Octets 10}
    {e : UidMacMappingEntry} {data : List UInt8} (hdata : insertTag p tail e = .ok data)
    (pad' : List UInt8) : data ≠ disFrame eth code ses (tags ++ [ourTag e]) pad' := by
  have hlen := h.length_data
  have hpay := h.payloadLen_eq
  have heth := h.eth
  rw [insertTag_ok] at hdata
  cases hdata
  intro heq
  have hend := congrArg (fun l : List UInt8 => l.getD (p.layer + 6 + p.payloadLen) 0) heq
  have hmin : min p.data.length (p.layer + 4 + p.payloadLen) = p.layer + 4 + p.payloadLen := by omega
  have hbehind : p.layer + 4 + (htons (p.payloadLen + 4 + 6)).length ≤
      p.layer + 6 + p.payloadLen := by
    simp only [htons, List.length_cons, List.length_nil]
    omega
  rw [hmin, Mem.getD_write_of_le hbehind] at hend
  have hthird : (Mem.write (p.data ++ tail.toList) (p.layer + 4 + p.payloadLen) (tagOf e)).getD
      (p.layer + 6 + p.payloadLen) 0 = 0 := by
    have hread := Mem.read_write (p.data ++ tail.toList) (tagOf e) (p.layer + 4 + p.payloadLen)
    have hoctet : (Mem.read (Mem.write (p.data ++ tail.toList) (p.layer + 4 + p.payloadLen)
        (tagOf e)) (p.layer + 4 + p.payloadLen) (tagOf e).length).getD 2 0 = (tagOf e).getD 2 0 := by
      rw [hread]
    rw [Mem.getD_read _ _ (by simp [tagOf])] at hoctet
    have hidx : p.layer + 4 + p.payloadLen + 2 = p.layer + 6 + p.payloadLen := by omega
    rw [hidx] at hoctet
    rw [hoctet]
    rfl
  have hfirst : (disFrame eth code ses (tags ++ [ourTag e]) pad').getD
      (p.layer + 6 + p.payloadLen) 0 = 1 := by
    have hid : ∀ server : Bool, htons (if server then pppoeTagIdAcCookie
        else pppoeTagIdHostUniq).toNat = [1, if server then 4 else 3] := by decide
    have hone : htons (ourTag e).id.toNat = [1, if e.isServer then 4 else 3] := hid e.isServer
    have hsplit : disFrame eth code ses (tags ++ [ourTag e]) pad' =
        (eth ++ ([0x11, code] ++ ses.toList) ++ htons (payload (tags ++ [ourTag e])).length ++
          payload tags) ++ ([1, if e.isServer then 4 else 3] ++
            (htons (ourTag e).value.length ++ (ourTag e).value ++ pad')) := by
      simp [disFrame, Tag.octets, hone]
    have hfront : (eth ++ ([0x11, code] ++ ses.toList) ++
        htons (payload (tags ++ [ourTag e])).length ++ payload tags).length =
          p.layer + 6 + p.payloadLen := by
      simp only [List.length_append, htons, List.length_cons, List.length_nil,
        List.Vector.toList_length]
      omega
    rw [hsplit, List.getD_append_right _ _ _ _ (by omega), hfront, Nat.sub_self]
    rfl
  rw [hthird, hfirst] at hend
  cases hend

/-- **What is sent comes out as it should** exactly if nothing is inserted into it. -/
theorem txLaw_iff : TxLaw tb env p ↔ TxInside tb p ∧ (p.WellFormed → ¬ Inserts tb env p) := by
  constructor
  · rintro ⟨hsafe, hlaw⟩
    refine ⟨matProtoPPPoEDisTx_safe.1 hsafe, ?_⟩
    rintro ⟨eth, code, ses, tags, pad, h⟩ ⟨id, hid, hwalk, hinserts⟩
    obtain ⟨r, hr⟩ := hsafe
    have htransparent := hlaw eth code ses tags pad h r hr
    rw [h.code_eq] at hid
    rw [h.tx_eq hid hwalk] at hr
    rcases txRecord_cases hr with ⟨-, -, hnot⟩ | ⟨e, tail, -, -, -, -, hours, hdata⟩
    · exact hnot ⟨rfl, hinserts⟩
    · obtain ⟨⟨pad', hgood⟩, -⟩ := htransparent.inserted e hours
      exact insertTag_damages h hdata pad' hgood
  · rintro ⟨hinside, hclear⟩
    refine ⟨matProtoPPPoEDisTx_safe.2 hinside, ?_⟩
    intro eth code ses tags pad h r hr
    have hnot := hclear ⟨eth, code, ses, tags, pad, h⟩
    have hquiet : r.ours = none ∧ r.data = p.data := by
      cases hid : txTag code with
      | none =>
        have hcode := h.disCode_eq
        unfold matProtoPPPoEDisTx at hr
        rw [hcode, Checked.ok_bind] at hr
        dsimp only at hr
        rw [hid] at hr
        cases hr
        exact ⟨rfl, rfl⟩
      | some id =>
        have hid' : txTag p.code = some id := by rw [h.code_eq, hid]
        obtain ⟨-, found, hwalk, -⟩ := (hinside.2 h.version).2 id hid'
        rw [h.tx_eq hid hwalk] at hr
        rcases txRecord_cases hr with ⟨hours, hdata, -⟩ | ⟨e, tail, hnone, hsome, hcopied, htail, -⟩
        · exact ⟨hours, hdata⟩
        · subst hnone
          have hcan := (tb.uidMacTableUpdate_isSome (uidUpdate env p none)).1 (by rw [hsome]; rfl)
          exact absurd ⟨id, hid', hwalk, hcan, hcopied, by rw [htail]; rfl⟩ hnot
    refine ⟨?_, fun _ => hquiet.2⟩
    intro e he
    rw [hquiet.1] at he
    exact nomatch he

end

/-! ## 3. Both directions -/

/-- **Where discovery goes through the translation unharmed**, in each direction. -/
theorem pppoeDis_iff (tb : UidMacMappingTable) (env : TxEnv) (now : Ulong)
    (getInMac : Mac → Nat → Option Mac) (p : DisPacket) :
    (TxLaw tb env p ↔ TxInside tb p ∧ (p.WellFormed → ¬ Inserts tb env p)) ∧
      (RxLaw tb now getInMac p ↔ RxInside tb p ∧ (p.WellFormed → RxClear tb p)) :=
  ⟨txLaw_iff, rxLaw_iff⟩

namespace Example

/-- A table in which no station is recorded yet. -/
def noStations : UidMacMappingTable where
  valid := true
  uidHash _ := []
  placed _ _ he := absurd he List.not_mem_nil

def env : TxEnv where
  now := 0
  hz := ⟨100, Ba.OsHz.hundred_le⟩
  memory := true
  copied := true
  tail := some (Octets.zero 10)

/-- The Ethernet header of a broadcast. -/
def broadcast : List UInt8 :=
  [0xff, 0xff, 0xff, 0xff, 0xff, 0xff, 0x00, 0x11, 0x22, 0x33, 0x44, 0x55, 0x88, 0x63]

/-- A client asks for any service. -/
def anyService : Tag := ⟨0x0101, [], by decide⟩

def padi : DisPacket where
  data := disFrame broadcast pppoeCodePadi (Octets.zero 2) [anyService] []
  layer := 14
  eth := by decide

theorem padi_wellFormed :
    WellFormed padi broadcast pppoeCodePadi (Octets.zero 2) [anyService] [] :=
  ⟨rfl, rfl, by decide⟩

/-- The first packet of all, as a client sends it, does not come out as it should. -/
theorem not_transparent_padi : ¬ TxLaw noStations env padi := by
  have hnone : ∀ t ∈ [anyService], ¬ t.Names pppoeTagIdHostUniq := by
    intro t ht
    rw [List.mem_singleton] at ht
    subst ht
    exact fun h => h.2 rfl
  intro hlaw
  refine (txLaw_iff.1 hlaw).2 ⟨_, _, _, _, _, padi_wellFormed⟩ ?_
  exact ⟨pppoeTagIdHostUniq, by decide, padi_wellFormed.walk_none hnone, ⟨rfl, .inl rfl⟩, rfl, rfl⟩

end Example

end Mt7601.Mat
