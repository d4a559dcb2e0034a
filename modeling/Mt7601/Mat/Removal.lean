/-
# Taking a tag out of a packet

What is in a packet that is well formed, where its walk ends (`WellFormed.walk_none`,
`WellFormed.walk_found`), and what `memmove` leaves of it when a tag is taken out: the last four
octets do not move with the others, so that the packet is as it should be only if they are the same
as those that stand ten octets in front of them, or are not part of a tag (`removeTag_eq`).
-/
import Mt7601.Mat.Walk

namespace Mt7601.Mat

open Checked (access sub Safe)

/-! ## 1. Packets that are well formed -/

structure WellFormed (p : DisPacket) (eth : List UInt8) (code : UInt8) (ses : Octets 2)
    (tags : List Tag) (pad : List UInt8) : Prop where
  data : p.data = disFrame eth code ses tags pad
  eth : eth.length = p.layer
  size : (payload tags).length < 65536

def DisPacket.WellFormed (p : DisPacket) : Prop :=
  ∃ eth code ses tags pad, Mat.WellFormed p eth code ses tags pad

/-- The octets of a tag as it is looked up, and all of them. -/
def DisPacket.content (p : DisPacket) (c n : Nat) : List UInt8 := (p.data.drop c).take n

namespace WellFormed

variable {p : DisPacket} {eth : List UInt8} {code : UInt8} {ses : Octets 2} {tags : List Tag}
  {pad : List UInt8} (h : WellFormed p eth code ses tags pad)

include h

theorem length_data : p.data.length = p.layer + 6 + (payload tags).length + pad.length := by
  rw [h.data, ← h.eth]
  simp only [disFrame, htons, List.length_append, List.length_cons, List.length_nil,
    List.Vector.toList_length]

theorem header : p.layer + 6 ≤ p.data.length := by
  have := h.length_data
  omega

theorem version : p.version = 0x11 := by
  have hlen : p.layer = eth.length := h.eth.symm
  simp [DisPacket.version, h.data, disFrame, hlen, List.getD_eq_getElem?_getD]

theorem code_eq : p.code = code := by
  have hlen : p.layer = eth.length := h.eth.symm
  simp [DisPacket.code, h.data, disFrame, hlen, List.getD_eq_getElem?_getD]

theorem payloadLen_eq : p.payloadLen = (payload tags).length := by
  refine wordAt_middle (eth ++ ([0x11, code] ++ ses.toList)) (payload tags ++ pad) ?_ ?_ h.size
  · simp [h.data, disFrame]
  · simp [h.eth]

/-- What stands in front of the tags. -/
theorem data_eq : ∃ front, front.length = p.layer + 6 ∧ p.data = front ++ (payload tags ++ pad) :=
  ⟨eth ++ ([0x11, code] ++ ses.toList) ++ htons (payload tags).length, by simp [h.eth, htons], by
    simp [h.data, disFrame]⟩

theorem walk_none {id : UInt16} (hnone : ∀ t ∈ tags, ¬ t.Names id) :
    Walk p.data id (p.layer + 6) p.payloadLen none := by
  obtain ⟨front, hfront, hdata⟩ := h.data_eq
  have hsize := h.size
  rw [h.payloadLen_eq, ← hfront]
  exact Walk.tags hnone hdata hsize (.done _)

theorem walk_found {id : UInt16} {before after : List Tag} {t : Tag}
    (htags : tags = before ++ t :: after) (hbefore : ∀ t' ∈ before, ¬ t'.Names id)
    (ht : t.Names id) :
    Walk p.data id (p.layer + 6) p.payloadLen
      (some (p.layer + 6 + (payload before).length + 4, t.value.length)) := by
  obtain ⟨front, hfront, hdata⟩ := h.data_eq
  have hsize := h.size
  have hoct := t.length_octets
  subst htags
  simp only [payload_append, payload_cons, List.length_append] at hsize
  rw [h.payloadLen_eq, ← hfront]
  simp only [payload_append, payload_cons, List.length_append, List.append_assoc] at hdata ⊢
  have hid : wordAt p.data (front.length + (payload before).length) = t.id.toNat := by
    refine wordAt_middle (front ++ payload before)
      (htons t.value.length ++ t.value ++ payload after ++ pad) ?_ (by simp) t.id.toNat_lt
    simp [hdata, Tag.octets]
  have htagLen : wordAt p.data (front.length + (payload before).length + 2) = t.value.length := by
    refine wordAt_middle (front ++ payload before ++ htons t.id.toNat)
      (t.value ++ payload after ++ pad) ?_ (by simp [htons, Nat.add_assoc]) t.short
    simp [hdata, Tag.octets]
  refine Walk.tags hbefore hdata (by omega) ?_
  rw [← htagLen]
  refine .found (by omega) ?_ ?_
  · rw [hdata]
    simp only [List.length_append]
    omega
  · rw [hid, htagLen]
    exact ⟨congrArg _ ht.1, List.length_pos_of_ne_nil ht.2⟩

/-- Where the content of a tag is. -/
theorem content_eq {before after : List Tag} {t : Tag} (htags : tags = before ++ t :: after) :
    p.data.drop (p.layer + 6 + (payload before).length + 4) = t.value ++ (payload after ++ pad) := by
  obtain ⟨front, hfront, hdata⟩ := h.data_eq
  subst htags
  have hsplit : p.data = (front ++ payload before ++ (htons t.id.toNat ++ htons t.value.length)) ++
      (t.value ++ (payload after ++ pad)) := by
    simp [hdata, Tag.octets]
  rw [hsplit, List.drop_left']
  simp [hfront, htons]
  omega

end WellFormed

/-! ## 2. Taking a tag out -/

/-- What is left of a packet from which `m` octets behind `front` are taken out as the handler does
it: the last four of the octets behind stay where they are, and what stands in front of them comes
in their place. -/
theorem cut_eq {data front tag back : List UInt8} (hdata : data = front ++ (tag ++ back))
    (hback : 4 ≤ back.length) :
    (Mem.write data front.length
        (Mem.read data (front.length + tag.length) (back.length - 4))).take
          (data.length - tag.length) =
      front ++ (back.take (back.length - 4) ++
        (data.drop (front.length + (back.length - 4))).take 4) := by
  have hread : Mem.read data (front.length + tag.length) (back.length - 4) =
      back.take (back.length - 4) := by
    refine Mem.read_middle (front ++ tag) (back.drop (back.length - 4)) ?_ (by simp) (by simp)
    rw [List.take_append_drop, hdata, List.append_assoc]
  have hlen : data.length = front.length + (tag.length + back.length) := by simp [hdata]
  have hmoved : (back.take (back.length - 4)).length = back.length - 4 := by simp
  rw [hread, Mem.write_eq_take (by omega), hmoved]
  have hfront : data.take front.length = front := by simp [hdata]
  rw [hfront, List.append_assoc, List.take_append, List.take_of_length_le (by omega),
    List.take_append, List.take_of_length_le (by omega), hmoved]
  congr 3
  omega

theorem htons_add (n : Nat) : htons (n + 65536) = htons n := by
  unfold htons
  have hhigh : UInt8.ofNat ((n + 65536) / 256) = UInt8.ofNat (n / 256) :=
    UInt8.toNat_inj.1 (by simp only [UInt8.toNat_ofNat']; omega)
  have hlow : UInt8.ofNat (n + 65536) = UInt8.ofNat n :=
    UInt8.toNat_inj.1 (by simp only [UInt8.toNat_ofNat']; omega)
  rw [hhigh, hlow]

/-- The octets that do not move are those that should have come there, as far as they are tags. -/
def Unmoved (p : DisPacket) : Prop :=
  ∀ k, p.data.length - 4 ≤ k → k < p.layer + 6 + p.payloadLen →
    p.data.getD k 0 = p.data.getD (k - 10) 0

/-- It is safe with four octets behind the tag. -/
theorem removeTag_safe {p : DisPacket} {c m : Nat} (hc : c + m ≤ p.data.length) :
    Safe (removeTag p c m) ↔ c + m + 4 ≤ p.data.length := by
  unfold removeTag
  simp only [Checked.safe_bind]
  constructor
  · rintro ⟨tailLen, hsub, -⟩
    have hle := Checked.safe_sub.1 ⟨tailLen, hsub⟩
    omega
  · intro hle
    refine ⟨_, Checked.sub_ok (by omega), (), Checked.access_ok (by omega), ?_⟩
    exact Checked.safe_ok _

theorem removeTag_ok {p : DisPacket} {c m : Nat} (hc : c + m + 4 ≤ p.data.length) :
    removeTag p c m = .ok (Mem.write
      ((Mem.write p.data (c - 4) (Mem.read p.data (c + m) (p.data.length - c - (4 + m)))).take
        (p.data.length - (4 + m))) (p.layer + 4) (htons (p.payloadLen + 65536 - (4 + m)))) := by
  unfold removeTag
  dsimp only
  rw [Checked.sub_ok (by omega), Checked.ok_bind, Checked.access_ok (by omega), Checked.ok_bind]
  rfl

/-- A packet that a tag has been taken out of is shorter. -/
theorem length_removeTag {p : DisPacket} {c m : Nat} {data : List UInt8}
    (hlayer : p.layer + 6 + 4 ≤ c) (h : removeTag p c m = .ok data)
    (hc : c + m + 4 ≤ p.data.length) : data.length + (4 + m) = p.data.length := by
  rw [removeTag_ok hc] at h
  cases h
  have hmoved : (Mem.write p.data (c - 4) (Mem.read p.data (c + m)
      (p.data.length - c - (4 + m)))).length = p.data.length :=
    Mem.length_write (by rw [Mem.length_read]; omega)
  rw [Mem.length_write]
  · rw [List.length_take, hmoved]
    omega
  · rw [List.length_take, hmoved]
    simp only [htons, List.length_cons, List.length_nil]
    omega

/-- Octets that are the same in front of the last four are the same if the last four are. -/
theorem take_append_eq_iff {data front tag rest pad : List UInt8}
    (hdata : data = front ++ (tag ++ (rest ++ pad))) (hback : 4 ≤ (rest ++ pad).length) :
    (∃ pad', pad'.length = pad.length ∧
        (rest ++ pad).take ((rest ++ pad).length - 4) ++
          (data.drop (front.length + ((rest ++ pad).length - 4))).take 4 = rest ++ pad') ↔
      ∀ k, data.length - 4 ≤ k → k < front.length + tag.length + rest.length →
        data.getD k 0 = data.getD (k - tag.length) 0 := by
  generalize hmoved : (rest ++ pad).take ((rest ++ pad).length - 4) ++
    (data.drop (front.length + ((rest ++ pad).length - 4))).take 4 = moved
  have hlen : data.length = front.length + (tag.length + (rest ++ pad).length) := by simp [hdata]
  have hsize : moved.length = rest.length + pad.length := by
    rw [← hmoved]
    simp only [List.length_append, List.length_take, List.length_drop] at hlen hback ⊢
    omega
  have hfront : ∀ j, j < (rest ++ pad).length - 4 → moved.getD j 0 = (rest ++ pad).getD j 0 := by
    intro j hj
    rw [← hmoved, List.getD_append _ _ _ _ (by rw [List.length_take]; omega),
      List.getD_eq_getElem?_getD, List.getElem?_take_of_lt hj, List.getD_eq_getElem?_getD]
  have hlast : ∀ j, (rest ++ pad).length - 4 ≤ j → j < (rest ++ pad).length →
      moved.getD j 0 = data.getD (front.length + j) 0 := by
    intro j hj hlt
    have htake : ((rest ++ pad).take ((rest ++ pad).length - 4)).length = (rest ++ pad).length - 4 :=
      by simp
    rw [← hmoved, List.getD_append_right _ _ _ _ (by omega), List.getD_eq_getElem?_getD,
      List.getElem?_take_of_lt (by omega), List.getElem?_drop, List.getD_eq_getElem?_getD]
    congr 2
    omega
  have hrest : ∀ j, j < rest.length →
      rest.getD j 0 = data.getD (front.length + tag.length + j) 0 := by
    intro j hj
    have hsplit : data = (front ++ tag) ++ (rest ++ pad) := by simp [hdata]
    rw [hsplit, List.getD_append_right _ _ _ _ (by simp), List.length_append,
      Nat.add_sub_cancel_left, List.getD_append _ _ _ _ hj]
  constructor
  · rintro ⟨pad', -, heq⟩ k hle hlt
    rw [List.length_append] at hlen hback hfront hlast
    have hk := hlast (k - (front.length + tag.length)) (by omega) (by omega)
    rw [heq, List.getD_append _ _ _ _ (by omega), hrest _ (by omega)] at hk
    have hleft : front.length + tag.length + (k - (front.length + tag.length)) = k := by omega
    have hright : front.length + (k - (front.length + tag.length)) = k - tag.length := by omega
    rw [hleft, hright] at hk
    exact hk
  · intro hsame
    refine ⟨moved.drop rest.length, by rw [List.length_drop]; omega, ?_⟩
    have htake : moved.take rest.length = rest := by
      refine List.ext_getElem (by rw [List.length_take]; omega) fun j hj hj' => ?_
      have hleft : (moved.take rest.length)[j] = moved.getD j 0 := by
        rw [List.getElem_take, List.getD_eq_getElem _ _ (by omega)]
      have hright : rest[j] = rest.getD j 0 := (List.getD_eq_getElem _ _ hj').symm
      rw [hleft, hright]
      by_cases hin : j < (rest ++ pad).length - 4
      · rw [hfront j hin, List.getD_append _ _ _ _ hj']
      · rw [List.length_append] at hin hlen hlast hback
        rw [hlast j (by omega) (by omega), hrest j hj']
        have hk := hsame (front.length + tag.length + j) (by omega) (by omega)
        have hidx : front.length + tag.length + j - tag.length = front.length + j := by omega
        rw [hk, hidx]
    calc moved = moved.take rest.length ++ moved.drop rest.length :=
          (List.take_append_drop _ _).symm
      _ = rest ++ moved.drop rest.length := by rw [htake]

/-- **Taking out a tag of six octets leaves the others**, if those that do not move are the same. -/
theorem removeTag_eq {p : DisPacket} {eth : List UInt8} {code : UInt8} {ses : Octets 2}
    {before after : List Tag} {t : Tag} {pad data : List UInt8}
    (h : WellFormed p eth code ses (before ++ t :: after) pad) (ht : t.value.length = 6)
    (hc : p.layer + 6 + (payload before).length + 4 + 6 + 4 ≤ p.data.length)
    (hdata : removeTag p (p.layer + 6 + (payload before).length + 4) 6 = .ok data) :
    (∃ pad', pad'.length = pad.length ∧ data = disFrame eth code ses (before ++ after) pad') ↔
      Unmoved p := by
  have hlenData := h.length_data
  have hpay := h.payloadLen_eq
  have hoct := t.length_octets
  have heth := h.eth
  simp only [payload_append, payload_cons, List.length_append] at hlenData hpay
  obtain ⟨front₀, hfront₀⟩ : ∃ front₀, front₀ = eth ++ ([0x11, code] ++ ses.toList) := ⟨_, rfl⟩
  have hlen₀ : front₀.length = p.layer + 4 := by simp [hfront₀, heth]
  obtain ⟨front, hfront⟩ : ∃ front, front = front₀ ++ htons p.payloadLen ++ payload before :=
    ⟨_, rfl⟩
  have hlenFront : front.length = p.layer + 6 + (payload before).length := by
    simp only [hfront, List.length_append, hlen₀, htons, List.length_cons, List.length_nil]
  have hsplit : p.data = front ++ (t.octets ++ (payload after ++ pad)) := by
    rw [h.data, disFrame, ← h.payloadLen_eq, hfront, hfront₀]
    simp
  have hback : 4 ≤ (payload after ++ pad).length := by
    rw [List.length_append]
    omega
  have hcut := cut_eq hsplit hback
  -- the packet that is made, and the one that is wanted
  rw [removeTag_ok (by omega)] at hdata
  cases hdata
  have harg : p.layer + 6 + (payload before).length + 4 - 4 = front.length := by omega
  have hread : p.layer + 6 + (payload before).length + 4 + 6 = front.length + t.octets.length := by
    omega
  have htail : p.data.length - (p.layer + 6 + (payload before).length + 4) - (4 + 6) =
      (payload after ++ pad).length - 4 := by
    rw [List.length_append]
    omega
  have hremoved : p.data.length - (4 + 6) = p.data.length - t.octets.length := by omega
  have hnew : p.payloadLen + 65536 - (4 + 6) =
      (payload before).length + (payload after).length + 65536 := by omega
  rw [harg, hread, htail, hremoved, hcut, hnew, htons_add]
  have hwrite : ∀ moved, Mem.write (front ++ moved) (p.layer + 4)
      (htons ((payload before).length + (payload after).length)) =
        front₀ ++ (htons ((payload before).length + (payload after).length) ++
          (payload before ++ moved)) := by
    intro moved
    refine Mem.write_middle front₀ (payload before ++ moved) ?_ hlen₀.symm (l := htons p.payloadLen)
      rfl
    simp [hfront]
  rw [hwrite]
  have hwant : ∀ pad', disFrame eth code ses (before ++ after) pad' =
      front₀ ++ (htons ((payload before).length + (payload after).length) ++
        (payload before ++ (payload after ++ pad'))) := by
    intro pad'
    rw [disFrame, hfront₀]
    simp
  simp only [hwant, List.append_cancel_left_eq]
  rw [take_append_eq_iff hsplit hback]
  have hend : p.layer + 6 + p.payloadLen =
      front.length + t.octets.length + (payload after).length := by omega
  have hten : t.octets.length = 10 := by omega
  rw [Unmoved, hend, hten]

end Mt7601.Mat
