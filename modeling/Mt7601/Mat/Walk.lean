/-
# The walk over the tags, and packets that are well formed

Where the loop of the handlers comes to, as a relation without the loop (`Walk`): it goes on inside
the packet or it is not a walk. Over a list of tags it passes those that are not looked for, and it
ends at the first that is (`Walk.tags`), or at the end of the payload.
-/
import Mt7601.Mat.Pppoe
import Mathlib.Data.List.GetD

namespace Mt7601.Mat

open Checked (access sub Safe)

/-! ## 1. Walks -/

/-- The walk with `left` octets to go from offset `off` on, to the tag that it ends at. -/
inductive Walk (data : List UInt8) (id : UInt16) : Nat → Nat → Option (Nat × Nat) → Prop
  | done (off : Nat) : Walk data id off 0 none
  | found {off left : Nat} (hleft : left ≠ 0) (hin : off + 4 ≤ data.length)
      (htag : wordAt data off = id.toNat ∧ 0 < wordAt data (off + 2)) :
      Walk data id off left (some (off + 4, wordAt data (off + 2)))
  | next {off left : Nat} {r : Option (Nat × Nat)} (hleft : left ≠ 0)
      (hin : off + 4 ≤ data.length)
      (htag : ¬ (wordAt data off = id.toNat ∧ 0 < wordAt data (off + 2)))
      (hrest : Walk data id (off + (wordAt data (off + 2) + 4))
        ((left + 131072 - (wordAt data (off + 2) + 4)) % 65536) r) :
      Walk data id off left r

/-- **The loop ends where the walk does**, and it is stopped if there is none. -/
theorem findTag_eq_ok {data : List UInt8} {id : UInt16} {off left : Nat}
    {r : Option (Nat × Nat)} : findTag data id off left = .ok r ↔ Walk data id off left r := by
  constructor
  · fun_induction findTag data id off left with
    | case1 off =>
      rintro ⟨⟩
      exact .done off
    | case2 off left hleft hin tagLen htag =>
      rintro ⟨⟩
      exact .found hleft hin htag
    | case3 off left hleft hin tagLen htag ih =>
      intro h
      exact .next hleft hin htag (ih h)
    | case4 off left hleft hin =>
      intro h
      exact nomatch h
  · intro h
    induction h with
    | done off => rw [findTag, if_pos rfl]
    | found hleft hin htag => rw [findTag, if_neg hleft, if_pos hin, if_pos htag]
    | next hleft hin htag hrest ih => rw [findTag, if_neg hleft, if_pos hin, if_neg htag, ih]

/-- A tag that a walk ends at lies behind where it began, and its content too. -/
theorem Walk.found_le {data : List UInt8} {id : UInt16} {off left c n : Nat}
    (h : Walk data id off left (some (c, n))) : off + 4 ≤ c ∧ c ≤ data.length := by
  generalize hr : some (c, n) = r at h
  induction h with
  | done => cases hr
  | found hleft hin htag =>
    cases hr
    exact ⟨Nat.le_refl _, hin⟩
  | next hleft hin htag hrest ih =>
    obtain ⟨hoff, hlen⟩ := ih hr
    exact ⟨by omega, hlen⟩

/-! ## 2. Packets of tags -/

structure Tag where
  id : UInt16
  value : List UInt8
  short : value.length < 65536

namespace Tag

def octets (t : Tag) : List UInt8 := htons t.id.toNat ++ htons t.value.length ++ t.value

/-- It is one that the handlers look for. -/
def Names (t : Tag) (id : UInt16) : Prop := t.id = id ∧ t.value ≠ []

theorem length_octets (t : Tag) : t.octets.length = t.value.length + 4 := by
  simp only [octets, htons, List.length_append, List.length_cons, List.length_nil]
  omega

end Tag

def payload (tags : List Tag) : List UInt8 := tags.flatMap Tag.octets

@[simp] theorem payload_nil : payload [] = [] := rfl

@[simp] theorem payload_cons (t : Tag) (ts : List Tag) : payload (t :: ts) = t.octets ++ payload ts :=
  rfl

@[simp] theorem payload_append (ts ts' : List Tag) :
    payload (ts ++ ts') = payload ts ++ payload ts' :=
  List.flatMap_append

/-- A discovery packet: an Ethernet header, the header, the tags, and octets that fill up. -/
def disFrame (eth : List UInt8) (code : UInt8) (ses : Octets 2) (tags : List Tag)
    (pad : List UInt8) : List UInt8 :=
  eth ++ ([0x11, code] ++ ses.toList) ++ htons (payload tags).length ++ payload tags ++ pad

theorem beVal_htons {n : Nat} (h : n < 65536) : beVal (htons n) = n := by
  simp only [htons, beVal, List.length_cons, List.length_nil, UInt8.toNat_ofNat',
    Nat.pow_zero]
  omega

/-- A number in the middle of the packet. -/
theorem wordAt_middle {data : List UInt8} {off n : Nat} (front rest : List UInt8)
    (hdata : data = front ++ (htons n ++ rest)) (hoff : off = front.length) (hn : n < 65536) :
    wordAt data off = n := by
  have hread : Mem.read data off 2 = htons n := Mem.read_middle front rest hdata hoff rfl
  rw [wordAt, hread, beVal_htons hn]

/-- **Over tags that are not looked for the walk goes on.** -/
theorem Walk.tags {data : List UInt8} {id : UInt16} {left : Nat} {r : Option (Nat × Nat)}
    {tags : List Tag} (hnone : ∀ t ∈ tags, ¬ t.Names id) {front rest : List UInt8}
    (hdata : data = front ++ (payload tags ++ rest))
    (hlen : (payload tags).length + left < 65536)
    (hrest : Walk data id (front.length + (payload tags).length) left r) :
    Walk data id front.length ((payload tags).length + left) r := by
  induction tags generalizing front with
  | nil => simpa using hrest
  | cons t ts ih =>
    obtain ⟨ht, hts⟩ := List.forall_mem_cons.1 hnone
    have hoct := t.length_octets
    simp only [payload_cons, List.length_append] at hlen hrest ⊢
    have hid : wordAt data front.length = t.id.toNat := by
      refine wordAt_middle front (htons t.value.length ++ t.value ++ payload ts ++ rest) ?_ rfl
        t.id.toNat_lt
      simp [hdata, Tag.octets]
    have htagLen : wordAt data (front.length + 2) = t.value.length := by
      refine wordAt_middle (front ++ htons t.id.toNat) (t.value ++ payload ts ++ rest) ?_ ?_ t.short
      · simp [hdata, Tag.octets]
      · simp [htons]
    have hsize : data.length = front.length + (t.octets.length + (payload ts).length) + rest.length
        := by
      simp [hdata]
      omega
    refine .next (by omega) (by omega) ?_ ?_
    · rw [hid, htagLen]
      rintro ⟨hsame, hpos⟩
      exact ht ⟨UInt16.toNat_inj.1 hsame, List.ne_nil_of_length_pos hpos⟩
    · rw [htagLen]
      have hleft : (t.octets.length + (payload ts).length + left + 131072 - (t.value.length + 4)) %
          65536 = (payload ts).length + left := by omega
      rw [hleft]
      have hstep : Walk data id (front ++ t.octets).length ((payload ts).length + left) r :=
        ih hts (by simp [hdata]) (by omega) (by simpa [Nat.add_assoc] using hrest)
      simpa [hoct, Nat.add_assoc] using hstep

end Mt7601.Mat
