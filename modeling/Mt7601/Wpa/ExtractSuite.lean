/-
# `WPA_ExtractSuiteFromRSNIE`

What an RSN or WPA element lists (`common/cmm_wpa.c`): its group suite, its pairwise suites, its
suites of authentication and, in an RSN element, its capabilities and its PMKIDs. The four parts
are gone over one behind the other, each only as far as the length allows, until the one asked for.

The length is an `int`. It is compared with a `sizeof`, which makes it unsigned, and with the
lengths of the lists, which come from their counts by a subtraction in an `int` and a sum with a
`sizeof`.
-/
import Mt7601.Ap.RsnIe
import Mt7601.Lib.CountedList

namespace Mt7601.Wpa

open Ap (WpaVersion)
open Checked
open CountedList (u16 readU16 readU16_ok u16_lt)

/-! ## 1. The parser -/

/-- `GROUP_SUITE` to `G_MGMT_SUITE` -/
inductive SuiteType
  | group
  | pairwise
  | akm
  | rsnCapInfo
  | pmkidList
  | gMgmt
  deriving DecidableEq, Repr

/-- The octets of what is counted: a suite has four, the capabilities two, a PMKID sixteen. -/
def SuiteType.itemLen : SuiteType → Nat
  | .group | .pairwise | .akm | .gMgmt => 4
  | .rsnCapInfo => 2
  | .pmkidList => 16

namespace ExtractSuite

/-- An `int` where it meets a `size_t`. -/
def toSize (n : Int) : Nat := (n % 2 ^ 32).toNat

/-- `sizeof(head) + item * (count - 1)` in an `int`. The structures have room for one item. -/
def listEnd (head item count : Nat) : Int :=
  ((head + toSize (item * ((count : Int) - 1)) : Nat) : Int).bmod (2 ^ 32)

/-- The pointer, as an offset of the element, with `*count`; nothing where it is `NULL`, and then
the count is zero. -/
abbrev Suites := Option (Nat × UInt8)

/-- The PMKIDs, `sizeof(RSNIE_PMKID)` being 18. -/
def extractPmkidList (rsnie : List UInt8) (type : SuiteType) (pBuf : Nat) (len : Int) :
    Checked Suites := do
  if toSize len < 2 then return none
  let pCount ← readU16 rsnie pBuf
  if 0 < pCount then
    let offset := listEnd 18 16 pCount
    if len < offset then return none
    else if type = .pmkidList then return some (pBuf + 2, UInt8.ofNat pCount)
    else return none
  else return none

/-- The capabilities. -/
def extractCapInfo (rsnie : List UInt8) (type : SuiteType) (pBuf : Nat) (len : Int) :
    Checked Suites :=
  if toSize len < 2 then return none
  else if type = .rsnCapInfo then return some (pBuf, 1)
  else extractPmkidList rsnie type (pBuf + 2) (len - 2)

/-- The suites of authentication, `sizeof(RSNIE_AUTH)` being 6; a WPA element is left here. -/
def extractAkm (rsnie : List UInt8) (v : WpaVersion) (type : SuiteType) (pBuf : Nat) (len : Int) :
    Checked Suites := do
  if toSize len < 6 then return none
  let aCnt ← readU16 rsnie pBuf
  let offset := listEnd 6 4 aCnt
  if len < offset then return none
  else if type = .akm then return some (pBuf + 2, UInt8.ofNat aCnt)
  else if v = .wpa then return none
  else extractCapInfo rsnie type (pBuf + offset.toNat) (len - offset)

/-- `sizeof(RSNIE)` and `sizeof(RSNIE2)` -/
def sizeofRsnIe (v : WpaVersion) : Nat := v.ucast + 4

/-- The group suite and the pairwise suites, in the layout of the version. -/
def extractCipher (rsnie : List UInt8) (v : WpaVersion) (type : SuiteType) (pBuf : Nat)
    (len : Int) : Checked Suites := do
  if toSize len < sizeofRsnIe v then return none
  let uCnt ← readU16 rsnie (pBuf + v.ucount)
  let offset := listEnd (sizeofRsnIe v) 4 uCnt
  if len < offset then return none
  else if type = .group then return some (pBuf + v.mcast, 1)
  else if type = .pairwise then return some (pBuf + v.ucast, UInt8.ofNat uCnt)
  else extractAkm rsnie v type (pBuf + offset.toNat) (len - offset)

end ExtractSuite

open ExtractSuite

/-- `WPA_ExtractSuiteFromRSNIE` -/
def wpaExtractSuiteFromRsnIe (rsnie : List UInt8) (rsnieLen : UInt32) (type : SuiteType) :
    Checked Suites := do
  let len : Int := ((rsnieLen.toNat : Int) - 2).bmod (2 ^ 32)
  if len ≤ 0 then return none
  let elemLen ← octet rsnie 1
  if (elemLen.toNat : Int) ≠ len then return none
  let eid ← octet rsnie 0
  match WpaVersion.ofEid eid with
  | some v => extractCipher rsnie v type 2 len
  | none => return none

/-! ## 2. Lengths -/

namespace ExtractSuite

theorem toSize_natCast {n : Nat} (h : n < 2 ^ 32) : toSize n = n := by
  unfold toSize
  omega

/-- What is left of a length without identifier and length octet. -/
theorem intLen_eq {n : Nat} (htwo : 2 < n) (hn : n < 2 ^ 31 + 2) :
    ((n : Int) - 2).bmod (2 ^ 32) = ((n - 2 : Nat) : Int) := by
  rw [Int.bmod]
  split <;> omega

theorem intLen_nonpos {n : Nat} (hlt : n < 2 ^ 32) (hn : ¬ (2 < n ∧ n < 2 ^ 31 + 2)) :
    ((n : Int) - 2).bmod (2 ^ 32) ≤ 0 := by
  rw [Int.bmod]
  split <;> omega

/-- **The length of a list is that of its head and its items**, also of none. -/
theorem listEnd_eq {head item count : Nat} (hhead : head ≤ 65536) (hitem : item ≤ head)
    (hle : item ≤ 16) (hcount : count < 65536) :
    listEnd head item count = ((head - item + item * count : Nat) : Int) := by
  have hmul : item * count ≤ 16 * 65535 := Nat.mul_le_mul hle (Nat.le_of_lt_succ hcount)
  have hsub : (item : Int) * ((count : Int) - 1) = ((item * count : Nat) : Int) - item := by
    rw [Int.mul_sub, Int.mul_one, Int.natCast_mul]
  unfold listEnd toSize
  rw [hsub]
  generalize item * count = total at hmul
  rw [Int.bmod]
  split <;> omega

/-! ## 3. What a part does -/

section

variable {rsnie : List UInt8} {type : SuiteType} {v : WpaVersion} {p len : Nat}

theorem extractPmkidList_eq (hlen : p + len = rsnie.length) (hlt : len < 2 ^ 32) :
    extractPmkidList rsnie type p len =
      if len < 2 ∨ u16 rsnie p = 0 ∨ len < 2 + 16 * u16 rsnie p then .ok none
      else if type = .pmkidList then .ok (some (p + 2, UInt8.ofNat (u16 rsnie p)))
      else .ok none := by
  unfold extractPmkidList
  rw [toSize_natCast hlt]
  by_cases hshort : len < 2
  · rw [if_pos hshort, if_pos (.inl hshort)]
    rfl
  have hcount := u16_lt rsnie p
  rw [if_neg hshort, readU16_ok (by omega), ok_bind,
    listEnd_eq (by decide) (by decide) (by decide) hcount]
  by_cases hpos : 0 < u16 rsnie p
  · rw [if_pos hpos]
    by_cases hfit : len < 2 + 16 * u16 rsnie p
    · rw [if_pos (by omega), if_pos (by omega)]
      rfl
    have hin : ¬ (len < 2 ∨ u16 rsnie p = 0 ∨ len < 2 + 16 * u16 rsnie p) := by omega
    rw [if_neg (by omega), if_neg hin]
    rfl
  · rw [if_neg hpos, if_pos (by omega)]
    rfl

theorem extractCapInfo_eq (hlt : len < 2 ^ 32) :
    extractCapInfo rsnie type p len =
      if len < 2 then .ok none
      else if type = .rsnCapInfo then .ok (some (p, 1))
      else extractPmkidList rsnie type (p + 2) (len - 2 : Nat) := by
  unfold extractCapInfo
  rw [toSize_natCast hlt]
  by_cases hshort : len < 2
  · rw [if_pos hshort, if_pos hshort]
    rfl
  have hrest : (len : Int) - 2 = ((len - 2 : Nat) : Int) := by omega
  rw [if_neg hshort, if_neg hshort, hrest]
  rfl

theorem extractAkm_eq (hlen : p + len = rsnie.length) (hlt : len < 2 ^ 32) :
    extractAkm rsnie v type p len =
      if len < 6 ∨ len < 2 + 4 * u16 rsnie p then .ok none
      else if type = .akm then .ok (some (p + 2, UInt8.ofNat (u16 rsnie p)))
      else if v = .wpa then .ok none
      else extractCapInfo rsnie type (p + (2 + 4 * u16 rsnie p))
        (len - (2 + 4 * u16 rsnie p) : Nat) := by
  unfold extractAkm
  rw [toSize_natCast hlt]
  by_cases hshort : len < 6
  · rw [if_pos hshort, if_pos (.inl hshort)]
    rfl
  have hcount := u16_lt rsnie p
  rw [if_neg hshort, readU16_ok (by omega), ok_bind,
    listEnd_eq (by decide) (by decide) (by decide) hcount]
  by_cases hfit : len < 2 + 4 * u16 rsnie p
  · rw [if_pos (by omega), if_pos (.inr hfit)]
    rfl
  have hin : ¬ (len < 6 ∨ len < 2 + 4 * u16 rsnie p) := by omega
  rw [if_neg (by omega), if_neg hin, Int.toNat_natCast, ← Int.ofNat_sub (by omega)]
  rfl

theorem extractCipher_eq (hlen : p + len = rsnie.length) (hlt : len < 2 ^ 32) :
    extractCipher rsnie v type p len =
      if len < v.ucast + 4 ∨ len < v.ucast + 4 * u16 rsnie (p + v.ucount) then .ok none
      else if type = .group then .ok (some (p + v.mcast, 1))
      else if type = .pairwise then
        .ok (some (p + v.ucast, UInt8.ofNat (u16 rsnie (p + v.ucount))))
      else extractAkm rsnie v type (p + (v.ucast + 4 * u16 rsnie (p + v.ucount)))
        (len - (v.ucast + 4 * u16 rsnie (p + v.ucount)) : Nat) := by
  have hucount : v.ucount + 2 = v.ucast := rfl
  have hsize : sizeofRsnIe v = v.ucast + 4 := rfl
  have hucast : v.ucast ≤ 12 := by cases v <;> decide
  unfold extractCipher
  rw [toSize_natCast hlt, hsize]
  by_cases hshort : len < v.ucast + 4
  · rw [if_pos hshort, if_pos (.inl hshort)]
    rfl
  have hcount := u16_lt rsnie (p + v.ucount)
  rw [if_neg hshort, readU16_ok (by omega), ok_bind,
    listEnd_eq (by omega) (by omega) (by decide) hcount, Nat.add_sub_cancel]
  by_cases hfit : len < v.ucast + 4 * u16 rsnie (p + v.ucount)
  · rw [if_pos (by omega), if_pos (.inr hfit)]
    rfl
  have hin : ¬ (len < v.ucast + 4 ∨ len < v.ucast + 4 * u16 rsnie (p + v.ucount)) := by omega
  rw [if_neg (by omega), if_neg hin, Int.toNat_natCast, ← Int.ofNat_sub (by omega)]
  rfl

/-- Past the checks of the length. -/
theorem wpaExtractSuiteFromRsnIe_eq {rsnieLen : UInt32} (hlen : rsnie.length = rsnieLen.toNat) :
    wpaExtractSuiteFromRsnIe rsnie rsnieLen type =
      if 2 < rsnie.length ∧ (rsnie.getD 1 0).toNat = rsnie.length - 2 then
        match WpaVersion.ofEid (rsnie.getD 0 0) with
        | some v => extractCipher rsnie v type 2 (rsnie.length - 2 : Nat)
        | none => .ok none
      else .ok none := by
  have hlt := rsnieLen.toNat_lt
  have hoct := (rsnie.getD 1 0).toNat_lt
  unfold wpaExtractSuiteFromRsnIe
  rw [← hlen] at hlt ⊢
  by_cases hint : 2 < rsnie.length ∧ rsnie.length < 2 ^ 31 + 2
  · rw [intLen_eq hint.1 hint.2, if_neg (by omega), octet_ok (by omega), ok_bind]
    by_cases hsame : (rsnie.getD 1 0).toNat = rsnie.length - 2
    · rw [if_neg (by omega), octet_ok (by omega), ok_bind, if_pos ⟨hint.1, hsame⟩]
      rfl
    · rw [if_pos (by omega), if_neg fun h => hsame h.2]
      rfl
  · have hno : ¬ (2 < rsnie.length ∧ (rsnie.getD 1 0).toNat = rsnie.length - 2) := by omega
    rw [if_pos (intLen_nonpos hlt hint), if_neg hno]
    rfl

/-! ## 4. Nothing behind the element -/

/-- The parser is not stopped, and what it points at is inside the element. -/
def Inside (rsnie : List UInt8) (type : SuiteType) (x : Checked Suites) : Prop :=
  ∃ r, x = .ok r ∧ ∀ p count, r = some (p, count) →
    p < rsnie.length ∧ p + type.itemLen * count.toNat ≤ rsnie.length

theorem inside_none : Inside rsnie type (.ok none) := ⟨none, rfl, fun _ _ h => nomatch h⟩

theorem inside_some {n : Nat} (hp : p < rsnie.length) (h : p + type.itemLen * n ≤ rsnie.length) :
    Inside rsnie type (.ok (some (p, UInt8.ofNat n))) := by
  refine ⟨_, rfl, ?_⟩
  intro p' count heq
  cases heq
  refine ⟨hp, le_trans (Nat.add_le_add_left (Nat.mul_le_mul_left _ ?_) p) h⟩
  rw [UInt8.toNat_ofNat']
  exact Nat.mod_le _ _

theorem inside_one (hp : p < rsnie.length) (h : p + type.itemLen ≤ rsnie.length) :
    Inside rsnie type (.ok (some (p, 1))) := by
  have hone := inside_some (n := 1) hp (by rwa [Nat.mul_one])
  exact hone

theorem inside_pmkidList (hlen : p + len = rsnie.length) (hlt : len < 2 ^ 32) :
    Inside rsnie type (extractPmkidList rsnie type p len) := by
  rw [extractPmkidList_eq hlen hlt]
  split_ifs with hout htype
  · exact inside_none
  · subst htype
    exact inside_some (by omega) (by simp only [SuiteType.itemLen]; omega)
  · exact inside_none

theorem inside_capInfo (hlen : p + len = rsnie.length) (hlt : len < 2 ^ 32) :
    Inside rsnie type (extractCapInfo rsnie type p len) := by
  rw [extractCapInfo_eq hlt]
  split_ifs with hout htype
  · exact inside_none
  · subst htype
    exact inside_one (by omega) (by simp only [SuiteType.itemLen]; omega)
  · exact inside_pmkidList (by omega) (by omega)

theorem inside_akm (hlen : p + len = rsnie.length) (hlt : len < 2 ^ 32) :
    Inside rsnie type (extractAkm rsnie v type p len) := by
  rw [extractAkm_eq hlen hlt]
  split_ifs with hout htype hv
  · exact inside_none
  · subst htype
    exact inside_some (by omega) (by simp only [SuiteType.itemLen]; omega)
  · exact inside_none
  · exact inside_capInfo (by omega) (by omega)

theorem inside_cipher (hlen : p + len = rsnie.length) (hlt : len < 2 ^ 32) :
    Inside rsnie type (extractCipher rsnie v type p len) := by
  have hmcast : v.mcast + 6 = v.ucast := rfl
  rw [extractCipher_eq hlen hlt]
  split_ifs with hout hgroup hpairwise
  · exact inside_none
  · subst hgroup
    exact inside_one (by omega) (by simp only [SuiteType.itemLen]; omega)
  · subst hpairwise
    exact inside_some (by omega) (by simp only [SuiteType.itemLen]; omega)
  · exact inside_akm (by omega) (by omega)

/-- **Whatever the octets are**, what comes back points inside the element, and so does the end of
what is counted there. -/
theorem inside_wpaExtractSuiteFromRsnIe {rsnieLen : UInt32} (hlen : rsnie.length = rsnieLen.toNat) :
    Inside rsnie type (wpaExtractSuiteFromRsnIe rsnie rsnieLen type) := by
  have hlt := rsnieLen.toNat_lt
  rw [wpaExtractSuiteFromRsnIe_eq hlen]
  split_ifs with hsame
  · cases WpaVersion.ofEid (rsnie.getD 0 0) with
    | none => exact inside_none
    | some v => exact inside_cipher (by omega) (by omega)
  · exact inside_none

end

end ExtractSuite

end Mt7601.Wpa
