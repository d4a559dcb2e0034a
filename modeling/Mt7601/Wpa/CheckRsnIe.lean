/-
# `RTMPCheckRSNIE`

The walk over the elements in front of the key data (`common/cmm_wpa.c`). The number of octets that
are left is a `UCHAR` from which the length of an element is taken without a look at it, and the
cursor goes by the same length over the data. `RSN_IE` is compared with an element before their
lengths are.

A read behind the data stops the walk (`Checked`); where it is not stopped, the last values of its
variables say how far it got.
-/
import Mt7601.Lib.Reading
import Mt7601.Wpa.Defs

namespace Mt7601.Wpa

open Checked

/-! ## 1. The walk -/

namespace CheckRsnIe

def ieWpa : UInt8 := 221
def ieRsn : UInt8 := 48
def wpaOui : List UInt8 := [0x00, 0x50, 0xf2, 0x01]
def rsnOui : List UInt8 := [0x00, 0x0f, 0xac]

/-- `sizeof(RSNIE2)` -/
abbrev sizeofRsnIe2 : Nat := 12

/-- `MAX_LEN_OF_RSNIE` -/
abbrev maxLenOfRsnIe : Nat := 255

end CheckRsnIe

open CheckRsnIe

/-- What the function reads of a `MAC_TABLE_ENTRY`. -/
structure RsnIeEntry where
  authMode : AuthMode
  rsnIe : Octets maxLenOfRsnIe
  rsnIeLen : UInt8
  deriving DecidableEq

/-- The local variables, and `*Offset`. -/
structure RsnIeWalk where
  pVIE : Nat
  len : UInt8
  offset : UInt8
  result : Bool
  deriving DecidableEq, Repr

/-- `NdisEqualMemory(pVIE, pEntry->RSN_IE, pEntry->RSNIE_Len) && RSNIE_Len == Len + 2` -/
def compareWpa (pEntry : RsnIeEntry) (pData : List UInt8) (pVIE : Nat) : Checked Bool := do
  if pEntry.authMode = .wpa ∨ pEntry.authMode = .wpaPsk then
    let same ← equal pData pVIE (Mem.read pEntry.rsnIe.toList 0 pEntry.rsnIeLen.toNat)
    let elemLen ← octet pData (pVIE + 1)
    return same && pEntry.rsnIeLen.toNat == elemLen.toNat + 2
  else return false

/-- The comparison without the capabilities; `RSNIE_Len - 4` octets of it. -/
def compareRsn (pEntry : RsnIeEntry) (pData : List UInt8) (pVIE : Nat) : Checked Bool := do
  if pEntry.authMode = .wpa2 ∨ pEntry.authMode = .wpa2Psk then
    let eid ← octet pData pVIE
    let elemLen ← octet pData (pVIE + 1)
    if eid = pEntry.rsnIe.toList.getD 0 0 ∧ pEntry.rsnIeLen.toNat ≤ elemLen.toNat + 2 then
      let n ← sub pEntry.rsnIeLen.toNat 4
      equal pData (pVIE + 2) (Mem.read pEntry.rsnIe.toList 2 n)
    else return false
  else return false

/-- The two kinds of element the walk goes over; what is not one of them ends it. -/
def checkElement (pEntry : RsnIeEntry) (pData : List UInt8) (pVIE : Nat) :
    Checked (Option Bool) := do
  let eid ← octet pData pVIE
  let isWpa ← if eid = ieWpa then equal pData (pVIE + 2) wpaOui else pure false
  if isWpa then return some (← compareWpa pEntry pData pVIE)
  let isRsn ← if eid = ieRsn then equal pData (pVIE + 4) rsnOui else pure false
  if isRsn then return some (← compareRsn pEntry pData pVIE)
  return none

/-- An element has been gone over. -/
def RsnIeWalk.advance (w : RsnIeWalk) (elemLen : UInt8) (same : Bool) : RsnIeWalk where
  pVIE := w.pVIE + (elemLen.toNat + 2)
  len := w.len - (elemLen + 2)
  offset := w.offset + (elemLen + 2)
  result := w.result || same

/-- The `while` loop. -/
def checkLoop (pEntry : RsnIeEntry) (pData : List UInt8) (w : RsnIeWalk) : Checked RsnIeWalk :=
  if sizeofRsnIe2 < w.len.toNat then
    -- `Eid` is read first, so the loop ends at the latest behind the data
    if pData.length ≤ w.pVIE then .error .outside
    else
      match checkElement pEntry pData w.pVIE with
      | .error e => .error e
      | .ok none => .ok w
      | .ok (some same) =>
        match octet pData (w.pVIE + 1) with
        | .error e => .error e
        | .ok elemLen => checkLoop pEntry pData (w.advance elemLen same)
  else .ok w
termination_by pData.length - w.pVIE
decreasing_by
  change pData.length - (w.pVIE + (elemLen.toNat + 2)) < pData.length - w.pVIE
  omega

/-- `RTMPCheckRSNIE`: its result and `*Offset`, with the cursor and the octets that are left. -/
def rtmpCheckRsnIe (pEntry : RsnIeEntry) {dataLen : UInt8} (pData : Octets dataLen.toNat) :
    Checked RsnIeWalk :=
  checkLoop pEntry pData.toList { pVIE := 0, len := dataLen, offset := 0, result := false }

/-! ## 2. The elements -/

/-- The length octet of the element at an offset. -/
def elemLen (pData : List UInt8) (pos : Nat) : Nat := (pData.getD (pos + 1) 0).toNat

def IsWpa (pData : List UInt8) (pos : Nat) : Prop :=
  pData.getD pos 0 = ieWpa ∧ Mem.read pData (pos + 2) 4 = wpaOui

def IsRsn (pData : List UInt8) (pos : Nat) : Prop :=
  pData.getD pos 0 = ieRsn ∧ Mem.read pData (pos + 4) 3 = rsnOui

instance (pData : List UInt8) (pos : Nat) : Decidable (IsWpa pData pos) :=
  inferInstanceAs (Decidable (_ ∧ _))

instance (pData : List UInt8) (pos : Nat) : Decidable (IsRsn pData pos) :=
  inferInstanceAs (Decidable (_ ∧ _))

/-- The offsets of the elements, one behind the other, up to the first that is of neither kind or
does not end within the data, or that has no more than twelve octets left to it. -/
def elements (pData : List UInt8) (pos : Nat) : List Nat :=
  if sizeofRsnIe2 < pData.length - pos ∧ (IsWpa pData pos ∨ IsRsn pData pos) then
    pos ::
      if pos + (elemLen pData pos + 2) ≤ pData.length then
        elements pData (pos + (elemLen pData pos + 2))
      else []
  else []
termination_by pData.length - pos

/-- **An element fits**: it ends within the data, and `RSN_IE`, where it is compared before the
lengths are, is not longer than what is left; `RSN_IE` has at least the four octets that are taken
from its length. -/
structure ElementFits (pEntry : RsnIeEntry) (pData : List UInt8) (pos : Nat) : Prop where
  inside : pos + (elemLen pData pos + 2) ≤ pData.length
  wpa : IsWpa pData pos → pEntry.authMode = .wpa ∨ pEntry.authMode = .wpaPsk →
    pos + pEntry.rsnIeLen.toNat ≤ pData.length
  rsn : IsRsn pData pos → pEntry.authMode = .wpa2 ∨ pEntry.authMode = .wpa2Psk →
    pEntry.rsnIe.toList.getD 0 0 = ieRsn → pEntry.rsnIeLen.toNat ≤ elemLen pData pos + 2 →
    4 ≤ pEntry.rsnIeLen.toNat

/-! ## 3. One element -/

section

variable {pEntry : RsnIeEntry} {pData : List UInt8} {pos : Nat}

theorem compareWpa_guarded (h : pos + 2 ≤ pData.length) :
    Guarded (compareWpa pEntry pData pos)
      (pEntry.authMode = .wpa ∨ pEntry.authMode = .wpaPsk →
        pos + pEntry.rsnIeLen.toNat ≤ pData.length) fun _ => True := by
  unfold compareWpa
  by_cases hauth : pEntry.authMode = .wpa ∨ pEntry.authMode = .wpaPsk
  · rw [if_pos hauth]
    refine ((equal_guarded _ _).bind fun _ _ => (octet_guarded _).map fun _ _ => trivial).congr ?_
    rw [Mem.length_read]
    constructor
    · intro hin _
      exact hin.1
    · intro hin
      exact ⟨hin hauth, h⟩
  · rw [if_neg hauth]
    exact (Guarded.ok trivial).congr (iff_of_true trivial fun ha => absurd ha hauth)

theorem compareRsn_guarded (h : pos + 2 ≤ pData.length)
    (hfits : pos + (elemLen pData pos + 2) ≤ pData.length) (heid : pData.getD pos 0 = ieRsn) :
    Guarded (compareRsn pEntry pData pos)
      (pEntry.authMode = .wpa2 ∨ pEntry.authMode = .wpa2Psk →
        pEntry.rsnIe.toList.getD 0 0 = ieRsn → pEntry.rsnIeLen.toNat ≤ elemLen pData pos + 2 →
        4 ≤ pEntry.rsnIeLen.toNat) fun _ => True := by
  unfold compareRsn
  by_cases hauth : pEntry.authMode = .wpa2 ∨ pEntry.authMode = .wpa2Psk
  · rw [if_pos hauth, octet_ok (by omega), octet_ok (by omega), heid]
    dsimp only [ok_bind]
    rw [imp_iff_right hauth]
    by_cases hsame : ieRsn = pEntry.rsnIe.toList.getD 0 0 ∧
        pEntry.rsnIeLen.toNat ≤ (pData.getD (pos + 1) 0).toNat + 2
    · rw [if_pos hsame]
      have hlong : pEntry.rsnIeLen.toNat ≤ elemLen pData pos + 2 := hsame.2
      refine ((Guarded.sub _ _).bindEq ((equal_guarded _ _).imp fun _ _ => trivial)).congr ?_
      rw [Mem.length_read]
      constructor
      · intro hsub _ _
        exact hsub.1
      · intro hsub
        exact ⟨hsub hsame.1.symm hlong, by omega⟩
    · rw [if_neg hsame]
      refine (Guarded.ok trivial).congr (iff_of_true trivial fun hfirst hlong => ?_)
      exact absurd ⟨hfirst.symm, hlong⟩ hsame
  · rw [if_neg hauth]
    exact (Guarded.ok trivial).congr (iff_of_true trivial fun ha => absurd ha hauth)

theorem checkElement_wpa (h : pos + 12 < pData.length) (hwpa : IsWpa pData pos) :
    checkElement pEntry pData pos = compareWpa pEntry pData pos >>= fun same => .ok (some same) := by
  have houi : equal pData (pos + 2) wpaOui = .ok true := by
    rw [equal_ok (by simp only [wpaOui, List.length_cons, List.length_nil]; omega)]
    exact congrArg Except.ok (decide_eq_true hwpa.2)
  rw [checkElement, octet_ok (by omega)]
  dsimp only [ok_bind]
  rw [if_pos hwpa.1, houi]
  rfl

theorem checkElement_rsn (h : pos + 12 < pData.length) (hrsn : IsRsn pData pos) :
    checkElement pEntry pData pos = compareRsn pEntry pData pos >>= fun same => .ok (some same) := by
  have heid : pData.getD pos 0 ≠ ieWpa := by
    rw [hrsn.1]
    decide
  have houi : equal pData (pos + 4) rsnOui = .ok true := by
    rw [equal_ok (by simp only [rsnOui, List.length_cons, List.length_nil]; omega)]
    exact congrArg Except.ok (decide_eq_true hrsn.2)
  rw [checkElement, octet_ok (by omega)]
  dsimp only [ok_bind]
  rw [if_neg heid]
  dsimp only [pure, Except.pure, ok_bind]
  rw [if_neg Bool.false_ne_true, if_pos hrsn.1, houi]
  rfl

theorem checkElement_other (h : pos + 12 < pData.length) (hwpa : ¬ IsWpa pData pos)
    (hrsn : ¬ IsRsn pData pos) : checkElement pEntry pData pos = .ok none := by
  have hwpaOui : equal pData (pos + 2) wpaOui =
      .ok (decide (Mem.read pData (pos + 2) 4 = wpaOui)) :=
    equal_ok (by simp only [wpaOui, List.length_cons, List.length_nil]; omega)
  have hrsnOui : equal pData (pos + 4) rsnOui =
      .ok (decide (Mem.read pData (pos + 4) 3 = rsnOui)) :=
    equal_ok (by simp only [rsnOui, List.length_cons, List.length_nil]; omega)
  rw [checkElement, octet_ok (by omega)]
  dsimp only [ok_bind]
  by_cases hw : pData.getD pos 0 = ieWpa
  · have hno : decide (Mem.read pData (pos + 2) 4 = wpaOui) = false :=
      decide_eq_false fun ho => hwpa ⟨hw, ho⟩
    have hne : pData.getD pos 0 ≠ ieRsn := by
      rw [hw]
      decide
    rw [if_pos hw, hwpaOui, hno, if_neg hne]
    rfl
  · rw [if_neg hw]
    by_cases hr : pData.getD pos 0 = ieRsn
    · have hno : decide (Mem.read pData (pos + 4) 3 = rsnOui) = false :=
        decide_eq_false fun ho => hrsn ⟨hr, ho⟩
      rw [if_pos hr, hrsnOui, hno]
      rfl
    · rw [if_neg hr]
      rfl

end

/-! ## 4. The whole walk -/

/-- It is not stopped, the cursor ends within the data, the octets left are those behind the cursor,
and `*Offset` is within the data. -/
def Within (n : Nat) (x : Checked RsnIeWalk) : Prop :=
  ∃ w, x = .ok w ∧ w.pVIE ≤ n ∧ w.pVIE + w.len.toNat = n ∧ w.offset.toNat ≤ n

section

variable {pEntry : RsnIeEntry} {pData : List UInt8} {w : RsnIeWalk}

/-- The cursor never goes back. -/
theorem checkLoop_pVIE_le {w' : RsnIeWalk} (h : checkLoop pEntry pData w = .ok w') :
    w.pVIE ≤ w'.pVIE := by
  fun_induction checkLoop pEntry pData w with
  | case1 => exact nomatch h
  | case2 => exact nomatch h
  | case3 =>
    cases h
    exact Nat.le_refl _
  | case4 => exact nomatch h
  | case5 w _ _ same _ elemLen _ ih => exact Nat.le_trans (Nat.le_add_right _ _) (ih h)
  | case6 =>
    cases h
    exact Nat.le_refl _

/-- An element of one of the two kinds: it is compared, and the walk goes on behind it. -/
theorem checkLoop_element {x : Checked Bool} (hlen : sizeofRsnIe2 < w.len.toNat)
    (hin : w.pVIE + 12 < pData.length)
    (hx : checkElement pEntry pData w.pVIE = x >>= fun same => .ok (some same)) :
    checkLoop pEntry pData w =
      x >>= fun same => checkLoop pEntry pData (w.advance (pData.getD (w.pVIE + 1) 0) same) := by
  rw [checkLoop, if_pos hlen, if_neg (by omega), hx, octet_ok (by omega)]
  cases x with
  | error e => rfl
  | ok same => rfl

/-- What is left is counted right, and so is the offset. -/
structure RsnIeWalk.Counts (w : RsnIeWalk) (n : Nat) : Prop where
  small : n < 256
  left : w.pVIE + w.len.toNat = n
  offset : w.offset.toNat = w.pVIE

/-- Behind an element that ends within the data it still is. -/
theorem RsnIeWalk.Counts.advance (h : w.Counts pData.length)
    (hin : w.pVIE + (elemLen pData w.pVIE + 2) ≤ pData.length) (same : Bool) :
    (w.advance (pData.getD (w.pVIE + 1) 0) same).Counts pData.length := by
  obtain ⟨hsmall, hleft, hoff⟩ := h
  have hadd : (pData.getD (w.pVIE + 1) 0 + 2).toNat = elemLen pData w.pVIE + 2 := by
    have htwo : (2 : UInt8).toNat = 2 := rfl
    rw [elemLen] at hin ⊢
    rw [UInt8.toNat_add, htwo]
    exact Nat.mod_eq_of_lt (by omega)
  refine ⟨hsmall, ?_, ?_⟩
  · have hsub : (w.len - (pData.getD (w.pVIE + 1) 0 + 2)).toNat =
        w.len.toNat - (elemLen pData w.pVIE + 2) := by
      rw [UInt8.toNat_sub_of_le _ _ (by rw [UInt8.le_iff_toNat_le, hadd]; omega), hadd]
    change w.pVIE + (elemLen pData w.pVIE + 2) + (w.len - (_ + 2)).toNat = pData.length
    rw [hsub]
    omega
  · change (w.offset + (_ + 2)).toNat = w.pVIE + (elemLen pData w.pVIE + 2)
    rw [UInt8.toNat_add, hadd, hoff]
    exact Nat.mod_eq_of_lt (by omega)

/-- Behind one that does not, nothing brings the cursor back. -/
theorem not_within_advance (hout : pData.length < w.pVIE + (elemLen pData w.pVIE + 2))
    (same : Bool) : ¬ Within pData.length
      (checkLoop pEntry pData (w.advance (pData.getD (w.pVIE + 1) 0) same)) := by
  rintro ⟨w', hrun, hcursor, -, -⟩
  have hle : w.pVIE + (elemLen pData w.pVIE + 2) ≤ w'.pVIE := checkLoop_pVIE_le hrun
  omega

/-- A sequence whose second half comes to the same whatever the first half gives. -/
theorem within_bind {n : Nat} {x : Checked Bool} {f : Bool → Checked RsnIeWalk} {P S : Prop}
    (hx : Guarded x P fun _ => True) (hf : ∀ same, Within n (f same) ↔ S) :
    Within n (x >>= f) ↔ P ∧ S := by
  cases x with
  | error e =>
    have hP : ¬ P := fun hP => not_safe_error e (hx.safe.mpr hP)
    refine iff_of_false ?_ fun h => hP h.1
    rintro ⟨w, hw, -⟩
    exact nomatch hw
  | ok same =>
    have hP : P := hx.safe.mp (safe_ok same)
    rw [ok_bind, hf same]
    exact (and_iff_right hP).symm

/-- The walk is within the data exactly when every element it comes to fits. -/
theorem checkLoop_within_iff {pos : Nat} (hpos : w.pVIE = pos) (h : w.Counts pData.length) :
    Within pData.length (checkLoop pEntry pData w) ↔
      ∀ p ∈ elements pData pos, ElementFits pEntry pData p := by
  have hleft := h.left
  fun_induction elements pData pos generalizing w with
  | case1 pos hmore ih =>
    subst hpos
    obtain ⟨hlen, hkind⟩ := hmore
    rw [sizeofRsnIe2] at hlen
    have hlen' : sizeofRsnIe2 < w.len.toNat := by rw [sizeofRsnIe2]; omega
    rw [List.forall_mem_cons]
    -- what the comparison asks for, whichever it is
    obtain ⟨x, P, hx, hguard, hfits⟩ : ∃ x P,
        checkElement pEntry pData w.pVIE = (x >>= fun same => .ok (some same)) ∧
          (w.pVIE + (elemLen pData w.pVIE + 2) ≤ pData.length → Guarded x P fun _ => True) ∧
          (w.pVIE + (elemLen pData w.pVIE + 2) ≤ pData.length →
            (ElementFits pEntry pData w.pVIE ↔ P)) := by
      rcases hkind with hwpa | hrsn
      · have hno : ¬ IsRsn pData w.pVIE := fun hrsn =>
          absurd (hwpa.1.symm.trans hrsn.1) (by decide)
        refine ⟨_, _, checkElement_wpa (by omega) hwpa, fun _ => compareWpa_guarded (by omega), ?_⟩
        intro hin
        exact ⟨fun hf => hf.wpa hwpa, fun hw => ⟨hin, fun _ => hw, fun hr => absurd hr hno⟩⟩
      · have hno : ¬ IsWpa pData w.pVIE := fun hwpa =>
          absurd (hwpa.1.symm.trans hrsn.1) (by decide)
        refine ⟨_, _, checkElement_rsn (by omega) hrsn,
          fun hin => compareRsn_guarded (by omega) hin hrsn.1, ?_⟩
        intro hin
        exact ⟨fun hf => hf.rsn hrsn, fun hr => ⟨hin, fun hw => absurd hw hno, fun _ => hr⟩⟩
    rw [checkLoop_element hlen' (by omega) hx]
    by_cases hin : w.pVIE + (elemLen pData w.pVIE + 2) ≤ pData.length
    · rw [if_pos hin, hfits hin]
      refine within_bind (hguard hin) fun same => ?_
      have hcounts := h.advance hin same
      exact ih hin rfl hcounts hcounts.left
    · rw [if_neg hin]
      refine iff_of_false ?_ fun hf => hin hf.1.inside
      cases x with
      | error e =>
        rintro ⟨w', hw', -⟩
        exact nomatch hw'
      | ok same => exact not_within_advance (by omega) same
  | case2 pos hmore =>
    subst hpos
    refine iff_of_true ?_ fun p hp => absurd hp List.not_mem_nil
    have hend : checkLoop pEntry pData w = .ok w := by
      rw [checkLoop]
      by_cases hlen : sizeofRsnIe2 < w.len.toNat
      · rw [sizeofRsnIe2] at hlen hmore
        have hother := not_or.mp (not_and.mp hmore (by omega))
        rw [if_pos hlen, if_neg (by omega), checkElement_other (by omega) hother.1 hother.2]
      · rw [if_neg hlen]
    have hoff := h.offset
    exact ⟨w, hend, by omega, hleft, by omega⟩

end

/-- **`RTMPCheckRSNIE` stays within the data exactly when every element it comes to fits**: it
reads nothing behind the data, its cursor does not pass their end, the octets left are always those
behind the cursor, and `*Offset` is at most their number.  (It always ends: `Eid` is read at the
cursor, and the cursor moves.) -/
theorem rtmpCheckRsnIe_within_iff (pEntry : RsnIeEntry) (dataLen : UInt8)
    (pData : Octets dataLen.toNat) :
    (∃ w, rtmpCheckRsnIe pEntry pData = .ok w ∧ w.pVIE ≤ dataLen.toNat ∧
        w.pVIE + w.len.toNat = dataLen.toNat ∧ w.offset.toNat ≤ dataLen.toNat) ↔
      ∀ p ∈ elements pData.toList 0, ElementFits pEntry pData.toList p := by
  have hlength : pData.toList.length = dataLen.toNat := pData.toList_length
  have hstart : RsnIeWalk.Counts ⟨0, dataLen, 0, false⟩ pData.toList.length := by
    refine ⟨?_, ?_, rfl⟩
    · rw [hlength]
      exact dataLen.toNat_lt
    · rw [hlength]
      exact Nat.zero_add _
  have hiff : Within _ (checkLoop pEntry _ _) ↔ _ := checkLoop_within_iff rfl hstart
  rw [Within, hlength] at hiff
  exact hiff

/-- Thirteen octets that begin with an element of length `20`. -/
def longElement : Octets (13 : UInt8).toNat :=
  ⟨[221, 20, 0x00, 0x50, 0xf2, 0x01, 1, 0, 0, 0, 0, 0, 0], rfl⟩

/-- The nine octets that are lacking are taken from the `UCHAR`, `247` octets are left, and the walk
goes on behind the data, at offset `22`. -/
theorem rtmpCheckRsnIe_longElement :
    rtmpCheckRsnIe ⟨.wpa2Psk, .zero 255, 22⟩ longElement = .error .outside := by
  have hfirst : checkElement ⟨.wpa2Psk, .zero 255, 22⟩ longElement.toList 0 = .ok (some false) := by
    decide
  have hlen : octet longElement.toList 1 = .ok 20 := by decide
  rw [rtmpCheckRsnIe, checkLoop, if_pos (by decide), if_neg (by decide)]
  dsimp only
  rw [hfirst, hlen]
  dsimp only
  rw [checkLoop, if_pos (by decide), if_pos (by decide)]

end Mt7601.Wpa
