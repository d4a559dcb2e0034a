/-
# Where `RTMPParseEapolKeyData` stays inside

The parser with every read of the key data and every copy into `GTK` checked. The length it is told
is a `UCHAR`, the loop looks at a length octet before it knows that there is one, the OUI and the data
type of a vendor element are read whatever its length, and `GTKLEN` is a `UCHAR` too: it wraps for a
group key element that is too short, and nothing compares it with the size of `GTK`.

Where nothing stops the checked parser it comes to what `rtmpParseEapolKeyData` comes to, with any
memory behind the key data.
-/
import Mathlib.Data.List.GetD
import Mt7601.Lib.Reading
import Mt7601.Wpa.Supplicant

namespace Mt7601.Wpa

open Checked

/-! ## 1. The parser -/

/-- `GTKLEN = pKDE->Len - 6`, in a `UCHAR`. -/
def gtkLenOfKde (len : Nat) : Nat := (len + 256 - 6) % 256

/-- The group key of a vendor element at `skip`: the copy to `GTK`, which has `MAX_LEN_GTK` octets.
`none` is `return FALSE`. -/
def checkedGtkKde (keyData : List UInt8) (skip len : Nat) : Checked (Option GtkFound) := do
  let kid ← octet keyData (skip + 6)
  let gtkLen := gtkLenOfKde len
  if gtkLen < lenWep64 then return none
  let gtk ← octets keyData (skip + 8) gtkLen
  access maxLenGtk 0 gtkLen
  return some { gtk, gtkLen, defaultIdx := kid.toNat % 4 }

/-- `case WPA_KDE_TYPE`: what has been found behind the element. -/
def checkedVendor (keyData : List UInt8) (skip len : Nat) (found : GtkFound) :
    Checked (Option GtkFound) := do
  let eid ← octet keyData skip
  let isKde ← if eid = wpaKdeType then equal keyData (skip + 2) ouiWpa2 else pure false
  let isGtk ← if isKde then (· == kdeGtk) <$> octet keyData (skip + 5) else pure false
  if isGtk then checkedGtkKde keyData skip len else return some found

/-- The loop over the elements. -/
def checkedParseKde (keyData : List UInt8) (keyDataLength skip : Nat) (found : GtkFound) :
    Checked (Option GtkFound) :=
  match octet keyData (skip + 1) with
  | .error e => .error e
  | .ok elemLen =>
    if skip + 2 + elemLen.toNat ≤ keyDataLength then
      match checkedVendor keyData skip elemLen.toNat found with
      | .error e => .error e
      | .ok none => .ok none
      | .ok (some found) => checkedParseKde keyData keyDataLength (skip + 2 + elemLen.toNat) found
    else .ok (some found)
termination_by keyDataLength - skip

/-- `GTK`, `GTKLEN` and `DefaultIdx` behind the two branches; a message that is of neither leaves
them as they were. -/
def checkedGtk (keyData : List UInt8) (keyDataLen groupKeyIndex : Nat) (msgType : MsgType)
    (bWPA2 : Bool) : Checked (Option GtkFound) := do
  if bWPA2 ∧ (msgType = .pairMsg3 ∨ msgType = .groupMsg1) then
    checkedParseKde keyData keyDataLen 0 {}
  else if !bWPA2 ∧ msgType = .groupMsg1 then
    let gtk ← octets keyData 0 keyDataLen
    access maxLenGtk 0 keyDataLen
    return some { gtk, gtkLen := keyDataLen, defaultIdx := groupKeyIndex }
  else return some {}

/-- The key is put in its place: `StaCfg.GTK` has as many octets as `GTK`. -/
def installGtk (ad : Adapter) (found : GtkFound) : Option (Adapter × List Effect) :=
  if 3 < found.defaultIdx then none
  else
    match ad.opMode with
    | .ap => some (ad, [])
    | .sta =>
      let gtk := Mem.write ad.staCfg.gtk 0 found.gtk
      let ad := { ad with
        staCfg.gtk := gtk
        staCfg.defaultKeyId := UInt8.ofNat found.defaultIdx }
      some (wpaInstallSharedKey ad ad.staCfg.groupCipher 0 ad.staCfg.defaultKeyId false gtk
        found.gtkLen)

/-- `RTMPParseEapolKeyData` in a stretch of memory, with the length it is told. `none` is `return
FALSE`. -/
def checkedParseKeyData (ad : Adapter) (keyData : List UInt8) (keyDataLen : UInt8)
    (groupKeyIndex : Nat) (msgType : MsgType) (bWPA2 : Bool) :
    Checked (Option (Adapter × List Effect)) :=
  if (msgType = .pairMsg2 ∨ msgType = .pairMsg3) ∧ ¬ (bWPA2 ∧ msgType = .pairMsg3) then
    .ok (some (ad, []))
  else
    match checkedGtk keyData keyDataLen.toNat groupKeyIndex msgType bWPA2 with
    | .error e => .error e
    | .ok none => .ok none
    | .ok (some found) => .ok (installGtk ad found)

/-- `RTMPParseEapolKeyData` over `keyDataLen` octets of key data; it is told the length as a `UCHAR`.
`none` is `return FALSE`. -/
def checkedParseEapolKeyData (ad : Adapter) {keyDataLen : UInt16}
    (keyData : Octets keyDataLen.toNat) (groupKeyIndex : Nat) (msgType : MsgType) (bWPA2 : Bool) :
    Checked (Option (Adapter × List Effect)) :=
  if (msgType = .pairMsg2 ∨ msgType = .pairMsg3) ∧ ¬ (bWPA2 ∧ msgType = .pairMsg3) then
    .ok (some (ad, []))
  else
    match checkedGtk keyData.toList keyDataLen.toUInt8.toNat groupKeyIndex msgType bWPA2 with
    | .error e => .error e
    | .ok none => .ok none
    | .ok (some found) => .ok (installGtk ad found)

/-! ## 2. The elements -/

/-- The length octet of the element at an offset. -/
def kdeLen (keyData : List UInt8) (pos : Nat) : Nat := (keyData.getD (pos + 1) 0).toNat

def IsVendor (keyData : List UInt8) (pos : Nat) : Prop := keyData.getD pos 0 = wpaKdeType

def IsKde (keyData : List UInt8) (pos : Nat) : Prop :=
  IsVendor keyData pos ∧ Mem.read keyData (pos + 2) 3 = ouiWpa2

/-- The element of a group key. -/
def IsGtkKde (keyData : List UInt8) (pos : Nat) : Prop :=
  IsKde keyData pos ∧ keyData.getD (pos + 5) 0 = kdeGtk

instance (keyData : List UInt8) (pos : Nat) : Decidable (IsVendor keyData pos) :=
  inferInstanceAs (Decidable (_ = _))

instance (keyData : List UInt8) (pos : Nat) : Decidable (IsKde keyData pos) :=
  inferInstanceAs (Decidable (_ ∧ _))

instance (keyData : List UInt8) (pos : Nat) : Decidable (IsGtkKde keyData pos) :=
  inferInstanceAs (Decidable (_ ∧ _))

/-- The elements that lie one behind the other within the first `n` octets, from an offset on. -/
def kdes (keyData : List UInt8) (n pos : Nat) : List Nat :=
  if pos + 2 + kdeLen keyData pos ≤ n then
    pos :: kdes keyData n (pos + 2 + kdeLen keyData pos)
  else []
termination_by n - pos

/-- A group key of less than five octets: the parser returns at it. -/
def IsShortGtk (keyData : List UInt8) (pos : Nat) : Prop :=
  IsGtkKde keyData pos ∧ 6 ≤ kdeLen keyData pos ∧ kdeLen keyData pos < 11

instance (keyData : List UInt8) (pos : Nat) : Decidable (IsShortGtk keyData pos) :=
  inferInstanceAs (Decidable (_ ∧ _))

/-- Those the parser comes to: it goes no further than such a group key. -/
def kdeWalk (keyData : List UInt8) (n pos : Nat) : List Nat :=
  if pos + 2 + kdeLen keyData pos ≤ n then
    pos :: if IsShortGtk keyData pos then []
      else kdeWalk keyData n (pos + 2 + kdeLen keyData pos)
  else []
termination_by n - pos

/-- Where the elements end. -/
def kdeEnd (keyData : List UInt8) (n pos : Nat) : Nat :=
  if pos + 2 + kdeLen keyData pos ≤ n then kdeEnd keyData n (pos + 2 + kdeLen keyData pos)
  else pos
termination_by n - pos

/-- A group key element's length is one of those that `GTK` has room for. -/
def GtkLenFits (keyData : List UInt8) (pos : Nat) : Prop :=
  IsGtkKde keyData pos → 6 ≤ kdeLen keyData pos ∧ kdeLen keyData pos ≤ 6 + maxLenGtk

/-- **An element fits**: what is looked at to tell its kind is within the key data, and a group key
has one of the lengths it may have. -/
structure KdeFits (keyData : List UInt8) (pos : Nat) : Prop where
  oui : IsVendor keyData pos → pos + 5 ≤ keyData.length
  dataType : IsKde keyData pos → pos + 6 ≤ keyData.length
  gtk : GtkLenFits keyData pos

/-! ## 3. One element -/

section

variable {keyData : List UInt8} {n pos : Nat} {found : GtkFound}

/-- What the parser has found behind an element. -/
def foundAt (keyData : List UInt8) (pos : Nat) (found : GtkFound) : Option GtkFound :=
  if IsGtkKde keyData pos then
    if gtkLenOfKde (kdeLen keyData pos) < lenWep64 then none
    else some {
      gtk := Mem.read keyData (pos + 8) (gtkLenOfKde (kdeLen keyData pos))
      gtkLen := gtkLenOfKde (kdeLen keyData pos)
      defaultIdx := (keyData.getD (pos + 6) 0).toNat % 4 }
  else some found

theorem gtkLenOfKde_of_le {len : Nat} (h : 6 ≤ len) (h8 : len < 256) : gtkLenOfKde len = len - 6 := by
  rw [gtkLenOfKde]
  omega

theorem gtkLenOfKde_of_lt {len : Nat} (h : len < 6) : 250 ≤ gtkLenOfKde len := by
  rw [gtkLenOfKde]
  omega

theorem kdeLen_lt (keyData : List UInt8) (pos : Nat) : kdeLen keyData pos < 256 :=
  UInt8.toNat_lt _

/-- A copy that is too long for `GTK` is stopped, if nothing is before it. -/
theorem checkedGtkKde_tooLong (hlong : maxLenGtk < gtkLenOfKde (kdeLen keyData pos)) :
    ∃ e, checkedGtkKde keyData pos (kdeLen keyData pos) = .error e := by
  have hmin : ¬ gtkLenOfKde (kdeLen keyData pos) < lenWep64 := by
    rw [lenWep64]
    rw [maxLenGtk] at hlong
    omega
  have hcopy : access maxLenGtk 0 (gtkLenOfKde (kdeLen keyData pos)) = .error .outside :=
    access_error (by omega)
  rw [checkedGtkKde]
  cases octet keyData (pos + 6) with
  | error e => exact ⟨e, rfl⟩
  | ok kid =>
    dsimp only [ok_bind]
    rw [if_neg hmin]
    cases octets keyData (pos + 8) (gtkLenOfKde (kdeLen keyData pos)) with
    | error e => exact ⟨e, rfl⟩
    | ok gtk =>
      refine ⟨.outside, ?_⟩
      dsimp only [ok_bind]
      rw [hcopy]
      rfl

/-- A group key within the key data is copied exactly if it fits. -/
theorem checkedGtkKde_guarded (hin : pos + 2 + kdeLen keyData pos ≤ keyData.length)
    (hgtk : IsGtkKde keyData pos) :
    Guarded (checkedGtkKde keyData pos (kdeLen keyData pos))
      (6 ≤ kdeLen keyData pos ∧ kdeLen keyData pos ≤ 6 + maxLenGtk)
      (· = foundAt keyData pos found) := by
  have hlt := kdeLen_lt keyData pos
  by_cases hfit : 6 ≤ kdeLen keyData pos ∧ kdeLen keyData pos ≤ 6 + maxLenGtk
  · have hlen := gtkLenOfKde_of_le hfit.1 hlt
    have hcopy : access maxLenGtk 0 (gtkLenOfKde (kdeLen keyData pos)) = .ok () :=
      access_ok (by omega)
    have hrun : checkedGtkKde keyData pos (kdeLen keyData pos) = .ok (foundAt keyData pos found) := by
      rw [checkedGtkKde, foundAt, if_pos hgtk, octet_ok (by omega)]
      dsimp only [ok_bind]
      rw [octets_ok (by omega), hcopy]
      split
      · rfl
      · rfl
    have hguard : Guarded (.ok (foundAt keyData pos found) : Checked _) True
        (· = foundAt keyData pos found) := .ok rfl
    rw [hrun]
    exact hguard.congr (iff_of_true trivial hfit)
  · have hlong : maxLenGtk < gtkLenOfKde (kdeLen keyData pos) := by
      rcases Nat.lt_or_ge (kdeLen keyData pos) 6 with hlow | hlow
      · -- the length has wrapped
        have hwrap := gtkLenOfKde_of_lt hlow
        rw [maxLenGtk]
        omega
      · have hlen := gtkLenOfKde_of_le hlow hlt
        omega
    obtain ⟨e, herr⟩ := checkedGtkKde_tooLong hlong
    rw [herr]
    exact Guarded.error.congr ⟨False.elim, fun h => hfit h⟩

/-- **An element**: it is gone over exactly if it fits. -/
theorem checkedVendor_guarded (hin : pos + 2 + kdeLen keyData pos ≤ keyData.length) :
    Guarded (checkedVendor keyData pos (kdeLen keyData pos) found) (KdeFits keyData pos)
      (· = foundAt keyData pos found) := by
  have hother : ¬ IsGtkKde keyData pos → foundAt keyData pos found = some found := fun h => if_neg h
  have hend : ¬ IsGtkKde keyData pos → Guarded (.ok (some found) : Checked _) True
      (· = foundAt keyData pos found) := fun h => .ok (hother h).symm
  unfold checkedVendor
  rw [octet_ok (by omega)]
  dsimp only [ok_bind]
  by_cases hvendor : IsVendor keyData pos
  · rw [if_pos (show keyData.getD pos 0 = wpaKdeType from hvendor)]
    have hlen3 : ouiWpa2.length = 3 := rfl
    by_cases hoct : pos + 5 ≤ keyData.length
    · rw [equal_ok (by omega)]
      dsimp only [ok_bind]
      by_cases hkde : IsKde keyData pos
      · have hsame : decide (Mem.read keyData (pos + 2) ouiWpa2.length = ouiWpa2) = true :=
          decide_eq_true hkde.2
        rw [if_pos hsame]
        by_cases htype : pos + 6 ≤ keyData.length
        · rw [octet_ok (by omega)]
          dsimp only [Functor.map, Except.map, ok_bind]
          by_cases hgtk : keyData.getD (pos + 5) 0 = kdeGtk
          · have hgtkKde : IsGtkKde keyData pos := ⟨hkde, hgtk⟩
            rw [if_pos (beq_iff_eq.mpr hgtk)]
            refine (checkedGtkKde_guarded hin hgtkKde).congr ⟨fun h => ?_, fun h => h.gtk hgtkKde⟩
            exact ⟨fun _ => hoct, fun _ => htype, fun _ => h⟩
          · have hno : ¬ IsGtkKde keyData pos := fun h => hgtk h.2
            rw [if_neg fun h => hgtk (beq_iff_eq.mp h)]
            refine (hend hno).congr (iff_of_true trivial ?_)
            exact ⟨fun _ => hoct, fun _ => htype, fun h => absurd h hno⟩
        · rw [octet_error (by omega)]
          exact Guarded.error.congr ⟨False.elim, fun hfit => htype (hfit.dataType hkde)⟩
      · have hno : ¬ IsGtkKde keyData pos := fun h => hkde h.1
        have hsame : ¬ decide (Mem.read keyData (pos + 2) ouiWpa2.length = ouiWpa2) = true :=
          fun h => hkde ⟨hvendor, of_decide_eq_true h⟩
        rw [if_neg hsame]
        refine (hend hno).congr (iff_of_true trivial ?_)
        exact ⟨fun _ => hoct, fun h => absurd h hkde, fun h => absurd h hno⟩
    · rw [equal_error (by omega)]
      exact Guarded.error.congr ⟨False.elim, fun hfit => hoct (hfit.oui hvendor)⟩
  · have hno : ¬ IsKde keyData pos := fun h => hvendor h.1
    rw [if_neg (show ¬ keyData.getD pos 0 = wpaKdeType from hvendor)]
    refine (hend fun h => hno h.1).congr (iff_of_true trivial ?_)
    exact ⟨fun h => absurd h hvendor, fun h => absurd h hno, fun h => absurd h.1 hno⟩

/-! ## 4. The walk -/

/-- The parser returns at a short group key, and at nothing else. -/
theorem foundAt_eq_none : foundAt keyData pos found = none ↔ IsShortGtk keyData pos := by
  have hlt := kdeLen_lt keyData pos
  rw [foundAt, IsShortGtk]
  by_cases hgtk : IsGtkKde keyData pos
  · rw [if_pos hgtk]
    have hshort : gtkLenOfKde (kdeLen keyData pos) < lenWep64 ↔
        6 ≤ kdeLen keyData pos ∧ kdeLen keyData pos < 11 := by
      rw [gtkLenOfKde, lenWep64]
      omega
    rw [← hshort]
    by_cases h : gtkLenOfKde (kdeLen keyData pos) < lenWep64
    · rw [if_pos h]
      exact iff_of_true rfl ⟨hgtk, h⟩
    · rw [if_neg h]
      exact iff_of_false (Option.some_ne_none _) fun hs => h hs.2
  · rw [if_neg hgtk]
    exact iff_of_false (Option.some_ne_none _) fun hs => hgtk hs.1

/-- An element within the length that was told. -/
theorem checkedParseKde_element (hn : n ≤ keyData.length)
    (hin : pos + 2 + kdeLen keyData pos ≤ n) :
    checkedParseKde keyData n pos found =
      checkedVendor keyData pos (kdeLen keyData pos) found >>= fun o =>
        match o with
        | none => .ok none
        | some found => checkedParseKde keyData n (pos + 2 + kdeLen keyData pos) found := by
  have hfit : pos + 2 + (keyData.getD (pos + 1) 0).toNat ≤ n := hin
  rw [checkedParseKde, octet_ok (by omega)]
  dsimp only
  rw [if_pos hfit, kdeLen]
  cases checkedVendor keyData pos (keyData.getD (pos + 1) 0).toNat found with
  | error e => rfl
  | ok o =>
    cases o with
    | none => rfl
    | some found => rfl

/-- **The loop**: every element the walk comes to fits, and unless it ends at a short group key there
is a length octet to look at behind the last one. -/
theorem checkedParseKde_guarded (hn : n ≤ keyData.length) :
    Guarded (checkedParseKde keyData n pos found)
      ((∀ p ∈ kdeWalk keyData n pos, KdeFits keyData p) ∧
        ((∃ p ∈ kdeWalk keyData n pos, IsShortGtk keyData p) ∨
          kdeEnd keyData n pos + 2 ≤ keyData.length))
      (fun r => (r = none ↔ ∃ p ∈ kdeWalk keyData n pos, IsShortGtk keyData p)) := by
  fun_induction kdeWalk keyData n pos generalizing found with
  | case1 pos hin ih =>
    rw [checkedParseKde_element hn hin, kdeEnd, if_pos hin, List.forall_mem_cons,
      List.exists_mem_cons_iff]
    by_cases hshort : IsShortGtk keyData pos
    · have hguard : Guarded (checkedVendor keyData pos (kdeLen keyData pos) found)
          (KdeFits keyData pos) (· = none) :=
        (checkedVendor_guarded (by omega)).imp fun r hr => hr.trans (foundAt_eq_none.mpr hshort)
      have hend : ∀ S : Prop, Guarded (.ok none : Checked (Option GtkFound)) True
          (fun r => r = none ↔ IsShortGtk keyData pos ∨ S) :=
        fun S => .ok (iff_of_true rfl (.inl hshort))
      rw [if_pos hshort]
      refine (Guarded.bind (S := True) hguard fun r hr => ?_).congr ?_
      · rw [hr]
        exact hend _
      · constructor
        · intro hfit
          exact ⟨⟨hfit.1, fun _ hp => absurd hp List.not_mem_nil⟩, .inl (.inl hshort)⟩
        · intro hall
          exact ⟨hall.1.1, trivial⟩
    · rw [if_neg hshort, and_assoc, or_iff_right hshort]
      refine (checkedVendor_guarded (by omega)).bind fun r hr => ?_
      cases r with
      | none => exact absurd (foundAt_eq_none.mp hr.symm) hshort
      | some found' => exact ih
  | case2 pos hin =>
    have hnil : ¬ ∃ p ∈ ([] : List Nat), IsShortGtk keyData p := by
      rintro ⟨p, hp, -⟩
      exact absurd hp List.not_mem_nil
    rw [checkedParseKde, kdeEnd, if_neg hin, or_iff_right hnil]
    have hall : ∀ p ∈ ([] : List Nat), KdeFits keyData p := fun p hp => absurd hp List.not_mem_nil
    by_cases hlast : pos + 2 ≤ keyData.length
    · have hfit : ¬ pos + 2 + (keyData.getD (pos + 1) 0).toNat ≤ n := hin
      have hend : Guarded (.ok (some found) : Checked (Option GtkFound)) True
          (fun r => r = none ↔ ∃ p ∈ ([] : List Nat), IsShortGtk keyData p) :=
        .ok (iff_of_false (Option.some_ne_none _) hnil)
      rw [octet_ok (by omega)]
      dsimp only
      rw [if_neg hfit]
      exact hend.congr (iff_of_true trivial ⟨hall, hlast⟩)
    · rw [octet_error (by omega)]
      exact Guarded.error.congr ⟨False.elim, fun h => hlast h.2⟩

/-! ## 5. The same as in memory -/

/-- An element that fits is in memory what it is in the key data. -/
theorem parseKde_element_behind {behind : List UInt8} (hn : n ≤ keyData.length)
    (hin : pos + 2 + kdeLen keyData pos ≤ n) (hfit : KdeFits keyData pos) :
    parseKde (keyData ++ behind) n pos found =
      (foundAt keyData pos found).bind fun found =>
        parseKde (keyData ++ behind) n (pos + 2 + kdeLen keyData pos) found := by
  have hlen : ((keyData ++ behind).getD (pos + 1) 0).toNat = kdeLen keyData pos :=
    congrArg UInt8.toNat (List.getD_append _ _ _ _ (by omega))
  have heid : (keyData ++ behind).getD pos 0 = keyData.getD pos 0 := List.getD_append _ _ _ _ (by omega)
  have hlt := kdeLen_lt keyData pos
  -- the group key is told by the same octets
  have hkind : ((keyData ++ behind).getD pos 0 = wpaKdeType ∧
      Mem.read (keyData ++ behind) (pos + 2) 3 = ouiWpa2 ∧
      (keyData ++ behind).getD (pos + 5) 0 = kdeGtk) ↔ IsGtkKde keyData pos := by
    rw [heid, IsGtkKde, IsKde, and_assoc]
    refine and_congr_right fun hvendor => ?_
    have hin3 : pos + 2 + 3 ≤ keyData.length := hfit.oui hvendor
    rw [Mem.read_append_of_le hin3]
    refine and_congr_right fun hoct => ?_
    have htype := hfit.dataType ⟨hvendor, hoct⟩
    rw [List.getD_append _ _ _ _ (by omega)]
  rw [parseKde]
  dsimp only
  rw [hlen, if_pos hin, foundAt]
  by_cases hgtk : IsGtkKde keyData pos
  · obtain ⟨hlow, hhigh⟩ := hfit.gtk hgtk
    have hgtkLen : (kdeLen keyData pos + 256 - 6) % 256 = gtkLenOfKde (kdeLen keyData pos) := rfl
    have hcopy := gtkLenOfKde_of_le hlow hlt
    rw [if_pos (hkind.mpr hgtk), if_pos hgtk, hgtkLen]
    by_cases hshort : gtkLenOfKde (kdeLen keyData pos) < lenWep64
    · rw [if_pos hshort, if_pos hshort]
      rfl
    · rw [if_neg hshort, if_neg hshort, Mem.read_append_of_le (by omega), List.getD_append _ _ _ _ (by omega)]
      rfl
  · rw [if_neg fun h => hgtk (hkind.mp h), if_neg hgtk]
    rfl

/-- **What is not stopped comes to the same in memory.** -/
theorem parseKde_of_checked {behind : List UInt8} {r : Option GtkFound} (hn : n ≤ keyData.length)
    (h : checkedParseKde keyData n pos found = .ok r) :
    parseKde (keyData ++ behind) n pos found = r := by
  fun_induction kdes keyData n pos generalizing found with
  | case1 pos hin ih =>
    rw [checkedParseKde_element hn hin] at h
    have hguard : Guarded (checkedVendor keyData pos (kdeLen keyData pos) found) _ _ :=
      checkedVendor_guarded (by omega)
    cases hstep : checkedVendor keyData pos (kdeLen keyData pos) found with
    | error e =>
      rw [hstep] at h
      exact nomatch h
    | ok o =>
      have hfit : KdeFits keyData pos := hguard.safe.mp ⟨o, hstep⟩
      have ho : o = foundAt keyData pos found := hguard.post o hstep
      rw [hstep] at h
      rw [parseKde_element_behind hn hin hfit, ← ho]
      cases o with
      | none => exact Except.ok.inj h
      | some found' => exact ih h
  | case2 pos hin =>
    rw [checkedParseKde] at h
    by_cases hlast : pos + 1 < keyData.length
    · have hfit : ¬ pos + 2 + (keyData.getD (pos + 1) 0).toNat ≤ n := hin
      rw [octet_ok hlast] at h
      dsimp only at h
      rw [if_neg hfit] at h
      cases h
      rw [parseKde]
      dsimp only
      rw [List.getD_append _ _ _ _ hlast, if_neg hfit]
    · rw [octet_error (Nat.not_lt.mp hlast)] at h
      exact nomatch h

/-- The index of a group key element has two bits. -/
theorem foundAt_defaultIdx {f : GtkFound} (hidx : found.defaultIdx ≤ 3)
    (h : foundAt keyData pos found = some f) : f.defaultIdx ≤ 3 := by
  rw [foundAt] at h
  by_cases hgtk : IsGtkKde keyData pos
  · rw [if_pos hgtk] at h
    by_cases hshort : gtkLenOfKde (kdeLen keyData pos) < lenWep64
    · rw [if_pos hshort] at h
      exact nomatch h
    · rw [if_neg hshort] at h
      cases h
      exact Nat.le_of_lt_succ (Nat.mod_lt _ (by decide))
  · rw [if_neg hgtk] at h
    cases h
    exact hidx

theorem checkedParseKde_defaultIdx {f : GtkFound} (hn : n ≤ keyData.length)
    (hidx : found.defaultIdx ≤ 3) (h : checkedParseKde keyData n pos found = .ok (some f)) :
    f.defaultIdx ≤ 3 := by
  fun_induction kdes keyData n pos generalizing found with
  | case1 pos hin ih =>
    rw [checkedParseKde_element hn hin] at h
    have hguard : Guarded (checkedVendor keyData pos (kdeLen keyData pos) found) _ _ :=
      checkedVendor_guarded (by omega)
    cases hstep : checkedVendor keyData pos (kdeLen keyData pos) found with
    | error e =>
      rw [hstep] at h
      exact nomatch h
    | ok o =>
      have ho : o = foundAt keyData pos found := hguard.post o hstep
      rw [hstep] at h
      cases o with
      | none => exact nomatch h
      | some found' => exact ih (foundAt_defaultIdx hidx ho.symm) h
  | case2 pos hin =>
    have hfit : ¬ pos + 2 + (keyData.getD (pos + 1) 0).toNat ≤ n := hin
    rw [checkedParseKde] at h
    cases hread : octet keyData (pos + 1) with
    | error e =>
      rw [hread] at h
      exact nomatch h
    | ok b =>
      have hb : b = keyData.getD (pos + 1) 0 := (octet_guarded _).post b hread
      rw [hread] at h
      dsimp only at h
      rw [hb, if_neg hfit] at h
      cases h
      exact hidx

end

/-! ## 6. The whole parser -/

/-- **The key data fit.**  The parser is told their length as a `UCHAR`.

* Group key elements: each element it comes to fits; and it returns at a short group key, or else
  there are two more octets behind the last element, and no group key element of the key data, also of
  those it is not told of, has a length out of range.
* A group message without them: what it is told is not longer than `GTK`, and neither is the rest,
  unless the key index is out of range.
* No other message's key data is looked at. -/
def KeyDataInside (keyData : List UInt8) (groupKeyIndex : Nat) (msgType : MsgType) (bWPA2 : Bool) :
    Prop :=
  if bWPA2 ∧ (msgType = .pairMsg3 ∨ msgType = .groupMsg1) then
    (∀ p ∈ kdeWalk keyData (keyData.length % 256) 0, KdeFits keyData p) ∧
      ((∃ p ∈ kdeWalk keyData (keyData.length % 256) 0, IsShortGtk keyData p) ∨
        kdeEnd keyData (keyData.length % 256) 0 + 2 ≤ keyData.length ∧
          ∀ p ∈ kdes keyData keyData.length 0, GtkLenFits keyData p)
  else if !bWPA2 ∧ msgType = .groupMsg1 then
    keyData.length % 256 ≤ maxLenGtk ∧ (keyData.length ≤ maxLenGtk ∨ 3 < groupKeyIndex)
  else True

section

variable {ad : Adapter} {groupKeyIndex : Nat} {msgType : MsgType} {bWPA2 : Bool}

theorem installGtk_eq_none {found : GtkFound} :
    installGtk ad found = none ↔ 3 < found.defaultIdx := by
  rw [installGtk]
  by_cases h : 3 < found.defaultIdx
  · rw [if_pos h]
    exact iff_of_true rfl h
  · rw [if_neg h]
    refine iff_of_false ?_ h
    cases ad.opMode with
    | ap => exact Option.some_ne_none _
    | sta => exact Option.some_ne_none _

theorem length_keyData {keyDataLen : UInt16} (keyData : Octets keyDataLen.toNat) :
    keyDataLen.toUInt8.toNat = keyData.toList.length % 256 := by
  rw [keyData.toList_length]
  exact UInt16.toNat_toUInt8 keyDataLen

/-- A group message without elements: its key data are the key. -/
theorem checkedGtk_plain {l : List UInt8} {n : Nat} (h : n ≤ l.length) :
    checkedGtk l n groupKeyIndex .groupMsg1 false =
      access maxLenGtk 0 n >>= fun _ => .ok (some ⟨Mem.read l 0 n, n, groupKeyIndex⟩) := by
  rw [checkedGtk, if_neg (by decide), if_pos (by decide), octets_ok (by omega)]
  rfl

/-- **What is not stopped is what the parser does in memory**, whatever lies behind the stretch. -/
theorem rtmpParseEapolKeyData_of_checkedIn {keyData : List UInt8} {keyDataLen : UInt8}
    (hle : keyDataLen.toNat ≤ keyData.length) (behind : List UInt8)
    {r : Option (Adapter × List Effect)}
    (hmsg : msgType = .pairMsg2 ∨ msgType = .pairMsg3 ∨ msgType = .groupMsg1)
    (h : checkedParseKeyData ad keyData keyDataLen groupKeyIndex msgType bWPA2 = .ok r) :
    rtmpParseEapolKeyData ad (keyData ++ behind) keyDataLen groupKeyIndex msgType bWPA2 = r := by
  rw [checkedParseKeyData] at h
  rw [rtmpParseEapolKeyData]
  by_cases hclear : (msgType = .pairMsg2 ∨ msgType = .pairMsg3) ∧ ¬ (bWPA2 ∧ msgType = .pairMsg3)
  · rw [if_pos hclear] at h ⊢
    exact Except.ok.inj h
  · rw [if_neg hclear] at h ⊢
    -- the two parsers have found the same
    have hfound : ∀ o, checkedGtk keyData keyDataLen.toNat groupKeyIndex msgType bWPA2 = .ok o →
        gtkOfKeyData (keyData ++ behind) keyDataLen.toNat groupKeyIndex bWPA2 = o := by
      intro o ho
      rw [gtkOfKeyData]
      cases bWPA2 with
      | true =>
        have hkde : msgType = .pairMsg3 ∨ msgType = .groupMsg1 := by
          rcases hmsg with rfl | h3 | h1
          · exact absurd ⟨.inl rfl, fun h => nomatch h.2⟩ hclear
          · exact .inl h3
          · exact .inr h1
        rw [checkedGtk, if_pos ⟨rfl, hkde⟩] at ho
        rw [if_pos rfl]
        exact parseKde_of_checked hle ho
      | false =>
        have hgroup : msgType = .groupMsg1 := by
          rcases hmsg with h2 | h3 | h1
          · exact absurd ⟨.inl h2, fun h => nomatch h.1⟩ hclear
          · exact absurd ⟨.inr h3, fun h => nomatch h.1⟩ hclear
          · exact h1
        rw [hgroup, checkedGtk_plain hle, access_bind_eq_ok] at ho
        rw [if_neg Bool.false_ne_true, Mem.read_append_of_le (by omega)]
        exact Except.ok.inj ho.2
    cases hgtk : checkedGtk keyData keyDataLen.toNat groupKeyIndex msgType bWPA2 with
    | error e =>
      rw [hgtk] at h
      exact nomatch h
    | ok o =>
      rw [hgtk] at h
      rw [hfound o hgtk]
      cases o with
      | none => exact Except.ok.inj h
      | some found => exact Except.ok.inj h

/-- The same of key data of their own length. -/
theorem rtmpParseEapolKeyData_of_checked {keyDataLen : UInt16} (keyData : Octets keyDataLen.toNat)
    (behind : List UInt8) {r : Option (Adapter × List Effect)}
    (hmsg : msgType = .pairMsg2 ∨ msgType = .pairMsg3 ∨ msgType = .groupMsg1)
    (h : checkedParseEapolKeyData ad keyData groupKeyIndex msgType bWPA2 = .ok r) :
    rtmpParseEapolKeyData ad (keyData.toList ++ behind) keyDataLen.toUInt8 groupKeyIndex msgType bWPA2
      = r := by
  have hle : keyDataLen.toUInt8.toNat ≤ keyData.toList.length := by
    rw [length_keyData keyData]
    exact Nat.mod_le _ _
  exact rtmpParseEapolKeyData_of_checkedIn hle behind hmsg h

/-- A group message of WPA. -/
theorem rtmpParseEapolKeyData_of_checked_wpa :
    let keyData : Octets (16 : UInt16).toNat := .zero _
    ∃ r, checkedParseEapolKeyData Example.station keyData 1 .groupMsg1 false = .ok r ∧
      rtmpParseEapolKeyData Example.station (keyData.toList ++ [1]) 16 1 .groupMsg1 false = r :=
  ⟨_, rfl, rtmpParseEapolKeyData_of_checked (.zero _) [1] (by decide) rfl⟩

/-- A message with group key elements. -/
theorem checkedParseEapolKeyData_kde (ad : Adapter) {keyDataLen : UInt16} (keyData : Octets keyDataLen.toNat)
    (hkde : msgType = .pairMsg3 ∨ msgType = .groupMsg1) :
    (∃ r, checkedParseEapolKeyData ad keyData groupKeyIndex msgType true = .ok r ∧
        ((∃ p ∈ kdes keyData.toList keyDataLen.toNat 0, ¬ GtkLenFits keyData.toList p) → r = none)) ↔
      KeyDataInside keyData.toList groupKeyIndex msgType true := by
  have hclear : ¬ ((msgType = .pairMsg2 ∨ msgType = .pairMsg3) ∧
      ¬ (true ∧ msgType = .pairMsg3)) := by
    rcases hkde with rfl | rfl
    · exact fun h => h.2 ⟨rfl, rfl⟩
    · rintro ⟨h | h, -⟩
      · exact nomatch h
      · exact nomatch h
  have hlen := length_keyData keyData
  have hall : keyData.toList.length = keyDataLen.toNat := keyData.toList_length
  have hle : keyDataLen.toUInt8.toNat ≤ keyData.toList.length := by
    rw [hlen]
    exact Nat.mod_le _ _
  rw [KeyDataInside, if_pos ⟨rfl, hkde⟩, ← hlen, hall]
  have hguard : Guarded (checkedParseKde keyData.toList keyDataLen.toUInt8.toNat 0 {}) _ _ :=
    checkedParseKde_guarded hle
  have hrun : checkedParseEapolKeyData ad keyData groupKeyIndex msgType true =
      (checkedParseKde keyData.toList keyDataLen.toUInt8.toNat 0 {} >>= fun o =>
        .ok (o.bind (installGtk ad))) := by
    rw [checkedParseEapolKeyData, if_neg hclear, checkedGtk, if_pos ⟨rfl, hkde⟩]
    cases checkedParseKde keyData.toList keyDataLen.toUInt8.toNat 0 {} with
    | error e => rfl
    | ok o =>
      cases o with
      | none => rfl
      | some found => rfl
  rw [hrun]
  cases hparse : checkedParseKde keyData.toList keyDataLen.toUInt8.toNat 0 {} with
  | error e =>
    have hno := mt hguard.safe.mpr (by rw [hparse]; exact not_safe_error e)
    refine iff_of_false ?_ ?_
    · rintro ⟨r, hr, -⟩
      exact nomatch hr
    · rintro ⟨hfit, hend | ⟨hend, -⟩⟩
      · exact hno ⟨hfit, .inl hend⟩
      · exact hno ⟨hfit, .inr (by rwa [hall])⟩
  | ok o =>
    obtain ⟨hfit, hend⟩ := hguard.safe.mp ⟨o, hparse⟩
    have hnone : o.bind (installGtk ad) = none ↔ o = none := by
      cases o with
      | none => exact iff_of_true rfl rfl
      | some found =>
        have hidx := checkedParseKde_defaultIdx hle (Nat.zero_le 3) hparse
        refine iff_of_false ?_ (Option.some_ne_none _)
        intro hinstall
        exact absurd (installGtk_eq_none.mp hinstall) (Nat.not_lt.mpr hidx)
    rw [hall] at hend
    rw [ok_bind]
    constructor
    · rintro ⟨r, hr, hbad⟩
      cases hr
      rw [hnone, hguard.post o hparse] at hbad
      refine ⟨hfit, ?_⟩
      by_cases hshort : ∃ p ∈ kdeWalk keyData.toList keyDataLen.toUInt8.toNat 0,
          IsShortGtk keyData.toList p
      · exact .inl hshort
      · refine .inr ⟨hend.resolve_left hshort, fun p hp => ?_⟩
        by_contra hlong
        exact hshort (hbad ⟨p, hp, hlong⟩)
    · rintro ⟨-, hcond⟩
      refine ⟨_, rfl, fun ⟨p, hp, hlong⟩ => ?_⟩
      rw [hnone, hguard.post o hparse]
      rcases hcond with hshort | ⟨-, hrange⟩
      · exact hshort
      · exact absurd (hrange p hp) hlong

/-- A group message without them. -/
theorem checkedParseEapolKeyData_plain (ad : Adapter) {keyDataLen : UInt16} (keyData : Octets keyDataLen.toNat) :
    (∃ r, checkedParseEapolKeyData ad keyData groupKeyIndex .groupMsg1 false = .ok r ∧
        (maxLenGtk < keyDataLen.toNat → r = none)) ↔
      KeyDataInside keyData.toList groupKeyIndex .groupMsg1 false := by
  have hlen := length_keyData keyData
  have hall : keyData.toList.length = keyDataLen.toNat := keyData.toList_length
  have hle : keyDataLen.toUInt8.toNat ≤ keyData.toList.length := by
    rw [hlen]
    exact Nat.mod_le _ _
  rw [KeyDataInside, if_neg (by decide), if_pos (by decide), ← hlen, hall,
    checkedParseEapolKeyData, if_neg (by decide), checkedGtk_plain hle]
  by_cases hcopy : keyDataLen.toUInt8.toNat ≤ maxLenGtk
  · rw [access_ok (by omega), and_iff_right hcopy]
    dsimp only [ok_bind, pure, Except.pure]
    constructor
    · rintro ⟨r, hr, hlong⟩
      cases hr
      rw [installGtk_eq_none] at hlong
      rcases Nat.lt_or_ge maxLenGtk keyDataLen.toNat with h | h
      · exact .inr (hlong h)
      · exact .inl h
    · intro hcond
      refine ⟨_, rfl, fun hlong => installGtk_eq_none.mpr ?_⟩
      exact hcond.resolve_left (Nat.not_le.mpr hlong)
  · rw [access_error (by omega)]
    refine iff_of_false ?_ fun h => hcopy h.1
    rintro ⟨r, hr, -⟩
    exact nomatch hr

end

/-- **`RTMPParseEapolKeyData` stays inside the key data and inside `GTK`, and refuses a group key that
is too short or too long for it, exactly when the key data fit.** -/
theorem checkedParseEapolKeyData_iff (ad : Adapter) (keyDataLen : UInt16)
    (keyData : Octets keyDataLen.toNat) (groupKeyIndex : Nat) (msgType : MsgType) (bWPA2 : Bool) :
    (∃ r, checkedParseEapolKeyData ad keyData groupKeyIndex msgType bWPA2 = .ok r ∧
        (bWPA2 → msgType = .pairMsg3 ∨ msgType = .groupMsg1 →
          (∃ p ∈ kdes keyData.toList keyDataLen.toNat 0, ¬ GtkLenFits keyData.toList p) → r = none) ∧
        (!bWPA2 → msgType = .groupMsg1 → maxLenGtk < keyDataLen.toNat → r = none)) ↔
      KeyDataInside keyData.toList groupKeyIndex msgType bWPA2 := by
  by_cases hkde : bWPA2 ∧ (msgType = .pairMsg3 ∨ msgType = .groupMsg1)
  · obtain ⟨rfl, hmsg⟩ := hkde
    rw [← checkedParseEapolKeyData_kde ad keyData hmsg]
    refine exists_congr fun r => and_congr_right fun _ => ?_
    constructor
    · intro h
      exact h.1 rfl hmsg
    · intro h
      exact ⟨fun _ _ => h, fun h => nomatch h⟩
  · by_cases hplain : !bWPA2 ∧ msgType = .groupMsg1
    · obtain ⟨hfalse, rfl⟩ := hplain
      obtain rfl : bWPA2 = false := by simpa using hfalse
      rw [← checkedParseEapolKeyData_plain ad keyData]
      refine exists_congr fun r => and_congr_right fun _ => ?_
      constructor
      · intro h
        exact h.2 rfl rfl
      · intro h
        exact ⟨fun h => (nomatch h), fun _ _ => h⟩
    · rw [KeyDataInside, if_neg hkde, if_neg hplain]
      refine iff_of_true ?_ trivial
      have hnext : ∀ r, (bWPA2 → msgType = .pairMsg3 ∨ msgType = .groupMsg1 →
          (∃ p ∈ kdes keyData.toList keyDataLen.toNat 0, ¬ GtkLenFits keyData.toList p) →
            r = (none : Option (Adapter × List Effect))) ∧
          (!bWPA2 → msgType = .groupMsg1 → maxLenGtk < keyDataLen.toNat → r = none) := fun r =>
        ⟨fun h1 h2 => absurd ⟨h1, h2⟩ hkde, fun h1 h2 => absurd ⟨h1, h2⟩ hplain⟩
      rw [checkedParseEapolKeyData]
      split
      · exact ⟨_, rfl, hnext _⟩
      · rw [checkedGtk, if_neg hkde, if_neg hplain]
        exact ⟨_, rfl, hnext _⟩

/-- A group key element of length `5`, without a key. -/
def shortGtkKde : Octets (7 : UInt16).toNat := ⟨[0xDD, 5, 0x00, 0x0F, 0xAC, 1, 0], rfl⟩

/-- `GTKLEN` is `255`, and so many octets are copied. -/
theorem checkedParseEapolKeyData_shortGtkKde :
    kdes shortGtkKde.toList 7 0 = [0] ∧ ¬ GtkLenFits shortGtkKde.toList 0 ∧
      checkedParseEapolKeyData Example.station shortGtkKde 0 .groupMsg1 true = .error .outside := by
  refine ⟨?_, ?_, ?_⟩
  · rw [kdes, if_pos (by decide), kdes, if_neg (by decide)]
  · intro h
    exact absurd (h (by decide)) (by decide)
  · have hvendor : checkedVendor shortGtkKde.toList 0 5 {} = .error .outside := by decide
    have hlen : octet shortGtkKde.toList 1 = .ok 5 := by decide
    rw [checkedParseEapolKeyData, if_neg (by decide), checkedGtk, if_pos (by decide), checkedParseKde]
    rw [hlen]
    dsimp only
    rw [if_pos (by decide)]
    have hlen5 : (5 : UInt8).toNat = 5 := rfl
    rw [hlen5, hvendor]

end Mt7601.Wpa
