/-
# `PeerProbeReqSanity`

The check of a probe request (`common/cmm_sanity.c`), with `WscCheckPeerDPID` (`common/wsc.c`) that it
calls for the elements of Wi-Fi Protected Setup. The SSID is copied before the length of the frame is
looked at; the data of the vendor elements are put one behind the other in a buffer of 512 octets,
which is asked for room before an element's length is added.

An octet of an element, or of an attribute within it, that lies behind the frame stops the check
(`Checked`), and so does an octet written behind the buffer. The two octets behind the last element
are looked at as well, but they are not taken for an element whatever they are.
-/
import Mathlib.Data.List.GetD
import Mt7601.Lib.Reading

namespace Mt7601.Mlme.ProbeReq

open Checked

/-! ## 1. The frame and what the check does with it -/

def ieSsid : UInt8 := 0
def ieVendorSpecific : UInt8 := 221

/-- `WPS_OUI` -/
def wpsOui : List UInt8 := [0x00, 0x50, 0xf2, 0x04]

/-- `sizeof(HEADER_802_11)`, where `Octet` begins -/
abbrev lengthHdr : Nat := 24

/-- `MAX_LEN_OF_SSID` -/
abbrev maxLenOfSsid : Nat := 32

/-- The size of `pPeerWscIe`. -/
abbrev peerWscIeSize : Nat := 512

/-- `sizeof(WSC_IE)`: an attribute's header and its first octet -/
abbrev sizeofWscIe : Nat := 5

/-- `WSC_ID_DEVICE_PWD_ID` -/
def wscIdDevicePwdId : Nat := 0x1012

/-- `DEV_PASS_ID_PIN` and `DEV_PASS_ID_PBC` -/
def devPassIdPin : Nat := 0x0000
def devPassIdPbc : Nat := 0x0004

/-- `WSC_PROXY` -/
def wscProxy : UInt8 := 2

/-- A BSS of the access point: its address and what is read of its `WscControl`. -/
structure MbssWsc where
  bssid : List UInt8
  wscConfMode : UInt8
  bWscTrigger : Bool
  pbcMode : Bool

/-- What the check is called in: the mode, the BSSs, whether the two buffers can be allocated, and
the memory behind the frame. -/
structure ProbeEnv where
  opModeAp : Bool
  bssidNum : Nat
  mbssid : Nat → MbssWsc
  allocWscIe : Bool
  allocUpnp : Bool
  behind : List UInt8

/-- What is done beside the verdict. -/
inductive ProbeEvent
  /-- `WscPBC_DPID_FromSTA` -/
  | pbcDpidFromSta (addr2 : List UInt8)
  /-- `WscInsertPeerEntryByMAC` -/
  | insertPeerEntry (apIdx : Nat) (addr2 : List UInt8)
  /-- `WscSendUPnPMessage` of a probe request: the SSID, the address and the data -/
  | sendUpnp (apidx : Nat) (ssid macAddr data : List UInt8)
  deriving DecidableEq, Repr

/-- `Fr->Hdr.Addr1` and `Fr->Hdr.Addr2` -/
def addr1 (env : ProbeEnv) (fr : List UInt8) : List UInt8 := Mem.read (fr ++ env.behind) 4 6
def addr2 (env : ProbeEnv) (fr : List UInt8) : List UInt8 := Mem.read (fr ++ env.behind) 10 6

/-- The BSS a frame is for, if it is for one. -/
def apIdxOf (env : ProbeEnv) (fr : List UInt8) : Option Nat :=
  (List.range env.bssidNum).find? fun i => (env.mbssid i).bssid = addr1 env fr

def be16At (mem : List UInt8) (i : Nat) : Nat :=
  256 * (mem.getD i 0).toNat + (mem.getD (i + 1) 0).toNat

/-! ## 2. The attributes -/

/-- What follows from a device password identifier. -/
def dpidEvents (env : ProbeEnv) (fr : List UInt8) (devicePasswordId : Nat) : List ProbeEvent :=
  if devicePasswordId = devPassIdPbc then [.pbcDpidFromSta (addr2 env fr)]
  else if devicePasswordId = devPassIdPin then
    if env.opModeAp then
      match apIdxOf env fr with
      | none => []
      | some i =>
        if !(env.mbssid i).bWscTrigger ∨ !(env.mbssid i).pbcMode then
          [.insertPeerEntry i (addr2 env fr)]
        else []
    -- `pWscCtrl` is `NULL`
    else []
  else []

/-- `WscCheckPeerDPID`: the loop over the attributes, `len` octets from `pData` on. `Len` is signed;
below zero it ends the loop as zero does. -/
def wscCheckPeerDpid (env : ProbeEnv) (fr : List UInt8) (pData len : Nat) :
    Checked (List ProbeEvent) :=
  if 0 < len then
    match octets fr pData sizeofWscIe with
    | .error e => .error e
    | .ok wscIe =>
      if be16At wscIe 0 = wscIdDevicePwdId then
        octets fr (pData + 4) 2 >>= fun id => .ok (dpidEvents env fr (be16At id 0))
      else
        wscCheckPeerDpid env fr (pData + (be16At wscIe 2 + 4)) (len - (be16At wscIe 2 + 4))
  else .ok []
termination_by len

/-! ## 3. The elements -/

/-- What has been gathered: the `PeerWscIeLen` octets of `pPeerWscIe`, and what was done. -/
structure Gathered where
  wscIe : List UInt8 := []
  events : List ProbeEvent := []
  deriving DecidableEq, Repr

/-- `case IE_VENDOR_SPECIFIC`, for an element of Wi-Fi Protected Setup. -/
def gatherWps (env : ProbeEnv) (fr : List UInt8) (eidData eidLen : Nat) (g : Gathered) :
    Checked Gathered := do
  let found ← wscCheckPeerDpid env fr (eidData + 4) (eidLen - 4)
  if env.allocWscIe ∧ g.wscIe.length < peerWscIeSize then
    let data ← octets fr (eidData + 4) (eidLen - 4)
    access peerWscIeSize g.wscIe.length (eidLen - 4)
    return { wscIe := g.wscIe ++ data, events := g.events ++ found }
  else return { g with events := g.events ++ found }

/-- The `switch`. -/
def gatherElement (env : ProbeEnv) (fr : List UInt8) (eid : UInt8) (eidData eidLen : Nat)
    (g : Gathered) : Checked Gathered := do
  if eid = ieVendorSpecific ∧ 4 < eidLen then
    let isWps ← equal fr eidData wpsOui
    if isWps then gatherWps env fr eidData eidLen g else return g
  else return g

/-- The loop: the element whose header is at `pos`, in the memory of the frame. -/
def gatherLoop (env : ProbeEnv) (fr : List UInt8) (pos : Nat) (g : Gathered) : Checked Gathered :=
  let eid := (fr ++ env.behind).getD pos 0
  let eidLen := ((fr ++ env.behind).getD (pos + 1) 0).toNat
  if pos + 2 + eidLen ≤ fr.length then
    match gatherElement env fr eid (pos + 2) eidLen g with
    | .error e => .error e
    | .ok g => gatherLoop env fr (pos + 2 + eidLen) g
  else .ok g
termination_by fr.length - pos

/-! ## 4. The check -/

/-- The outputs, with the data gathered and what was done. -/
structure ProbeReqOk where
  addr2 : List UInt8
  ssid : List UInt8
  wscIe : List UInt8
  events : List ProbeEvent
  deriving DecidableEq, Repr

/-- The message to the external registrar: of the BSS the frame is for, or of the first. -/
def upnpEvents (env : ProbeEnv) (fr : List UInt8) (ssid wscIe : List UInt8) : List ProbeEvent :=
  if env.allocWscIe ∧ 0 < wscIe.length then
    let apidx := (apIdxOf env fr).getD 0
    if (env.mbssid apidx).wscConfMode &&& wscProxy ≠ 0 ∧ env.allocUpnp then
      [.sendUpnp apidx ssid (addr2 env fr) wscIe]
    else []
  else []

/-- `PeerProbeReqSanity` of a frame of `MsgLen` octets; `none` is `return FALSE`. -/
def peerProbeReqSanity (env : ProbeEnv) (fr : List UInt8) : Checked (Option ProbeReqOk) := do
  let mem := fr ++ env.behind
  let ssidLen := (mem.getD (lengthHdr + 1) 0).toNat
  if mem.getD lengthHdr 0 ≠ ieSsid ∨ maxLenOfSsid < ssidLen then return none
  let ssid ← octets fr (lengthHdr + 2) ssidLen
  let g ← gatherLoop env fr lengthHdr {}
  return some {
    addr2 := addr2 env fr
    ssid
    wscIe := g.wscIe
    events := g.events ++ upnpEvents env fr ssid g.wscIe }

/-! ## 5. The condition -/

/-- The length octet of the element at an offset. -/
def eidLenAt (fr : List UInt8) (pos : Nat) : Nat := (fr.getD (pos + 1) 0).toNat

/-- The elements of Wi-Fi Protected Setup among those that lie one behind the other in the frame. -/
def wpsElements (fr : List UInt8) (pos : Nat) : List Nat :=
  if pos + 2 + eidLenAt fr pos ≤ fr.length then
    if fr.getD pos 0 = ieVendorSpecific ∧ 4 < eidLenAt fr pos ∧
        Mem.read fr (pos + 2) 4 = wpsOui then
      pos :: wpsElements fr (pos + 2 + eidLenAt fr pos)
    else wpsElements fr (pos + 2 + eidLenAt fr pos)
  else []
termination_by fr.length - pos

/-- The attributes the search for a device password comes to. -/
def wscAttributes (fr : List UInt8) (pData len : Nat) : List Nat :=
  if 0 < len then
    pData ::
      if be16At fr pData = wscIdDevicePwdId then []
      else wscAttributes fr (pData + (be16At fr (pData + 2) + 4)) (len - (be16At fr (pData + 2) + 4))
  else []
termination_by len

/-- What is read of an attribute lies in the frame: its header with the octet behind it, and a device
password identifier. -/
def AttributeInside (fr : List UInt8) (p : Nat) : Prop :=
  p + sizeofWscIe ≤ fr.length ∧ (be16At fr p = wscIdDevicePwdId → p + 6 ≤ fr.length)

/-- The octets an element adds to the buffer. -/
def wpsDataLens (fr : List UInt8) (pos : Nat) : List Nat :=
  (wpsElements fr pos).map fun p => eidLenAt fr p - 4

/-- Data of these lengths, one behind the other, stay in the buffer: no length takes the total from
below the size to above it. -/
def Fills (size start : Nat) (lens : List Nat) : Prop :=
  ∀ k, start + (lens.take k).sum < size → start + (lens.take (k + 1)).sum ≤ size

/-- Three elements of 255 octets do not. -/
example : ¬ Fills peerWscIeSize 0 [251, 251, 251] := fun h => absurd (h 2 (by decide)) (by decide)

/-! ## 6. The attributes -/

section

variable {env : ProbeEnv} {fr : List UInt8}

theorem be16At_read {pData n i : Nat} (h : i + 1 < n) :
    be16At (Mem.read fr pData n) i = be16At fr (pData + i) := by
  rw [be16At, be16At, Mem.getD_read fr pData (Nat.lt_of_succ_lt h), Mem.getD_read fr pData h]
  rfl

/-- The search goes through exactly if what it reads of every attribute it comes to is inside. -/
theorem wscCheckPeerDpid_guarded (pData len : Nat) :
    Guarded (wscCheckPeerDpid env fr pData len)
      (∀ a ∈ wscAttributes fr pData len, AttributeInside fr a) fun _ => True := by
  fun_induction wscAttributes fr pData len with
  | case1 pData len hlen ih =>
    rw [wscCheckPeerDpid, if_pos hlen, List.forall_mem_cons]
    by_cases hin : pData + sizeofWscIe ≤ fr.length
    · have htype : be16At (Mem.read fr pData sizeofWscIe) 0 = be16At fr pData :=
        be16At_read (by decide)
      have hlength : be16At (Mem.read fr pData sizeofWscIe) 2 = be16At fr (pData + 2) :=
        be16At_read (by decide)
      rw [octets_ok hin]
      dsimp only
      rw [htype, hlength]
      by_cases hid : be16At fr pData = wscIdDevicePwdId
      · rw [if_pos hid, if_pos hid]
        refine ((octets_guarded _ _).map fun _ _ => trivial).congr ?_
        constructor
        · intro hsix
          exact ⟨⟨hin, fun _ => hsix⟩, fun _ h => absurd h List.not_mem_nil⟩
        · intro h
          exact h.1.2 hid
      · rw [if_neg hid, if_neg hid]
        exact ih.congr (and_iff_right ⟨hin, fun h => absurd h hid⟩).symm
    · rw [octets, access_error (Nat.not_le.mp hin)]
      exact Guarded.error.congr ⟨False.elim, fun h => hin h.1.1⟩
  | case2 pData len hlen =>
    rw [wscCheckPeerDpid, if_neg hlen]
    exact (Guarded.ok trivial).congr (iff_of_true trivial fun a ha => absurd ha List.not_mem_nil)

end

/-! ## 7. The buffer -/

section

variable {size start n : Nat} {lens : List Nat}

/-- A full buffer takes nothing more. -/
theorem fills_of_le (h : size ≤ start) : Fills size start lens := by
  intro k hk
  omega

theorem fills_cons (h : start < size) :
    Fills size start (n :: lens) ↔ start + n ≤ size ∧ Fills size (start + n) lens := by
  constructor
  · intro hfills
    refine ⟨by simpa using hfills 0 (by simpa using h), fun k hk => ?_⟩
    have hnext := hfills (k + 1)
    simp only [List.take_succ_cons, List.sum_cons] at hnext
    omega
  · rintro ⟨hfirst, hrest⟩ k hk
    cases k with
    | zero => simpa using hfirst
    | succ k =>
      have hnext := hrest k
      simp only [List.take_succ_cons, List.sum_cons] at hk ⊢
      omega

end

/-! ## 8. The elements -/

section

variable {env : ProbeEnv} {fr : List UInt8} {g : Gathered} {pos : Nat}

/-- The octets in the buffer behind an element that adds `n`. -/
def grown (env : ProbeEnv) (total n : Nat) : Nat :=
  if env.allocWscIe ∧ total < peerWscIeSize then total + n else total

theorem gatherWps_guarded (hin : pos + 2 + eidLenAt fr pos ≤ fr.length) (hlong : 4 < eidLenAt fr pos) :
    Guarded (gatherWps env fr (pos + 2) (eidLenAt fr pos) g)
      ((∀ a ∈ wscAttributes fr (pos + 6) (eidLenAt fr pos - 4), AttributeInside fr a) ∧
        (env.allocWscIe → g.wscIe.length < peerWscIeSize →
          g.wscIe.length + (eidLenAt fr pos - 4) ≤ peerWscIeSize))
      fun g' => g'.wscIe.length = grown env g.wscIe.length (eidLenAt fr pos - 4) := by
  unfold gatherWps
  refine (wscCheckPeerDpid_guarded _ _).bind fun found _ => ?_
  rw [grown]
  by_cases hroom : env.allocWscIe ∧ g.wscIe.length < peerWscIeSize
  · rw [if_pos hroom, if_pos hroom, octets_ok (by omega)]
    dsimp only [ok_bind]
    refine ((Guarded.access _ _ _).map fun _ _ => ?_).congr ?_
    · rw [List.length_append, Mem.length_read]
    · exact ⟨fun h _ _ => h, fun h => h hroom.1 hroom.2⟩
  · rw [if_neg hroom, if_neg hroom]
    have hguard : Guarded (.ok { g with events := g.events ++ found } : Checked Gathered) True
        fun g' => g'.wscIe.length = g.wscIe.length := .ok rfl
    exact hguard.congr (iff_of_true trivial fun ha hl => absurd ⟨ha, hl⟩ hroom)

/-- An element that lies in the frame. -/
theorem gatherLoop_element (hin : pos + 2 + eidLenAt fr pos ≤ fr.length) :
    gatherLoop env fr pos g =
      gatherElement env fr (fr.getD pos 0) (pos + 2) (eidLenAt fr pos) g >>= fun g =>
        gatherLoop env fr (pos + 2 + eidLenAt fr pos) g := by
  have hlen : ((fr ++ env.behind).getD (pos + 1) 0).toNat = eidLenAt fr pos :=
    congrArg UInt8.toNat (List.getD_append _ _ _ _ (by omega))
  rw [gatherLoop, hlen, List.getD_append _ _ _ _ (by omega), if_pos hin]
  cases gatherElement env fr (fr.getD pos 0) (pos + 2) (eidLenAt fr pos) g with
  | error e => rfl
  | ok g => rfl

/-- Behind the last element, whatever stands there. -/
theorem gatherLoop_end (hin : ¬ pos + 2 + eidLenAt fr pos ≤ fr.length) :
    gatherLoop env fr pos g = .ok g := by
  rw [gatherLoop]
  refine if_neg fun h => hin ?_
  have hlen : (fr ++ env.behind).getD (pos + 1) 0 = fr.getD (pos + 1) 0 := List.getD_append _ _ _ _ (by omega)
  rwa [hlen] at h

theorem gatherElement_wps (hin : pos + 2 + eidLenAt fr pos ≤ fr.length)
    (hwps : fr.getD pos 0 = ieVendorSpecific ∧ 4 < eidLenAt fr pos ∧
      Mem.read fr (pos + 2) 4 = wpsOui) :
    gatherElement env fr (fr.getD pos 0) (pos + 2) (eidLenAt fr pos) g =
      gatherWps env fr (pos + 2) (eidLenAt fr pos) g := by
  obtain ⟨heid, hlong, houi⟩ := hwps
  have hlen : wpsOui.length = 4 := rfl
  have hsame : decide (Mem.read fr (pos + 2) wpsOui.length = wpsOui) = true := decide_eq_true houi
  rw [gatherElement, if_pos ⟨heid, hlong⟩, equal_ok (by omega)]
  dsimp only [ok_bind]
  rw [if_pos hsame]

theorem gatherElement_other (hin : pos + 2 + eidLenAt fr pos ≤ fr.length)
    (hwps : ¬ (fr.getD pos 0 = ieVendorSpecific ∧ 4 < eidLenAt fr pos ∧
      Mem.read fr (pos + 2) 4 = wpsOui)) :
    gatherElement env fr (fr.getD pos 0) (pos + 2) (eidLenAt fr pos) g = .ok g := by
  rw [gatherElement]
  by_cases hvendor : fr.getD pos 0 = ieVendorSpecific ∧ 4 < eidLenAt fr pos
  · have hlen : wpsOui.length = 4 := rfl
    have hsame : ¬ decide (Mem.read fr (pos + 2) wpsOui.length = wpsOui) = true :=
      fun h => hwps ⟨hvendor.1, hvendor.2, of_decide_eq_true h⟩
    rw [if_pos hvendor, equal_ok (by omega)]
    dsimp only [ok_bind]
    rw [if_neg hsame]
    rfl
  · rw [if_neg hvendor]
    rfl

/-- **The loop over the elements.** -/
theorem gatherLoop_guarded :
    Guarded (gatherLoop env fr pos g)
      ((∀ p ∈ wpsElements fr pos, ∀ a ∈ wscAttributes fr (p + 6) (eidLenAt fr p - 4),
          AttributeInside fr a) ∧
        (env.allocWscIe → Fills peerWscIeSize g.wscIe.length (wpsDataLens fr pos)))
      fun g' => g.wscIe.length ≤ peerWscIeSize → g'.wscIe.length ≤ peerWscIeSize := by
  rw [wpsDataLens]
  fun_induction wpsElements fr pos generalizing g with
  | case1 pos hin hwps ih =>
    rw [gatherLoop_element hin, gatherElement_wps hin hwps, List.forall_mem_cons, List.map_cons]
    refine (Guarded.bind (S := (∀ p ∈ wpsElements fr (pos + 2 + eidLenAt fr pos),
        ∀ a ∈ wscAttributes fr (p + 6) (eidLenAt fr p - 4), AttributeInside fr a) ∧
          (env.allocWscIe → Fills peerWscIeSize (grown env g.wscIe.length (eidLenAt fr pos - 4))
            ((wpsElements fr (pos + 2 + eidLenAt fr pos)).map fun p => eidLenAt fr p - 4)))
      (gatherWps_guarded hin hwps.2.1).keep fun g' hg' => ?_).congr ?_
    · obtain ⟨⟨-, hroom⟩, hlen⟩ := hg'
      rw [← hlen]
      refine ih.imp fun r hr hsize => hr ?_
      rw [hlen, grown]
      split
      · rename_i halloc
        exact hroom halloc.1 halloc.2
      · exact hsize
    · have hfills : (env.allocWscIe → Fills peerWscIeSize g.wscIe.length
          ((eidLenAt fr pos - 4) ::
            (wpsElements fr (pos + 2 + eidLenAt fr pos)).map fun p => eidLenAt fr p - 4)) ↔
          (env.allocWscIe → g.wscIe.length < peerWscIeSize →
            g.wscIe.length + (eidLenAt fr pos - 4) ≤ peerWscIeSize) ∧
          (env.allocWscIe → Fills peerWscIeSize (grown env g.wscIe.length (eidLenAt fr pos - 4))
            ((wpsElements fr (pos + 2 + eidLenAt fr pos)).map fun p => eidLenAt fr p - 4)) := by
        rw [← forall_and]
        refine forall_congr' fun halloc => ?_
        rw [grown]
        by_cases hroom : g.wscIe.length < peerWscIeSize
        · rw [if_pos ⟨halloc, hroom⟩, fills_cons hroom, imp_iff_right hroom]
        · rw [if_neg fun h => hroom h.2]
          exact iff_of_true (fills_of_le (by omega))
            ⟨fun h => absurd h hroom, fills_of_le (by omega)⟩
      rw [hfills]
      exact and_and_and_comm
  | case2 pos hin hwps ih =>
    rw [gatherLoop_element hin, gatherElement_other hin hwps]
    exact ih
  | case3 pos hin =>
    rw [gatherLoop_end hin]
    have hguard : Guarded (.ok g : Checked Gathered) True
        fun g' => g.wscIe.length ≤ peerWscIeSize → g'.wscIe.length ≤ peerWscIeSize := .ok id
    refine hguard.congr (iff_of_true trivial ⟨fun p hp => absurd hp List.not_mem_nil, fun _ => ?_⟩)
    intro k hk
    simpa using Nat.le_of_lt hk

end

/-! ## 9. The check -/

/-- **The frame keeps the check inside.**  If its body begins with the header of an SSID element that
is accepted, the element ends in the frame; what is read of the attributes of its elements of Wi-Fi
Protected Setup lies in the frame; and their data stay in the buffer, if there is one. -/
def FrameInside (env : ProbeEnv) (fr : List UInt8) : Prop :=
  (fr ++ env.behind).getD lengthHdr 0 = ieSsid →
    ((fr ++ env.behind).getD (lengthHdr + 1) 0).toNat ≤ maxLenOfSsid →
    lengthHdr + 2 + ((fr ++ env.behind).getD (lengthHdr + 1) 0).toNat ≤ fr.length ∧
      (∀ p ∈ wpsElements fr lengthHdr, ∀ a ∈ wscAttributes fr (p + 6) (eidLenAt fr p - 4),
        AttributeInside fr a) ∧
      (env.allocWscIe → Fills peerWscIeSize 0 (wpsDataLens fr lengthHdr))

/-- **`PeerProbeReqSanity` takes only what lies in the frame, and keeps the data it gathers within its
buffer, exactly when the frame keeps it inside**; it always ends. -/
theorem peerProbeReqSanity_iff (env : ProbeEnv) (fr : List UInt8) :
    (∃ r, peerProbeReqSanity env fr = .ok r ∧
        ∀ res, r = some res → res.wscIe.length ≤ peerWscIeSize) ↔ FrameInside env fr := by
  rw [FrameInside, peerProbeReqSanity]
  by_cases hfail : (fr ++ env.behind).getD lengthHdr 0 ≠ ieSsid ∨
      maxLenOfSsid < ((fr ++ env.behind).getD (lengthHdr + 1) 0).toNat
  · rw [if_pos hfail]
    refine iff_of_true ⟨none, rfl, fun res hres => nomatch hres⟩ fun heid hlen => ?_
    rcases hfail with hne | hlong
    · exact absurd heid hne
    · exact absurd hlen (Nat.not_le.mpr hlong)
  · obtain ⟨heid, hlen⟩ := not_or.mp hfail
    rw [if_neg hfail, imp_iff_right (not_not.mp heid), imp_iff_right (Nat.not_lt.mp hlen)]
    have hloop : Guarded (gatherLoop env fr lengthHdr {}) _ _ := gatherLoop_guarded
    have hcheck : Guarded
        (octets fr (lengthHdr + 2) ((fr ++ env.behind).getD (lengthHdr + 1) 0).toNat >>= fun ssid =>
          gatherLoop env fr lengthHdr {} >>= fun g =>
            .ok (some (ProbeReqOk.mk (addr2 env fr) ssid g.wscIe
              (g.events ++ upnpEvents env fr ssid g.wscIe))))
        (_ ∧ _) (fun r => ∀ res, r = some res → res.wscIe.length ≤ peerWscIeSize) :=
      (octets_guarded _ _).bind fun ssid _ => hloop.map fun g hg res hres => by
        cases hres
        exact hg (Nat.zero_le _)
    refine Iff.trans ?_ hcheck.safe
    constructor
    · rintro ⟨r, hr, -⟩
      exact ⟨r, hr⟩
    · rintro ⟨r, hr⟩
      exact ⟨r, hr, hcheck.post r hr⟩

/-- A frame that ends behind the header of its SSID element. -/
def headerOnly : List UInt8 := List.replicate 24 0 ++ [0, 32]

/-- Thirty-two octets behind the frame are taken for the SSID. -/
theorem peerProbeReqSanity_headerOnly :
    peerProbeReqSanity ⟨true, 0, fun _ => ⟨[], 0, false, false⟩, true, true, []⟩ headerOnly =
      .error .outside := by
  decide

end Mt7601.Mlme.ProbeReq
