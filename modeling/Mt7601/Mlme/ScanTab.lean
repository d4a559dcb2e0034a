/-
# The scan table over a run

Each entry of the scan table is to describe one access point: what it holds is to come from frames
of that BSSID and band, since the entry was made. `Owned` says so by a replay: the frames of the
access point, put into an entry that is all zero, give the same view.

`BssTableSetEntry` updates an entry also where it overwrites one. A full table then mixes two access
points up when the frame hides its SSID, when the old entry has `bSES` set, or when
`BssCipherParse` reads behind what the frame has brought. `StepOk` is that, and `scanTab_runs` the
run; the number of the entries and their being distinct need no condition.
-/
import Mt7601.Lib.Run
import Mt7601.Mlme.BssTable
import Mathlib.Data.List.GetD

namespace Mt7601.Mlme

/-! ## 1. What an entry says about its access point -/

/-- The octets of an entry that count, each up to its length. -/
structure ApView where
  bssid : List UInt8
  channel : UInt8
  centralChannel : UInt8
  bssType : UInt8
  capabilityInfo : UInt16
  privacy : Bool
  hidden : Bool
  ssid : List UInt8
  supRateLen : UInt8
  supRate : List UInt8
  extRate : List UInt8
  newExtChanOffset : UInt8
  htCapability : List UInt8
  addHtInfo : List UInt8
  varIEs : List UInt8
  ciphers : Ciphers
  wpaIE : IeBuffer
  rsnIE : IeBuffer
  wpsIE : IeBuffer

def BssEntry.view (e : BssEntry) : ApView where
  bssid := e.bssid
  channel := e.channel
  centralChannel := e.centralChannel
  bssType := e.bssType
  capabilityInfo := e.capabilityInfo
  privacy := e.privacy
  hidden := e.hidden
  ssid := Mem.read e.ssid 0 e.ssidLen.toNat
  supRateLen := e.supRateLen
  supRate := Mem.read e.supRate 0 (min e.supRateLen.toNat maxLenOfSupportedRates)
  extRate := Mem.read e.extRate 0 e.extRateLen.toNat
  newExtChanOffset := e.newExtChanOffset
  htCapability := Mem.read e.htCapability 0 e.htCapabilityLen.toNat
  addHtInfo := Mem.read e.addHtInfo 0 e.addHtInfoLen.toNat
  varIEs := Mem.read e.varIEs 0 e.varIELen
  ciphers := e.ciphers
  wpaIE := e.wpaIE
  rsnIE := e.rsnIE
  wpsIE := e.wpsIE

theorem read_write_read (mem l : List UInt8) (n : Nat) :
    Mem.read (Mem.write mem 0 (Mem.read l 0 n)) 0 n = Mem.read l 0 n := by
  have h := Mem.read_write mem (Mem.read l 0 n) 0
  rwa [Mem.length_read] at h

/-- The frame hides its SSID. -/
def BcnIeList.hidesSsid (ie : BcnIeList) : Bool := isZeroSsid ie.ssid ie.ssidLen

/-- The SSID, from a frame that shows it or over the same SSID. -/
theorem setSsid_congr {e e' : BssEntry} {ie : BcnIeList}
    (h : ie.hidesSsid = true →
      Mem.read e.ssid 0 e.ssidLen.toNat = Mem.read e'.ssid 0 e'.ssidLen.toNat) :
    (e.setSsid ie).hidden = (e'.setSsid ie).hidden ∧
      Mem.read (e.setSsid ie).ssid 0 (e.setSsid ie).ssidLen.toNat =
        Mem.read (e'.setSsid ie).ssid 0 (e'.setSsid ie).ssidLen.toNat := by
  have hzero : Mem.read e.ssid 0 e.ssidLen.toNat = Mem.read e'.ssid 0 e'.ssidLen.toNat →
      (isZeroSsid e.ssid e.ssidLen = true ↔ isZeroSsid e'.ssid e'.ssidLen = true) := by
    intro heq
    have hlen := congrArg List.length heq
    rw [Mem.length_read, Mem.length_read] at hlen
    unfold isZeroSsid
    rw [heq, hlen]
  unfold BssEntry.setSsid
  dsimp only
  by_cases hlen : ie.ssidLen > 0
  · rw [if_pos hlen, if_pos hlen]
    by_cases hhides : isZeroSsid ie.ssid ie.ssidLen = true
    · rw [if_pos hhides, if_pos hhides]
      exact ⟨rfl, h hhides⟩
    · rw [if_neg hhides, if_neg hhides]
      exact ⟨rfl, rfl⟩
  · have hhides : ie.hidesSsid = true := by
      have hlen0 : ie.ssidLen = 0 := UInt8.le_zero_iff.mp (UInt8.not_lt.mp hlen)
      unfold BcnIeList.hidesSsid isZeroSsid
      rw [hlen0]
      rfl
    rw [if_neg hlen, if_neg hlen]
    by_cases hold : isZeroSsid e.ssid e.ssidLen = true
    · rw [if_pos hold, if_pos ((hzero (h hhides)).mp hold)]
      exact ⟨rfl, rfl⟩
    · rw [if_neg hold, if_neg fun hold' => hold ((hzero (h hhides)).mpr hold')]
      exact ⟨rfl, h hhides⟩

section

variable (getCentCh : List UInt8 → List UInt8 → UInt8)

theorem setHt_congr {e e' : BssEntry} (ie : BcnIeList) (h : e.centralChannel = e'.centralChannel) :
    (e.setHt getCentCh ie).centralChannel = (e'.setHt getCentCh ie).centralChannel ∧
      Mem.read (e.setHt getCentCh ie).htCapability 0 (e.setHt getCentCh ie).htCapabilityLen.toNat =
        Mem.read (e'.setHt getCentCh ie).htCapability 0
          (e'.setHt getCentCh ie).htCapabilityLen.toNat ∧
      Mem.read (e.setHt getCentCh ie).addHtInfo 0 (e.setHt getCentCh ie).addHtInfoLen.toNat =
        Mem.read (e'.setHt getCentCh ie).addHtInfo 0 (e'.setHt getCentCh ie).addHtInfoLen.toNat := by
  unfold BssEntry.setHt
  dsimp only
  split_ifs
  · dsimp only
    rw [read_write_read, read_write_read, read_write_read, read_write_read]
    exact ⟨rfl, rfl, rfl⟩
  · dsimp only
    rw [read_write_read, read_write_read]
    exact ⟨h, rfl, rfl⟩
  · exact ⟨h, rfl, rfl⟩

/-- What an entry has from its last frame alone. -/
structure FromFrame (e : BssEntry) (b : Beacon) : Prop where
  bssid : e.bssid = b.ieList.bssid
  channel : e.channel = b.ieList.channel
  bssType : e.bssType = b.ieList.bssType
  capabilityInfo : e.capabilityInfo = b.ieList.capabilityInfo
  privacy : e.privacy = decide (b.ieList.capabilityInfo &&& 0x0010 ≠ 0)
  supRateLen : e.supRateLen = b.ieList.supRateLen
  supRate : Mem.read e.supRate 0 (min e.supRateLen.toNat maxLenOfSupportedRates) =
    Mem.read b.ieList.supRate 0 (min b.ieList.supRateLen.toNat maxLenOfSupportedRates)
  extRate : Mem.read e.extRate 0 e.extRateLen.toNat =
    Mem.read b.ieList.extRate 0 (min b.ieList.extRateLen.toNat maxLenOfSupportedRates)
  newExtChanOffset : e.newExtChanOffset = b.ieList.newExtChannelOffset
  varIELen : e.varIELen = b.lengthVIE
  varIEs : Mem.read e.varIEs 0 e.varIELen = Mem.read b.pVIE 0 b.lengthVIE

theorem beforeCiphers_fromFrame (e : BssEntry) (b : Beacon) :
    FromFrame (e.beforeCiphers getCentCh b) b := by
  have hext : (UInt8.ofNat (min b.ieList.extRateLen.toNat maxLenOfSupportedRates)).toNat =
      min b.ieList.extRateLen.toNat maxLenOfSupportedRates := by
    have hmax : min b.ieList.extRateLen.toNat maxLenOfSupportedRates ≤ 12 := Nat.min_le_right _ _
    rw [UInt8.toNat_ofNat']
    omega
  unfold BssEntry.beforeCiphers
  dsimp only
  rw [setHt_eq, setFixed_eq, setSsid_eq]
  refine ⟨rfl, rfl, rfl, rfl, rfl, rfl, ?_, ?_, rfl, rfl, ?_⟩
  · exact read_write_read _ _ _
  · dsimp only [BssEntry.setVie, BssEntry.setRates]
    rw [hext]
    exact read_write_read _ _ _
  · dsimp only
    rw [setVie_varIEs]
    exact read_write_read _ _ _

theorem beforeCiphers_varIEs (e : BssEntry) (b : Beacon) :
    (e.beforeCiphers getCentCh b).varIEs = e.varIEsAfter b := by
  unfold BssEntry.beforeCiphers
  dsimp only
  rw [setHt_eq, setFixed_eq, setSsid_eq]
  exact setVie_varIEs _ b

theorem beforeCiphers_ciphers (e : BssEntry) (b : Beacon) :
    (e.beforeCiphers getCentCh b).ciphers = e.ciphers := by
  unfold BssEntry.beforeCiphers
  dsimp only
  rw [setHt_eq, setFixed_eq, setSsid_eq]
  rfl

theorem beforeCiphers_ssid (e : BssEntry) (b : Beacon) :
    (e.beforeCiphers getCentCh b).hidden = (e.setSsid b.ieList).hidden ∧
      (e.beforeCiphers getCentCh b).ssid = (e.setSsid b.ieList).ssid ∧
      (e.beforeCiphers getCentCh b).ssidLen = (e.setSsid b.ieList).ssidLen := by
  have hbssid : ({ e with bssid := b.ieList.bssid } : BssEntry).setSsid b.ieList =
      { e.setSsid b.ieList with bssid := b.ieList.bssid } := by
    unfold BssEntry.setSsid
    dsimp only
    split_ifs <;> rfl
  unfold BssEntry.beforeCiphers
  dsimp only
  rw [setHt_eq, setFixed_eq, hbssid]
  exact ⟨rfl, rfl, rfl⟩

theorem beforeCiphers_ht (e e' : BssEntry) (b : Beacon) :
    (e.beforeCiphers getCentCh b).view.centralChannel =
        (e'.beforeCiphers getCentCh b).view.centralChannel ∧
      (e.beforeCiphers getCentCh b).view.htCapability =
        (e'.beforeCiphers getCentCh b).view.htCapability ∧
      (e.beforeCiphers getCentCh b).view.addHtInfo =
        (e'.beforeCiphers getCentCh b).view.addHtInfo :=
  setHt_congr getCentCh b.ieList rfl

theorem view_bssEntrySet (behind : List UInt8) (e : BssEntry) (b : Beacon) :
    (bssEntrySet getCentCh behind e b).view =
      { (e.beforeCiphers getCentCh b).view with
        ciphers := (bssCipherParse behind (e.beforeCiphers getCentCh b)).ciphers
        wpaIE := (BssEntry.setIes {} (fun i => b.pVIE.getD i 0) b.lengthVIE).wpaIE
        rsnIE := (BssEntry.setIes {} (fun i => b.pVIE.getD i 0) b.lengthVIE).rsnIE
        wpsIE := (BssEntry.setIes {} (fun i => b.pVIE.getD i 0) b.lengthVIE).wpsIE } := by
  rw [bssEntrySet_eq]
  generalize e.beforeCiphers getCentCh b = p
  generalize BssEntry.setIes {} (fun i => b.pVIE.getD i 0) b.lengthVIE = q
  rfl

/-- **What of the old entry a frame leaves in the view**: the SSID and what the ciphers are derived
from. -/
theorem view_bssEntrySet_congr {behind behind' : List UInt8} {e e' : BssEntry} {b : Beacon}
    (hssid : b.ieList.hidesSsid = true →
      Mem.read e.ssid 0 e.ssidLen.toNat = Mem.read e'.ssid 0 e'.ssidLen.toNat)
    (hciphers : (bssCipherParse behind (e.beforeCiphers getCentCh b)).ciphers =
      (bssCipherParse behind' (e'.beforeCiphers getCentCh b)).ciphers) :
    (bssEntrySet getCentCh behind e b).view = (bssEntrySet getCentCh behind' e' b).view := by
  rw [view_bssEntrySet, view_bssEntrySet, hciphers]
  have hframe := beforeCiphers_fromFrame getCentCh e b
  have hframe' := beforeCiphers_fromFrame getCentCh e' b
  obtain ⟨hhidden, hss, hssl⟩ := beforeCiphers_ssid getCentCh e b
  obtain ⟨hhidden', hss', hssl'⟩ := beforeCiphers_ssid getCentCh e' b
  obtain ⟨hhid, hread⟩ := setSsid_congr hssid
  obtain ⟨hcent, hcap, hinfo⟩ := beforeCiphers_ht getCentCh e e' b
  generalize e.beforeCiphers getCentCh b = p at *
  generalize e'.beforeCiphers getCentCh b = p' at *
  have hname : p.view.ssid = p'.view.ssid := by
    unfold BssEntry.view
    rw [hss, hssl, hss', hssl', hread]
  rw [ApView.mk.injEq]
  exact ⟨hframe.bssid.trans hframe'.bssid.symm, hframe.channel.trans hframe'.channel.symm, hcent,
    hframe.bssType.trans hframe'.bssType.symm,
    hframe.capabilityInfo.trans hframe'.capabilityInfo.symm,
    hframe.privacy.trans hframe'.privacy.symm, hhidden.trans (hhid.trans hhidden'.symm), hname,
    hframe.supRateLen.trans hframe'.supRateLen.symm, hframe.supRate.trans hframe'.supRate.symm,
    hframe.extRate.trans hframe'.extRate.symm,
    hframe.newExtChanOffset.trans hframe'.newExtChanOffset.symm, hcap, hinfo,
    hframe.varIEs.trans hframe'.varIEs.symm, rfl, rfl, rfl, rfl⟩

/-! ## 2. The memory the ciphers are derived from -/

theorem length_varIEsAfter (e : BssEntry) (b : Beacon) :
    (e.varIEsAfter b).length = max e.varIEs.length b.lengthVIE := by
  unfold BssEntry.varIEsAfter Mem.write
  rw [List.length_append, List.length_append, List.length_drop, Mem.length_read, List.takeD_zero,
    List.length_nil]
  omega

theorem getD_varIEsAfter (e : BssEntry) (b : Beacon) (k : Nat) :
    (e.varIEsAfter b).getD k 0 =
      if k < b.lengthVIE then b.pVIE.getD k 0 else e.varIEs.getD k 0 := by
  unfold BssEntry.varIEsAfter
  split_ifs with hk
  · have hread := Mem.getD_congr (read_write_read e.varIEs b.pVIE b.lengthVIE) hk
    exact hread
  · exact Mem.getD_write_of_le (by rw [Mem.length_read]; omega)

/-- `VarIEs` as `BssCipherParse` finds it, with what stands behind. -/
def BssEntry.memAfter (e : BssEntry) (behind : List UInt8) (b : Beacon) (i : Nat) : UInt8 :=
  (e.varIEsAfter b ++ behind).getD i 0

/-- The first `own` octets of `VarIEs` are the same. -/
structure SameVarIEs (own : Nat) (e e' : BssEntry) : Prop where
  length : own ≤ e.varIEs.length
  length' : own ≤ e'.varIEs.length
  octets : ∀ k < own, e.varIEs.getD k 0 = e'.varIEs.getD k 0

theorem SameVarIEs.after {own : Nat} {e e' : BssEntry} (h : SameVarIEs own e e') (b : Beacon)
    {p p' : BssEntry} (hp : p.varIEs = e.varIEsAfter b) (hp' : p'.varIEs = e'.varIEsAfter b) :
    SameVarIEs (max own b.lengthVIE) p p' where
  length := by
    have := h.length
    rw [hp, length_varIEsAfter]
    omega
  length' := by
    have := h.length'
    rw [hp', length_varIEsAfter]
    omega
  octets := by
    intro k hk
    rw [hp, hp', getD_varIEsAfter, getD_varIEsAfter]
    split_ifs with hframe
    · rfl
    · exact h.octets k (by omega)

theorem SameVarIEs.agree {own : Nat} {e e' : BssEntry} (h : SameVarIEs own e e')
    (behind behind' : List UInt8) :
    AgreeBelow own (e.vieMem behind) (e'.vieMem behind') := by
  intro k hk
  have hlen := h.length
  have hlen' := h.length'
  unfold BssEntry.vieMem
  rw [List.getD_append _ _ _ _ (by omega), List.getD_append _ _ _ _ (by omega)]
  exact h.octets k hk

/-- How far `BssCipherParse` reads for a frame. -/
def BssEntry.reachAfter (e : BssEntry) (behind : List UInt8) (b : Beacon) : Nat :=
  cipherReach (e.memAfter behind b) b.lengthVIE b.lengthVIE 0

/-- One of the frame's elements sets `bSES`. -/
def BssEntry.sesAfter (e : BssEntry) (behind : List UInt8) (b : Beacon) : Bool :=
  hasSes (e.memAfter behind b) b.lengthVIE b.lengthVIE 0

theorem ciphers_congr {own : Nat} {behind behind' : List UInt8} {e e' : BssEntry} {b : Beacon}
    (hvie : SameVarIEs own e e') (hreach : e.reachAfter behind b ≤ max own b.lengthVIE)
    (hses : e'.ciphers.bSES = e.ciphers.bSES ∨ e.sesAfter behind b = true) :
    (bssCipherParse behind (e.beforeCiphers getCentCh b)).ciphers =
      (bssCipherParse behind' (e'.beforeCiphers getCentCh b)).ciphers := by
  have hframe := beforeCiphers_fromFrame getCentCh e b
  have hframe' := beforeCiphers_fromFrame getCentCh e' b
  have hmem : (e.beforeCiphers getCentCh b).vieMem behind = e.memAfter behind b := by
    funext i
    unfold BssEntry.vieMem BssEntry.memAfter
    rw [beforeCiphers_varIEs]
  have hafter := hvie.after b (beforeCiphers_varIEs getCentCh e b)
    (beforeCiphers_varIEs getCentCh e' b)
  refine bssCipherParse_congr ?_ (hframe'.varIELen.trans hframe.varIELen.symm)
    (hframe'.bssType.trans hframe.bssType.symm) (hframe'.privacy.trans hframe.privacy.symm) ?_
  · unfold BssEntry.reach
    rw [hframe.varIELen, hmem]
    rw [← hmem]
    refine (hafter.agree behind behind').mono ?_
    rw [hmem]
    exact hreach
  · rw [beforeCiphers_ciphers, beforeCiphers_ciphers, hmem, hframe.varIELen]
    exact hses

/-! ## 3. The table, and what it has seen -/

/-- Where a frame goes. -/
inductive Slot where
  | update (i : Nat)
  | overwrite (i : Nat)
  | insert (i : Nat)
  | nowhere

/-- The choice `BssTableSetEntry` makes. -/
def bssSlot (d : Desired) (tab : BssTable) (b : Beacon) : Slot :=
  match bssTableSearch tab b.ieList.bssid b.ieList.channel with
  | some i => .update i
  | none =>
    if tab.bssNr ≥ maxLenOfBssTable then
      if (!d.mediaConnected || !d.apMediaConnected) && d.wants b.ieList then
        .overwrite tab.bssOverlapNr
      else .nowhere
    else .insert tab.bssNr

/-- **`BssTableSetEntry`, by where the frame goes.** -/
theorem bssTableSetEntry_eq (d : Desired) (behind : List UInt8) (tab : BssTable) (b : Beacon) :
    (bssTableSetEntry getCentCh d behind tab b).1 =
      match bssSlot d tab b with
      | .update i => tab.setEntry i (bssEntrySet getCentCh behind (tab.entry i) b)
      | .overwrite i =>
        { tab.setEntry i (bssEntrySet getCentCh behind (tab.entry i) b) with
          bssOverlapNr := (tab.bssOverlapNr + 1) % maxLenOfBssTable }
      | .insert i =>
        { tab.setEntry i (bssEntrySet getCentCh behind (tab.entry i) b) with
          bssNr := tab.bssNr + 1 }
      | .nowhere => tab := by
  unfold bssTableSetEntry bssSlot
  cases bssTableSearch tab b.ieList.bssid b.ieList.channel with
  | some i => rfl
  | none =>
    dsimp only
    by_cases hfull : tab.bssNr ≥ maxLenOfBssTable
    · rw [if_pos hfull, if_pos hfull]
      cases (!d.mediaConnected || !d.apMediaConnected) <;> cases d.wants b.ieList <;> rfl
    · rw [if_neg hfull, if_neg hfull]

/-- The scan table; for each entry, the frames of its access point since it was made, and how many
octets of `VarIEs` are its own: all of them, if the entry was zero when it was made. -/
structure ScanState where
  tab : BssTable
  heap : Heap
  frames : Nat → List Beacon
  own : Nat → Nat

inductive ScanOp where
  | setEntry (d : Desired) (behind : List UInt8) (b : Beacon)
  | deleteEntry (bssid : List UInt8) (channel : UInt8)

namespace ScanState

/-- A frame has gone to its slot. -/
def watch (s : ScanState) (b : Beacon) : Slot → ScanState
  | .update i =>
    { s with
      frames := Function.update s.frames i (s.frames i ++ [b])
      own := Function.update s.own i (max (s.own i) b.lengthVIE) }
  | .overwrite i =>
    { s with
      frames := Function.update s.frames i [b]
      own := Function.update s.own i b.lengthVIE }
  | .insert i =>
    { s with
      frames := Function.update s.frames i [b]
      own := Function.update s.own i (max maxVieLen b.lengthVIE) }
  | .nowhere => s

/-- Entry `i` is gone. -/
def watchDelete (s : ScanState) : Option Nat → ScanState
  | some i =>
    { s with
      frames := fun k => if i ≤ k then s.frames (k + 1) else s.frames k
      own := fun k => if i ≤ k then s.own (k + 1) else s.own k }
  | none => s

/-- `BssTableSetEntry` or `BssTableDeleteEntry` -/
def step (s : ScanState) : ScanOp → ScanState
  | .setEntry d behind b =>
    { s.watch b (bssSlot d s.tab b) with
      tab := (bssTableSetEntry getCentCh d behind s.tab b).1 }
  | .deleteEntry bssid channel =>
    let (tab, heap) := bssTableDeleteEntry s.tab s.heap bssid channel
    { s.watchDelete (bssDeleteIndex s.tab bssid channel) with tab := tab, heap := heap }

/-- The table that `BssTableInit` makes of any. -/
def start (tab : BssTable) (heap : Heap) : ScanState where
  tab := (bssTableInit tab heap).1
  heap := (bssTableInit tab heap).2
  frames := fun _ => []
  own := fun _ => 0

end ScanState

/-! ## 4. What is to hold -/

/-- No two entries are of the same BSSID and band. -/
def DistinctAps (tab : BssTable) : Prop :=
  ∀ i < tab.bssNr, ∀ j < tab.bssNr, (tab.entry i).bssid = (tab.entry j).bssid →
    sameBand (tab.entry i).channel (tab.entry j).channel = true → i = j

/-- The frames, put into an entry that is all zero. -/
def replay (frames : List Beacon) : BssEntry := frames.foldl (bssEntrySet getCentCh []) {}

/-- **The entry describes a single access point**: there are frames it has been made of, all of its
own BSSID and band, and it says what they alone say. -/
structure OneAp (e : BssEntry) (frames : List Beacon) : Prop where
  made : frames ≠ []
  ofAp : ∀ b ∈ frames, b.ieList.bssid = e.bssid ∧ sameBand b.ieList.channel e.channel = true
  view : e.view = (replay getCentCh frames).view

/-- **The condition.** A full table overwrites an entry only with a frame that shows its SSID or over
an entry without one, and only over an entry without `bSES` or with a frame that sets it; and
`BssCipherParse` reads no octet of `VarIEs` that none of the access point's own frames has brought
there, nor any behind `VarIEs`. -/
def ScanOk (s : ScanState) : ScanOp → Prop
  | .setEntry d behind b =>
    match bssSlot d s.tab b with
    | .update i => (s.tab.entry i).reachAfter behind b ≤ max (s.own i) b.lengthVIE
    | .overwrite i =>
      (b.ieList.hidesSsid = true → (s.tab.entry i).ssidLen = 0) ∧
        ((s.tab.entry i).ciphers.bSES = true → (s.tab.entry i).sesAfter behind b = true) ∧
        (s.tab.entry i).reachAfter behind b ≤ b.lengthVIE
    | .insert i => (s.tab.entry i).reachAfter behind b ≤ max maxVieLen b.lengthVIE
    | .nowhere => True
  | .deleteEntry _ _ => True

/-! ## 5. The table by itself -/

theorem sameBand_iff {c d : UInt8} : sameBand c d = true ↔ (c ≤ 14 ↔ d ≤ 14) := by
  unfold sameBand
  rw [Bool.or_eq_true, Bool.and_eq_true, Bool.and_eq_true]
  simp only [decide_eq_true_eq, gt_iff_lt, ← UInt8.not_le]
  by_cases hc : c ≤ 14 <;> by_cases hd : d ≤ 14 <;> simp [hc, hd]

/-- The entry is of this BSSID and band. -/
def SameAp (e : BssEntry) (bssid : List UInt8) (channel : UInt8) : Prop :=
  e.bssid = bssid ∧ sameBand e.channel channel = true

theorem bssTableSearch_some {tab : BssTable} {bssid : List UInt8} {channel : UInt8} {i : Nat}
    (h : bssTableSearch tab bssid channel = some i) :
    i < tab.bssNr ∧ SameAp (tab.entry i) bssid channel := by
  unfold bssTableSearch at h
  have hmem := List.mem_of_find?_eq_some h
  have hfound := List.find?_some h
  rw [Bool.and_eq_true, beq_iff_eq] at hfound
  exact ⟨List.mem_range.mp hmem, hfound.2, hfound.1⟩

theorem bssTableSearch_none {tab : BssTable} {bssid : List UInt8} {channel : UInt8}
    (h : bssTableSearch tab bssid channel = none) :
    ∀ i < tab.bssNr, ¬ SameAp (tab.entry i) bssid channel := by
  intro i hi hsame
  unfold bssTableSearch at h
  have hno := List.find?_eq_none.mp h i (List.mem_range.mpr hi)
  rw [Bool.and_eq_true, beq_iff_eq] at hno
  exact hno ⟨hsame.2, hsame.1⟩

theorem bssSlot_update {d : Desired} {tab : BssTable} {b : Beacon} {i : Nat}
    (h : bssSlot d tab b = .update i) :
    i < tab.bssNr ∧ SameAp (tab.entry i) b.ieList.bssid b.ieList.channel := by
  unfold bssSlot at h
  split at h
  · rename_i j hsearch
    cases h
    exact bssTableSearch_some hsearch
  · split_ifs at h

theorem bssSlot_overwrite {d : Desired} {tab : BssTable} {b : Beacon} {i : Nat}
    (h : bssSlot d tab b = .overwrite i) :
    i = tab.bssOverlapNr ∧ tab.bssNr ≥ maxLenOfBssTable ∧
      ∀ j < tab.bssNr, ¬ SameAp (tab.entry j) b.ieList.bssid b.ieList.channel := by
  unfold bssSlot at h
  split at h
  · cases h
  · rename_i hsearch
    split_ifs at h with hfull
    cases h
    exact ⟨rfl, hfull, bssTableSearch_none hsearch⟩

theorem bssSlot_insert {d : Desired} {tab : BssTable} {b : Beacon} {i : Nat}
    (h : bssSlot d tab b = .insert i) :
    i = tab.bssNr ∧ tab.bssNr < maxLenOfBssTable ∧
      ∀ j < tab.bssNr, ¬ SameAp (tab.entry j) b.ieList.bssid b.ieList.channel := by
  unfold bssSlot at h
  split at h
  · cases h
  · rename_i hsearch
    split_ifs at h with hfull
    cases h
    exact ⟨rfl, by omega, bssTableSearch_none hsearch⟩

theorem bssEntrySet_ap (behind : List UInt8) (e : BssEntry) (b : Beacon) :
    (bssEntrySet getCentCh behind e b).bssid = b.ieList.bssid ∧
      (bssEntrySet getCentCh behind e b).channel = b.ieList.channel := by
  have hview := view_bssEntrySet getCentCh behind e b
  have hframe := beforeCiphers_fromFrame getCentCh e b
  exact ⟨(congrArg ApView.bssid hview).trans hframe.bssid,
    (congrArg ApView.channel hview).trans hframe.channel⟩

/-- A frame that goes into an entry, if no other entry is of its access point. -/
theorem distinctAps_set {tab : BssTable} {i n o : Nat} {behind : List UInt8} {b : Beacon}
    (h : DistinctAps tab) (hn : ∀ j < n, j ≠ i → j < tab.bssNr)
    (hnew : ∀ j < tab.bssNr, j ≠ i → ¬ SameAp (tab.entry j) b.ieList.bssid b.ieList.channel) :
    DistinctAps
      { tab.setEntry i (bssEntrySet getCentCh behind (tab.entry i) b) with
        bssNr := n
        bssOverlapNr := o } := by
  obtain ⟨hbssid, hchannel⟩ := bssEntrySet_ap getCentCh behind (tab.entry i) b
  intro j hj k hk hap hband
  dsimp only at hap hband hj hk
  by_cases hji : j = i <;> by_cases hki : k = i
  · rw [hji, hki]
  · rw [hji, BssTable.entry_setEntry_self, BssTable.entry_setEntry_of_ne tab _ hki] at hap hband
    rw [hbssid] at hap
    rw [hchannel] at hband
    exact absurd ⟨hap.symm, sameBand_iff.mpr (sameBand_iff.mp hband).symm⟩
      (hnew k (hn k hk hki) hki)
  · rw [hki, BssTable.entry_setEntry_self, BssTable.entry_setEntry_of_ne tab _ hji] at hap hband
    rw [hbssid] at hap
    rw [hchannel] at hband
    exact absurd ⟨hap, hband⟩ (hnew j (hn j hj hji) hji)
  · rw [BssTable.entry_setEntry_of_ne tab _ hki, BssTable.entry_setEntry_of_ne tab _ hji]
      at hap hband
    exact h j (hn j hj hji) k (hn k hk hki) hap hband

/-! ### Deleting and initialising, up to the reference to the buffer -/

def BssEntry.core (e : BssEntry) : BssEntry := { e with pVarIeFromProbRsp := none }

/-- What does not depend on the reference. -/
theorem eq_of_core {α : Type} (f : BssEntry → α) (hf : ∀ e, f e.core = f e) {e e' : BssEntry}
    (h : e.core = e'.core) : f e = f e' := by
  rw [← hf e, h, hf]

theorem bssShiftEntry_core (s : BssTable × Heap) (j k : Nat) :
    ((bssShiftEntry s j).1.entry k).core =
      if k = j then (s.1.entry (j + 1)).core else (s.1.entry k).core := by
  unfold bssShiftEntry
  by_cases hk : k = j
  · subst hk
    rw [if_pos rfl]
    cases (s.1.entry k).pVarIeFromProbRsp with
    | none => exact congrArg _ (BssTable.entry_setEntry_self _ _ _)
    | some p =>
      dsimp only
      rw [BssTable.entry_setEntry_self]
      rfl
  · rw [if_neg hk]
    cases (s.1.entry j).pVarIeFromProbRsp with
    | none => exact congrArg _ (BssTable.entry_setEntry_of_ne _ _ hk)
    | some p => exact congrArg _ (BssTable.entry_setEntry_of_ne _ _ hk)

theorem foldl_bssShiftEntry_core (i n : Nat) (s : BssTable × Heap) (k : Nat) :
    (((List.range' i n).foldl bssShiftEntry s).1.entry k).core =
      if i ≤ k ∧ k < i + n then (s.1.entry (k + 1)).core else (s.1.entry k).core := by
  induction n generalizing i s with
  | zero => rw [if_neg (by omega)]; rfl
  | succ n ih =>
    rw [List.range'_succ, List.foldl_cons, ih, bssShiftEntry_core, bssShiftEntry_core]
    rcases Nat.lt_trichotomy k i with hlt | rfl | hgt
    · rw [if_neg (by omega), if_neg (by omega), if_neg (by omega)]
    · rw [if_neg (by omega), if_pos rfl, if_pos (by omega)]
    · rw [if_neg (show ¬ k + 1 = i by omega), if_neg (show ¬ k = i by omega)]
      exact if_congr (by omega) rfl rfl

theorem bssDeleteIndex_lt {tab : BssTable} {bssid : List UInt8} {channel : UInt8} {i : Nat}
    (h : bssDeleteIndex tab bssid channel = some i) : i < tab.bssNr :=
  List.mem_range.mp (List.mem_of_find?_eq_some h)

/-- **The entries behind the one deleted move up**, and the last one is zeroed. -/
theorem core_bssTableDeleteEntry {tab : BssTable} {bssid : List UInt8} {channel : UInt8} {i : Nat}
    (heap : Heap) (h : bssDeleteIndex tab bssid channel = some i) (k : Nat) :
    ((bssTableDeleteEntry tab heap bssid channel).1.entry k).core =
      if k + 1 = tab.bssNr then {}
      else if i ≤ k ∧ k + 1 < tab.bssNr then (tab.entry (k + 1)).core
      else (tab.entry k).core := by
  have hi := bssDeleteIndex_lt h
  unfold bssTableDeleteEntry
  rw [h]
  dsimp only
  unfold bssZeroEntry
  by_cases hlast : k + 1 = tab.bssNr
  · rw [if_pos hlast, show k = tab.bssNr - 1 by omega]
    exact congrArg _ (BssTable.entry_setEntry_self _ _ _)
  · rw [if_neg hlast]
    refine (congrArg _ (BssTable.entry_setEntry_of_ne _ _ (by omega))).trans ?_
    rw [foldl_bssShiftEntry_core]
    exact if_congr (by omega) rfl rfl

theorem bssNr_of_bssDeleteIndex {tab : BssTable} {bssid : List UInt8} {channel : UInt8} {i : Nat}
    (heap : Heap) (h : bssDeleteIndex tab bssid channel = some i) :
    (bssTableDeleteEntry tab heap bssid channel).1.bssNr = tab.bssNr - 1 := by
  unfold bssTableDeleteEntry
  rw [h]

theorem bssOverlapNr_bssTableDeleteEntry (tab : BssTable) (heap : Heap) (bssid : List UInt8)
    (channel : UInt8) :
    (bssTableDeleteEntry tab heap bssid channel).1.bssOverlapNr = tab.bssOverlapNr := by
  have hshift : ∀ (l : List Nat) (s : BssTable × Heap),
      (l.foldl bssShiftEntry s).1.bssOverlapNr = s.1.bssOverlapNr := by
    intro l
    induction l with
    | nil => intro s; rfl
    | cons j l ih =>
      intro s
      rw [List.foldl_cons, ih]
      unfold bssShiftEntry
      dsimp only
      split <;> rfl
  unfold bssTableDeleteEntry
  split
  · exact hshift _ _
  · rfl

theorem foldl_bssInitEntry_core (l : List Nat) (s : BssTable × Heap) (k : Nat) :
    ((l.foldl bssInitEntry s).1.entry k).core =
      if k ∈ l then { rssi := -127 } else (s.1.entry k).core := by
  induction l generalizing s with
  | nil => simp
  | cons i l ih =>
    rw [List.foldl_cons, ih]
    by_cases hl : k ∈ l
    · rw [if_pos hl, if_pos (List.mem_cons_of_mem _ hl)]
    · rw [if_neg hl]
      by_cases hk : k = i
      · subst hk
        rw [if_pos List.mem_cons_self]
        exact congrArg _ (BssTable.entry_setEntry_self _ _ _)
      · rw [if_neg (by simp [hk, hl])]
        exact congrArg _ (BssTable.entry_setEntry_of_ne _ _ hk)

theorem core_bssTableInit (tab : BssTable) (heap : Heap) {k : Nat} (h : k < maxLenOfBssTable) :
    ((bssTableInit tab heap).1.entry k).core = { rssi := -127 } := by
  unfold bssTableInit
  rw [foldl_bssInitEntry_core, if_pos (List.mem_range.mpr h)]

theorem nrs_bssTableInit (tab : BssTable) (heap : Heap) :
    (bssTableInit tab heap).1.bssNr = 0 ∧ (bssTableInit tab heap).1.bssOverlapNr = 0 := by
  have hfold : ∀ (l : List Nat) (s : BssTable × Heap),
      (l.foldl bssInitEntry s).1.bssNr = s.1.bssNr ∧
        (l.foldl bssInitEntry s).1.bssOverlapNr = s.1.bssOverlapNr := by
    intro l
    induction l with
    | nil => intro s; exact ⟨rfl, rfl⟩
    | cons i l ih =>
      intro s
      rw [List.foldl_cons]
      exact ih _
  exact hfold _ _

/-! ### One operation -/

/-- What holds of the table after every run. -/
structure TableOk (tab : BssTable) : Prop where
  bssNr : tab.bssNr ≤ maxLenOfBssTable
  bssOverlapNr : tab.bssOverlapNr < maxLenOfBssTable
  distinct : DistinctAps tab

/-- The entry behind, from the one deleted on. -/
def behindDeleted (i k : Nat) : Nat := if i ≤ k then k + 1 else k

theorem core_of_bssDeleteIndex {tab : BssTable} {bssid : List UInt8} {channel : UInt8} {i k : Nat}
    (heap : Heap) (h : bssDeleteIndex tab bssid channel = some i) (hk : k < tab.bssNr - 1) :
    ((bssTableDeleteEntry tab heap bssid channel).1.entry k).core =
      (tab.entry (behindDeleted i k)).core := by
  rw [core_bssTableDeleteEntry heap h, if_neg (by omega)]
  unfold behindDeleted
  by_cases hik : i ≤ k
  · rw [if_pos ⟨hik, by omega⟩, if_pos hik]
  · rw [if_neg (fun hin => hik hin.1), if_neg hik]

theorem tableOk_bssTableSetEntry {tab : BssTable} (h : TableOk tab) (d : Desired)
    (behind : List UInt8) (b : Beacon) :
    TableOk (bssTableSetEntry getCentCh d behind tab b).1 := by
  rw [bssTableSetEntry_eq]
  cases hslot : bssSlot d tab b with
  | update i =>
    obtain ⟨hi, hsame⟩ := bssSlot_update hslot
    refine ⟨h.bssNr, h.bssOverlapNr, distinctAps_set getCentCh h.distinct (fun _ hj _ => hj) ?_⟩
    intro j hj hji hsame'
    refine hji (h.distinct j hj i hi (hsame'.1.trans hsame.1.symm) (sameBand_iff.mpr ?_))
    exact (sameBand_iff.mp hsame'.2).trans (sameBand_iff.mp hsame.2).symm
  | overwrite i =>
    obtain ⟨_, _, hnone⟩ := bssSlot_overwrite hslot
    exact ⟨h.bssNr, Nat.mod_lt _ (by decide),
      distinctAps_set getCentCh h.distinct (fun _ hj _ => hj) fun j hj _ => hnone j hj⟩
  | insert i =>
    obtain ⟨rfl, hroom, hnone⟩ := bssSlot_insert hslot
    refine ⟨hroom, h.bssOverlapNr, distinctAps_set getCentCh h.distinct (fun j hj hne => ?_)
      fun j hj _ => hnone j hj⟩
    omega
  | nowhere => exact h

theorem tableOk_bssTableDeleteEntry {tab : BssTable} (h : TableOk tab) (heap : Heap)
    (bssid : List UInt8) (channel : UInt8) :
    TableOk (bssTableDeleteEntry tab heap bssid channel).1 := by
  have hoverlap := bssOverlapNr_bssTableDeleteEntry tab heap bssid channel
  cases hdel : bssDeleteIndex tab bssid channel with
  | none => simpa [bssTableDeleteEntry, hdel] using h
  | some i =>
    have hnr := bssNr_of_bssDeleteIndex heap hdel
    have hi := bssDeleteIndex_lt hdel
    refine ⟨?_, ?_, ?_⟩
    · have := h.bssNr
      omega
    · have := h.bssOverlapNr
      omega
    · intro j hj k hk hap hband
      rw [hnr] at hj hk
      have hmovedTo : ∀ l < tab.bssNr - 1, behindDeleted i l < tab.bssNr := by
        intro l hl
        unfold behindDeleted
        split <;> omega
      have hbssid : ∀ l < tab.bssNr - 1,
          ((bssTableDeleteEntry tab heap bssid channel).1.entry l).bssid =
            (tab.entry (behindDeleted i l)).bssid := fun l hl =>
        eq_of_core BssEntry.bssid (fun _ => rfl) (core_of_bssDeleteIndex heap hdel hl)
      have hchannel : ∀ l < tab.bssNr - 1,
          ((bssTableDeleteEntry tab heap bssid channel).1.entry l).channel =
            (tab.entry (behindDeleted i l)).channel := fun l hl =>
        eq_of_core BssEntry.channel (fun _ => rfl) (core_of_bssDeleteIndex heap hdel hl)
      rw [hbssid j hj, hbssid k hk] at hap
      rw [hchannel j hj, hchannel k hk] at hband
      have hmoved : behindDeleted i j = behindDeleted i k :=
        h.distinct _ (hmovedTo j hj) _ (hmovedTo k hk) hap hband
      unfold behindDeleted at hmoved
      split_ifs at hmoved <;> omega

theorem tableOk_step {s : ScanState} (h : TableOk s.tab) (op : ScanOp) :
    TableOk (s.step getCentCh op).tab := by
  cases op with
  | setEntry d behind b => exact tableOk_bssTableSetEntry getCentCh h d behind b
  | deleteEntry bssid channel => exact tableOk_bssTableDeleteEntry h s.heap bssid channel

theorem tableOk_start (tab : BssTable) (heap : Heap) : TableOk (ScanState.start tab heap).tab := by
  obtain ⟨hnr, hoverlap⟩ := nrs_bssTableInit tab heap
  refine ⟨hnr.trans_le (Nat.zero_le _), hoverlap.trans_lt (by decide), ?_⟩
  intro i hi
  exact absurd (hi.trans_eq hnr) (Nat.not_lt_zero i)

/-! ## 6. One access point to an entry -/

/-- What is carried along for an entry. -/
structure Owned (e : BssEntry) (frames : List Beacon) (own : Nat) : Prop extends
    OneAp getCentCh e frames where
  varIEs : SameVarIEs own e (replay getCentCh frames)

/-- A zero entry, but for the signal and the buffer. -/
def Blank (e : BssEntry) : Prop := { e.core with rssi := 0 } = {}

theorem Owned.of_core {e e' : BssEntry} {frames : List Beacon} {own : Nat}
    (hcore : e'.core = e.core) (h : Owned getCentCh e frames own) :
    Owned getCentCh e' frames own := by
  have hview : e'.view = e.view := eq_of_core BssEntry.view (fun _ => rfl) hcore
  have hvie : e'.varIEs = e.varIEs := eq_of_core BssEntry.varIEs (fun _ => rfl) hcore
  have hbssid : e'.bssid = e.bssid := congrArg ApView.bssid hview
  have hchannel : e'.channel = e.channel := congrArg ApView.channel hview
  refine ⟨⟨h.made, ?_, hview.trans h.view⟩, ?_⟩
  · rw [hbssid, hchannel]
    exact h.ofAp
  · exact ⟨by rw [hvie]; exact h.varIEs.length, h.varIEs.length', by
      rw [hvie]; exact h.varIEs.octets⟩

theorem Blank.of_core {e e' : BssEntry} (hcore : e'.core = e.core) (h : Blank e) : Blank e' := by
  unfold Blank
  rw [hcore]
  exact h

theorem Blank.fields {e : BssEntry} (h : Blank e) :
    e.ssidLen = 0 ∧ e.ciphers.bSES = false ∧ e.varIEs = List.replicate maxVieLen 0 := by
  have hssid := congrArg BssEntry.ssidLen h
  have hciphers := congrArg BssEntry.ciphers h
  have hvie := congrArg BssEntry.varIEs h
  exact ⟨hssid, congrArg Ciphers.bSES hciphers, hvie⟩

theorem bssEntrySet_varIEs (behind : List UInt8) (e : BssEntry) (b : Beacon) :
    (bssEntrySet getCentCh behind e b).varIEs = e.varIEsAfter b := by
  have hvie := beforeCiphers_varIEs getCentCh e b
  rw [bssEntrySet_eq]
  generalize e.beforeCiphers getCentCh b = p at *
  generalize BssEntry.setIes {} (fun i => b.pVIE.getD i 0) b.lengthVIE = q
  exact hvie

/-- **A further frame** of the access point. -/
theorem Owned.update {e : BssEntry} {frames : List Beacon} {own : Nat} {behind : List UInt8}
    {b : Beacon} (h : Owned getCentCh e frames own)
    (hap : SameAp e b.ieList.bssid b.ieList.channel)
    (hreach : e.reachAfter behind b ≤ max own b.lengthVIE) :
    Owned getCentCh (bssEntrySet getCentCh behind e b) (frames ++ [b]) (max own b.lengthVIE) := by
  obtain ⟨hbssid, hchannel⟩ := bssEntrySet_ap getCentCh behind e b
  have hreplay : replay getCentCh (frames ++ [b]) =
      bssEntrySet getCentCh [] (replay getCentCh frames) b := by
    unfold replay
    rw [List.foldl_append]
    rfl
  refine ⟨⟨by simp, ?_, ?_⟩, ?_⟩
  · intro b' hb'
    rw [hbssid, hchannel]
    rcases List.mem_append.mp hb' with hold | hnew
    · obtain ⟨hold1, hold2⟩ := h.ofAp b' hold
      exact ⟨hold1.trans hap.1,
        sameBand_iff.mpr ((sameBand_iff.mp hold2).trans (sameBand_iff.mp hap.2))⟩
    · rw [List.mem_singleton.mp hnew]
      exact ⟨rfl, sameBand_iff.mpr Iff.rfl⟩
  · rw [hreplay]
    refine view_bssEntrySet_congr getCentCh (fun _ => congrArg ApView.ssid h.view) ?_
    have hses : (replay getCentCh frames).ciphers = e.ciphers :=
      (congrArg ApView.ciphers h.view).symm
    exact ciphers_congr getCentCh h.varIEs hreach (.inl (congrArg Ciphers.bSES hses))
  · rw [hreplay]
    exact h.varIEs.after b (bssEntrySet_varIEs getCentCh behind e b)
      (bssEntrySet_varIEs getCentCh [] _ b)

/-- **The first frame**, into an entry that leaves nothing of what it had in the view. -/
theorem Owned.first {e : BssEntry} {own : Nat} {behind : List UInt8} {b : Beacon}
    (hssid : b.ieList.hidesSsid = true → e.ssidLen = 0)
    (hses : e.ciphers.bSES = true → e.sesAfter behind b = true)
    (hvie : SameVarIEs own e {}) (hreach : e.reachAfter behind b ≤ max own b.lengthVIE) :
    Owned getCentCh (bssEntrySet getCentCh behind e b) [b] (max own b.lengthVIE) := by
  obtain ⟨hbssid, hchannel⟩ := bssEntrySet_ap getCentCh behind e b
  refine ⟨⟨by simp, ?_, ?_⟩, ?_⟩
  · intro b' hb'
    rw [hbssid, hchannel, List.mem_singleton.mp hb']
    exact ⟨rfl, sameBand_iff.mpr Iff.rfl⟩
  · refine view_bssEntrySet_congr getCentCh (fun hhides => ?_) ?_
    · rw [hssid hhides]
      rfl
    · refine ciphers_congr getCentCh hvie hreach ?_
      cases hold : e.ciphers.bSES with
      | false => exact .inl rfl
      | true => exact .inr (hses hold)
  · exact hvie.after b (bssEntrySet_varIEs getCentCh behind e b)
      (bssEntrySet_varIEs getCentCh [] _ b)

/-! ## 7. Runs -/

/-- What holds between operations that meet the condition. -/
structure ScanState.Inv (s : ScanState) : Prop where
  tab : TableOk s.tab
  owned : ∀ i < s.tab.bssNr, Owned getCentCh (s.tab.entry i) (s.frames i) (s.own i)
  blank : ∀ i, s.tab.bssNr ≤ i → i < maxLenOfBssTable → Blank (s.tab.entry i)

theorem owned_setEntry {s : ScanState} {i n own : Nat} {e : BssEntry} {frames : List Beacon}
    (hnew : Owned getCentCh e frames own)
    (hold : ∀ k < n, k ≠ i → Owned getCentCh (s.tab.entry k) (s.frames k) (s.own k)) :
    ∀ k < n, Owned getCentCh ((s.tab.setEntry i e).entry k) (Function.update s.frames i frames k)
      (Function.update s.own i own k) := by
  intro k hk
  by_cases hki : k = i
  · rw [hki, BssTable.entry_setEntry_self, Function.update_self, Function.update_self]
    exact hnew
  · rw [BssTable.entry_setEntry_of_ne _ _ hki, Function.update_of_ne hki,
      Function.update_of_ne hki]
    exact hold k hk hki

theorem sameVarIEs_of_blank {e : BssEntry} (h : Blank e) : SameVarIEs maxVieLen e {} := by
  obtain ⟨_, _, hvie⟩ := h.fields
  exact ⟨by rw [hvie, List.length_replicate], by simp, fun k _ => by rw [hvie]⟩

theorem ScanState.inv_setEntry {s : ScanState} (h : s.Inv getCentCh) {d : Desired} {behind : List UInt8}
    {b : Beacon} (hok : ScanOk s (.setEntry d behind b)) :
    (s.step getCentCh (.setEntry d behind b)).Inv getCentCh := by
  have hnext : TableOk (s.step getCentCh (.setEntry d behind b)).tab :=
    tableOk_step getCentCh h.tab _
  have htab := bssTableSetEntry_eq getCentCh d behind s.tab b
  unfold ScanOk at hok
  unfold ScanState.step at hnext ⊢
  dsimp only at hok hnext ⊢
  rw [htab] at hnext ⊢
  cases hslot : bssSlot d s.tab b with
  | update i =>
    rw [hslot] at hok hnext
    obtain ⟨hi, hsame⟩ := bssSlot_update hslot
    refine ⟨hnext, ?_, ?_⟩
    · exact owned_setEntry getCentCh ((h.owned i hi).update getCentCh hsame hok)
        fun k hk _ => h.owned k hk
    · intro k hnr hk
      have hne : k ≠ i := (hi.trans_le hnr).ne'
      rw [BssTable.entry_setEntry_of_ne _ _ hne]
      exact h.blank k hnr hk
  | overwrite i =>
    rw [hslot] at hok hnext
    obtain ⟨hssid, hses, hreach⟩ := hok
    obtain ⟨rfl, hfull, _⟩ := bssSlot_overwrite hslot
    refine ⟨hnext, ?_, ?_⟩
    · have hnothing : SameVarIEs 0 (s.tab.entry s.tab.bssOverlapNr) {} :=
        ⟨Nat.zero_le _, Nat.zero_le _, fun k hk => absurd hk (Nat.not_lt_zero k)⟩
      have hfirst := Owned.first getCentCh hssid hses hnothing
        (hreach.trans (Nat.le_max_right _ _))
      rw [Nat.zero_max] at hfirst
      exact owned_setEntry getCentCh hfirst fun k hk _ => h.owned k hk
    · intro k hnr hk
      exact absurd (hk.trans_le hfull) (not_lt.mpr hnr)
  | insert i =>
    rw [hslot] at hok hnext
    obtain ⟨rfl, hroom, _⟩ := bssSlot_insert hslot
    have hblank := h.blank s.tab.bssNr le_rfl hroom
    obtain ⟨hssid, hses, _⟩ := hblank.fields
    refine ⟨hnext, ?_, ?_⟩
    · have hfirst := Owned.first getCentCh (fun _ => hssid)
        (fun hold => absurd hold (by rw [hses]; exact Bool.false_ne_true))
        (sameVarIEs_of_blank hblank) hok
      exact owned_setEntry getCentCh hfirst fun k hk hne =>
        h.owned k (lt_of_le_of_ne (Nat.lt_succ_iff.mp hk) hne)
    · intro k hnr hk
      have hne : k ≠ s.tab.bssNr := (Nat.lt_of_succ_le hnr).ne'
      rw [BssTable.entry_setEntry_of_ne _ _ hne]
      exact h.blank k (Nat.le_of_succ_le hnr) hk
  | nowhere =>
    rw [hslot] at hnext
    exact ⟨hnext, h.owned, h.blank⟩

theorem ScanState.inv_deleteEntry {s : ScanState} (h : s.Inv getCentCh) (bssid : List UInt8)
    (channel : UInt8) : (s.step getCentCh (.deleteEntry bssid channel)).Inv getCentCh := by
  have hnext : TableOk (s.step getCentCh (.deleteEntry bssid channel)).tab :=
    tableOk_step getCentCh h.tab _
  unfold ScanState.step at hnext ⊢
  dsimp only at hnext ⊢
  cases hdel : bssDeleteIndex s.tab bssid channel with
  | none =>
    have hsame : bssTableDeleteEntry s.tab s.heap bssid channel = (s.tab, s.heap) := by
      unfold bssTableDeleteEntry
      rw [hdel]
    rw [hsame]
    exact ⟨h.tab, h.owned, h.blank⟩
  | some i =>
    have hnr := bssNr_of_bssDeleteIndex s.heap hdel
    have hi := bssDeleteIndex_lt hdel
    have hcore := core_bssTableDeleteEntry s.heap hdel
    refine ⟨hnext, ?_, ?_⟩
    · intro k hk
      rw [hnr] at hk
      have hmoved : behindDeleted i k < s.tab.bssNr := by
        unfold behindDeleted
        split <;> omega
      have howned := (h.owned _ hmoved).of_core getCentCh
        (core_of_bssDeleteIndex s.heap hdel hk)
      have hframes : (s.watchDelete (some i)).frames k = s.frames (behindDeleted i k) :=
        (apply_ite s.frames _ _ _).symm
      have hown : (s.watchDelete (some i)).own k = s.own (behindDeleted i k) :=
        (apply_ite s.own _ _ _).symm
      change Owned getCentCh _ ((s.watchDelete (some i)).frames k) ((s.watchDelete (some i)).own k)
      rw [hframes, hown]
      exact howned
    · intro k hle hk
      rw [hnr] at hle
      have hkcore := hcore k
      by_cases hlast : k + 1 = s.tab.bssNr
      · rw [if_pos hlast] at hkcore
        exact Blank.of_core (e := {}) hkcore rfl
      · rw [if_neg hlast, if_neg (by omega)] at hkcore
        exact (h.blank k (by omega) hk).of_core hkcore

theorem ScanState.inv_step {s : ScanState} (op : ScanOp) (h : s.Inv getCentCh) (hok : ScanOk s op) :
    (s.step getCentCh op).Inv getCentCh := by
  cases op with
  | setEntry d behind b => exact ScanState.inv_setEntry getCentCh h hok
  | deleteEntry bssid channel => exact ScanState.inv_deleteEntry getCentCh h bssid channel

theorem ScanState.inv_start (tab : BssTable) (heap : Heap) : (ScanState.start tab heap).Inv getCentCh := by
  obtain ⟨hnr, _⟩ := nrs_bssTableInit tab heap
  refine ⟨tableOk_start tab heap, ?_, ?_⟩
  · intro i hi
    exact absurd (hi.trans_eq hnr) (Nat.not_lt_zero i)
  · intro i _ hi
    unfold Blank
    rw [show ((ScanState.start tab heap).tab.entry i).core = _ from core_bssTableInit tab heap hi]

/-- **Every run** of `BssTableSetEntry` and `BssTableDeleteEntry` on a table that `BssTableInit` has
made: the entries fit and are distinct; and if each operation meets the condition, each entry
describes a single access point. -/
theorem scanTab_runs (tab : BssTable) (heap : Heap) (ops : List ScanOp) :
    let s := Run.final (ScanState.step getCentCh) (ScanState.start tab heap) ops
    s.tab.bssNr ≤ maxLenOfBssTable ∧ DistinctAps s.tab ∧
      (Run.StepsMeet (ScanState.step getCentCh) ScanOk (ScanState.start tab heap) ops →
        ∀ i < s.tab.bssNr, OneAp getCentCh (s.tab.entry i) (s.frames i)) := by
  have htab : TableOk (Run.final (ScanState.step getCentCh) (ScanState.start tab heap) ops).tab :=
    Run.invariant_always (fun s : ScanState => TableOk s.tab)
      (fun _ op h => tableOk_step getCentCh h op) (tableOk_start tab heap)
  refine ⟨htab.bssNr, htab.distinct, fun hok i hi => ?_⟩
  have hinv := Run.invariant (ScanState.Inv getCentCh)
    (fun _ op h hop => ScanState.inv_step getCentCh op h hop) (ScanState.inv_start getCentCh tab heap) hok
  exact (hinv.owned i hi).toOneAp

end

namespace Example

def getCentCh : List UInt8 → List UInt8 → UInt8 := fun _ _ => 0

def accessPoint (k : Nat) : List UInt8 := [2, 0, 0, 0, 0, UInt8.ofNat k]

def showing (k : Nat) : Beacon where
  ieList := { bssid := accessPoint k, ssid := [110, 101, 116], ssidLen := 3, channel := 1 }

/-- The same length, but all zero. -/
def concealing (k : Nat) : Beacon where
  ieList := { bssid := accessPoint k, ssidLen := 3, channel := 1 }

def unused : BssTable where
  bssNr := 0
  bssOverlapNr := 0
  entry := fun _ => {}

def noBuffers : Heap := fun _ => []

/-- A beacon that shows the SSID, then one that hides it. -/
def oneAp : List ScanOp := [.setEntry {} [] (showing 0), .setEntry {} [] (concealing 0)]

theorem oneAp_of_oneAp :
    OneAp getCentCh
      ((Run.final (ScanState.step getCentCh) (ScanState.start unused noBuffers) oneAp).tab.entry 0)
      ((Run.final (ScanState.step getCentCh) (ScanState.start unused noBuffers) oneAp).frames 0) :=
  (scanTab_runs getCentCh unused noBuffers oneAp).2.2
    ⟨Nat.zero_le 1024, Nat.zero_le _, trivial⟩ 0 Nat.one_pos

/-- The first `n` access points, each with its SSID. -/
def filling (n : Nat) : List ScanOp := (List.range n).map fun k => .setEntry {} [] (showing k)

def filled (n : Nat) : ScanState :=
  Run.final (ScanState.step getCentCh) (ScanState.start unused noBuffers) (filling n)

theorem filled_succ (n : Nat) :
    filled (n + 1) = (filled n).step getCentCh (.setEntry {} [] (showing n)) := by
  unfold filled filling
  rw [List.range_succ, List.map_append, Run.final_append]
  rfl

theorem accessPoint_injective {k n : Nat} (hk : k < 256) (hn : n < 256)
    (h : accessPoint k = accessPoint n) : k = n := by
  have hlast : UInt8.ofNat k = UInt8.ofNat n := by simpa [accessPoint] using h
  have hnat := congrArg UInt8.toNat hlast
  rw [UInt8.toNat_ofNat', UInt8.toNat_ofNat'] at hnat
  omega

theorem bssEntrySet_ssidLen (behind : List UInt8) (e : BssEntry) (b : Beacon) :
    (bssEntrySet getCentCh behind e b).ssidLen = (e.setSsid b.ieList).ssidLen := by
  have hlen := (beforeCiphers_ssid getCentCh e b).2.2
  rw [bssEntrySet_eq]
  generalize e.beforeCiphers getCentCh b = p at *
  generalize BssEntry.setIes {} (fun i => b.pVIE.getD i 0) b.lengthVIE = q
  exact hlen

theorem search_none {tab : BssTable} {n k : Nat} (hn : n ≤ k) (hk : k < 256)
    (hnr : tab.bssNr = n) (h : ∀ i < n, (tab.entry i).bssid = accessPoint i) :
    bssTableSearch tab (accessPoint k) 1 = none := by
  refine List.find?_eq_none.mpr fun i hi => ?_
  have hin : i < n := hnr ▸ List.mem_range.mp hi
  rw [h i hin]
  intro hfound
  rw [Bool.and_eq_true, beq_iff_eq] at hfound
  have := accessPoint_injective (by omega) hk hfound.2
  omega

/-- The table with `n` entries. -/
theorem filled_entries (n : Nat) (hn : n ≤ 128) :
    (filled n).tab.bssNr = n ∧ (filled n).tab.bssOverlapNr = 0 ∧
      ∀ k < n, ((filled n).tab.entry k).bssid = accessPoint k ∧
        ((filled n).tab.entry k).ssidLen = 3 := by
  induction n with
  | zero =>
    obtain ⟨hnr, hoverlap⟩ := nrs_bssTableInit unused noBuffers
    exact ⟨hnr, hoverlap, fun k hk => absurd hk (Nat.not_lt_zero k)⟩
  | succ n ih =>
    obtain ⟨hnr, hoverlap, hentries⟩ := ih (by omega)
    have hsearch : bssTableSearch (filled n).tab (accessPoint n) 1 = none :=
      search_none le_rfl (by omega) hnr fun i hi => (hentries i hi).1
    have hslot : bssSlot {} (filled n).tab (showing n) = .insert n := by
      unfold bssSlot
      rw [show bssTableSearch (filled n).tab (showing n).ieList.bssid (showing n).ieList.channel =
        none from hsearch, hnr]
      exact if_neg (by unfold maxLenOfBssTable; omega)
    have htab := bssTableSetEntry_eq getCentCh {} [] (filled n).tab (showing n)
    rw [hslot] at htab
    rw [filled_succ]
    unfold ScanState.step
    dsimp only
    rw [htab]
    refine ⟨congrArg (· + 1) hnr, hoverlap, fun k hk => ?_⟩
    by_cases hkn : k = n
    · rw [hkn]
      dsimp only
      rw [BssTable.entry_setEntry_self, (bssEntrySet_ap getCentCh _ _ _).1, bssEntrySet_ssidLen]
      exact ⟨rfl, rfl⟩
    · dsimp only
      rw [BssTable.entry_setEntry_of_ne _ _ hkn]
      exact hentries k (by omega)

/-- The access point looked for, which is not in the table. -/
def wanted : Desired := { bssid := accessPoint 200 }

/-- Overwriting an entry that has an SSID by a beacon that hides its own. -/
theorem not_oneAp_of_full {s : ScanState} (hnr : s.tab.bssNr = 128)
    (hoverlap : s.tab.bssOverlapNr = 0)
    (hsearch : bssTableSearch s.tab (accessPoint 200) 1 = none)
    (hlen : (s.tab.entry 0).ssidLen = 3) :
    ¬ ∀ i < (s.step getCentCh (.setEntry wanted [] (concealing 200))).tab.bssNr,
      OneAp getCentCh ((s.step getCentCh (.setEntry wanted [] (concealing 200))).tab.entry i)
        ((s.step getCentCh (.setEntry wanted [] (concealing 200))).frames i) := by
  have hslot : bssSlot wanted s.tab (concealing 200) = .overwrite 0 := by
    unfold bssSlot
    rw [show bssTableSearch s.tab (concealing 200).ieList.bssid
      (concealing 200).ieList.channel = none from hsearch, hnr, hoverlap]
    rfl
  have htab := bssTableSetEntry_eq getCentCh wanted [] s.tab (concealing 200)
  rw [hslot] at htab
  have hset : (s.step getCentCh (.setEntry wanted [] (concealing 200))).tab = _ := htab
  have hframes : (s.step getCentCh (.setEntry wanted [] (concealing 200))).frames 0 =
      [concealing 200] := by
    unfold ScanState.step
    dsimp only
    rw [hslot]
    change Function.update s.frames 0 [concealing 200] 0 = _
    rw [Function.update_self]
  intro hall
  rw [hset] at hall
  have hone := hall 0 (hnr.symm ▸ Nat.zero_lt_succ 127)
  rw [hframes] at hone
  dsimp only at hone
  rw [BssTable.entry_setEntry_self] at hone
  have hview := congrArg (fun v : ApView => v.ssid.length) hone.view
  dsimp only [BssEntry.view, replay, List.foldl] at hview
  rw [Mem.length_read, Mem.length_read, bssEntrySet_ssidLen, bssEntrySet_ssidLen] at hview
  have hkept : ((s.tab.entry 0).setSsid (concealing 200).ieList).ssidLen =
      (s.tab.entry 0).ssidLen := rfl
  rw [hkept, hlen] at hview
  revert hview
  decide

def overwritten : ScanState :=
  Run.final (ScanState.step getCentCh) (ScanState.start unused noBuffers)
    (filling 128 ++ [.setEntry wanted [] (concealing 200)])

/-- **The full table**: entry 0 is overwritten by a beacon of the access point looked for that hides
its SSID, and keeps the SSID of the other one. -/
theorem not_oneAp_overwritten :
    ¬ ∀ i < overwritten.tab.bssNr,
      OneAp getCentCh (overwritten.tab.entry i) (overwritten.frames i) := by
  have heq : overwritten =
      (filled 128).step getCentCh (.setEntry wanted [] (concealing 200)) := by
    unfold overwritten filled
    rw [Run.final_append, Run.final_cons, Run.final_nil]
  obtain ⟨hnr, hoverlap, hentries⟩ := filled_entries 128 le_rfl
  rw [heq]
  exact not_oneAp_of_full hnr hoverlap
    (search_none (by decide) (by decide) hnr fun i hi => (hentries i hi).1)
    (hentries 0 (by decide)).2

end Example

end Mt7601.Mlme
