/-
# Copies of a multicast packet

`IgmpPktInfoQuery` and `IgmpPktClone` of `common/igmp_snoop.c`: the access point sends a packet of a
group to each of its members by itself, and a report to every client of the interface it came in by.

The members are taken from the group's list, or the clients from the MAC table, the next one behind
each copy by a search of its own. `pktClone_iff` is when each live station among them but the source
gets one copy and nobody else one. The search behind a copy that was sent leaves the source in,
other than the first search and the one behind a copy there was no memory for
(`not_cloneMeets_source`).
-/
import Mt7601.Igmp.Snooping
import Mt7601.Mgmt.MacTableRuns
import Mt7601.Data.PowerSave

namespace Mt7601.Igmp

open FilterTable
open Mgmt (MacTab Wcid maxLenOfMacTable macTableLookup minNetDeviceForApcli hwBeaconMaxNum)
open Data (maxPacketsInPsQueue)

/-! ## 1. What a packet is -/

/-- `IGMP_NONE`, `IGMP_PKT` and `IGMP_IN_GROUP`. -/
inductive IgmpPkt where
  | none | pkt | inGroup
  deriving DecidableEq

/-- `IPv6MulticastFilterExclued`: ICMPv6 and PIM. -/
def ipv6MulticastFilterExclued : List UInt8 := [0x3a, 0x67]

/-- The loop of `IPv6MulticastFilterExcluded`; `none` if it is not through after so many turns. -/
def skipHopByHop (mem : Nat → UInt8) : Nat → UInt8 → Nat → Option UInt8
  | 0, _, _ => none
  | turns + 1, nextProtocol, offset =>
    if nextProtocol = 0x00 then
      let (proto', offset', more) := ipv6ExtHdrHandle mem nextProtocol offset
      if more then skipHopByHop mem turns proto' offset' else some proto'
    else some nextProtocol

/-- `IPv6MulticastFilterExcluded` -/
def ipv6MulticastFilterExcluded (turns : Nat) (dst : Octets 6) (mem : Nat → UInt8) : Option Bool :=
  if dst.get 0 ≠ 0x33 then some false
  else if ntohs mem 0 ≠ ethPIpv6 then some false
  else
    (skipHopByHop mem turns (mem 8) 40).map fun nextProtocol =>
      ipv6MulticastFilterExclued.contains nextProtocol

/-- `IgmpMldPkt` -/
def igmpMldPkt (turns : Nat) (dst : Octets 6) (mem : Nat → UInt8) : Option Bool :=
  if ntohs mem 0 = ethPIpv6 then ipv6MulticastFilterExcluded turns dst mem
  else some (isIgmpPkt dst mem)

/-- `IgmpPktInfoQuery`, of a packet for `dst` with the memory `mem` from its type field on, in the
device `dev`: the kind of the packet and its group, or nothing when the packet is released. -/
def igmpPktInfoQuery (hz : UInt32) (now : GroupIdx → UInt64) (turns : Nat) (s : FilterTable)
    (dst : Octets 6) (mem : Nat → UInt8) (dev : NetDev) :
    Option (FilterTable × Option (IgmpPkt × Option GroupIdx)) :=
  if dst.get 0 &&& 0x01 = 0x01 ∧ dst.get 0 ≠ 0xff then do
    if ← igmpMldPkt turns dst mem then some (s, some (.pkt, none))
    else
      (multicastFilterTableLookup hz now s dst dev).map fun p =>
        match p.2 with
        | none => (p.1, none)
        | some i => (p.1, some (.inGroup, some i))
  else if dst.get 0 = 0xff then
    (multicastFilterTableLookup hz now s (convertMulticastIP2MAC ethPIp mem 18) dev).map fun p =>
      match p.2 with
      | none => (p.1, some (.none, none))
      | some i => (p.1, some (.inGroup, some i))
  else some (s, some (.none, none))

/-! ## 2. The copies -/

/-- `NULL` for a device. -/
def nullDev : NetDev := 0

/-- What `get_netdev_from_bssid` reads: the main device, the BSSs and the AP client interfaces. -/
structure NetDevs where
  netDev : NetDev
  bssidNum : UInt8
  maxMbssidNum : UInt8
  mssidDev : UInt8 → NetDev
  maxApcliNum : UInt8
  apcliDev : UInt8 → NetDev

/-- `get_netdev_from_bssid` -/
def getNetdevFromBssid (d : NetDevs) (fromWhichBSSID : UInt8) : NetDev :=
  let infRealIdx := fromWhichBSSID &&& 0x0f
  if minNetDeviceForApcli ≤ fromWhichBSSID then
    if d.maxApcliNum ≤ infRealIdx then nullDev else d.apcliDev infRealIdx
  else if 0 < fromWhichBSSID ∧ fromWhichBSSID < d.bssidNum ∧ fromWhichBSSID < d.maxMbssidNum ∧
      fromWhichBSSID < hwBeaconMaxNum then d.mssidDev fromWhichBSSID
  else d.netDev

/-- Of an entry of the MAC table: whether `Sst` is `SST_ASSOC`, `PortSecured` secured and `PsMode`
`PWR_SAVE`. -/
structure Station where
  assoc : Bool
  portSecured : Bool
  psSave : Bool

/-- What a call of `IgmpPktClone` reads: the tables, the packet's source and device, the length of
the software queue, and for which stations there is memory for a copy. -/
structure CloneCall where
  groups : FilterTable
  macTab : MacTab
  station : Wcid → Station
  devs : NetDevs
  src : Octets 6
  pNetDev : NetDev
  txSwQMaxLen : Nat
  clone : Wcid → Bool

/-- What it writes: the packets in the software queue and in each station's queue for power saving,
and whom it sent a copy. -/
structure Copies where
  txNumber : Nat
  psNumber : Wcid → Nat
  sent : List Wcid

/-- The entry that `APSsPsInquiry` finds. -/
def apSsPsInquiry (t : MacTab) (addr : Octets 6) : Option (Option Wcid) :=
  if addr.get 0 &&& 0x01 = 0x01 then some none else macTableLookup t addr

/-- `APInsertPsQueue` -/
def apInsertPsQueue (w : Wcid) (c : Copies) : Copies :=
  if maxPacketsInPsQueue ≤ c.psNumber w then c
  else { c with psNumber := Function.update c.psNumber w (c.psNumber w + 1), sent := c.sent ++ [w] }

namespace CloneCall

variable (q : CloneCall)

def addr (w : Wcid) : Octets 6 := (q.macTab.content w).addr

/-- Associated, and its port is open. -/
def live (w : Wcid) : Bool := (q.station w).assoc && (q.station w).portSecured

/-- A client of the packet's device. -/
def isClient (w : Wcid) : Bool :=
  (q.macTab.content w).entryType = .client &&
    getNetdevFromBssid q.devs (q.macTab.content w).apidx = q.pNetDev

/-- How an entry is done with. -/
inductive Served where
  | goesOn (c : Copies)
  /-- there was no memory for the copy -/
  | noClone
  /-- the software queue is full: the call ends -/
  | full

/-- The body of the loop, for one entry. -/
def serve (w : Wcid) (c : Copies) : Served :=
  if q.live w then
    if q.clone w then
      if (q.station w).psSave then .goesOn (apInsertPsQueue w c)
      else if q.txSwQMaxLen ≤ c.txNumber then .full
      else .goesOn { c with txNumber := c.txNumber + 1, sent := c.sent ++ [w] }
    else .noClone
  else .goesOn c

/-- The loop over the members of a group, and whether the call succeeds. -/
def memberLoop : Nat → Option MemberIdx → Copies → Option (Copies × Bool)
  | _, none, c => some (c, true)
  | 0, some _, _ => none
  | fuel + 1, some m, c => do
    let pMacEntry ← apSsPsInquiry q.macTab (q.groups.memberAddr m)
    let pNext := q.groups.memberNext m
    match pMacEntry with
    | none => memberLoop fuel pNext c
    | some w =>
      match q.serve w c with
      | .goesOn c' => memberLoop fuel pNext c'
      | .noClone => memberLoop fuel pNext c
      | .full => some (c, false)

/-- The loop that looks for the next client of the device, with or without the test for the
source. -/
def nextClient (skipSrc : Bool) : List Wcid → Option (Option Wcid)
  | [] => some none
  | k :: rest => do
    match ← apSsPsInquiry q.macTab (q.addr k) with
    | none => nextClient skipSrc rest
    | some w =>
      if q.isClient w ∧ ¬ (skipSrc ∧ q.addr w = q.src) then some (some w)
      else nextClient skipSrc rest

/-- `MacEntryIdx` from `n` on. -/
def wcidsFrom (n : Nat) : List Wcid := (List.finRange maxLenOfMacTable).filter (n ≤ ·.val)

/-- The loop over the clients of the device. `Aid` of an entry is its number. -/
def clientLoop : Nat → Option Wcid → Copies → Option (Copies × Bool)
  | _, none, c => some (c, true)
  | 0, some _, _ => none
  | fuel + 1, some w, c =>
    match q.serve w c with
    | .goesOn c' => do clientLoop fuel (← q.nextClient false (wcidsFrom (w.val + 1))) c'
    | .noClone => do clientLoop fuel (← q.nextClient true (wcidsFrom (w.val + 1))) c
    | .full => some (c, false)

/-- `IgmpPktClone`, and whether it succeeds. -/
def igmpPktClone (igmpPktInGroup : IgmpPkt) (pGroupEntry : Option GroupIdx) (c : Copies) :
    Option (Copies × Bool) :=
  match igmpPktInGroup, pGroupEntry with
  | .inGroup, none => some (c, false)
  | .inGroup, some i => q.memberLoop freeMemberPoolSize (q.groups.content i).memberList.pHead c
  | .pkt, _ => do q.clientLoop maxLenOfMacTable (← q.nextClient true (wcidsFrom 1)) c
  | .none, _ => some (c, false)

end CloneCall

/-! ## 3. A visit of stations

What the two loops come to: the stations one after the other, where the source is left out in some
places. -/

namespace CloneCall

variable (q : CloneCall)

/-- A copy is due. -/
def Due (w : Wcid) : Prop := q.live w = true ∧ q.clone w = true ∧ q.addr w ≠ q.src

instance : DecidablePred q.Due := fun _ => inferInstanceAs (Decidable (_ ∧ _ ∧ _))

/-- The stations of a list in turn. `skip` says that the source is left out at the next one, `tests`
that it is behind a copy there was no memory for. -/
def visit (tests : Bool) : Bool → List Wcid → Copies → Copies × Bool
  | _, [], c => (c, true)
  | skip, w :: rest, c =>
    if skip ∧ q.addr w = q.src then visit tests skip rest c
    else
      match q.serve w c with
      | .goesOn c' => visit tests false rest c'
      | .noClone => visit tests tests rest c
      | .full => (c, false)

/-- How many of the stations are awake and due a copy. -/
def awakeDue (stations : List Wcid) : Nat :=
  stations.countP fun v => q.Due v ∧ (q.station v).psSave = false

/-- Room for a copy to `w`, behind those due to `before`. -/
def Room (c : Copies) (before : List Wcid) (w : Wcid) : Prop :=
  if (q.station w).psSave then c.psNumber w < maxPacketsInPsQueue
  else c.txNumber + q.awakeDue before < q.txSwQMaxLen

/-- Whether the source is left out behind `before`. -/
def LeftOut (tests skip : Bool) (before : List Wcid) : Prop :=
  match before.getLast? with
  | none => skip = true
  | some v => tests = true ∧ q.live v = true ∧ q.clone v = false

/-- **Which stations go well**: there is room for each copy that is due; and the source is left out,
or there is no room for its copy and no other is due behind it if the software queue stops the loop
there. -/
structure Fits (tests skip : Bool) (stations : List Wcid) (c : Copies) : Prop where
  room : ∀ a w b, stations = a ++ w :: b → q.Due w → q.Room c a w
  source : ∀ a w b, stations = a ++ w :: b → q.addr w = q.src → q.live w = true →
    q.clone w = true → ¬ q.LeftOut tests skip a →
    ¬ q.Room c a w ∧ ((q.station w).psSave = true ∨ ∀ v ∈ b, ¬ q.Due v)

/-- Of the stations those get a copy that are due one. -/
def Serves (served stations : List Wcid) : Prop := ∀ v, v ∈ served ↔ v ∈ stations ∧ q.Due v

section

variable {q} {w : Wcid} {rest served a : List Wcid} {c c' : Copies} {tests skip skip' : Bool}

theorem serve_dead (h : q.live w = false) : q.serve w c = .goesOn c := by
  rw [serve, h]
  rfl

theorem serve_noClone (h : q.live w = true) (hclone : q.clone w = false) :
    q.serve w c = .noClone := by
  rw [serve, if_pos h, hclone]
  rfl

theorem awakeDue_cons_of_not (h : ¬ (q.Due w ∧ (q.station w).psSave = false)) :
    q.awakeDue (w :: rest) = q.awakeDue rest :=
  List.countP_cons_of_neg (by simpa using h)

theorem awakeDue_cons (h : q.Due w) (hps : (q.station w).psSave = false) :
    q.awakeDue (w :: rest) = q.awakeDue rest + 1 :=
  List.countP_cons_of_pos (decide_eq_true ⟨h, hps⟩)

theorem serve_noRoom (h : q.live w = true) (hclone : q.clone w = true) (hroom : ¬ q.Room c [] w) :
    q.serve w c = if (q.station w).psSave then .goesOn c else .full := by
  rw [serve, if_pos h, if_pos hclone]
  rw [Room] at hroom
  by_cases hps : (q.station w).psSave = true
  · rw [if_pos hps] at hroom
    rw [if_pos hps, if_pos hps, apInsertPsQueue, if_pos (Nat.le_of_not_lt hroom)]
  · rw [if_neg hps] at hroom
    have hfull : q.txSwQMaxLen ≤ c.txNumber := Nat.le_of_not_lt hroom
    rw [if_neg hps, if_neg hps, if_pos hfull]

/-- With room the copy is sent, and the room for the others is what is counted. -/
theorem exists_serve (h : q.live w = true) (hclone : q.clone w = true) (hroom : q.Room c [] w) :
    ∃ c', q.serve w c = .goesOn c' ∧ c'.sent = c.sent ++ [w] ∧
      (q.Due w → ∀ before x, x ≠ w → (q.Room c (w :: before) x ↔ q.Room c' before x)) := by
  rw [Room] at hroom
  cases hps : (q.station w).psSave with
  | true =>
    rw [if_pos hps] at hroom
    have hsent : apInsertPsQueue w c = { c with
        psNumber := Function.update c.psNumber w (c.psNumber w + 1), sent := c.sent ++ [w] } :=
      if_neg (Nat.not_le_of_lt hroom)
    refine ⟨apInsertPsQueue w c, ?_, ?_, fun _ before x hx => ?_⟩
    · rw [serve, if_pos h, if_pos hclone, if_pos hps]
    · rw [hsent]
    · have hother : (apInsertPsQueue w c).psNumber x = c.psNumber x := by
        rw [hsent]
        exact Function.update_of_ne hx ..
      have hnumber : (apInsertPsQueue w c).txNumber = c.txNumber := by rw [hsent]
      rw [Room, Room, hother, hnumber, awakeDue_cons_of_not]
      simp [hps]
  | false =>
    have hawake : ¬ (q.station w).psSave = true := Bool.eq_false_iff.mp hps
    rw [if_neg hawake] at hroom
    have hnot : ¬ q.txSwQMaxLen ≤ c.txNumber := Nat.not_le_of_lt hroom
    refine ⟨{ c with txNumber := c.txNumber + 1, sent := c.sent ++ [w] }, ?_, rfl,
      fun hdue before x _ => ?_⟩
    · rw [serve, if_pos h, if_pos hclone, if_neg hawake, if_neg hnot]
    · rw [Room, Room, awakeDue_cons hdue hps, ← Nat.add_assoc, Nat.add_right_comm]

theorem leftOut_cons (skip' : Bool) : q.LeftOut tests skip (w :: a) ↔
    match a with
    | [] => tests = true ∧ q.live w = true ∧ q.clone w = false
    | _ :: _ => q.LeftOut tests skip' a := by
  cases a with
  | nil => exact Iff.rfl
  | cons b a =>
    rw [LeftOut, LeftOut, List.getLast?_cons_cons]
    cases h : (b :: a).getLast? with
    | none => simp at h
    | some v => exact Iff.rfl

/-- One station more in front. -/
theorem fits_cons (hroom : ∀ before, ∀ x ∈ rest, q.Room c (w :: before) x ↔ q.Room c' before x)
    (hskip : (∃ x ∈ rest, q.addr x = q.src) →
      (tests = true ∧ q.live w = true ∧ q.clone w = false ↔ skip' = true)) :
    q.Fits tests skip (w :: rest) c ↔ (q.Due w → q.Room c [] w) ∧
      (q.addr w = q.src → q.live w = true → q.clone w = true → ¬ skip = true →
        ¬ q.Room c [] w ∧ ((q.station w).psSave = true ∨ ∀ v ∈ rest, ¬ q.Due v)) ∧
      q.Fits tests skip' rest c' := by
  have hleft : ∀ a x b, rest = a ++ x :: b → q.addr x = q.src →
      (q.LeftOut tests skip (w :: a) ↔ q.LeftOut tests skip' a) := by
    intro a x b hrest hsrc
    rw [leftOut_cons skip']
    cases a with
    | nil => exact hskip ⟨x, by rw [hrest]; exact List.mem_cons_self .., hsrc⟩
    | cons v a => exact Iff.rfl
  have hmem : ∀ a x b, rest = a ++ x :: b → x ∈ rest := by
    rintro a x b rfl
    exact List.mem_append_right a (List.mem_cons_self ..)
  constructor
  · intro h
    refine ⟨h.room [] w rest rfl, h.source [] w rest rfl, ⟨fun a x b hrest hdue => ?_,
      fun a x b hrest hsrc hlive hclone hout => ?_⟩⟩
    · have hcons : w :: rest = (w :: a) ++ x :: b := congrArg (w :: ·) hrest
      exact (hroom a x (hmem a x b hrest)).mp (h.room _ x b hcons hdue)
    · have hcons : w :: rest = (w :: a) ++ x :: b := congrArg (w :: ·) hrest
      rw [← hleft a x b hrest hsrc] at hout
      rw [← hroom a x (hmem a x b hrest)]
      exact h.source _ x b hcons hsrc hlive hclone hout
  · rintro ⟨hfirst, hsource, h⟩
    refine ⟨fun a x b hcons hdue => ?_, fun a x b hcons hsrc hlive hclone hout => ?_⟩
    · cases a with
      | nil =>
        obtain ⟨rfl, rfl⟩ := List.cons.inj hcons
        exact hfirst hdue
      | cons v a =>
        obtain ⟨rfl, hrest⟩ := List.cons.inj hcons
        exact (hroom a x (hmem a x b hrest)).mpr (h.room a x b hrest hdue)
    · cases a with
      | nil =>
        obtain ⟨rfl, rfl⟩ := List.cons.inj hcons
        exact hsource hsrc hlive hclone hout
      | cons v a =>
        obtain ⟨rfl, hrest⟩ := List.cons.inj hcons
        rw [hleft a x b hrest hsrc] at hout
        rw [hroom a x (hmem a x b hrest)]
        exact h.source a x b hrest hsrc hlive hclone hout

/-- A station that none is due to, and gets none. -/
theorem fits_pass (hdue : ¬ q.Due w)
    (hskip : (∃ x ∈ rest, q.addr x = q.src) →
      (tests = true ∧ q.live w = true ∧ q.clone w = false ↔ skip' = true))
    (hsource : q.live w = true → q.clone w = true → ¬ skip = true →
      ¬ q.Room c [] w ∧ (q.station w).psSave = true) :
    q.Fits tests skip (w :: rest) c ↔ q.Fits tests skip' rest c := by
  have hroom : ∀ before, ∀ x ∈ rest, q.Room c (w :: before) x ↔ q.Room c before x := by
    intro before x _
    rw [Room, Room, awakeDue_cons_of_not fun h => hdue h.1]
  rw [fits_cons hroom hskip]
  constructor
  · rintro ⟨-, -, h⟩
    exact h
  · intro h
    refine ⟨fun hw => absurd hw hdue, fun _ hlive hclone hskip => ?_, h⟩
    obtain ⟨hno, hps⟩ := hsource hlive hclone hskip
    exact ⟨hno, .inl hps⟩

theorem serves_pass (hdue : ¬ q.Due w) : q.Serves served (w :: rest) ↔ q.Serves served rest := by
  refine forall_congr' fun v => ?_
  have hv : v = w → ¬ q.Due v := by
    rintro rfl
    exact hdue
  rw [List.mem_cons]
  constructor <;> intro h <;> rw [h] <;> tauto

theorem serves_cons (hdue : q.Due w) (hout : w ∉ served) (hnew : w ∉ rest) :
    q.Serves (w :: served) (w :: rest) ↔ q.Serves served rest := by
  refine forall_congr' fun v => ?_
  rw [List.mem_cons, List.mem_cons]
  by_cases hv : v = w
  · rw [hv]
    tauto
  · tauto

/-- **What a visit sends: each station that is due a copy gets one and nobody else, exactly if the
stations go well.** -/
def Accounted (q : CloneCall) (tests skip : Bool) (stations : List Wcid) (c : Copies) : Prop :=
  ∃ served, (q.visit tests skip stations c).1.sent = c.sent ++ served ∧ served.Sublist stations ∧
    (q.Serves served stations ↔ q.Fits tests skip stations c)

/-- The visit goes on behind a station that is due none and gets none. -/
theorem Accounted.pass (ih : q.Accounted tests skip' rest c)
    (hvisit : q.visit tests skip (w :: rest) c = q.visit tests skip' rest c) (hdue : ¬ q.Due w)
    (hskip : (∃ x ∈ rest, q.addr x = q.src) →
      (tests = true ∧ q.live w = true ∧ q.clone w = false ↔ skip' = true))
    (hsource : q.live w = true → q.clone w = true → ¬ skip = true →
      ¬ q.Room c [] w ∧ (q.station w).psSave = true) :
    q.Accounted tests skip (w :: rest) c := by
  obtain ⟨served, hsent, hsub, hiff⟩ := ih
  refine ⟨served, ?_, hsub.cons w, ?_⟩
  · rw [hvisit, hsent]
  · rw [serves_pass hdue, fits_pass hdue hskip hsource, hiff]

/-- There is room for a copy. -/
theorem accounted_room (ih : ∀ c', q.Accounted tests false rest c') (hnew : w ∉ rest)
    (hskip : ¬ (skip = true ∧ q.addr w = q.src)) (hlive : q.live w = true)
    (hclone : q.clone w = true) (hroom : q.Room c [] w) :
    q.Accounted tests skip (w :: rest) c := by
  obtain ⟨c', hserve, hsent', hrooms⟩ := exists_serve hlive hclone hroom
  obtain ⟨served, hsent, hsub, hiff⟩ := ih c'
  have hout : w ∉ served := fun hin => hnew (hsub.subset hin)
  refine ⟨w :: served, ?_, hsub.cons_cons w, ?_⟩
  · rw [visit, if_neg hskip, hserve]
    dsimp only
    rw [hsent, hsent', List.append_assoc, List.singleton_append]
  · by_cases hsrc : q.addr w = q.src
    · -- the source gets a copy
      refine iff_of_false (fun h => ?_) fun h => ?_
      · exact ((h w).mp (List.mem_cons_self ..)).2.2.2 hsrc
      · have hno : ¬ q.LeftOut tests skip [] := fun h => hskip ⟨h, hsrc⟩
        exact (h.source [] w rest rfl hsrc hlive hclone hno).1 hroom
    · have hdue : q.Due w := ⟨hlive, hclone, hsrc⟩
      have hbehind : ∀ before, ∀ x ∈ rest, q.Room c (w :: before) x ↔ q.Room c' before x := by
        intro before x hx
        refine hrooms hdue before x ?_
        rintro rfl
        exact hnew hx
      have hnot : tests = true ∧ q.live w = true ∧ q.clone w = false ↔ false = true := by
        simp [hclone]
      rw [serves_cons hdue hout hnew, hiff, fits_cons hbehind fun _ => hnot]
      constructor
      · intro h
        exact ⟨fun _ => hroom, fun h => absurd h hsrc, h⟩
      · rintro ⟨-, -, h⟩
        exact h

/-- There is none for a copy that is due. -/
theorem accounted_missed (ih : q.Accounted tests false rest c) (hnew : w ∉ rest)
    (hskip : ¬ (skip = true ∧ q.addr w = q.src)) (hdue : q.Due w) (hroom : ¬ q.Room c [] w) :
    q.Accounted tests skip (w :: rest) c := by
  have hserve := serve_noRoom hdue.1 hdue.2.1 hroom
  have hmiss : ¬ q.Fits tests skip (w :: rest) c := by
    intro h
    exact hroom (h.room [] w rest rfl hdue)
  by_cases hps : (q.station w).psSave = true
  · obtain ⟨served, hsent, hsub, -⟩ := ih
    refine ⟨served, ?_, hsub.cons w, iff_of_false (fun h => ?_) hmiss⟩
    · rw [visit, if_neg hskip, hserve, if_pos hps]
      exact hsent
    · exact hnew (hsub.subset ((h w).mpr ⟨List.mem_cons_self .., hdue⟩))
  · refine ⟨[], ?_, List.nil_sublist _, iff_of_false (fun h => ?_) hmiss⟩
    · rw [visit, if_neg hskip, hserve, if_neg hps, List.append_nil]
    · exact List.not_mem_nil ((h w).mpr ⟨List.mem_cons_self .., hdue⟩)

/-- The full queue stops the visit at the source. -/
theorem accounted_stopped (honce : ¬ ∃ x ∈ rest, q.addr x = q.src) (hsrc : q.addr w = q.src)
    (hskip : ¬ skip = true) (hlive : q.live w = true) (hclone : q.clone w = true)
    (hroom : ¬ q.Room c [] w) (hps : ¬ (q.station w).psSave = true) :
    q.Accounted tests skip (w :: rest) c := by
  have hno : ¬ (skip = true ∧ q.addr w = q.src) := fun h => hskip h.1
  have hdue : ¬ q.Due w := fun h => h.2.2 hsrc
  refine ⟨[], ?_, List.nil_sublist _, ?_⟩
  · rw [visit, if_neg hno, serve_noRoom hlive hclone hroom, if_neg hps, List.append_nil]
  · constructor
    · intro h
      have hnone : ∀ v ∈ w :: rest, ¬ q.Due v := fun v hv hd =>
        List.not_mem_nil ((h v).mpr ⟨hv, hd⟩)
      refine ⟨fun a x b hcons hd => ?_, fun a x b hcons hxsrc _ _ _ => ?_⟩
      · refine absurd hd (hnone x ?_)
        rw [hcons]
        exact List.mem_append_right a (List.mem_cons_self ..)
      · cases a with
        | nil =>
          obtain ⟨rfl, rfl⟩ := List.cons.inj hcons
          exact ⟨hroom, .inr fun v hv => hnone v (List.mem_cons_of_mem w hv)⟩
        | cons v a =>
          obtain ⟨rfl, rfl⟩ := List.cons.inj hcons
          exact absurd ⟨x, List.mem_append_right a (List.mem_cons_self ..), hxsrc⟩ honce
    · intro h v
      have hbehind := ((h.source [] w rest rfl hsrc hlive hclone hskip).2).resolve_left hps
      refine iff_of_false List.not_mem_nil ?_
      rintro ⟨hv, hd⟩
      rcases List.mem_cons.mp hv with rfl | hv
      · exact hdue hd
      · exact hbehind v hv hd

theorem accounted_visit (stations : List Wcid) (hown : (stations.map q.addr).Nodup) (skip : Bool)
    (c : Copies) : q.Accounted tests skip stations c := by
  induction stations generalizing skip c with
  | nil =>
    refine ⟨[], (List.append_nil _).symm, .slnil, iff_of_true ?_ ⟨?_, ?_⟩⟩
    · exact fun v => iff_of_false List.not_mem_nil fun h => List.not_mem_nil h.1
    · exact fun a w b h => absurd h (by simp)
    · exact fun a w b h => absurd h (by simp)
  | cons w rest ih =>
    obtain ⟨hapart, hown⟩ := List.nodup_cons.mp hown
    have hnew : w ∉ rest := fun hin => hapart (List.mem_map_of_mem hin)
    -- no source behind a source
    have honce : q.addr w = q.src → ¬ ∃ x ∈ rest, q.addr x = q.src := by
      rintro hsrc ⟨x, hx, hxsrc⟩
      exact hapart (List.mem_map.mpr ⟨x, hx, hxsrc.trans hsrc.symm⟩)
    by_cases hskip : skip = true ∧ q.addr w = q.src
    · have hvisit : q.visit tests skip (w :: rest) c = q.visit tests skip rest c := by
        rw [visit, if_pos hskip]
      exact (ih hown skip c).pass hvisit (fun hdue => hdue.2.2 hskip.2)
        (fun h => absurd h (honce hskip.2)) fun _ _ hno => absurd hskip.1 hno
    · cases hlive : q.live w with
      | false =>
        have hvisit : q.visit tests skip (w :: rest) c = q.visit tests false rest c := by
          rw [visit, if_neg hskip, serve_dead hlive]
        have hdead : ¬ q.live w = true := Bool.eq_false_iff.mp hlive
        exact (ih hown false c).pass hvisit (fun hdue => hdead hdue.1)
          (fun _ => by simp [hlive]) fun h => absurd h hdead
      | true =>
        cases hclone : q.clone w with
        | false =>
          have hvisit : q.visit tests skip (w :: rest) c = q.visit tests tests rest c := by
            rw [visit, if_neg hskip, serve_noClone hlive hclone]
          have hfail : ¬ q.clone w = true := Bool.eq_false_iff.mp hclone
          exact (ih hown tests c).pass hvisit (fun hdue => hfail hdue.2.1)
            (fun _ => by simp [hlive, hclone]) fun _ h => absurd h hfail
        | true =>
          by_cases hroom : q.Room c [] w
          · exact accounted_room (ih hown false) hnew hskip hlive hclone hroom
          · by_cases hsrc : q.addr w = q.src
            · have hnoskip : ¬ skip = true := fun h => hskip ⟨h, hsrc⟩
              by_cases hps : (q.station w).psSave = true
              · have hvisit : q.visit tests skip (w :: rest) c = q.visit tests false rest c := by
                  rw [visit, if_neg hskip, serve_noRoom hlive hclone hroom, if_pos hps]
                exact (ih hown false c).pass hvisit (fun hdue => hdue.2.2 hsrc)
                  (fun h => absurd h (honce hsrc)) fun _ _ _ => ⟨hroom, hps⟩
              · exact accounted_stopped (honce hsrc) hsrc hnoskip hlive hclone hroom hps
            · exact accounted_missed (ih hown false c) hnew hskip ⟨hlive, hclone, hsrc⟩ hroom

end

/-! ## 4. The loops as visits -/

/-- The entry that the table has for an address. -/
def stationOf (a : Octets 6) : Option Wcid := (apSsPsInquiry q.macTab a).join

/-- The stations of a group's members, or the clients of the device. -/
def recipients (igmpPktInGroup : IgmpPkt) (pGroupEntry : Option GroupIdx) : List Wcid :=
  match igmpPktInGroup, pGroupEntry with
  | .inGroup, some i =>
    (Chain.follow q.groups.memberNext freeMemberPoolSize
      (q.groups.content i).memberList.pHead).filterMap fun m => q.stationOf (q.groups.memberAddr m)
  | .pkt, _ => (wcidsFrom 1).filter fun w => q.isClient w
  | _, _ => []

/-- **The addresses are single ones, and a client's is in no other slot of the table.** -/
structure OwnAddresses (t : Mgmt.MacTab) : Prop where
  unicast : ∀ k, (t.content k).entryType = .client → (t.content k).addr.get 0 &&& 0x01 ≠ 0x01
  own : ∀ j k, (t.content j).entryType = .client → (t.content k).addr = (t.content j).addr → k = j

section

variable {q} {w : Wcid} {a : Octets 6}

theorem exists_inquiry (h : Mgmt.Ordered q.macTab) (a : Octets 6) :
    apSsPsInquiry q.macTab a = some (q.stationOf a) ∧
      (∀ w, q.stationOf a = some w → q.macTab.Valid w ∧ q.addr w = a) ∧
      (a.get 0 &&& 0x01 ≠ 0x01 → q.stationOf a = none →
        ∀ w, q.macTab.Valid w → q.addr w ≠ a) := by
  by_cases hgroup : a.get 0 &&& 0x01 = 0x01
  · have hnone : apSsPsInquiry q.macTab a = some none := if_pos hgroup
    rw [stationOf, hnone]
    exact ⟨rfl, nofun, fun hno => absurd hgroup hno⟩
  · obtain ⟨r, hr, hfound, hnone⟩ := h.lookup a
    have hlook : apSsPsInquiry q.macTab a = some r := (if_neg hgroup).trans hr
    rw [stationOf, hlook]
    exact ⟨rfl, hfound, fun _ => hnone⟩

theorem memberLoop_eq_visit (h : Mgmt.Ordered q.macTab) {p : Option MemberIdx}
    {l : List MemberIdx} (hl : Chain.Linked q.groups.memberNext p l) {fuel : Nat}
    (hfuel : l.length ≤ fuel) (c : Copies) :
    q.memberLoop fuel p c =
      some (q.visit false false (l.filterMap fun m => q.stationOf (q.groups.memberAddr m)) c) := by
  induction hl generalizing fuel c with
  | nil => cases fuel <;> rfl
  | @cons m l _ ih =>
    obtain _ | fuel := fuel
    · simp at hfuel
    have hfuel' : l.length ≤ fuel := by simpa using hfuel
    rw [memberLoop, (exists_inquiry h (q.groups.memberAddr m)).1]
    cases hstation : q.stationOf (q.groups.memberAddr m) with
    | none =>
      rw [List.filterMap_cons, hstation]
      exact ih hfuel' c
    | some w =>
      have hnoskip : ¬ (false = true ∧ q.addr w = q.src) := fun h => Bool.false_ne_true h.1
      rw [List.filterMap_cons, hstation]
      dsimp only
      rw [visit, if_neg hnoskip]
      dsimp only [Option.bind_eq_bind, Option.bind_some]
      cases q.serve w c with
      | goesOn c' => exact ih hfuel' c'
      | noClone => exact ih hfuel' c
      | full => rfl

theorem entryType_of_isClient (h : q.isClient w = true) :
    (q.macTab.content w).entryType = .client := by
  rw [isClient, Bool.and_eq_true] at h
  exact of_decide_eq_true h.1

/-- The stations of members have the members' addresses. -/
theorem map_stationOf_sublist (h : Mgmt.Ordered q.macTab) (l : List MemberIdx) :
    ((l.filterMap fun m => q.stationOf (q.groups.memberAddr m)).map q.addr).Sublist
      (l.map q.groups.memberAddr) := by
  induction l with
  | nil => exact .slnil
  | cons m l ih =>
    rw [List.filterMap_cons, List.map_cons]
    cases hstation : q.stationOf (q.groups.memberAddr m) with
    | none => exact ih.cons _
    | some w =>
      have haddr := ((exists_inquiry h (q.groups.memberAddr m)).2.1 w hstation).2
      dsimp only
      rw [List.map_cons, haddr]
      exact ih.cons_cons _

/-- Where a client is, its address finds it, and no other address finds a client. -/
theorem stationOf_eq (h : Mgmt.Ordered q.macTab) (hown : OwnAddresses q.macTab) (k : Wcid) :
    ((q.macTab.content k).entryType = .client → q.stationOf (q.addr k) = some k) ∧
      ((q.macTab.content k).entryType ≠ .client →
        ∀ w, q.stationOf (q.addr k) = some w → q.isClient w = false) := by
  obtain ⟨-, hfound, hnone⟩ := exists_inquiry h (q.addr k)
  constructor
  · intro hk
    have hvalid : q.macTab.Valid k := by
      rw [Mgmt.MacTab.Valid, hk]
      exact nofun
    cases hstation : q.stationOf (q.addr k) with
    | none => exact absurd rfl (hnone (hown.unicast k hk) hstation k hvalid)
    | some w =>
      have hw := hown.own k w hk (hfound w hstation).2
      rw [hw]
  · intro hk w hstation
    by_contra hclient
    have hw := entryType_of_isClient (Bool.eq_true_of_not_eq_false hclient)
    have hkw := hown.own w k hw (hfound w hstation).2.symm
    rw [hkw] at hk
    exact hk hw

theorem wcidsFrom_cons : ∀ w : Wcid, wcidsFrom w.val = w :: wcidsFrom (w.val + 1) := by
  decide +kernel

theorem wcidsFrom_nil {n : Nat} (h : maxLenOfMacTable ≤ n) : wcidsFrom n = [] := by
  refine List.filter_eq_nil_iff.mpr fun k _ hk => ?_
  have hle : n ≤ k.val := of_decide_eq_true hk
  omega

/-- The search looks at one slot. -/
theorem nextClient_cons (h : Mgmt.Ordered q.macTab) (hown : OwnAddresses q.macTab) (k : Wcid)
    (skip : Bool) (rest : List Wcid) :
    q.nextClient skip (k :: rest) =
      if q.isClient k ∧ ¬ (skip ∧ q.addr k = q.src) then some (some k)
      else q.nextClient skip rest := by
  obtain ⟨hself, hother⟩ := stationOf_eq h hown k
  rw [nextClient, (exists_inquiry h (q.addr k)).1]
  by_cases hk : (q.macTab.content k).entryType = .client
  · rw [hself hk]
    rfl
  · have hno : ¬ (q.isClient k ∧ ¬ (skip ∧ q.addr k = q.src)) :=
      fun hclient => hk (entryType_of_isClient hclient.1)
    rw [if_neg hno]
    cases hstation : q.stationOf (q.addr k) with
    | none => rfl
    | some w =>
      have hnot : ¬ (q.isClient w ∧ ¬ (skip ∧ q.addr w = q.src)) :=
        fun hclient => Bool.eq_false_iff.mp (hother hk w hstation) hclient.1
      exact if_neg hnot

theorem clientLoop_eq_visit (h : Mgmt.Ordered q.macTab) (hown : OwnAddresses q.macTab)
    (slots n fuel : Nat) (hslots : maxLenOfMacTable ≤ n + slots) (hfuel : slots ≤ fuel)
    (skip : Bool) (c : Copies) :
    ((q.nextClient skip (wcidsFrom n)).bind fun r => q.clientLoop fuel r c) =
      some (q.visit true skip ((wcidsFrom n).filter fun w => q.isClient w) c) := by
  induction slots generalizing n fuel skip c with
  | zero =>
    rw [wcidsFrom_nil (by simpa using hslots)]
    cases fuel <;> rfl
  | succ slots ih =>
    by_cases hn : n < maxLenOfMacTable
    · obtain ⟨w, rfl⟩ : ∃ w : Wcid, w.val = n := ⟨⟨n, hn⟩, rfl⟩
      have hslots' : maxLenOfMacTable ≤ w.val + 1 + slots := by omega
      have hfuel' : slots ≤ fuel := by omega
      rw [wcidsFrom_cons w, nextClient_cons h hown]
      by_cases hclient : q.isClient w = true
      · rw [List.filter_cons_of_pos hclient, visit]
        by_cases hskip : skip = true ∧ q.addr w = q.src
        · have hpast : ¬ (q.isClient w = true ∧ ¬ (skip = true ∧ q.addr w = q.src)) :=
            fun hw => hw.2 hskip
          rw [if_neg hpast, if_pos hskip]
          exact ih _ fuel hslots' hfuel' skip c
        · obtain ⟨fuel, rfl⟩ := Nat.exists_eq_succ_of_ne_zero (n := fuel) (by omega)
          have hrest : slots ≤ fuel := by omega
          rw [if_pos ⟨hclient, hskip⟩, if_neg hskip, Option.bind_some, clientLoop]
          cases q.serve w c with
          | goesOn c' => exact ih _ fuel hslots' hrest false c'
          | noClone => exact ih _ fuel hslots' hrest true c
          | full => rfl
      · have hpast : ¬ (q.isClient w = true ∧ ¬ (skip = true ∧ q.addr w = q.src)) :=
          fun hw => hclient hw.1
        rw [List.filter_cons_of_neg hclient, if_neg hpast]
        exact ih _ fuel hslots' hfuel' skip c
    · rw [wcidsFrom_nil (Nat.le_of_not_lt hn)]
      cases fuel <;> rfl

end

/-! ## 5. When each gets one -/

/-- **Each of the recipients that is due a copy gets one, and nobody else one.** -/
def CloneMeets (igmpPktInGroup : IgmpPkt) (pGroupEntry : Option GroupIdx) (c : Copies) : Prop :=
  ∃ c' ok served, q.igmpPktClone igmpPktInGroup pGroupEntry c = some (c', ok) ∧
    c'.sent = c.sent ++ served ∧ served.Nodup ∧
    q.Serves served (q.recipients igmpPktInGroup pGroupEntry)

/-- For a report the source is left out of the first search and of one behind a failed copy, for a
group's packet never. -/
def CloneFits (igmpPktInGroup : IgmpPkt) (pGroupEntry : Option GroupIdx) (c : Copies) : Prop :=
  q.Fits (igmpPktInGroup = .pkt) (igmpPktInGroup = .pkt)
    (q.recipients igmpPktInGroup pGroupEntry) c

section

variable {q} {c : Copies} {i : GroupIdx}

theorem Accounted.cloneMeets_iff {igmpPktInGroup : IgmpPkt} {pGroupEntry : Option GroupIdx}
    {tests : Bool}
    (h : q.Accounted tests tests (q.recipients igmpPktInGroup pGroupEntry) c)
    (hnodup : (q.recipients igmpPktInGroup pGroupEntry).Nodup)
    (hrun : q.igmpPktClone igmpPktInGroup pGroupEntry c =
      some (q.visit tests tests (q.recipients igmpPktInGroup pGroupEntry) c)) :
    q.CloneMeets igmpPktInGroup pGroupEntry c ↔
      q.Fits tests tests (q.recipients igmpPktInGroup pGroupEntry) c := by
  obtain ⟨served, hsent, hsub, hiff⟩ := h
  rw [← hiff]
  constructor
  · rintro ⟨c', ok, served', hclone, hsent', -, hserves⟩
    rw [hrun, Option.some_inj] at hclone
    rw [hclone, hsent', List.append_cancel_left_eq] at hsent
    rw [← hsent]
    exact hserves
  · intro hserves
    exact ⟨_, _, served, hrun, hsent, hsub.nodup hnodup, hserves⟩

/-- A packet of a group. -/
theorem inGroup_iff (hm : Mgmt.Ordered q.macTab) (hg : Ordered q.groups) :
    q.CloneMeets .inGroup (some i) c ↔ q.CloneFits .inGroup (some i) c := by
  obtain ⟨own, hmem, -⟩ := hg.members
  have hlist := (hmem.isList (some i)).linked
  have hlen := length_lt_of_isList (hmem.isList (some i))
  have hrecipients : q.recipients .inGroup (some i) =
      (own (some i)).filterMap fun m => q.stationOf (q.groups.memberAddr m) := by
    rw [recipients]
    exact congrArg _ (hlist.follow_eq hlen)
  have hown : ((q.recipients .inGroup (some i)).map q.addr).Nodup := by
    rw [hrecipients]
    exact (map_stationOf_sublist hm (own (some i))).nodup (hmem.stations i)
  have hrun : q.igmpPktClone .inGroup (some i) c =
      some (q.visit false false (q.recipients .inGroup (some i)) c) := by
    rw [hrecipients]
    exact memberLoop_eq_visit hm hlist hlen c
  exact (accounted_visit _ hown false c).cloneMeets_iff (List.Nodup.of_map _ hown) hrun

/-- A report. -/
theorem pkt_iff (hm : Mgmt.Ordered q.macTab) (hown : OwnAddresses q.macTab)
    (pGroupEntry : Option GroupIdx) :
    q.CloneMeets .pkt pGroupEntry c ↔ q.CloneFits .pkt pGroupEntry c := by
  have hapart : ((q.recipients .pkt pGroupEntry).map q.addr).Nodup := by
    refine List.Nodup.map_on (fun j hj k hk haddr => ?_) ((List.nodup_finRange _).filter _ |>.filter _)
    exact hown.own k j (entryType_of_isClient (List.mem_filter.mp hk).2) haddr
  have hrun : q.igmpPktClone .pkt pGroupEntry c =
      some (q.visit true true (q.recipients .pkt pGroupEntry) c) :=
    clientLoop_eq_visit hm hown 31 1 maxLenOfMacTable (by decide) (by decide) true c
  exact (accounted_visit _ hapart true c).cloneMeets_iff (List.Nodup.of_map _ hapart) hrun

end

end CloneCall

/-- **What the query hands over for a group is a valid entry, for the packet's group and device.** -/
theorem Ordered.igmpPktInfoQuery {s : FilterTable} (h : Ordered s) {hz : UInt32}
    {now : GroupIdx → UInt64} {turns : Nat} {dst : Octets 6} {mem : Nat → UInt8} {dev : NetDev}
    {s' : FilterTable} {r : Option (IgmpPkt × Option GroupIdx)}
    (hrun : Igmp.igmpPktInfoQuery hz now turns s dst mem dev = some (s', r)) :
    Ordered s' ∧ ∀ group, r = some (.inGroup, group) → ∃ i, group = some i ∧ s'.Valid i ∧
      isGroup s' dev (if dst.get 0 = 0xff then convertMulticastIP2MAC ethPIp mem 18 else dst) i =
        true := by
  rw [Igmp.igmpPktInfoQuery] at hrun
  by_cases hmulti : dst.get 0 &&& 0x01 = 0x01 ∧ dst.get 0 ≠ 0xff
  · rw [if_pos hmulti] at hrun
    obtain ⟨report, -, hrun⟩ := Option.bind_eq_some_iff.mp hrun
    cases report with
    | true =>
      cases hrun
      exact ⟨h, nofun⟩
    | false =>
      obtain ⟨t, found, hlook, hordered, -, hfound, -⟩ := h.lookup hz now dst dev
      rw [hlook] at hrun
      cases found with
      | none =>
        cases hrun
        exact ⟨hordered, nofun⟩
      | some i =>
        cases hrun
        refine ⟨hordered, fun group hr => ?_⟩
        cases hr
        rw [if_neg hmulti.2]
        exact ⟨i, rfl, hfound i rfl⟩
  · rw [if_neg hmulti] at hrun
    by_cases hbroad : dst.get 0 = 0xff
    · obtain ⟨t, found, hlook, hordered, -, hfound, -⟩ :=
        h.lookup hz now (convertMulticastIP2MAC ethPIp mem 18) dev
      rw [if_pos hbroad, hlook] at hrun
      cases found with
      | none =>
        cases hrun
        exact ⟨hordered, nofun⟩
      | some i =>
        cases hrun
        refine ⟨hordered, fun group hr => ?_⟩
        cases hr
        rw [if_pos hbroad]
        exact ⟨i, rfl, hfound i rfl⟩
    · rw [if_neg hbroad] at hrun
      cases hrun
      exact ⟨h, nofun⟩

namespace Example

/-- The other station of the BSS. -/
def secondVisitor : Octets 6 := ⟨[0, 0x0c, 0x43, 1, 2, 4], rfl⟩

/-- For 224.0.0.22. -/
def reportDst : Octets 6 := ⟨[0x01, 0x00, 0x5e, 0, 0, 0x16], rfl⟩

/-- An IPv4 packet with the protocol IGMP. -/
def reportMem (off : Nat) : UInt8 := if off = 0 then 0x08 else if off = 11 then 0x02 else 0

/-- Two stations have associated. -/
def twoStations : List Mgmt.MacCall :=
  [.insert Mgmt.Example.oneBss Mgmt.Example.visitor 0, .insert Mgmt.Example.oneBss secondVisitor 0]

/-- The second one reports. -/
def reportCall (s : FilterTable) (t : Mgmt.MacTab) : CloneCall where
  groups := s
  macTab := t
  station := fun _ => ⟨true, true, false⟩
  devs := ⟨1, 1, 1, fun _ => 0, 0, fun _ => 0⟩
  src := secondVisitor
  pNetDev := 1
  txSwQMaxLen := 256
  clone := fun _ => true

end Example

end Mt7601.Igmp
