/-
# Snooping, and runs of the multicast filter table

`IGMPSnooping` and `MLDSnooping` read the reports and leaves of the stations and turn them into
insertions and deletions. The packet is memory from the type field on, whatever is behind its end.
With commands, lookups and stations that go, in any order, the table stays as it is to be
(`exists_inOrder_run`).
-/
import Mt7601.Igmp.Groups
import Mt7601.Lib.Run
import Mathlib.Data.Fintype.BigOperators

namespace Mt7601.Igmp

/-! ## 1. Packets -/

/-- `ntohs` of the two octets from `off` on. -/
def ntohs (mem : Nat → UInt8) (off : Nat) : Nat := (mem off).toNat * 256 + (mem (off + 1)).toNat

/-- `ETH_P_IP` -/
def ethPIp : Nat := 0x0800
/-- `ETH_P_IPV6` -/
def ethPIpv6 : Nat := 0x86dd

/-- `ConvertMulticastIP2MAC`, of the address at `off`. -/
def convertMulticastIP2MAC (protoType : Nat) (mem : Nat → UInt8) (off : Nat) : Octets 6 :=
  if protoType = ethPIpv6 then
    ⟨[0x33, 0x33, mem (off + 12), mem (off + 13), mem (off + 14), mem (off + 15)], rfl⟩
  else ⟨[0x01, 0x00, 0x5e, mem (off + 1) &&& 0x7f, mem (off + 2), mem (off + 3)], rfl⟩

/-- What a report asks for: the sender is to be a member of the group, or to be one no more. -/
inductive GroupCall where
  | insert (grpId : Octets 6)
  | delete (grpId : Octets 6)

/-- What a group record asks for, by its type (`IgmpGroupType`). -/
def recordCall (groupType : UInt8) (numOfSources : Nat) (grpId : Octets 6) : List GroupCall :=
  if groupType = 2 ∨ groupType = 4 ∨ groupType = 5 then [.insert grpId]
  else if groupType = 3 ∨ groupType = 1 ∨ groupType = 6 then
    if numOfSources = 0 then [.delete grpId] else [.insert grpId]
  else []

/-- The loop over the group records, which differ in the length of an address. -/
def recordCalls (protoType addrLen : Nat) (mem : Nat → UInt8) : Nat → Nat → List GroupCall
  | 0, _ => []
  | numOfGroup + 1, pGroup =>
    let auxDataLen := (mem (pGroup + 1)).toNat
    let numOfSources := ntohs mem (pGroup + 2)
    recordCall (mem pGroup) numOfSources (convertMulticastIP2MAC protoType mem (pGroup + 4)) ++
      recordCalls protoType addrLen mem numOfGroup
        (pGroup + (4 + addrLen + numOfSources * addrLen + auxDataLen))

/-- `isIgmpPkt` -/
def isIgmpPkt (dst : Octets 6) (mem : Nat → UInt8) : Bool :=
  dst.get 0 == 0x01 && dst.get 1 == 0x00 && dst.get 2 == 0x5e && ntohs mem 0 == ethPIp &&
    mem 11 == 0x02

/-- `IGMPSnooping` -/
def igmpSnooping (dst : Octets 6) (mem : Nat → UInt8) : List GroupCall :=
  if isIgmpPkt dst mem then
    let pIgmpHeader := 2 + (mem 2 &&& 0x0f).toNat * 4
    let grpId := convertMulticastIP2MAC ethPIp mem (pIgmpHeader + 4)
    match mem pIgmpHeader with
    | 0x12 => [.insert grpId]
    | 0x16 => [.insert grpId]
    | 0x17 => [.delete grpId]
    | 0x22 => recordCalls ethPIp 4 mem (ntohs mem (pIgmpHeader + 6)) (pIgmpHeader + 8)
    | _ => []
  else []

/-- `IPV6_NEXT_HEADER_ICMPV6` -/
def ipv6NextHeaderIcmpv6 : UInt8 := 0x3a

/-- `IPv6ExtHdrHandle`: the next protocol and offset, and whether it is a header to go on behind. -/
def ipv6ExtHdrHandle (mem : Nat → UInt8) (proto : UInt8) (offset : Nat) : UInt8 × Nat × Bool :=
  if proto = 0x00 ∨ proto = 0x3c ∨ proto = 0x2b then
    (mem (2 + offset), (offset + ((mem (2 + offset + 1)).toNat + 1) * 8) % 2 ^ 32, true)
  else if proto = 0x2c then (mem (2 + offset), (offset + 8) % 2 ^ 32, true)
  else (0xff, offset, false)

/-- The loop of `isMldPkt` over the extension headers; `none` if it is not through after so many
turns. -/
def skipExtHdrs (mem : Nat → UInt8) : Nat → UInt8 → Nat → Option (UInt8 × Nat)
  | 0, _, _ => none
  | turns + 1, proto, offset =>
    if proto = ipv6NextHeaderIcmpv6 then some (proto, offset)
    else
      let (proto', offset', more) := ipv6ExtHdrHandle mem proto offset
      if more then skipExtHdrs mem turns proto' offset' else some (proto', offset')

/-- `isMldPkt`: where the message is. -/
def isMldPkt (turns : Nat) (dst : Octets 6) (mem : Nat → UInt8) : Option Nat :=
  if dst.get 0 = 0x33 ∧ dst.get 1 = 0x33 ∧ ntohs mem 0 = ethPIpv6 then
    match skipExtHdrs mem turns (mem 8) 40 with
    | some (proto, offset) => if proto = ipv6NextHeaderIcmpv6 then some (2 + offset) else none
    | none => none
  else none

/-- `MLDSnooping`. A loop over the headers that does not end makes no call. -/
def mldSnooping (turns : Nat) (dst : Octets 6) (mem : Nat → UInt8) : List GroupCall :=
  match isMldPkt turns dst mem with
  | none => []
  | some pMldHeader =>
    let grpId := convertMulticastIP2MAC ethPIpv6 mem (pMldHeader + 8)
    match mem pMldHeader with
    | 131 => [.insert grpId]
    | 132 => [.delete grpId]
    | 143 => recordCalls ethPIpv6 16 mem (ntohs mem (pMldHeader + 6)) (pMldHeader + 8)
    | _ => []

/-! ## 2. Runs -/

/-- The calls of a packet from `src`, each with its own readings of the clock. -/
def runCalls (hz : UInt32) (src : Octets 6) (dev : NetDev) :
    (Nat → Readings) → List GroupCall → FilterTable → Option FilterTable
  | _, [], s => some s
  | clock, .insert grpId :: calls, s =>
    (multicastFilterTableInsertEntry hz (clock 0) s grpId (some src) dev .dynamic).bind fun p =>
      runCalls hz src dev (fun n => clock (n + 1)) calls p.1
  | clock, .delete grpId :: calls, s =>
    (multicastFilterTableDeleteEntry s grpId (some src) dev).bind
      (runCalls hz src dev (fun n => clock (n + 1)) calls)

/-- What happens to the table: commands, lookups of the transmit path, reports, and stations that
are deleted. -/
inductive SnoopEvent where
  | insert (clock : Readings) (grpId : Octets 6) (memberAddr : Option (Octets 6)) (dev : NetDev)
      (type : FilterEntryType)
  | delete (grpId : Octets 6) (memberAddr : Option (Octets 6)) (dev : NetDev)
  | lookup (now : GroupIdx → UInt64) (addr : Octets 6) (dev : NetDev)
  | igmp (clock : Nat → Readings) (dst src : Octets 6) (mem : Nat → UInt8) (dev : NetDev)
  | mld (clock : Nat → Readings) (turns : Nat) (dst src : Octets 6) (mem : Nat → UInt8)
      (dev : NetDev)
  | delMembers (memberAddr : Option (Octets 6)) (dev : NetDev)

/-- One event. `none` is a loop that has not come to its end, or a null pointer. -/
def snoopStep (hz : UInt32) : Option FilterTable → SnoopEvent → Option FilterTable
  | none, _ => none
  | some s, .insert clock grpId memberAddr dev type =>
    (multicastFilterTableInsertEntry hz clock s grpId memberAddr dev type).map Prod.fst
  | some s, .delete grpId memberAddr dev => multicastFilterTableDeleteEntry s grpId memberAddr dev
  | some s, .lookup now addr dev => (multicastFilterTableLookup hz now s addr dev).map Prod.fst
  | some s, .igmp clock dst src mem dev => runCalls hz src dev clock (igmpSnooping dst mem) s
  | some s, .mld clock turns dst src mem dev =>
    runCalls hz src dev clock (mldSnooping turns dst mem) s
  | some s, .delMembers memberAddr dev => igmpGroupDelMembers s memberAddr dev

/-- **Everything that is to be in order**: `free` and `members` are what the free list and the lists
of the valid groups stand for. -/
structure InOrder (s : FilterTable) : Prop where
  chains : ∀ b, ∃ l, Chain.Linked s.next (s.hash b) l ∧ l.Nodup ∧
    ∀ i, i ∈ l ↔ s.Valid i ∧ multicastAddrHashIndex (s.content i).addr = b
  size : s.size.toNat = (Finset.univ.filter s.Valid).card
  pool : ∃ (free : List MemberIdx) (members : GroupIdx → List MemberIdx),
    IsList s.memberNext s.freeEntryList free ∧
    (∀ i, s.Valid i → IsList s.memberNext (s.content i).memberList (members i)) ∧
    (∀ i j, s.Valid i → s.Valid j → i ≠ j → (members i).Disjoint (members j)) ∧
    (∀ i, s.Valid i → ((members i).map s.memberAddr).Nodup) ∧
    free.length + ∑ i ∈ Finset.univ.filter s.Valid, (members i).length = freeMemberPoolSize

theorem Ordered.inOrder {s : FilterTable} (h : Ordered s) : InOrder s where
  chains := by
    intro b
    obtain ⟨l, hl, hmem⟩ := h.chained b
    exact ⟨l, hl, hl.nodup, hmem⟩
  size := h.size
  pool := by
    obtain ⟨own, hown, hnil⟩ := h.members
    refine ⟨own none, fun i => own (some i), hown.isList none, fun i _ => hown.isList (some i),
      fun i j _ _ hij m hm hm' => ?_, fun i _ => hown.stations i, ?_⟩
    · exact hown.apart (some i) (some j) (fun heq => hij (Option.some.inj heq)) m hm hm'
    · have hsum : ∑ b, (own b).length = Fintype.card MemberIdx :=
        Chain.sum_length_eq_card (fun b => (hown.isList b).nodup) hown.apart
          fun m => (hown.cover m).mpr nofun
      have hgroups : ∑ i ∈ Finset.univ.filter s.Valid, (own (some i)).length =
          ∑ i, (own (some i)).length := by
        refine Finset.sum_subset (Finset.subset_univ _) fun i _ hi => ?_
        rw [hnil i fun hv => hi (Finset.mem_filter.mpr ⟨Finset.mem_univ i, hv⟩), List.length_nil]
      rw [hgroups, ← Fintype.sum_option fun b => (own b).length, hsum]
      exact Fintype.card_fin freeMemberPoolSize

theorem Ordered.runCalls {s : FilterTable} (h : Ordered s) (hz : UInt32) (src : Octets 6)
    (dev : NetDev) (calls : List GroupCall) (clock : Nat → Readings) :
    ∃ s', runCalls hz src dev clock calls s = some s' ∧ Ordered s' := by
  induction calls generalizing s clock with
  | nil => exact ⟨s, rfl, h⟩
  | cons call calls ih =>
    cases call with
    | insert grpId =>
      obtain ⟨t, ok, hrun, hordered⟩ := h.insert hz (clock 0) grpId (some src) dev .dynamic
      rw [Igmp.runCalls, hrun]
      exact ih hordered _
    | delete grpId =>
      obtain ⟨t, hrun, hordered⟩ := h.delete grpId (some src) dev
      rw [Igmp.runCalls, hrun]
      exact ih hordered _

/-- **An event keeps the order.** -/
theorem Ordered.step {s : FilterTable} (h : Ordered s) (hz : UInt32) (event : SnoopEvent) :
    ∃ s', snoopStep hz (some s) event = some s' ∧ Ordered s' := by
  cases event with
  | insert clock grpId memberAddr dev type =>
    obtain ⟨s', ok, hrun, hordered⟩ := h.insert hz clock grpId memberAddr dev type
    exact ⟨s', congrArg (Option.map Prod.fst) hrun, hordered⟩
  | delete grpId memberAddr dev => exact h.delete grpId memberAddr dev
  | lookup now addr dev =>
    obtain ⟨s', found, hrun, hordered, -⟩ := h.lookup hz now addr dev
    exact ⟨s', congrArg (Option.map Prod.fst) hrun, hordered⟩
  | igmp clock dst src mem dev => exact h.runCalls hz src dev (igmpSnooping dst mem) clock
  | mld clock turns dst src mem dev => exact h.runCalls hz src dev (mldSnooping turns dst mem) clock
  | delMembers memberAddr dev =>
    exact h.delMembers memberAddr dev (List.finRange maxLenOfMulticastFilterTable)

theorem exists_ordered_run (hz : UInt32) (events : List SnoopEvent) :
    ∃ s, Run.final (snoopStep hz) (some multicastFilterTableInit) events = some s ∧ Ordered s := by
  refine Run.invariant_always (fun o => ∃ s, o = some s ∧ Ordered s) ?_ ⟨_, rfl, ordered_init⟩
  rintro _ event ⟨s, rfl, h⟩
  exact h.step hz event

/-- **In every reachable state the chains, the size, the member lists and the pool are in order**,
whatever the events and the clock. -/
theorem exists_inOrder_run (hz : UInt32) (events : List SnoopEvent) :
    ∃ s, Run.final (snoopStep hz) (some multicastFilterTableInit) events = some s ∧ InOrder s := by
  obtain ⟨s, hrun, hordered⟩ := exists_ordered_run hz events
  exact ⟨s, hrun, hordered.inOrder⟩

end Mt7601.Igmp
