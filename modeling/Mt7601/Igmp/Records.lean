/-
# The group records of a report

The loops of `IGMPSnooping` and `MLDSnooping` take the number of records from the report and never
look at its length, and they go on behind `AuxDataLen` octets of auxiliary data where the field
counts words. So a report is read as it is meant exactly if all its records are inside and only the
last has auxiliary data (`snooping_iff`).
-/
import Mt7601.Igmp.Snooping
import Mt7601.Lib.Reading

namespace Mt7601.Igmp

/-! ## 1. The loop, on a packet that has an end -/

/-- The two protocols. -/
inductive Snooped where
  | igmp
  | mld

namespace Snooped

def protoType : Snooped → Nat
  | igmp => ethPIp
  | mld => ethPIpv6

def addrLen : Snooped → Nat
  | igmp => 4
  | mld => 16

/-- What `ConvertMulticastIP2MAC` reads of an address: from where on, and how many octets. -/
def macOctets : Snooped → Nat × Nat
  | igmp => (1, 3)
  | mld => (12, 4)

end Snooped

/-- What is read of a group record. -/
structure GroupRecord where
  pGroup : Nat
  groupType : UInt8
  auxDataLen : Nat
  numOfSources : Nat
  grpId : Octets 6

namespace GroupRecord

/-- The record at an offset. -/
def ofOctets (p : Snooped) (mem : Nat → UInt8) (pGroup : Nat) : GroupRecord where
  pGroup := pGroup
  groupType := mem pGroup
  auxDataLen := (mem (pGroup + 1)).toNat
  numOfSources := ntohs mem (pGroup + 2)
  grpId := convertMulticastIP2MAC p.protoType mem (pGroup + 4)

def call (r : GroupRecord) : List GroupCall := recordCall r.groupType r.numOfSources r.grpId

/-- Where the loop goes on. -/
def next (p : Snooped) (r : GroupRecord) : Nat :=
  r.pGroup + (4 + p.addrLen + r.numOfSources * p.addrLen + r.auxDataLen)

/-- Where the record ends: the auxiliary data is counted in words. -/
def stop (p : Snooped) (r : GroupRecord) : Nat :=
  r.pGroup + (4 + p.addrLen + r.numOfSources * p.addrLen + 4 * r.auxDataLen)

end GroupRecord

/-- The octets of a packet, whatever is behind it. -/
def packetMemory (pkt : List UInt8) (behind : Nat → UInt8) (i : Nat) : UInt8 :=
  if i < pkt.length then pkt.getD i 0 else behind i

/-- A packet with zeros behind it. -/
def packetOctets (pkt : List UInt8) (i : Nat) : UInt8 := pkt.getD i 0

open Checked (access)

def readRecord (p : Snooped) (pkt : List UInt8) (pGroup : Nat) : Checked GroupRecord := do
  access pkt.length pGroup 4
  access pkt.length (pGroup + 4 + p.macOctets.1) p.macOctets.2
  return .ofOctets p (packetOctets pkt) pGroup

def visitRecords (p : Snooped) (pkt : List UInt8) : Nat → Nat → Checked (List GroupRecord)
  | 0, _ => .ok []
  | numOfGroup + 1, pGroup => do
    let r ← readRecord p pkt pGroup
    let rest ← visitRecords p pkt numOfGroup (r.next p)
    return r :: rest

/-- The records of the report with its header at `pHeader`. -/
def visitReport (p : Snooped) (pkt : List UInt8) (pHeader : Nat) : Checked (List GroupRecord) := do
  access pkt.length (pHeader + 6) 2
  visitRecords p pkt (ntohs (packetOctets pkt) (pHeader + 6)) (pHeader + 8)

/-! ## 2. The records of a report -/

/-- As many of the counted records as are inside the packet. -/
def recordsInside (p : Snooped) (pkt : List UInt8) : Nat → Nat → List GroupRecord
  | 0, _ => []
  | numOfGroup + 1, pGroup =>
    let r := GroupRecord.ofOctets p (packetOctets pkt) pGroup
    if r.stop p ≤ pkt.length then r :: recordsInside p pkt numOfGroup (r.stop p) else []

def reportRecords (p : Snooped) (pkt : List UInt8) (pHeader : Nat) : List GroupRecord :=
  if pHeader + 8 ≤ pkt.length then
    recordsInside p pkt (ntohs (packetOctets pkt) (pHeader + 6)) (pHeader + 8)
  else []

/-- **All are inside, and only the last has auxiliary data.** -/
def RecordsFit (p : Snooped) (pkt : List UInt8) : Nat → Nat → Prop
  | 0, _ => True
  | numOfGroup + 1, pGroup =>
    let r := GroupRecord.ofOctets p (packetOctets pkt) pGroup
    r.stop p ≤ pkt.length ∧ (numOfGroup ≠ 0 → r.auxDataLen = 0) ∧
      RecordsFit p pkt numOfGroup (r.stop p)

structure ReportFits (p : Snooped) (pkt : List UInt8) (pHeader : Nat) : Prop where
  header : pHeader + 8 ≤ pkt.length
  records : RecordsFit p pkt (ntohs (packetOctets pkt) (pHeader + 6)) (pHeader + 8)

section

variable {p : Snooped} {pkt : List UInt8} {n pGroup pHeader : Nat} {rs : List GroupRecord}

theorem readRecord_ok {r : GroupRecord} (hr : r = .ofOctets p (packetOctets pkt) pGroup)
    (h : r.stop p ≤ pkt.length) : readRecord p pkt pGroup = .ok r := by
  have hstop : r.stop p = pGroup + (4 + p.addrLen + r.numOfSources * p.addrLen + 4 * r.auxDataLen) := by
    rw [hr]
    rfl
  have hfixed : pGroup + 4 + p.addrLen ≤ pkt.length := by omega
  have hmac : p.macOctets.1 + p.macOctets.2 = p.addrLen := by cases p <;> rfl
  rw [readRecord, Checked.access_ok (by omega), Checked.ok_bind, Checked.access_ok (by omega), hr]
  rfl

theorem readRecord_eq {r : GroupRecord} (h : readRecord p pkt pGroup = .ok r) :
    pGroup + 4 ≤ pkt.length ∧ pGroup + 4 + p.macOctets.1 + p.macOctets.2 ≤ pkt.length ∧
      r = .ofOctets p (packetOctets pkt) pGroup := by
  rw [readRecord, Checked.access_bind_eq_ok, Checked.access_bind_eq_ok] at h
  exact ⟨h.1, h.2.1, (Except.ok.inj h.2.2).symm⟩

/-- The first record that is visited. -/
theorem visitRecords_head (h : visitRecords p pkt (n + 1) pGroup = .ok rs) :
    ∃ rest, rs = .ofOctets p (packetOctets pkt) pGroup :: rest := by
  rw [visitRecords, Checked.bind_eq_ok] at h
  obtain ⟨r, hread, hrest⟩ := h
  obtain ⟨rest, -, hrs⟩ := Checked.bind_eq_ok.mp hrest
  rw [← (readRecord_eq hread).2.2]
  exact ⟨rest, (Except.ok.inj hrs).symm⟩

/-- **The loop visits the records of the report exactly then.** -/
theorem visitRecords_iff :
    visitRecords p pkt n pGroup = .ok (recordsInside p pkt n pGroup) ↔ RecordsFit p pkt n pGroup := by
  induction n generalizing pGroup with
  | zero => exact iff_of_true rfl trivial
  | succ n ih =>
    obtain ⟨r, hr⟩ : ∃ r, r = GroupRecord.ofOctets p (packetOctets pkt) pGroup := ⟨_, rfl⟩
    rw [visitRecords, recordsInside, RecordsFit, Checked.bind_eq_ok, ← hr]
    have hnext : r.auxDataLen = 0 → r.next p = r.stop p := by
      intro hzero
      rw [GroupRecord.next, GroupRecord.stop, hzero, Nat.mul_zero]
    constructor
    · rintro ⟨r', hread, hrest⟩
      obtain rfl : r' = r := (readRecord_eq hread).2.2.trans hr.symm
      obtain ⟨rest, hvisit, hrs⟩ := Checked.bind_eq_ok.mp hrest
      have hrs := Except.ok.inj hrs
      by_cases hinside : r'.stop p ≤ pkt.length
      · rw [if_pos hinside] at hrs
        obtain ⟨-, hrest⟩ := List.cons.inj hrs
        have haux : n ≠ 0 → r'.auxDataLen = 0 := by
          intro hn
          obtain ⟨n, rfl⟩ := Nat.exists_eq_succ_of_ne_zero hn
          -- the next record is where the loop looks for it
          obtain ⟨rest', hhead⟩ := visitRecords_head hvisit
          rw [hhead, recordsInside] at hrest
          split_ifs at hrest
          have hoff : r'.next p = r'.stop p := congrArg GroupRecord.pGroup (List.cons.inj hrest).1
          rw [GroupRecord.next, GroupRecord.stop] at hoff
          omega
        refine ⟨hinside, haux, ih.mp ?_⟩
        cases n with
        | zero => rfl
        | succ n =>
          rw [← hnext (haux n.succ_ne_zero), hvisit, hrest, hnext (haux n.succ_ne_zero)]
      · rw [if_neg hinside] at hrs
        exact nomatch hrs
    · rintro ⟨hinside, haux, hfit⟩
      refine ⟨r, readRecord_ok hr hinside, ?_⟩
      rw [if_pos hinside]
      have hvisit : visitRecords p pkt n (r.next p) = .ok (recordsInside p pkt n (r.stop p)) := by
        cases n with
        | zero => rfl
        | succ n =>
          rw [hnext (haux n.succ_ne_zero)]
          exact ih.mpr hfit
      rw [hvisit]
      rfl

theorem visitReport_iff :
    visitReport p pkt pHeader = .ok (reportRecords p pkt pHeader) ↔ ReportFits p pkt pHeader := by
  rw [visitReport, Checked.access_bind_eq_ok, reportRecords]
  constructor
  · rintro ⟨hheader, hvisit⟩
    rw [if_pos hheader] at hvisit
    exact ⟨hheader, visitRecords_iff.mp hvisit⟩
  · rintro ⟨hheader, hrecords⟩
    rw [if_pos hheader]
    exact ⟨hheader, visitRecords_iff.mpr hrecords⟩

/-! ## 3. Joins and leaves -/

theorem packetMemory_eq (behind : Nat → UInt8) {i : Nat} (h : i < pkt.length) :
    packetMemory pkt behind i = packetOctets pkt i := if_pos h

theorem convertMulticastIP2MAC_congr {mem mem' : Nat → UInt8} {off : Nat}
    (h : ∀ i, p.macOctets.1 ≤ i → i < p.macOctets.1 + p.macOctets.2 → mem (off + i) = mem' (off + i)) :
    convertMulticastIP2MAC p.protoType mem off = convertMulticastIP2MAC p.protoType mem' off := by
  refine Octets.toList_injective ?_
  cases p with
  | igmp =>
    change [0x01, 0x00, 0x5e, mem (off + 1) &&& 0x7f, mem (off + 2), mem (off + 3)] =
      [0x01, 0x00, 0x5e, mem' (off + 1) &&& 0x7f, mem' (off + 2), mem' (off + 3)]
    rw [h 1 (by decide) (by decide), h 2 (by decide) (by decide), h 3 (by decide) (by decide)]
  | mld =>
    change [0x33, 0x33, mem (off + 12), mem (off + 13), mem (off + 14), mem (off + 15)] =
      [0x33, 0x33, mem' (off + 12), mem' (off + 13), mem' (off + 14), mem' (off + 15)]
    rw [h 12 (by decide) (by decide), h 13 (by decide) (by decide), h 14 (by decide) (by decide),
      h 15 (by decide) (by decide)]

/-- What is read of a record does not depend on what is behind the packet. -/
theorem ofOctets_packetMemory (behind : Nat → UInt8) (hfixed : pGroup + 4 ≤ pkt.length)
    (hmac : pGroup + 4 + p.macOctets.1 + p.macOctets.2 ≤ pkt.length) :
    GroupRecord.ofOctets p (packetMemory pkt behind) pGroup = .ofOctets p (packetOctets pkt) pGroup := by
  have hread : ∀ i < pkt.length, packetMemory pkt behind i = packetOctets pkt i :=
    fun i hi => packetMemory_eq behind hi
  have hgrp : convertMulticastIP2MAC p.protoType (packetMemory pkt behind) (pGroup + 4) =
      convertMulticastIP2MAC p.protoType (packetOctets pkt) (pGroup + 4) := by
    refine convertMulticastIP2MAC_congr fun i hi hlast => hread _ ?_
    omega
  rw [GroupRecord.ofOctets, GroupRecord.ofOctets, hgrp, ntohs, ntohs, hread _ (by omega), hread _ (by omega),
    hread _ (by omega), hread _ (by omega)]

/-- **The calls are those of the records that are visited.** -/
theorem recordCalls_eq (behind : Nat → UInt8) (h : visitRecords p pkt n pGroup = .ok rs) :
    recordCalls p.protoType p.addrLen (packetMemory pkt behind) n pGroup =
      rs.flatMap GroupRecord.call := by
  induction n generalizing pGroup rs with
  | zero =>
    cases h
    rfl
  | succ n ih =>
    rw [visitRecords, Checked.bind_eq_ok] at h
    obtain ⟨r, hread, hrest⟩ := h
    obtain ⟨rest, hvisit, hrs⟩ := Checked.bind_eq_ok.mp hrest
    obtain ⟨hfixed, hmac, hr⟩ := readRecord_eq hread
    rw [← ofOctets_packetMemory behind hfixed hmac] at hr
    rw [← Except.ok.inj hrs, List.flatMap_cons, ← ih hvisit, hr]
    rfl

end

namespace Snooped

/-- Where the header of an IGMPv3 or MLDv2 report is. -/
def header (turns : Nat) (dst : Octets 6) (mem : Nat → UInt8) : Snooped → Option Nat
  | igmp =>
    if isIgmpPkt dst mem ∧ mem (2 + (mem 2 &&& 0x0f).toNat * 4) = 0x22 then
      some (2 + (mem 2 &&& 0x0f).toNat * 4)
    else none
  | mld => (isMldPkt turns dst mem).bind fun h => if mem h = 143 then some h else none

def snooping (turns : Nat) (dst : Octets 6) (mem : Nat → UInt8) : Snooped → List GroupCall
  | igmp => igmpSnooping dst mem
  | mld => mldSnooping turns dst mem

theorem snooping_report {p : Snooped} {turns : Nat} {dst : Octets 6} {mem : Nat → UInt8}
    {pHeader : Nat} (h : p.header turns dst mem = some pHeader) :
    p.snooping turns dst mem =
      recordCalls p.protoType p.addrLen mem (ntohs mem (pHeader + 6)) (pHeader + 8) := by
  cases p with
  | igmp =>
    rw [header] at h
    split_ifs at h with hreport
    obtain ⟨hpkt, htype⟩ := hreport
    rw [snooping, igmpSnooping, if_pos hpkt, ← Option.some_inj.mp h]
    dsimp only
    rw [htype]
    rfl
  | mld =>
    obtain ⟨pMldHeader, hpkt, htype⟩ := Option.bind_eq_some_iff.mp h
    split_ifs at htype with hreport
    rw [snooping, mldSnooping, hpkt, ← Option.some_inj.mp htype]
    dsimp only
    rw [hreport]
    rfl

end Snooped

/-- The loop visits the records of the report, reads nothing behind the packet, and the joins and
leaves are those of the records. -/
def ReportMeets (p : Snooped) (turns : Nat) (dst : Octets 6) (pkt : List UInt8)
    (behind : Nat → UInt8) : Prop :=
  ∀ pHeader, p.header turns dst (packetMemory pkt behind) = some pHeader →
    visitReport p pkt pHeader = .ok (reportRecords p pkt pHeader) ∧
      p.snooping turns dst (packetMemory pkt behind) =
        (reportRecords p pkt pHeader).flatMap GroupRecord.call

/-- **A report is taken as it is meant exactly if its records are inside and only the last has
auxiliary data.** -/
theorem snooping_iff (p : Snooped) (turns : Nat) (dst : Octets 6) (pkt : List UInt8)
    (behind : Nat → UInt8) :
    ReportMeets p turns dst pkt behind ↔
      ∀ pHeader, p.header turns dst (packetMemory pkt behind) = some pHeader →
        ReportFits p pkt pHeader := by
  refine forall_congr' fun pHeader => forall_congr' fun hheader => ?_
  rw [visitReport_iff]
  refine and_iff_left_of_imp fun hfits => ?_
  have hvisit := visitReport_iff.mpr hfits
  rw [visitReport, Checked.access_bind_eq_ok] at hvisit
  obtain ⟨hcount, hvisit⟩ := hvisit
  have hnum : ntohs (packetMemory pkt behind) (pHeader + 6) =
      ntohs (packetOctets pkt) (pHeader + 6) := by
    rw [ntohs, ntohs, packetMemory_eq behind (by omega), packetMemory_eq behind (by omega)]
  rw [Snooped.snooping_report hheader, hnum, recordCalls_eq behind hvisit]

/-- A report of two records, the first with a word of auxiliary data. -/
def Example.auxiliaryReport : List UInt8 :=
  [0x08, 0x00,
    0x45, 0, 0, 48, 0, 0, 0, 0, 1, 0x02, 0, 0, 10, 0, 0, 1, 224, 0, 0, 22,
    0x22, 0, 0, 0, 0, 0, 0, 2,
    4, 1, 0, 0, 239, 1, 1, 1, 0, 0, 0, 0,
    4, 0, 0, 0, 239, 1, 1, 2]

/-- **The second record is looked for three octets too early.** -/
theorem not_reportMeets_auxiliary :
    ¬ ReportMeets .igmp 0 ⟨[0x01, 0x00, 0x5e, 0, 0, 22], rfl⟩ Example.auxiliaryReport
      (fun _ => 0) := by
  intro h
  obtain ⟨hvisit, -⟩ := h 22 (by decide +kernel)
  have hoffsets : (visitReport .igmp Example.auxiliaryReport 22).map
      (List.map GroupRecord.pGroup) = .ok [30, 39] := by
    decide +kernel
  have hrecords : (reportRecords .igmp Example.auxiliaryReport 22).map GroupRecord.pGroup =
      [30, 42] := by
    decide +kernel
  rw [hvisit] at hoffsets
  change Except.ok _ = _ at hoffsets
  rw [hrecords] at hoffsets
  exact absurd (Except.ok.inj hoffsets) (by decide)

end Mt7601.Igmp
