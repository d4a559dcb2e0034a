/-
# Joins

`MulticastFilterTableInsertEntry` looks at `Size` before it looks for the group. When the table is
full it refuses a station even where the group is there, or where an entry of it is too old to be
kept; with one free entry every join goes through (`joins_iff`).
-/
import Mt7601.Igmp.Snooping

namespace Mt7601.Igmp

namespace FilterTable

/-- The member pool is not empty. -/
def PoolLeft (s : FilterTable) : Prop := s.freeEntryList.pHead ≠ none

/-- The group is there. -/
def HasGroup (s : FilterTable) (dev : NetDev) (grpId : Octets 6) : Prop :=
  ∃ i, s.Valid i ∧ isGroup s dev grpId i = true

/-- The station is a member of the group. -/
def Joined (s : FilterTable) (dev : NetDev) (grpId memberAddr : Octets 6) : Prop :=
  ∃ i, s.Valid i ∧ isGroup s dev grpId i = true ∧ isMember s i memberAddr = some true

end FilterTable

open FilterTable

section

variable {s s' : FilterTable} {i : GroupIdx} {addr memberAddr : Octets 6} {dev : NetDev}

/-! ## 1. The pool does not run out while groups go -/

theorem insertTailList_pHead {list : ListHeader MemberIdx} (h : list.pHead ≠ none)
    (next : MemberIdx → Option MemberIdx) (m : MemberIdx) :
    (insertTailList list next m).1.pHead ≠ none := by
  rw [insertTailList]
  cases list.pTail with
  | none => exact Option.some_ne_none m
  | some tail => exact h

theorem FilterTable.PoolLeft.freeGrpMemberEntry (h : s.PoolLeft) (m : MemberIdx) :
    (freeGrpMemberEntry s m).PoolLeft :=
  insertTailList_pHead h s.memberNext m

theorem FilterTable.PoolLeft.deleteIgmpMemberLoop {fuel : Nat} {p : Option MemberIdx} (h : s.PoolLeft)
    (hrun : deleteIgmpMemberLoop i fuel p s = some s') : s'.PoolLeft := by
  induction fuel generalizing s p with
  | zero =>
    cases p with
    | none =>
      cases hrun
      exact h
    | some m => exact nomatch hrun
  | succ fuel ih =>
    cases p with
    | none =>
      cases hrun
      exact h
    | some m =>
      obtain ⟨deleted, -, hrest⟩ := Option.bind_eq_some_iff.mp hrun
      have hunlinked : (s.setMembers i deleted).PoolLeft := h
      exact ih (hunlinked.freeGrpMemberEntry m) hrest

theorem FilterTable.PoolLeft.deleteIgmpMemberList (h : s.PoolLeft)
    (hrun : deleteIgmpMemberList s i = some s') : s'.PoolLeft := by
  rw [Igmp.deleteIgmpMemberList] at hrun
  cases hhead : (s.content i).memberList.pHead with
  | none =>
    rw [hhead] at hrun
    cases hrun
    exact h
  | some head =>
    rw [hhead] at hrun
    obtain ⟨emptied, hloop, hrest⟩ := Option.bind_eq_some_iff.mp hrun
    have hleft := h.deleteIgmpMemberLoop hloop
    cases hrest
    exact hleft

theorem FilterTable.PoolLeft.removeGroup {b : UInt8} {prev : Option GroupIdx} (h : s.PoolLeft)
    (hrun : removeGroup s b prev i = some s') : s'.PoolLeft := by
  obtain ⟨unlinked, hunlink, hrest⟩ := Option.bind_eq_some_iff.mp hrun
  have hunlinked : unlinked.PoolLeft := by
    rw [unlinkGroup] at hunlink
    by_cases hhead : s.hash b = some i
    · rw [if_pos hhead] at hunlink
      cases hunlink
      exact h
    · rw [if_neg hhead] at hunlink
      obtain ⟨j, -, rfl⟩ := Option.map_eq_some_iff.mp hunlink
      exact h
  obtain ⟨emptied, hempty, hset⟩ := Option.bind_eq_some_iff.mp hrest
  have hleft := hunlinked.deleteIgmpMemberList hempty
  cases hset
  exact hleft

theorem FilterTable.PoolLeft.lookupLoop {hz : UInt32} {now : GroupIdx → UInt64} {fuel : Nat}
    {prev p found : Option GroupIdx} (h : s.PoolLeft)
    (hrun : lookupLoop hz now addr dev fuel prev p s = some (s', found)) : s'.PoolLeft := by
  induction fuel generalizing s prev p with
  | zero =>
    cases p with
    | none =>
      cases hrun
      exact h
    | some j => exact nomatch hrun
  | succ fuel ih =>
    cases p with
    | none =>
      cases hrun
      exact h
    | some j =>
      rw [Igmp.lookupLoop] at hrun
      by_cases hvalid : (s.content j).valid = true
      · rw [if_neg (not_not.mpr hvalid)] at hrun
        by_cases hgroup : isGroup s dev addr j = true
        · rw [if_pos hgroup] at hrun
          cases hrun
          exact h
        · rw [if_neg hgroup] at hrun
          by_cases hage : (s.content j).type = .dynamic ∧
              timeAfter (now j) ((s.content j).lastTime + ageoutTime hz).toUInt64 = true
          · rw [if_pos hage] at hrun
            obtain ⟨t, hremove, hrest⟩ := Option.bind_eq_some_iff.mp hrun
            exact ih (h.removeGroup hremove) hrest
          · rw [if_neg hage] at hrun
            exact ih h hrun
      · rw [if_pos hvalid] at hrun
        cases hrun
        exact h

theorem FilterTable.PoolLeft.vacate (h : s.PoolLeft) (hrun : vacate s i = some s') : s'.PoolLeft := by
  rw [Igmp.vacate] at hrun
  by_cases hvalid : (s.content i).valid = true
  · rw [if_pos hvalid] at hrun
    obtain ⟨head, -, hrun⟩ := Option.bind_eq_some_iff.mp hrun
    obtain ⟨⟨prev, found⟩, -, hrun⟩ := Option.bind_eq_some_iff.mp hrun
    refine PoolLeft.deleteIgmpMemberList ?_ hrun
    cases found with
    | none => exact h
    | some j => exact h
  · rw [if_neg hvalid] at hrun
    cases hrun
    exact h

/-! ## 2. A new member -/

theorem isMember_insertIgmpMember {own : Option GroupIdx → List MemberIdx}
    (h : Members s own none) (hleft : s.PoolLeft)
    (hnew : memberAddr ∉ (own (some i)).map s.memberAddr) :
    isMember (insertIgmpMember s i memberAddr) i memberAddr = some true := by
  obtain ⟨own', hmem, -, -, hin⟩ := insertIgmpMember_members h memberAddr hnew
  have hfree : own none ≠ [] := by
    intro hnil
    have hhead := (h.isList none).pHead_eq
    rw [hnil] at hhead
    exact hleft hhead
  rw [isMember_eq hmem i memberAddr, decide_eq_true (hin hfree)]

/-- A member of a group that was there. -/
theorem Ordered.joined_insertIgmpMember (h : Ordered s) (hleft : s.PoolLeft) (hi : s.Valid i)
    (hgroup : isGroup s dev addr i = true) (hout : isMember s i memberAddr = some false) :
    (insertIgmpMember s i memberAddr).Joined dev addr memberAddr := by
  obtain ⟨own, hown, -⟩ := h.members
  rw [isMember_eq hown i memberAddr] at hout
  have hnew : memberAddr ∉ (own (some i)).map s.memberAddr :=
    of_decide_eq_false (Option.some_inj.mp hout)
  obtain ⟨-, -, -, hsame, -⟩ := insertIgmpMember_members hown memberAddr hnew
  refine ⟨i, (hsame.valid_iff i).mpr hi, ?_, isMember_insertIgmpMember hown hleft hnew⟩
  rw [hsame.isGroup]
  exact hgroup

/-- The first member of a new group. -/
theorem Ordered.joined_enterGroup (h : Ordered s) (hleft : s.PoolLeft) (hi : ¬ s.Valid i)
    (type : FilterEntryType) (now : UInt64) :
    (enterGroup s i addr (some memberAddr) dev type now).Joined dev addr memberAddr := by
  let entry : FilterEntry := ⟨true, type, now.toUInt32, dev, addr, initList, none⟩
  obtain ⟨own, hown, hnil, -⟩ := h.setEntry_members hi entry rfl
  have hself : (s.setEntry i entry).content i = entry := content_setEntry_self entry
  have hnew : memberAddr ∉ (own (some i)).map (s.setEntry i entry).memberAddr := by
    rw [hnil]
    exact List.not_mem_nil
  have hentered : (s.setEntry i entry).PoolLeft := hleft
  obtain ⟨-, -, -, hsame, -⟩ := insertIgmpMember_members hown memberAddr hnew
  refine ⟨i, ?_, ?_, isMember_insertIgmpMember hown hentered hnew⟩
  · refine (hsame.valid_iff i).mpr ?_
    rw [Valid, hself]
  · change isGroup (insertIgmpMember (s.setEntry i entry) i memberAddr) dev addr i = true
    rw [hsame.isGroup, isGroup_iff, hself]
    exact ⟨rfl, rfl⟩

/-- A link more leaves the members. -/
theorem FilterTable.Joined.linkGroup {b : UInt8} (h : s.Joined dev addr memberAddr)
    (hrun : linkGroup s i b = some s') : s'.Joined dev addr memberAddr := by
  obtain ⟨p, -, rfl⟩ := Option.map_eq_some_iff.mp hrun
  exact h

/-! ## 3. A join -/

theorem Ordered.joined_insertGroup (h : Ordered s) (hleft : s.PoolLeft)
    (hroom : s.size.toNat < maxLenOfMulticastFilterTable) {hz : UInt32} {clock : Readings}
    {type : FilterEntryType}
    (hrun : insertGroup hz clock s addr (some memberAddr) dev type = some s') :
    s'.Joined dev addr memberAddr := by
  obtain ⟨i, hfind⟩ := h.exists_vacant hroom hz clock.scan
  rw [insertGroup, hfind] at hrun
  obtain ⟨t, hvacate, hlink⟩ := Option.bind_eq_some_iff.mp hrun
  have hleft' := hleft.vacate hvacate
  obtain ⟨hordered, hi⟩ : Ordered t ∧ ¬ t.Valid i := by
    rw [Igmp.vacate] at hvacate
    by_cases hi : (s.content i).valid = true
    · obtain ⟨t', hremove, hordered, hgone⟩ := h.exists_removeAged hi
      rw [if_pos hi, hremove] at hvacate
      cases hvacate
      exact ⟨hordered, hgone.gone⟩
    · rw [if_neg hi] at hvacate
      cases hvacate
      exact ⟨h, hi⟩
  exact (hordered.joined_enterGroup hleft' hi type clock.entered).linkGroup hlink

/-- **With a free entry every join goes through.** -/
theorem Ordered.joined_insertEntry (h : Ordered s) (hleft : s.PoolLeft)
    (hroom : s.size.toNat < maxLenOfMulticastFilterTable) {hz : UInt32} {clock : Readings}
    {type : FilterEntryType} {ok : Bool}
    (hrun : multicastFilterTableInsertEntry hz clock s addr (some memberAddr) dev type =
      some (s', ok)) : s'.Joined dev addr memberAddr := by
  obtain ⟨t, found, hlook, hordered, hsub, hfound, -⟩ := h.lookup hz clock.lookup addr dev
  have hleft' : t.PoolLeft := hleft.lookupLoop hlook
  rw [multicastFilterTableInsertEntry, if_neg (Nat.not_le_of_lt hroom), hlook] at hrun
  dsimp only [Option.bind_eq_bind, Option.bind_some] at hrun
  cases found with
  | none =>
    have hroom' : t.size.toNat < maxLenOfMulticastFilterTable := by
      have hle : (Finset.univ.filter t.Valid).card ≤ (Finset.univ.filter s.Valid).card :=
        Finset.card_le_card (Finset.monotone_filter_right _ fun j _ => hsub j)
      rw [← hordered.size, ← h.size] at hle
      omega
    obtain ⟨inserted, hinsert, hrest⟩ := Option.bind_eq_some_iff.mp hrun
    cases hrest
    exact hordered.joined_insertGroup hleft' hroom' hinsert
  | some i =>
    obtain ⟨hi, hgroup⟩ := hfound i rfl
    obtain ⟨member, hmember, hrest⟩ := Option.bind_eq_some_iff.mp hrun
    cases member with
    | true =>
      cases hrest
      exact ⟨i, hi, hgroup, hmember⟩
    | false =>
      cases hrest
      exact hordered.joined_insertIgmpMember hleft' hi hgroup hmember

end

section

variable (hz : UInt32) (clock : Readings) (s : FilterTable) (grpId memberAddr : Octets 6)
  (dev : NetDev) (type : FilterEntryType)

/-- There is an entry of the pool for the station, and the group is there, or an entry for it. -/
def Joinable : Prop :=
  s.PoolLeft ∧ (s.HasGroup dev grpId ∨ ∃ i, isVacant hz clock.scan s i = true)

/-- The station is a member of the group behind the call. -/
def Joins : Prop :=
  ∃ s' ok, multicastFilterTableInsertEntry hz clock s grpId (some memberAddr) dev type =
    some (s', ok) ∧ s'.Joined dev grpId memberAddr

/-- **A join goes through exactly if the table is not full, or the station is a member already.** -/
theorem joins_iff (events : List SnoopEvent) :
    ∃ s, Run.final (snoopStep hz) (some multicastFilterTableInit) events = some s ∧
      ∀ (clock : Readings) (grpId memberAddr : Octets 6) (dev : NetDev) (type : FilterEntryType),
        (Joinable hz clock s grpId dev → Joins hz clock s grpId memberAddr dev type) ↔
          (Joinable hz clock s grpId dev →
            s.size.toNat < maxLenOfMulticastFilterTable ∨ s.Joined dev grpId memberAddr) := by
  obtain ⟨s, hrun, hordered⟩ := exists_ordered_run hz events
  refine ⟨s, hrun, fun clock grpId memberAddr dev type => forall_congr' fun hjoinable => ?_⟩
  by_cases hfull : maxLenOfMulticastFilterTable ≤ s.size.toNat
  · have hrefused : multicastFilterTableInsertEntry hz clock s grpId (some memberAddr) dev type =
        some (s, false) := if_pos hfull
    rw [or_iff_right (Nat.not_lt_of_le hfull), Joins, hrefused]
    constructor
    · rintro ⟨s', ok, heq, hjoined⟩
      cases heq
      exact hjoined
    · intro hjoined
      exact ⟨s, false, rfl, hjoined⟩
  · have hroom := Nat.lt_of_not_le hfull
    obtain ⟨s', ok, hinsert, -⟩ := hordered.insert hz clock grpId (some memberAddr) dev type
    refine iff_of_true ⟨s', ok, hinsert, ?_⟩ (.inl hroom)
    exact hordered.joined_insertEntry hjoinable.1 hroom hinsert

end

namespace Example

/-- A reading at the start. -/
def startReadings : Readings := ⟨fun _ => 0, fun _ => 0, 0⟩

/-- A group for every entry. -/
def entryGroup (i : GroupIdx) : Octets 6 := ⟨[0x01, 0x00, 0x5e, 0, 0, UInt8.ofNat i.val], rfl⟩

/-- All of them entered by command. -/
def fillTable : List SnoopEvent :=
  (List.finRange maxLenOfMulticastFilterTable).map fun i =>
    .insert startReadings (entryGroup i) none 0 .static

end Example

/-- **A full table refuses a station for a group that it has.** -/
theorem not_joins_fullTable :
    ∃ s, Run.final (snoopStep 100) (some multicastFilterTableInit) Example.fillTable = some s ∧
      Joinable 100 Example.startReadings s (Example.entryGroup 0) 0 ∧
      ¬ Joins 100 Example.startReadings s (Example.entryGroup 0) (.zero 6) 0 .dynamic := by
  obtain ⟨s, hrun, -⟩ := exists_ordered_run 100 Example.fillTable
  have hvalues : (Run.final (snoopStep 100) (some multicastFilterTableInit) Example.fillTable).map
      (fun s => (s.size.toNat, s.freeEntryList.pHead, (s.content 0).valid,
        isGroup s 0 (Example.entryGroup 0) 0,
        (List.finRange maxLenOfMulticastFilterTable).all fun i =>
          isMember s i (.zero 6) == some false)) = some (64, some 0, true, true, true) := by
    decide +kernel
  rw [hrun, Option.map_some, Option.some_inj] at hvalues
  obtain ⟨hsize, hrest⟩ := Prod.mk.inj hvalues
  obtain ⟨hpool, hrest⟩ := Prod.mk.inj hrest
  obtain ⟨hvalid, hrest⟩ := Prod.mk.inj hrest
  obtain ⟨hgroup, hnone⟩ := Prod.mk.inj hrest
  refine ⟨s, hrun, ⟨?_, .inl ⟨0, hvalid, hgroup⟩⟩, ?_⟩
  · rw [PoolLeft, hpool]
    exact Option.some_ne_none 0
  · rintro ⟨s', ok, hinsert, i, -, -, hmember⟩
    rw [multicastFilterTableInsertEntry, if_pos hsize.ge] at hinsert
    cases hinsert
    have hout := List.all_eq_true.mp hnone i (List.mem_finRange i)
    rw [hmember] at hout
    exact absurd hout (by decide)

end Mt7601.Igmp
