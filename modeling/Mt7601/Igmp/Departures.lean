/-
# Departures

`IgmpGroupDelMembers` takes a station off the list of every group, whatever its device, but lets go of
empty groups under the device it is given only. Other members and groups stay (`Shrinks`); the
station's memberships under other devices are lost, and empty groups there are left (`departures_iff`).
-/
import Mt7601.Igmp.Joins

namespace Mt7601.Igmp

open FilterTable

/-! ## 1. What is to hold -/

/-- The station is on the list of group `i`. -/
def FilterTable.Has (s : FilterTable) (i : GroupIdx) (a : Octets 6) : Prop :=
  isMember s i a = some true

section

variable (memberAddr : Octets 6) (dev : NetDev) (s s' : FilterTable)

/-- **The station has left the groups of its device**, all other memberships are as they were, and no
dynamic group is empty. -/
structure Departed : Prop where
  gone : ∀ grpId, ¬ s'.Joined dev grpId memberAddr
  others : ∀ dev' grpId a, dev' ≠ dev ∨ a ≠ memberAddr →
    (s'.Joined dev' grpId a ↔ s.Joined dev' grpId a)
  peopled : ∀ i, s'.Valid i → (s'.content i).type = .dynamic → ∃ a, s'.Has i a

/-- Under other devices the station is in no group, and no dynamic group is empty. -/
def AloneUnder : Prop :=
  ∀ i, s.Valid i → (s.content i).netDev ≠ dev →
    ¬ s.Has i memberAddr ∧ ((s.content i).type = .dynamic → ∃ a, s.Has i a)

/-- `s'` is `s` without some memberships of the station, and without some groups of the device that
had no other member. -/
structure Shrinks : Prop where
  old : ∀ i, s'.Valid i → s.Valid i ∧ (s'.content i).type = (s.content i).type ∧
    (s'.content i).netDev = (s.content i).netDev ∧ (s'.content i).addr = (s.content i).addr
  has : ∀ i a, s'.Valid i → s'.Has i a → s.Has i a
  kept : ∀ i a, s'.Valid i → a ≠ memberAddr → s.Has i a → s'.Has i a
  dropped : ∀ i, s.Valid i → ¬ s'.Valid i →
    (s.content i).netDev = dev ∧ ∀ a, s.Has i a → a = memberAddr

/-- How a turn leaves a group. -/
def Settled (i : GroupIdx) : Prop :=
  s.Valid i → ¬ s.Has i memberAddr ∧
    ((s.content i).netDev = dev → (s.content i).type = .dynamic → ∃ a, s.Has i a)

end

section

variable {s s' t : FilterTable} {i j : GroupIdx} {memberAddr : Octets 6} {dev : NetDev}

theorem Shrinks.refl (s : FilterTable) : Shrinks memberAddr dev s s :=
  ⟨fun _ hi => ⟨hi, rfl, rfl, rfl⟩, fun _ _ _ => id, fun _ _ _ _ => id, fun _ hi hi' => absurd hi hi'⟩

theorem Shrinks.trans (h : Shrinks memberAddr dev s s') (h' : Shrinks memberAddr dev s' t) :
    Shrinks memberAddr dev s t where
  old := by
    intro i hi
    obtain ⟨hi', htype', hdev', haddr'⟩ := h'.old i hi
    obtain ⟨hi, htype, hdev, haddr⟩ := h.old i hi'
    exact ⟨hi, htype'.trans htype, hdev'.trans hdev, haddr'.trans haddr⟩
  has := fun i a hi hin => h.has i a (h'.old i hi).1 (h'.has i a hi hin)
  kept := fun i a hi ha hin => h'.kept i a hi ha (h.kept i a (h'.old i hi).1 ha hin)
  dropped := by
    intro i hi hgone
    by_cases hi' : s'.Valid i
    · obtain ⟨hdev, hnone⟩ := h'.dropped i hi' hgone
      refine ⟨(h.old i hi').2.2.1.symm.trans hdev, fun a hin => ?_⟩
      by_contra ha
      exact ha (hnone a (h.kept i a hi' ha hin))
    · exact h.dropped i hi hi'

/-- What is settled stays so. -/
theorem Settled.shrinks (h : Settled memberAddr dev s i) (hshrinks : Shrinks memberAddr dev s s') :
    Settled memberAddr dev s' i := by
  intro hi
  obtain ⟨hold, htype, hdev, -⟩ := hshrinks.old i hi
  obtain ⟨hout, hpeopled⟩ := h hold
  refine ⟨fun hin => hout (hshrinks.has i _ hi hin), fun hd ht => ?_⟩
  rw [hdev] at hd
  rw [htype] at ht
  obtain ⟨a, hin⟩ := hpeopled hd ht
  exact ⟨a, hshrinks.kept i a hi (fun ha => hout (ha ▸ hin)) hin⟩

/-! ## 2. Lists of members -/

theorem Members.has_iff {own : Option GroupIdx → List MemberIdx} (h : Members s own none)
    {a : Octets 6} : s.Has i a ↔ a ∈ (own (some i)).map s.memberAddr := by
  rw [Has, isMember_eq h, Option.some_inj, decide_eq_true_iff]

theorem Members.igmpMemberCnt_eq_zero {own : Option GroupIdx → List MemberIdx}
    (h : Members s own none) : igmpMemberCnt s i = 0 ↔ ∀ a, ¬ s.Has i a := by
  have hsize : (igmpMemberCnt s i).toNat = (own (some i)).length := (h.isList (some i)).size
  have hzero : igmpMemberCnt s i = 0 ↔ own (some i) = [] := by
    rw [← List.length_eq_zero_iff, ← hsize, ← UInt8.toNat_inj]
    rfl
  rw [hzero, ← List.map_eq_nil_iff (f := s.memberAddr), List.eq_nil_iff_forall_not_mem]
  exact forall_congr' fun a => not_congr h.has_iff.symm

/-- **The station leaves one list.** -/
theorem Ordered.leave (h : Ordered s) (i : GroupIdx) (memberAddr : Octets 6) :
    ∃ s', deleteIgmpMember s i memberAddr = some s' ∧ Ordered s' ∧ SameGroups s s' ∧
      ∀ j a, s'.Has j a ↔ s.Has j a ∧ ¬ (j = i ∧ a = memberAddr) := by
  obtain ⟨own, hown, hfree⟩ := h.members
  obtain ⟨q, hwalk⟩ := walk_members hown i memberAddr
  cases hfind : (own (some i)).find? fun m => decide (s.memberAddr m = memberAddr) with
  | none =>
    refine ⟨s, ?_, h, .refl s, fun j a => ⟨fun hin => ⟨hin, ?_⟩, And.left⟩⟩
    · rw [deleteIgmpMember, hwalk, hfind]
      rfl
    · rintro ⟨rfl, rfl⟩
      obtain ⟨m, hm, haddr⟩ := List.mem_map.mp (hown.has_iff.mp hin)
      exact List.find?_eq_none.mp hfind m hm (decide_eq_true haddr)
  | some m =>
    have haddr : s.memberAddr m = memberAddr := by simpa using List.find?_some hfind
    obtain ⟨l, r, hsplit⟩ := List.append_of_mem (List.mem_of_find?_eq_some hfind)
    obtain ⟨deleted, s', own', hdel, hput, hown', hrest, hother, hsame, -⟩ :=
      release_members hown hsplit
    have hstay : s'.memberAddr = s.memberAddr := by
      rw [← hput]
      rfl
    refine ⟨s', ?_, h.of_sameGroups hsame ⟨own', hown', fun j hj => ?_⟩, hsame, fun j a => ?_⟩
    · rw [deleteIgmpMember, hwalk, hfind, ← hput]
      exact congrArg (fun o => o >>= fun d => some (freeGrpMemberEntry (s.setMembers i d) m)) hdel
    · have hold := hfree j fun hv => hj ((hsame.valid_iff j).mpr hv)
      by_cases hji : j = i
      · rw [hji, hsplit] at hold
        exact absurd hold (by simp)
      · rw [hother j hji, hold]
    · rw [hown'.has_iff, hown.has_iff, hstay]
      by_cases hji : j = i
      · have hnodup := hown.stations i
        rw [hsplit, List.map_append, List.map_cons, haddr, List.nodup_middle, List.nodup_cons] at hnodup
        rw [hji, hrest, hsplit]
        simp only [List.map_append, List.map_cons, haddr, List.mem_append, List.mem_cons] at hnodup ⊢
        grind
      · rw [hother j hji]
        simp [hji]

/-- A list that loses the station. -/
theorem Shrinks.of_leave (hsame : SameGroups s s')
    (hhas : ∀ j a, s'.Has j a ↔ s.Has j a ∧ ¬ (j = i ∧ a = memberAddr)) :
    Shrinks memberAddr dev s s' where
  old := fun j hj => ⟨(hsame.valid_iff j).mp hj, hsame.type j, hsame.netDev j, hsame.addr j⟩
  has := fun j a _ hin => ((hhas j a).mp hin).1
  kept := fun j a _ ha hin => (hhas j a).mpr ⟨hin, fun hboth => ha hboth.2⟩
  dropped := fun j hj hgone => absurd ((hsame.valid_iff j).mpr hj) hgone

/-! ## 3. A group goes -/

theorem deleteIgmpMemberLoop_memberAddr {fuel : Nat} {p : Option MemberIdx}
    (hrun : deleteIgmpMemberLoop i fuel p s = some s') : s'.memberAddr = s.memberAddr := by
  induction fuel generalizing s p with
  | zero =>
    cases p with
    | none => cases hrun; rfl
    | some m => exact nomatch hrun
  | succ fuel ih =>
    cases p with
    | none => cases hrun; rfl
    | some m =>
      obtain ⟨deleted, -, hrest⟩ := Option.bind_eq_some_iff.mp hrun
      exact (ih (s := freeGrpMemberEntry (s.setMembers i deleted) m) hrest).trans rfl

theorem deleteIgmpMemberList_memberAddr (hrun : deleteIgmpMemberList s i = some s') :
    s'.memberAddr = s.memberAddr := by
  rw [deleteIgmpMemberList] at hrun
  cases hhead : (s.content i).memberList.pHead with
  | none =>
    rw [hhead] at hrun
    cases hrun
    rfl
  | some head =>
    rw [hhead] at hrun
    obtain ⟨emptied, hloop, hrest⟩ := Option.bind_eq_some_iff.mp hrun
    cases hrest
    exact (deleteIgmpMemberLoop_memberAddr hloop :)

/-- **Other groups keep their members** when a group goes. -/
theorem Ordered.has_removeGroup (h : Ordered s) {b : UInt8} {prev : Option GroupIdx}
    (hrun : removeGroup s b prev i = some s') (hj : j ≠ i) :
    (s'.content j).type = (s.content j).type ∧ ∀ a, s'.Has j a ↔ s.Has j a := by
  obtain ⟨u, hunlink, hrest⟩ := Option.bind_eq_some_iff.mp hrun
  obtain ⟨p, rfl⟩ : ∃ p, u = s.relink p := by
    rw [unlinkGroup] at hunlink
    split_ifs at hunlink
    · exact ⟨_, (Option.some.inj hunlink).symm⟩
    · obtain ⟨k, -, rfl⟩ := Option.map_eq_some_iff.mp hunlink
      exact ⟨_, rfl⟩
  obtain ⟨own, hown, -⟩ := h.members
  have hunlinked : Members (s.relink p) own none := hown.congr (lists_relink p) rfl rfl
  obtain ⟨t, own', hdel, hown', -, hkeep, hsame⟩ := deleteIgmpMemberList_members hunlinked i
  rw [hdel] at hrest
  have hout : { t.setEntry i {} with size := t.size - 1 } = s' := Option.some.inj hrest
  have hcontent : s'.content j = t.content j := by
    rw [← hout]
    exact content_setEntry_of_ne {} hj
  refine ⟨?_, fun a => ?_⟩
  · rw [hcontent, hsame.type j]
    rfl
  · have hsameList : s'.Has j a ↔ t.Has j a := by
      rw [Has, isMember, hcontent, ← hout]
      rfl
    rw [hsameList, hown'.has_iff, hown.has_iff, hkeep j hj, deleteIgmpMemberList_memberAddr hdel]
    rfl

/-- An empty group of the device goes. -/
theorem Ordered.shrinks_removeGroup (h : Ordered s) {b : UInt8} {prev : Option GroupIdx}
    (hrun : removeGroup s b prev i = some s') (hgone : GroupGone i s s')
    (hdev : (s.content i).netDev = dev) (hempty : ∀ a, ¬ s.Has i a) :
    Shrinks memberAddr dev s s' where
  old := by
    intro j hj
    obtain ⟨hold, hji⟩ := (hgone.valid_iff j).mp hj
    exact ⟨hold, (h.has_removeGroup hrun hji).1, (hgone.other j hji).2⟩
  has := fun j a hj => ((h.has_removeGroup hrun ((hgone.valid_iff j).mp hj).2).2 a).mp
  kept := fun j a hj _ => ((h.has_removeGroup hrun ((hgone.valid_iff j).mp hj).2).2 a).mpr
  dropped := by
    intro j hj hj'
    have hji : j = i := by
      by_contra hne
      exact hj' ((hgone.valid_iff j).mpr ⟨hj, hne⟩)
    rw [hji]
    exact ⟨hdev, fun a hin => absurd hin (hempty a)⟩

/-- **A deletion shrinks the table**, and lets go of the group if it has no other member. -/
theorem Ordered.shrinks_delete (h : Ordered s) (grpId memberAddr : Octets 6) (dev : NetDev) :
    ∃ s', multicastFilterTableDeleteEntry s grpId (some memberAddr) dev = some s' ∧ Ordered s' ∧
      Shrinks memberAddr dev s s' ∧
      ∀ i, s.Valid i → isGroup s dev grpId i = true → (∀ a, ¬ s.Has i a) → ¬ s'.Valid i := by
  obtain ⟨prev, found, hwalk, hnone, hfound⟩ := h.walk_delete grpId dev
  rw [multicastFilterTableDeleteEntry, hwalk]
  cases found with
  | none =>
    refine ⟨s, rfl, h, .refl s, fun i hi hgroup => ?_⟩
    exact absurd hgroup (Bool.eq_false_iff.mp (hnone rfl i hi))
  | some i =>
    obtain ⟨hi, hgroup, l, r, hl, hprev⟩ := hfound i rfl
    obtain ⟨hdev, haddr⟩ := (isGroup_iff i).mp hgroup
    have honly : ∀ j, s.Valid j → isGroup s dev grpId j = true → j = i := by
      intro j hj hgroup'
      obtain ⟨hdev', haddr'⟩ := (isGroup_iff j).mp hgroup'
      exact h.unique j i hj hi (hdev'.trans hdev.symm) (haddr'.trans haddr.symm)
    obtain ⟨left, hleave, hordered, hsame, hhas⟩ := h.leave i memberAddr
    have hshrinks : Shrinks memberAddr dev s left := .of_leave hsame hhas
    obtain ⟨own, hown, -⟩ := hordered.members
    dsimp only [Option.bind_eq_bind, Option.bind_some, leaveGroup]
    rw [hleave, Option.bind_some]
    by_cases hcnt : igmpMemberCnt left i = 0
    · have hchain : Chain.Linked left.next (left.hash (multicastAddrHashIndex grpId))
          (l ++ i :: r) := by
        rw [hsame.hash]
        exact hl.congr fun j _ => hsame.next j
      obtain ⟨s', hremove, hordered', hgone, -⟩ := hordered.exists_removeGroup hchain hprev
      rw [if_neg fun hpos => absurd hcnt (UInt8.pos_iff_ne_zero.mp hpos.2)]
      refine ⟨s', hremove, hordered', hshrinks.trans ?_, fun j hj hgroup' _ => ?_⟩
      · exact hordered.shrinks_removeGroup hremove hgone ((hsame.netDev i).trans hdev)
          (hown.igmpMemberCnt_eq_zero.mp hcnt)
      · rw [honly j hj hgroup']
        exact hgone.gone
    · rw [if_pos ⟨rfl, UInt8.pos_iff_ne_zero.mpr hcnt⟩]
      refine ⟨left, rfl, hordered, hshrinks, fun j hj hgroup' hempty => ?_⟩
      rw [honly j hj hgroup'] at hempty
      exact absurd (hown.igmpMemberCnt_eq_zero.mpr fun a hin => hempty a ((hhas i a).mp hin).1) hcnt

/-! ## 4. A station goes -/

theorem Ordered.shrinks_turn (h : Ordered s) (memberAddr : Octets 6) (dev : NetDev) (i : GroupIdx) :
    ∃ s', groupDelMember (some memberAddr) dev s i = some s' ∧ Ordered s' ∧
      Shrinks memberAddr dev s s' ∧ Settled memberAddr dev s' i := by
  rw [groupDelMember]
  by_cases hi : (s.content i).valid = true
  · obtain ⟨left, hleave, hordered, hsame, hhas⟩ := h.leave i memberAddr
    have hshrinks : Shrinks memberAddr dev s left := .of_leave hsame hhas
    have hout : ¬ left.Has i memberAddr := fun hin => ((hhas i _).mp hin).2 ⟨rfl, rfl⟩
    obtain ⟨own, hown, -⟩ := hordered.members
    rw [if_pos hi]
    dsimp only [Option.bind_eq_bind, leaveGroup]
    rw [hleave, Option.bind_some]
    by_cases hlast : (left.content i).type = .dynamic ∧ igmpMemberCnt left i = 0
    · rw [if_pos hlast]
      obtain ⟨s', hrun, hordered', hshrinks', hgone⟩ :=
        hordered.shrinks_delete (left.content i).addr memberAddr dev
      have hempty := hown.igmpMemberCnt_eq_zero.mp hlast.2
      refine ⟨s', hrun, hordered', hshrinks.trans hshrinks', fun hi' => ?_⟩
      obtain ⟨hold, -, hdev', -⟩ := hshrinks'.old i hi'
      refine ⟨fun hin => hout (hshrinks'.has i _ hi' hin), fun hdev => absurd hi' ?_⟩
      exact hgone i hold ((isGroup_iff i).mpr ⟨hdev'.symm.trans hdev, rfl⟩) hempty
    · rw [if_neg hlast]
      refine ⟨left, rfl, hordered, hshrinks, fun _ => ⟨hout, fun _ htype => ?_⟩⟩
      by_contra hnone
      exact hlast ⟨htype, hown.igmpMemberCnt_eq_zero.mpr (not_exists.mp hnone)⟩
  · rw [if_neg hi]
    exact ⟨s, rfl, h, .refl s, fun hi' => absurd hi' hi⟩

/-- **All turns**, by one after the other: what one has settled the next leave so. -/
theorem Ordered.shrinks_delMembers (h : Ordered s) (memberAddr : Octets 6) (dev : NetDev)
    (groups : List GroupIdx) :
    ∃ s', groups.foldlM (groupDelMember (some memberAddr) dev) s = some s' ∧ Ordered s' ∧
      Shrinks memberAddr dev s s' ∧ ∀ i ∈ groups, Settled memberAddr dev s' i := by
  induction groups generalizing s with
  | nil => exact ⟨s, rfl, h, .refl s, nofun⟩
  | cons i groups ih =>
    obtain ⟨t, hturn, hordered, hshrinks, hsettled⟩ := h.shrinks_turn memberAddr dev i
    obtain ⟨s', hrun, hordered', hshrinks', hrest⟩ := ih hordered
    rw [List.foldlM_cons, hturn]
    exact ⟨s', hrun, hordered', hshrinks.trans hshrinks',
      List.forall_mem_cons.mpr ⟨hsettled.shrinks hshrinks', hrest⟩⟩

/-- When what is left meets the law. -/
theorem Shrinks.departed_iff (h : Shrinks memberAddr dev s s')
    (hsettled : ∀ i, Settled memberAddr dev s' i) :
    Departed memberAddr dev s s' ↔ AloneUnder memberAddr dev s := by
  have hgroup : ∀ i dev' grpId, s'.Valid i → isGroup s' dev' grpId i = isGroup s dev' grpId i := by
    intro i dev' grpId hi
    obtain ⟨-, -, hdev, haddr⟩ := h.old i hi
    rw [isGroup, hdev, haddr, isGroup]
  constructor
  · intro hlaw i hi hdev
    have hi' : s'.Valid i := by
      by_contra hgone
      exact hdev (h.dropped i hi hgone).1
    refine ⟨fun hin => ?_, fun htype => ?_⟩
    · obtain ⟨j, hj, -, hin'⟩ := (hlaw.others _ (s.content i).addr memberAddr (.inl hdev)).mpr
        ⟨i, hi, (isGroup_iff i).mpr ⟨rfl, rfl⟩, hin⟩
      exact (hsettled j hj).1 hin'
    · obtain ⟨a, hin⟩ := hlaw.peopled i hi' ((h.old i hi').2.1.trans htype)
      exact ⟨a, h.has i a hi' hin⟩
  · intro halone
    refine ⟨?_, fun dev' grpId a hother => ⟨?_, ?_⟩, fun i hi htype => ?_⟩
    · rintro grpId ⟨i, hi, -, hin⟩
      exact (hsettled i hi).1 hin
    · rintro ⟨i, hi, hg, hin⟩
      exact ⟨i, (h.old i hi).1, hgroup i dev' grpId hi ▸ hg, h.has i a hi hin⟩
    · rintro ⟨i, hi, hg, hin⟩
      have hdev := ((isGroup_iff i).mp hg).1
      have ha : a ≠ memberAddr := by
        rintro rfl
        have hne : dev' ≠ dev := hother.resolve_right fun hne => hne rfl
        exact (halone i hi (hdev ▸ hne)).1 hin
      have hi' : s'.Valid i := by
        by_contra hgone
        exact ha ((h.dropped i hi hgone).2 a hin)
      exact ⟨i, hi', (hgroup i dev' grpId hi').trans hg, h.kept i a hi' ha hin⟩
    · obtain ⟨hold, htype', hdev', -⟩ := h.old i hi
      by_cases hdev : (s'.content i).netDev = dev
      · exact (hsettled i hi).2 hdev htype
      · obtain ⟨hout, hpeopled⟩ := halone i hold (hdev' ▸ hdev)
        obtain ⟨a, hin⟩ := hpeopled (htype'.symm.trans htype)
        exact ⟨a, h.kept i a hi (fun ha => hout (ha ▸ hin)) hin⟩

theorem Ordered.shrinks_igmpGroupDelMembers (h : Ordered s) (memberAddr : Octets 6) (dev : NetDev) :
    ∃ s', igmpGroupDelMembers s (some memberAddr) dev = some s' ∧ Shrinks memberAddr dev s s' ∧
      ∀ i, Settled memberAddr dev s' i := by
  obtain ⟨s', hdel, -, hshrinks, hsettled⟩ := h.shrinks_delMembers memberAddr dev (List.finRange _)
  exact ⟨s', hdel, hshrinks, fun i => hsettled i (List.mem_finRange i)⟩

end

section

variable (hz : UInt32) (events : List SnoopEvent)

/-- **A station that goes is a member of no group**, of any device; the memberships of the others and
the groups that have other members stay, whatever came before. -/
theorem exists_shrinks_run :
    ∃ s, Run.final (snoopStep hz) (some multicastFilterTableInit) events = some s ∧
      ∀ (memberAddr : Octets 6) (dev : NetDev), ∃ s',
        igmpGroupDelMembers s (some memberAddr) dev = some s' ∧ Shrinks memberAddr dev s s' ∧
          ∀ i, s'.Valid i → ¬ s'.Has i memberAddr := by
  obtain ⟨s, hrun, hordered⟩ := exists_ordered_run hz events
  refine ⟨s, hrun, fun memberAddr dev => ?_⟩
  obtain ⟨s', hdel, hshrinks, hsettled⟩ := hordered.shrinks_igmpGroupDelMembers memberAddr dev
  exact ⟨s', hdel, hshrinks, fun i hi => (hsettled i hi).1⟩

/-- **A departure is clean exactly if the station is in no group of another device, and no dynamic
group there is empty.** -/
theorem departures_iff :
    ∃ s, Run.final (snoopStep hz) (some multicastFilterTableInit) events = some s ∧
      ∀ (memberAddr : Octets 6) (dev : NetDev),
        (∃ s', igmpGroupDelMembers s (some memberAddr) dev = some s' ∧
          Departed memberAddr dev s s') ↔ AloneUnder memberAddr dev s := by
  obtain ⟨s, hrun, hordered⟩ := exists_ordered_run hz events
  refine ⟨s, hrun, fun memberAddr dev => ?_⟩
  obtain ⟨s', hdel, hshrinks, hsettled⟩ := hordered.shrinks_igmpGroupDelMembers memberAddr dev
  rw [← hshrinks.departed_iff hsettled, hdel]
  simp only [Option.some_inj, exists_eq_left']

end

namespace Example

/-- A station joins a group of device 1. -/
def joinsDeviceOne : List SnoopEvent :=
  [.insert startReadings (entryGroup 0) (some (.zero 6)) 1 .dynamic]

end Example

/-- **It is lost to the station, and left empty,** when the station goes from device 0. -/
theorem not_departed_deviceZero :
    ∃ s, Run.final (snoopStep 100) (some multicastFilterTableInit) Example.joinsDeviceOne = some s ∧
      ¬ ∃ s', igmpGroupDelMembers s (some (.zero 6)) 0 = some s' ∧ Departed (.zero 6) 0 s s' := by
  obtain ⟨s, hrun, hordered⟩ := exists_ordered_run 100 Example.joinsDeviceOne
  have hvalues : (Run.final (snoopStep 100) (some multicastFilterTableInit)
      Example.joinsDeviceOne).map (fun s =>
        ((s.content 0).valid, (s.content 0).netDev, isMember s 0 (.zero 6))) =
      some (true, 1, some true) := by decide +kernel
  rw [hrun, Option.map_some, Option.some_inj, Prod.mk.injEq, Prod.mk.injEq] at hvalues
  obtain ⟨hvalid, hdev, hin⟩ := hvalues
  refine ⟨s, hrun, ?_⟩
  rintro ⟨s', hdel, hlaw⟩
  obtain ⟨t, ht, hshrinks, hsettled⟩ := hordered.shrinks_igmpGroupDelMembers (.zero 6) 0
  cases Option.some.inj (ht.symm.trans hdel)
  exact ((hshrinks.departed_iff hsettled).mp hlaw 0 hvalid (by rw [hdev]; decide)).1 hin

end Mt7601.Igmp
