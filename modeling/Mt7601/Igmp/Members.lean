/-
# The members of the groups, and the pool they come from

Every entry of `freeMemberPool` is on one list: the free list, or the member list of a group
(`Members`). The functions move an entry from one list to another; in between it is on none (`out`).
An insertion takes the first free entry, if there is one; a deletion gives back what it takes.
-/
import Mt7601.Igmp.FilterTable

namespace Mt7601.Igmp

/-! ## 1. The lists of the pool -/

/-- The free list (`none`) and the member list of a group. -/
def FilterTable.lists (s : FilterTable) : Option GroupIdx → ListHeader MemberIdx
  | none => s.freeEntryList
  | some i => (s.content i).memberList

/-- **`own b` are the entries on list `b`.** Every entry is on one list, but for `out`, which is on
none, and no two members of a group have the same address. -/
structure Members (s : FilterTable) (own : Option GroupIdx → List MemberIdx)
    (out : Option MemberIdx) : Prop where
  isList : ∀ b, IsList s.memberNext (s.lists b) (own b)
  apart : ∀ b c, b ≠ c → ∀ m ∈ own b, m ∉ own c
  cover : ∀ m, (∃ b, m ∈ own b) ↔ out ≠ some m
  stations : ∀ i, ((own (some i)).map s.memberAddr).Nodup

/-- `s'` is `s` but for the pool and the member lists. -/
structure SameGroups (s s' : FilterTable) : Prop where
  size : s'.size = s.size
  hash : s'.hash = s.hash
  content : ∀ i, s'.content i = { s.content i with memberList := (s'.content i).memberList }

section

variable {s s' t : FilterTable} {own : Option GroupIdx → List MemberIdx} {b : Option GroupIdx}
variable {i j : GroupIdx} {m : MemberIdx} {a r : List MemberIdx}

theorem SameGroups.refl (s : FilterTable) : SameGroups s s := ⟨rfl, rfl, fun _ => rfl⟩

theorem SameGroups.trans (h : SameGroups s s') (h' : SameGroups s' t) : SameGroups s t where
  size := h'.size.trans h.size
  hash := h'.hash.trans h.hash
  content := by
    intro i
    rw [h'.content i, h.content i]

theorem SameGroups.valid (h : SameGroups s s') (i : GroupIdx) :
    (s'.content i).valid = (s.content i).valid := by rw [h.content i]

theorem SameGroups.type (h : SameGroups s s') (i : GroupIdx) :
    (s'.content i).type = (s.content i).type := by rw [h.content i]

theorem SameGroups.netDev (h : SameGroups s s') (i : GroupIdx) :
    (s'.content i).netDev = (s.content i).netDev := by rw [h.content i]

theorem SameGroups.addr (h : SameGroups s s') (i : GroupIdx) :
    (s'.content i).addr = (s.content i).addr := by rw [h.content i]

theorem SameGroups.next (h : SameGroups s s') (i : GroupIdx) : s'.next i = s.next i := by
  rw [FilterTable.next, h.content i, FilterTable.next]

theorem SameGroups.isGroup (h : SameGroups s s') (dev : NetDev) (addr : Octets 6) (i : GroupIdx) :
    isGroup s' dev addr i = isGroup s dev addr i := by
  rw [Igmp.isGroup, h.netDev i, h.addr i, Igmp.isGroup]

@[simp] theorem FilterTable.content_setEntry_self (e : FilterEntry) :
    (s.setEntry i e).content i = e :=
  Function.update_self ..

theorem FilterTable.content_setEntry_of_ne (e : FilterEntry) (h : j ≠ i) :
    (s.setEntry i e).content j = s.content j :=
  Function.update_of_ne h ..

open FilterTable

theorem sameGroups_setMembers (s : FilterTable) (i : GroupIdx)
    (p : ListHeader MemberIdx × (MemberIdx → Option MemberIdx)) :
    SameGroups s (s.setMembers i p) where
  size := rfl
  hash := rfl
  content := by
    intro j
    by_cases hj : j = i
    · rw [hj, setMembers, content_setEntry_self]
    · rw [setMembers, content_setEntry_of_ne _ hj]

theorem lists_setMembers_self (p : ListHeader MemberIdx × (MemberIdx → Option MemberIdx)) :
    (s.setMembers i p).lists (some i) = p.1 := by
  rw [lists, setMembers, content_setEntry_self]

theorem lists_setMembers_of_ne (p : ListHeader MemberIdx × (MemberIdx → Option MemberIdx))
    (h : b ≠ some i) : (s.setMembers i p).lists b = s.lists b := by
  cases b with
  | none => rfl
  | some j =>
    have hj : j ≠ i := by
      rintro rfl
      exact h rfl
    rw [lists, setMembers, content_setEntry_of_ne _ hj, lists]

/-- There are few enough entries for a list to count them. -/
theorem length_lt_of_isList {next : MemberIdx → Option MemberIdx} {list : ListHeader MemberIdx}
    {l : List MemberIdx} (h : IsList next list l) : l.length ≤ freeMemberPoolSize :=
  h.linked.length_le.trans_eq (Fintype.card_fin freeMemberPoolSize)

/-! ## 2. One entry moves -/

/-- An entry is taken out of list `b`. -/
theorem Members.takeOut (h : Members s own none) (hb : own b = a ++ m :: r)
    (hl : IsList s'.memberNext (s'.lists b) (a ++ r)) (hother : ∀ c ≠ b, s'.lists c = s.lists c)
    (hnext : ∀ k ∉ a, s'.memberNext k = s.memberNext k) (haddr : s'.memberAddr = s.memberAddr) :
    Members s' (Function.update own b (a ++ r)) (some m) := by
  have hnodup := (h.isList b).nodup
  rw [hb] at hnodup
  have hsub : ∀ k, k ∈ a ++ r → k ∈ own b := by
    intro k hk
    rw [hb]
    rcases List.mem_append.mp hk with hk | hk
    · exact List.mem_append_left _ hk
    · exact List.mem_append_right a (List.mem_cons_of_mem m hk)
  have hgone : m ∉ a ++ r := by
    intro hk
    rcases List.mem_append.mp hk with hk | hk
    · exact (List.nodup_append.mp hnodup).2.2 m hk m (List.mem_cons_self ..) rfl
    · exact (List.nodup_cons.mp (List.nodup_append.mp hnodup).2.1).1 hk
  have hmb : m ∈ own b := by
    rw [hb]
    exact List.mem_append_right a (List.mem_cons_self ..)
  refine ⟨fun c => ?_, fun c d hcd k hk => ?_, fun k => ?_, fun i => ?_⟩
  · by_cases hc : c = b
    · rw [hc, Function.update_self]
      exact hl
    · rw [Function.update_of_ne hc, hother c hc]
      refine (h.isList c).congr fun k hk => hnext k fun hka => ?_
      exact h.apart c b hc k hk (hsub k (List.mem_append_left r hka))
  · by_cases hc : c = b
    · rw [hc, Function.update_self] at hk
      rw [Function.update_of_ne (hc ▸ hcd.symm)]
      exact h.apart b d (hc ▸ hcd) k (hsub k hk)
    · rw [Function.update_of_ne hc] at hk
      by_cases hd : d = b
      · rw [hd, Function.update_self]
        exact fun hkb => h.apart c b hc k hk (hsub k hkb)
      · rw [Function.update_of_ne hd]
        exact h.apart c d hcd k hk
  · constructor
    · rintro ⟨c, hk⟩ heq
      have hkm : m = k := Option.some.inj heq
      rw [← hkm] at hk
      by_cases hc : c = b
      · rw [hc, Function.update_self] at hk
        exact hgone hk
      · rw [Function.update_of_ne hc] at hk
        exact h.apart c b hc m hk hmb
    · intro hne
      have hkm : k ≠ m := fun heq => hne (congrArg some heq.symm)
      obtain ⟨c, hk⟩ := (h.cover k).mpr nofun
      by_cases hc : c = b
      · refine ⟨b, ?_⟩
        rw [hc, hb] at hk
        rw [Function.update_self]
        rcases List.mem_append.mp hk with hk | hk
        · exact List.mem_append_left r hk
        · exact List.mem_append_right a ((List.mem_cons.mp hk).resolve_left hkm)
      · exact ⟨c, by rwa [Function.update_of_ne hc]⟩
  · rw [haddr]
    by_cases hi : some i = b
    · have hold := h.stations i
      rw [hi, hb] at hold
      rw [hi, Function.update_self]
      refine hold.sublist (List.Sublist.map _ ?_)
      exact (List.Sublist.refl a).append (List.sublist_cons_self m r)
    · rw [Function.update_of_ne hi]
      exact h.stations i

/-- The entry that is on no list is put at the end of list `b`. -/
theorem Members.putIn (h : Members s own (some m))
    (hl : IsList s'.memberNext (s'.lists b) (own b ++ [m]))
    (hother : ∀ c ≠ b, s'.lists c = s.lists c)
    (hnext : ∀ k ∉ own b ++ [m], s'.memberNext k = s.memberNext k)
    (haddr : s'.memberAddr = s.memberAddr)
    (hstation : ∀ i, b = some i → s.memberAddr m ∉ (own b).map s.memberAddr) :
    Members s' (Function.update own b (own b ++ [m])) none := by
  have hgone : ∀ c, m ∉ own c := fun c hc => (h.cover m).mp ⟨c, hc⟩ rfl
  have hin : ∀ k, k ∈ own b ++ [m] ↔ k ∈ own b ∨ k = m := fun k => by
    rw [List.mem_append, List.mem_singleton]
  refine ⟨fun c => ?_, fun c d hcd k hk => ?_, fun k => ?_, fun i => ?_⟩
  · by_cases hc : c = b
    · rw [hc, Function.update_self]
      exact hl
    · rw [Function.update_of_ne hc, hother c hc]
      refine (h.isList c).congr fun k hk => hnext k fun hkb => ?_
      rcases (hin k).mp hkb with hkb | rfl
      · exact h.apart c b hc k hk hkb
      · exact hgone c hk
  · by_cases hc : c = b
    · rw [hc, Function.update_self] at hk
      rw [Function.update_of_ne (hc ▸ hcd.symm)]
      rcases (hin k).mp hk with hk | rfl
      · exact h.apart b d (hc ▸ hcd) k hk
      · exact hgone d
    · rw [Function.update_of_ne hc] at hk
      by_cases hd : d = b
      · rw [hd, Function.update_self]
        intro hkb
        rcases (hin k).mp hkb with hkb | rfl
        · exact h.apart c b hc k hk hkb
        · exact hgone c hk
      · rw [Function.update_of_ne hd]
        exact h.apart c d hcd k hk
  · refine iff_of_true ?_ nofun
    by_cases hkm : k = m
    · refine ⟨b, ?_⟩
      rw [Function.update_self, hin]
      exact .inr hkm
    · obtain ⟨c, hk⟩ := (h.cover k).mpr fun heq => hkm (Option.some.inj heq).symm
      by_cases hc : c = b
      · refine ⟨b, ?_⟩
        rw [Function.update_self, hin]
        exact .inl (hc ▸ hk)
      · exact ⟨c, by rwa [Function.update_of_ne hc]⟩
  · rw [haddr]
    by_cases hi : some i = b
    · have hold := h.stations i
      rw [hi] at hold
      rw [hi, Function.update_self, List.map_append, List.map_singleton]
      refine List.nodup_append.mpr ⟨hold, List.nodup_singleton _, fun x hx y hy => ?_⟩
      rw [List.mem_singleton.mp hy]
      rintro rfl
      exact hstation i hi.symm hx
    · rw [Function.update_of_ne hi]
      exact h.stations i

/-- The entry that is on no list is written. -/
theorem Members.write (h : Members s own (some m)) (hlists : ∀ b, s'.lists b = s.lists b)
    (hnext : ∀ k ≠ m, s'.memberNext k = s.memberNext k)
    (haddr : ∀ k ≠ m, s'.memberAddr k = s.memberAddr k) : Members s' own (some m) := by
  have hne : ∀ b, ∀ k ∈ own b, k ≠ m := by
    rintro b k hk rfl
    exact (h.cover k).mp ⟨b, hk⟩ rfl
  refine ⟨fun b => ?_, h.apart, h.cover, fun i => ?_⟩
  · rw [hlists b]
    exact (h.isList b).congr fun k hk => hnext k (hne b k hk)
  · have hsame : (own (some i)).map s'.memberAddr = (own (some i)).map s.memberAddr :=
      List.map_congr_left fun k hk => haddr k (hne (some i) k hk)
    rw [hsame]
    exact h.stations i

/-- What is not on a member list or the pool does not matter. -/
theorem Members.congr {out : Option MemberIdx} (h : Members s own out)
    (hlists : ∀ b, s'.lists b = s.lists b) (hnext : s'.memberNext = s.memberNext)
    (haddr : s'.memberAddr = s.memberAddr) : Members s' own out := by
  refine ⟨fun b => ?_, h.apart, h.cover, fun i => ?_⟩
  · rw [hlists b, hnext]
    exact h.isList b
  · rw [haddr]
    exact h.stations i

/-! ## 3. The functions -/

theorem freeGrpMemberEntry_members (h : Members s own (some m)) :
    Members (freeGrpMemberEntry s m) (Function.update own none (own none ++ [m])) none ∧
      SameGroups s (freeGrpMemberEntry s m) := by
  have hgone : m ∉ own none := fun hm => (h.cover m).mp ⟨none, hm⟩ rfl
  have hfree : IsList s.memberNext s.freeEntryList (own none) := h.isList none
  have hroom : (own none).length < 255 := (length_lt_of_isList hfree).trans_lt (by decide)
  refine ⟨?_, ⟨rfl, rfl, fun _ => rfl⟩⟩
  refine h.putIn (hfree.insertTail hgone hroom) (fun c hc => ?_) (fun k hk => ?_) rfl nofun
  · cases c with
    | none => exact absurd rfl hc
    | some i => rfl
  · exact hfree.insertTail_next hk

/-- **A new member takes the first free entry**, and there is none if there is no free entry. -/
theorem insertIgmpMember_members (h : Members s own none) (addr : Octets 6)
    (hnew : addr ∉ (own (some i)).map s.memberAddr) :
    ∃ own', Members (insertIgmpMember s i addr) own' none ∧
      (∀ j ≠ i, own' (some j) = own (some j)) ∧ SameGroups s (insertIgmpMember s i addr) ∧
      (own none ≠ [] → addr ∈ (own' (some i)).map (insertIgmpMember s i addr).memberAddr) := by
  have hfree : IsList s.memberNext s.freeEntryList (own none) := h.isList none
  cases hown : own none with
  | nil =>
    rw [hown] at hfree
    have hsame : insertIgmpMember s i addr = s := by
      rw [insertIgmpMember, allocaGrpMemberEntry, hfree.removeHead_nil]
    rw [hsame]
    exact ⟨own, h, fun _ _ => rfl, .refl s, fun hne => absurd rfl hne⟩
  | cons m r =>
    rw [hown] at hfree
    obtain ⟨list', halloc, hrest⟩ := hfree.removeHead
    let taken : FilterTable := { s with freeEntryList := list' }
    let filled : FilterTable :=
      { taken with
        memberNext := Function.update s.memberNext m none
        memberAddr := Function.update s.memberAddr m addr }
    let list := (s.content i).memberList
    let inserted := filled.setMembers i (insertTailList list filled.memberNext m)
    have hrun : insertIgmpMember s i addr = inserted := by
      rw [insertIgmpMember, allocaGrpMemberEntry, halloc]
    have htaken : Members taken (Function.update own none r) (some m) := by
      refine h.takeOut (a := []) hown hrest (fun c hc => ?_) (fun _ _ => rfl) rfl
      cases c with
      | none => exact absurd rfl hc
      | some j => rfl
    have hfilled : Members filled (Function.update own none r) (some m) := by
      refine htaken.write (fun b => ?_) (fun k hk => Function.update_of_ne hk ..)
        fun k hk => Function.update_of_ne hk ..
      cases b <;> rfl
    have howni : Function.update own none r (some i) = own (some i) :=
      Function.update_of_ne (Option.some_ne_none i) ..
    have hgroup : IsList filled.memberNext list (own (some i)) := by
      have hlist := hfilled.isList (some i)
      rw [howni] at hlist
      exact hlist
    have hgone : m ∉ own (some i) := by
      rw [← howni]
      exact fun hm => (hfilled.cover m).mp ⟨some i, hm⟩ rfl
    have hroom : (own (some i)).length < 255 := (length_lt_of_isList hgroup).trans_lt (by decide)
    have hin : Members inserted
        (Function.update (Function.update own none r) (some i)
          (Function.update own none r (some i) ++ [m])) none := by
      refine hfilled.putIn ?_ (fun c hc => lists_setMembers_of_ne _ hc) (fun k hk => ?_) rfl ?_
      · rw [lists_setMembers_self, howni]
        exact hgroup.insertTail hgone hroom
      · rw [howni] at hk
        exact hgroup.insertTail_next hk
      · intro j hj
        have hij : i = j := Option.some.inj hj
        have hself : filled.memberAddr m = addr := Function.update_self ..
        have hmap : (own (some i)).map filled.memberAddr = (own (some i)).map s.memberAddr := by
          refine List.map_congr_left fun k hk => Function.update_of_ne ?_ ..
          rintro rfl
          exact hgone hk
        rw [howni, hself, hmap]
        exact hnew
    rw [hrun]
    refine ⟨_, hin, fun j hj => ?_, ?_, fun _ => ?_⟩
    · rw [Function.update_of_ne fun heq => hj (Option.some.inj heq),
        Function.update_of_ne (Option.some_ne_none j)]
    · have hsame : SameGroups s filled := ⟨rfl, rfl, fun _ => rfl⟩
      exact hsame.trans (sameGroups_setMembers ..)
    · have hself : filled.memberAddr m = addr := Function.update_self ..
      rw [Function.update_self]
      exact List.mem_map.mpr ⟨m, List.mem_append_right _ (List.mem_singleton_self m), hself⟩

/-- A member is taken off the list of its group and put on the free list. -/
theorem release_members (h : Members s own none) (hi : own (some i) = a ++ m :: r) :
    ∃ deleted s' own', delEntryList freeMemberPoolSize (s.content i).memberList s.memberNext m =
        some deleted ∧
      freeGrpMemberEntry (s.setMembers i deleted) m = s' ∧ Members s' own' none ∧
      own' (some i) = a ++ r ∧ (∀ j ≠ i, own' (some j) = own (some j)) ∧ SameGroups s s' ∧
      (s.setMembers i deleted).memberNext m = s.memberNext m := by
  have hlist : IsList s.memberNext (s.content i).memberList (a ++ m :: r) := by
    have hlist := h.isList (some i)
    rw [hi] at hlist
    exact hlist
  obtain ⟨list', next', hdel, hrest, hframe⟩ := hlist.delEntry (length_lt_of_isList hlist)
  have hma : m ∉ a := fun hm =>
    (List.nodup_append.mp hlist.nodup).2.2 m hm m (List.mem_cons_self ..) rfl
  have hout : Members (s.setMembers i (list', next')) (Function.update own (some i) (a ++ r))
      (some m) := by
    refine h.takeOut hi ?_ (fun c hc => lists_setMembers_of_ne _ hc) hframe rfl
    rw [lists_setMembers_self]
    exact hrest
  obtain ⟨hin, hsame⟩ := freeGrpMemberEntry_members hout
  refine ⟨(list', next'), _, _, hdel, rfl, hin, ?_, fun j hj => ?_,
    (sameGroups_setMembers ..).trans hsame, hframe m hma⟩
  · rw [Function.update_of_ne (Option.some_ne_none i), Function.update_self]
  · rw [Function.update_of_ne (Option.some_ne_none j),
      Function.update_of_ne fun heq => hj (Option.some.inj heq)]

/-- The loop over the members of a group that looks for a station. -/
theorem walk_members (h : Members s own none) (i : GroupIdx) (addr : Octets 6) :
    ∃ q, Chain.walk s.memberNext (fun m => decide (s.memberAddr m = addr)) freeMemberPoolSize none
      (s.content i).memberList.pHead =
        some (q, (own (some i)).find? fun m => decide (s.memberAddr m = addr)) := by
  have hlist : IsList s.memberNext (s.content i).memberList (own (some i)) := h.isList (some i)
  exact hlist.linked.walk_eq (length_lt_of_isList hlist)

theorem isMember_eq (h : Members s own none) (i : GroupIdx) (addr : Octets 6) :
    isMember s i addr = some (decide (addr ∈ (own (some i)).map s.memberAddr)) := by
  obtain ⟨q, hwalk⟩ := walk_members h i addr
  rw [isMember, hwalk, Option.map_some]
  refine congrArg some (Bool.eq_iff_iff.mpr ?_)
  rw [decide_eq_true_iff, List.find?_isSome, List.mem_map]
  simp only [decide_eq_true_eq]

/-- **A member that leaves gives its entry back.** -/
theorem deleteIgmpMember_members (h : Members s own none) (i : GroupIdx) (addr : Octets 6) :
    ∃ s' own', deleteIgmpMember s i addr = some s' ∧ Members s' own' none ∧
      (own (some i) = [] → own' (some i) = []) ∧ (∀ j ≠ i, own' (some j) = own (some j)) ∧
      SameGroups s s' := by
  obtain ⟨q, hwalk⟩ := walk_members h i addr
  cases hfind : (own (some i)).find? fun m => decide (s.memberAddr m = addr) with
  | none =>
    refine ⟨s, own, ?_, h, id, fun _ _ => rfl, .refl s⟩
    rw [deleteIgmpMember, hwalk, hfind]
    rfl
  | some m =>
    obtain ⟨a, r, hsplit⟩ := List.append_of_mem (List.mem_of_find?_eq_some hfind)
    obtain ⟨deleted, s', own', hdel, hfree, hmem, -, hother, hsame, -⟩ := release_members h hsplit
    refine ⟨s', own', ?_, hmem, fun hnil => ?_, hother, hsame⟩
    · rw [deleteIgmpMember, hwalk, hfind, ← hfree]
      exact congrArg (fun o => o >>= fun d => some (freeGrpMemberEntry (s.setMembers i d) m)) hdel
    · rw [hnil] at hsplit
      exact absurd hsplit.symm (by simp)

theorem deleteIgmpMemberLoop_members (i : GroupIdx) (l : List MemberIdx) {fuel : Nat}
    (hfuel : l.length ≤ fuel) {s : FilterTable} {own : Option GroupIdx → List MemberIdx}
    (h : Members s own none) (hl : own (some i) = l) :
    ∃ s' own', deleteIgmpMemberLoop i fuel l.head? s = some s' ∧ Members s' own' none ∧
      own' (some i) = [] ∧ (∀ j ≠ i, own' (some j) = own (some j)) ∧ SameGroups s s' := by
  induction l generalizing fuel s own with
  | nil =>
    refine ⟨s, own, ?_, h, hl, fun _ _ => rfl, .refl s⟩
    cases fuel <;> rfl
  | cons m r ih =>
    obtain _ | fuel := fuel
    · simp at hfuel
    have hnext : s.memberNext m = r.head? := by
      have hlist := (h.isList (some i)).linked
      rw [hl] at hlist
      exact (Chain.linked_cons.mp hlist).2.head?.symm
    obtain ⟨deleted, t, own₁, hdel, hfree, hmem, hrest, hother, hsame, hkeep⟩ :=
      release_members (a := []) h hl
    obtain ⟨s', own', hloop, hmem', hnil, hother', hsame'⟩ :=
      ih (by simp at hfuel; omega) hmem hrest
    refine ⟨s', own', ?_, hmem', hnil, fun j hj => (hother' j hj).trans (hother j hj),
      hsame.trans hsame'⟩
    rw [List.head?_cons, deleteIgmpMemberLoop, hdel]
    dsimp only [Option.bind_eq_bind, Option.bind_some]
    rw [hkeep, hnext, hfree]
    exact hloop

/-- **A group that goes gives all its entries back.** -/
theorem deleteIgmpMemberList_members (h : Members s own none) (i : GroupIdx) :
    ∃ s' own', deleteIgmpMemberList s i = some s' ∧ Members s' own' none ∧
      own' (some i) = [] ∧ (∀ j ≠ i, own' (some j) = own (some j)) ∧ SameGroups s s' := by
  have hlist : IsList s.memberNext (s.content i).memberList (own (some i)) := h.isList (some i)
  have hhead := hlist.pHead_eq
  cases hp : (s.content i).memberList.pHead with
  | none =>
    rw [hp] at hhead
    refine ⟨s, own, ?_, h, List.head?_eq_none_iff.mp hhead.symm, fun _ _ => rfl, .refl s⟩
    rw [deleteIgmpMemberList, hp]
  | some m =>
    obtain ⟨t, own', hloop, hmem, hnil, hother, hsame⟩ :=
      deleteIgmpMemberLoop_members i (own (some i)) (length_lt_of_isList hlist) h rfl
    rw [← hhead, hp] at hloop
    -- `initList` writes what the empty list has already
    have hinit : (t.content i).memberList = initList := by
      have hempty := hmem.isList (some i)
      rw [hnil] at hempty
      exact isList_nil.mp hempty
    have hmem' : Members (t.setMembers i (initList, t.memberNext)) own' none := by
      refine hmem.congr (fun b => ?_) rfl rfl
      by_cases hb : b = some i
      · rw [hb, lists_setMembers_self]
        exact hinit.symm
      · exact lists_setMembers_of_ne _ hb
    refine ⟨_, own', ?_, hmem', hnil, hother, hsame.trans (sameGroups_setMembers ..)⟩
    rw [deleteIgmpMemberList, hp]
    dsimp only
    rw [hloop]
    rfl

theorem foldl_freeGrpMemberEntry (l : List MemberIdx) {acc : List MemberIdx} {s : FilterTable}
    (h : IsList s.memberNext s.freeEntryList acc) (hnodup : (acc ++ l).Nodup) :
    ∃ s', l.foldl freeGrpMemberEntry s = s' ∧ IsList s'.memberNext s'.freeEntryList (acc ++ l) ∧
      s'.content = s.content ∧ s'.hash = s.hash ∧ s'.size = s.size := by
  induction l generalizing acc s with
  | nil =>
    rw [List.append_nil]
    exact ⟨s, rfl, h, rfl, rfl, rfl⟩
  | cons m l ih =>
    have hnew : m ∉ acc := fun hm =>
      (List.nodup_append.mp hnodup).2.2 m hm m (List.mem_cons_self ..) rfl
    have hroom : acc.length < 255 := (length_lt_of_isList h).trans_lt (by decide)
    rw [List.append_cons] at hnodup ⊢
    have hput : IsList (freeGrpMemberEntry s m).memberNext (freeGrpMemberEntry s m).freeEntryList
        (acc ++ [m]) := h.insertTail hnew hroom
    obtain ⟨s', hfold, hlist, hcontent, hhash, hsize⟩ := ih hput hnodup
    exact ⟨s', hfold, hlist, hcontent, hhash, hsize⟩

/-- **At the start all entries are free.** -/
theorem init_members : ∃ own, Members multicastFilterTableInit own none ∧
    (∀ i, own (some i) = []) ∧ multicastFilterTableInit.content = (fun _ => {}) ∧
    multicastFilterTableInit.hash = (fun _ => none) ∧ multicastFilterTableInit.size = 0 := by
  have hstart : IsList ({} : FilterTable).memberNext ({} : FilterTable).freeEntryList [] :=
    isList_nil.mpr rfl
  obtain ⟨s, hfold, hlist, hcontent, hhash, hsize⟩ :=
    foldl_freeGrpMemberEntry (List.finRange freeMemberPoolSize) hstart
      (List.nodup_finRange freeMemberPoolSize)
  have hinit : multicastFilterTableInit = s := hfold
  let own : Option GroupIdx → List MemberIdx
    | none => List.finRange freeMemberPoolSize
    | some _ => []
  rw [hinit]
  refine ⟨own, ⟨fun b => ?_, fun b c hbc m hm => ?_, fun m => ?_, fun _ => List.nodup_nil⟩,
    fun _ => rfl, hcontent, hhash, hsize⟩
  · cases b with
    | none => exact hlist
    | some i =>
      refine isList_nil.mpr ?_
      rw [lists, hcontent]
      rfl
  · cases b with
    | none =>
      cases c with
      | none => exact absurd rfl hbc
      | some j => exact List.not_mem_nil
    | some i => exact absurd hm List.not_mem_nil
  · exact iff_of_true ⟨none, List.mem_finRange m⟩ nofun

end

end Mt7601.Igmp
