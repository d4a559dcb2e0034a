/-
# The groups of the multicast filter table

What is to hold of the table (`Ordered`): each chain holds the valid groups of its address, the size
counts them, no two of them have the same device and address, and the member lists and the free list
share the pool out. Every function keeps it. A group goes in two ways: the lookup and the deletion
take it out of its chain behind the entry before it, the insertion looks for its device and address
from the head of the chain on.
-/
import Mt7601.Igmp.Members

namespace Mt7601.Igmp

open FilterTable

/-! ## 1. A table in order -/

namespace FilterTable

def Valid (s : FilterTable) (i : GroupIdx) : Prop := (s.content i).valid = true

instance (s : FilterTable) : DecidablePred s.Valid := fun _ => inferInstanceAs (Decidable (_ = _))

/-- The chain a group belongs to. -/
def bucket (s : FilterTable) (i : GroupIdx) : UInt8 := multicastAddrHashIndex (s.content i).addr

/-- The member lists, and what of them is in use. -/
def PoolShared (s : FilterTable) : Prop :=
  ∃ own, Members s own none ∧ ∀ i, ¬ s.Valid i → own (some i) = []

end FilterTable

/-- **What holds of the table between any two calls.** -/
structure Ordered (s : FilterTable) : Prop where
  chained : Chain.Hashed s.hash s.next s.Valid s.bucket
  size : s.size.toNat = (Finset.univ.filter s.Valid).card
  unique : ∀ i j, s.Valid i → s.Valid j → (s.content i).netDev = (s.content j).netDev →
    (s.content i).addr = (s.content j).addr → i = j
  members : s.PoolShared

theorem ordered_init : Ordered multicastFilterTableInit := by
  obtain ⟨own, hmembers, hnil, hcontent, hhash, hsize⟩ := init_members
  have hnone : ∀ i, ¬ multicastFilterTableInit.Valid i := by
    intro i hi
    rw [Valid, hcontent] at hi
    exact nomatch hi
  refine ⟨?_, ?_, fun i _ hi => absurd hi (hnone i), own, hmembers, fun i _ => hnil i⟩
  · refine Chain.hashed_empty (fun b => ?_) hnone
    rw [hhash]
  · rw [hsize, Finset.filter_eq_empty_iff.mpr fun i _ => hnone i]
    rfl

section

variable {s s' : FilterTable} {i : GroupIdx} {b : UInt8} {prev : Option GroupIdx}
variable {a r : List GroupIdx} {addr : Octets 6} {dev : NetDev}

theorem SameGroups.valid_iff (h : SameGroups s s') (i : GroupIdx) : s'.Valid i ↔ s.Valid i := by
  rw [Valid, h.valid i, Valid]

/-- What leaves the groups as they are keeps the order if it keeps the pool. -/
theorem Ordered.of_same (h : Ordered s) (hsize : s'.size = s.size) (hhash : s'.hash = s.hash)
    (hcontent : ∀ i, (s'.content i).valid = (s.content i).valid ∧
      (s'.content i).netDev = (s.content i).netDev ∧ (s'.content i).addr = (s.content i).addr ∧
      (s'.content i).pNext = (s.content i).pNext) (hpool : s'.PoolShared) : Ordered s' := by
  have hvalid : ∀ i, s'.Valid i ↔ s.Valid i := fun i => by rw [Valid, (hcontent i).1, Valid]
  refine ⟨?_, ?_, fun i j hi hj hdev haddr => ?_, hpool⟩
  · refine h.chained.congr (fun b => ?_) hvalid (fun i _ => (hcontent i).2.2.2) fun i _ => ?_
    · rw [hhash]
    · rw [bucket, (hcontent i).2.2.1, bucket]
  · rw [hsize, Finset.filter_congr fun i _ => hvalid i]
    exact h.size
  · rw [(hcontent i).2.1, (hcontent j).2.1] at hdev
    rw [(hcontent i).2.2.1, (hcontent j).2.2.1] at haddr
    exact h.unique i j ((hvalid i).mp hi) ((hvalid j).mp hj) hdev haddr

theorem Ordered.of_sameGroups (h : Ordered s) (hsame : SameGroups s s') (hpool : s'.PoolShared) :
    Ordered s' :=
  h.of_same hsame.size hsame.hash
    (fun i => ⟨hsame.valid i, hsame.netDev i, hsame.addr i, hsame.next i⟩) hpool

/-- There are turns enough for every chain. -/
theorem length_le_of_linked {next : GroupIdx → Option GroupIdx} {p : Option GroupIdx}
    {l : List GroupIdx} (h : Chain.Linked next p l) : l.length ≤ maxLenOfMulticastFilterTable :=
  h.length_le.trans_eq (Fintype.card_fin maxLenOfMulticastFilterTable)

/-! ## 2. A group goes -/

/-- `s'` has the groups of `s` but for group `i`, whose entry is free. -/
structure GroupGone (i : GroupIdx) (s s' : FilterTable) : Prop where
  gone : ¬ s'.Valid i
  other : ∀ j ≠ i, (s'.content j).valid = (s.content j).valid ∧
    (s'.content j).netDev = (s.content j).netDev ∧ (s'.content j).addr = (s.content j).addr

theorem GroupGone.valid_iff (h : GroupGone i s s') (j : GroupIdx) :
    s'.Valid j ↔ s.Valid j ∧ j ≠ i := by
  by_cases hj : j = i
  · rw [hj]
    exact iff_of_false h.gone fun hv => hv.2 rfl
  · rw [Valid, (h.other j hj).1]
    exact ⟨fun hv => ⟨hv, hj⟩, fun hv => hv.1⟩

/-- **A group may go** if its chain is cut, its members are given back and it is counted out. -/
theorem Ordered.drop (h : Ordered s) (hi : s.Valid i) (hgone : GroupGone i s s')
    (hchained : Chain.Hashed s'.hash s'.next (fun j => s.Valid j ∧ j ≠ i) s.bucket)
    (hsize : s'.size = s.size - 1)
    (hmembers : ∃ own, Members s' own none ∧ own (some i) = [] ∧
      ∀ j ≠ i, ¬ s.Valid j → own (some j) = []) : Ordered s' where
  chained := by
    refine hchained.congr (fun _ => rfl) hgone.valid_iff (fun _ _ => rfl) fun j hj => ?_
    rw [bucket, (hgone.other j hj.2).2.2, bucket]
  size := by
    have hcard := Chain.card_unlink hi hgone.valid_iff
    have hnow := h.size
    have hle : (1 : UInt8) ≤ s.size := by
      rw [UInt8.le_iff_toNat_le, UInt8.toNat_one]
      omega
    rw [hsize, UInt8.toNat_sub_of_le _ _ hle, UInt8.toNat_one]
    omega
  unique := by
    intro j k hj hk hdev haddr
    obtain ⟨hj, hji⟩ := (hgone.valid_iff j).mp hj
    obtain ⟨hk, hki⟩ := (hgone.valid_iff k).mp hk
    rw [(hgone.other j hji).2.1, (hgone.other k hki).2.1] at hdev
    rw [(hgone.other j hji).2.2, (hgone.other k hki).2.2] at haddr
    exact h.unique j k hj hk hdev haddr
  members := by
    obtain ⟨own, hown, hnil, hother⟩ := hmembers
    refine ⟨own, hown, fun j hj => ?_⟩
    by_cases hji : j = i
    · rw [hji, hnil]
    · exact hother j hji fun hv => hj ((hgone.valid_iff j).mpr ⟨hv, hji⟩)

theorem lists_relink (p : (UInt8 → Option GroupIdx) × (GroupIdx → Option GroupIdx))
    (b : Option GroupIdx) : (s.relink p).lists b = s.lists b := by
  cases b <;> rfl

/-- **The lookup and the deletion take the right entry out**, given the one before it. -/
theorem Ordered.exists_removeGroup (h : Ordered s)
    (hchain : Chain.Linked s.next (s.hash b) (a ++ i :: r)) (hprev : a ≠ [] → prev = a.getLast?) :
    ∃ s', removeGroup s b prev i = some s' ∧ Ordered s' ∧ GroupGone i s s' ∧
      Chain.Linked s'.next (s'.hash b) (a ++ r) := by
  obtain ⟨hi, -⟩ := h.chained.valid_of_mem hchain (List.mem_append_right a (List.mem_cons_self ..))
  obtain ⟨hcut, hrest⟩ := h.chained.cut hchain
  let u := s.relink (Chain.cut s.hash s.next b a.getLast? i)
  have hunlink : unlinkGroup s b prev i = some u := by
    rcases List.eq_nil_or_concat' a with rfl | ⟨a, j, rfl⟩
    · exact if_pos (Chain.linked_cons.mp hchain).1
    · have hother : s.hash b ≠ some i := by
        intro hhead
        rw [hhead] at hchain
        have hfirst := hchain.head?
        have hnodup := Chain.not_mem_of_nodup_middle hchain.nodup
        rw [List.head?_append_of_ne_nil _ (by simp)] at hfirst
        exact hnodup (List.mem_append_left r (List.mem_of_mem_head? hfirst))
      have hp : prev = some j := by rw [hprev (by simp), List.getLast?_concat]
      have hu : u = s.relink (Chain.cut s.hash s.next b (some j) i) := by
        change s.relink (Chain.cut s.hash s.next b (a ++ [j]).getLast? i) = _
        rw [List.getLast?_concat]
      rw [unlinkGroup, if_neg hother, hp, hu]
      rfl
  obtain ⟨own, hown, hfree⟩ := h.members
  have hmembers : Members u own none := hown.congr (lists_relink _) rfl rfl
  obtain ⟨t, own', hdel, hmem, hnil, hkeep, hsame⟩ := deleteIgmpMemberList_members hmembers i
  let s' : FilterTable := { t.setEntry i {} with size := t.size - 1 }
  have hself : s'.content i = {} := content_setEntry_self {}
  have hrun : removeGroup s b prev i = some s' := by
    rw [removeGroup, hunlink]
    dsimp only [Option.bind_eq_bind, Option.bind_some]
    rw [hdel]
    rfl
  have hnext : ∀ j ≠ i, s'.next j = u.next j := by
    intro j hj
    change ((t.setEntry i {}).content j).pNext = _
    rw [content_setEntry_of_ne _ hj, hsame.content j]
    rfl
  have hhash : s'.hash = u.hash := hsame.hash
  have hgone : GroupGone i s s' := by
    refine ⟨?_, fun j hj => ?_⟩
    · rw [Valid, hself]
      exact Bool.false_ne_true
    · change ((t.setEntry i {}).content j).valid = _ ∧ ((t.setEntry i {}).content j).netDev = _ ∧
        ((t.setEntry i {}).content j).addr = _
      rw [content_setEntry_of_ne _ hj, hsame.valid j, hsame.netDev j, hsame.addr j]
      exact ⟨rfl, rfl, rfl⟩
  have hlists : ∀ c, s'.lists c = t.lists c := by
    intro c
    cases c with
    | none => rfl
    | some j =>
      by_cases hj : j = i
      · have hempty := hmem.isList (some i)
        rw [hnil] at hempty
        rw [hj, lists, hself]
        exact (isList_nil.mp hempty).symm
      · exact congrArg FilterEntry.memberList (content_setEntry_of_ne {} hj)
  refine ⟨s', hrun, h.drop hi hgone ?_ ?_ ?_, hgone, ?_⟩
  · refine hcut.congr (fun c => ?_) (fun _ => Iff.rfl) (fun j hj => hnext j hj.2) fun _ _ => rfl
    rw [hhash]
    rfl
  · change t.size - 1 = _
    rw [hsame.size]
    rfl
  · refine ⟨own', hmem.congr hlists rfl rfl, hnil, fun j hj hv => ?_⟩
    rw [hkeep j hj]
    exact hfree j hv
  · rw [hhash]
    refine hrest.congr fun j hj => hnext j ?_
    rintro rfl
    exact Chain.not_mem_of_nodup_middle hchain.nodup hj

theorem GroupGone.isGroup (h : GroupGone i s s') {j : GroupIdx} (hj : j ≠ i) :
    isGroup s' dev addr j = isGroup s dev addr j := by
  obtain ⟨-, hdev, haddr⟩ := h.other j hj
  rw [Igmp.isGroup, hdev, haddr, Igmp.isGroup]

theorem isGroup_iff (j : GroupIdx) : isGroup s dev addr j = true ↔
    (s.content j).netDev = dev ∧ (s.content j).addr = addr :=
  decide_eq_true_iff

/-- **The insertion takes the right entry out**: nothing else has its device and address. -/
theorem Ordered.exists_removeAged (h : Ordered s) (hi : s.Valid i) :
    ∃ s', removeAged s i = some s' ∧ Ordered s' ∧ GroupGone i s s' := by
  obtain ⟨l, hl, hmem⟩ := h.chained (s.bucket i)
  obtain ⟨a, r, rfl⟩ := List.append_of_mem ((hmem i).mpr ⟨hi, rfl⟩)
  obtain ⟨hcut, -⟩ := h.chained.cut hl
  have hpass : ∀ j ∈ a, isGroup s (s.content i).netDev (s.content i).addr j = false := by
    intro j hj
    rw [Bool.eq_false_iff]
    intro hgroup
    obtain ⟨hdev, haddr⟩ := (isGroup_iff j).mp hgroup
    have hji : j = i := h.unique j i ((hmem j).mp (List.mem_append_left _ hj)).1 hi hdev haddr
    rw [hji] at hj
    exact Chain.not_mem_of_nodup_middle hl.nodup (List.mem_append_left r hj)
  have hwalk : Chain.walk s.next (isGroup s (s.content i).netDev (s.content i).addr)
      maxLenOfMulticastFilterTable none (s.hash (s.bucket i)) = some (a.getLast?.or none, some i) :=
    hl.walk_stop (length_le_of_linked hl) hpass ((isGroup_iff i).mpr ⟨rfl, rfl⟩)
  rw [Option.or_none] at hwalk
  obtain ⟨head, hhead⟩ : ∃ head, s.hash (s.bucket i) = some head := by
    cases hp : s.hash (s.bucket i) with
    | none =>
      rw [hp] at hl
      exact absurd (Chain.linked_none.mp hl) (by simp)
    | some head => exact ⟨head, rfl⟩
  let u : FilterTable :=
    { s.relink (Chain.cut s.hash s.next (s.bucket i) a.getLast? i) with size := s.size - 1 }
  let v : FilterTable := u.setEntry i { u.content i with valid := false }
  have hv : ∀ j, (v.content j).memberList = (s.content j).memberList ∧ v.next j = u.next j ∧
      (j ≠ i → v.content j = u.content j) ∧ (v.content i).valid = false := by
    intro j
    have hself : v.content i = { u.content i with valid := false } := content_setEntry_self _
    by_cases hj : j = i
    · rw [hj, next, hself]
      exact ⟨rfl, rfl, fun hne => absurd rfl hne, rfl⟩
    · have hother : v.content j = u.content j := content_setEntry_of_ne _ hj
      rw [next, hother, hself]
      exact ⟨rfl, rfl, fun _ => rfl, rfl⟩
  obtain ⟨own, hown, hfree⟩ := h.members
  have hmembers : Members v own none := by
    refine hown.congr (fun b => ?_) rfl rfl
    cases b with
    | none => rfl
    | some j => exact (hv j).1
  obtain ⟨s', own', hdel, hmem', hnil, hkeep, hsame⟩ := deleteIgmpMemberList_members hmembers i
  have hrun : removeAged s i = some s' := by
    rw [hhead] at hwalk
    rw [removeAged, ← bucket, hhead]
    dsimp only [Option.bind_eq_bind, Option.bind_some]
    rw [hwalk]
    exact hdel
  have hgone : GroupGone i s s' := by
    refine ⟨?_, fun j hj => ?_⟩
    · rw [Valid, hsame.valid i, (hv i).2.2.2]
      exact Bool.false_ne_true
    · rw [hsame.valid j, hsame.netDev j, hsame.addr j, (hv j).2.2.1 hj]
      exact ⟨rfl, rfl, rfl⟩
  refine ⟨s', hrun, h.drop hi hgone ?_ ?_ ⟨own', hmem', hnil, fun j hj hno => ?_⟩, hgone⟩
  · refine hcut.congr (fun c => ?_) (fun _ => Iff.rfl) (fun j _ => ?_) fun _ _ => rfl
    · rw [hsame.hash]
      rfl
    · rw [hsame.next j, (hv j).2.1]
      rfl
  · rw [hsame.size]
    rfl
  · rw [hkeep j hj]
    exact hfree j hno

/-! ## 3. A group is looked up -/

/-- **The lookup ends**, keeps the order whatever it lets go of, and finds the group if it is there. -/
theorem Ordered.exists_lookupLoop (hz : UInt32) (now : GroupIdx → UInt64) {fuel : Nat}
    (h : Ordered s) (hchain : Chain.Linked s.next (s.hash (multicastAddrHashIndex addr)) (a ++ r))
    (hprev : a ≠ [] → prev = a.getLast?) (hpass : ∀ j ∈ a, isGroup s dev addr j = false)
    (hfuel : r.length ≤ fuel) :
    ∃ s' found, lookupLoop hz now addr dev fuel prev r.head? s = some (s', found) ∧ Ordered s' ∧
      (∀ j, s'.Valid j → s.Valid j) ∧
      (∀ i, found = some i → s'.Valid i ∧ isGroup s' dev addr i = true) ∧
      (found = none → ∀ j, s'.Valid j → isGroup s' dev addr j = false) := by
  induction r generalizing s a prev fuel with
  | nil =>
    refine ⟨s, none, by cases fuel <;> rfl, h, fun _ => id, nofun, fun _ j hj => ?_⟩
    rw [Bool.eq_false_iff]
    intro hgroup
    obtain ⟨l, hl, hmem⟩ := h.chained (multicastAddrHashIndex addr)
    have hin : j ∈ l := by
      refine (hmem j).mpr ⟨hj, ?_⟩
      rw [bucket, ((isGroup_iff j).mp hgroup).2]
    rw [hl.unique hchain, List.append_nil] at hin
    rw [hpass j hin] at hgroup
    exact Bool.false_ne_true hgroup
  | cons i r ih =>
    obtain _ | fuel := fuel
    · simp at hfuel
    have hfuel' : r.length ≤ fuel := by
      rw [List.length_cons] at hfuel
      omega
    obtain ⟨hi, -⟩ := h.chained.valid_of_mem hchain (List.mem_append_right a (List.mem_cons_self ..))
    have hia : i ∉ a := fun hin =>
      Chain.not_mem_of_nodup_middle hchain.nodup (List.mem_append_left r hin)
    have hnext : (s.content i).pNext = r.head? := hchain.suffix.head?.symm
    have hin : (s.content i).valid = true := hi
    rw [List.head?_cons, lookupLoop, if_neg (not_not.mpr hin)]
    by_cases hgroup : isGroup s dev addr i = true
    · rw [if_pos hgroup]
      let t := s.setEntry i { s.content i with lastTime := (now i).toUInt32 }
      have ht : ∀ j, (t.content j).valid = (s.content j).valid ∧
          (t.content j).netDev = (s.content j).netDev ∧ (t.content j).addr = (s.content j).addr ∧
          (t.content j).pNext = (s.content j).pNext ∧
          (t.content j).memberList = (s.content j).memberList := by
        intro j
        by_cases hj : j = i
        · have hself : t.content i = { s.content i with lastTime := (now i).toUInt32 } :=
            content_setEntry_self _
          rw [hj, hself]
          exact ⟨rfl, rfl, rfl, rfl, rfl⟩
        · have hother : t.content j = s.content j := content_setEntry_of_ne _ hj
          rw [hother]
          exact ⟨rfl, rfl, rfl, rfl, rfl⟩
      have hvalid : ∀ j, t.Valid j ↔ s.Valid j := fun j => by rw [Valid, (ht j).1, Valid]
      obtain ⟨own, hown, hfree⟩ := h.members
      have hpool : t.PoolShared := by
        refine ⟨own, hown.congr (fun b => ?_) rfl rfl, fun j hj => hfree j fun hv => hj ?_⟩
        · cases b with
          | none => rfl
          | some j => exact (ht j).2.2.2.2
        · exact (hvalid j).mpr hv
      refine ⟨t, some i, rfl, h.of_same rfl rfl (fun j => ?_) hpool, fun j => (hvalid j).mp,
        fun j hj => ?_, nofun⟩
      · exact ⟨(ht j).1, (ht j).2.1, (ht j).2.2.1, (ht j).2.2.2.1⟩
      · rw [← Option.some.inj hj]
        refine ⟨(hvalid i).mpr hi, ?_⟩
        rw [isGroup_iff, (ht i).2.1, (ht i).2.2.1]
        exact (isGroup_iff i).mp hgroup
    · rw [if_neg hgroup]
      by_cases hage : (s.content i).type = .dynamic ∧
          timeAfter (now i) ((s.content i).lastTime + ageoutTime hz).toUInt64 = true
      · rw [if_pos hage]
        obtain ⟨t, hrun, hordered, hgone, hrest⟩ := h.exists_removeGroup hchain hprev
        dsimp only
        rw [hrun, Option.bind_some, hnext]
        have hprev' : a ≠ [] →
            (if s.hash (multicastAddrHashIndex addr) = some i then r.head? else prev) =
              a.getLast? := by
          intro hne
          rw [if_neg, hprev hne]
          intro hhead
          rw [hhead] at hchain
          have hfirst := hchain.head?
          rw [List.head?_append_of_ne_nil _ hne] at hfirst
          exact hia (List.mem_of_mem_head? hfirst)
        have hpass' : ∀ j ∈ a, isGroup t dev addr j = false := by
          intro j hj
          have hji : j ≠ i := by
            rintro rfl
            exact hia hj
          rw [hgone.isGroup hji]
          exact hpass j hj
        obtain ⟨s', found, hloop, hordered', hsub, hfound, hnone⟩ :=
          ih hordered hrest hprev' hpass' hfuel'
        exact ⟨s', found, hloop, hordered',
          fun j hj => ((hgone.valid_iff j).mp (hsub j hj)).1, hfound, hnone⟩
      · rw [if_neg hage, hnext]
        rw [List.append_cons] at hchain
        refine ih h hchain (fun _ => List.getLast?_concat.symm) (fun j hj => ?_) hfuel'
        rcases List.mem_append.mp hj with hj | hj
        · exact hpass j hj
        · rw [List.mem_singleton.mp hj]
          exact Bool.eq_false_iff.mpr hgroup

theorem Ordered.lookup (h : Ordered s) (hz : UInt32) (now : GroupIdx → UInt64) (addr : Octets 6)
    (dev : NetDev) :
    ∃ s' found, multicastFilterTableLookup hz now s addr dev = some (s', found) ∧ Ordered s' ∧
      (∀ j, s'.Valid j → s.Valid j) ∧
      (∀ i, found = some i → s'.Valid i ∧ isGroup s' dev addr i = true) ∧
      (found = none → ∀ j, s'.Valid j → isGroup s' dev addr j = false) := by
  obtain ⟨l, hl, -⟩ := h.chained (multicastAddrHashIndex addr)
  have hpass : ∀ j ∈ ([] : List GroupIdx), isGroup s dev addr j = false := nofun
  have hprev : ([] : List GroupIdx) ≠ [] →
      s.hash (multicastAddrHashIndex addr) = ([] : List GroupIdx).getLast? :=
    fun hne => absurd rfl hne
  have hloop := h.exists_lookupLoop hz now hl hprev hpass (length_le_of_linked hl)
  rw [hl.head?] at hloop
  exact hloop

/-! ## 4. The other functions -/

theorem leaveGroup_members (h : Ordered s) (i : GroupIdx) (memberAddr : Option (Octets 6)) :
    ∃ s', leaveGroup s i memberAddr = some s' ∧ Ordered s' ∧ SameGroups s s' := by
  cases memberAddr with
  | none => exact ⟨s, rfl, h, .refl s⟩
  | some memberAddr =>
    obtain ⟨own, hown, hfree⟩ := h.members
    obtain ⟨s', own', hrun, hmem, hnil, hkeep, hsame⟩ := deleteIgmpMember_members hown i memberAddr
    refine ⟨s', hrun, h.of_sameGroups hsame ⟨own', hmem, fun j hj => ?_⟩, hsame⟩
    rw [hsame.valid_iff j] at hj
    by_cases hji : j = i
    · rw [hji] at hj ⊢
      exact hnil (hfree i hj)
    · rw [hkeep j hji]
      exact hfree j hj

/-- **The walk of a deletion** comes to the group if it is there, and to the one before it. -/
theorem Ordered.walk_delete (h : Ordered s) (grpId : Octets 6) (dev : NetDev) :
    ∃ prev found, Chain.walk s.next
        (fun i => decide (¬ (s.content i).valid = true ∨ isGroup s dev grpId i = true))
        maxLenOfMulticastFilterTable (s.hash (multicastAddrHashIndex grpId))
        (s.hash (multicastAddrHashIndex grpId)) = some (prev, found) ∧
      (found = none → ∀ i, s.Valid i → isGroup s dev grpId i = false) ∧
      ∀ i, found = some i → s.Valid i ∧ isGroup s dev grpId i = true ∧ ∃ a r,
        Chain.Linked s.next (s.hash (multicastAddrHashIndex grpId)) (a ++ i :: r) ∧
          (a ≠ [] → prev = a.getLast?) := by
  let b := multicastAddrHashIndex grpId
  let halt : GroupIdx → Bool :=
    fun i => decide (¬ (s.content i).valid = true ∨ isGroup s dev grpId i = true)
  obtain ⟨l, hl, hmem⟩ := h.chained b
  cases hfind : l.find? halt with
  | none =>
    have hpass : ∀ j ∈ l, halt j = false := by simpa using hfind
    refine ⟨_, none, hl.walk_pass (length_le_of_linked hl) hpass, fun _ i hi => ?_, nofun⟩
    rw [Bool.eq_false_iff]
    intro hgroup
    have hin : i ∈ l :=
      (hmem i).mpr ⟨hi, congrArg multicastAddrHashIndex ((isGroup_iff i).mp hgroup).2⟩
    exact Bool.eq_false_iff.mp (hpass i hin) (decide_eq_true (.inr hgroup))
  | some i =>
    obtain ⟨hstop, a, r, rfl, hpass⟩ := List.find?_eq_some_iff_append.mp hfind
    have hwalk : Chain.walk s.next halt maxLenOfMulticastFilterTable (s.hash b) (s.hash b) =
        some (a.getLast?.or (s.hash b), some i) :=
      hl.walk_stop (length_le_of_linked hl) (by simpa using hpass) hstop
    have hi : s.Valid i := ((hmem i).mp (by simp)).1
    refine ⟨_, some i, hwalk, nofun, ?_⟩
    rintro _ ⟨⟩
    refine ⟨hi, (of_decide_eq_true hstop).resolve_left (not_not.mpr hi), a, r, hl, fun hne => ?_⟩
    obtain ⟨c, j, rfl⟩ := (List.eq_nil_or_concat' a).resolve_left hne
    rw [List.getLast?_concat]
    rfl

/-- **A deletion keeps the order.** -/
theorem Ordered.delete (h : Ordered s) (grpId : Octets 6) (memberAddr : Option (Octets 6))
    (dev : NetDev) :
    ∃ s', multicastFilterTableDeleteEntry s grpId memberAddr dev = some s' ∧ Ordered s' := by
  obtain ⟨prev, found, hwalk, -, hfound⟩ := h.walk_delete grpId dev
  rw [multicastFilterTableDeleteEntry, hwalk]
  cases found with
  | none => exact ⟨s, rfl, h⟩
  | some i =>
    obtain ⟨-, -, a, r, hl, hprev⟩ := hfound i rfl
    obtain ⟨left, hleave, hordered, hsame⟩ := leaveGroup_members h i memberAddr
    have hchain : Chain.Linked left.next (left.hash (multicastAddrHashIndex grpId)) (a ++ i :: r) := by
      rw [hsame.hash]
      exact hl.congr fun j _ => hsame.next j
    obtain ⟨s', hremove, hordered', -, -⟩ := hordered.exists_removeGroup hchain hprev
    dsimp only [Option.bind_eq_bind, Option.bind_some]
    rw [hleave, Option.bind_some]
    by_cases hcnt : memberAddr.isSome = true ∧ 0 < igmpMemberCnt left i
    · rw [if_pos hcnt]
      exact ⟨left, rfl, hordered⟩
    · rw [if_neg hcnt]
      exact ⟨s', hremove, hordered'⟩

theorem Ordered.size_le (h : Ordered s) : s.size.toNat ≤ maxLenOfMulticastFilterTable := by
  rw [h.size]
  exact (Finset.card_le_univ _).trans_eq (Fintype.card_fin maxLenOfMulticastFilterTable)

/-- A free entry that is filled in has no members yet. -/
theorem Ordered.setEntry_members (h : Ordered s) (hi : ¬ s.Valid i) (entry : FilterEntry)
    (hentry : entry.memberList = initList) :
    ∃ own, Members (s.setEntry i entry) own none ∧ own (some i) = [] ∧
      ∀ j, ¬ s.Valid j → own (some j) = [] := by
  obtain ⟨own, hown, hfree⟩ := h.members
  have hnil : own (some i) = [] := hfree i hi
  have hempty : (s.content i).memberList = initList := by
    have hlist := hown.isList (some i)
    rw [hnil] at hlist
    exact isList_nil.mp hlist
  refine ⟨own, hown.congr (fun b => ?_) rfl rfl, hnil, hfree⟩
  cases b with
  | none => rfl
  | some j =>
    by_cases hj : j = i
    · rw [hj, lists, content_setEntry_self entry, hentry]
      exact hempty.symm
    · rw [lists, content_setEntry_of_ne entry hj, lists]

/-- **A new group is entered in a free entry.** -/
theorem Ordered.enter (h : Ordered s) (hi : ¬ s.Valid i)
    (hnew : ∀ j, s.Valid j → isGroup s dev addr j = false) (memberAddr : Option (Octets 6))
    (type : FilterEntryType) (now : UInt64) :
    ∃ s', linkGroup (enterGroup s i addr memberAddr dev type now) i (multicastAddrHashIndex addr) =
      some s' ∧ Ordered s' := by
  let entry : FilterEntry := ⟨true, type, now.toUInt32, dev, addr, initList, none⟩
  let entered := s.setEntry i entry
  have hself : entered.content i = entry := content_setEntry_self entry
  have hother : ∀ j ≠ i, entered.content j = s.content j := fun j hj => content_setEntry_of_ne entry hj
  obtain ⟨own, hmembers, hnil, hfree⟩ := h.setEntry_members hi entry rfl
  obtain ⟨own', hmem, hkeep, hsame⟩ : ∃ own', Members (joinGroup entered i memberAddr) own' none ∧
      (∀ j ≠ i, own' (some j) = own (some j)) ∧
      SameGroups entered (joinGroup entered i memberAddr) := by
    cases memberAddr with
    | none => exact ⟨own, hmembers, fun _ _ => rfl, .refl entered⟩
    | some memberAddr =>
      have hout : memberAddr ∉ (own (some i)).map entered.memberAddr := by
        rw [hnil]
        exact List.not_mem_nil
      obtain ⟨own', hmem, hkeep, hsame, -⟩ := insertIgmpMember_members hmembers memberAddr hout
      exact ⟨own', hmem, hkeep, hsame⟩
  let filled := joinGroup entered i memberAddr
  let full : FilterTable := { filled with size := filled.size + 1 }
  have hfull : enterGroup s i addr memberAddr dev type now = full := rfl
  have hsameFull : ∀ j, (full.content j).valid = (entered.content j).valid ∧
      (full.content j).netDev = (entered.content j).netDev ∧
      (full.content j).addr = (entered.content j).addr ∧ full.next j = entered.next j :=
    fun j => ⟨hsame.valid j, hsame.netDev j, hsame.addr j, hsame.next j⟩
  have hvalid : ∀ j, full.Valid j ↔ s.Valid j ∨ j = i := by
    intro j
    rw [Valid, (hsameFull j).1]
    by_cases hj : j = i
    · rw [hj, hself]
      exact iff_of_true rfl (.inr rfl)
    · rw [hother j hj]
      exact ⟨.inl, fun hv => hv.resolve_right hj⟩
  have hne : ∀ j, s.Valid j → j ≠ i := by
    rintro j hj rfl
    exact hi hj
  have hold : Chain.Hashed full.hash full.next s.Valid s.bucket := by
    refine h.chained.congr (fun b => ?_) (fun _ => Iff.rfl) (fun j hj => ?_) fun _ _ => rfl
    · exact congrFun hsame.hash b
    · rw [(hsameFull j).2.2.2, next, hother j (hne j hj), next]
  have hend : full.next i = none := by
    rw [(hsameFull i).2.2.2, next, hself]
  have hown' : full.bucket i = multicastAddrHashIndex addr := by
    rw [bucket, (hsameFull i).2.2.1, hself]
  have hfuel : Fintype.card GroupIdx ≤ maxLenOfMulticastFilterTable :=
    (Fintype.card_fin maxLenOfMulticastFilterTable).le
  obtain ⟨p, hp, hlinked⟩ := hold.append hfuel hi hend hown' hvalid fun j hj => by
    rw [bucket, (hsameFull j).2.2.1, hother j (hne j hj), bucket]
  refine ⟨full.relink p, ?_, ⟨hlinked, ?_, ?_, own', ?_, fun j hj => ?_⟩⟩
  · rw [hfull, linkGroup, hp]
    rfl
  · have hcard : (Finset.univ.filter (full.relink p).Valid).card =
        (Finset.univ.filter s.Valid).card + 1 := Chain.card_link hi hvalid
    have hsize : full.size = s.size + 1 := by
      change filled.size + 1 = _
      rw [hsame.size]
      rfl
    have hnow := h.size
    have hle := h.size_le
    change full.size.toNat = _
    unfold maxLenOfMulticastFilterTable at hle
    rw [hsize, hcard, UInt8.toNat_add, UInt8.toNat_one]
    omega
  · intro j k hj hk hdev haddr
    change (full.content j).netDev = (full.content k).netDev at hdev
    change (full.content j).addr = (full.content k).addr at haddr
    rw [(hsameFull j).2.1, (hsameFull k).2.1] at hdev
    rw [(hsameFull j).2.2.1, (hsameFull k).2.2.1] at haddr
    -- an old group that was the new one would have been found
    have hclash : ∀ k, s.Valid k → (entered.content i).netDev = (entered.content k).netDev →
        (entered.content i).addr ≠ (entered.content k).addr := by
      intro k hk hdev haddr
      rw [hself, hother k (hne k hk)] at hdev haddr
      have hgroup := hnew k hk
      rw [(isGroup_iff k).mpr ⟨hdev.symm, haddr.symm⟩] at hgroup
      exact Bool.false_ne_true hgroup.symm
    rcases (hvalid j).mp hj with hjs | hji
    · rcases (hvalid k).mp hk with hks | hki
      · rw [hother j (hne j hjs), hother k (hne k hks)] at hdev haddr
        exact h.unique j k hjs hks hdev haddr
      · rw [hki] at hdev haddr
        exact absurd haddr.symm (hclash j hjs hdev.symm)
    · rcases (hvalid k).mp hk with hks | hki
      · rw [hji] at hdev haddr
        exact absurd haddr (hclash k hks hdev)
      · rw [hji, hki]
  · refine hmem.congr (fun b => ?_) rfl rfl
    cases b <;> rfl
  · have hj' : ¬ (s.Valid j ∨ j = i) := fun hv => hj ((hvalid j).mpr hv)
    rw [not_or] at hj'
    rw [hkeep j hj'.2]
    exact hfree j hj'.1

/-- As long as the table is not full, the insertion finds an entry. -/
theorem Ordered.exists_vacant (h : Ordered s) (hroom : s.size.toNat < maxLenOfMulticastFilterTable)
    (hz : UInt32) (now : GroupIdx → UInt64) :
    ∃ i, (List.finRange maxLenOfMulticastFilterTable).find? (isVacant hz now s) = some i := by
  obtain ⟨i, hi⟩ : ∃ i, ¬ s.Valid i := by
    by_contra hall
    have hfull : Finset.univ.filter s.Valid = Finset.univ :=
      Finset.filter_true_of_mem fun i _ => not_not.mp fun hi => hall ⟨i, hi⟩
    rw [h.size, hfull, Finset.card_fin] at hroom
    exact lt_irrefl _ hroom
  refine Option.isSome_iff_exists.mp (List.find?_isSome.mpr ⟨i, List.mem_finRange i, ?_⟩)
  rw [isVacant, Bool.eq_false_iff.mpr hi]
  rfl

theorem Ordered.exists_insertGroup (h : Ordered s)
    (hroom : s.size.toNat < maxLenOfMulticastFilterTable)
    (hnew : ∀ j, s.Valid j → isGroup s dev addr j = false) (hz : UInt32) (clock : Readings)
    (memberAddr : Option (Octets 6)) (type : FilterEntryType) :
    ∃ s', insertGroup hz clock s addr memberAddr dev type = some s' ∧ Ordered s' := by
  obtain ⟨i, hfind⟩ := h.exists_vacant hroom hz clock.scan
  obtain ⟨t, hvacate, hordered, hi, hnew'⟩ : ∃ t, vacate s i = some t ∧ Ordered t ∧ ¬ t.Valid i ∧
      ∀ j, t.Valid j → isGroup t dev addr j = false := by
    by_cases hi : s.Valid i
    · obtain ⟨t, hrun, hordered, hgone⟩ := h.exists_removeAged hi
      refine ⟨t, ?_, hordered, hgone.gone, fun j hj => ?_⟩
      · rw [vacate]
        exact (if_pos hi).trans hrun
      · obtain ⟨hj, hji⟩ := (hgone.valid_iff j).mp hj
        rw [hgone.isGroup hji]
        exact hnew j hj
    · exact ⟨s, if_neg hi, h, hi, hnew⟩
  obtain ⟨s', hlink, hordered'⟩ := hordered.enter hi hnew' memberAddr type clock.entered
  refine ⟨s', ?_, hordered'⟩
  rw [insertGroup, hfind]
  dsimp only
  rw [hvacate]
  exact hlink

/-- **An insertion keeps the order.** -/
theorem Ordered.insert (h : Ordered s) (hz : UInt32) (clock : Readings) (grpId : Octets 6)
    (memberAddr : Option (Octets 6)) (dev : NetDev) (type : FilterEntryType) :
    ∃ s' ok, multicastFilterTableInsertEntry hz clock s grpId memberAddr dev type =
      some (s', ok) ∧ Ordered s' := by
  rw [multicastFilterTableInsertEntry]
  by_cases hfull : maxLenOfMulticastFilterTable ≤ s.size.toNat
  · rw [if_pos hfull]
    exact ⟨s, false, rfl, h⟩
  · rw [if_neg hfull]
    obtain ⟨t, found, hlook, hordered, hsub, hfound, hnone⟩ := h.lookup hz clock.lookup grpId dev
    rw [hlook]
    dsimp only [Option.bind_eq_bind, Option.bind_some]
    cases found with
    | none =>
      have hroom : t.size.toNat < maxLenOfMulticastFilterTable := by
        have hle : (Finset.univ.filter t.Valid).card ≤ (Finset.univ.filter s.Valid).card :=
          Finset.card_le_card (Finset.monotone_filter_right _ fun j _ => hsub j)
        rw [← hordered.size, ← h.size] at hle
        omega
      obtain ⟨s', hrun, hordered'⟩ :=
        hordered.exists_insertGroup hroom (hnone rfl) hz clock memberAddr type
      dsimp only
      rw [hrun]
      exact ⟨s', true, rfl, hordered'⟩
    | some i =>
      cases memberAddr with
      | none => exact ⟨t, false, rfl, hordered⟩
      | some memberAddr =>
        obtain ⟨own, hown, hfree⟩ := hordered.members
        dsimp only
        rw [isMember_eq hown i memberAddr, Option.bind_some]
        by_cases hin : memberAddr ∈ (own (some i)).map t.memberAddr
        · rw [if_pos (decide_eq_true hin)]
          exact ⟨t, false, rfl, hordered⟩
        · rw [if_neg fun hd => hin (of_decide_eq_true hd)]
          obtain ⟨own', hmem, hkeep, hsame, -⟩ := insertIgmpMember_members hown memberAddr hin
          refine ⟨_, true, rfl, hordered.of_sameGroups hsame ⟨own', hmem, fun j hj => ?_⟩⟩
          rw [hsame.valid_iff j] at hj
          have hji : j ≠ i := by
            rintro rfl
            exact hj (hfound j rfl).1
          rw [hkeep j hji]
          exact hfree j hj

/-- **A station that goes leaves every group.** -/
theorem Ordered.delMembers (h : Ordered s) (memberAddr : Option (Octets 6)) (dev : NetDev)
    (groups : List GroupIdx) :
    ∃ s', groups.foldlM (groupDelMember memberAddr dev) s = some s' ∧ Ordered s' := by
  induction groups generalizing s with
  | nil => exact ⟨s, rfl, h⟩
  | cons i groups ih =>
    obtain ⟨t, hturn, hordered⟩ :
        ∃ t, groupDelMember memberAddr dev s i = some t ∧ Ordered t := by
      rw [groupDelMember]
      by_cases hi : (s.content i).valid = true
      · obtain ⟨left, hleave, hordered, -⟩ := leaveGroup_members h i memberAddr
        rw [if_pos hi, hleave]
        dsimp only [Option.bind_eq_bind, Option.bind_some]
        by_cases hlast : (left.content i).type = .dynamic ∧ igmpMemberCnt left i = 0
        · rw [if_pos hlast]
          exact hordered.delete (left.content i).addr memberAddr dev
        · rw [if_neg hlast]
          exact ⟨left, rfl, hordered⟩
      · rw [if_neg hi]
        exact ⟨s, rfl, h⟩
    rw [List.foldlM_cons, hturn]
    exact ih hordered

end

end Mt7601.Igmp
