/-
# Lists with a header

`initList`, `insertTailList`, `removeHeadList` and `delEntryList` of `include/link_list.h`. The
entries carry the link themselves, so several lists share one `pNext`; `IsList` says which entries a
header stands for, and each function is described by what it makes of that list and by the links it
leaves alone.
-/
import Mt7601.Lib.Chain

namespace Mt7601.Igmp

/-- `LIST_HEADER` -/
structure ListHeader (ν : Type) where
  pHead : Option ν := none
  pTail : Option ν := none
  size : UInt8 := 0

/-! ## 1. The functions -/

section

variable {ν : Type} [DecidableEq ν]

/-- `initList` -/
def initList : ListHeader ν := {}

/-- `insertTailList` -/
def insertTailList (list : ListHeader ν) (next : ν → Option ν) (entry : ν) :
    ListHeader ν × (ν → Option ν) :=
  let cleared := Function.update next entry none
  match list.pTail with
  | some tail =>
    ({ list with pTail := some entry, size := list.size + 1 },
      Function.update cleared tail (some entry))
  | none => ({ pHead := some entry, pTail := some entry, size := list.size + 1 }, cleared)

/-- The header when its first entry is gone and the list begins with `pNext`. -/
def ListHeader.dropHead (list : ListHeader ν) (pNext : Option ν) : ListHeader ν where
  pHead := pNext
  pTail := if pNext = none then none else list.pTail
  size := list.size - 1

/-- `removeHeadList` -/
def removeHeadList (list : ListHeader ν) (next : ν → Option ν) : Option ν × ListHeader ν :=
  match list.pHead with
  | none => (none, list)
  | some entry => (some entry, list.dropHead (next entry))

/-- `delEntryList`, with the number of turns its loop is given. -/
def delEntryList (fuel : Nat) (list : ListHeader ν) (next : ν → Option ν) (entry : ν) :
    Option (ListHeader ν × (ν → Option ν)) :=
  match list.pHead with
  | none => some (list, next)
  | some head =>
    if entry = head then some (list.dropHead (next head), next)
    else do
      let (prv, cur) ← Chain.walk next (fun k => decide (k = entry)) fuel (some head) (next head)
      match prv, cur with
      | some prv, some _ =>
        pure ({ list with
          pTail := if list.pTail = some entry then some prv else list.pTail
          size := list.size - 1 }, Function.update next prv (next entry))
      | _, _ => pure (list, next)

end

/-! ## 2. What they do to a list -/

section

variable {ν : Type}

/-- **The header stands for the entries of `l`**, in this order. -/
structure IsList (next : ν → Option ν) (list : ListHeader ν) (l : List ν) : Prop where
  linked : Chain.Linked next list.pHead l
  tail : list.pTail = l.getLast?
  size : list.size.toNat = l.length

/-- The same with a count that is an octet: it is right up to `255` entries. -/
structure IsListMod (next : ν → Option ν) (list : ListHeader ν) (l : List ν) : Prop where
  linked : Chain.Linked next list.pHead l
  tail : list.pTail = l.getLast?
  size : list.size.toNat = l.length % 256

variable {next next' : ν → Option ν} {list : ListHeader ν} {l a r : List ν} {entry : ν}

theorem isList_iff : IsList next list l ↔ IsListMod next list l ∧ l.length < 256 := by
  constructor
  · intro h
    have hsize := h.size
    have hlt := list.size.toNat_lt
    exact ⟨⟨h.linked, h.tail, by omega⟩, by omega⟩
  · rintro ⟨h, hlt⟩
    have hsize := h.size
    exact ⟨h.linked, h.tail, by omega⟩

theorem IsList.toMod (h : IsList next list l) : IsListMod next list l := (isList_iff.mp h).1

theorem IsList.length_lt (h : IsList next list l) : l.length < 256 := (isList_iff.mp h).2

theorem isListMod_init : IsListMod next initList [] := ⟨.nil, rfl, rfl⟩

theorem isList_nil : IsList next list [] ↔ list = initList := by
  constructor
  · rintro ⟨hlinked, htail, hsize⟩
    obtain ⟨pHead, pTail, size⟩ := list
    have hhead : pHead = none := hlinked.head?.symm
    have hzero : size = 0 := UInt8.toNat_inj.mp hsize
    rw [hhead, hzero]
    exact congrArg (ListHeader.mk none · 0) htail
  · rintro rfl
    exact ⟨.nil, rfl, rfl⟩

theorem IsList.congr (h : IsList next list l) (hnext : ∀ k ∈ l, next' k = next k) :
    IsList next' list l :=
  ⟨h.linked.congr hnext, h.tail, h.size⟩

theorem IsListMod.nodup (h : IsListMod next list l) : l.Nodup := h.linked.nodup

theorem IsListMod.pHead_eq (h : IsListMod next list l) : list.pHead = l.head? := h.linked.head?.symm

theorem IsListMod.dropHead (h : IsListMod next list (entry :: r)) :
    IsListMod next (list.dropHead (next entry)) r := by
  have hrest := (Chain.linked_cons.mp h.linked).2
  have hsize := h.size
  rw [List.length_cons] at hsize
  refine ⟨hrest, ?_, ?_⟩
  · have hhead := hrest.head?
    rw [ListHeader.dropHead, ← hhead]
    cases r with
    | nil => rfl
    | cons b r =>
      rw [List.head?_cons, if_neg (Option.some_ne_none b), h.tail, List.getLast?_cons_cons]
  · rw [ListHeader.dropHead, UInt8.toNat_sub, UInt8.toNat_one]
    omega

theorem IsList.nodup (h : IsList next list l) : l.Nodup := h.linked.nodup

theorem IsList.pHead_eq (h : IsList next list l) : list.pHead = l.head? := h.linked.head?.symm

theorem IsList.dropHead (h : IsList next list (entry :: r)) :
    IsList next (list.dropHead (next entry)) r := by
  have hlt := h.length_lt
  rw [List.length_cons] at hlt
  exact isList_iff.mpr ⟨h.toMod.dropHead, by omega⟩

theorem IsListMod.removeHead (h : IsListMod next list (entry :: r)) :
    ∃ list', removeHeadList list next = (some entry, list') ∧ IsListMod next list' r := by
  have hhead : list.pHead = some entry := h.pHead_eq
  refine ⟨_, ?_, h.dropHead⟩
  rw [removeHeadList, hhead]

theorem IsListMod.removeHead_nil (h : IsListMod next list []) :
    removeHeadList list next = (none, list) := by
  have hhead : list.pHead = none := h.pHead_eq
  rw [removeHeadList, hhead]

theorem IsList.removeHead (h : IsList next list (entry :: r)) :
    ∃ list', removeHeadList list next = (some entry, list') ∧ IsList next list' r := by
  have hhead : list.pHead = some entry := h.pHead_eq
  refine ⟨_, ?_, h.dropHead⟩
  rw [removeHeadList, hhead]

theorem IsList.removeHead_nil (h : IsList next list []) :
    removeHeadList list next = (none, list) :=
  h.toMod.removeHead_nil

variable [DecidableEq ν]

theorem IsListMod.insertTail (h : IsListMod next list l) (hnew : entry ∉ l) :
    IsListMod (insertTailList list next entry).2 (insertTailList list next entry).1 (l ++ [entry]) := by
  have hsize : (list.size + 1).toNat = (l ++ [entry]).length % 256 := by
    rw [UInt8.toNat_add, UInt8.toNat_one, h.size, List.length_append, List.length_singleton]
    omega
  rcases List.eq_nil_or_concat' l with rfl | ⟨a, last, rfl⟩
  · have hend : list.pTail = none := h.tail
    rw [insertTailList, hend]
    have hlast : Function.update next entry none entry = none := Function.update_self ..
    refine ⟨.cons entry ?_, rfl, hsize⟩
    dsimp only
    rw [hlast]
    exact .nil
  · have hend : list.pTail = some last := by rw [h.tail, List.getLast?_concat]
    have hne : entry ≠ last := by
      rintro rfl
      exact hnew (List.mem_append_right a (List.mem_singleton_self _))
    have hlast : last ∉ a := fun hin =>
      (List.nodup_append.mp h.nodup).2.2 last hin last (List.mem_singleton_self last) rfl
    rw [insertTailList, hend]
    refine ⟨h.linked.snoc hnew ?_ ?_ fun k hk => ?_, ?_, hsize⟩
    · dsimp only
      rw [Function.update_of_ne hne, Function.update_self]
    · exact Function.update_self ..
    · have hkl : k ≠ last := by
        rintro rfl
        exact hlast hk
      have hke : k ≠ entry := by
        rintro rfl
        exact hnew (List.mem_append_left [last] hk)
      dsimp only
      rw [Function.update_of_ne hkl, Function.update_of_ne hke]
    · rw [List.getLast?_concat]

theorem IsList.insertTail (h : IsList next list l) (hnew : entry ∉ l) (hroom : l.length < 255) :
    IsList (insertTailList list next entry).2 (insertTailList list next entry).1 (l ++ [entry]) := by
  refine isList_iff.mpr ⟨h.toMod.insertTail hnew, ?_⟩
  rw [List.length_append, List.length_singleton]
  omega

/-- Only links of the list and of the new entry are written. -/
theorem IsListMod.insertTail_next (h : IsListMod next list l) {k : ν} (hk : k ∉ l ++ [entry]) :
    (insertTailList list next entry).2 k = next k := by
  have hke : k ≠ entry := by
    rintro rfl
    exact hk (List.mem_append_right l (List.mem_singleton_self _))
  rcases List.eq_nil_or_concat' l with rfl | ⟨a, last, rfl⟩
  · have hend : list.pTail = none := h.tail
    rw [insertTailList, hend]
    exact Function.update_of_ne hke ..
  · have hend : list.pTail = some last := by rw [h.tail, List.getLast?_concat]
    have hkl : k ≠ last := by
      rintro rfl
      exact hk (List.mem_append_left [entry] (List.mem_append_right a (List.mem_singleton_self _)))
    rw [insertTailList, hend]
    dsimp only
    rw [Function.update_of_ne hkl, Function.update_of_ne hke]

theorem IsList.insertTail_next (h : IsList next list l) {k : ν} (hk : k ∉ l ++ [entry]) :
    (insertTailList list next entry).2 k = next k :=
  h.toMod.insertTail_next hk

/-- **Deleting an entry of a list leaves the list without it**, and its own link as it was. -/
theorem IsListMod.delEntry (h : IsListMod next list (a ++ entry :: r)) {fuel : Nat}
    (hfuel : (a ++ entry :: r).length ≤ fuel) :
    ∃ list' next', delEntryList fuel list next entry = some (list', next') ∧
      IsListMod next' list' (a ++ r) ∧ ∀ k ∉ a, next' k = next k := by
  cases a with
  | nil =>
    have hhead : list.pHead = some entry := h.pHead_eq
    refine ⟨_, next, ?_, h.dropHead, fun _ _ => rfl⟩
    rw [delEntryList, hhead]
    exact if_pos rfl
  | cons head a =>
    have hnodup := h.nodup
    have hhead : list.pHead = some head := h.pHead_eq
    have hne : entry ≠ head := by
      rintro rfl
      exact (List.nodup_cons.mp hnodup).1 (List.mem_append_right a (List.mem_cons_self ..))
    have hrest : Chain.Linked next (next head) (a ++ entry :: r) := (Chain.linked_cons.mp h.linked).2
    have hpass : ∀ k ∈ a, decide (k = entry) = false := by
      intro k hk
      rw [decide_eq_false_iff_not]
      rintro rfl
      exact (List.nodup_append.mp (List.nodup_cons.mp hnodup).2).2.2 k hk k (List.mem_cons_self ..) rfl
    have hwalk : Chain.walk next (fun k => decide (k = entry)) fuel (some head) (next head) =
        some (a.getLast?.or (some head), some entry) :=
      hrest.walk_stop (by simp at hfuel ⊢; omega) hpass (decide_eq_true rfl)
    obtain ⟨prv, hprv⟩ : ∃ prv, a.getLast?.or (some head) = some prv := by
      cases a.getLast? with
      | none => exact ⟨head, rfl⟩
      | some b => exact ⟨b, rfl⟩
    obtain ⟨b, hb⟩ : ∃ b, head :: a = b ++ [prv] := by
      rcases List.eq_nil_or_concat' a with rfl | ⟨b, last, rfl⟩
      · exact ⟨[], by rw [← Option.some.inj hprv]; rfl⟩
      · rw [List.getLast?_concat] at hprv
        exact ⟨head :: b, by rw [← Option.some.inj hprv]; rfl⟩
    have hall : (head :: a) ++ entry :: r = b ++ prv :: entry :: r := by
      rw [hb, List.append_assoc]
      rfl
    let list' : ListHeader ν :=
      { list with
        pTail := if list.pTail = some entry then some prv else list.pTail
        size := list.size - 1 }
    refine ⟨list', Function.update next prv (next entry), ?_, ⟨?_, ?_, ?_⟩, fun k hk => ?_⟩
    · rw [delEntryList, hhead]
      dsimp only
      rw [if_neg hne, hwalk, hprv]
      exact congrArg (fun p => some (ListHeader.mk p list'.pTail list'.size, _)) hhead.symm
    · have hchain := h.linked
      rw [hall] at hchain hnodup
      rw [hb, List.append_assoc]
      refine hchain.unlink (Function.update_self ..) fun k hk => Function.update_of_ne ?_ ..
      rintro rfl
      simp only [List.nodup_append, List.nodup_cons, List.mem_append, List.mem_cons] at hnodup hk
      rcases hk with hk | hk
      · exact hnodup.2.2 k hk k (.inl rfl) rfl
      · exact hnodup.2.1.1 (.inr hk)
    · have htail := h.tail
      rw [hall] at htail hnodup
      rw [hb, List.append_assoc]
      change (if list.pTail = some entry then some prv else list.pTail) = _
      rcases List.eq_nil_or_concat' r with rfl | ⟨r, last, rfl⟩
      · have hlast : list.pTail = some entry := by
          rw [htail]
          simp
        rw [if_pos hlast]
        simp
      · have hsplit : b ++ prv :: entry :: (r ++ [last]) = (b ++ prv :: entry :: r) ++ [last] := by
          simp
        have hlast : list.pTail = some last := by
          rw [htail, hsplit, List.getLast?_concat]
        have hle : last ≠ entry := by
          rintro rfl
          obtain ⟨-, hrest, -⟩ := List.nodup_append.mp hnodup
          have hout := (List.nodup_cons.mp (List.nodup_cons.mp hrest).2).1
          exact hout (List.mem_append_right r (List.mem_singleton_self _))
        rw [hlast, if_neg fun heq => hle (Option.some.inj heq), ← List.append_assoc,
          ← List.append_assoc, List.getLast?_concat]
    · have hsize := h.size
      have hlen : (head :: a ++ entry :: r).length = (head :: a ++ r).length + 1 := by
        simp only [List.length_append, List.length_cons]
        omega
      change (list.size - 1).toNat = _
      rw [UInt8.toNat_sub, UInt8.toNat_one]
      omega
    · refine Function.update_of_ne ?_ ..
      rintro rfl
      rw [hb] at hk
      exact hk (List.mem_append_right b (List.mem_singleton_self _))

theorem IsList.delEntry (h : IsList next list (a ++ entry :: r)) {fuel : Nat}
    (hfuel : (a ++ entry :: r).length ≤ fuel) :
    ∃ list' next', delEntryList fuel list next entry = some (list', next') ∧
      IsList next' list' (a ++ r) ∧ ∀ k ∉ a, next' k = next k := by
  obtain ⟨list', next', hdel, hlist, hnext⟩ := h.toMod.delEntry hfuel
  refine ⟨list', next', hdel, isList_iff.mpr ⟨hlist, ?_⟩, hnext⟩
  have hlt := h.length_lt
  rw [List.length_append, List.length_cons] at hlt
  rw [List.length_append]
  omega

/-- What is not in the list is looked for to its end. -/
theorem IsListMod.delEntry_of_notMem (h : IsListMod next list l) {fuel : Nat} (hfuel : l.length ≤ fuel)
    (hnot : entry ∉ l) : delEntryList fuel list next entry = some (list, next) := by
  cases l with
  | nil =>
    have hhead : list.pHead = none := h.pHead_eq
    rw [delEntryList, hhead]
  | cons head l =>
    have hhead : list.pHead = some head := h.pHead_eq
    have hne : entry ≠ head := by
      rintro rfl
      exact hnot (List.mem_cons_self ..)
    have hrest : Chain.Linked next (next head) l := (Chain.linked_cons.mp h.linked).2
    have hpass : ∀ k ∈ l, decide (k = entry) = false := by
      intro k hk
      rw [decide_eq_false_iff_not]
      rintro rfl
      exact hnot (List.mem_cons_of_mem _ hk)
    rw [List.length_cons] at hfuel
    rw [delEntryList, hhead]
    dsimp only
    rw [if_neg hne, hrest.walk_pass (by omega) hpass]
    cases l.getLast?.or (some head) <;> rfl

end

end Mt7601.Igmp
