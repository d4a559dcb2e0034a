/-
# Singly linked chains, and tables that are hashed into such chains

The elements of a pool are linked through a `next` pointer of their own. A chain is the list of the
elements that are met from one pointer to the end (`Linked`): it is determined by the pointer, it
never comes back to an element, and a loop over it ends after as many turns as it has elements
(`walk`). A table keeps one chain for each bucket of a hash; it is in order when each chain holds
exactly the valid elements of its bucket (`Hashed`). The rules say how the table stays in order when
an element is linked behind the last one of a chain and when one is taken out.
-/
import Mathlib.Data.Fintype.Card
import Mathlib.Data.Finset.Card
import Mathlib.Algebra.BigOperators.Group.Finset.Basic
import Mathlib.Data.List.Nodup

namespace Chain

variable {ι β : Type}

/-- An element of a list without doubles is not elsewhere in it. -/
theorem not_mem_of_nodup_middle {l r : List ι} {i : ι} (h : (l ++ i :: r).Nodup) : i ∉ l ++ r :=
  (List.nodup_cons.mp (List.nodup_middle.mp h)).1

/-! ## 1. Chains -/

/-- **The elements met from a pointer along `next`, up to the end.** -/
inductive Linked (next : ι → Option ι) : Option ι → List ι → Prop
  | nil : Linked next none []
  | cons (i : ι) {l : List ι} : Linked next (next i) l → Linked next (some i) (i :: l)

section

variable {next next' : ι → Option ι} {p : Option ι} {l l' : List ι} {i j : ι}

theorem linked_none : Linked next none l ↔ l = [] := by
  constructor
  · intro h
    cases h
    rfl
  · rintro rfl
    exact .nil

theorem linked_some : Linked next (some i) l ↔ ∃ r, l = i :: r ∧ Linked next (next i) r := by
  constructor
  · intro h
    cases h with
    | cons _ h => exact ⟨_, rfl, h⟩
  · rintro ⟨r, rfl, h⟩
    exact .cons i h

theorem linked_cons : Linked next p (i :: l) ↔ p = some i ∧ Linked next (next i) l := by
  constructor
  · intro h
    cases h with
    | cons _ h => exact ⟨rfl, h⟩
  · rintro ⟨rfl, h⟩
    exact .cons i h

/-- A pointer has one chain. -/
theorem Linked.unique (h : Linked next p l) (h' : Linked next p l') : l = l' := by
  induction h generalizing l' with
  | nil => exact (linked_none.mp h').symm
  | cons i h ih =>
    obtain ⟨r, rfl, hr⟩ := linked_some.mp h'
    rw [ih hr]

/-- From an element in the middle the chain goes on to the same end. -/
theorem Linked.suffix {a r : List ι} (h : Linked next p (a ++ i :: r)) :
    Linked next (next i) r := by
  induction a generalizing p with
  | nil => exact (linked_cons.mp h).2
  | cons b a ih => exact ih (linked_cons.mp h).2

/-- **A chain has no cycle.** -/
theorem Linked.nodup (h : Linked next p l) : l.Nodup := by
  induction h with
  | nil => exact List.nodup_nil
  | @cons i l h ih =>
    refine List.nodup_cons.mpr ⟨fun hmem => ?_, ih⟩
    -- the chain from the second visit on would be as long as the whole and shorter than it
    obtain ⟨a, r, rfl⟩ := List.append_of_mem hmem
    have hsame := congrArg List.length (h.unique h.suffix)
    simp at hsame
    omega

theorem Linked.length_le [Fintype ι] (h : Linked next p l) : l.length ≤ Fintype.card ι :=
  h.nodup.length_le_card

/-- Only the pointers of its own elements matter to a chain. -/
theorem Linked.congr (h : Linked next p l) (hnext : ∀ i ∈ l, next' i = next i) :
    Linked next' p l := by
  induction h with
  | nil => exact .nil
  | cons i h ih =>
    refine .cons i ?_
    rw [hnext i (List.mem_cons_self ..)]
    exact ih fun j hj => hnext j (List.mem_cons_of_mem i hj)

theorem Linked.head? (h : Linked next p l) : l.head? = p := by
  cases h <;> rfl

/-- The last element leads nowhere, and it is the only one. -/
theorem Linked.next_eq_none_iff {a : List ι} (h : Linked next p (a ++ [j])) (hi : i ∈ a ++ [j]) :
    next i = none ↔ i = j := by
  induction a generalizing p with
  | nil =>
    have hend : next j = none := (h.suffix (a := [])).head?.symm
    have hij : i = j := List.mem_singleton.mp hi
    rw [hij, hend]
    simp
  | cons b a ih =>
    obtain ⟨-, hrest⟩ := linked_cons.mp h
    rcases List.mem_cons.mp hi with rfl | hi
    · have hhead : (a ++ [j]).head? = next i := hrest.head?
      have hj : j ∈ a ++ [j] := List.mem_append_right a (List.mem_singleton_self j)
      have hne : i ≠ j := by
        rintro rfl
        exact (List.nodup_cons.mp h.nodup).1 hj
      have hsome : next i ≠ none := by
        rw [← hhead]
        simp
      exact iff_of_false hsome hne
    · exact ih hrest hi

/-- A new last element. -/
theorem Linked.snoc {a : List ι} (h : Linked next p (a ++ [j])) (hi : i ∉ a ++ [j])
    (hend : next' i = none) (hlast : next' j = some i) (hnext : ∀ k ∈ a, next' k = next k) :
    Linked next' p (a ++ [j] ++ [i]) := by
  induction a generalizing p with
  | nil =>
    obtain ⟨rfl, -⟩ := linked_cons.mp h
    refine .cons j ?_
    rw [hlast]
    refine .cons i ?_
    rw [hend]
    exact .nil
  | cons b a ih =>
    obtain ⟨rfl, hrest⟩ := linked_cons.mp h
    refine .cons b ?_
    rw [hnext b (List.mem_cons_self ..)]
    exact ih hrest (fun hmem => hi (List.mem_cons_of_mem b hmem))
      fun k hk => hnext k (List.mem_cons_of_mem b hk)

/-- The element behind `j` is taken out. -/
theorem Linked.unlink {a r : List ι} (h : Linked next p (a ++ j :: i :: r))
    (hlink : next' j = next i) (hnext : ∀ k ∈ a ++ r, next' k = next k) :
    Linked next' p (a ++ j :: r) := by
  induction a generalizing p with
  | nil =>
    obtain ⟨rfl, hi⟩ := linked_cons.mp h
    refine .cons j ?_
    rw [hlink]
    exact (linked_cons.mp hi).2.congr hnext
  | cons b a ih =>
    obtain ⟨rfl, hrest⟩ := linked_cons.mp h
    refine .cons b ?_
    rw [hnext b (List.mem_cons_self ..)]
    exact ih hrest fun k hk => hnext k (List.mem_cons_of_mem b hk)

end

/-! ## 2. Loops over a chain -/

/-- The elements that a loop of so many turns meets. -/
def follow (next : ι → Option ι) : Nat → Option ι → List ι
  | 0, _ => []
  | _ + 1, none => []
  | fuel + 1, some i => i :: follow next fuel (next i)

theorem Linked.follow_eq {next : ι → Option ι} {p : Option ι} {l : List ι} (h : Linked next p l)
    {fuel : Nat} (hfuel : l.length ≤ fuel) : follow next fuel p = l := by
  induction h generalizing fuel with
  | nil => cases fuel <;> rfl
  | cons i _ ih =>
    obtain _ | fuel := fuel
    · simp at hfuel
    rw [follow, ih (by simp at hfuel; omega)]

/-- The loop `while (p && !halt(p)) { prev = p; p = p->next; }`: the pointers it ends with. `none`
says that it is not through after `fuel` turns. -/
def walk (next : ι → Option ι) (halt : ι → Bool) :
    Nat → Option ι → Option ι → Option (Option ι × Option ι)
  | _, prev, none => some (prev, none)
  | 0, _, some _ => none
  | fuel + 1, prev, some i =>
      if halt i then some (prev, some i) else walk next halt fuel (some i) (next i)

section

variable {next : ι → Option ι} {halt : ι → Bool} {p prev : Option ι} {l : List ι} {i : ι}
variable {fuel : Nat}

/-- **A loop that stops at an element.** -/
theorem Linked.walk_stop {a r : List ι} (h : Linked next p (a ++ i :: r))
    (hfuel : (a ++ i :: r).length ≤ fuel) (hpass : ∀ j ∈ a, halt j = false) (hstop : halt i = true) :
    walk next halt fuel prev p = some (a.getLast?.or prev, some i) := by
  induction a generalizing p prev fuel with
  | nil =>
    obtain ⟨rfl, -⟩ := linked_cons.mp h
    obtain _ | fuel := fuel
    · simp at hfuel
    rw [walk, if_pos hstop]
    rfl
  | cons b a ih =>
    obtain ⟨rfl, hrest⟩ := linked_cons.mp h
    obtain _ | fuel := fuel
    · simp at hfuel
    have hb : ¬ halt b = true := by
      rw [hpass b (List.mem_cons_self ..)]
      exact Bool.false_ne_true
    rw [walk, if_neg hb, ih hrest (by simp at hfuel ⊢; omega)
      fun j hj => hpass j (List.mem_cons_of_mem b hj)]
    cases a <;> simp [List.getLast?_cons]

/-- A loop that stops nowhere. -/
theorem Linked.walk_pass (h : Linked next p l) (hfuel : l.length ≤ fuel)
    (hpass : ∀ j ∈ l, halt j = false) :
    walk next halt fuel prev p = some (l.getLast?.or prev, none) := by
  induction h generalizing prev fuel with
  | nil => cases fuel <;> rfl
  | @cons b l _ ih =>
    obtain _ | fuel := fuel
    · simp at hfuel
    have hb : ¬ halt b = true := by
      rw [hpass b (List.mem_cons_self ..)]
      exact Bool.false_ne_true
    rw [walk, if_neg hb, ih (by simp at hfuel; omega)
      fun j hj => hpass j (List.mem_cons_of_mem b hj)]
    cases l <;> simp [List.getLast?_cons]

/-- **A loop over a chain ends**, at the first element it is to stop at. -/
theorem Linked.walk_eq (h : Linked next p l) (hfuel : l.length ≤ fuel) :
    ∃ q, walk next halt fuel prev p = some (q, l.find? halt) := by
  cases hfind : l.find? halt with
  | none =>
    have hpass : ∀ j ∈ l, halt j = false := by simpa using hfind
    exact ⟨_, h.walk_pass hfuel hpass⟩
  | some i =>
    obtain ⟨hstop, a, r, rfl, hpass⟩ := List.find?_eq_some_iff_append.mp hfind
    exact ⟨_, h.walk_stop hfuel (by simpa using hpass) hstop⟩

/-- The loop that goes to the last element. -/
theorem Linked.walk_last {a : List ι} (h : Linked next p (a ++ [i]))
    (hfuel : (a ++ [i]).length ≤ fuel) :
    ∃ q, walk next (fun j => (next j).isNone) fuel prev p = some (q, some i) := by
  have hnodup := h.nodup
  refine ⟨_, h.walk_stop hfuel (fun j hj => ?_) ?_⟩
  · have hne : j ≠ i := by
      rintro rfl
      exact (List.nodup_append.mp hnodup).2.2 j hj j (List.mem_singleton_self j) rfl
    have hsome := (h.next_eq_none_iff (List.mem_append_left [i] hj)).not.mpr hne
    exact Option.isNone_eq_false_iff.mpr (Option.isSome_iff_ne_none.mpr hsome)
  · have hend := (h.next_eq_none_iff (List.mem_append_right a (List.mem_singleton_self i))).mpr rfl
    simpa using hend

end

/-! ## 3. A table of chains -/

/-- **Each chain holds the valid elements of its bucket**, each of them once. -/
def Hashed (head : β → Option ι) (next : ι → Option ι) (valid : ι → Prop) (bucket : ι → β) : Prop :=
  ∀ b, ∃ l, Linked next (head b) l ∧ ∀ i, i ∈ l ↔ valid i ∧ bucket i = b

section

variable {head head' : β → Option ι} {next next' : ι → Option ι} {valid valid' : ι → Prop}
variable {bucket bucket' : ι → β} {b : β} {i j : ι}

/-- A table without an element. -/
theorem hashed_empty (hhead : ∀ b, head b = none) (hvalid : ∀ i, ¬ valid i) :
    Hashed head next valid bucket := by
  intro b
  refine ⟨[], ?_, fun i => ?_⟩
  · rw [hhead b]
    exact .nil
  · exact iff_of_false List.not_mem_nil fun h => hvalid i h.1

/-- What the table says depends on the valid elements only. -/
theorem Hashed.congr (h : Hashed head next valid bucket) (hhead : ∀ b, head' b = head b)
    (hvalid : ∀ i, valid' i ↔ valid i) (hnext : ∀ i, valid i → next' i = next i)
    (hbucket : ∀ i, valid i → bucket' i = bucket i) : Hashed head' next' valid' bucket' := by
  intro b
  obtain ⟨l, hl, hmem⟩ := h b
  refine ⟨l, ?_, fun i => ?_⟩
  · rw [hhead b]
    exact hl.congr fun i hi => hnext i ((hmem i).mp hi).1
  · rw [hmem i, hvalid i]
    exact and_congr_right fun hi => by rw [hbucket i hi]

theorem Hashed.valid_of_mem {l : List ι} (h : Hashed head next valid bucket)
    (hl : Linked next (head b) l) (hi : i ∈ l) : valid i ∧ bucket i = b := by
  obtain ⟨l', hl', hmem⟩ := h b
  rw [hl.unique hl'] at hi
  exact (hmem i).mp hi

/-- A first element of an empty chain. -/
theorem Hashed.link_first [DecidableEq β] (h : Hashed head next valid bucket) (hempty : head b = none)
    (hnew : ¬ valid i) (hend : next' i = none) (hown : bucket' i = b)
    (hhead : ∀ c, head' c = if c = b then some i else head c)
    (hvalid : ∀ k, valid' k ↔ valid k ∨ k = i) (hnext : ∀ k, valid k → next' k = next k)
    (hbucket : ∀ k, valid k → bucket' k = bucket k) : Hashed head' next' valid' bucket' := by
  intro c
  obtain ⟨l, hl, hmem⟩ := h c
  have hkeep : Linked next' (head c) l := hl.congr fun k hk => hnext k ((hmem k).mp hk).1
  by_cases hc : c = b
  · have hnil : l = [] := by
      rw [hc, hempty] at hl
      exact linked_none.mp hl
    refine ⟨[i], ?_, fun k => ?_⟩
    · rw [hhead c, if_pos hc]
      refine .cons i ?_
      rw [hend]
      exact .nil
    · rw [List.mem_singleton, hvalid k]
      constructor
      · rintro rfl
        exact ⟨.inr rfl, hown.trans hc.symm⟩
      · rintro ⟨hk | hk, hkc⟩
        · rw [hbucket k hk] at hkc
          have hin := (hmem k).mpr ⟨hk, hkc⟩
          rw [hnil] at hin
          exact nomatch hin
        · exact hk
  · refine ⟨l, ?_, fun k => ?_⟩
    · rw [hhead c, if_neg hc]
      exact hkeep
    · rw [hmem k, hvalid k]
      constructor
      · rintro ⟨hk, hkc⟩
        exact ⟨.inl hk, (hbucket k hk).trans hkc⟩
      · rintro ⟨hk | rfl, hkc⟩
        · exact ⟨hk, (hbucket k hk).symm.trans hkc⟩
        · exact absurd (hkc.symm.trans hown) hc

/-- A new element behind the last one of a chain. -/
theorem Hashed.link_last (h : Hashed head next valid bucket) {a : List ι}
    (hchain : Linked next (head b) (a ++ [j])) (hnew : ¬ valid i) (hend : next' i = none)
    (hlast : next' j = some i) (hown : bucket' i = b) (hhead : ∀ c, head' c = head c)
    (hvalid : ∀ k, valid' k ↔ valid k ∨ k = i) (hnext : ∀ k, valid k → k ≠ j → next' k = next k)
    (hbucket : ∀ k, valid k → bucket' k = bucket k) : Hashed head' next' valid' bucket' := by
  intro c
  obtain ⟨l, hl, hmem⟩ := h c
  have hj : valid j ∧ bucket j = b :=
    h.valid_of_mem hchain (List.mem_append_right a (List.mem_singleton_self j))
  by_cases hc : c = b
  · rw [hc] at hl hmem
    have hsame := hl.unique hchain
    rw [hsame] at hmem
    refine ⟨a ++ [j] ++ [i], ?_, fun k => ?_⟩
    · rw [hhead c, hc]
      refine hchain.snoc (fun hi => hnew ((hmem i).mp hi).1) hend hlast fun k hk => ?_
      refine hnext k ((hmem k).mp (List.mem_append_left [j] hk)).1 ?_
      rintro rfl
      exact (List.nodup_append.mp hchain.nodup).2.2 k hk k (List.mem_singleton_self k) rfl
    · rw [List.mem_append, hmem k, List.mem_singleton, hvalid k, hc]
      constructor
      · rintro (⟨hk, hkb⟩ | rfl)
        · exact ⟨.inl hk, (hbucket k hk).trans hkb⟩
        · exact ⟨.inr rfl, hown⟩
      · rintro ⟨hk | hk, hkb⟩
        · exact .inl ⟨hk, (hbucket k hk).symm.trans hkb⟩
        · exact .inr hk
  · refine ⟨l, ?_, fun k => ?_⟩
    · rw [hhead c]
      refine hl.congr fun k hk => hnext k ((hmem k).mp hk).1 ?_
      rintro rfl
      exact hc (((hmem k).mp hk).2.symm.trans hj.2)
    · rw [hmem k, hvalid k]
      constructor
      · rintro ⟨hk, hkc⟩
        exact ⟨.inl hk, (hbucket k hk).trans hkc⟩
      · rintro ⟨hk | rfl, hkc⟩
        · exact ⟨hk, (hbucket k hk).symm.trans hkc⟩
        · exact absurd (hkc.symm.trans hown) hc

/-- The first element of a chain is taken out. -/
theorem Hashed.unlink_first [DecidableEq β] (h : Hashed head next valid bucket)
    (hfirst : head b = some i) (hhead : ∀ c, head' c = if c = b then next i else head c)
    (hvalid : ∀ k, valid' k ↔ valid k ∧ k ≠ i) (hnext : ∀ k, valid k → k ≠ i → next' k = next k)
    (hbucket : ∀ k, valid k → k ≠ i → bucket' k = bucket k) :
    Hashed head' next' valid' bucket' := by
  intro c
  obtain ⟨l, hl, hmem⟩ := h c
  by_cases hc : c = b
  · have hstart : head c = some i := by rw [hc, hfirst]
    rw [hstart] at hl
    obtain ⟨r, rfl, hr⟩ := linked_some.mp hl
    have hout : i ∉ r := (List.nodup_cons.mp hl.nodup).1
    have hne : ∀ k ∈ r, k ≠ i := fun k hk heq => hout (heq ▸ hk)
    refine ⟨r, ?_, fun k => ?_⟩
    · rw [hhead c, if_pos hc]
      exact hr.congr fun k hk =>
        hnext k ((hmem k).mp (List.mem_cons_of_mem i hk)).1 (hne k hk)
    · rw [hvalid k]
      constructor
      · intro hk
        obtain ⟨hv, hb⟩ := (hmem k).mp (List.mem_cons_of_mem i hk)
        exact ⟨⟨hv, hne k hk⟩, (hbucket k hv (hne k hk)).trans hb⟩
      · rintro ⟨⟨hv, hki⟩, hb⟩
        rw [hbucket k hv hki] at hb
        exact (List.mem_cons.mp ((hmem k).mpr ⟨hv, hb⟩)).resolve_left hki
  · have hin : i ∉ l := by
      intro hi
      obtain ⟨l', hl', hmem'⟩ := h b
      rw [hfirst] at hl'
      obtain ⟨r, rfl, -⟩ := linked_some.mp hl'
      exact hc (((hmem i).mp hi).2.symm.trans ((hmem' i).mp (List.mem_cons_self ..)).2)
    refine ⟨l, ?_, fun k => ?_⟩
    · rw [hhead c, if_neg hc]
      exact hl.congr fun k hk => hnext k ((hmem k).mp hk).1 fun heq => hin (heq ▸ hk)
    · rw [hvalid k]
      constructor
      · intro hk
        obtain ⟨hv, hb⟩ := (hmem k).mp hk
        have hki : k ≠ i := fun heq => hin (heq ▸ hk)
        exact ⟨⟨hv, hki⟩, (hbucket k hv hki).trans hb⟩
      · rintro ⟨⟨hv, hki⟩, hb⟩
        exact (hmem k).mpr ⟨hv, (hbucket k hv hki).symm.trans hb⟩

/-- The element behind `j` is taken out of its chain. -/
theorem Hashed.unlink_after (h : Hashed head next valid bucket) {a r : List ι}
    (hchain : Linked next (head b) (a ++ j :: i :: r)) (hlink : next' j = next i)
    (hhead : ∀ c, head' c = head c) (hvalid : ∀ k, valid' k ↔ valid k ∧ k ≠ i)
    (hnext : ∀ k, valid k → k ≠ i → k ≠ j → next' k = next k)
    (hbucket : ∀ k, valid k → k ≠ i → bucket' k = bucket k) :
    Hashed head' next' valid' bucket' := by
  intro c
  obtain ⟨l, hl, hmem⟩ := h c
  have hnodup := hchain.nodup
  have hj := h.valid_of_mem (i := j) hchain (by simp)
  have hi := h.valid_of_mem (i := i) hchain (by simp)
  by_cases hc : c = b
  · rw [hc] at hl hmem
    have hsame := hl.unique hchain
    rw [hsame] at hmem
    have hsplit : ∀ k, k ∈ a ++ j :: i :: r ↔ k ∈ a ++ j :: r ∨ k = i := by
      intro k
      simp only [List.mem_append, List.mem_cons]
      tauto
    have hout : ∀ k ∈ a ++ j :: r, k ≠ i := by
      rintro k hk rfl
      rw [List.append_cons] at hnodup hk
      exact not_mem_of_nodup_middle hnodup hk
    have hother : ∀ k ∈ a ++ r, k ≠ j := by
      rintro k hk rfl
      have hin : k ∈ a ++ i :: r :=
        (List.mem_append.mp hk).elim (List.mem_append_left _)
          fun hr => List.mem_append_right a (List.mem_cons_of_mem i hr)
      exact not_mem_of_nodup_middle hnodup hin
    refine ⟨a ++ j :: r, ?_, fun k => ?_⟩
    · rw [hhead c, hc]
      refine hchain.unlink hlink fun k hk => ?_
      have hin : k ∈ a ++ j :: r := by
        rcases List.mem_append.mp hk with hk | hk
        · exact List.mem_append_left _ hk
        · exact List.mem_append_right a (List.mem_cons_of_mem j hk)
      exact hnext k ((hmem k).mp ((hsplit k).mpr (.inl hin))).1 (hout k hin) (hother k hk)
    · rw [hvalid k, hc]
      constructor
      · intro hk
        obtain ⟨hv, hb⟩ := (hmem k).mp ((hsplit k).mpr (.inl hk))
        exact ⟨⟨hv, hout k hk⟩, (hbucket k hv (hout k hk)).trans hb⟩
      · rintro ⟨⟨hv, hki⟩, hb⟩
        rw [hbucket k hv hki] at hb
        exact ((hsplit k).mp ((hmem k).mpr ⟨hv, hb⟩)).resolve_right hki
  · have hne : ∀ k ∈ l, k ≠ i ∧ k ≠ j := by
      intro k hk
      have hkc := ((hmem k).mp hk).2
      refine ⟨?_, ?_⟩
      · rintro rfl
        exact hc (hkc.symm.trans hi.2)
      · rintro rfl
        exact hc (hkc.symm.trans hj.2)
    refine ⟨l, ?_, fun k => ?_⟩
    · rw [hhead c]
      exact hl.congr fun k hk => hnext k ((hmem k).mp hk).1 (hne k hk).1 (hne k hk).2
    · rw [hvalid k]
      constructor
      · intro hk
        obtain ⟨hv, hb⟩ := (hmem k).mp hk
        exact ⟨⟨hv, (hne k hk).1⟩, (hbucket k hv (hne k hk).1).trans hb⟩
      · rintro ⟨⟨hv, hki⟩, hb⟩
        exact (hmem k).mpr ⟨hv, (hbucket k hv hki).symm.trans hb⟩

end

/-! ## 4. Linking and unlinking -/

section

variable [DecidableEq ι] [DecidableEq β]

/-- `i` becomes the last element of chain `b`, whose end is looked for. -/
def append (fuel : Nat) (head : β → Option ι) (next : ι → Option ι) (b : β) (i : ι) :
    Option ((β → Option ι) × (ι → Option ι)) :=
  match head b with
  | none => some (Function.update head b (some i), next)
  | some first => do
    let (_, last) ← walk next (fun j => (next j).isNone) fuel none (some first)
    -- the loop ends at the last element, not behind it
    let j ← last
    pure (head, Function.update next j (some i))

/-- The element `i` behind `prev`, or the first one of chain `b`, is taken out. -/
def cut (head : β → Option ι) (next : ι → Option ι) (b : β) (prev : Option ι) (i : ι) :
    (β → Option ι) × (ι → Option ι) :=
  match prev with
  | none => (Function.update head b (next i), next)
  | some j => (head, Function.update next j (next i))

variable {head : β → Option ι} {next : ι → Option ι} {valid valid' : ι → Prop}
variable {bucket bucket' : ι → β} {b : β} {i : ι} {fuel : Nat}

/-- **Linking a new element.** -/
theorem Hashed.append [Fintype ι] (h : Hashed head next valid bucket)
    (hfuel : Fintype.card ι ≤ fuel) (hnew : ¬ valid i) (hend : next i = none)
    (hown : bucket' i = b) (hvalid : ∀ k, valid' k ↔ valid k ∨ k = i)
    (hbucket : ∀ k, valid k → bucket' k = bucket k) :
    ∃ p, Chain.append fuel head next b i = some p ∧ Hashed p.1 p.2 valid' bucket' := by
  cases hfirst : head b with
  | none =>
    refine ⟨_, by rw [Chain.append, hfirst], ?_⟩
    refine h.link_first hfirst hnew hend hown (fun c => ?_) hvalid (fun _ _ => rfl) hbucket
    exact Function.update_apply ..
  | some first =>
    obtain ⟨l, hl, -⟩ := h b
    have hne : l ≠ [] := by
      rintro rfl
      rw [hfirst] at hl
      cases hl
    obtain ⟨a, j, rfl⟩ := (List.eq_nil_or_concat' l).resolve_left hne
    obtain ⟨q, hwalk⟩ : ∃ q, walk next (fun k => (next k).isNone) fuel none (head b) =
        some (q, some j) := hl.walk_last (hl.length_le.trans hfuel)
    have hi : i ≠ j := by
      rintro rfl
      exact hnew (h.valid_of_mem hl (List.mem_append_right a (List.mem_singleton_self i))).1
    refine ⟨(head, Function.update next j (some i)), ?_, ?_⟩
    · rw [hfirst] at hwalk
      rw [Chain.append, hfirst]
      dsimp only
      rw [hwalk]
      rfl
    · have hend' : Function.update next j (some i) i = none := by
        rw [Function.update_of_ne hi, hend]
      exact h.link_last hl hnew hend' (Function.update_self ..) hown (fun _ => rfl) hvalid
        (fun k _ hk => Function.update_of_ne hk ..) hbucket

/-- **Unlinking an element**, when `a` stands before it in its chain. -/
theorem Hashed.cut (h : Hashed head next valid bucket) {a r : List ι}
    (hchain : Linked next (head b) (a ++ i :: r)) :
    Hashed (Chain.cut head next b a.getLast? i).1 (Chain.cut head next b a.getLast? i).2
        (fun k => valid k ∧ k ≠ i) bucket ∧
      Linked (Chain.cut head next b a.getLast? i).2 ((Chain.cut head next b a.getLast? i).1 b)
        (a ++ r) := by
  rcases List.eq_nil_or_concat' a with rfl | ⟨a, j, rfl⟩
  · obtain ⟨hfirst, hrest⟩ := linked_cons.mp hchain
    refine ⟨?_, ?_⟩
    · refine h.unlink_first hfirst (fun c => ?_) (fun _ => Iff.rfl) (fun _ _ _ => rfl)
        fun _ _ _ => rfl
      exact Function.update_apply ..
    · change Linked next (Function.update head b (next i) b) r
      rw [Function.update_self]
      exact hrest
  · rw [List.append_assoc, List.singleton_append] at hchain ⊢
    rw [List.getLast?_concat]
    refine ⟨?_, ?_⟩
    · exact h.unlink_after hchain (Function.update_self ..) (fun _ => rfl) (fun _ => Iff.rfl)
        (fun k _ _ hk => Function.update_of_ne hk ..) fun _ _ _ => rfl
    · refine hchain.unlink (Function.update_self ..) fun k hk => Function.update_of_ne ?_ ..
      rintro rfl
      have hin : k ∈ a ++ i :: r :=
        (List.mem_append.mp hk).elim (List.mem_append_left _)
          fun hr => List.mem_append_right a (List.mem_cons_of_mem i hr)
      exact not_mem_of_nodup_middle hchain.nodup hin

end

/-! ## 5. How many elements there are -/

section

variable [Fintype ι] [DecidableEq ι] {valid valid' : ι → Prop} [DecidablePred valid]
variable [DecidablePred valid'] {i : ι}

/-- One more. -/
theorem card_link (hnew : ¬ valid i) (hvalid : ∀ k, valid' k ↔ valid k ∨ k = i) :
    (Finset.univ.filter valid').card = (Finset.univ.filter valid).card + 1 := by
  have hset : Finset.univ.filter valid' = insert i (Finset.univ.filter valid) := by
    ext k
    simp only [Finset.mem_filter, Finset.mem_univ, true_and, Finset.mem_insert, hvalid k]
    exact or_comm
  rw [hset, Finset.card_insert_of_notMem (by simpa using hnew)]

/-- One less. -/
theorem card_unlink (hi : valid i) (hvalid : ∀ k, valid' k ↔ valid k ∧ k ≠ i) :
    (Finset.univ.filter valid).card = (Finset.univ.filter valid').card + 1 := by
  refine card_link (i := i) (fun h => ((hvalid i).mp h).2 rfl) fun k => ?_
  rw [hvalid k]
  by_cases hk : k = i
  · rw [hk]
    exact iff_of_true hi (.inr rfl)
  · exact ⟨fun h => .inl ⟨h, hk⟩, fun h => (h.resolve_right hk).1⟩

/-- Lists that share the elements out have as many together. -/
theorem sum_length_eq_card [Fintype β] {lists : β → List ι} (hnodup : ∀ b, (lists b).Nodup)
    (hapart : ∀ b c, b ≠ c → ∀ k ∈ lists b, k ∉ lists c) (hcover : ∀ k, ∃ b, k ∈ lists b) :
    ∑ b, (lists b).length = Fintype.card ι := by
  have hunion : Finset.univ.biUnion (fun b => (lists b).toFinset) = Finset.univ := by
    refine Finset.eq_univ_of_forall fun k => ?_
    obtain ⟨b, hk⟩ := hcover k
    exact Finset.mem_biUnion.mpr ⟨b, Finset.mem_univ b, List.mem_toFinset.mpr hk⟩
  rw [← Finset.card_univ, ← hunion, Finset.card_biUnion]
  · exact Finset.sum_congr rfl fun b _ => (List.toFinset_card_of_nodup (hnodup b)).symm
  · intro b _ c _ hbc
    refine Finset.disjoint_left.mpr fun k hk hk' => ?_
    exact hapart b c hbc k (List.mem_toFinset.mp hk) (List.mem_toFinset.mp hk')

end

end Chain
