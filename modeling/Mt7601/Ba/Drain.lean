/-
# What draining a reorder list hands up

The loops that drain a list take blocks off its head, announce their packets in that order and give
the blocks back. `Took` says so of any of them, and asks for nothing but that the count of the list
is right: it also holds of a list that an earlier frame has put out of order. What a loop leaves
where the list is in order is `leSeq_front` and `inOrder_front`.
-/
import Mt7601.Ba.Session

namespace Mt7601.Ba

open SeqNum

/-! ## 1. Taking a front -/

/-- **The list's front is handed up**: its packets are announced in order and its blocks are back in
the pool. -/
structure Took (rx rx' : Rx) (front : List ReorderingMpdu) : Prop where
  next : rx.entry.list.next = front ++ rx'.entry.list.next
  log : rx'.log = rx.log ++ front.map .announce
  freed : rx'.freelist = rx.freelist + front.length
  linked : rx'.entry.list.qlen = rx'.entry.list.next.length
  session : rx'.entry.session = rx.entry.session

theorem Took.none {rx rx' : Rx} (hnext : rx'.entry.list = rx.entry.list) (hlog : rx'.log = rx.log)
    (hfree : rx'.freelist = rx.freelist) (hsess : rx'.entry.session = rx.entry.session)
    (hlinked : rx.entry.list.qlen = rx.entry.list.next.length) : Took rx rx' [] where
  next := by rw [hnext]; rfl
  log := by rw [hlog, List.map_nil, List.append_nil]
  freed := hfree
  linked := by rw [hnext]; exact hlinked
  session := hsess

theorem Took.refl {rx : Rx} (hlinked : rx.entry.list.qlen = rx.entry.list.next.length) :
    Took rx rx [] :=
  Took.none rfl rfl rfl rfl hlinked

theorem Took.trans {rx₁ rx₂ rx₃ : Rx} {front₁ front₂ : List ReorderingMpdu}
    (h₁ : Took rx₁ rx₂ front₁) (h₂ : Took rx₂ rx₃ front₂) : Took rx₁ rx₃ (front₁ ++ front₂) where
  next := by rw [h₁.next, h₂.next, List.append_assoc]
  log := by rw [h₂.log, h₁.log, List.map_append, List.append_assoc]
  freed := by
    rw [h₂.freed, h₁.freed, List.length_append]
    omega
  linked := h₂.linked
  session := h₂.session.trans h₁.session

/-- What is set of the numbers and the timer afterwards is not what was taken. -/
theorem Took.congr {rx rx₁ rx₂ : Rx} {front : List ReorderingMpdu} (h : Took rx rx₁ front)
    (hlist : rx₂.entry.list = rx₁.entry.list) (hlog : rx₂.log = rx₁.log)
    (hfree : rx₂.freelist = rx₁.freelist) (hsess : rx₂.entry.session = rx₁.entry.session) :
    Took rx rx₂ front := by
  have hback := h.trans (Took.none hlist hlog hfree hsess h.linked)
  rwa [List.append_nil] at hback

theorem Took.head {rx : Rx} {blk : ReorderingMpdu} {rest : List ReorderingMpdu}
    (hnext : rx.entry.list.next = blk :: rest) : Took rx (rx.takeHead blk rest) [blk] where
  next := hnext
  log := rfl
  freed := rfl
  linked := rfl
  session := rfl

/-! ## 2. The loops -/

theorem leSeqLoop_took (seq : Nat) :
    ∀ (fuel : Nat) (rx : Rx), rx.entry.list.qlen = rx.entry.list.next.length →
      (leSeqLoop fuel rx seq).entry.lastIndSeq = rx.entry.lastIndSeq ∧
        ∃ front, Took rx (leSeqLoop fuel rx seq) front
  | 0, rx, hlinked => ⟨rfl, [], Took.refl hlinked⟩
  | fuel + 1, rx, hlinked => by
    rcases hnext : rx.entry.list.next with _ | ⟨blk, rest⟩
    · rw [leSeqLoop, baReorderingMpduProbe, hnext]
      exact ⟨rfl, [], Took.refl hlinked⟩
    · simp only [leSeqLoop, baReorderingMpduProbe, hnext, List.head?_cons]
      split
      · rw [indicateHead_cons hnext hlinked]
        obtain ⟨hlast, front, hfront⟩ := leSeqLoop_took seq fuel (rx.takeHead blk rest) rfl
        exact ⟨hlast, [blk] ++ front, (Took.head hnext).trans hfront⟩
      · exact ⟨rfl, [], Took.refl hlinked⟩

/-- The numbers from `start` on, one after the other. -/
def following (start : Nat) : List ReorderingMpdu → Prop
  | [] => True
  | blk :: rest => blk.sequence.val = (start + 1) % 4096 ∧ following (start + 1) rest

theorem following_mod (start : Nat) {front : List ReorderingMpdu} :
    following (start % 4096) front ↔ following start front := by
  induction front generalizing start with
  | nil => exact Iff.rfl
  | cons blk rest ih =>
    have h₁ : (start % 4096 + 1) % 4096 = (start + 1) % 4096 := Nat.mod_add_mod _ _ _
    have h₂ := ih (start % 4096 + 1)
    have h₃ := ih (start + 1)
    rw [h₁] at h₂
    rw [following, following, h₁, ← h₂, h₃]

/-- The loop follows the numbers one by one, and returns the last of them. -/
theorem inOrderLoop_took :
    ∀ (fuel : Nat) (rx : Rx) (start last : Nat),
      rx.entry.list.qlen = rx.entry.list.next.length →
      (inOrderLoop fuel rx start last).1.entry.lastIndSeq = rx.entry.lastIndSeq ∧
        ∃ front, Took rx (inOrderLoop fuel rx start last).1 front ∧ following start front ∧
          (inOrderLoop fuel rx start last).2 =
            if front = [] then last else (start + front.length) % 4096
  | 0, rx, start, last, hlinked => ⟨rfl, [], Took.refl hlinked, trivial, rfl⟩
  | fuel + 1, rx, start, last, hlinked => by
    rcases hnext : rx.entry.list.next with _ | ⟨blk, rest⟩
    · rw [inOrderLoop, baReorderingMpduProbe, hnext]
      exact ⟨rfl, [], Took.refl hlinked, trivial, rfl⟩
    · simp only [inOrderLoop, baReorderingMpduProbe, hnext, List.head?_cons,
        indicateHead_cons hnext hlinked]
      by_cases hone : blk.sequence.val = (start + 1) % 4096
      · rw [seqStepOne_iff.mpr hone]
        obtain ⟨hsame, front, htook, hfollow, hlast⟩ :=
          inOrderLoop_took fuel (rx.takeHead blk rest) blk.sequence blk.sequence rfl
        refine ⟨hsame, blk :: front, (Took.head hnext).trans htook, ⟨hone, ?_⟩, ?_⟩
        · rw [hone, following_mod] at hfollow
          exact hfollow
        · simp only [Bool.not_true, Bool.false_eq_true, if_false]
          rw [hlast, if_neg (List.cons_ne_nil _ _), List.length_cons]
          split
          · rename_i hnil
            rw [hone, hnil, List.length_nil]
          · rw [hone, Nat.mod_add_mod]
            congr 1
            omega
      · have htest : seqStepOne blk.sequence start maxSeq = false := by
          rw [Bool.eq_false_iff]
          exact fun h => hone (seqStepOne_iff.mp h)
        rw [htest]
        exact ⟨rfl, [], Took.refl hlinked, trivial, rfl⟩

theorem refreshLoop_took :
    ∀ (fuel : Nat) (rx : Rx), rx.entry.list.qlen = rx.entry.list.next.length →
      ∃ front, Took rx (refreshLoop fuel rx) front
  | 0, rx, hlinked => ⟨[], Took.refl hlinked⟩
  | fuel + 1, rx, hlinked => by
    rcases hnext : rx.entry.list.next with _ | ⟨blk, rest⟩
    · refine ⟨[], ?_⟩
      rw [refreshLoop, indicateHead_nil hnext]
      exact Took.refl hlinked
    · rw [refreshLoop, indicateHead_cons hnext hlinked]
      obtain ⟨front, hfront⟩ :=
        refreshLoop_took fuel ((rx.takeHead blk rest).setLastIndSeq blk.sequence) rfl
      have hhead : Took rx ((rx.takeHead blk rest).setLastIndSeq blk.sequence) [blk] :=
        (Took.head hnext).congr rfl rfl rfl rfl
      exact ⟨[blk] ++ front, hhead.trans hfront⟩

/-! ## 3. The functions that call them -/

section

variable (rx : Rx) (hlinked : rx.entry.list.qlen = rx.entry.list.next.length)

include hlinked

theorem leSeq_took (seq : Nat) :
    (baIndicateReorderingMpdusLeSeq rx seq).entry.lastIndSeq = rx.entry.lastIndSeq ∧
      ∃ front, Took rx (baIndicateReorderingMpdusLeSeq rx seq) front :=
  leSeqLoop_took seq _ rx hlinked

/-- A flush hands up the whole list. -/
theorem refresh_took : Took rx (baRefreshReorderingMpdus rx) rx.entry.list.next := by
  obtain ⟨front, htook⟩ := refreshLoop_took rx.entry.list.qlen rx hlinked
  obtain ⟨hlist, -, -⟩ := refresh_spec rx hlinked
  have hrefresh : Took rx (baRefreshReorderingMpdus rx) front := htook.congr rfl rfl rfl rfl
  have hall := hrefresh.next
  rw [hlist, List.append_nil] at hall
  rwa [hall]

theorem indicateInOrderFrom_took (start : Nat) :
    ∃ front, Took rx (indicateInOrderFrom rx start) front ∧ following start front ∧
      (indicateInOrderFrom rx start).entry.lastIndSeq =
        if front = [] then rx.entry.lastIndSeq else (start + front.length) % 4096 := by
  obtain ⟨hsame, front, htook, hfollow, hlast⟩ := inOrderLoop_took rx.entry.list.next.length rx
    start resetRcvSeq hlinked
  change Took rx (baIndicateReorderingMpdusInOrder rx start).1 front at htook
  change (baIndicateReorderingMpdusInOrder rx start).2 = _ at hlast
  change (baIndicateReorderingMpdusInOrder rx start).1.entry.lastIndSeq = _ at hsame
  refine ⟨front, ?_, hfollow, ?_⟩
  · rw [indicateInOrderFrom]
    dsimp only
    split
    · exact htook.congr rfl rfl rfl rfl
    · exact htook
  · rw [indicateInOrderFrom]
    dsimp only
    rw [hlast]
    by_cases hnil : front = []
    · rw [if_pos hnil, if_pos hnil, if_neg (fun h => h rfl)]
      exact hsame
    · rw [if_neg hnil, if_neg hnil, if_pos]
      · rfl
      · have hlt := Nat.mod_lt (start + front.length) (show 0 < 4096 by decide)
        rw [resetRcvSeq]
        omega

end

/-! ## 4. Inserting -/

theorem perm_insertsortedScan {mpdu : ReorderingMpdu} {l l' : List ReorderingMpdu}
    (h : insertsortedScan l mpdu = some l') : l'.Perm (mpdu :: l) := by
  induction l generalizing l' with
  | nil =>
    rw [insertsortedScan, Option.some.injEq] at h
    rw [← h]
  | cons blk rest ih =>
    rw [insertsortedScan] at h
    split at h
    · obtain ⟨rest', hrest, rfl⟩ := Option.map_eq_some_iff.mp h
      exact ((ih hrest).cons blk).trans (List.Perm.swap mpdu blk rest)
    · split at h
      · exact absurd h (by simp)
      · rw [Option.some.injEq] at h
        rw [← h]

end Mt7601.Ba
