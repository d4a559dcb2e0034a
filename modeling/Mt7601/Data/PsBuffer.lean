/-
# What happens to a frame buffered for a sleeping station

Every frame handed to `rtmpInsertPsQueue` is in one place at a time: in a power-save buffer, on its
way through a TX queue, or released. The legacy queue is a FIFO of at most 128 frames from which an
answered PS-Poll takes exactly one, with More Data telling whether others stay. The station's TIM bit
is set whenever legacy frames wait, and, for a station whose categories are all U-APSD ones, whenever
a U-APSD queue holds a frame.

The last frame of a service period is the exception the TIM makes on purpose: while it is held back
behind the others, the station is awake for it and the bit may be clear.
-/
import Mt7601.Data.PsMoves
import Mt7601.Lib.Run

namespace Mt7601.Data

variable {s t : PsStation} {ac : Ac} {p : PsPacket}

/-! ## 1. The invariant of the entry -/

/-- Frames wait that the TIM has to announce: legacy ones, or any in the queues of a station whose
categories are all U-APSD ones. -/
def PsStation.waiting (s : PsStation) : Prop :=
  s.psQueue ≠ [] ∨ (s.allAc = true ∧ s.uapsdPending)

structure StInv (s : PsStation) : Prop where
  classed : s.Classed
  legacy : ∀ p ∈ s.psQueue, s.uapsd p.queIdx = false ∧ p.moreData = false
  held : s.eospFrame ≠ none → s.spStart = true
  bounded : s.psQueue.length ≤ maxPacketsInPsQueue
  announced : s.waiting → s.tim = true

theorem allAc_iff : s.allAc = true ↔ ∀ a, s.uapsd a = true := by
  simp only [PsStation.allAc, Bool.and_eq_true]
  constructor
  · rintro ⟨⟨⟨hbe, hbk⟩, hvi⟩, hvo⟩ a
    cases a <;> assumption
  · exact fun h => ⟨⟨⟨h .be, h .bk⟩, h .vi⟩, h .vo⟩

theorem allAc_congr (h : t.uapsd = s.uapsd) : t.allAc = s.allAc := by
  simp only [PsStation.allAc, h]

theorem isUapsdAc_eq (s : PsStation) (ac : Ac) : s.isUapsdAc ac = s.uapsd ac := by
  unfold PsStation.isUapsdAc PsStation.apsdCapable
  cases ac <;> cases s.uapsd .be <;> cases s.uapsd .bk <;> cases s.uapsd .vi <;>
    cases s.uapsd .vo <;> rfl

/-- The TIM is left alone exactly for a U-APSD frame of a station that has a legacy category. -/
theorem notTimBitNeeded_iff (s : PsStation) (ac : Ac) :
    s.notTimBitNeeded ac = true ↔ s.allAc = false ∧ s.uapsd ac = true := by
  unfold PsStation.notTimBitNeeded
  rw [show (s.apsdCapable && (!s.uapsd .vo || !s.uapsd .vi || !s.uapsd .be || !s.uapsd .bk) &&
      s.uapsd ac) = (s.isUapsdAc ac &&
      (!s.uapsd .vo || !s.uapsd .vi || !s.uapsd .be || !s.uapsd .bk)) by
    unfold PsStation.isUapsdAc
    rw [Bool.and_right_comm], isUapsdAc_eq]
  unfold PsStation.allAc
  cases s.uapsd ac <;> cases s.uapsd .be <;> cases s.uapsd .bk <;> cases s.uapsd .vi <;>
    cases s.uapsd .vo <;> simp

/-- No legacy frame is ever buffered for a station whose categories are all U-APSD ones. -/
theorem StInv.psQueue_nil (h : StInv s) (hall : s.allAc = true) : s.psQueue = [] := by
  rcases hq : s.psQueue with _ | ⟨p, rest⟩
  · rfl
  · have hlegacy := (h.legacy p (by rw [hq]; exact List.mem_cons_self)).1
    rw [allAc_iff.mp hall] at hlegacy
    cases hlegacy

theorem UapsdMoves.waiting (h : UapsdMoves s t) (hw : t.waiting) : s.waiting := by
  rcases hw with hq | ⟨hall, hp⟩
  · exact .inl (h.psQueue ▸ hq)
  · exact .inr ⟨allAc_congr h.uapsd ▸ hall, h.pending hp⟩

/-- What a U-APSD operation has to show beside its moves. -/
theorem StInv.of_moves (h : StInv s) (hm : UapsdMoves s t)
    (hheld : t.eospFrame ≠ none → t.spStart = true) (htim : t.waiting → t.tim = true) :
    StInv t where
  classed := hm.classed h.classed
  legacy := by
    rw [hm.psQueue, hm.uapsd]
    exact h.legacy
  held := hheld
  bounded := hm.psQueue ▸ h.bounded
  announced := htim

theorem startServicePeriod_spStart (s : PsStation) : (startServicePeriod s).spStart = true := by
  unfold startServicePeriod
  dsimp only
  split
  · rw [clearTim_spStart, closeLoop_spStart]
  · rw [closeLoop_spStart]

/-- The TIM is cleared only when the service period has emptied the queues. -/
theorem startServicePeriod_announced (h : StInv s) (hnone : s.eospFrame = none)
    (hw : (startServicePeriod s).waiting) : (startServicePeriod s).tim = true := by
  have hs := h.announced ((startServicePeriod_moves hnone).waiting hw)
  have htim : (closeLoop (spLoop s)).tim = true := by
    rw [closeLoop_tim, spLoop, takeAcs_tim]
    exact hs
  by_cases hclear : (s.allAc && (spLoop s).flgQueEmpty) = true
  · exfalso
    rw [Bool.and_eq_true] at hclear
    have hpsq := (startServicePeriod_moves hnone).psQueue.trans (h.psQueue_nil hclear.1)
    rcases hw with hq | ⟨-, hp⟩
    · exact hq hpsq
    · obtain ⟨a, ha⟩ := uapsdPending_iff.mp hp
      refine ha ?_
      have hempty : (spLoop s).station.uapsdQueue a = [] :=
        takeAcs_emptied _ (by decide) hclear.2 (by cases a <;> decide)
          (allAc_iff.mp hclear.1 a)
      have hqueue : (startServicePeriod s).uapsdQueue = (closeLoop (spLoop s)).uapsdQueue := by
        unfold startServicePeriod
        dsimp only
        rw [if_pos (Bool.and_eq_true_iff.mpr hclear), clearTim_uapsdQueue]
      rw [hqueue, closeLoop_uapsdQueue, hempty]
  · unfold startServicePeriod
    dsimp only
    rw [if_neg hclear]
    exact htim

theorem trigger_stInv (h : StInv s) (up : Nat) : StInv (uapsdTriggerFrameHandle s up) := by
  have hmoves := trigger_moves h.held up
  unfold uapsdTriggerFrameHandle at hmoves ⊢
  by_cases hsp : s.spStart = true
  · rw [if_pos hsp]
    exact h
  rw [if_neg hsp] at hmoves ⊢
  have hnone : s.eospFrame = none := not_not.mp fun hsome => hsp (h.held hsome)
  have hreset : StInv (resetSpLength s) := by
    refine h.of_moves (resetSpLength_moves s) ?_ ?_
    · exact fun hsome => absurd ((resetSpLength_eospFrame s).trans hnone) hsome
    · exact fun hw => (resetSpLength_tim s).trans
        (h.announced ((resetSpLength_moves s).waiting hw))
  by_cases hcap : (resetSpLength s).uapsd (acOfUserPriority up) = false
  · rw [if_pos hcap]
    exact hreset
  · rw [if_neg hcap] at hmoves ⊢
    exact h.of_moves hmoves (fun _ => startServicePeriod_spStart _)
      (startServicePeriod_announced hreset ((resetSpLength_eospFrame s).trans hnone))

theorem answerUapsdPsPoll_stInv (h : StInv s) (hnone : s.eospFrame = none)
    (hall : s.allAc = true) : StInv (answerUapsdPsPoll s) := by
  have hmoves := answerUapsdPsPoll_moves hnone
  have hloop := takeOne_frame acPriority s none
  have hsend : ∀ (t : PsStation) (b : Bool) (q : Option (PsPacket × Ac)),
      (sendQued t b q).eospFrame = t.eospFrame ∧ (sendQued t b q).tim = t.tim ∧
        (sendQued t b q).uapsdQueue = t.uapsdQueue := by
    intro t b q
    rcases q with _ | ⟨p, ac⟩ <;> exact ⟨rfl, rfl, rfl⟩
  refine h.of_moves hmoves (fun hsome => absurd ?_ hsome) fun hw => ?_
  · unfold answerUapsdPsPoll
    dsimp only
    split
    · rw [clearTim_eospFrame, (hsend _ _ _).1, hloop.1, hnone]
    · rw [(hsend _ _ _).1, hloop.1, hnone]
  · by_cases hflg : (takeOne s none acPriority).2.2 = true
    · exfalso
      rcases hw with hq | ⟨-, hp⟩
      · exact hq (hmoves.psQueue.trans (h.psQueue_nil hall))
      · obtain ⟨a, ha⟩ := uapsdPending_iff.mp hp
        refine ha ?_
        have hqueue : (answerUapsdPsPoll s).uapsdQueue =
            (takeOne s none acPriority).1.uapsdQueue := by
          unfold answerUapsdPsPoll
          dsimp only
          rw [if_pos hflg, clearTim_uapsdQueue]
          exact (hsend _ _ _).2.2
        rw [hqueue]
        exact takeOne_emptied (by decide) hflg (by cases a <;> decide)
    · unfold answerUapsdPsPoll
      dsimp only
      rw [if_neg hflg]
      exact ((hsend _ _ _).2.1.trans hloop.2.2).trans (h.announced (hmoves.waiting hw))

theorem uapsdPsPoll_stInv (h : StInv s) : StInv (uapsdPsPollHandle s) := by
  unfold uapsdPsPollHandle
  by_cases hall : s.allAc = false
  · rw [if_pos hall]
    exact h
  rw [if_neg hall]
  by_cases hsp : s.spStart = true
  · rw [if_pos hsp]
    exact h
  rw [if_neg hsp]
  exact answerUapsdPsPoll_stInv h (not_not.mp fun hsome => hsp (h.held hsome)) (by simpa using hall)

/-- An operation that leaves the TIM alone and only sends or releases the held-back frame. -/
theorem StInv.of_moves_tim (h : StInv s) (hm : UapsdMoves s t)
    (hheld : t.eospFrame ≠ none → t.spStart = true) (htim : t.tim = s.tim) : StInv t :=
  h.of_moves hm hheld fun hw => htim.trans (h.announced (hm.waiting hw))

theorem afterUnTag_held (h : s.eospFrame ≠ none → s.spStart = true) :
    ((afterUnTag s).eospFrame ≠ none → (afterUnTag s).spStart = true) ∧
      (afterUnTag s).tim = s.tim := by
  unfold afterUnTag
  by_cases hnum : s.uapsdTxNum = 0
  · rw [if_pos hnum]
    exact ⟨fun hsome => absurd rfl hsome, rfl⟩
  rw [if_neg hnum]
  by_cases htag : s.untagged
  · rw [if_pos htag]
    cases he : s.eospFrame with
    | none => exact ⟨fun hsome => absurd rfl hsome, rfl⟩
    | some p => exact ⟨fun hsome => absurd rfl hsome, rfl⟩
  · rw [if_neg htag]
    exact ⟨h, rfl⟩

theorem bulkOutComplete_stInv (h : StInv s) (ac : Ac) (n a b : Nat) :
    StInv (bulkOutComplete s ac n a b) := by
  have hheld : ((bulkOutComplete s ac n a b).eospFrame ≠ none →
      (bulkOutComplete s ac n a b).spStart = true) ∧ (bulkOutComplete s ac n a b).tim = s.tim := by
    unfold bulkOutComplete uapsdUnTagFrame
    split
    · split
      · exact afterUnTag_held h.held
      · exact ⟨h.held, rfl⟩
    · exact ⟨h.held, rfl⟩
  exact h.of_moves_tim (bulkOutComplete_moves s ac n a b) hheld.1 hheld.2

theorem uapsdSpClose_stInv (h : StInv s) : StInv (uapsdSpClose s) := by
  have hmoves := uapsdSpClose_moves s
  unfold uapsdSpClose at hmoves ⊢
  by_cases hsp : s.psMode = .save ∧ s.spStart = true
  · rw [if_pos hsp] at hmoves ⊢
    exact h.of_moves_tim hmoves (fun hsome => absurd rfl hsome) rfl
  · rw [if_neg hsp]
    exact h

theorem cleanupUapsdQueues_nil (s : PsStation) (a : Ac) :
    (cleanupUapsdQueues s).uapsdQueue a = [] := by
  cases a <;> rfl

theorem cleanupUapsdQueues_tim (s : PsStation) : (cleanupUapsdQueues s).tim = s.tim := rfl

theorem dropUapsd_nil (s : PsStation) : ¬ (dropUapsd s).uapsdPending := by
  rw [uapsdPending_iff]
  rintro ⟨a, ha⟩
  apply ha
  change (if s.uapsdPending then cleanupUapsdQueues s else s).uapsdQueue a = []
  by_cases hpending : s.uapsdPending
  · rw [if_pos hpending]
    exact cleanupUapsdQueues_nil s a
  · rw [if_neg hpending]
    by_contra hq
    exact hpending (uapsdPending_iff.mpr ⟨a, hq⟩)

theorem dropUapsd_tim (s : PsStation) : (dropUapsd s).tim = s.tim := by
  change (if s.uapsdPending then cleanupUapsdQueues s else s).tim = s.tim
  split <;> rfl

theorem uapsdTimeOut_stInv (h : StInv s) : StInv (uapsdTimeOut s) := by
  have hmoves := uapsdTimeOut_moves s
  unfold uapsdTimeOut at hmoves ⊢
  by_cases hlen : (dropUapsd s).psQueue.length = 0
  · simp only [if_pos hlen] at hmoves ⊢
    refine h.of_moves hmoves (fun hsome => absurd rfl hsome) fun hw => ?_
    rcases hw with hq | ⟨-, hp⟩
    · exact absurd (List.eq_nil_of_length_eq_zero hlen) hq
    · exact absurd hp (dropUapsd_nil s)
  · simp only [if_neg hlen] at hmoves ⊢
    exact h.of_moves_tim hmoves (fun hsome => absurd rfl hsome) (dropUapsd_tim s)

theorem uapsdQueueMaintenance_stInv (h : StInv s) (b : Bool) (n : Nat) :
    StInv (uapsdQueueMaintenance s b n) := by
  unfold uapsdQueueMaintenance
  by_cases hb : b = true
  · rw [if_pos hb]
    exact h
  rw [if_neg hb]
  by_cases hmode : s.psMode ≠ .save
  · rw [if_pos hmode]
    exact h
  rw [if_neg hmode]
  by_cases hpending : s.uapsdPending ∨ s.eospFrame ≠ none
  · rw [if_pos hpending]
    have hcount : StInv { s with uapsdQIdleCount := s.uapsdQIdleCount + 1 } :=
      ⟨h.classed, h.legacy, h.held, h.bounded, h.announced⟩
    dsimp only
    split
    · exact uapsdTimeOut_stInv hcount
    · exact hcount
  · rw [if_neg hpending]
    exact ⟨h.classed, h.legacy, h.held, h.bounded, h.announced⟩

theorem deliverUapsdQueues_frame (s : PsStation) :
    ([Ac.vo, .vi, .bk, .be].foldl deliverUapsdQueue s).eospFrame = s.eospFrame ∧
      ([Ac.vo, .vi, .bk, .be].foldl deliverUapsdQueue s).tim = s.tim ∧
      ∀ a, ([Ac.vo, .vi, .bk, .be].foldl deliverUapsdQueue s).uapsdQueue a = [] :=
  ⟨rfl, rfl, fun a => by cases a <;> rfl⟩

theorem uapsdAllPacketDeliver_frame (s : PsStation) :
    (uapsdAllPacketDeliver s).eospFrame = none ∧ (uapsdAllPacketDeliver s).tim = s.tim ∧
      ∀ a, (uapsdAllPacketDeliver s).uapsdQueue a = [] := by
  unfold uapsdAllPacketDeliver
  cases he : s.eospFrame with
  | none =>
    obtain ⟨heosp, hrest⟩ := deliverUapsdQueues_frame s
    exact ⟨heosp.trans he, hrest⟩
  | some p => exact deliverUapsdQueues_frame (sendEosp s p)

theorem uapsdAllPacketDeliver_stInv (h : StInv s) : StInv (uapsdAllPacketDeliver s) := by
  obtain ⟨hnone, htim, -⟩ := uapsdAllPacketDeliver_frame s
  exact h.of_moves_tim (uapsdAllPacketDeliver_moves s) (fun hsome => absurd hnone hsome) htim

theorem uapsdEntryReset_frame (s : PsStation) :
    (uapsdEntryReset s).eospFrame = none ∧ (uapsdEntryReset s).tim = s.tim ∧
      ∀ a, (uapsdEntryReset s).uapsdQueue a = [] := by
  unfold uapsdEntryReset releaseEosp
  exact ⟨rfl, cleanupUapsdQueues_tim s, cleanupUapsdQueues_nil s⟩

theorem uapsdEntryReset_stInv (h : StInv s) : StInv (uapsdEntryReset s) := by
  obtain ⟨hnone, htim, -⟩ := uapsdEntryReset_frame s
  exact h.of_moves_tim (uapsdEntryReset_moves s) (fun hsome => absurd hnone hsome) htim

/-! ## 2. The legacy queue -/

/-- Nothing the invariant reads has changed. -/
theorem StInv.of_frames (h : StInv s) (hps : t.psQueue = s.psQueue)
    (hqueue : t.uapsdQueue = s.uapsdQueue) (huapsd : t.uapsd = s.uapsd)
    (heosp : t.eospFrame = s.eospFrame) (hsp : t.spStart = s.spStart) (htim : t.tim = s.tim) :
    StInv t where
  classed := by simpa only [PsStation.Classed, huapsd, hqueue, heosp] using h.classed
  legacy := by
    rw [hps, huapsd]
    exact h.legacy
  held := by
    rw [heosp, hsp]
    exact h.held
  bounded := hps ▸ h.bounded
  announced hw := by
    refine htim.trans (h.announced ?_)
    rcases hw with hq | ⟨hall, hp⟩
    · exact .inl (hps ▸ hq)
    · exact .inr ⟨allAc_congr huapsd ▸ hall,
        uapsdPending_iff.mpr (hqueue ▸ uapsdPending_iff.mp hp)⟩

/-- The legacy queue has lost frames and nothing else the invariant reads has changed. -/
theorem StInv.of_sublist (h : StInv s) (hps : t.psQueue.Sublist s.psQueue)
    (hqueue : t.uapsdQueue = s.uapsdQueue) (huapsd : t.uapsd = s.uapsd)
    (heosp : t.eospFrame = s.eospFrame) (hsp : t.spStart = s.spStart)
    (htim : t.tim = s.tim ∨ t.psQueue = [] ∧ s.psQueue ≠ []) : StInv t where
  classed := by simpa only [PsStation.Classed, huapsd, hqueue, heosp] using h.classed
  legacy p hp := huapsd ▸ h.legacy p (hps.subset hp)
  held := by
    rw [heosp, hsp]
    exact h.held
  bounded := hps.length_le.trans h.bounded
  announced hw := by
    have hpending : t.uapsdPending → s.uapsdPending := fun hp =>
      uapsdPending_iff.mpr (hqueue ▸ uapsdPending_iff.mp hp)
    rcases htim with htim | ⟨hnil, hne⟩
    · refine htim.trans (h.announced ?_)
      rcases hw with hq | ⟨hall, hp⟩
      · exact .inl fun hnil => hq (List.sublist_nil.mp (hnil ▸ hps))
      · exact .inr ⟨allAc_congr huapsd ▸ hall, hpending hp⟩
    · rcases hw with hq | ⟨hall, hp⟩
      · exact absurd hnil hq
      · exact absurd (h.psQueue_nil (allAc_congr huapsd ▸ hall)) hne

theorem announce_frame (s : PsStation) (ac : Ac) :
    (s.announce ac).psQueue = s.psQueue ∧ (s.announce ac).uapsdQueue = s.uapsdQueue ∧
      (s.announce ac).uapsd = s.uapsd ∧ (s.announce ac).eospFrame = s.eospFrame ∧
      (s.announce ac).spStart = s.spStart ∧ (s.announce ac).txSwQueue = s.txSwQueue ∧
      (s.announce ac).released = s.released ∧ ∀ i, (s.announce ac).copies i = s.copies i := by
  unfold PsStation.announce
  split <;> exact ⟨rfl, rfl, rfl, rfl, rfl, rfl, rfl, fun _ => rfl⟩

/-- After `announce` the TIM tells of every frame it has to tell of, if it did so before the frame
was put into the category's queue. -/
theorem announce_announced (hlegacy : s.psQueue ≠ [] → s.uapsd ac = true → s.tim = true)
    (hw : (s.announce ac).waiting) : (s.announce ac).tim = true := by
  unfold PsStation.announce at hw ⊢
  by_cases hneed : s.notTimBitNeeded ac = true
  · rw [if_pos hneed] at hw ⊢
    obtain ⟨hall, huapsd⟩ := (notTimBitNeeded_iff s ac).mp hneed
    rcases hw with hq | ⟨hall', -⟩
    · exact hlegacy hq huapsd
    · rw [hall] at hall'
      cases hall'
  · rw [if_neg hneed]

theorem announce_stInv (hclassed : s.Classed)
    (hlegacy : ∀ p ∈ s.psQueue, s.uapsd p.queIdx = false ∧ p.moreData = false)
    (hheld : s.eospFrame ≠ none → s.spStart = true)
    (hbounded : s.psQueue.length ≤ maxPacketsInPsQueue)
    (htim : s.psQueue ≠ [] → s.uapsd ac = true → s.tim = true) : StInv (s.announce ac) := by
  obtain ⟨hps, hqueue, huapsd, heosp, hsp, -⟩ := announce_frame s ac
  refine ⟨?_, ?_, ?_, ?_, announce_announced htim⟩
  · simpa only [PsStation.Classed, huapsd, hqueue, heosp] using hclassed
  · rw [hps, huapsd]
    exact hlegacy
  · rw [heosp, hsp]
    exact hheld
  · rw [hps]
    exact hbounded

theorem uapsdPacketEnqueue_frame (s : PsStation) (p : PsPacket) (ac : Ac) :
    (uapsdPacketEnqueue s p ac).psQueue = s.psQueue ∧
      (uapsdPacketEnqueue s p ac).uapsd = s.uapsd ∧
      (uapsdPacketEnqueue s p ac).eospFrame = s.eospFrame ∧
      (uapsdPacketEnqueue s p ac).spStart = s.spStart ∧
      (uapsdPacketEnqueue s p ac).tim = s.tim ∧
      (uapsdPacketEnqueue s p ac).txSwQueue = s.txSwQueue := by
  unfold uapsdPacketEnqueue
  split <;> exact ⟨rfl, rfl, rfl, rfl, rfl, rfl⟩

theorem uapsdPacketEnqueue_classed (h : s.Classed) (hp : s.uapsd p.queIdx = true) (ac : Ac) :
    (uapsdPacketEnqueue s p ac).Classed := by
  obtain ⟨-, huapsd, heosp, -⟩ := uapsdPacketEnqueue_frame s p ac
  refine ⟨?_, ?_⟩
  · rw [huapsd]
    unfold uapsdPacketEnqueue
    split
    · exact h.1
    · intro a x hx
      by_cases ha : a = ac
      · subst ha
        have hx : x ∈ s.uapsdQueue a ∨ x = p := by simpa using hx
        rcases hx with hx | rfl
        · exact h.1 a x hx
        · exact hp
      · exact h.1 a x (by simpa [ha] using hx)
  · rw [huapsd, heosp]
    exact h.2

theorem insert_stInv (h : StInv s) (i : Nat) (ac : Ac) :
    StInv (rtmpInsertPsQueue s (.fresh i ac)) := by
  change StInv (if s.isUapsdAc ac then (uapsdPacketEnqueue s (.fresh i ac) ac).announce ac else _)
  rw [isUapsdAc_eq]
  by_cases hu : s.uapsd ac = true
  · rw [if_pos hu]
    obtain ⟨hps, huapsd, heosp, hsp, htim, -⟩ := uapsdPacketEnqueue_frame s (.fresh i ac) ac
    refine announce_stInv (uapsdPacketEnqueue_classed h.classed hu ac) ?_ ?_ ?_ ?_
    · rw [hps, huapsd]
      exact h.legacy
    · rw [heosp, hsp]
      exact h.held
    · rw [hps]
      exact h.bounded
    · rw [hps, htim]
      exact fun hq _ => h.announced (.inl hq)
  · rw [if_neg hu]
    by_cases hfull : s.psQueue.length ≥ maxPacketsInPsQueue
    · rw [if_pos hfull]
      exact h.of_frames rfl rfl rfl rfl rfl rfl
    · rw [if_neg hfull]
      refine announce_stInv h.classed ?_ h.held ?_ fun _ htrue => absurd htrue hu
      · intro p hp
        rcases List.mem_append.mp hp with hp | hp
        · exact h.legacy p hp
        · rw [List.mem_singleton.mp hp]
          exact ⟨Bool.eq_false_of_not_eq_true hu, rfl⟩
      · simp only [List.length_append, List.length_singleton]
        omega

theorem endPsPoll_stInv (h : StInv s) (hall : s.allAc = true → ¬ s.uapsdPending) :
    StInv (endPsPoll s) := by
  unfold endPsPoll
  by_cases hend : (0 < s.aid ∧ s.aid < Ba.maxLenOfMacTable) ∧ s.psQueue.length = 0
  · rw [if_pos hend]
    refine ⟨h.classed, h.legacy, h.held, h.bounded, fun hw => ?_⟩
    rcases hw with hq | ⟨htrue, hp⟩
    · exact absurd (List.eq_nil_of_length_eq_zero hend.2) hq
    · exact absurd hp (hall htrue)
  · rw [if_neg hend]
    exact h

theorem answerPsPoll_stInv (h : StInv s) : StInv (answerPsPoll s) := by
  unfold answerPsPoll
  cases hq : s.psQueue with
  | nil => exact h.of_frames hq.symm rfl rfl rfl rfl rfl
  | cons p rest =>
    refine h.of_sublist ?_ rfl rfl rfl rfl (.inl rfl)
    rw [hq]
    exact List.sublist_cons_self p rest

theorem deliverAwake_frame (s : PsStation) :
    (deliverAwake s).psQueue = [] ∧ ∀ a, (deliverAwake s).uapsdQueue a = [] :=
  ⟨rfl, (uapsdEntryReset_frame (uapsdAllPacketDeliver s)).2.2⟩

theorem deliverAwake_stInv (h : StInv s) : StInv (deliverAwake s) := by
  have hreset := uapsdEntryReset_stInv (uapsdAllPacketDeliver_stInv h)
  exact hreset.of_sublist (List.nil_sublist _) rfl rfl rfl rfl (.inl rfl)

theorem rtmpHandleRxPsPoll_stInv (h : StInv s) (sameAddr isActive : Bool) :
    StInv (rtmpHandleRxPsPoll s sameAddr isActive) := by
  unfold rtmpHandleRxPsPoll
  by_cases haddr : (!sameAddr) = true
  · rw [if_pos haddr]
    exact h
  rw [if_neg haddr]
  cases isActive with
  | true =>
    refine endPsPoll_stInv (deliverAwake_stInv h) fun _ hp => ?_
    obtain ⟨a, ha⟩ := uapsdPending_iff.mp hp
    exact ha ((deliverAwake_frame s).2 a)
  | false =>
    cases hall : s.allAc with
    | true => exact h
    | false =>
      refine endPsPoll_stInv (answerPsPoll_stInv h) fun htrue => ?_
      have hsame : (answerPsPoll s).allAc = s.allAc := by
        unfold answerPsPoll
        split <;> rfl
      rw [show (answerPsPoll s).allAc = true from htrue, hall] at hsame
      cases hsame

theorem rtmpPsIndicate_stInv (h : StInv s) (sameAddr : Bool) (psm : PsMode) :
    StInv (rtmpPsIndicate s sameAddr psm) := by
  have hmode : StInv { s with psMode := psm } := h.of_frames rfl rfl rfl rfl rfl rfl
  unfold rtmpPsIndicate
  split
  · exact rtmpHandleRxPsPoll_stInv hmode sameAddr true
  · exact hmode

theorem rtmpCleanupPsQueue_stInv (h : StInv s) : StInv (rtmpCleanupPsQueue s) :=
  h.of_sublist (List.nil_sublist _) rfl rfl rfl rfl (.inl rfl)

theorem collectPsQueue_stInv (h : StInv s) : StInv (collectPsQueue s) := by
  unfold collectPsQueue
  by_cases hq : s.psQueue ≠ []
  · rw [if_pos hq]
    dsimp only
    split
    · exact h.of_sublist (List.nil_sublist _) rfl rfl rfl rfl (.inr ⟨rfl, hq⟩)
    · exact h.of_frames rfl rfl rfl rfl rfl rfl
  · rw [if_neg hq]
    exact h.of_frames rfl rfl rfl rfl rfl rfl

theorem uapsdTagFrame_frame (s : PsStation) (p : PsPacket) (offset : Nat) :
    ∃ tags, uapsdTagFrame s p offset = { s with tagOffset := tags } := by
  unfold uapsdTagFrame
  split
  · exact ⟨s.tagOffset, rfl⟩
  · split
    · exact ⟨_, rfl⟩
    · exact ⟨s.tagOffset, rfl⟩

theorem writeRing_stInv (h : StInv s) (ac : Ac) (offset : Nat) : StInv (writeRing s ac offset) := by
  unfold writeRing
  cases hq : s.txSwQueue ac with
  | nil => exact h
  | cons p rest =>
    dsimp only
    obtain ⟨tags, htag⟩ := uapsdTagFrame_frame
      { s with
        txSwQueue := Function.update s.txSwQueue ac rest
        ring := Function.update s.ring ac (s.ring ac ++ [(p, offset)]) } p offset
    rw [htag]
    exact h.of_frames rfl rfl rfl rfl rfl rfl

theorem psStep_stInv (h : StInv s) (e : PsEvent) : StInv (psStep s e) := by
  cases e with
  | insert i queIdx => exact insert_stInv h i queIdx
  | psPoll sameAddr => exact rtmpHandleRxPsPoll_stInv h sameAddr false
  | psIndicate sameAddr psm => exact rtmpPsIndicate_stInv h sameAddr psm
  | trigger upOfFrame => exact trigger_stInv h upOfFrame
  | uapsdPsPoll => exact uapsdPsPoll_stInv h
  | write ac offset => exact writeRing_stInv h ac offset
  | complete ac n a b => exact bulkOutComplete_stInv h ac n a b
  | spClose => exact uapsdSpClose_stInv h
  | maintenance b n => exact uapsdQueueMaintenance_stInv h b n
  | collect => exact collectPsQueue_stInv h
  | cleanup => exact rtmpCleanupPsQueue_stInv h
  | deliverAll => exact uapsdAllPacketDeliver_stInv h
  | entryReset => exact uapsdEntryReset_stInv h

/-! ## 3. Where the frames go -/

/-- The frame an event hands to `RtmpInsertPsQueue`. -/
def PsEvent.handed : PsEvent → List Nat
  | .insert i _ => [i]
  | _ => []

theorem copiesIn_fresh (i j : Nat) (ac : Ac) :
    copiesIn j [PsPacket.fresh i ac] = [i].count j := by
  simp [copiesIn, PsPacket.fresh, List.countP_cons, List.count_cons]

theorem insert_copies (s : PsStation) (i : Nat) (ac : Ac) (j : Nat) :
    (rtmpInsertPsQueue s (.fresh i ac)).copies j = s.copies j + [i].count j := by
  have hfresh := copiesIn_fresh i j ac
  unfold rtmpInsertPsQueue
  split
  · rw [(announce_frame _ _).2.2.2.2.2.2.2]
    have hsum := acSum_update (copiesIn j) s.uapsdQueue (PsPacket.fresh i ac).queIdx
      (s.uapsdQueue (PsPacket.fresh i ac).queIdx ++ [.fresh i ac])
    unfold uapsdPacketEnqueue
    split <;> simp only [PsStation.copies, PsStation.buffered, PsStation.moved, copiesIn_append,
      hfresh] at hsum ⊢ <;> omega
  · split
    · simp only [PsStation.copies, PsStation.buffered, PsStation.moved, copiesIn_append, hfresh]
      omega
    · rw [(announce_frame _ _).2.2.2.2.2.2.2]
      simp only [PsStation.copies, PsStation.buffered, PsStation.moved, copiesIn_append, hfresh]
      omega

theorem endPsPoll_copies (s : PsStation) (i : Nat) : (endPsPoll s).copies i = s.copies i := by
  unfold endPsPoll
  split <;> rfl

theorem answerPsPoll_copies (s : PsStation) (i : Nat) :
    (answerPsPoll s).copies i = s.copies i := by
  unfold answerPsPoll
  cases hq : s.psQueue with
  | nil =>
    simp only [PsStation.copies, PsStation.buffered, PsStation.moved, hq]
  | cons p rest =>
    have hid : ∀ c : Prop, ∀ _ : Decidable c,
        (if c then { p with moreData := true } else p).id = p.id := by
      intro c _
      split <;> rfl
    have hsum := acSum_update (copiesIn i) s.txSwQueue .be
      (s.txSwQueue .be ++ [if rest.length ≥ 1 then { p with moreData := true } else p])
    simp only [PsStation.copies, PsStation.buffered, PsStation.moved, PsStation.insertSw, hq,
      copiesIn_append, copiesIn_cons, copiesIn_nil, hid] at hsum ⊢
    omega

theorem deliverPsQueue_copies (s : PsStation) (i : Nat) :
    (deliverPsQueue s).copies i = s.copies i := by
  have hsum := acSum_update (copiesIn i) s.txSwQueue .be (s.txSwQueue .be ++ s.psQueue)
  simp only [PsStation.copies, PsStation.buffered, PsStation.moved, deliverPsQueue,
    copiesIn_append, copiesIn_nil] at hsum ⊢
  omega

theorem deliverAwake_copies (s : PsStation) (i : Nat) :
    (deliverAwake s).copies i = s.copies i := by
  unfold deliverAwake
  rw [deliverPsQueue_copies, (uapsdEntryReset_moves _).copies,
    (uapsdAllPacketDeliver_moves s).copies]

theorem rtmpHandleRxPsPoll_copies (s : PsStation) (sameAddr isActive : Bool) (i : Nat) :
    (rtmpHandleRxPsPoll s sameAddr isActive).copies i = s.copies i := by
  unfold rtmpHandleRxPsPoll
  split
  · rfl
  · split
    · rfl
    · rw [endPsPoll_copies]
      split
      · exact deliverAwake_copies s i
      · exact answerPsPoll_copies s i

theorem rtmpCleanupPsQueue_copies (s : PsStation) (i : Nat) :
    (rtmpCleanupPsQueue s).copies i = s.copies i := by
  simp only [PsStation.copies, PsStation.buffered, PsStation.moved, rtmpCleanupPsQueue,
    copiesIn_append, copiesIn_nil]
  omega

theorem collectPsQueue_copies (s : PsStation) (i : Nat) :
    (collectPsQueue s).copies i = s.copies i := by
  unfold collectPsQueue
  split
  · dsimp only
    split
    · exact rtmpCleanupPsQueue_copies s i
    · rfl
  · rfl

theorem writeRing_copies (s : PsStation) (ac : Ac) (offset i : Nat) :
    (writeRing s ac offset).copies i = s.copies i := by
  unfold writeRing
  cases hq : s.txSwQueue ac with
  | nil => rfl
  | cons p rest =>
    dsimp only
    obtain ⟨tags, htag⟩ := uapsdTagFrame_frame
      { s with
        txSwQueue := Function.update s.txSwQueue ac rest
        ring := Function.update s.ring ac (s.ring ac ++ [(p, offset)]) } p offset
    have hsw := acSum_update (copiesIn i) s.txSwQueue ac rest
    have hring := acSum_update (fun l : List (PsPacket × Nat) => copiesIn i (l.map Prod.fst)) s.ring
      ac (s.ring ac ++ [(p, offset)])
    rw [htag]
    simp only [PsStation.copies, PsStation.buffered, PsStation.moved, hq, List.map_append,
      List.map_cons, List.map_nil, copiesIn_append, copiesIn_cons, copiesIn_nil] at hsw hring ⊢
    omega

/-- **No frame is lost or doubled**: a step adds the frame it was handed and nothing else. -/
theorem psStep_copies (h : StInv s) (e : PsEvent) (i : Nat) :
    (psStep s e).copies i = s.copies i + e.handed.count i := by
  cases e with
  | insert j queIdx => exact insert_copies s j queIdx i
  | psPoll sameAddr => exact rtmpHandleRxPsPoll_copies s sameAddr false i
  | psIndicate sameAddr psm =>
    change (rtmpPsIndicate s sameAddr psm).copies i = s.copies i
    unfold rtmpPsIndicate
    split
    · exact rtmpHandleRxPsPoll_copies _ sameAddr true i
    · rfl
  | trigger upOfFrame => exact (trigger_moves h.held upOfFrame).copies i
  | uapsdPsPoll => exact (uapsdPsPoll_moves h.held).copies i
  | write ac offset => exact writeRing_copies s ac offset i
  | complete ac n a b => exact (bulkOutComplete_moves s ac n a b).copies i
  | spClose => exact (uapsdSpClose_moves s).copies i
  | maintenance b n => exact (uapsdQueueMaintenance_moves s b n).copies i
  | collect => exact collectPsQueue_copies s i
  | cleanup => exact rtmpCleanupPsQueue_copies s i
  | deliverAll => exact (uapsdAllPacketDeliver_moves s).copies i
  | entryReset => exact (uapsdEntryReset_moves s).copies i

/-! ## 4. The order in which legacy frames leave -/

/-- The legacy frames among those a step has put into the BE queue or released, by id. -/
def legacyOut (s t : PsStation) : List Nat :=
  (((t.txSwQueue .be).drop (s.txSwQueue .be).length ++ t.released.drop s.released.length).filter
    fun p => !s.uapsd p.queIdx).map PsPacket.id

/-- The legacy frames that have left, read off the step; a frame that is refused never was in. -/
def legacyLeft (s : PsStation) : PsEvent → List Nat
  | .insert _ _ => []
  | e => legacyOut s (psStep s e)

/-- The legacy frames that were taken in, read off the step. -/
def legacyEntered (s : PsStation) : PsEvent → List Nat
  | .insert i queIdx =>
      ((psStep s (.insert i queIdx)).psQueue.drop s.psQueue.length).map PsPacket.id
  | _ => []

theorem legacyOut_eq (new rel : List PsPacket)
    (hsw : t.txSwQueue .be = s.txSwQueue .be ++ new) (hrel : t.released = s.released ++ rel) :
    legacyOut s t = ((new ++ rel).filter fun p => !s.uapsd p.queIdx).map PsPacket.id := by
  rw [legacyOut, hsw, hrel, List.drop_left, List.drop_left]

theorem filter_uapsd {new : List PsPacket} (h : ∀ p ∈ new, s.uapsd p.queIdx = true) :
    new.filter (fun p => !s.uapsd p.queIdx) = [] := by
  rw [List.filter_eq_nil_iff]
  intro p hp
  simp [h p hp]

theorem filter_legacy {new : List PsPacket} (h : ∀ p ∈ new, s.uapsd p.queIdx = false) :
    new.filter (fun p => !s.uapsd p.queIdx) = new := by
  rw [List.filter_eq_self]
  intro p hp
  simp [h p hp]

theorem UapsdMoves.legacyOut (h : UapsdMoves s t) (hs : s.Classed) : legacyOut s t = [] := by
  obtain ⟨new, hnew, huapsd⟩ := h.sent hs
  obtain ⟨rel, hrel, huapsd'⟩ := h.released hs
  rw [legacyOut_eq new rel hnew hrel, List.filter_append, filter_uapsd huapsd, filter_uapsd huapsd']
  rfl

/-- The frames of the legacy queue, by id. -/
def PsStation.psIds (s : PsStation) : List Nat := s.psQueue.map PsPacket.id

theorem UapsdMoves.flow (h : UapsdMoves s t) (hs : s.Classed) :
    s.psIds = Data.legacyOut s t ++ t.psIds := by
  rw [h.legacyOut hs, PsStation.psIds, PsStation.psIds, h.psQueue, List.nil_append]

theorem endPsPoll_frame (s : PsStation) :
    (endPsPoll s).psQueue = s.psQueue ∧ (endPsPoll s).txSwQueue = s.txSwQueue ∧
      (endPsPoll s).released = s.released := by
  unfold endPsPoll
  split <;> exact ⟨rfl, rfl, rfl⟩

/-- **An answered PS-Poll** takes the oldest legacy frame, if there is one, and sets its More Data
bit exactly when others stay. -/
theorem answerPsPoll_sends (h : StInv s) :
    (s.psQueue = [] ∧ (answerPsPoll s).psQueue = [] ∧ (answerPsPoll s).txSwQueue = s.txSwQueue ∧
      (answerPsPoll s).released = s.released) ∨
    ∃ p q rest, s.psQueue = p :: rest ∧ (answerPsPoll s).psQueue = rest ∧
      (answerPsPoll s).txSwQueue .be = s.txSwQueue .be ++ [q] ∧
      (answerPsPoll s).released = s.released ∧ q.id = p.id ∧ q.queIdx = p.queIdx ∧
      (q.moreData = true ↔ rest ≠ []) := by
  unfold answerPsPoll
  cases hq : s.psQueue with
  | nil => exact .inl ⟨rfl, rfl, rfl, rfl⟩
  | cons p rest =>
    have hfalse : p.moreData = false := (h.legacy p (by rw [hq]; exact List.mem_cons_self)).2
    refine .inr ⟨p, if rest.length ≥ 1 then { p with moreData := true } else p, rest, rfl, rfl,
      by simp [PsStation.insertSw], rfl, ?_, ?_, ?_⟩
    · split <;> rfl
    · split <;> rfl
    · rcases rest with _ | ⟨x, rest⟩
      · simp [hfalse]
      · simp

theorem deliverPsQueue_be (s : PsStation) :
    (deliverPsQueue s).txSwQueue .be = s.txSwQueue .be ++ s.psQueue := by
  simp [deliverPsQueue]

theorem rtmpHandleRxPsPoll_flow (h : StInv s) (sameAddr isActive : Bool) :
    s.psIds = legacyOut s (rtmpHandleRxPsPoll s sameAddr isActive) ++
      (rtmpHandleRxPsPoll s sameAddr isActive).psIds := by
  have hrefl : s.psIds = legacyOut s s ++ s.psIds := (UapsdMoves.refl s).flow h.classed
  unfold rtmpHandleRxPsPoll
  by_cases haddr : (!sameAddr) = true
  · rw [if_pos haddr]
    exact hrefl
  rw [if_neg haddr]
  by_cases hall : (!isActive && s.allAc) = true
  · rw [if_pos hall]
    exact hrefl
  rw [if_neg hall]
  cases isActive with
  | true =>
    rw [if_pos rfl]
    obtain ⟨hps, hsw, hrel⟩ := endPsPoll_frame (deliverAwake s)
    have hmoves := (uapsdAllPacketDeliver_moves s).trans (uapsdEntryReset_moves _)
    obtain ⟨new, hnew, huapsd⟩ := hmoves.sent h.classed
    obtain ⟨rel, hrel', huapsd'⟩ := hmoves.released h.classed
    have hsent : (endPsPoll (deliverAwake s)).txSwQueue .be =
        s.txSwQueue .be ++ (new ++ s.psQueue) := by
      rw [hsw, ← List.append_assoc, ← hnew, ← hmoves.psQueue]
      exact deliverPsQueue_be _
    rw [legacyOut_eq _ rel hsent (hrel.trans hrel'), List.filter_append, List.filter_append,
      filter_uapsd huapsd, filter_uapsd huapsd', filter_legacy fun p hp => (h.legacy p hp).1,
      PsStation.psIds, PsStation.psIds, hps, (deliverAwake_frame s).1]
    simp
  | false =>
    rw [if_neg Bool.false_ne_true]
    obtain ⟨hps, hsw, hrel⟩ := endPsPoll_frame (answerPsPoll s)
    rcases answerPsPoll_sends h with ⟨hnil, hnil', hsw', hrel'⟩ |
      ⟨p, q, rest, hq, hrest, hsent, hrel', hid, hidx, -⟩
    · rw [legacyOut_eq [] [] (by simp [hsw, hsw']) (by simp [hrel, hrel']),
        PsStation.psIds, PsStation.psIds, hps, hnil, hnil']
      rfl
    · have hlegacy : ∀ x ∈ [q], s.uapsd x.queIdx = false := by
        intro x hx
        rw [List.mem_singleton.mp hx, hidx]
        exact (h.legacy p (by rw [hq]; exact List.mem_cons_self)).1
      rw [legacyOut_eq [q] [] (by rw [hsw, hsent]) (by simp [hrel, hrel']),
        List.append_nil, filter_legacy hlegacy, PsStation.psIds, PsStation.psIds, hps, hq, hrest]
      simp [hid]

theorem cleanup_flow (h : StInv s) (hps : t.psQueue = []) (hsw : t.txSwQueue = s.txSwQueue)
    (hrel : t.released = s.released ++ s.psQueue) : s.psIds = legacyOut s t ++ t.psIds := by
  rw [legacyOut_eq [] _ (by simp [hsw]) hrel, List.nil_append,
    filter_legacy fun p hp => (h.legacy p hp).1, PsStation.psIds, PsStation.psIds, hps]
  simp

theorem writeRing_flow (s : PsStation) (ac : Ac) (offset : Nat) :
    s.psIds = legacyOut s (writeRing s ac offset) ++ (writeRing s ac offset).psIds := by
  unfold writeRing
  cases hq : s.txSwQueue ac with
  | nil => simp [legacyOut, PsStation.psIds]
  | cons p rest =>
    dsimp only
    obtain ⟨tags, htag⟩ := uapsdTagFrame_frame
      { s with
        txSwQueue := Function.update s.txSwQueue ac rest
        ring := Function.update s.ring ac (s.ring ac ++ [(p, offset)]) } p offset
    have hdrop : (Function.update s.txSwQueue ac rest .be).drop (s.txSwQueue .be).length = [] := by
      rw [List.drop_eq_nil_iff]
      by_cases hac : ac = .be
      · subst hac
        rw [Function.update_self, hq]
        exact Nat.le_succ _
      · rw [Function.update_of_ne (Ne.symm hac)]
    rw [htag]
    simp [legacyOut, PsStation.psIds, hdrop]

theorem insert_flow (s : PsStation) (i : Nat) (ac : Ac) :
    s.psIds ++ legacyEntered s (.insert i ac) = (psStep s (.insert i ac)).psIds := by
  have hgrow : ∃ new, (psStep s (.insert i ac)).psQueue = s.psQueue ++ new := by
    change ∃ new, (rtmpInsertPsQueue s (.fresh i ac)).psQueue = s.psQueue ++ new
    unfold rtmpInsertPsQueue
    split
    · rw [(announce_frame _ _).1, (uapsdPacketEnqueue_frame _ _ _).1]
      exact ⟨[], by simp⟩
    · split
      · exact ⟨[], by simp⟩
      · rw [(announce_frame _ _).1]
        exact ⟨_, rfl⟩
  obtain ⟨new, hnew⟩ := hgrow
  rw [legacyEntered, PsStation.psIds, PsStation.psIds, hnew, List.drop_left, List.map_append]

/-- **First in, first out**: behind the legacy frames that were waiting come those taken in, and
those that leave are the oldest. -/
theorem psStep_flow (h : StInv s) (e : PsEvent) :
    s.psIds ++ legacyEntered s e = legacyLeft s e ++ (psStep s e).psIds := by
  have hnone : ∀ {l : List Nat}, s.psIds = l → s.psIds ++ [] = l := by
    intro l hl
    rw [List.append_nil, hl]
  cases e with
  | insert i queIdx => exact (insert_flow s i queIdx).trans (List.nil_append _).symm
  | psPoll sameAddr => exact hnone (rtmpHandleRxPsPoll_flow h sameAddr false)
  | psIndicate sameAddr psm =>
    refine hnone ?_
    change s.psIds = legacyOut s (rtmpPsIndicate s sameAddr psm) ++
      (rtmpPsIndicate s sameAddr psm).psIds
    have hmode : StInv { s with psMode := psm } := h.of_frames rfl rfl rfl rfl rfl rfl
    unfold rtmpPsIndicate
    split
    · exact rtmpHandleRxPsPoll_flow hmode sameAddr true
    · exact (UapsdMoves.refl { s with psMode := psm }).flow hmode.classed
  | trigger upOfFrame => exact hnone ((trigger_moves h.held upOfFrame).flow h.classed)
  | uapsdPsPoll => exact hnone ((uapsdPsPoll_moves h.held).flow h.classed)
  | write ac offset => exact hnone (writeRing_flow s ac offset)
  | complete ac n a b => exact hnone ((bulkOutComplete_moves s ac n a b).flow h.classed)
  | spClose => exact hnone ((uapsdSpClose_moves s).flow h.classed)
  | maintenance b n => exact hnone ((uapsdQueueMaintenance_moves s b n).flow h.classed)
  | collect =>
    refine hnone ?_
    change s.psIds = legacyOut s (collectPsQueue s) ++ (collectPsQueue s).psIds
    have hrefl := (UapsdMoves.refl s).flow h.classed
    unfold collectPsQueue
    split
    · dsimp only
      split
      · exact cleanup_flow h rfl rfl rfl
      · exact hrefl
    · exact hrefl
  | cleanup => exact hnone (cleanup_flow h rfl rfl rfl)
  | deliverAll => exact hnone ((uapsdAllPacketDeliver_moves s).flow h.classed)
  | entryReset => exact hnone ((uapsdEntryReset_moves s).flow h.classed)

/-! ## 5. Runs -/

/-- One answered PS-Poll: how many legacy frames it found and what it put into the BE queue. -/
structure PsPollRecord where
  queued : Nat
  sent : List PsPacket

/-- Exactly one frame for a poll that finds any, with More Data set exactly when others stay. -/
def PsPollRecord.Lawful (r : PsPollRecord) : Prop :=
  (r.queued = 0 ∧ r.sent = []) ∨ ∃ p, r.sent = [p] ∧ (p.moreData = true ↔ 1 < r.queued)

/-- A PS-Poll is accepted when it is the station's own and not all categories are U-APSD ones. -/
def psPollRecord (s : PsStation) : PsEvent → List PsPollRecord
  | .psPoll true =>
      if s.allAc then []
      else
        [⟨s.psQueue.length,
          ((psStep s (.psPoll true)).txSwQueue .be).drop (s.txSwQueue .be).length⟩]
  | _ => []

theorem psPollRecord_lawful (h : StInv s) (e : PsEvent) :
    ∀ r ∈ psPollRecord s e, r.Lawful := by
  intro r hr
  cases e with
  | psPoll sameAddr =>
    cases sameAddr with
    | false => cases hr
    | true =>
      rw [psPollRecord] at hr
      by_cases hall : s.allAc = true
      · rw [if_pos hall] at hr
        cases hr
      · rw [if_neg hall, List.mem_singleton] at hr
        have hstep : psStep s (.psPoll true) = endPsPoll (answerPsPoll s) := by
          have hall : s.allAc = false := Bool.eq_false_of_not_eq_true hall
          simp [psStep, rtmpHandleRxPsPoll, hall]
        have hsw := (endPsPoll_frame (answerPsPoll s)).2.1
        subst hr
        rcases answerPsPoll_sends h with ⟨hnil, -, hsw', -⟩ |
          ⟨p, q, rest, hq, -, hsent, -, -, -, hmore⟩
        · refine .inl ⟨by simp [hnil], ?_⟩
          simp [hstep, hsw, hsw']
        · refine .inr ⟨q, ?_, ?_⟩
          · simp [hstep, hsw, hsent]
          · rw [hmore, hq, List.length_cons, Nat.lt_add_left_iff_pos, List.length_pos_iff]
  | _ => cases hr

/-- A station with what has been seen of it: the frames handed over, the legacy frames taken in and
those that have left, each in order, and the answered PS-Polls. -/
structure PsRun where
  station : PsStation
  handed : List Nat
  accepted : List Nat
  left : List Nat
  polls : List PsPollRecord

def PsRun.start (aid : Nat) (uapsd : Ac → Bool) (maxSPLength : Nat) : PsRun :=
  ⟨.associated aid uapsd maxSPLength, [], [], [], []⟩

def PsRun.step (w : PsRun) (e : PsEvent) : PsRun where
  station := psStep w.station e
  handed := w.handed ++ e.handed
  accepted := w.accepted ++ legacyEntered w.station e
  left := w.left ++ legacyLeft w.station e
  polls := w.polls ++ psPollRecord w.station e

/-- **The law of power-save buffering**, with the frames the TIM has to announce as a parameter. -/
structure PsRun.Lawful (announces : PsStation → Prop) (w : PsRun) : Prop where
  owned : ∀ i, w.station.buffered i + w.station.moved i + copiesIn i w.station.released =
    w.handed.count i
  fifo : w.accepted = w.left ++ w.station.psIds
  bounded : w.station.psQueue.length ≤ maxPacketsInPsQueue
  polled : ∀ r ∈ w.polls, r.Lawful
  announced : announces w.station → w.station.tim = true

theorem associated_stInv (aid : Nat) (uapsd : Ac → Bool) (maxSPLength : Nat) :
    StInv (.associated aid uapsd maxSPLength) where
  classed := ⟨fun _ _ hp => absurd hp List.not_mem_nil, fun _ hp => absurd hp List.not_mem_nil⟩
  legacy _ hp := by cases hp
  held h := absurd rfl h
  bounded := Nat.zero_le _
  announced hw := by
    rcases hw with hq | ⟨-, hp⟩
    · exact absurd rfl hq
    · obtain ⟨a, ha⟩ := uapsdPending_iff.mp hp
      exact absurd rfl ha

theorem psRun_step {w : PsRun} (hinv : StInv w.station) (hlaw : w.Lawful PsStation.waiting)
    (e : PsEvent) :
    StInv (w.step e).station ∧ (w.step e).Lawful PsStation.waiting := by
  have hnext := psStep_stInv hinv e
  refine ⟨hnext, ?_, ?_, hnext.bounded, ?_, hnext.announced⟩
  · intro i
    have hcopies : (psStep w.station e).copies i = w.handed.count i + e.handed.count i := by
      rw [psStep_copies hinv e i]
      exact congrArg (· + e.handed.count i) (hlaw.owned i)
    rw [PsRun.step, List.count_append]
    exact hcopies
  · calc (w.step e).accepted
        = w.left ++ (w.station.psIds ++ legacyEntered w.station e) := by
          rw [PsRun.step, hlaw.fifo, List.append_assoc]
      _ = w.left ++ (legacyLeft w.station e ++ (psStep w.station e).psIds) := by
          rw [psStep_flow hinv e]
      _ = (w.step e).left ++ (w.step e).station.psIds := by
          rw [PsRun.step, List.append_assoc]
  · intro r hr
    rcases List.mem_append.mp hr with hr | hr
    · exact hlaw.polled r hr
    · exact psPollRecord_lawful hinv e r hr

/-- **Buffering for a sleeping station** in every run: a frame handed over is buffered, moved to a TX
queue or released, once; legacy frames leave in order, one to an answered PS-Poll; and the TIM tells
of what waits in the queues. -/
theorem psRun_lawful (aid : Nat) (uapsd : Ac → Bool) (maxSPLength : Nat) (es : List PsEvent) :
    (Run.final PsRun.step (.start aid uapsd maxSPLength) es).Lawful PsStation.waiting := by
  have hstart : StInv (PsRun.start aid uapsd maxSPLength).station ∧
      (PsRun.start aid uapsd maxSPLength).Lawful PsStation.waiting := by
    have hinv := associated_stInv aid uapsd maxSPLength
    exact ⟨hinv, fun _ => rfl, rfl, hinv.bounded, fun _ hr => absurd hr List.not_mem_nil,
      hinv.announced⟩
  have hfinal : StInv (Run.final PsRun.step (.start aid uapsd maxSPLength) es).station ∧
      (Run.final PsRun.step (.start aid uapsd maxSPLength) es).Lawful PsStation.waiting :=
    Run.invariant_always (fun w : PsRun => StInv w.station ∧ w.Lawful PsStation.waiting)
      (fun w e h => psRun_step h.1 h.2 e) hstart
  exact hfinal.2

/-- Frames are held for the station that the TIM would have to tell of if the held-back last frame of
a service period counted as well. -/
def PsStation.holding (s : PsStation) : Prop :=
  s.psQueue ≠ [] ∨ (s.allAc = true ∧ (s.uapsdPending ∨ s.eospFrame ≠ none))

/-- Two frames for a station whose categories are all U-APSD ones, and a trigger frame. -/
def twoThenTrigger : List PsEvent :=
  [.psIndicate true .save, .insert 1 .vo, .insert 2 .vo, .trigger 6]

/-- The trigger frame moves the first of the two frames, holds the second back and clears the TIM. -/
theorem psRun_holding_not_announced :
    ¬ ∀ aid uapsd maxSPLength es,
      (Run.final PsRun.step (.start aid uapsd maxSPLength) es).Lawful PsStation.holding := by
  intro h
  have hlaw := (h 1 (fun _ => true) 0 twoThenTrigger).announced
  have hheld : (Run.final PsRun.step (.start 1 (fun _ => true) 0)
      twoThenTrigger).station.eospFrame ≠ none := by decide
  have hclear : (Run.final PsRun.step (.start 1 (fun _ => true) 0)
      twoThenTrigger).station.tim = false := by decide
  rw [hlaw (.inr ⟨by decide, .inr hheld⟩)] at hclear
  cases hclear

end Mt7601.Data
