/-
# Where a frame buffered for a sleeping station is

A frame's copies are counted over the entry's buffers, the TX queues behind them and the frames
released. The U-APSD operations have one thing in common, which `UapsdMoves` states: they move frames
of U-APSD categories on, without losing or doubling one, and leave the legacy queue as it is. The
relation is transitive, so each operation is the chain of its small moves, and the loops of a service
period are one move a turn: the frame taken last counts as held back until the next one is taken.
-/
import Mathlib.Data.List.Count
import Mt7601.Data.PowerSave

namespace Mt7601.Data

variable {s t u : PsStation} {ac : Ac} {p : PsPacket}

/-! ## 1. Counting a frame's copies -/

/-- How often a frame occurs in a list. -/
def copiesIn (i : Nat) (l : List PsPacket) : Nat := l.countP fun p => p.id = i

@[simp] theorem copiesIn_nil (i : Nat) : copiesIn i [] = 0 := rfl

@[simp] theorem copiesIn_cons (i : Nat) (p : PsPacket) (l : List PsPacket) :
    copiesIn i (p :: l) = copiesIn i l + if p.id = i then 1 else 0 := by
  simp [copiesIn, List.countP_cons]

@[simp] theorem copiesIn_append (i : Nat) (l m : List PsPacket) :
    copiesIn i (l ++ m) = copiesIn i l + copiesIn i m :=
  List.countP_append

/-- The sum over the four categories. -/
def acSum (f : Ac → Nat) : Nat := f .be + f .bk + f .vi + f .vo

/-- A change at one category changes the sum by as much. -/
theorem acSum_update {β : Type} (g : β → Nat) (f : Ac → β) (ac : Ac) (v : β) :
    acSum (fun a => g (Function.update f ac v a)) + g (f ac) =
      acSum (fun a => g (f a)) + g v := by
  cases ac <;> simp [acSum] <;> omega

/-- A frame's copies in the power-save buffers. -/
def PsStation.buffered (s : PsStation) (i : Nat) : Nat :=
  copiesIn i s.psQueue + acSum (fun a => copiesIn i (s.uapsdQueue a)) +
    copiesIn i s.eospFrame.toList

/-- A frame's copies that were moved to a TX queue: still there, in the USB ring or on the air. -/
def PsStation.moved (s : PsStation) (i : Nat) : Nat :=
  acSum (fun a => copiesIn i (s.txSwQueue a)) +
    acSum (fun a => copiesIn i ((s.ring a).map Prod.fst)) + copiesIn i s.completed

/-- All copies of a frame. -/
def PsStation.copies (s : PsStation) (i : Nat) : Nat :=
  s.buffered i + s.moved i + copiesIn i s.released

/-! ## 2. Moves of U-APSD frames -/

/-- The U-APSD buffers hold frames of U-APSD categories only. -/
def PsStation.Classed (s : PsStation) : Prop :=
  (∀ a, ∀ p ∈ s.uapsdQueue a, s.uapsd p.queIdx = true) ∧
    ∀ p ∈ s.eospFrame.toList, s.uapsd p.queIdx = true

theorem uapsdPending_iff : s.uapsdPending ↔ ∃ a, s.uapsdQueue a ≠ [] := by
  constructor
  · rintro (h | h | h | h)
    · exact ⟨.be, h⟩
    · exact ⟨.bk, h⟩
    · exact ⟨.vi, h⟩
    · exact ⟨.vo, h⟩
  · rintro ⟨a, ha⟩
    cases a with
    | be => exact .inl ha
    | bk => exact .inr (.inl ha)
    | vi => exact .inr (.inr (.inl ha))
    | vo => exact .inr (.inr (.inr ha))

/-- Emptying one category's queue leaves no more frames waiting. -/
theorem pending_of_update {q : List PsPacket} (hq : q ≠ [] → s.uapsdQueue ac ≠ [])
    (hqueue : t.uapsdQueue = Function.update s.uapsdQueue ac q) (h : t.uapsdPending) :
    s.uapsdPending := by
  rw [uapsdPending_iff] at h ⊢
  obtain ⟨a, ha⟩ := h
  rw [hqueue] at ha
  by_cases hac : a = ac
  · subst hac
    exact ⟨a, hq (by simpa using ha)⟩
  · exact ⟨a, by simpa [hac] using ha⟩

/-- `t` is `s` after some U-APSD frames have moved on; the legacy queue is as it was. -/
structure UapsdMoves (s t : PsStation) : Prop where
  aid : t.aid = s.aid
  uapsd : t.uapsd = s.uapsd
  psQueue : t.psQueue = s.psQueue
  pending : t.uapsdPending → s.uapsdPending
  copies : ∀ i, t.copies i = s.copies i
  classed : s.Classed → t.Classed
  sent : s.Classed → ∃ new, t.txSwQueue .be = s.txSwQueue .be ++ new ∧
    ∀ p ∈ new, s.uapsd p.queIdx = true
  released : s.Classed → ∃ new, t.released = s.released ++ new ∧
    ∀ p ∈ new, s.uapsd p.queIdx = true

theorem UapsdMoves.refl (s : PsStation) : UapsdMoves s s where
  aid := rfl
  uapsd := rfl
  psQueue := rfl
  pending h := h
  copies _ := rfl
  classed h := h
  sent _ := ⟨[], by simp⟩
  released _ := ⟨[], by simp⟩

theorem UapsdMoves.trans (h : UapsdMoves s t) (h' : UapsdMoves t u) : UapsdMoves s u where
  aid := h'.aid.trans h.aid
  uapsd := h'.uapsd.trans h.uapsd
  psQueue := h'.psQueue.trans h.psQueue
  pending hu := h.pending (h'.pending hu)
  copies i := (h'.copies i).trans (h.copies i)
  classed hs := h'.classed (h.classed hs)
  sent hs := by
    obtain ⟨new, hnew, huapsd⟩ := h.sent hs
    obtain ⟨new', hnew', huapsd'⟩ := h'.sent (h.classed hs)
    refine ⟨new ++ new', by rw [hnew', hnew, List.append_assoc], ?_⟩
    intro p hp
    rcases List.mem_append.mp hp with hp | hp
    · exact huapsd p hp
    · exact h.uapsd ▸ huapsd' p hp
  released hs := by
    obtain ⟨new, hnew, huapsd⟩ := h.released hs
    obtain ⟨new', hnew', huapsd'⟩ := h'.released (h.classed hs)
    refine ⟨new ++ new', by rw [hnew', hnew, List.append_assoc], ?_⟩
    intro p hp
    rcases List.mem_append.mp hp with hp | hp
    · exact huapsd p hp
    · exact h.uapsd ▸ huapsd' p hp

theorem UapsdMoves.foldl {op : PsStation → Ac → PsStation} (hop : ∀ s a, UapsdMoves s (op s a))
    (acs : List Ac) (s : PsStation) : UapsdMoves s (acs.foldl op s) := by
  induction acs generalizing s with
  | nil => exact .refl s
  | cons a acs ih => exact (hop s a).trans (ih _)

/-- A change of the counters and flags alone moves nothing. -/
theorem UapsdMoves.of_frames (haid : t.aid = s.aid) (huapsd : t.uapsd = s.uapsd)
    (hps : t.psQueue = s.psQueue) (hqueue : t.uapsdQueue = s.uapsdQueue)
    (heosp : t.eospFrame = s.eospFrame) (hsw : t.txSwQueue = s.txSwQueue)
    (hring : t.ring = s.ring) (hdone : t.completed = s.completed)
    (hrel : t.released = s.released) : UapsdMoves s t where
  aid := haid
  uapsd := huapsd
  psQueue := hps
  pending h := by simpa only [uapsdPending_iff, hqueue] using h
  copies i := by simp only [PsStation.copies, PsStation.buffered, PsStation.moved, *]
  classed h := by simpa only [PsStation.Classed, huapsd, hqueue, heosp] using h
  sent _ := ⟨[], by simp [hsw]⟩
  released _ := ⟨[], by simp [hrel]⟩

theorem cleanupUapsdQueue_moves (s : PsStation) (ac : Ac) :
    UapsdMoves s (cleanupUapsdQueue s ac) where
  aid := rfl
  uapsd := rfl
  psQueue := rfl
  pending h := pending_of_update (by simp) rfl h
  copies i := by
    have hsum := acSum_update (copiesIn i) s.uapsdQueue ac []
    simp only [PsStation.copies, PsStation.buffered, PsStation.moved, cleanupUapsdQueue,
      copiesIn_append, copiesIn_nil] at hsum ⊢
    omega
  classed h := by
    refine ⟨fun a p hp => ?_, h.2⟩
    by_cases ha : a = ac
    · subst ha
      simp [cleanupUapsdQueue] at hp
    · exact h.1 a p (by simpa [cleanupUapsdQueue, ha] using hp)
  sent _ := ⟨[], by simp [cleanupUapsdQueue]⟩
  released h := ⟨s.uapsdQueue ac, rfl, h.1 ac⟩

theorem cleanupUapsdQueues_moves (s : PsStation) : UapsdMoves s (cleanupUapsdQueues s) :=
  UapsdMoves.foldl cleanupUapsdQueue_moves _ s

theorem deliverUapsdQueue_moves (s : PsStation) (ac : Ac) :
    UapsdMoves s (deliverUapsdQueue s ac) where
  aid := rfl
  uapsd := rfl
  psQueue := rfl
  pending h := pending_of_update (by simp) rfl h
  copies i := by
    have hqueue := acSum_update (copiesIn i) s.uapsdQueue ac []
    have hsw := acSum_update (copiesIn i) s.txSwQueue ac (s.txSwQueue ac ++ s.uapsdQueue ac)
    simp only [PsStation.copies, PsStation.buffered, PsStation.moved, deliverUapsdQueue,
      copiesIn_append, copiesIn_nil] at hqueue hsw ⊢
    omega
  classed h := by
    refine ⟨fun a p hp => ?_, h.2⟩
    by_cases ha : a = ac
    · subst ha
      simp [deliverUapsdQueue] at hp
    · exact h.1 a p (by simpa [deliverUapsdQueue, ha] using hp)
  sent h := by
    by_cases hac : ac = .be
    · subst hac
      exact ⟨s.uapsdQueue .be, by simp [deliverUapsdQueue], h.1 .be⟩
    · exact ⟨[], by simp [deliverUapsdQueue, Ne.symm hac]⟩
  released _ := ⟨[], by simp [deliverUapsdQueue]⟩

theorem releaseEosp_moves (s : PsStation) : UapsdMoves s (releaseEosp s) where
  aid := rfl
  uapsd := rfl
  psQueue := rfl
  pending h := h
  copies i := by
    simp only [PsStation.copies, PsStation.buffered, PsStation.moved, releaseEosp,
      copiesIn_append, Option.toList_none, copiesIn_nil]
    omega
  classed h := ⟨h.1, by simp [releaseEosp]⟩
  sent _ := ⟨[], by simp [releaseEosp]⟩
  released h := ⟨s.eospFrame.toList, rfl, h.2⟩

/-- The held-back frame joins the software queue of a category, with whatever its More Data and
EOSP bits are by then. -/
theorem insertEosp_moves {q : PsPacket} (hp : s.eospFrame = some p) (hid : q.id = p.id)
    (hidx : q.queIdx = p.queIdx) (ac : Ac) :
    UapsdMoves s { s.insertSw ac q with eospFrame := none } where
  aid := rfl
  uapsd := rfl
  psQueue := rfl
  pending h := h
  copies i := by
    have hsw := acSum_update (copiesIn i) s.txSwQueue ac (s.txSwQueue ac ++ [q])
    simp only [PsStation.copies, PsStation.buffered, PsStation.moved, PsStation.insertSw, hp,
      copiesIn_append, copiesIn_cons, copiesIn_nil, Option.toList_none, Option.toList_some, hid]
      at hsw ⊢
    omega
  classed h := ⟨h.1, by simp⟩
  sent h := by
    have hq : s.uapsd q.queIdx = true := hidx ▸ h.2 p (by simp [hp])
    by_cases hac : ac = .be
    · subst hac
      exact ⟨[q], by simp [PsStation.insertSw], by simpa using hq⟩
    · exact ⟨[], by simp [PsStation.insertSw, Ne.symm hac]⟩
  released _ := ⟨[], by simp [PsStation.insertSw]⟩

theorem sendEosp_moves (hp : s.eospFrame = some p) : UapsdMoves s (sendEosp s p) :=
  (insertEosp_moves hp rfl rfl p.queId).trans (.of_frames rfl rfl rfl rfl rfl rfl rfl rfl rfl)

/-- The oldest frame of a U-APSD queue becomes the held-back one. -/
theorem removeHead_moves {q : PsPacket} {rest : List PsPacket} (hnone : s.eospFrame = none)
    (hqueue : s.uapsdQueue ac = p :: rest) (hid : q.id = p.id) (hidx : q.queIdx = p.queIdx) :
    UapsdMoves s { s.removeHead ac rest with eospFrame := some q } where
  aid := rfl
  uapsd := rfl
  psQueue := rfl
  pending h := pending_of_update (by simp [hqueue]) rfl h
  copies i := by
    have hsum := acSum_update (copiesIn i) s.uapsdQueue ac rest
    simp only [PsStation.copies, PsStation.buffered, PsStation.moved, PsStation.removeHead, hnone,
      hqueue, copiesIn_cons, copiesIn_nil, Option.toList_none, Option.toList_some, hid] at hsum ⊢
    omega
  classed h := by
    refine ⟨fun a x hx => ?_, ?_⟩
    · by_cases ha : a = ac
      · subst ha
        have hx : x ∈ rest := by simpa [PsStation.removeHead] using hx
        exact h.1 a x (by rw [hqueue]; exact List.mem_cons_of_mem p hx)
      · exact h.1 a x (by simpa [PsStation.removeHead, ha] using hx)
    · have hq : s.uapsd q.queIdx = true := hidx ▸ h.1 ac p (by rw [hqueue]; exact List.mem_cons_self)
      simpa [PsStation.removeHead] using hq
  sent _ := ⟨[], by simp [PsStation.removeHead]⟩
  released _ := ⟨[], by simp [PsStation.removeHead]⟩

theorem setEosp_moves {q : PsPacket} (hp : s.eospFrame = some p) (hid : q.id = p.id)
    (hidx : q.queIdx = p.queIdx) : UapsdMoves s { s with eospFrame := some q } where
  aid := rfl
  uapsd := rfl
  psQueue := rfl
  pending h := h
  copies i := by
    simp only [PsStation.copies, PsStation.buffered, PsStation.moved, hp, Option.toList_some,
      copiesIn_cons, copiesIn_nil, hid]
  classed h := by
    have hq : s.uapsd q.queIdx = true := hidx ▸ h.2 p (by simp [hp])
    exact ⟨h.1, by simpa using hq⟩
  sent _ := ⟨[], by simp⟩
  released _ := ⟨[], by simp⟩

theorem uapsdEntryReset_moves (s : PsStation) : UapsdMoves s (uapsdEntryReset s) :=
  ((cleanupUapsdQueues_moves s).trans (releaseEosp_moves _)).trans
    (.of_frames rfl rfl rfl rfl rfl rfl rfl rfl rfl)

theorem uapsdAllPacketDeliver_moves (s : PsStation) : UapsdMoves s (uapsdAllPacketDeliver s) := by
  unfold uapsdAllPacketDeliver
  cases he : s.eospFrame with
  | none => exact UapsdMoves.foldl deliverUapsdQueue_moves _ s
  | some p =>
    exact (sendEosp_moves he).trans (UapsdMoves.foldl deliverUapsdQueue_moves _ _)

/-! ## 3. The loops of a service period -/

/-- The entry with the frame taken last in the place where it may end up. -/
def holdQued (s : PsStation) (q : Option (PsPacket × Ac)) : PsStation :=
  { s with eospFrame := q.map Prod.fst }

def SpLoop.held (l : SpLoop) : PsStation := holdQued l.station l.quedPkt

@[simp] theorem insertQued_uapsdQueue (s : PsStation) (q : Option (PsPacket × Ac)) :
    (insertQued s q).uapsdQueue = s.uapsdQueue := by
  cases q <;> rfl

@[simp] theorem insertQued_tim (s : PsStation) (q : Option (PsPacket × Ac)) :
    (insertQued s q).tim = s.tim := by
  cases q <;> rfl

/-- One turn of the inner loop. -/
theorem takeFrame_moves {l : SpLoop} {p q : PsPacket} {rest : List PsPacket}
    (hqueue : l.station.uapsdQueue ac = p :: rest) (hid : q.id = p.id)
    (hidx : q.queIdx = p.queIdx) (n : Nat) (b : Bool) :
    UapsdMoves l.held
      (SpLoop.held ⟨(insertQued l.station l.quedPkt).removeHead ac rest, some (q, ac), n, b⟩) := by
  rcases hl : l.quedPkt with _ | ⟨x, a⟩
  · have hnone : l.held.eospFrame = none := by simp [SpLoop.held, holdQued, hl]
    exact removeHead_moves hnone hqueue hid hidx
  · have hsome : l.held.eospFrame = some x := by simp [SpLoop.held, holdQued, hl]
    have hinsert := insertEosp_moves hsome rfl rfl a
    exact hinsert.trans (removeHead_moves rfl hqueue hid hidx)

theorem takeFrames_moves (n : Nat) (ac : Ac) (q : List PsPacket) :
    ∀ l : SpLoop, l.station.uapsdQueue ac = q →
      UapsdMoves l.held (takeFrames n ac l q).held := by
  induction q with
  | nil => exact fun l _ => .refl _
  | cons p rest ih =>
    intro l hq
    rw [takeFrames]
    by_cases hfull : n ≠ 0 ∧ l.txPktNum ≥ n
    · rw [if_pos hfull]
      exact .refl _
    · rw [if_neg hfull]
      have hstep := takeFrame_moves hq (q := { p with moreData := true, uapsd := true, queId := ac })
        rfl rfl (l.txPktNum + 1) l.flgQueEmpty
      exact hstep.trans (ih _ (by simp [PsStation.removeHead]))

theorem takeFrames_tim (n : Nat) (ac : Ac) (q : List PsPacket) (l : SpLoop) :
    (takeFrames n ac l q).station.tim = l.station.tim := by
  induction q generalizing l with
  | nil => rfl
  | cons p rest ih =>
    rw [takeFrames]
    by_cases hfull : n ≠ 0 ∧ l.txPktNum ≥ n
    · rw [if_pos hfull]
    · rw [if_neg hfull, ih]
      exact insertQued_tim _ _

theorem takeFrames_other {a : Ac} (ha : a ≠ ac) (n : Nat) (q : List PsPacket) (l : SpLoop) :
    (takeFrames n ac l q).station.uapsdQueue a = l.station.uapsdQueue a := by
  induction q generalizing l with
  | nil => rfl
  | cons p rest ih =>
    rw [takeFrames]
    by_cases hfull : n ≠ 0 ∧ l.txPktNum ≥ n
    · rw [if_pos hfull]
    · rw [if_neg hfull, ih]
      simp [PsStation.removeHead, ha]

/-- The flag stays up only when the queue was emptied. -/
theorem takeFrames_emptied (n : Nat) (q : List PsPacket) {l : SpLoop}
    (hq : l.station.uapsdQueue ac = q) (hflg : (takeFrames n ac l q).flgQueEmpty = true) :
    (takeFrames n ac l q).station.uapsdQueue ac = [] := by
  induction q generalizing l with
  | nil => exact hq
  | cons p rest ih =>
    rw [takeFrames] at hflg ⊢
    by_cases hfull : n ≠ 0 ∧ l.txPktNum ≥ n
    · rw [if_pos hfull] at hflg
      cases hflg
    · rw [if_neg hfull] at hflg ⊢
      exact ih (by simp [PsStation.removeHead]) hflg

theorem takeAcs_moves (n : Nat) (acs : List Ac) (l : SpLoop) :
    UapsdMoves l.held (takeAcs n l acs).held := by
  induction acs generalizing l with
  | nil => exact .refl _
  | cons a acs ih =>
    rw [takeAcs]
    by_cases hcap : l.station.uapsd a = false
    · rw [if_pos hcap]
      exact ih l
    · rw [if_neg hcap]
      have hframes := takeFrames_moves n a _ l rfl
      by_cases hflg : (takeFrames n a l (l.station.uapsdQueue a)).flgQueEmpty = false
      · exact (if_pos hflg).symm ▸ hframes
      · exact (if_neg hflg).symm ▸ hframes.trans (ih _)

theorem takeAcs_tim (n : Nat) (acs : List Ac) (l : SpLoop) :
    (takeAcs n l acs).station.tim = l.station.tim := by
  induction acs generalizing l with
  | nil => rfl
  | cons a acs ih =>
    rw [takeAcs]
    by_cases hcap : l.station.uapsd a = false
    · rw [if_pos hcap, ih]
    · rw [if_neg hcap]
      by_cases hflg : (takeFrames n a l (l.station.uapsdQueue a)).flgQueEmpty = false
      · rw [if_pos hflg, takeFrames_tim]
      · rw [if_neg hflg, ih, takeFrames_tim]

theorem takeAcs_other {a : Ac} (n : Nat) {acs : List Ac} (ha : a ∉ acs) (l : SpLoop) :
    (takeAcs n l acs).station.uapsdQueue a = l.station.uapsdQueue a := by
  induction acs generalizing l with
  | nil => rfl
  | cons b acs ih =>
    rw [List.mem_cons, not_or] at ha
    rw [takeAcs]
    by_cases hcap : l.station.uapsd b = false
    · rw [if_pos hcap, ih ha.2]
    · rw [if_neg hcap]
      by_cases hflg : (takeFrames n b l (l.station.uapsdQueue b)).flgQueEmpty = false
      · rw [if_pos hflg, takeFrames_other ha.1]
      · rw [if_neg hflg, ih ha.2, takeFrames_other ha.1]

theorem takeFrames_uapsd (n : Nat) (ac : Ac) (q : List PsPacket) (l : SpLoop)
    (hq : l.station.uapsdQueue ac = q) : (takeFrames n ac l q).station.uapsd = l.station.uapsd :=
  (takeFrames_moves n ac q l hq).uapsd

/-- If the flag is still up behind the loops, every delivery-enabled queue has been emptied. -/
theorem takeAcs_emptied (n : Nat) {acs : List Ac} (hnodup : acs.Nodup) {l : SpLoop}
    (hflg : (takeAcs n l acs).flgQueEmpty = true) {a : Ac} (ha : a ∈ acs)
    (hcap : l.station.uapsd a = true) : (takeAcs n l acs).station.uapsdQueue a = [] := by
  induction acs generalizing l with
  | nil => cases ha
  | cons b acs ih =>
    rw [List.nodup_cons] at hnodup
    rw [takeAcs] at hflg ⊢
    by_cases hb : l.station.uapsd b = false
    · rw [if_pos hb] at hflg ⊢
      rcases List.mem_cons.mp ha with rfl | ha
      · rw [hcap] at hb
        cases hb
      · exact ih hnodup.2 hflg ha hcap
    · rw [if_neg hb] at hflg ⊢
      by_cases hstop : (takeFrames n b l (l.station.uapsdQueue b)).flgQueEmpty = false
      · rw [if_pos hstop, hstop] at hflg
        cases hflg
      · rw [if_neg hstop] at hflg ⊢
        rcases List.mem_cons.mp ha with rfl | ha
        · rw [takeAcs_other n hnodup.1]
          exact takeFrames_emptied n _ rfl (by simpa using hstop)
        · exact ih hnodup.2 hflg ha (by rw [takeFrames_uapsd n b _ l rfl]; exact hcap)

theorem closeLoop_moves (l : SpLoop) : UapsdMoves l.held (closeLoop l) := by
  rcases hl : l.quedPkt with _ | ⟨p, ac⟩
  · have hclose : closeLoop l = { l.station with
        spStart := true, eospFrame := none, uapsdTxNum := 0,
        nullFrames := l.station.nullFrames + 1 } := by simp [closeLoop, hl]
    rw [hclose]
    exact .of_frames rfl rfl rfl rfl (by simp [SpLoop.held, holdQued, hl]) rfl rfl rfl rfl
  · have hsome : l.held.eospFrame = some p := by simp [SpLoop.held, holdQued, hl]
    by_cases hone : l.txPktNum ≤ 1
    · simp only [closeLoop, hl, if_pos hone]
      refine UapsdMoves.trans (insertEosp_moves hsome
        (q := { p with moreData := if l.flgQueEmpty then false else p.moreData, eosp := true })
        rfl rfl ac) ?_
      exact .of_frames rfl rfl rfl rfl rfl rfl rfl rfl rfl
    · simp only [closeLoop, hl, if_neg hone]
      refine UapsdMoves.trans (setEosp_moves hsome
        (q := { p with moreData := if l.flgQueEmpty then false else p.moreData, eosp := true })
        rfl rfl) ?_
      exact .of_frames rfl rfl rfl rfl rfl rfl rfl rfl rfl

/-! ## 4. The U-APSD operations -/

@[simp] theorem clearTim_eospFrame (s : PsStation) : s.clearTim.eospFrame = s.eospFrame := by
  unfold PsStation.clearTim
  split <;> rfl

@[simp] theorem clearTim_spStart (s : PsStation) : s.clearTim.spStart = s.spStart := by
  unfold PsStation.clearTim
  split <;> rfl

@[simp] theorem clearTim_uapsdQueue (s : PsStation) : s.clearTim.uapsdQueue = s.uapsdQueue := by
  unfold PsStation.clearTim
  split <;> rfl

theorem clearTim_moves (s : PsStation) : UapsdMoves s s.clearTim := by
  unfold PsStation.clearTim
  by_cases haid : 0 < s.aid ∧ s.aid < Ba.maxLenOfMacTable
  · rw [if_pos haid]
    exact .of_frames rfl rfl rfl rfl rfl rfl rfl rfl rfl
  · rw [if_neg haid]
    exact .refl s

theorem resetSpLength_moves (s : PsStation) : UapsdMoves s (resetSpLength s) := by
  unfold resetSpLength
  by_cases hlen : s.maxSPLength ≥ 4
  · rw [if_pos hlen]
    exact .of_frames rfl rfl rfl rfl rfl rfl rfl rfl rfl
  · rw [if_neg hlen]
    exact .refl s

theorem resetSpLength_eospFrame (s : PsStation) : (resetSpLength s).eospFrame = s.eospFrame := by
  unfold resetSpLength
  split <;> rfl

theorem resetSpLength_tim (s : PsStation) : (resetSpLength s).tim = s.tim := by
  unfold resetSpLength
  split <;> rfl

@[simp] theorem closeLoop_tim (l : SpLoop) : (closeLoop l).tim = l.station.tim := by
  unfold closeLoop
  rcases l.quedPkt with _ | ⟨p, ac⟩
  · rfl
  · dsimp only
    split <;> rfl

@[simp] theorem closeLoop_spStart (l : SpLoop) : (closeLoop l).spStart = true := by
  unfold closeLoop
  rcases l.quedPkt with _ | ⟨p, ac⟩
  · rfl
  · dsimp only
    split <;> rfl

@[simp] theorem closeLoop_uapsdQueue (l : SpLoop) :
    (closeLoop l).uapsdQueue = l.station.uapsdQueue := by
  unfold closeLoop
  rcases l.quedPkt with _ | ⟨p, ac⟩
  · rfl
  · dsimp only
    split <;> rfl

theorem startServicePeriod_moves (hnone : s.eospFrame = none) :
    UapsdMoves s (startServicePeriod s) := by
  have hstart : (⟨s, none, 0, true⟩ : SpLoop).held = s := by
    simp only [SpLoop.held, holdQued, Option.map_none, ← hnone]
  have hloop : UapsdMoves s (closeLoop (spLoop s)) := by
    have htake := takeAcs_moves (spLenMap s.maxSPLength) acPriority ⟨s, none, 0, true⟩
    rw [hstart] at htake
    exact htake.trans (closeLoop_moves _)
  unfold startServicePeriod
  by_cases hclear : (s.allAc && (spLoop s).flgQueEmpty) = true
  · simp only [if_pos hclear]
    exact (hloop.trans (clearTim_moves _)).trans (.of_frames rfl rfl rfl rfl rfl rfl rfl rfl rfl)
  · simp only [if_neg hclear]
    exact hloop.trans (.of_frames rfl rfl rfl rfl rfl rfl rfl rfl rfl)

theorem trigger_moves (heosp : s.eospFrame ≠ none → s.spStart = true) (up : Nat) :
    UapsdMoves s (uapsdTriggerFrameHandle s up) := by
  unfold uapsdTriggerFrameHandle
  by_cases hsp : s.spStart = true
  · rw [if_pos hsp]
    exact .refl s
  · have hnone : s.eospFrame = none := by
      by_contra hsome
      exact hsp (heosp hsome)
    rw [if_neg hsp]
    by_cases hcap : (resetSpLength s).uapsd (acOfUserPriority up) = false
    · rw [if_pos hcap]
      exact resetSpLength_moves s
    · rw [if_neg hcap]
      exact (resetSpLength_moves s).trans
        (startServicePeriod_moves ((resetSpLength_eospFrame s).trans hnone))

theorem takeHead_moves (s : PsStation) (q : Option (PsPacket × Ac)) (ac : Ac) :
    UapsdMoves (holdQued s q) (holdQued (takeHead s q ac).1 (takeHead s q ac).2) := by
  rcases q with _ | x
  · unfold takeHead
    cases hq : s.uapsdQueue ac with
    | nil => exact .refl _
    | cons p rest => exact removeHead_moves (s := holdQued s none) rfl hq rfl rfl
  · exact .refl _

theorem takeHead_other {a : Ac} (ha : a ≠ ac) (s : PsStation) (q : Option (PsPacket × Ac)) :
    (takeHead s q ac).1.uapsdQueue a = s.uapsdQueue a := by
  rcases q with _ | x
  · unfold takeHead
    cases hq : s.uapsdQueue ac with
    | nil => rfl
    | cons p rest => simp [PsStation.removeHead, ha]
  · rfl

theorem takeOne_moves (acs : List Ac) (s : PsStation) (q : Option (PsPacket × Ac)) :
    UapsdMoves (holdQued s q) (holdQued (takeOne s q acs).1 (takeOne s q acs).2.1) := by
  induction acs generalizing s q with
  | nil => exact .refl _
  | cons a acs ih =>
    have hhead := takeHead_moves s q a
    rw [takeOne]
    by_cases hrest : (takeHead s q a).1.uapsdQueue a ≠ []
    · rw [if_pos hrest]
      exact hhead
    · rw [if_neg hrest]
      exact hhead.trans (ih _ _)

theorem takeOne_other {a : Ac} {acs : List Ac} (ha : a ∉ acs) (s : PsStation)
    (q : Option (PsPacket × Ac)) : (takeOne s q acs).1.uapsdQueue a = s.uapsdQueue a := by
  induction acs generalizing s q with
  | nil => rfl
  | cons b acs ih =>
    rw [List.mem_cons, not_or] at ha
    rw [takeOne]
    by_cases hrest : (takeHead s q b).1.uapsdQueue b ≠ []
    · rw [if_pos hrest, takeHead_other ha.1]
    · rw [if_neg hrest, ih ha.2, takeHead_other ha.1]

theorem takeOne_emptied {acs : List Ac} (hnodup : acs.Nodup) {q : Option (PsPacket × Ac)}
    (hflg : (takeOne s q acs).2.2 = true) {a : Ac} (ha : a ∈ acs) :
    (takeOne s q acs).1.uapsdQueue a = [] := by
  induction acs generalizing s q with
  | nil => cases ha
  | cons b acs ih =>
    rw [List.nodup_cons] at hnodup
    rw [takeOne] at hflg ⊢
    by_cases hrest : (takeHead s q b).1.uapsdQueue b ≠ []
    · rw [if_pos hrest] at hflg
      cases hflg
    · rw [if_neg hrest] at hflg ⊢
      rcases List.mem_cons.mp ha with rfl | ha
      · rw [takeOne_other hnodup.1]
        exact not_not.mp hrest
      · exact ih hnodup.2 hflg ha

/-- The fields that neither loop body writes. -/
theorem takeOne_frame (acs : List Ac) (s : PsStation) (q : Option (PsPacket × Ac)) :
    (takeOne s q acs).1.eospFrame = s.eospFrame ∧ (takeOne s q acs).1.spStart = s.spStart ∧
      (takeOne s q acs).1.tim = s.tim := by
  have hhead : ∀ (s : PsStation) (q : Option (PsPacket × Ac)) (a : Ac),
      (takeHead s q a).1.eospFrame = s.eospFrame ∧ (takeHead s q a).1.spStart = s.spStart ∧
        (takeHead s q a).1.tim = s.tim := by
    intro s q a
    rcases q with _ | x
    · unfold takeHead
      cases hq : s.uapsdQueue a <;> exact ⟨rfl, rfl, rfl⟩
    · exact ⟨rfl, rfl, rfl⟩
  induction acs generalizing s q with
  | nil => exact ⟨rfl, rfl, rfl⟩
  | cons a acs ih =>
    rw [takeOne]
    by_cases hrest : (takeHead s q a).1.uapsdQueue a ≠ []
    · rw [if_pos hrest]
      exact hhead s q a
    · rw [if_neg hrest]
      obtain ⟨he, hs, ht⟩ := ih (takeHead s q a).1 (takeHead s q a).2
      obtain ⟨he', hs', ht'⟩ := hhead s q a
      exact ⟨he.trans he', hs.trans hs', ht.trans ht'⟩

theorem sendQued_moves (hnone : s.eospFrame = none) (b : Bool) (q : Option (PsPacket × Ac)) :
    UapsdMoves (holdQued s q) (sendQued s b q) := by
  rcases q with _ | ⟨p, ac⟩
  · exact .of_frames rfl rfl rfl rfl hnone rfl rfl rfl rfl
  · have hinsert := insertEosp_moves (s := holdQued s (some (p, ac))) rfl
      (q := { p with moreData := if b then false else p.moreData }) rfl rfl ac
    exact hinsert.trans (.of_frames rfl rfl rfl rfl hnone rfl rfl rfl rfl)

theorem answerUapsdPsPoll_moves (hnone : s.eospFrame = none) :
    UapsdMoves s (answerUapsdPsPoll s) := by
  have hstart : holdQued s none = s := by
    simp only [holdQued, Option.map_none, ← hnone]
  have htake := takeOne_moves acPriority s none
  rw [hstart] at htake
  have hsend := htake.trans (sendQued_moves ((takeOne_frame acPriority s none).1.trans hnone)
    (takeOne s none acPriority).2.2 _)
  unfold answerUapsdPsPoll
  by_cases hflg : (takeOne s none acPriority).2.2 = true
  · simp only [if_pos hflg]
    exact (hsend.trans (clearTim_moves _)).trans (.of_frames rfl rfl rfl rfl rfl rfl rfl rfl rfl)
  · simp only [if_neg hflg]
    exact hsend.trans (.of_frames rfl rfl rfl rfl rfl rfl rfl rfl rfl)

theorem uapsdPsPoll_moves (heosp : s.eospFrame ≠ none → s.spStart = true) :
    UapsdMoves s (uapsdPsPollHandle s) := by
  unfold uapsdPsPollHandle
  by_cases hall : s.allAc = false
  · rw [if_pos hall]
    exact .refl s
  · rw [if_neg hall]
    by_cases hsp : s.spStart = true
    · rw [if_pos hsp]
      exact .refl s
    · rw [if_neg hsp]
      exact answerUapsdPsPoll_moves (not_not.mp fun hsome => hsp (heosp hsome))

theorem afterUnTag_moves (s : PsStation) : UapsdMoves s (afterUnTag s) := by
  unfold afterUnTag
  by_cases hnum : s.uapsdTxNum = 0
  · rw [if_pos hnum]
    exact (releaseEosp_moves s).trans (.of_frames rfl rfl rfl rfl rfl rfl rfl rfl rfl)
  · rw [if_neg hnum]
    by_cases htag : s.untagged
    · rw [if_pos htag]
      cases he : s.eospFrame with
      | none => exact .of_frames rfl rfl rfl rfl he.symm rfl rfl rfl rfl
      | some p => exact sendEosp_moves he
    · rw [if_neg htag]
      exact .refl s

theorem uapsdUnTagFrame_moves (s : PsStation) (ac : Ac) (a b : Nat) :
    UapsdMoves s (uapsdUnTagFrame s ac a b) := by
  unfold uapsdUnTagFrame
  by_cases hsp : s.spStart = true ∧ s.tagOffset ac ≠ 0
  · rw [if_pos hsp]
    by_cases hbulk : tagInBulk (s.tagOffset ac) a b
    · rw [if_pos hbulk]
      have hafter := afterUnTag_moves { s with tagOffset := Function.update s.tagOffset ac 0 }
      refine UapsdMoves.trans ?_ hafter
      exact .of_frames rfl rfl rfl rfl rfl rfl rfl rfl rfl
    · rw [if_neg hbulk]
      exact .refl s
  · rw [if_neg hsp]
    exact .refl s

theorem bulkOutComplete_moves (s : PsStation) (ac : Ac) (n a b : Nat) :
    UapsdMoves s (bulkOutComplete s ac n a b) := by
  refine UapsdMoves.trans ?_ (uapsdUnTagFrame_moves _ ac a b)
  refine ⟨rfl, rfl, rfl, id, fun i => ?_, id, fun _ => ⟨[], by simp⟩, fun _ => ⟨[], by simp⟩⟩
  have hsum := acSum_update (fun l : List (PsPacket × Nat) => copiesIn i (l.map Prod.fst)) s.ring ac
    ((s.ring ac).drop n)
  have hsplit : copiesIn i ((s.ring ac).map Prod.fst) =
      copiesIn i (((s.ring ac).take n).map Prod.fst) +
        copiesIn i (((s.ring ac).drop n).map Prod.fst) := by
    rw [← copiesIn_append, ← List.map_append, List.take_append_drop]
  simp only [PsStation.copies, PsStation.buffered, PsStation.moved, copiesIn_append] at hsum ⊢
  omega

theorem uapsdSpClose_moves (s : PsStation) : UapsdMoves s (uapsdSpClose s) := by
  unfold uapsdSpClose
  by_cases hsp : s.psMode = .save ∧ s.spStart = true
  · rw [if_pos hsp]
    exact (releaseEosp_moves s).trans (.of_frames rfl rfl rfl rfl rfl rfl rfl rfl rfl)
  · rw [if_neg hsp]
    exact .refl s

theorem dropUapsd_moves (s : PsStation) : UapsdMoves s (dropUapsd s) := by
  have hclean : UapsdMoves s (if s.uapsdPending then cleanupUapsdQueues s else s) := by
    by_cases hpending : s.uapsdPending
    · rw [if_pos hpending]
      exact cleanupUapsdQueues_moves s
    · rw [if_neg hpending]
      exact .refl s
  have hrelease := hclean.trans (releaseEosp_moves _)
  exact hrelease.trans (.of_frames rfl rfl rfl rfl rfl rfl rfl rfl rfl)

theorem uapsdTimeOut_moves (s : PsStation) : UapsdMoves s (uapsdTimeOut s) := by
  unfold uapsdTimeOut
  by_cases hlen : (dropUapsd s).psQueue.length = 0
  · simp only [if_pos hlen]
    exact (dropUapsd_moves s).trans (.of_frames rfl rfl rfl rfl rfl rfl rfl rfl rfl)
  · simp only [if_neg hlen]
    exact dropUapsd_moves s

theorem uapsdQueueMaintenance_moves (s : PsStation) (b : Bool) (n : Nat) :
    UapsdMoves s (uapsdQueueMaintenance s b n) := by
  unfold uapsdQueueMaintenance
  by_cases hb : b = true
  · rw [if_pos hb]
    exact .refl s
  rw [if_neg hb]
  by_cases hmode : s.psMode ≠ .save
  · rw [if_pos hmode]
    exact .refl s
  rw [if_neg hmode]
  by_cases hpending : s.uapsdPending ∨ s.eospFrame ≠ none
  · rw [if_pos hpending]
    have htimeout := uapsdTimeOut_moves { s with uapsdQIdleCount := s.uapsdQIdleCount + 1 }
    dsimp only
    split
    · refine UapsdMoves.trans ?_ htimeout
      exact .of_frames rfl rfl rfl rfl rfl rfl rfl rfl rfl
    · exact .of_frames rfl rfl rfl rfl rfl rfl rfl rfl rfl
  · rw [if_neg hpending]
    exact .of_frames rfl rfl rfl rfl rfl rfl rfl rfl rfl

end Mt7601.Data
