/-
# Every packet goes out once and in order, and when a block has one receiver

The dequeue loop takes at least one packet off the queue in every turn that does not end it, so it
ends. What has left a queue, in the order of the calls it was handed to, followed by what is still in
the queue, is the queue as it was: nothing is lost, doubled or overtaken, and a packet that is put
back is at the head again.

What the loop does not see to is that the packets of an aggregated block have one receiver. In
infrastructure mode `canDoAggregateTransmit` takes every unicast packet to be for the access point,
and in access point mode it compares destination addresses; so a block is mixed exactly when a queue
holds a packet for another station that is let in behind a first packet.
-/
import Mathlib.Data.List.Basic
import Mt7601.Data.DeQueue

namespace Mt7601.Data

variable {ad : DeqAdapter} {blk : DeqBlk} {p f : SwPacket} {ac : Ac} {s t : DeqState}

/-! ## 1. The inner loop -/

/-- The packets are let into the block one after the other. -/
def Admitted (ad : DeqAdapter) : DeqBlk → List SwPacket → Prop
  | _, [] => True
  | blk, p :: ps => canDoAggregateTransmit ad p blk = true ∧ Admitted ad (blk.add p) ps

/-- A block with further packets behind those it has. -/
def DeqBlk.addAll (blk : DeqBlk) (ps : List SwPacket) : DeqBlk := ps.foldl DeqBlk.add blk

@[simp] theorem addAll_txFrameType (blk : DeqBlk) (ps : List SwPacket) :
    (blk.addAll ps).txFrameType = blk.txFrameType := by
  induction ps generalizing blk with
  | nil => rfl
  | cons p ps ih => exact ih (blk.add p)

@[simp] theorem addAll_pPacket (blk : DeqBlk) (ps : List SwPacket) :
    (blk.addAll ps).pPacket = blk.pPacket := by
  induction ps generalizing blk with
  | nil => rfl
  | cons p ps ih => exact ih (blk.add p)

@[simp] theorem addAll_txPacketList (blk : DeqBlk) (ps : List SwPacket) :
    (blk.addAll ps).txPacketList = blk.txPacketList ++ ps := by
  induction ps generalizing blk with
  | nil => exact (List.append_nil _).symm
  | cons p ps ih =>
    refine (ih (blk.add p)).trans ?_
    simp [DeqBlk.add]

/-- What the inner loop takes is the front of the queue, and it was let in. -/
theorem gather_takes (hasMoreDesc : Nat → Bool) (q : List SwPacket) (blk : DeqBlk) :
    ∃ ps rest, q = ps ++ rest ∧ gather ad hasMoreDesc blk q = (blk.addAll ps, rest) ∧
      Admitted ad blk ps := by
  induction q generalizing blk with
  | nil => exact ⟨[], [], rfl, rfl, trivial⟩
  | cons p q ih =>
    rw [gather]
    by_cases hstop : hasMoreDesc blk.txPacketList.length = false ∨
        canDoAggregateTransmit ad p blk = false
    · rw [if_pos hstop]
      exact ⟨[], p :: q, rfl, rfl, trivial⟩
    · rw [if_neg hstop]
      obtain ⟨ps, rest, hq, hgather, hadmitted⟩ := ih (blk.add p)
      rw [not_or] at hstop
      refine ⟨p :: ps, rest, by rw [hq, List.cons_append], hgather, ?_, hadmitted⟩
      simpa using hstop.2

/-- Given room for just these packets, the inner loop takes them. -/
theorem gather_all {ps : List SwPacket} (hadmitted : Admitted ad blk ps) (rest : List SwPacket) :
    gather ad (fun n => decide (n < blk.txPacketList.length + ps.length)) blk (ps ++ rest) =
      (blk.addAll ps, rest) := by
  induction ps generalizing blk with
  | nil =>
    cases rest with
    | nil => rfl
    | cons p rest => simp [gather, DeqBlk.addAll]
  | cons p ps ih =>
    have hlen : (blk.add p).txPacketList.length = blk.txPacketList.length + 1 := by
      simp [DeqBlk.add]
    have hnext := ih hadmitted.2
    rw [hlen, Nat.add_assoc, Nat.add_comm 1] at hnext
    rw [List.cons_append, gather, if_neg]
    · exact hnext
    · rw [hadmitted.1]
      simp

/-- Room for no further packet. -/
theorem gather_none (hasMoreDesc : Nat → Bool) (h : hasMoreDesc blk.txPacketList.length = false)
    (q : List SwPacket) : gather ad hasMoreDesc blk q = (blk, q) := by
  cases q with
  | nil => rfl
  | cons p q => rw [gather, if_pos (.inl h)]

/-! ## 2. What is let into a block -/

/-- The tests of `canDoAggregateTransmit` that do not depend on the mode. -/
theorem canDo_facts (h : canDoAggregateTransmit ad p blk = true) :
    p.wcid ≠ mcastWcid ∧ p.lowRate = false ∧
      (blk.txFrameType = some .amsdu → blk.totalFrameLen + p.len ≤ maxAmsduLen) ∧
      (blk.txFrameType = some .ralink → blk.txPacketList.length ≠ 2) := by
  unfold canDoAggregateTransmit at h
  dsimp only at h
  by_cases hmc : p.wcid = mcastWcid
  · rw [if_pos hmc] at h
    cases h
  rw [if_neg hmc] at h
  by_cases hlow : (p.dhcp || p.eapol || p.wai) = true
  · rw [if_pos hlow] at h
    cases h
  rw [if_neg hlow] at h
  generalize hmin : length8023 + (if p.vlan then 4 else if p.llcSnap then 8 else 0) = n at h
  by_cases hlen : n ≥ p.len
  · rw [if_pos hlen] at h
    cases h
  rw [if_neg hlen] at h
  by_cases hamsdu : blk.txFrameType = some .amsdu ∧ blk.totalFrameLen + p.len > maxAmsduLen
  · rw [if_pos hamsdu] at h
    cases h
  rw [if_neg hamsdu] at h
  by_cases hralink : blk.txFrameType = some .ralink ∧ blk.txPacketList.length = 2
  · rw [if_pos hralink] at h
    cases h
  refine ⟨hmc, ?_, ?_, fun htype hnum => hralink ⟨htype, hnum⟩⟩
  · simp only [Bool.or_eq_true, not_or, Bool.not_eq_true] at hlow
    simp [SwPacket.lowRate, hlow.1.1, hlow.1.2, hlow.2]
  · intro htype
    by_contra hlong
    exact hamsdu ⟨htype, by omega⟩

theorem admitted_mem {ps : List SwPacket} (h : Admitted ad blk ps) :
    ∀ p ∈ ps, p.wcid ≠ mcastWcid ∧ p.lowRate = false := by
  induction ps generalizing blk with
  | nil => exact fun p hp => absurd hp List.not_mem_nil
  | cons x ps ih =>
    intro p hp
    rcases List.mem_cons.mp hp with rfl | hp
    · have hfacts := canDo_facts h.1
      exact ⟨hfacts.1, hfacts.2.1⟩
    · exact ih h.2 p hp

/-- The length of the packets of a list. -/
def lenSum (ps : List SwPacket) : Nat := (ps.map SwPacket.len).sum

@[simp] theorem lenSum_cons (p : SwPacket) (ps : List SwPacket) :
    lenSum (p :: ps) = p.len + lenSum ps := by
  simp [lenSum]

/-- An A-MSDU that takes a packet in stays within the limit. -/
theorem admitted_amsdu {ps : List SwPacket} (h : Admitted ad blk ps) (hne : ps ≠ [])
    (htype : blk.txFrameType = some .amsdu) : blk.totalFrameLen + lenSum ps ≤ maxAmsduLen := by
  induction ps generalizing blk with
  | nil => exact absurd rfl hne
  | cons p ps ih =>
    have hone := (canDo_facts h.1).2.2.1 htype
    rcases ps with _ | ⟨x, ps⟩
    · simpa [lenSum] using hone
    · have hrest := ih h.2 (List.cons_ne_nil x ps) htype
      have hlen : (blk.add p).totalFrameLen = blk.totalFrameLen + p.len := rfl
      rw [lenSum_cons]
      omega

/-- A Ralink block takes no third packet. -/
theorem admitted_ralink {ps : List SwPacket} (h : Admitted ad blk ps)
    (htype : blk.txFrameType = some .ralink) (hlen : blk.txPacketList.length ≤ 2) :
    blk.txPacketList.length + ps.length ≤ 2 := by
  induction ps generalizing blk with
  | nil => exact hlen
  | cons p ps ih =>
    have hnum := (canDo_facts h.1).2.2.2 htype
    have hadd : (blk.add p).txPacketList.length = blk.txPacketList.length + 1 := by
      simp [DeqBlk.add]
    have hrest := ih h.2 htype (by omega)
    rw [List.length_cons]
    omega

/-- A first packet whose block may take others is a unicast packet sent at the full rate. -/
theorem aggregates_facts (h : aggregates ad f = true) :
    f.wcid ≠ mcastWcid ∧ f.lowRate = false := by
  unfold aggregates txPktClassification at h
  dsimp only at h
  by_cases hmc : f.wcid = mcastWcid
  · rw [if_pos hmc] at h
    cases h
  refine ⟨hmc, ?_⟩
  rw [if_neg hmc] at h
  by_contra hlow
  rw [if_pos (by simpa using hlow)] at h
  split at h <;> cases h

/-! ## 3. One turn -/

/-- How the block handed over in a turn came about. -/
def GatheredBlk (ad : DeqAdapter) (queIdx : Ac) (blk : DeqBlk) : Prop :=
  ∃ f ps, f.mgmtPkt = false ∧ blk.pPacket = f ∧ blk.txPacketList = f :: ps ∧
    (ps ≠ [] → aggregates ad f = true ∧ blk.txFrameType = txPktClassification ad f ∧
      Admitted ad (.first ad queIdx f) ps)

def Gathered (ad : DeqAdapter) (queIdx : Ac) : DeqOut → Prop
  | .hard blk => GatheredBlk ad queIdx blk
  | _ => True

theorem gatheredBlk_close {queIdx : Ac} {ps : List SwPacket} (hmgmt : f.mgmtPkt = false)
    (hagg : aggregates ad f = true) (hadmitted : Admitted ad (.first ad queIdx f) ps) :
    GatheredBlk ad queIdx (closeBlk ((DeqBlk.first ad queIdx f).addAll ps)) ∧
      (closeBlk ((DeqBlk.first ad queIdx f).addAll ps)).txPacketList = f :: ps := by
  have hlist : (closeBlk ((DeqBlk.first ad queIdx f).addAll ps)).txPacketList = f :: ps := by
    unfold closeBlk
    split <;> simp [DeqBlk.first]
  refine ⟨⟨f, ps, hmgmt, ?_, hlist, fun hne => ⟨hagg, ?_, hadmitted⟩⟩, hlist⟩
  · unfold closeBlk
    split <;> simp [DeqBlk.first]
  · unfold closeBlk
    rw [if_neg]
    · simp [DeqBlk.first]
    · simpa [DeqBlk.first] using hne

/-- **What a turn does**: it ends the loop with the queue as it was, or hands over some packets from
the front of the queue. -/
theorem deqTurn_cases (ad : DeqAdapter) (queIdx : Ac) (maxTx : Int) (a : DeqAnswer)
    (s : DeqState) :
    (∃ abort, deqTurn ad queIdx maxTx a s = .stop abort s) ∨
      ∃ o n rest, deqTurn ad queIdx maxTx a s = .next (s.leave o n rest) ∧
        s.queue = o.packets ++ rest ∧ o.packets ≠ [] ∧ Gathered ad queIdx o := by
  unfold deqTurn
  by_cases hhalt : a.halted = true
  · rw [if_pos hhalt]
    exact .inl ⟨true, rfl⟩
  rw [if_neg hhalt]
  by_cases hcount : (s.count : Int) ≥ maxTx
  · rw [if_pos hcount]
    exact .inl ⟨false, rfl⟩
  rw [if_neg hcount]
  obtain ⟨queue, count, turn, outs⟩ := s
  rcases queue with _ | ⟨p, rest⟩
  · exact .inl ⟨false, rfl⟩
  dsimp only
  by_cases hmgmt : p.mgmtPkt = true
  · rw [if_pos hmgmt]
    exact .inr ⟨.mgmt p a.mgmtOk, 1, rest, rfl, rfl, List.cons_ne_nil p [], trivial⟩
  rw [if_neg hmgmt]
  have hmgmt : p.mgmtPkt = false := Bool.eq_false_of_not_eq_true hmgmt
  by_cases hjam : jammed ad a.recent p = true
  · rw [if_pos hjam]
    exact .inr ⟨.drop p, 0, rest, rfl, rfl, List.cons_ne_nil p [], trivial⟩
  rw [if_neg hjam]
  by_cases hdesc : a.hasTxDesc = false
  · rw [if_pos hdesc]
    exact .inl ⟨false, rfl⟩
  rw [if_neg hdesc]
  by_cases hback : (needQueueBack ad p a.queueBack₁ || needQueueBack ad p a.queueBack₂) = true
  · rw [if_pos hback]
    exact .inl ⟨false, rfl⟩
  rw [if_neg hback]
  by_cases hagg : aggregates ad p = true
  · rw [if_pos hagg]
    obtain ⟨ps, rest', hq, hgather, hadmitted⟩ :=
      gather_takes a.hasMoreDesc rest (.first ad queIdx p)
    obtain ⟨hblk, hlist⟩ := gatheredBlk_close hmgmt hagg hadmitted
    refine .inr ⟨.hard (closeBlk ((DeqBlk.first ad queIdx p).addAll ps)), _, rest',
      by rw [hgather], ?_, ?_, hblk⟩
    · rw [DeqOut.packets, hlist, hq, List.cons_append]
    · rw [DeqOut.packets, hlist]
      exact List.cons_ne_nil p ps
  · rw [if_neg hagg]
    have hblk : GatheredBlk ad queIdx (.first ad queIdx p) :=
      ⟨p, [], hmgmt, rfl, rfl, fun hne => absurd rfl hne⟩
    exact .inr ⟨.hard (.first ad queIdx p), 1, rest, rfl, rfl, List.cons_ne_nil p [], hblk⟩

/-! ## 4. The loop ends -/

theorem deqLoop_terminates (ad : DeqAdapter) (queIdx : Ac) (maxTx : Int)
    (answers : Nat → DeqAnswer) (n : Nat) :
    ∀ s : DeqState, s.queue.length < n → ∃ r, deqLoop ad queIdx maxTx answers n s = some r := by
  induction n with
  | zero => exact fun s h => absurd h (Nat.not_lt_zero _)
  | succ n ih =>
    intro s hlen
    rw [deqLoop]
    rcases deqTurn_cases ad queIdx maxTx (answers s.turn) s with ⟨abort, hstop⟩ |
      ⟨o, k, rest, hnext, hq, hne, -⟩
    · exact ⟨(abort, s), by rw [hstop]⟩
    · rw [hnext]
      have hpos : 0 < o.packets.length := List.length_pos_of_ne_nil hne
      have hsum : s.queue.length = o.packets.length + rest.length := by
        rw [hq, List.length_append]
      have hshort : (s.leave o k rest).queue.length < n := by
        change rest.length < n
        omega
      exact ih _ hshort

/-- More turns than enough make no difference. -/
theorem deqLoop_mono {queIdx : Ac} {maxTx : Int} {answers : Nat → DeqAnswer} {n : Nat} :
    ∀ {s : DeqState} {r : Bool × DeqState}, deqLoop ad queIdx maxTx answers n s = some r →
      ∀ m, n ≤ m → deqLoop ad queIdx maxTx answers m s = some r := by
  induction n with
  | zero => exact fun h => nomatch h
  | succ n ih =>
    intro s r h m hm
    obtain ⟨m, rfl⟩ : ∃ k, m = k + 1 := ⟨m - 1, by omega⟩
    rw [deqLoop] at h ⊢
    cases hturn : deqTurn ad queIdx maxTx (answers s.turn) s with
    | stop abort t => rwa [hturn] at h
    | next t =>
      rw [hturn] at h
      exact ih h m (by omega)

/-! ## 5. What has left, and what is left -/

/-- What the loop keeps true of the queue it began with. -/
structure DeqInv (ad : DeqAdapter) (queIdx : Ac) (q : List SwPacket) (s : DeqState) : Prop where
  conserved : q = s.outs.flatMap DeqOut.packets ++ s.queue
  gathered : ∀ o ∈ s.outs, Gathered ad queIdx o

theorem deqInv_leave {q rest : List SwPacket} {o : DeqOut} (h : DeqInv ad ac q s)
    (hq : s.queue = o.packets ++ rest) (ho : Gathered ad ac o) (n : Nat) :
    DeqInv ad ac q (s.leave o n rest) where
  conserved := by
    rw [h.conserved, hq]
    simp [DeqState.leave]
  gathered x hx := by
    rcases List.mem_append.mp hx with hx | hx
    · exact h.gathered x hx
    · rw [List.mem_singleton.mp hx]
      exact ho

theorem deqLoop_inv {maxTx : Int} {answers : Nat → DeqAnswer} {q : List SwPacket} {n : Nat} :
    ∀ {s : DeqState} {r : Bool × DeqState}, DeqInv ad ac q s →
      deqLoop ad ac maxTx answers n s = some r → DeqInv ad ac q r.2 := by
  induction n with
  | zero => exact fun _ h => nomatch h
  | succ n ih =>
    intro s r hinv h
    rw [deqLoop] at h
    rcases deqTurn_cases ad ac maxTx (answers s.turn) s with ⟨abort, hstop⟩ |
      ⟨o, k, rest, hnext, hq, -, hgathered⟩
    · rw [hstop] at h
      cases h
      exact hinv
    · rw [hnext] at h
      exact ih (deqInv_leave hinv hq hgathered k) h

/-- What was handed over stays handed over. -/
theorem deqLoop_outs {queIdx : Ac} {maxTx : Int} {answers : Nat → DeqAnswer} {o : DeqOut}
    {n : Nat} :
    ∀ {s : DeqState} {r : Bool × DeqState}, o ∈ s.outs →
      deqLoop ad queIdx maxTx answers n s = some r → o ∈ r.2.outs := by
  induction n with
  | zero => exact fun _ h => nomatch h
  | succ n ih =>
    intro s r ho h
    rw [deqLoop] at h
    rcases deqTurn_cases ad queIdx maxTx (answers s.turn) s with ⟨abort, hstop⟩ |
      ⟨x, k, rest, hnext, -, -, -⟩
    · rw [hstop] at h
      cases h
      exact ho
    · rw [hnext] at h
      exact ih (List.mem_append_left [x] ho) h

/-! ## 6. The law of a block -/

/-- What a block of several packets has to be. -/
structure DeqBlk.Lawful (blk : DeqBlk) : Prop where
  aggregated : blk.txFrameType = some .amsdu ∨ blk.txFrameType = some .ralink
  receiver : ∀ p ∈ blk.txPacketList, p.wcid = blk.pPacket.wcid
  unicast : ∀ p ∈ blk.txPacketList, p.wcid ≠ mcastWcid
  special : ∀ p ∈ blk.txPacketList, p.eapol = false ∧ p.wai = false ∧ p.dhcp = false
  ralink : blk.txFrameType = some .ralink → blk.txPacketList.length ≤ 2
  bounded : lenSum blk.txPacketList ≤ maxAmsduLen

/-- **When blocks cannot be mixed.** Behind a first packet that may be aggregated, the packets that
are let in are for its receiver, and two that make a Ralink block are not longer than an A-MSDU may
be. -/
def OneReceiver (ad : DeqAdapter) (queIdx : Ac) (q : List SwPacket) : Prop :=
  ∀ pre f ps post, q = pre ++ f :: (ps ++ post) → ps ≠ [] → f.mgmtPkt = false →
    aggregates ad f = true → Admitted ad (.first ad queIdx f) ps →
    (∀ p ∈ ps, p.wcid = f.wcid) ∧
      (txPktClassification ad f = some .ralink → lenSum (f :: ps) ≤ maxAmsduLen)

theorem lowRate_false (h : p.lowRate = false) :
    p.eapol = false ∧ p.wai = false ∧ p.dhcp = false := by
  simp only [SwPacket.lowRate, Bool.or_eq_false_iff] at h
  exact ⟨h.1.1, h.2, h.1.2⟩

theorem gatheredBlk_lawful {q pre post : List SwPacket} (hone : OneReceiver ad ac q)
    (hq : q = pre ++ (blk.txPacketList ++ post)) (hblk : GatheredBlk ad ac blk)
    (htwo : 2 ≤ blk.txPacketList.length) : blk.Lawful := by
  obtain ⟨f, ps, hmgmt, hfirst, hlist, hmany⟩ := hblk
  have hne : ps ≠ [] := by
    rintro rfl
    rw [hlist, List.length_singleton] at htwo
    omega
  obtain ⟨hagg, htype, hadmitted⟩ := hmany hne
  have hall : ∀ p ∈ blk.txPacketList, p.wcid ≠ mcastWcid ∧ p.lowRate = false := by
    rw [hlist]
    intro p hp
    rcases List.mem_cons.mp hp with rfl | hp
    · exact aggregates_facts hagg
    · exact admitted_mem hadmitted p hp
  rw [hlist] at hq
  obtain ⟨hreceiver, hlen⟩ := hone pre f ps post hq hne hmgmt hagg hadmitted
  have hclass : txPktClassification ad f = some .ralink ∨
      txPktClassification ad f = some .amsdu := by
    simpa [aggregates] using hagg
  refine ⟨?_, ?_, fun p hp => (hall p hp).1, fun p hp => lowRate_false (hall p hp).2, ?_, ?_⟩
  · rw [htype]
    exact hclass.symm
  · rw [hlist, hfirst]
    intro p hp
    rcases List.mem_cons.mp hp with rfl | hp
    · rfl
    · exact hreceiver p hp
  · intro hralink
    have hcount := admitted_ralink hadmitted (by rw [← hralink, htype]; rfl) (Nat.le_succ 1)
    rw [hlist, List.length_cons, Nat.add_comm]
    exact hcount
  · rw [hlist]
    rcases hclass with hralink | hamsdu
    · exact hlen hralink
    · have hsum := admitted_amsdu hadmitted hne hamsdu
      rw [lenSum_cons]
      exact hsum

/-- A block handed over is a segment of the queue. -/
theorem flatMap_segment {outs : List DeqOut} {o : DeqOut} (h : o ∈ outs) :
    ∃ pre post, outs.flatMap DeqOut.packets = pre ++ (o.packets ++ post) := by
  obtain ⟨before, behind, rfl⟩ := List.append_of_mem h
  exact ⟨before.flatMap DeqOut.packets, behind.flatMap DeqOut.packets, by simp⟩

theorem deqInv_lawful {q : List SwPacket} (hone : OneReceiver ad ac q) (hinv : DeqInv ad ac q s)
    (hblk : DeqOut.hard blk ∈ s.outs) (htwo : 2 ≤ blk.txPacketList.length) : blk.Lawful := by
  obtain ⟨pre, post, hsegment⟩ := flatMap_segment hblk
  have hq : q = pre ++ (blk.txPacketList ++ (post ++ s.queue)) := by
    rw [hinv.conserved, hsegment]
    simp [DeqOut.packets]
  exact gatheredBlk_lawful hone hq (hinv.gathered _ hblk) htwo

/-! ## 7. A queue with a mixed segment -/

/-- The answers of a call that sends the first `k` packets one by one, and then lets `n` packets
follow the first of a block. -/
def lettingIn (k n : Nat) (turn : Nat) : DeqAnswer where
  halted := false
  mgmtOk := true
  recent := false
  hasTxDesc := true
  queueBack₁ := false
  queueBack₂ := false
  hasMoreDesc := fun m => decide (turn = k) && decide (m < 1 + n)

theorem needQueueBack_false (ad : DeqAdapter) (p : SwPacket) : needQueueBack ad p false = false := by
  simp [needQueueBack]

theorem jammed_false (ad : DeqAdapter) (p : SwPacket) : jammed ad false p = false := by
  simp [jammed]

/-- Before its turn, a packet leaves alone. -/
theorem deqTurn_alone (ad : DeqAdapter) (ac : Ac) {k : Nat} (n : Nat) {rest : List SwPacket}
    (hturn : s.turn ≠ k) (hcount : s.count < 256) (hq : s.queue = p :: rest) :
    ∃ o m, deqTurn ad ac 256 (lettingIn k n s.turn) s = .next (s.leave o m rest) := by
  have hmore : (lettingIn k n s.turn).hasMoreDesc (DeqBlk.first ad ac p).txPacketList.length =
      false := by
    simp [lettingIn, hturn]
  unfold deqTurn
  rw [if_neg (by simp [lettingIn]), if_neg (by omega), hq]
  dsimp only
  by_cases hmgmt : p.mgmtPkt = true
  · rw [if_pos hmgmt]
    exact ⟨_, _, rfl⟩
  rw [if_neg hmgmt, if_neg (by simp [lettingIn, jammed_false]), if_neg (by simp [lettingIn]),
    if_neg (by simp [lettingIn, needQueueBack_false])]
  by_cases hagg : aggregates ad p = true
  · rw [if_pos hagg, gather_none _ hmore]
    exact ⟨_, _, rfl⟩
  · rw [if_neg hagg]
    exact ⟨_, _, rfl⟩

/-- At its turn, the segment leaves as one block. -/
theorem deqTurn_block {ps rest : List SwPacket} (hcount : s.count < 256)
    (hq : s.queue = f :: (ps ++ rest)) (hmgmt : f.mgmtPkt = false)
    (hagg : aggregates ad f = true) (hadmitted : Admitted ad (.first ad ac f) ps) :
    deqTurn ad ac 256 (lettingIn s.turn ps.length s.turn) s =
      .next (s.leave (.hard (closeBlk ((DeqBlk.first ad ac f).addAll ps)))
        ((DeqBlk.first ad ac f).addAll ps).txPacketList.length rest) := by
  have hmore : (lettingIn s.turn ps.length s.turn).hasMoreDesc =
      fun m => decide (m < (DeqBlk.first ad ac f).txPacketList.length + ps.length) := by
    funext m
    simp [lettingIn, DeqBlk.first]
  unfold deqTurn
  rw [if_neg (by simp [lettingIn]), if_neg (by omega), hq]
  dsimp only
  rw [if_neg (by simp [hmgmt]), if_neg (by simp [lettingIn, jammed_false]),
    if_neg (by simp [lettingIn]), if_neg (by simp [lettingIn, needQueueBack_false]), if_pos hagg,
    hmore, gather_all hadmitted rest]

/-- The packets in front of a segment leave one by one; then comes the segment. -/
theorem deqLoop_segment {ps post : List SwPacket} (hmgmt : f.mgmtPkt = false)
    (hagg : aggregates ad f = true) (hadmitted : Admitted ad (.first ad ac f) ps) {k : Nat}
    (pre : List SwPacket) :
    ∀ {s : DeqState} {n : Nat} {r : Bool × DeqState}, s.turn + pre.length = k → s.count < 256 →
      s.queue = pre ++ f :: (ps ++ post) →
      deqLoop ad ac 256 (lettingIn k ps.length) n s = some r →
      DeqOut.hard (closeBlk ((DeqBlk.first ad ac f).addAll ps)) ∈ r.2.outs := by
  induction pre with
  | nil =>
    intro s n r hturn hcount hq h
    have hk : k = s.turn := hturn.symm
    subst hk
    cases n with
    | zero => exact nomatch h
    | succ n =>
      rw [deqLoop, deqTurn_block hcount hq hmgmt hagg hadmitted] at h
      exact deqLoop_outs (List.mem_append_right s.outs (List.mem_singleton_self _)) h
  | cons p pre ih =>
    intro s n r hturn hcount hq h
    rw [List.length_cons] at hturn
    cases n with
    | zero => exact nomatch h
    | succ n =>
      have hne : s.turn ≠ k := by omega
      obtain ⟨o, m, halone⟩ := deqTurn_alone ad ac ps.length hne hcount hq
      rw [deqLoop, halone] at h
      refine ih ?_ (Nat.mod_lt _ (by decide)) rfl h
      change s.turn + 1 + pre.length = k
      omega

/-! ## 8. All queues -/

/-- **The law of a call**: what has left a queue, in the order of the calls it went to, and what is
left are the queue as it was, and every block of several packets is as it has to be. -/
structure DeqOutcome.Lawful (queues : Ac → List SwPacket) (r : DeqOutcome) : Prop where
  conserved : ∀ ac, queues ac = (r.outs ac).flatMap DeqOut.packets ++ r.queues ac
  blocks : ∀ ac blk, DeqOut.hard blk ∈ r.outs ac → 2 ≤ blk.txPacketList.length → blk.Lawful

/-- What the loop over the queues keeps true, with the queues still to come. -/
structure QueuesInv (ad : DeqAdapter) (queues : Ac → List SwPacket) (acs : List Ac)
    (r : DeqOutcome) : Prop where
  taken : ∀ ac, DeqInv ad ac (queues ac) ⟨r.queues ac, 0, 0, r.outs ac⟩
  untouched : ∀ ac ∈ acs, r.queues ac = queues ac ∧ r.outs ac = []

theorem deqInv_congr {q : List SwPacket} (h : DeqInv ad ac q s) (hq : t.queue = s.queue)
    (ho : t.outs = s.outs) : DeqInv ad ac q t where
  conserved := by
    rw [hq, ho]
    exact h.conserved
  gathered := by
    rw [ho]
    exact h.gathered

/-- A queue that has not been touched is emptied by its own loop. -/
theorem queuesInv_update {queues : Ac → List SwPacket} {acs : List Ac} {r : DeqOutcome}
    (h : QueuesInv ad queues (ac :: acs) r) (hnodup : ac ∉ acs)
    (ht : DeqInv ad ac (queues ac) t) :
    QueuesInv ad queues acs
      ⟨Function.update r.queues ac t.queue, Function.update r.outs ac t.outs⟩ where
  taken a := by
    by_cases ha : a = ac
    · subst ha
      exact deqInv_congr ht (Function.update_self ..) (Function.update_self ..)
    · exact deqInv_congr (h.taken a) (Function.update_of_ne ha ..) (Function.update_of_ne ha ..)
  untouched a ha := by
    have hne : a ≠ ac := fun heq => hnodup (heq ▸ ha)
    obtain ⟨hq, ho⟩ := h.untouched a (List.mem_cons_of_mem ac ha)
    exact ⟨(Function.update_of_ne hne ..).trans hq, (Function.update_of_ne hne ..).trans ho⟩

theorem deqQueues_inv (env : DeqEnv) {queues : Ac → List SwPacket} {n : Nat}
    (hn : ∀ a, (queues a).length < n) :
    ∀ {acs : List Ac} {r : DeqOutcome}, acs.Nodup → QueuesInv ad queues acs r →
      ∃ r', (∀ m, n ≤ m → deqQueues ad env m r acs = some r') ∧ QueuesInv ad queues [] r' := by
  intro acs
  induction acs with
  | nil => exact fun _ h => ⟨_, fun _ _ => rfl, h⟩
  | cons ac acs ih =>
    intro r hnodup h
    rw [List.nodup_cons] at hnodup
    have hskip : QueuesInv ad queues acs r :=
      ⟨h.taken, fun a ha => h.untouched a (List.mem_cons_of_mem ac ha)⟩
    by_cases hrun : env.running ac = true
    · obtain ⟨r', hr', hinv⟩ := ih hnodup.2 hskip
      exact ⟨r', fun m hm => by rw [deqQueues, if_pos hrun]; exact hr' m hm, hinv⟩
    · obtain ⟨hq, ho⟩ := h.untouched ac List.mem_cons_self
      have hstart : DeqInv ad ac (queues ac) ⟨r.queues ac, 0, 0, []⟩ :=
        deqInv_congr (h.taken ac) rfl ho.symm
      obtain ⟨⟨abort, t⟩, hloop⟩ := deqLoop_terminates ad ac env.maxTxPackets (env.answers ac) n
        ⟨r.queues ac, 0, 0, []⟩ (hq.symm ▸ hn ac)
      have hnext := queuesInv_update h hnodup.1 (deqLoop_inv hstart hloop)
      cases abort with
      | true =>
        refine ⟨_, fun m hm => ?_, hnext.taken, fun a ha => absurd ha List.not_mem_nil⟩
        rw [deqQueues, if_neg hrun, deqLoop_mono hloop m hm]
        rfl
      | false =>
        obtain ⟨r', hr', hinv⟩ := ih hnodup.2 hnext
        refine ⟨r', fun m hm => ?_, hinv⟩
        rw [deqQueues, if_neg hrun, deqLoop_mono hloop m hm]
        exact hr' m hm

/-- **The call returns**, and nothing is lost, doubled or overtaken. -/
theorem rtmpDeQueuePacket_conserves (ad : DeqAdapter) (env : DeqEnv)
    (queues : Ac → List SwPacket) {n : Nat} (hn : ∀ a, (queues a).length < n) :
    ∃ r, (∀ m, n ≤ m → rtmpDeQueuePacket ad env queues m = some r) ∧
      ∀ ac, DeqInv ad ac (queues ac) ⟨r.queues ac, 0, 0, r.outs ac⟩ := by
  have hstart : ∀ acs, QueuesInv ad queues acs ⟨queues, fun _ => []⟩ := fun acs =>
    ⟨fun ac => ⟨rfl, fun o ho => absurd ho List.not_mem_nil⟩, fun _ _ => ⟨rfl, rfl⟩⟩
  unfold rtmpDeQueuePacket
  cases env.qIdx with
  | none =>
    obtain ⟨r, hr, hinv⟩ := deqQueues_inv env hn (by decide) (hstart [.be, .bk, .vi, .vo])
    exact ⟨r, hr, hinv.taken⟩
  | some ac =>
    obtain ⟨r, hr, hinv⟩ := deqQueues_inv env hn (List.nodup_singleton ac) (hstart [ac])
    exact ⟨r, hr, hinv.taken⟩

/-- The call that sends a mixed segment as one block. -/
def segmentEnv (ac : Ac) (k n : Nat) : DeqEnv where
  answers := fun _ => lettingIn k n
  running := fun _ => false
  qIdx := some ac
  maxTxPackets := 256

theorem segmentEnv_sends {queues : Ac → List SwPacket} {pre ps post : List SwPacket}
    (hq : queues ac = pre ++ f :: (ps ++ post)) (hmgmt : f.mgmtPkt = false)
    (hagg : aggregates ad f = true) (hadmitted : Admitted ad (.first ad ac f) ps) {n : Nat}
    {r : DeqOutcome}
    (hr : rtmpDeQueuePacket ad (segmentEnv ac pre.length ps.length) queues n = some r) :
    DeqOut.hard (closeBlk ((DeqBlk.first ad ac f).addAll ps)) ∈ r.outs ac := by
  change deqQueues ad (segmentEnv ac pre.length ps.length) n ⟨queues, fun _ => []⟩ [ac] = some r at hr
  rw [deqQueues, if_neg (by simp [segmentEnv])] at hr
  cases hloop : deqLoop ad ac (segmentEnv ac pre.length ps.length).maxTxPackets
      ((segmentEnv ac pre.length ps.length).answers ac) n ⟨queues ac, 0, 0, []⟩ with
  | none =>
    rw [hloop] at hr
    cases hr
  | some t =>
    have hmem := deqLoop_segment hmgmt hagg hadmitted pre (Nat.zero_add _) (Nat.succ_pos 255) hq
      hloop
    rw [hloop] at hr
    have hout : r.outs ac = t.2.outs := by
      obtain ⟨abort, t⟩ := t
      cases abort <;> cases hr <;> exact Function.update_self ..
    rw [hout]
    exact hmem

/-- **When every call keeps the law**: every call returns with each packet handed over once and in
order, and the blocks are for one receiver, exactly when no queue holds a packet for another receiver
that is let in behind a first packet (nor a Ralink pair longer than an A-MSDU may be). -/
theorem rtmpDeQueuePacket_lawful_iff (ad : DeqAdapter) (queues : Ac → List SwPacket) :
    (∀ env, ∃ r, (∃ n, ∀ m, n ≤ m → rtmpDeQueuePacket ad env queues m = some r) ∧
      r.Lawful queues) ↔ ∀ ac, OneReceiver ad ac (queues ac) := by
  have hn : ∃ n, ∀ a, (queues a).length < n :=
    ⟨(queues .be).length + (queues .bk).length + (queues .vi).length + (queues .vo).length + 1,
      fun a => by cases a <;> omega⟩
  obtain ⟨n, hn⟩ := hn
  constructor
  · intro hall ac pre f ps post hq hne hmgmt hagg hadmitted
    obtain ⟨r, ⟨m, hr⟩, hlaw⟩ := hall (segmentEnv ac pre.length ps.length)
    have hsent := segmentEnv_sends hq hmgmt hagg hadmitted (hr m (Nat.le_refl m))
    obtain ⟨-, hlist⟩ := gatheredBlk_close hmgmt hagg hadmitted
    have htwo : 2 ≤ (closeBlk ((DeqBlk.first ad ac f).addAll ps)).txPacketList.length := by
      have hpos := List.length_pos_of_ne_nil hne
      rw [hlist, List.length_cons]
      omega
    have hblk := hlaw.blocks ac _ hsent htwo
    have hfirst : (closeBlk ((DeqBlk.first ad ac f).addAll ps)).pPacket = f := by
      unfold closeBlk
      split <;> simp [DeqBlk.first]
    refine ⟨fun p hp => ?_, fun _ => ?_⟩
    · have hreceiver := hblk.receiver p (by rw [hlist]; exact List.mem_cons_of_mem f hp)
      rwa [hfirst] at hreceiver
    · rw [← hlist]
      exact hblk.bounded
  · intro hone env
    obtain ⟨r, hr, hinv⟩ := rtmpDeQueuePacket_conserves ad env queues hn
    refine ⟨r, ⟨n, hr⟩, fun ac => (hinv ac).conserved, fun ac blk hblk htwo => ?_⟩
    exact deqInv_lawful (hone ac) (hinv ac) hblk htwo

/-! ## 9. A station with a TDLS peer -/

namespace Example

/-- A station associated with an access point, its entry 1, and with a TDLS peer, its entry 5; both
links carry A-MSDUs. -/
def tdlsStation : DeqAdapter where
  opModeAp := false
  infraOn := true
  bAggregationCapable := false
  wmmInUsed := true
  entryLifeCheck := 20
  entry := fun _ => ⟨false, 0, true, false, fun _ => false, true, false, true⟩

/-- An IP packet of a hundred octets. -/
def packetTo (i wcid : Nat) (da : List UInt8) : SwPacket :=
  ⟨i, wcid, da, 100, false, false, false, false, false, false, false, false, false, 0, 11, 1⟩

def toAp : SwPacket := packetTo 1 1 [0, 1, 2, 3, 4, 5]
def toPeer : SwPacket := packetTo 2 5 [6, 7, 8, 9, 10, 11]

def twoLinks : Ac → List SwPacket
  | .be => [toAp, toPeer]
  | _ => []

theorem toPeer_admitted : Admitted tdlsStation (.first tdlsStation .be toAp) [toPeer] :=
  ⟨by decide, trivial⟩

end Example

open Example in
/-- The packet for the peer goes to the access point, in one A-MSDU with the packet in front of it. -/
theorem rtmpDeQueuePacket_mixes :
    ¬ ∀ ad queues env, ∃ r, (∃ n, ∀ m, n ≤ m → rtmpDeQueuePacket ad env queues m = some r) ∧
      r.Lawful queues := by
  intro hall
  obtain ⟨r, ⟨n, hr⟩, hlaw⟩ := hall tdlsStation twoLinks (segmentEnv .be 0 1)
  have hq : twoLinks .be = [] ++ toAp :: ([toPeer] ++ []) := rfl
  have hsent := segmentEnv_sends hq rfl (by decide) toPeer_admitted (hr n (Nat.le_refl n))
  have hreceiver := (hlaw.blocks .be _ hsent (by decide)).receiver toPeer
    (List.mem_cons_of_mem toAp (List.mem_singleton_self toPeer))
  exact absurd hreceiver (by decide)

end Mt7601.Data
