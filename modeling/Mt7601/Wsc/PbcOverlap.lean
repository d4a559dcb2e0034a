/-
# PBC session overlap

`WscPBC_DPID_FromSTA` and `WscPBCSessionOverlapCheck` of `common/wsc.c`: the table of the stations whose
probe requests ask for a push-button session. One function fills and refreshes the slots, the other
ages them and reports an overlap.

The table is held against the probes themselves: which stations have probed within a time
(`stationsWithin`). It agrees with them in every run of stations with an address of their own
(`pbc_meets`): the address of all zeros is also that of an empty slot, and the station that has it is
not counted, or gives its slot away (`not_pbcMeets_zeroAddress`).
-/
import Mt7601.Ba.Defs
import Mt7601.Lib.Run
import Mt7601.Wpa.Defs
import Mathlib.Data.Fintype.Card
import Mathlib.Data.Finset.Card

namespace Mt7601.Wsc

open Ba (Ulong OsHz rtmpTimeAfter)
open Wpa (MacAddr)

/-! ## 1. The code -/

/-- `MAX_PBC_STA_TABLE_SIZE` -/
abbrev maxPbcStaTableSize : Nat := 4

/-- A slot of the table. -/
abbrev PbcSlot : Type := Fin maxPbcStaTableSize

/-- `ZERO_MAC_ADDR` -/
abbrev zeroMacAddr : MacAddr := .zero 6

/-- `WSC_STA_PBC_PROBE_INFO`, and `WscPBCOverlap`. -/
structure PbcProbeInfo where
  receiveTime : PbcSlot → Ulong := fun _ => 0
  staMacAddr : PbcSlot → MacAddr := fun _ => zeroMacAddr
  valid : PbcSlot → Bool := fun _ => false
  count : UInt8 := 0
  overlap : Bool := false

/-- `120 * OS_HZ`, in ticks. -/
def pbcWalkTime (hz : OsHz) : Nat := 120 * hz.val

/-- A slot that was last written more than `120` seconds ago. -/
def PbcProbeInfo.expired (s : PbcProbeInfo) (hz : OsHz) (now : Ulong) (i : PbcSlot) : Bool :=
  rtmpTimeAfter now (s.receiveTime i + BitVec.ofNat 64 (pbcWalkTime hz))

/-- `bAddEntry` -/
def PbcProbeInfo.addEntry (s : PbcProbeInfo) (i : PbcSlot) (mac : MacAddr) (now : Ulong) :
    PbcProbeInfo :=
  { s with
    count := s.count + 1
    receiveTime := Function.update s.receiveTime i now
    valid := Function.update s.valid i true
    staMacAddr := Function.update s.staMacAddr i mac }

/-- `WscPBC_DPID_FromSTA` -/
def wscPbcDpidFromSta (hz : OsHz) (s : PbcProbeInfo) (mac : MacAddr) (now : Ulong) : PbcProbeInfo :=
  if s.count = 0 then s.addEntry 0 mac now
  else
    match (List.finRange maxPbcStaTableSize).find? fun i => s.staMacAddr i = mac with
    | some i => { s with receiveTime := Function.update s.receiveTime i now }
    | none =>
      match (List.finRange maxPbcStaTableSize).find? fun i =>
        s.expired hz now i || s.staMacAddr i = zeroMacAddr with
      | none => s
      | some i =>
        if s.valid i = false then s.addEntry i mac now
        else
          { s with
            receiveTime := Function.update s.receiveTime i now
            staMacAddr := Function.update s.staMacAddr i mac }

/-- The ageing of a slot. -/
def ageSlot (hz : OsHz) (now : PbcSlot → Ulong) (s : PbcProbeInfo) (i : PbcSlot) : PbcProbeInfo :=
  if s.valid i && s.expired hz (now i) i then
    { s with
      staMacAddr := Function.update s.staMacAddr i zeroMacAddr
      receiveTime := Function.update s.receiveTime i 0
      valid := Function.update s.valid i false
      count := s.count - 1 }
  else s

/-- `WscPBCSessionOverlapCheck`; it reads the clock anew for each slot. -/
def wscPbcSessionOverlapCheck (hz : OsHz) (s : PbcProbeInfo) (now : PbcSlot → Ulong) :
    PbcProbeInfo :=
  let s := { s with overlap := false }
  if 1 < s.count then
    let s := (List.finRange maxPbcStaTableSize).foldl (ageSlot hz now) s
    if 1 < s.count then { s with overlap := true } else s
  else s

/-! ## 2. Runs, and what they are held against -/

/-- A probe request of a station in PBC mode, or a check; the times are ticks. -/
inductive PbcInput
  | probe (mac : MacAddr) (now : Nat)
  | check (now : PbcSlot → Nat)

/-- The readings of the clock, in their order. -/
def PbcInput.times : PbcInput → List Nat
  | .probe _ now => [now]
  | .check now => (List.finRange maxPbcStaTableSize).map now

def pbcStep (hz : OsHz) (s : PbcProbeInfo) : PbcInput → PbcProbeInfo
  | .probe mac now => wscPbcDpidFromSta hz s mac (BitVec.ofNat 64 now)
  | .check now => wscPbcSessionOverlapCheck hz s fun i => BitVec.ofNat 64 (now i)

/-- The stations that probed from one time to another. -/
def stationsWithin (ops : List PbcInput) (first last : Nat) : Finset MacAddr :=
  (ops.filterMap fun
    | .probe mac now => if first ≤ now ∧ now ≤ last then some mac else none
    | .check _ => none).toFinset

/-- Time goes on. -/
def InTime (ops : List PbcInput) : Prop := (ops.flatMap PbcInput.times).Pairwise (· ≤ ·)

/-- No more stations than the table has slots probe within any `120` seconds. -/
def FewStations (hz : OsHz) (ops : List PbcInput) : Prop :=
  ∀ first, (stationsWithin ops first (first + pbcWalkTime hz)).card ≤ maxPbcStaTableSize

/-- The slots in use. -/
def PbcProbeInfo.slots (s : PbcProbeInfo) : Finset PbcSlot :=
  Finset.univ.filter fun i => s.valid i = true

/-- **The table agrees with the probes**: the count is that of the slots in use, these hold different
addresses, and after a check an overlap has been reported when two stations probed within the `120`
seconds before its last reading of the clock, and only when two did within those before its first. -/
structure PbcProbeInfo.Agrees (s : PbcProbeInfo) (hz : OsHz) (done : List PbcInput) : Prop where
  count : s.count.toNat = s.slots.card
  distinct : ∀ i ∈ s.slots, ∀ j ∈ s.slots, s.staMacAddr i = s.staMacAddr j → i = j
  reported : ∀ before now, done = before ++ [.check now] →
    1 < (stationsWithin done (now 3 - pbcWalkTime hz) (now 3)).card → s.overlap = true
  overlap : ∀ before now, done = before ++ [.check now] → s.overlap = true →
    1 < (stationsWithin done (now 0 - pbcWalkTime hz) (now 0)).card

/-- **What the table is for.** -/
def PbcMeets (hz : OsHz) (ops : List PbcInput) : Prop :=
  InTime ops → FewStations hz ops → ∀ done rest, ops = done ++ rest →
    (Run.final (pbcStep hz) {} done).Agrees hz done

/-- No station has the address of an empty slot. -/
def NonzeroAddresses (ops : List PbcInput) : Prop :=
  ∀ mac now, .probe mac now ∈ ops → mac ≠ zeroMacAddr

/-- The clock keeps within half its range. -/
def ShortRun (ops : List PbcInput) : Prop := ∀ t ∈ ops.flatMap PbcInput.times, t < 2 ^ 63

theorem mem_stationsWithin {ops : List PbcInput} {first last : Nat} {mac : MacAddr} :
    mac ∈ stationsWithin ops first last ↔ ∃ t, .probe mac t ∈ ops ∧ first ≤ t ∧ t ≤ last := by
  rw [stationsWithin, List.mem_toFinset, List.mem_filterMap]
  constructor
  · rintro ⟨op, hop, hsome⟩
    cases op with
    | check now => exact nomatch hsome
    | probe mac' t =>
      dsimp only at hsome
      by_cases hwithin : first ≤ t ∧ t ≤ last
      · rw [if_pos hwithin, Option.some.injEq] at hsome
        exact ⟨t, hsome ▸ hop, hwithin⟩
      · rw [if_neg hwithin] at hsome
        exact nomatch hsome
  · rintro ⟨t, hop, hwithin⟩
    exact ⟨_, hop, if_pos hwithin⟩

/-! ## 3. The table and the probes -/

@[simp] theorem PbcProbeInfo.mem_slots {s : PbcProbeInfo} {i : PbcSlot} :
    i ∈ s.slots ↔ s.valid i = true := by
  rw [PbcProbeInfo.slots, Finset.mem_filter]
  exact and_iff_right (Finset.mem_univ i)

section

variable {s s' : PbcProbeInfo} {hz : OsHz} {done : List PbcInput} {mac : MacAddr} {i : PbcSlot}
variable {now t last : Nat}

/-- The macro on a clock that has not come round. -/
theorem expired_iff (htime : s.receiveTime i = BitVec.ofNat 64 t) (hle : t ≤ now)
    (hnow : now < 2 ^ 63) :
    s.expired hz (BitVec.ofNat 64 now) i = true ↔ t + pbcWalkTime hz < now := by
  have hhz := hz.le
  rw [PbcProbeInfo.expired, rtmpTimeAfter, htime, show (0 : BitVec 64) = 0#64 from rfl,
    BitVec.slt_zero_eq_msb, BitVec.msb_eq_decide, decide_eq_true_iff, BitVec.toNat_sub,
    BitVec.toNat_add, BitVec.toNat_ofNat, BitVec.toNat_ofNat, BitVec.toNat_ofNat, pbcWalkTime]
  omega

/-- **The table at a time**: a slot in use holds a station and the time of its last probe, no two the
same station; an empty one holds no address; and every station that has probed within the last `120`
seconds has a slot. -/
structure PbcProbeInfo.Tracks (s : PbcProbeInfo) (hz : OsHz) (done : List PbcInput) (last : Nat) :
    Prop where
  count : s.count.toNat = s.slots.card
  distinct : ∀ i ∈ s.slots, ∀ j ∈ s.slots, s.staMacAddr i = s.staMacAddr j → i = j
  used : ∀ i ∈ s.slots, s.staMacAddr i ≠ zeroMacAddr ∧ ∃ t ≤ last,
    s.receiveTime i = BitVec.ofNat 64 t ∧ .probe (s.staMacAddr i) t ∈ done ∧
      ∀ t', .probe (s.staMacAddr i) t' ∈ done → t' ≤ t
  empty : ∀ i ∉ s.slots, s.staMacAddr i = zeroMacAddr
  covered : ∀ mac t, .probe mac t ∈ done → last ≤ t + pbcWalkTime hz →
    ∃ i ∈ s.slots, s.staMacAddr i = mac

theorem tracks_init : PbcProbeInfo.Tracks {} hz [] 0 := by
  have hslots : PbcProbeInfo.slots {} = ∅ := Finset.filter_false_of_mem fun _ _ => Bool.false_ne_true
  refine ⟨?_, ?_, ?_, fun _ _ => rfl, fun _ _ hp => nomatch hp⟩
  · rw [hslots]
    rfl
  · rw [hslots]
    exact fun i hi => absurd hi (Finset.notMem_empty i)
  · rw [hslots]
    exact fun i hi => absurd hi (Finset.notMem_empty i)

/-- Time goes on. -/
theorem PbcProbeInfo.Tracks.later (h : s.Tracks hz done last) (hle : last ≤ now) :
    s.Tracks hz done now := by
  refine ⟨h.count, h.distinct, fun i hi => ?_, h.empty, fun mac t hp ht =>
    h.covered mac t hp (Nat.le_trans hle ht)⟩
  obtain ⟨hne, t, ht, hrest⟩ := h.used i hi
  exact ⟨hne, t, Nat.le_trans ht hle, hrest⟩

/-- **A probe is written to a slot**: to that of the station, to an empty one, or to that of a station
that has not probed for `120` seconds. -/
theorem PbcProbeInfo.Tracks.write (h : s.Tracks hz done last) (hlast : last ≤ now)
    (htimes : ∀ m t, .probe m t ∈ done → t ≤ now) (hmac : mac ≠ zeroMacAddr)
    (hother : ∀ j ∈ s.slots, j ≠ i → s.staMacAddr j ≠ mac)
    (hgone : i ∈ s.slots → s.staMacAddr i ≠ mac →
      ∀ t, .probe (s.staMacAddr i) t ∈ done → t + pbcWalkTime hz < now)
    (hcount : s'.count.toNat = (insert i s.slots).card)
    (htime : s'.receiveTime = Function.update s.receiveTime i (BitVec.ofNat 64 now))
    (hvalid : s'.valid = Function.update s.valid i true)
    (haddr : s'.staMacAddr = Function.update s.staMacAddr i mac) :
    s'.Tracks hz (done ++ [.probe mac now]) now := by
  have hslots : s'.slots = insert i s.slots := by
    ext j
    rw [mem_slots, hvalid, Finset.mem_insert, mem_slots]
    by_cases hj : j = i
    · rw [hj, Function.update_self]
      simp
    · rw [Function.update_of_ne hj]
      simp [hj]
  have hself : s'.staMacAddr i = mac := by rw [haddr, Function.update_self]
  have hrest : ∀ j, j ≠ i → s'.staMacAddr j = s.staMacAddr j := fun j hj => by
    rw [haddr, Function.update_of_ne hj]
  have hmem : ∀ {m t'}, PbcInput.probe m t' ∈ done ++ [.probe mac now] →
      .probe m t' ∈ done ∨ m = mac ∧ t' = now := by
    intro m t' hp
    rcases List.mem_append.mp hp with hp | hp
    · exact .inl hp
    · cases List.mem_singleton.mp hp
      exact .inr ⟨rfl, rfl⟩
  refine ⟨by rw [hslots, hcount], ?_, ?_, ?_, ?_⟩
  · intro j hj k hk hjk
    rw [hslots, Finset.mem_insert] at hj hk
    by_cases hji : j = i
    · by_cases hki : k = i
      · rw [hji, hki]
      · rw [hji, hself, hrest k hki] at hjk
        exact absurd hjk.symm (hother k (hk.resolve_left hki) hki)
    · by_cases hki : k = i
      · rw [hki, hself, hrest j hji] at hjk
        exact absurd hjk (hother j (hj.resolve_left hji) hji)
      · rw [hrest j hji, hrest k hki] at hjk
        exact h.distinct j (hj.resolve_left hji) k (hk.resolve_left hki) hjk
  · intro j hj
    rw [hslots, Finset.mem_insert] at hj
    by_cases hji : j = i
    · rw [hji, hself, htime, Function.update_self]
      refine ⟨hmac, now, Nat.le_refl _, rfl, by simp, fun t' hp => ?_⟩
      rcases hmem hp with hp | ⟨-, rfl⟩
      · exact htimes _ _ hp
      · exact Nat.le_refl _
    · have hjs := hj.resolve_left hji
      obtain ⟨hne, t, ht, hreceive, hprobe, hlatest⟩ := h.used j hjs
      rw [hrest j hji, htime, Function.update_of_ne hji]
      refine ⟨hne, t, Nat.le_trans ht hlast, hreceive, List.mem_append_left _ hprobe, fun t' hp => ?_⟩
      rcases hmem hp with hp | ⟨heq, -⟩
      · exact hlatest t' hp
      · exact absurd heq (hother j hjs hji)
  · intro j hj
    rw [hslots, Finset.mem_insert, not_or] at hj
    rw [hrest j hj.1]
    exact h.empty j hj.2
  · intro m t hp ht
    rw [hslots]
    by_cases hm : m = mac
    · exact ⟨i, Finset.mem_insert_self .., hself.trans hm.symm⟩
    · rcases hmem hp with hp | ⟨heq, -⟩
      · obtain ⟨j, hj, hjm⟩ := h.covered m t hp (Nat.le_trans hlast ht)
        have hji : j ≠ i := by
          rintro rfl
          have hlt := hgone hj (fun heq => hm (hjm ▸ heq)) t (hjm ▸ hp)
          omega
        exact ⟨j, Finset.mem_insert_of_mem hj, (hrest j hji).trans hjm⟩
      · exact absurd heq hm

/-- A slot that was empty is one more. -/
theorem PbcProbeInfo.Tracks.count_addEntry (h : s.Tracks hz done last) (hi : i ∉ s.slots)
    (clock : Ulong) : (s.addEntry i mac clock).count.toNat = (insert i s.slots).card := by
  have hle : s.slots.card ≤ 4 := by
    have hcard := Finset.card_le_univ s.slots
    rwa [Fintype.card_fin] at hcard
  have hcount := h.count
  rw [PbcProbeInfo.addEntry, UInt8.toNat_add, UInt8.toNat_one, Finset.card_insert_of_notMem hi]
  omega

/-- A slot that is in use stays so. -/
theorem valid_update_true (hi : i ∈ s.slots) : s.valid = Function.update s.valid i true := by
  rw [← PbcProbeInfo.mem_slots.mp hi, Function.update_eq_self]

/-- **`WscPBC_DPID_FromSTA`** keeps track of the stations, if there are no more of them than slots. -/
theorem PbcProbeInfo.Tracks.probe (h : s.Tracks hz done last) (hlast : last ≤ now)
    (hnow : now < 2 ^ 63) (htimes : ∀ m t, .probe m t ∈ done → t ≤ now) (hmac : mac ≠ zeroMacAddr)
    (hfew : (stationsWithin (done ++ [.probe mac now]) (now - pbcWalkTime hz)
      (now - pbcWalkTime hz + pbcWalkTime hz)).card ≤ maxPbcStaTableSize) :
    (wscPbcDpidFromSta hz s mac (BitVec.ofNat 64 now)).Tracks hz (done ++ [.probe mac now]) now := by
  have hinvalid : ∀ j, s.staMacAddr j ≠ zeroMacAddr → j ∈ s.slots := fun j hj => by
    by_contra hn
    exact hj (h.empty j hn)
  rw [wscPbcDpidFromSta]
  by_cases hzero : s.count = 0
  · -- an empty table
    have hnobody : s.slots = ∅ := by
      rw [← Finset.card_eq_zero, ← h.count, hzero]
      rfl
    have hout : ∀ j, j ∉ s.slots := fun j => by
      rw [hnobody]
      exact Finset.notMem_empty j
    rw [if_pos hzero]
    exact h.write hlast htimes hmac (fun j hj => absurd hj (hout j)) (fun hj => absurd hj (hout 0))
      (h.count_addEntry (hout 0) _) rfl rfl rfl
  · rw [if_neg hzero]
    cases hknown : (List.finRange maxPbcStaTableSize).find? fun i => s.staMacAddr i = mac with
    | some i =>
      have hfound := List.find?_some hknown
      have hi : s.staMacAddr i = mac := of_decide_eq_true hfound
      have hslot : i ∈ s.slots := hinvalid i (hi ▸ hmac)
      refine h.write hlast htimes hmac (fun j hj hji heq => hji ?_) (fun _ hne => absurd hi hne) ?_ rfl
        (valid_update_true hslot) ?_
      · exact h.distinct j hj i hslot (heq.trans hi.symm)
      · rw [Finset.insert_eq_of_mem hslot]
        exact h.count
      · rw [← hi, Function.update_eq_self]
    | none =>
      have hnew : ∀ j, s.staMacAddr j ≠ mac := by
        intro j hj
        exact List.find?_eq_none.mp hknown j (List.mem_finRange j) (decide_eq_true hj)
      cases hslot : (List.finRange maxPbcStaTableSize).find? fun i =>
          s.expired hz (BitVec.ofNat 64 now) i || s.staMacAddr i = zeroMacAddr with
      | some i =>
        dsimp only
        have hi := List.find?_some hslot
        by_cases hvalid : s.valid i = false
        · have hout : i ∉ s.slots := by
            rw [PbcProbeInfo.mem_slots, hvalid]
            exact Bool.false_ne_true
          rw [if_pos hvalid]
          exact h.write hlast htimes hmac (fun j _ _ => hnew j) (fun hj => absurd hj hout)
            (h.count_addEntry hout _) rfl rfl rfl
        · have hin : i ∈ s.slots := PbcProbeInfo.mem_slots.mpr (Bool.eq_true_of_not_eq_false hvalid)
          obtain ⟨hne, t, ht, hreceive, -, hlatest⟩ := h.used i hin
          have hexpired : t + pbcWalkTime hz < now := by
            rw [Bool.or_eq_true] at hi
            exact (expired_iff hreceive (Nat.le_trans ht hlast) hnow).mp
              (hi.resolve_right fun hz' => hne (of_decide_eq_true hz'))
          rw [if_neg hvalid]
          refine h.write hlast htimes hmac (fun j _ _ => hnew j) (fun _ _ t' hp => ?_) ?_ rfl
            (valid_update_true hin) rfl
          · have hle := hlatest t' hp
            omega
          · rw [Finset.insert_eq_of_mem hin]
            exact h.count
      | none =>
        -- four stations have probed within the time, and this one is a fifth
        exfalso
        have hslots : ∀ j, j ∈ s.slots ∧ ¬ s.expired hz (BitVec.ofNat 64 now) j = true := by
          intro j
          have hj := List.find?_eq_none.mp hslot j (List.mem_finRange j)
          rw [Bool.or_eq_true, not_or] at hj
          exact ⟨hinvalid j fun heq => hj.2 (decide_eq_true heq), hj.1⟩
        have hfresh : ∀ j, ∃ t, .probe (s.staMacAddr j) t ∈ done ∧ now ≤ t + pbcWalkTime hz ∧
            t ≤ now := by
          intro j
          obtain ⟨-, t, ht, hreceive, hprobe, -⟩ := h.used j (hslots j).1
          have hnot := mt (expired_iff hreceive (Nat.le_trans ht hlast) hnow).mpr (hslots j).2
          exact ⟨t, hprobe, by omega, Nat.le_trans ht hlast⟩
        have hinjective : Function.Injective s.staMacAddr := fun j k hjk =>
          h.distinct j (hslots j).1 k (hslots k).1 hjk
        have hmem : mac ∉ Finset.univ.image s.staMacAddr := by
          rw [Finset.mem_image]
          rintro ⟨j, -, hj⟩
          exact hnew j hj
        have hsub : insert mac (Finset.univ.image s.staMacAddr) ⊆
            stationsWithin (done ++ [.probe mac now]) (now - pbcWalkTime hz)
              (now - pbcWalkTime hz + pbcWalkTime hz) := by
          intro m hm
          rw [mem_stationsWithin]
          rcases Finset.mem_insert.mp hm with rfl | hm
          · exact ⟨now, by simp, by omega, by omega⟩
          · obtain ⟨j, -, rfl⟩ := Finset.mem_image.mp hm
            obtain ⟨t, hprobe, hle, hge⟩ := hfresh j
            exact ⟨t, List.mem_append_left _ hprobe, by omega, by omega⟩
        have hcard := Finset.card_le_card hsub
        rw [Finset.card_insert_of_notMem hmem, Finset.card_image_of_injective _ hinjective,
          Finset.card_univ, Fintype.card_fin] at hcard
        omega

/-! ## 4. The check -/

/-- The ageing of one slot does nothing to another. -/
theorem ageSlot_of_ne (clock : PbcSlot → Ulong) (s : PbcProbeInfo) {i j : PbcSlot} (hij : i ≠ j) :
    (ageSlot hz clock s j).valid i = s.valid i ∧ (ageSlot hz clock s j).staMacAddr i = s.staMacAddr i := by
  rw [ageSlot]
  split_ifs
  · exact ⟨Function.update_of_ne hij .., Function.update_of_ne hij ..⟩
  · exact ⟨rfl, rfl⟩

theorem foldl_ageSlot_of_notMem (clock : PbcSlot → Ulong) {l : List PbcSlot} (hi : i ∉ l)
    (s : PbcProbeInfo) : (l.foldl (ageSlot hz clock) s).valid i = s.valid i ∧
      (l.foldl (ageSlot hz clock) s).staMacAddr i = s.staMacAddr i := by
  induction l generalizing s with
  | nil => exact ⟨rfl, rfl⟩
  | cons j l ih =>
    rw [List.mem_cons, not_or] at hi
    obtain ⟨hvalid, hmac⟩ := ih hi.2 (ageSlot hz clock s j)
    obtain ⟨hvalid', hmac'⟩ : (ageSlot hz clock s j).valid i = s.valid i ∧ _ :=
      ageSlot_of_ne clock s hi.1
    exact ⟨hvalid.trans hvalid', hmac.trans hmac'⟩

theorem foldl_ageSlot_overlap (clock : PbcSlot → Ulong) (l : List PbcSlot) (s : PbcProbeInfo) :
    (l.foldl (ageSlot hz clock) s).overlap = s.overlap := by
  induction l generalizing s with
  | nil => rfl
  | cons j l ih =>
    rw [List.foldl_cons, ih, ageSlot]
    split_ifs <;> rfl

/-- **A slot is aged**: what is left in it has probed within the time. -/
theorem PbcProbeInfo.Tracks.ageSlot {times : PbcSlot → Nat} (h : s.Tracks hz done last)
    (hlast : last ≤ times i) (hnow : times i < 2 ^ 63) :
    (ageSlot hz (fun j => BitVec.ofNat 64 (times j)) s i).Tracks hz done (times i) ∧
      (i ∈ (Wsc.ageSlot hz (fun j => BitVec.ofNat 64 (times j)) s i).slots →
        ∃ t, .probe ((Wsc.ageSlot hz (fun j => BitVec.ofNat 64 (times j)) s i).staMacAddr i) t ∈ done ∧
          times i ≤ t + pbcWalkTime hz) := by
  rw [Wsc.ageSlot]
  by_cases hold : (s.valid i && s.expired hz (BitVec.ofNat 64 (times i)) i) = true
  · rw [if_pos hold]
    rw [Bool.and_eq_true] at hold
    have hin : i ∈ s.slots := mem_slots.mpr hold.1
    obtain ⟨-, ti, hti, hreceive, -, hlatest⟩ := h.used i hin
    have hexpired := (expired_iff hreceive (Nat.le_trans hti hlast) hnow).mp hold.2
    obtain ⟨s', hs'⟩ : ∃ s' : PbcProbeInfo, s' =
        { s with
          staMacAddr := Function.update s.staMacAddr i zeroMacAddr
          receiveTime := Function.update s.receiveTime i 0
          valid := Function.update s.valid i false
          count := s.count - 1 } := ⟨_, rfl⟩
    rw [← hs']
    have hvalid : s'.valid = Function.update s.valid i false := by rw [hs']
    have hslots : s'.slots = s.slots.erase i := by
      ext j
      rw [mem_slots, hvalid, Finset.mem_erase, mem_slots]
      by_cases hj : j = i
      · rw [hj, Function.update_self]
        simp
      · rw [Function.update_of_ne hj]
        simp [hj]
    have hrest : ∀ j, j ≠ i → s'.staMacAddr j = s.staMacAddr j ∧ s'.receiveTime j = s.receiveTime j := by
      intro j hj
      rw [hs']
      exact ⟨Function.update_of_ne hj .., Function.update_of_ne hj ..⟩
    refine ⟨⟨?_, ?_, ?_, ?_, ?_⟩, fun hi => ?_⟩
    · have hcount := h.count
      have hpos := Finset.card_pos.mpr ⟨i, hin⟩
      have hone : (1 : UInt8) ≤ s.count := by
        rw [UInt8.le_iff_toNat_le, UInt8.toNat_one, hcount]
        exact hpos
      rw [hslots, Finset.card_erase_of_mem hin, hs', UInt8.toNat_sub_of_le _ _ hone, UInt8.toNat_one,
        hcount]
    · intro j hj k hk hjk
      rw [hslots, Finset.mem_erase] at hj hk
      rw [(hrest j hj.1).1, (hrest k hk.1).1] at hjk
      exact h.distinct j hj.2 k hk.2 hjk
    · intro j hj
      rw [hslots, Finset.mem_erase] at hj
      rw [(hrest j hj.1).1, (hrest j hj.1).2]
      exact (h.later hlast).used j hj.2
    · intro j hj
      rw [hslots, Finset.mem_erase, not_and_or, not_not] at hj
      by_cases hji : j = i
      · rw [hji, hs']
        exact Function.update_self ..
      · rw [(hrest j hji).1]
        exact h.empty j (hj.resolve_left hji)
    · intro m t hp ht
      obtain ⟨j, hj, hjm⟩ := (h.later hlast).covered m t hp ht
      have hji : j ≠ i := by
        rintro rfl
        have hle := hlatest t (hjm ▸ hp)
        omega
      refine ⟨j, ?_, (hrest j hji).1.trans hjm⟩
      rw [hslots, Finset.mem_erase]
      exact ⟨hji, hj⟩
    · rw [hslots] at hi
      exact absurd hi (Finset.notMem_erase i _)
  · rw [if_neg hold]
    refine ⟨h.later hlast, fun hi => ?_⟩
    obtain ⟨-, ti, hti, hreceive, hprobe, -⟩ := h.used i hi
    have hvalid := mem_slots.mp hi
    rw [hvalid, Bool.true_and, expired_iff hreceive (Nat.le_trans hti hlast) hnow] at hold
    exact ⟨ti, hprobe, by omega⟩

/-- **The loop over the slots.** -/
theorem PbcProbeInfo.Tracks.foldl_ageSlot {times : PbcSlot → Nat} {l : List PbcSlot}
    (h : s.Tracks hz done last) (hnodup : l.Nodup) (hsorted : (l.map times).Pairwise (· ≤ ·))
    (hlast : ∀ i ∈ l, last ≤ times i) (hrange : ∀ i ∈ l, times i < 2 ^ 63) (hnow : last ≤ now)
    (hend : ∀ i ∈ l, times i ≤ now) :
    (l.foldl (Wsc.ageSlot hz fun j => BitVec.ofNat 64 (times j)) s).Tracks hz done now ∧
      ∀ i ∈ l, i ∈ (l.foldl (Wsc.ageSlot hz fun j => BitVec.ofNat 64 (times j)) s).slots →
        ∃ t, .probe ((l.foldl (Wsc.ageSlot hz fun j => BitVec.ofNat 64 (times j)) s).staMacAddr i) t ∈
          done ∧ times i ≤ t + pbcWalkTime hz := by
  induction l generalizing s last with
  | nil => exact ⟨h.later hnow, fun i hi => absurd hi (List.not_mem_nil)⟩
  | cons j l ih =>
    rw [List.map_cons, List.pairwise_cons] at hsorted
    rw [List.nodup_cons] at hnodup
    obtain ⟨haged, hfresh⟩ := h.ageSlot (hlast j (List.mem_cons_self ..))
      (hrange j (List.mem_cons_self ..))
    have hrest := ih haged hnodup.2 hsorted.2 (fun i hi => hsorted.1 _ (List.mem_map_of_mem hi))
      (fun i hi => hrange i (List.mem_cons_of_mem _ hi)) (hend j (List.mem_cons_self ..))
      fun i hi => hend i (List.mem_cons_of_mem _ hi)
    rw [List.foldl_cons]
    refine ⟨hrest.1, fun i hi hin => ?_⟩
    rcases List.mem_cons.mp hi with rfl | hi
    · have hother := @foldl_ageSlot_of_notMem hz i (fun k => BitVec.ofNat 64 (times k)) l hnodup.1
        (Wsc.ageSlot hz (fun k => BitVec.ofNat 64 (times k)) s i)
      obtain ⟨hvalid, hmac⟩ := hother
      rw [mem_slots, hvalid] at hin
      rw [hmac]
      exact hfresh (mem_slots.mpr hin)
    · exact hrest.2 i hi hin

/-- The readings of a check, slot by slot. -/
theorem monotone_of_readings {times : PbcSlot → Nat}
    (hsorted : ((List.finRange maxPbcStaTableSize).map times).Pairwise (· ≤ ·)) : Monotone times := by
  rw [List.pairwise_map] at hsorted
  intro i j hij
  rcases eq_or_lt_of_le hij with rfl | hlt
  · exact Nat.le_refl _
  · have hlen : (List.finRange maxPbcStaTableSize).length = maxPbcStaTableSize :=
      List.length_finRange
    have hij := List.pairwise_iff_getElem.mp hsorted i j (by rw [hlen]; exact i.2)
      (by rw [hlen]; exact j.2) hlt
    simpa using hij

theorem PbcProbeInfo.Tracks.report (h : s.Tracks hz done last) (b : Bool) :
    { s with overlap := b }.Tracks hz done last :=
  ⟨h.count, h.distinct, h.used, h.empty, h.covered⟩

/-- Two stations within the time have two slots. -/
theorem PbcProbeInfo.Tracks.one_lt_count (h : s.Tracks hz done last)
    (htwo : 1 < (stationsWithin done (last - pbcWalkTime hz) last).card) : 1 < s.count := by
  obtain ⟨m, hm, m', hm', hne⟩ := Finset.one_lt_card.mp htwo
  have hslot : ∀ m ∈ stationsWithin done (last - pbcWalkTime hz) last,
      ∃ i ∈ s.slots, s.staMacAddr i = m := by
    intro m hm
    obtain ⟨t, hprobe, hfirst, -⟩ := mem_stationsWithin.mp hm
    exact h.covered m t hprobe (by omega)
  obtain ⟨i, hi, him⟩ := hslot m hm
  obtain ⟨j, hj, hjm⟩ := hslot m' hm'
  have hij : i ≠ j := by
    rintro rfl
    exact hne (him.symm.trans hjm)
  have hcard : 1 < s.slots.card := Finset.one_lt_card.mpr ⟨i, hi, j, hj, hij⟩
  rw [UInt8.lt_iff_toNat_lt, UInt8.toNat_one, h.count]
  exact hcard

/-- **`WscPBCSessionOverlapCheck`** reports an overlap when two stations probed within the time before
its last reading of the clock, and only when two did before its first. -/
theorem PbcProbeInfo.Tracks.check {times : PbcSlot → Nat} (h : s.Tracks hz done last)
    (hsorted : ((List.finRange maxPbcStaTableSize).map times).Pairwise (· ≤ ·))
    (htimes : ∀ m t, .probe m t ∈ done → t ≤ last) (hlast : ∀ i, last ≤ times i) (hrange : ∀ i, times i < 2 ^ 63) :
    (wscPbcSessionOverlapCheck hz s fun i => BitVec.ofNat 64 (times i)).Tracks hz done (times 3) ∧
    (1 < (stationsWithin done (times 3 - pbcWalkTime hz) (times 3)).card →
      (wscPbcSessionOverlapCheck hz s fun i => BitVec.ofNat 64 (times i)).overlap = true) ∧
    ((wscPbcSessionOverlapCheck hz s fun i => BitVec.ofNat 64 (times i)).overlap = true →
      1 < (stationsWithin done (times 0 - pbcWalkTime hz) (times 0)).card) := by
  have hmono := monotone_of_readings hsorted
  have hslots : ∀ i, i ∈ List.finRange maxPbcStaTableSize := List.mem_finRange
  rw [wscPbcSessionOverlapCheck]
  dsimp only
  by_cases hmany : 1 < s.count
  · rw [if_pos hmany]
    obtain ⟨haged, hfresh⟩ := (h.report false).foldl_ageSlot (l := List.finRange maxPbcStaTableSize)
      (List.nodup_finRange _) hsorted (fun i _ => hlast i) (fun i _ => hrange i) (hlast 3)
      (fun i _ => hmono (Fin.le_last i))
    by_cases hleft : 1 < ((List.finRange maxPbcStaTableSize).foldl
        (Wsc.ageSlot hz fun j => BitVec.ofNat 64 (times j)) { s with overlap := false }).count
    · rw [if_pos hleft]
      refine ⟨haged.report true, fun _ => rfl, fun _ => ?_⟩
      rw [UInt8.lt_iff_toNat_lt, UInt8.toNat_one, haged.count] at hleft
      obtain ⟨i, hi, j, hj, hij⟩ := Finset.one_lt_card.mp hleft
      have hwithin : ∀ i, i ∈ ((List.finRange maxPbcStaTableSize).foldl
          (Wsc.ageSlot hz fun j => BitVec.ofNat 64 (times j)) { s with overlap := false }).slots →
          ((List.finRange maxPbcStaTableSize).foldl
            (Wsc.ageSlot hz fun j => BitVec.ofNat 64 (times j)) { s with overlap := false }).staMacAddr i ∈
          stationsWithin done (times 0 - pbcWalkTime hz) (times 0) := by
        intro i hi
        obtain ⟨t, hprobe, ht⟩ := hfresh i (hslots i) hi
        have hle := htimes _ t hprobe
        have hfirst := hmono (Fin.zero_le i)
        have hlast' := hlast 0
        exact mem_stationsWithin.mpr ⟨t, hprobe, by omega, by omega⟩
      exact Finset.one_lt_card.mpr ⟨_, hwithin i hi, _, hwithin j hj,
        fun heq => hij (haged.distinct i hi j hj heq)⟩
    · rw [if_neg hleft]
      refine ⟨haged, fun htwo => absurd (haged.one_lt_count htwo) hleft, fun hno => ?_⟩
      rw [foldl_ageSlot_overlap] at hno
      exact nomatch hno
  · rw [if_neg hmany]
    refine ⟨(h.report false).later (hlast 3), fun htwo => ?_, fun hno => nomatch hno⟩
    exact absurd (((h.report false).later (hlast 3)).one_lt_count htwo) hmany

/-! ## 5. A run -/

/-- A check is no probe. -/
theorem mem_append_check {op : PbcInput} {times : PbcSlot → Nat} (hop : op = .check times) {t : Nat} :
    .probe mac t ∈ done ++ [op] ↔ .probe mac t ∈ done := by
  rw [hop]
  simp

theorem PbcProbeInfo.Tracks.append_check {times : PbcSlot → Nat} (h : s.Tracks hz done last) :
    s.Tracks hz (done ++ [.check times]) last := by
  have hprobe : ∀ {m t}, PbcInput.probe m t ∈ done ++ [.check times] ↔ .probe m t ∈ done :=
    mem_append_check rfl
  refine ⟨h.count, h.distinct, fun i hi => ?_, h.empty, fun m t hp => h.covered m t (hprobe.mp hp)⟩
  obtain ⟨hne, t, ht, hreceive, hin, hlatest⟩ := h.used i hi
  exact ⟨hne, t, ht, hreceive, hprobe.mpr hin, fun t' hp => hlatest t' (hprobe.mp hp)⟩

theorem stationsWithin_append_check {times : PbcSlot → Nat} (first last : Nat) :
    stationsWithin (done ++ [.check times]) first last = stationsWithin done first last := by
  ext m
  rw [mem_stationsWithin, mem_stationsWithin]
  exact exists_congr fun t => and_congr_left fun _ => mem_append_check rfl

/-- What a part of a run has probed, the run has. -/
theorem stationsWithin_subset {rest : List PbcInput} (first last : Nat) :
    stationsWithin done first last ⊆ stationsWithin (done ++ rest) first last := by
  intro m hm
  obtain ⟨t, hprobe, hwithin⟩ := mem_stationsWithin.mp hm
  exact mem_stationsWithin.mpr ⟨t, List.mem_append_left rest hprobe, hwithin⟩

/-- **A run** up to some point: the table tracks the probes, at a time that nothing before is after and
nothing behind is before. -/
theorem run_tracks {ops : List PbcInput} (htime : InTime ops) (hfew : FewStations hz ops)
    (hnonzero : NonzeroAddresses ops) (hshort : ShortRun ops) (done rest : List PbcInput)
    (hsplit : ops = done ++ rest) :
    (∃ last, (Run.final (pbcStep hz) {} done).Tracks hz done last ∧
      (∀ t ∈ done.flatMap PbcInput.times, t ≤ last) ∧
      ∀ t ∈ rest.flatMap PbcInput.times, last ≤ t) ∧
    (Run.final (pbcStep hz) {} done).Agrees hz done := by
  induction done using List.reverseRecOn generalizing rest with
  | nil =>
    refine ⟨⟨0, tracks_init, fun t ht => (nomatch ht), fun t _ => Nat.zero_le t⟩, ?_⟩
    have hinit : PbcProbeInfo.Tracks {} hz [] 0 := tracks_init
    refine ⟨hinit.count, hinit.distinct, fun before now h => ?_, fun before now h => ?_⟩
    · exact absurd h.symm (by simp)
    · exact absurd h.symm (by simp)
  | append_singleton done op ih =>
    have hsplit' : ops = done ++ op :: rest := by rw [hsplit, List.append_assoc, List.singleton_append]
    obtain ⟨last, htracks, hpast, hfuture⟩ := (ih (op :: rest) hsplit').1
    have hop : op ∈ ops := by
      rw [hsplit']
      exact List.mem_append_right done (List.mem_cons_self ..)
    have hsorted : (op.times ++ rest.flatMap PbcInput.times).Pairwise (· ≤ ·) := by
      rw [InTime, hsplit', List.flatMap_append, List.flatMap_cons] at htime
      exact (List.pairwise_append.mp htime).2.1
    have hlast : ∀ t ∈ op.times, last ≤ t := fun t ht =>
      hfuture t (List.mem_flatMap.mpr ⟨op, List.mem_cons_self .., ht⟩)
    have hrange : ∀ t ∈ op.times, t < 2 ^ 63 := fun t ht =>
      hshort t (List.mem_flatMap.mpr ⟨op, hop, ht⟩)
    have hprobes : ∀ m t, .probe m t ∈ done → t ≤ last := fun m t hp =>
      hpast t (List.mem_flatMap.mpr ⟨_, hp, List.mem_singleton_self t⟩)
    have hbetween : ∀ now ∈ op.times, (∀ t ∈ op.times, t ≤ now) →
        (∀ t ∈ (done ++ [op]).flatMap PbcInput.times, t ≤ now) ∧
          ∀ t ∈ rest.flatMap PbcInput.times, now ≤ t := by
      intro now hnow hmax
      refine ⟨fun t ht => ?_, fun t ht => (List.pairwise_append.mp hsorted).2.2 now hnow t ht⟩
      rw [List.flatMap_append, List.mem_append] at ht
      rcases ht with ht | ht
      · exact Nat.le_trans (hpast t ht) (hlast now hnow)
      · rw [List.flatMap_singleton] at ht
        exact hmax t ht
    rw [Run.final_append, Run.final_cons, Run.final_nil]
    cases op with
    | probe mac now =>
      have hnow : now ∈ (PbcInput.probe mac now).times := List.mem_singleton_self now
      have hstations : (stationsWithin (done ++ [.probe mac now]) (now - pbcWalkTime hz)
          (now - pbcWalkTime hz + pbcWalkTime hz)).card ≤ maxPbcStaTableSize := by
        refine Nat.le_trans (Finset.card_le_card ?_) (hfew (now - pbcWalkTime hz))
        rw [hsplit]
        exact stationsWithin_subset _ _
      have hafter := htracks.probe (hlast now hnow) (hrange now hnow)
        (fun m t hp => Nat.le_trans (hprobes m t hp) (hlast now hnow)) (hnonzero mac now hop) hstations
      refine ⟨⟨now, hafter, hbetween now hnow fun t ht => ?_⟩, hafter.count, hafter.distinct,
        fun before now' h => ?_, fun before now' h => ?_⟩
      · exact Nat.le_of_eq (List.mem_singleton.mp ht)
      · exact nomatch List.append_inj_right' h rfl
      · exact nomatch List.append_inj_right' h rfl
    | check times =>
      have hread : ∀ i, times i ∈ (PbcInput.check times).times := fun i =>
        List.mem_map_of_mem (List.mem_finRange i)
      have hreadings := (List.pairwise_append.mp hsorted).1
      obtain ⟨hafter, hreported, hoverlap⟩ := htracks.check hreadings hprobes
        (fun i => hlast _ (hread i)) fun i => hrange _ (hread i)
      have hafter' : PbcProbeInfo.Tracks _ hz (done ++ [.check times]) (times 3) := hafter.append_check
      refine ⟨⟨times 3, hafter', hbetween _ (hread 3) fun t ht => ?_⟩, hafter'.count,
        hafter'.distinct, fun before now' h => ?_, fun before now' h => ?_⟩
      · obtain ⟨i, -, rfl⟩ := List.mem_map.mp ht
        exact monotone_of_readings hreadings (Fin.le_last i)
      · cases List.append_inj_right' h rfl
        rw [stationsWithin_append_check]
        exact hreported
      · cases List.append_inj_right' h rfl
        rw [stationsWithin_append_check]
        exact hoverlap

/-- **The table agrees with the probes all along every run** whose stations have an address of their
own. -/
theorem pbc_meets (hz : OsHz) (ops : List PbcInput) (hnonzero : NonzeroAddresses ops)
    (hshort : ShortRun ops) : PbcMeets hz ops :=
  fun htime hfew done rest hsplit => (run_tracks htime hfew hnonzero hshort done rest hsplit).2

end

namespace Example

/-- A station, and one with the address of an empty slot. -/
def pbcStation : MacAddr := .ofList 6 [0, 12, 67, 0, 0, 1]
def pbcStation' : MacAddr := .ofList 6 [0, 12, 67, 0, 0, 2]

/-- Two stations probe, and then comes a check. -/
def twoProbes (mac mac' : MacAddr) : List PbcInput :=
  [.probe mac 0, .probe mac' 1, .check fun _ => 2]

def tickRate : OsHz := ⟨100, OsHz.hundred_le⟩

end Example

theorem pbc_meets_two : PbcMeets Example.tickRate
    (Example.twoProbes Example.pbcStation Example.pbcStation') :=
  pbc_meets Example.tickRate (Example.twoProbes Example.pbcStation Example.pbcStation')
    (fun mac now hp => by
      rcases List.mem_cons.mp hp with h | hp
      · cases h
        decide
      · rcases List.mem_cons.mp hp with h | hp
        · cases h
          decide
        · exact nomatch List.mem_singleton.mp hp)
    (by
      have htimes : ∀ t ∈ (Example.twoProbes Example.pbcStation Example.pbcStation').flatMap
          PbcInput.times, t ≤ 2 := by decide
      intro t ht
      have hle := htimes t ht
      omega)

/-- The station without an address probes second, and is not counted. -/
theorem not_pbcMeets_zeroAddress :
    ¬ PbcMeets Example.tickRate (Example.twoProbes Example.pbcStation zeroMacAddr) := by
  intro h
  have htime : InTime (Example.twoProbes Example.pbcStation zeroMacAddr) := by
    rw [InTime]
    decide
  have hfew : FewStations Example.tickRate (Example.twoProbes Example.pbcStation zeroMacAddr) := by
    intro first
    have hsub : stationsWithin (Example.twoProbes Example.pbcStation zeroMacAddr) first
        (first + pbcWalkTime Example.tickRate) ⊆ {Example.pbcStation, zeroMacAddr} := by
      intro m hm
      obtain ⟨t, hprobe, -⟩ := mem_stationsWithin.mp hm
      rw [Finset.mem_insert, Finset.mem_singleton]
      rcases List.mem_cons.mp hprobe with heq | hprobe
      · cases heq
        exact .inl rfl
      · rcases List.mem_cons.mp hprobe with heq | hprobe
        · cases heq
          exact .inr rfl
        · exact nomatch List.mem_singleton.mp hprobe
    exact Nat.le_trans (Finset.card_le_card hsub) (Nat.le_trans (Finset.card_insert_le _ _) (by decide))
  have hagrees := h htime hfew (Example.twoProbes Example.pbcStation zeroMacAddr) []
    (List.append_nil _).symm
  have hreported := hagrees.reported [.probe Example.pbcStation 0, .probe zeroMacAddr 1] (fun _ => 2)
    rfl (by decide)
  exact absurd hreported (by decide)

end Mt7601.Wsc
