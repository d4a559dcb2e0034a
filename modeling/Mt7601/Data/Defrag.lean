/-
# Reassembly of fragmented frames

`RTMPDeFragmentDataFrame` keeps one reassembly buffer for all transmitters. Of the frame in it, it
remembers the sequence number, the number of the last fragment and the size; the transmitter it
does not remember, and it does not remember either whether a frame is under way at all: after a
reset the three are 0, after a frame is complete they are those of the complete frame.

A run is the list of the fragments the function is called with. `Assembled` says what the frames
it returns are to be, `Watch` runs the function and keeps an eye on the first fragment of the
frame under way, and `Coherent` is the invariant that ties the buffer to the fragments received.
-/
import Mt7601.Data.Defs
import Mt7601.Lib.Run

namespace Mt7601.Data

open Header

/-! ## 1. The function -/

/-- `FRAGMENT_FRAME` -/
structure FragFrame where
  /-- the memory of the buffer -/
  pFragPacket : List UInt8
  rxSize : Nat
  sequence : Nat
  lastFrag : Nat

/-- `RESET_FRAGFRAME` -/
def FragFrame.reset (fragFrame : FragFrame) : FragFrame :=
  { fragFrame with
    rxSize := 0
    sequence := 0
    lastFrag := 0 }

/-- The first fragment is recorded with its headers, without a look at its size. -/
def FragFrame.record (fragFrame : FragFrame) (pRxBlk : RxBlk) (headerRoom : UInt8) : FragFrame :=
  let rxSize := pRxBlk.dataSize.toNat + headerRoom.toNat
  { pFragPacket := Mem.write fragFrame.pFragPacket 0 (Mem.read pRxBlk.pHeader 0 rxSize)
    rxSize := rxSize
    sequence := Header.sequence pRxBlk.pHeader
    lastFrag := frag pRxBlk.pHeader }

/-- A later one is put behind what the buffer holds. -/
def FragFrame.concatenate (fragFrame : FragFrame) (pRxBlk : RxBlk) : FragFrame :=
  { fragFrame with
    pFragPacket := Mem.write fragFrame.pFragPacket fragFrame.rxSize pRxBlk.payload
    rxSize := fragFrame.rxSize + pRxBlk.dataSize.toNat
    lastFrag := frag pRxBlk.pHeader }

/-- The tests on the sequence number, on the fragment number and on the size. -/
def FragFrame.outOfOrder (fragFrame : FragFrame) (pRxBlk : RxBlk) : Bool :=
  Header.sequence pRxBlk.pHeader ≠ fragFrame.sequence ∨ frag pRxBlk.pHeader ≠ fragFrame.lastFrag + 1

def FragFrame.tooLarge (fragFrame : FragFrame) (pRxBlk : RxBlk) : Bool :=
  maxFrameSize < fragFrame.rxSize + pRxBlk.dataSize.toNat

/-- A LLC header in a middle or end fragment. -/
def anotherLlc (pRxBlk : RxBlk) : Bool :=
  Mem.read pRxBlk.pHeader pRxBlk.pData 6 = snap8021H

/-- `RTMPDeFragmentDataFrame`. `pNewFragPacket` is the memory of the packet that is allocated in
place of a complete one, if there is one to be had. -/
def rtmpDeFragmentDataFrame (fragFrame : FragFrame) (pRxBlk : RxBlk)
    (pNewFragPacket : Option (List UInt8)) : FragFrame × Option RxBlk :=
  let headerRoom := UInt8.ofNat pRxBlk.pData
  if frag pRxBlk.pHeader = 0 then
    if moreFrag pRxBlk.pHeader then (fragFrame.record pRxBlk headerRoom, none)
    else (fragFrame, none)
  else if fragFrame.outOfOrder pRxBlk then (fragFrame.reset, none)
  else if fragFrame.tooLarge pRxBlk then (fragFrame.reset, none)
  else if anotherLlc pRxBlk then (fragFrame, none)
  else
    let fragFrame := fragFrame.concatenate pRxBlk
    if moreFrag pRxBlk.pHeader then (fragFrame, none)
    else
      match pNewFragPacket with
      | none => (fragFrame.reset, none)
      | some fresh =>
        ({ fragFrame with pFragPacket := fresh },
          some
            { pHeader := fragFrame.pFragPacket
              pData := headerRoom.toNat
              dataSize := UInt16.ofNat fragFrame.rxSize - headerRoom.toUInt16 })

/-! ## 2. Runs -/

/-- A received fragment, and the packet that stands ready should it complete a frame. The headers
in front of the data are 38 octets at most; their length is kept in an octet. -/
structure Fragment extends RxBlk where
  pNewFragPacket : Option (List UInt8)
  room_lt : pData < 256

/-- The buffer, and the frames returned so far. -/
structure Reassembler where
  fragFrame : FragFrame
  returned : List RxBlk

def Reassembler.step (r : Reassembler) (a : Fragment) : Reassembler :=
  let res := rtmpDeFragmentDataFrame r.fragFrame a.toRxBlk a.pNewFragPacket
  { fragFrame := res.1
    returned := r.returned ++ res.2.toList }

/-- The buffer when the interface comes up; the memory of the packet holds anything. -/
def Reassembler.start (mem : List UInt8) : Reassembler :=
  { fragFrame := { pFragPacket := mem, rxSize := 0, sequence := 0, lastFrag := 0 }
    returned := [] }

/-! ## 3. What the frames returned are to be -/

/-- Fragments `0, 1, ...` of one MSDU: of the same transmitter and of the same sequence number. -/
structure OfOneMsdu (frags : List RxBlk) : Prop where
  number : ∀ k (h : k < frags.length), frag frags[k].pHeader = k
  transmitter : ∀ f ∈ frags, ∀ g ∈ frags, addr2 f.pHeader = addr2 g.pHeader
  sequence : ∀ f ∈ frags, ∀ g ∈ frags, Header.sequence f.pHeader = Header.sequence g.pHeader

/-- The fragments received at some places. -/
def fragsAt (rcvd : List Fragment) (idx : List Nat) : List RxBlk :=
  idx.filterMap fun i => (rcvd[i]?).map Fragment.toRxBlk

/-- A frame is the concatenation of fragments `0, 1, ..., n` of one MSDU, the last of them the one
without the more-fragments bit; `idx` are their places among the fragments received. -/
structure Concatenates (rcvd : List Fragment) (idx : List Nat) (ret : RxBlk) : Prop where
  nonempty : idx ≠ []
  received : ∀ i ∈ idx, i < rcvd.length
  msdu : OfOneMsdu (fragsAt rcvd idx)
  more : ∀ k (h : k < (fragsAt rcvd idx).length),
    moreFrag (fragsAt rcvd idx)[k].pHeader = decide (k + 1 < (fragsAt rcvd idx).length)
  headers : (fragsAt rcvd idx).head?.map RxBlk.headers = some ret.headers
  payload : ret.payload = ((fragsAt rcvd idx).map RxBlk.payload).flatten

/-- Every frame returned is one, no fragment is used twice and none out of turn, and the octets
accumulated are within the buffer. -/
structure Assembled (rcvd : List Fragment) (r : Reassembler) : Prop where
  returned : ∃ idxs : List (List Nat), List.Forall₂ (Concatenates rcvd) idxs r.returned ∧
    idxs.flatten.Pairwise (· < ·)
  size : r.fragFrame.rxSize ≤ rxBufferNormSize

section

variable {rcvd : List Fragment} {idx : List Nat} {a : Fragment}

/-- A fragment more leaves the others in their places. -/
theorem fragsAt_append (h : ∀ i ∈ idx, i < rcvd.length) :
    fragsAt (rcvd ++ [a]) idx = fragsAt rcvd idx := by
  refine List.filterMap_congr fun i hi => ?_
  rw [List.getElem?_append_left (h i hi)]

theorem fragsAt_append_last (h : ∀ i ∈ idx, i < rcvd.length) :
    fragsAt (rcvd ++ [a]) (idx ++ [rcvd.length]) = fragsAt rcvd idx ++ [a.toRxBlk] := by
  rw [fragsAt, List.filterMap_append]
  rw [show idx.filterMap _ = _ from fragsAt_append h]
  simp

theorem Concatenates.append {ret : RxBlk} (h : Concatenates rcvd idx ret) :
    Concatenates (rcvd ++ [a]) idx ret := by
  have heq : fragsAt (rcvd ++ [a]) idx = fragsAt rcvd idx := fragsAt_append h.received
  constructor
  · exact h.nonempty
  · intro i hi
    rw [List.length_append]
    exact Nat.lt_add_right _ (h.received i hi)
  · rw [heq]
    exact h.msdu
  · rw [heq]
    exact h.more
  · rw [heq]
    exact h.headers
  · rw [heq]
    exact h.payload

theorem OfOneMsdu.single {f : RxBlk} (h : frag f.pHeader = 0) : OfOneMsdu [f] := by
  constructor
  · intro k hk
    have hk0 : k = 0 := Nat.lt_one_iff.1 hk
    subst hk0
    exact h
  · simp
  · simp

/-- The next fragment of the MSDU. -/
theorem OfOneMsdu.snoc {frags : List RxBlk} {f g : RxBlk} (h : OfOneMsdu frags)
    (hf : f ∈ frags) (haddr : addr2 f.pHeader = addr2 g.pHeader)
    (hseq : Header.sequence f.pHeader = Header.sequence g.pHeader)
    (hnum : frag g.pHeader = frags.length) : OfOneMsdu (frags ++ [g]) := by
  constructor
  · intro k hk
    rw [List.length_append, List.length_singleton] at hk
    rcases Nat.lt_or_ge k frags.length with hlt | hge
    · rw [List.getElem_append_left hlt]
      exact h.number k hlt
    · have hk' : k = frags.length := by omega
      subst hk'
      simpa using hnum
  · intro x hx y hy
    have hall : ∀ z ∈ frags ++ [g], addr2 z.pHeader = addr2 g.pHeader := by
      intro z hz
      rcases List.mem_append.1 hz with hz | hz
      · rw [h.transmitter z hz f hf, haddr]
      · rw [List.mem_singleton.1 hz]
    rw [hall x hx, hall y hy]
  · intro x hx y hy
    have hall : ∀ z ∈ frags ++ [g], Header.sequence z.pHeader = Header.sequence g.pHeader := by
      intro z hz
      rcases List.mem_append.1 hz with hz | hz
      · rw [h.sequence z hz f hf, hseq]
      · rw [List.mem_singleton.1 hz]
    rw [hall x hx, hall y hy]

end

/-! ## 4. The frame under way -/

/-- What the tests of the function let through into the buffer. -/
def FragFrame.CarriesOn (fragFrame : FragFrame) (a : RxBlk) : Prop :=
  frag a.pHeader ≠ 0 ∧ fragFrame.outOfOrder a = false ∧ fragFrame.tooLarge a = false ∧
    anotherLlc a = false

/-- The reassembler with an eye on the first fragment of the frame under way: from the moment it is
recorded until the frame is complete or the buffer is reset. -/
structure Watch extends Reassembler where
  first : Option RxBlk

def Watch.start (mem : List UInt8) : Watch :=
  { toReassembler := .start mem
    first := none }

def Watch.step (w : Watch) (a : Fragment) : Watch :=
  { toReassembler := w.toReassembler.step a
    first :=
      if frag a.pHeader = 0 then
        if moreFrag a.pHeader then some a.toRxBlk else w.first
      else if w.fragFrame.outOfOrder a.toRxBlk ∨ w.fragFrame.tooLarge a.toRxBlk then none
      else if anotherLlc a.toRxBlk ∨ moreFrag a.pHeader then w.first
      else none }

/-- **The condition.**  A first fragment fits the buffer with its headers, and a later one that the
tests let through belongs to a frame under way: its transmitter is that of the first fragment, and
if it is the last one its headers are as long as those of the first. -/
structure Watch.Sound (w : Watch) (a : Fragment) : Prop where
  fits : frag a.pHeader = 0 → moreFrag a.pHeader = true →
    a.pData + a.dataSize.toNat ≤ rxBufferNormSize
  carriesOn : w.fragFrame.CarriesOn a.toRxBlk →
    ∃ f, w.first = some f ∧ addr2 f.pHeader = addr2 a.pHeader ∧
      (moreFrag a.pHeader = false → f.pData = a.pData)

/-- Watching changes nothing. -/
theorem final_toReassembler : ∀ (is : List Fragment) (w : Watch),
    (Run.final Watch.step w is).toReassembler = Run.final Reassembler.step w.toReassembler is
  | [], _ => rfl
  | i :: is, w => by
      rw [Run.final_cons, Run.final_cons, final_toReassembler is]
      rfl

/-- The buffer holds fragments `0, 1, ..., lastFrag` of one MSDU behind the headers of the first. -/
structure UnderWay (rcvd : List Fragment) (fragFrame : FragFrame) (f : RxBlk) (idx : List Nat) :
    Prop where
  received : ∀ i ∈ idx, i < rcvd.length
  msdu : OfOneMsdu (fragsAt rcvd idx)
  head : (fragsAt rcvd idx).head? = some f
  more : ∀ g ∈ fragsAt rcvd idx, moreFrag g.pHeader = true
  sequence : fragFrame.sequence = Header.sequence f.pHeader
  lastFrag : fragFrame.lastFrag + 1 = (fragsAt rcvd idx).length
  buffer : Mem.read fragFrame.pFragPacket 0 fragFrame.rxSize =
    f.headers ++ ((fragsAt rcvd idx).map RxBlk.payload).flatten

/-- **The invariant**: the frames returned are as they are to be, and so is the buffer while a
frame is under way. -/
structure Coherent (rcvd : List Fragment) (w : Watch) : Prop where
  assembled : ∃ idxs : List (List Nat), List.Forall₂ (Concatenates rcvd) idxs w.returned ∧
    idxs.flatten.Pairwise (· < ·) ∧
    ∀ f, w.first = some f → ∃ idx, (idxs.flatten ++ idx).Pairwise (· < ·) ∧
      UnderWay rcvd w.fragFrame f idx
  size : w.fragFrame.rxSize ≤ rxBufferNormSize

/-! ## 5. One step -/

/-- The frame that is returned when the last fragment has been taken in. -/
def FragFrame.complete (fragFrame : FragFrame) (headerRoom : UInt8) : RxBlk :=
  { pHeader := fragFrame.pFragPacket
    pData := headerRoom.toNat
    dataSize := UInt16.ofNat fragFrame.rxSize - headerRoom.toUInt16 }

namespace Reassembler

variable {r : Reassembler} {a : Fragment}

/-- A first fragment that others follow. -/
theorem step_first (hfrag : frag a.pHeader = 0) (hmore : moreFrag a.pHeader = true) :
    r.step a = ⟨r.fragFrame.record a.toRxBlk (UInt8.ofNat a.pData), r.returned⟩ := by
  simp [step, rtmpDeFragmentDataFrame, hfrag, hmore]

/-- A frame in one piece is not for this function. -/
theorem step_single (hfrag : frag a.pHeader = 0) (hmore : moreFrag a.pHeader = false) :
    r.step a = r := by
  simp [step, rtmpDeFragmentDataFrame, hfrag, hmore]

theorem step_reset (hfrag : frag a.pHeader ≠ 0)
    (hreject : r.fragFrame.outOfOrder a.toRxBlk = true ∨ r.fragFrame.tooLarge a.toRxBlk = true) :
    r.step a = ⟨r.fragFrame.reset, r.returned⟩ := by
  rcases hreject with horder | hlarge
  · simp [step, rtmpDeFragmentDataFrame, hfrag, horder]
  · simp [step, rtmpDeFragmentDataFrame, hfrag, hlarge]

/-- The LLC header in it is taken for a stray one. -/
theorem step_anotherLlc (hfrag : frag a.pHeader ≠ 0)
    (horder : r.fragFrame.outOfOrder a.toRxBlk = false)
    (hlarge : r.fragFrame.tooLarge a.toRxBlk = false) (hllc : anotherLlc a.toRxBlk = true) :
    r.step a = r := by
  simp [step, rtmpDeFragmentDataFrame, hfrag, horder, hlarge, hllc]

theorem step_next (hcarries : r.fragFrame.CarriesOn a.toRxBlk)
    (hmore : moreFrag a.pHeader = true) :
    r.step a = ⟨r.fragFrame.concatenate a.toRxBlk, r.returned⟩ := by
  obtain ⟨hfrag, horder, hlarge, hllc⟩ := hcarries
  simp [step, rtmpDeFragmentDataFrame, hfrag, horder, hlarge, hllc, hmore]

theorem step_last (hcarries : r.fragFrame.CarriesOn a.toRxBlk)
    (hmore : moreFrag a.pHeader = false) {fresh : List UInt8}
    (hpacket : a.pNewFragPacket = some fresh) :
    r.step a = ⟨{ r.fragFrame.concatenate a.toRxBlk with pFragPacket := fresh },
      r.returned ++ [(r.fragFrame.concatenate a.toRxBlk).complete (UInt8.ofNat a.pData)]⟩ := by
  obtain ⟨hfrag, horder, hlarge, hllc⟩ := hcarries
  simp [step, rtmpDeFragmentDataFrame, hfrag, horder, hlarge, hllc, hmore, hpacket,
    FragFrame.complete]

/-- Without a packet to take its place the complete frame is given up. -/
theorem step_noPacket (hcarries : r.fragFrame.CarriesOn a.toRxBlk)
    (hmore : moreFrag a.pHeader = false) (hpacket : a.pNewFragPacket = none) :
    r.step a = ⟨(r.fragFrame.concatenate a.toRxBlk).reset, r.returned⟩ := by
  obtain ⟨hfrag, horder, hlarge, hllc⟩ := hcarries
  simp [step, rtmpDeFragmentDataFrame, hfrag, horder, hlarge, hllc, hmore, hpacket]

end Reassembler

/-- **What a step can do.** -/
theorem Watch.step_cases (w : Watch) (a : Fragment) :
    (frag a.pHeader = 0 ∧ moreFrag a.pHeader = true ∧
      w.step a = ⟨⟨w.fragFrame.record a.toRxBlk (UInt8.ofNat a.pData), w.returned⟩,
        some a.toRxBlk⟩) ∨
    w.step a = w ∨
    (∃ fragFrame : FragFrame, w.step a = ⟨⟨fragFrame.reset, w.returned⟩, none⟩) ∨
    (w.fragFrame.CarriesOn a.toRxBlk ∧ moreFrag a.pHeader = true ∧
      w.step a = ⟨⟨w.fragFrame.concatenate a.toRxBlk, w.returned⟩, w.first⟩) ∨
    (w.fragFrame.CarriesOn a.toRxBlk ∧ moreFrag a.pHeader = false ∧
      ∃ fresh, w.step a =
        ⟨⟨{ w.fragFrame.concatenate a.toRxBlk with pFragPacket := fresh },
          w.returned ++ [(w.fragFrame.concatenate a.toRxBlk).complete (UInt8.ofNat a.pData)]⟩,
          none⟩) := by
  by_cases hfrag : frag a.pHeader = 0
  · by_cases hmore : moreFrag a.pHeader = true
    · left
      refine ⟨hfrag, hmore, ?_⟩
      rw [step, Reassembler.step_first hfrag hmore, if_pos hfrag, if_pos hmore]
    · right; left
      rw [Bool.not_eq_true] at hmore
      rw [step, Reassembler.step_single hfrag hmore, if_pos hfrag, hmore, if_neg Bool.false_ne_true]
  right
  by_cases hreject : w.fragFrame.outOfOrder a.toRxBlk = true ∨ w.fragFrame.tooLarge a.toRxBlk = true
  · right; left
    refine ⟨w.fragFrame, ?_⟩
    rw [step, Reassembler.step_reset hfrag hreject, if_neg hfrag, if_pos hreject]
  have hpasses := hreject
  rw [not_or, Bool.not_eq_true, Bool.not_eq_true] at hpasses
  obtain ⟨horder, hlarge⟩ := hpasses
  by_cases hllc : anotherLlc a.toRxBlk = true
  · left
    rw [step, Reassembler.step_anotherLlc hfrag horder hlarge hllc, if_neg hfrag, if_neg hreject,
      if_pos (.inl hllc)]
  rw [Bool.not_eq_true] at hllc
  have hcarries : w.fragFrame.CarriesOn a.toRxBlk := ⟨hfrag, horder, hlarge, hllc⟩
  right
  by_cases hmore : moreFrag a.pHeader = true
  · right; left
    refine ⟨hcarries, hmore, ?_⟩
    rw [step, Reassembler.step_next hcarries hmore, if_neg hfrag, if_neg hreject,
      if_pos (.inr hmore)]
  have hstop : ¬ (anotherLlc a.toRxBlk = true ∨ moreFrag a.pHeader = true) := by
    simp [hllc, hmore]
  rw [Bool.not_eq_true] at hmore
  cases hpacket : a.pNewFragPacket with
  | none =>
    left
    refine ⟨w.fragFrame.concatenate a.toRxBlk, ?_⟩
    rw [step, Reassembler.step_noPacket hcarries hmore hpacket, if_neg hfrag, if_neg hreject,
      if_neg hstop]
  | some fresh =>
    right; right
    refine ⟨hcarries, hmore, fresh, ?_⟩
    rw [step, Reassembler.step_last hcarries hmore hpacket, if_neg hfrag, if_neg hreject,
      if_neg hstop]

section

variable {rcvd : List Fragment} {idx : List Nat} {a : Fragment} {fragFrame : FragFrame} {f : RxBlk}

theorem Fragment.toNat_room (a : Fragment) : (UInt8.ofNat a.pData).toNat = a.pData := by
  rw [UInt8.toNat_ofNat', Nat.mod_eq_of_lt a.room_lt]

/-- The buffer after a first fragment. -/
theorem FragFrame.read_record (fragFrame : FragFrame) (a : Fragment) :
    Mem.read (fragFrame.record a.toRxBlk (UInt8.ofNat a.pData)).pFragPacket 0
        (fragFrame.record a.toRxBlk (UInt8.ofNat a.pData)).rxSize =
      a.toRxBlk.headers ++ a.toRxBlk.payload := by
  have hread := Mem.read_write fragFrame.pFragPacket
    (Mem.read a.pHeader 0 (a.pData + a.dataSize.toNat)) 0
  rw [Mem.length_read] at hread
  rw [FragFrame.record, a.toNat_room, Nat.add_comm a.dataSize.toNat, hread, Mem.read_add,
    Nat.zero_add]
  rfl

/-- The buffer after a later one. -/
theorem FragFrame.read_concatenate (fragFrame : FragFrame) (a : RxBlk) :
    Mem.read (fragFrame.concatenate a).pFragPacket 0 (fragFrame.concatenate a).rxSize =
      Mem.read fragFrame.pFragPacket 0 fragFrame.rxSize ++ a.payload := by
  have hwritten := Mem.read_write fragFrame.pFragPacket a.payload fragFrame.rxSize
  rw [RxBlk.length_payload] at hwritten
  rw [FragFrame.concatenate, Mem.read_add, Mem.read_write_front, Nat.zero_add, hwritten]

/-- The complete frame, by what is in the buffer. -/
theorem FragFrame.complete_of_buffer {hdrs payload : List UInt8}
    (hbuffer : Mem.read fragFrame.pFragPacket 0 fragFrame.rxSize = hdrs ++ payload)
    (hroom : hdrs.length = a.pData) (hlarge : fragFrame.rxSize ≤ maxFrameSize) :
    (fragFrame.complete (UInt8.ofNat a.pData)).headers = hdrs ∧
      (fragFrame.complete (UInt8.ofNat a.pData)).payload = payload := by
  have hsize : fragFrame.rxSize = a.pData + payload.length := by
    have hlen := congrArg List.length hbuffer
    rwa [Mem.length_read, List.length_append, hroom] at hlen
  have hdata : (fragFrame.complete (UInt8.ofNat a.pData)).dataSize.toNat = payload.length := by
    have hmax : maxFrameSize = 2346 := rfl
    have hroom' := a.toNat_room
    rw [FragFrame.complete, UInt16.toNat_sub, UInt16.toNat_ofNat', UInt8.toNat_toUInt16, hroom',
      hsize]
    have := a.room_lt
    omega
  have hpData : (fragFrame.complete (UInt8.ofNat a.pData)).pData = a.pData := a.toNat_room
  rw [hsize, Mem.read_add, Nat.zero_add] at hbuffer
  obtain ⟨hheaders, hpayload⟩ := List.append_inj hbuffer (by rw [Mem.length_read, hroom])
  rw [RxBlk.headers, RxBlk.payload, hdata, hpData]
  exact ⟨hheaders, hpayload⟩

/-- A first fragment puts a frame under way. -/
theorem UnderWay.record (hfrag : frag a.pHeader = 0) (hmore : moreFrag a.pHeader = true) :
    UnderWay (rcvd ++ [a]) (fragFrame.record a.toRxBlk (UInt8.ofNat a.pData)) a.toRxBlk
      [rcvd.length] := by
  have hfrags : fragsAt (rcvd ++ [a]) [rcvd.length] = [a.toRxBlk] := by
    simp [fragsAt]
  constructor
  · simp
  · rw [hfrags]
    exact .single hfrag
  · rw [hfrags]
    rfl
  · rw [hfrags]
    simpa using hmore
  · rfl
  · rw [hfrags]
    simpa [FragFrame.record] using hfrag
  · rw [hfrags, fragFrame.read_record a]
    simp

/-- A fragment that carries on is the next one of the MSDU and is put behind the others. -/
theorem UnderWay.next (h : UnderWay rcvd fragFrame f idx)
    (hcarries : fragFrame.CarriesOn a.toRxBlk) (haddr : addr2 f.pHeader = addr2 a.pHeader) :
    OfOneMsdu (fragsAt rcvd idx ++ [a.toRxBlk]) ∧
      (fragFrame.concatenate a.toRxBlk).lastFrag = (fragsAt rcvd idx).length ∧
      Mem.read (fragFrame.concatenate a.toRxBlk).pFragPacket 0
          (fragFrame.concatenate a.toRxBlk).rxSize =
        f.headers ++ ((fragsAt rcvd idx ++ [a.toRxBlk]).map RxBlk.payload).flatten := by
  obtain ⟨-, horder, -, -⟩ := hcarries
  have hinorder : Header.sequence a.pHeader = fragFrame.sequence ∧
      frag a.pHeader = fragFrame.lastFrag + 1 := by
    simpa [FragFrame.outOfOrder, not_or] using horder
  have hnum : frag a.pHeader = (fragsAt rcvd idx).length := hinorder.2.trans h.lastFrag
  have hmem : f ∈ fragsAt rcvd idx := List.mem_of_mem_head? h.head
  refine ⟨h.msdu.snoc hmem haddr (h.sequence.symm.trans hinorder.1.symm) hnum, hnum, ?_⟩
  rw [fragFrame.read_concatenate, h.buffer]
  simp

/-- Not the last one: the frame stays under way. -/
theorem UnderWay.concatenate (h : UnderWay rcvd fragFrame f idx)
    (hcarries : fragFrame.CarriesOn a.toRxBlk) (haddr : addr2 f.pHeader = addr2 a.pHeader)
    (hmore : moreFrag a.pHeader = true) :
    UnderWay (rcvd ++ [a]) (fragFrame.concatenate a.toRxBlk) f (idx ++ [rcvd.length]) := by
  obtain ⟨hmsdu, hlast, hbuffer⟩ := h.next hcarries haddr
  have hfrags : fragsAt (rcvd ++ [a]) (idx ++ [rcvd.length]) = fragsAt rcvd idx ++ [a.toRxBlk] :=
    fragsAt_append_last h.received
  constructor
  · intro i hi
    rw [List.length_append, List.length_singleton]
    rcases List.mem_append.1 hi with hi | hi
    · exact Nat.lt_succ_of_lt (h.received i hi)
    · rw [List.mem_singleton.1 hi]
      exact Nat.lt_succ_self _
  · rw [hfrags]
    exact hmsdu
  · rw [hfrags, List.head?_append, h.head]
    rfl
  · intro g hg
    rw [hfrags] at hg
    rcases List.mem_append.1 hg with hg | hg
    · exact h.more g hg
    · rw [List.mem_singleton.1 hg]
      exact hmore
  · exact h.sequence
  · rw [hfrags, hlast, List.length_append, List.length_singleton]
  · rw [hfrags]
    exact hbuffer

/-- The last one: what is returned is the concatenation of all. -/
theorem UnderWay.complete (h : UnderWay rcvd fragFrame f idx)
    (hcarries : fragFrame.CarriesOn a.toRxBlk) (haddr : addr2 f.pHeader = addr2 a.pHeader)
    (hmore : moreFrag a.pHeader = false) (hroom : f.pData = a.pData) :
    Concatenates (rcvd ++ [a]) (idx ++ [rcvd.length])
      ((fragFrame.concatenate a.toRxBlk).complete (UInt8.ofNat a.pData)) := by
  obtain ⟨hmsdu, -, hbuffer⟩ := h.next hcarries haddr
  have hfrags : fragsAt (rcvd ++ [a]) (idx ++ [rcvd.length]) = fragsAt rcvd idx ++ [a.toRxBlk] :=
    fragsAt_append_last h.received
  have hlarge : (fragFrame.concatenate a.toRxBlk).rxSize ≤ maxFrameSize := by
    obtain ⟨-, -, hlarge, -⟩ := hcarries
    simpa [FragFrame.tooLarge, FragFrame.concatenate] using hlarge
  obtain ⟨hheaders, hpayload⟩ := FragFrame.complete_of_buffer (a := a) hbuffer
    (by rw [RxBlk.length_headers, hroom]) hlarge
  constructor
  · simp
  · intro i hi
    rw [List.length_append, List.length_singleton]
    rcases List.mem_append.1 hi with hi | hi
    · exact Nat.lt_succ_of_lt (h.received i hi)
    · rw [List.mem_singleton.1 hi]
      exact Nat.lt_succ_self _
  · rw [hfrags]
    exact hmsdu
  · rw [hfrags]
    intro k hk
    rw [List.length_append, List.length_singleton] at hk ⊢
    rcases Nat.lt_or_ge k (fragsAt rcvd idx).length with hlt | hge
    · rw [List.getElem_append_left hlt, h.more _ (List.getElem_mem hlt)]
      exact (decide_eq_true (by omega)).symm
    · have hk' : k = (fragsAt rcvd idx).length := by omega
      subst hk'
      simpa using hmore
  · rw [hfrags, List.head?_append, h.head]
    exact congrArg some hheaders.symm
  · rw [hfrags]
    exact hpayload

end

/-! ## 6. Runs -/

/-- A fragment that is passed over leaves the frame under way. -/
theorem UnderWay.append {rcvd : List Fragment} {fragFrame : FragFrame} {f : RxBlk} {idx : List Nat}
    (h : UnderWay rcvd fragFrame f idx) (a : Fragment) :
    UnderWay (rcvd ++ [a]) fragFrame f idx := by
  have heq : fragsAt (rcvd ++ [a]) idx = fragsAt rcvd idx := fragsAt_append h.received
  constructor
  · intro i hi
    rw [List.length_append]
    exact Nat.lt_add_right _ (h.received i hi)
  · rw [heq]
    exact h.msdu
  · rw [heq]
    exact h.head
  · rw [heq]
    exact h.more
  · exact h.sequence
  · rw [heq]
    exact h.lastFrag
  · rw [heq]
    exact h.buffer

theorem lt_of_mem_flatten {rcvd : List Fragment} {idxs : List (List Nat)} {rets : List RxBlk}
    (h : List.Forall₂ (Concatenates rcvd) idxs rets) : ∀ i ∈ idxs.flatten, i < rcvd.length := by
  induction h with
  | nil => simp
  | cons hc _ ih =>
    intro i hi
    rw [List.flatten_cons] at hi
    rcases List.mem_append.1 hi with hi | hi
    · exact hc.received i hi
    · exact ih i hi

/-- The fragment received last comes behind all others. -/
theorem pairwise_append_last {idx : List Nat} {n : Nat} (h : idx.Pairwise (· < ·))
    (hlt : ∀ i ∈ idx, i < n) : (idx ++ [n]).Pairwise (· < ·) := by
  rw [List.pairwise_append]
  refine ⟨h, List.pairwise_singleton _ _, ?_⟩
  intro i hi j hj
  rw [List.mem_singleton.1 hj]
  exact hlt i hi

/-- **One step keeps the invariant** if it meets the condition. -/
theorem Coherent.step {rcvd : List Fragment} {w : Watch} {a : Fragment} (h : Coherent rcvd w)
    (hok : w.Sound a) : Coherent (rcvd ++ [a]) (w.step a) := by
  obtain ⟨⟨idxs, hreturned, hpairwise, hfirst⟩, hsize⟩ := h
  have hreturned' : List.Forall₂ (Concatenates (rcvd ++ [a])) idxs w.returned :=
    hreturned.imp fun _ _ hc => hc.append
  have hlt := lt_of_mem_flatten hreturned
  have hmax : maxFrameSize ≤ rxBufferNormSize := by decide
  rcases w.step_cases a with ⟨hfrag, hmore, heq⟩ | heq | ⟨fragFrame, heq⟩ | ⟨hcarries, hmore, heq⟩ |
    ⟨hcarries, hmore, fresh, heq⟩
  · -- a first fragment: whatever was under way is gone
    rw [heq]
    refine ⟨⟨idxs, hreturned', hpairwise, ?_⟩, ?_⟩
    · intro f hf
      rw [← Option.some_inj.1 hf]
      exact ⟨[rcvd.length], pairwise_append_last hpairwise hlt, .record hfrag hmore⟩
    · have hfits := hok.fits hfrag hmore
      rw [FragFrame.record, a.toNat_room, Nat.add_comm]
      exact hfits
  · -- passed over
    rw [heq]
    refine ⟨⟨idxs, hreturned', hpairwise, ?_⟩, hsize⟩
    intro f hf
    obtain ⟨idx, hidx, hunder⟩ := hfirst f hf
    exact ⟨idx, hidx, hunder.append a⟩
  · rw [heq]
    refine ⟨⟨idxs, hreturned', hpairwise, ?_⟩, Nat.zero_le _⟩
    intro f hf
    exact nomatch hf
  all_goals
    obtain ⟨f, hf, haddr, hroom⟩ := hok.carriesOn hcarries
    obtain ⟨idx, hidx, hunder⟩ := hfirst f hf
    have hlast : ((idxs.flatten ++ idx) ++ [rcvd.length]).Pairwise (· < ·) := by
      refine pairwise_append_last hidx ?_
      intro i hi
      rcases List.mem_append.1 hi with hi | hi
      · exact hlt i hi
      · exact hunder.received i hi
    have hlarge : (w.fragFrame.concatenate a.toRxBlk).rxSize ≤ rxBufferNormSize := by
      obtain ⟨-, -, hlarge, -⟩ := hcarries
      refine Nat.le_trans ?_ hmax
      simpa [FragFrame.tooLarge, FragFrame.concatenate] using hlarge
    rw [List.append_assoc] at hlast
  · rw [heq]
    refine ⟨⟨idxs, hreturned', hpairwise, ?_⟩, hlarge⟩
    intro g hg
    have hgf : f = g := Option.some_inj.1 (hf.symm.trans hg)
    subst hgf
    exact ⟨idx ++ [rcvd.length], hlast, hunder.concatenate hcarries haddr hmore⟩
  · rw [heq]
    refine ⟨⟨idxs ++ [idx ++ [rcvd.length]], ?_, ?_, ?_⟩, hlarge⟩
    · have hc := hunder.complete hcarries haddr hmore (hroom hmore)
      exact List.rel_append hreturned' (.cons hc .nil)
    · rw [List.flatten_append, List.flatten_singleton]
      exact hlast
    · intro g hg
      exact nomatch hg

theorem Coherent.start (mem : List UInt8) : Coherent [] (Watch.start mem) := by
  refine ⟨⟨[], .nil, List.Pairwise.nil, ?_⟩, Nat.zero_le _⟩
  intro f hf
  exact nomatch hf

/-- **What is returned is reassembled**, in every run whose steps meet the condition. -/
theorem assembled_of_sound {mem : List UInt8} {is : List Fragment}
    (h : Run.StepsMeet Watch.step Watch.Sound (Watch.start mem) is) :
    Assembled is (Run.final Reassembler.step (Reassembler.start mem) is) := by
  have hcoherent := Run.invariant_history Coherent (fun _ _ _ hinv hok => hinv.step hok)
    (Coherent.start mem) h
  rw [List.nil_append] at hcoherent
  have hfinal := final_toReassembler is (Watch.start mem)
  rw [show (Watch.start mem).toReassembler = Reassembler.start mem from rfl] at hfinal
  rw [← hfinal]
  obtain ⟨idxs, hreturned, hpairwise, -⟩ := hcoherent.assembled
  exact ⟨⟨idxs, hreturned, hpairwise⟩, hcoherent.size⟩

/-! ## 7. Two transmitters -/

namespace Example

/-- A fragment of sequence number 5 without a cipher. -/
def fragment (transmitter number : UInt8) (more : Bool) (text : List UInt8) : Fragment where
  pHeader := [0x08, if more then 0x04 else 0x00, 0, 0] ++ List.replicate 6 1 ++
    List.replicate 6 transmitter ++ List.replicate 6 3 ++ [0x50 + number, 0] ++ text
  pData := length80211
  dataSize := UInt16.ofNat text.length
  pNewFragPacket := some []
  room_lt := by decide

/-- One MSDU in three fragments, with a frame of another transmitter between them. -/
def oneMsdu : List Fragment :=
  [fragment 1 0 true [0xA0], fragment 1 1 true [0xA1], fragment 2 0 false [0xB0],
    fragment 1 2 false [0xA2]]

theorem assembled_oneMsdu :
    Assembled oneMsdu (Run.final Reassembler.step (Reassembler.start []) oneMsdu) := by
  refine assembled_of_sound ⟨⟨?_, ?_⟩, ⟨?_, ?_⟩, ⟨?_, ?_⟩, ⟨?_, ?_⟩, trivial⟩
  all_goals intro h
  · intro _
    decide
  · exact absurd rfl h.1
  · exact absurd h (by decide)
  · exact ⟨_, rfl, by decide, by decide⟩
  · intro hmore
    exact absurd hmore (by decide)
  · exact absurd rfl h.1
  · exact absurd h (by decide)
  · exact ⟨_, rfl, by decide, fun _ => rfl⟩

/-- The first fragment of one transmitter and the last one of another. -/
def twoTransmitters : List Fragment :=
  [fragment 1 0 true [0xA0], fragment 2 1 false [0xB1]]

/-- They are put together and returned. -/
theorem not_assembled_twoTransmitters :
    ¬ Assembled twoTransmitters
      (Run.final Reassembler.step (Reassembler.start []) twoTransmitters) := by
  rintro ⟨⟨idxs, hreturned, hpairwise⟩, -⟩
  have hone : (Run.final Reassembler.step (Reassembler.start []) twoTransmitters).returned =
      [{ pHeader := (fragment 1 0 true [0xA0, 0xB1]).pHeader, pData := 24, dataSize := 2 }] := by
    decide +kernel
  rw [hone] at hreturned
  obtain ⟨idx, rest, hc, hnil, rfl⟩ := List.forall₂_cons_right_iff.1 hreturned
  obtain rfl := List.forall₂_nil_right_iff.1 hnil
  have hsorted : idx.Pairwise (· < ·) := by simpa using hpairwise
  have hlt : ∀ i ∈ idx, i < 2 := hc.received
  rcases idx with _ | ⟨i, _ | ⟨j, idx⟩⟩
  · exact hc.nonempty rfl
  · -- alone, the first is not the last one and the second is not the first one
    have hi : i < 2 := hlt i (by simp)
    obtain rfl | rfl : i = 0 ∨ i = 1 := by omega
    · exact absurd (hc.more 0 (by decide)) (by decide)
    · exact absurd (hc.msdu.number 0 (by decide)) (by decide)
  · -- both are of two transmitters
    have hij : i < j := (List.pairwise_cons.1 hsorted).1 j (by simp)
    have hj : j < 2 := hlt j (by simp)
    obtain ⟨rfl, rfl⟩ : i = 0 ∧ j = 1 := by omega
    have hfrags : fragsAt twoTransmitters (0 :: 1 :: idx) =
        (fragment 1 0 true [0xA0]).toRxBlk :: (fragment 2 1 false [0xB1]).toRxBlk ::
          fragsAt twoTransmitters idx := rfl
    have htransmitter := hc.msdu.transmitter
    rw [hfrags] at htransmitter
    have hsame := htransmitter _ List.mem_cons_self _ (List.mem_cons_of_mem _ List.mem_cons_self)
    exact absurd hsame (by decide)

end Example

end Mt7601.Data
