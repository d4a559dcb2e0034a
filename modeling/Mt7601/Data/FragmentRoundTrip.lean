/-
# From the fragments of a packet back to its data

What `STA_Fragment_Frame_Tx` sends is a `Burst`: fragments that carry one piece of the data each and
number themselves, the last of them the one without the more-fragments bit. The loop makes nothing
but bursts, and the receiver makes the data of a burst out of it unless one of its own tests stops
it: `Admitted` is what these come to for a burst.

The counter of the loop has eight bits and the header it shortens after the first fragment is
shortened again at the 256th; the fragments of a frame the receiver has room for are 12 at most.
-/
import Mt7601.Data.FragmentTx

namespace Mt7601.Data

open Header

/-! ## 1. As the fragments are received -/

/-- The data of a fragment, with the cipher undone. -/
def TxFragment.data (swEncrypt : Option SoftCipher) (f : TxFragment) : List UInt8 :=
  match swEncrypt with
  | some s => s.decrypt f.wifiHdr (f.behind ++ f.srcBuf)
  | none => f.srcBuf

/-- What is behind the 802.11 and QoS headers of the MPDU, with the cipher undone. -/
def TxFragment.clear (swEncrypt : Option SoftCipher) (f : TxFragment) : List UInt8 :=
  let body := f.mpdu.drop (hdrLenOf f.qosControl)
  match swEncrypt with
  | some s => s.decrypt f.wifiHdr body
  | none => body

/-- What the receiver adds: padding behind the headers, the memory behind the frame, and the packet
that stands ready when the fragment completes a frame. -/
structure RxMem where
  l2pad : Bool
  behind : Nat → List UInt8
  pNewFragPacket : Nat → Option (List UInt8)

/-- The octets in front of the data. -/
def RxMem.room (rx : RxMem) (qosControl : Option (Octets 2)) : Nat :=
  hdrLenOf qosControl + if rx.l2pad then 2 else 0

theorem RxMem.room_lt (rx : RxMem) (qosControl : Option (Octets 2)) : rx.room qosControl < 256 := by
  rw [room, hdrLenOf, length80211]
  split_ifs <;> decide

/-- The `k`-th fragment as `RTMPDeFragmentDataFrame` gets it. -/
def RxMem.received (rx : RxMem) (swEncrypt : Option SoftCipher) (k : Nat) (f : TxFragment) :
    Fragment where
  pHeader := f.mpdu.take (hdrLenOf f.qosControl) ++ List.replicate (if rx.l2pad then 2 else 0) 0 ++
    (f.clear swEncrypt ++ rx.behind k)
  pData := rx.room f.qosControl
  dataSize := UInt16.ofNat (f.clear swEncrypt).length
  pNewFragPacket := rx.pNewFragPacket k
  room_lt := rx.room_lt f.qosControl

/-- The fragments from the `k`-th on, in order. -/
def RxMem.feed (rx : RxMem) (swEncrypt : Option SoftCipher) : Nat → List TxFragment → List Fragment
  | _, [] => []
  | k, f :: fs => rx.received swEncrypt k f :: rx.feed swEncrypt (k + 1) fs

/-! ## 2. Bursts -/

/-- `ext_len` -/
def extLenOf (swEncrypt : Option SoftCipher) : Nat :=
  match swEncrypt with
  | some s => s.extLen
  | none => 0

/-- The LLC/SNAP header that the `k`-th fragment has in front of its piece of the data. -/
def FragTx.llcAt (c : FragTx) (k : Nat) : List UInt8 :=
  if k = 0 ∧ c.swEncrypt.isNone then c.llc else []

/-- The fragment `f` is the `k`-th and carries the piece `piece`. -/
structure Carries (c : FragTx) (seq : Fin 4096) (k : Nat) (f : TxFragment) (piece : List UInt8) :
    Prop where
  frag : f.wifiHdr.frag.val = k % 16
  sequence : f.wifiHdr.sequence = seq
  qosControl : f.qosControl = c.qosControl
  size : f.mpduHeaderLen.toNat + f.srcBuf.length + lengthCrc ≤
    c.ad.fragmentThreshold.val + extLenOf c.swEncrypt
  data : f.data c.swEncrypt = piece
  piece_le : piece.length ≤ maxFragThreshold
  header : k ≤ 256 → ∃ rest, f.mpdu.take (hdrLenOf f.qosControl) = f.wifiHdr.octets ++ rest
  length_header : k ≤ 256 → (f.mpdu.take (hdrLenOf f.qosControl)).length = hdrLenOf f.qosControl
  clear : k ≤ 256 → f.clear c.swEncrypt = c.llcAt k ++ piece

/-- The least that a fragment carries that has another one behind it. -/
def minPiece : Nat := minFragThreshold - lengthCrc - (26 + maxIvHdr)

/-- `Burst c seq k src fs`: the fragments `fs` are numbers `k`, `k + 1`, ... and carry `src`. -/
inductive Burst (c : FragTx) (seq : Fin 4096) : Nat → List UInt8 → List TxFragment → Prop
  | last {k : Nat} {f : TxFragment} {src : List UInt8} (carries : Carries c seq k f src)
      (more : f.wifiHdr.moreFrag = false) : Burst c seq k src [f]
  | cons {k : Nat} {f : TxFragment} {fs : List TxFragment} {piece rest : List UInt8}
      (carries : Carries c seq k f piece) (more : f.wifiHdr.moreFrag = true)
      (least : k ≤ 256 → minPiece ≤ piece.length) (behind : Burst c seq (k + 1) rest fs) :
      Burst c seq k (piece ++ rest) (f :: fs)

section

variable {c : FragTx} {seq : Fin 4096} {k : Nat} {src : List UInt8} {fs : List TxFragment}

theorem Burst.length_pos (h : Burst c seq k src fs) : 0 < fs.length := by
  cases h <;> simp

/-- The numbers, and the more-fragments bits. -/
theorem Burst.number (h : Burst c seq k src fs) :
    ∀ (j : Nat) (hj : j < fs.length), fs[j].wifiHdr.frag.val = (k + j) % 16 ∧
      fs[j].wifiHdr.moreFrag = decide (j + 1 < fs.length) := by
  induction h with
  | last carries more =>
    intro j hj
    obtain rfl : j = 0 := by simpa using hj
    exact ⟨carries.frag, by simpa using more⟩
  | @cons k f fs piece rest carries more _ behind ih =>
    intro j hj
    cases j with
    | zero => exact ⟨carries.frag, by simpa [behind.length_pos] using more⟩
    | succ j =>
      obtain ⟨hfrag, hmore⟩ := ih j (by simpa using hj)
      refine ⟨?_, by simpa using hmore⟩
      rw [List.getElem_cons_succ, hfrag, Nat.add_right_comm, Nat.add_assoc]

theorem Burst.size (h : Burst c seq k src fs) :
    ∀ f ∈ fs, f.mpduHeaderLen.toNat + f.srcBuf.length + lengthCrc ≤
      c.ad.fragmentThreshold.val + extLenOf c.swEncrypt := by
  induction h with
  | last carries _ =>
    intro f hf
    rw [List.mem_singleton.1 hf]
    exact carries.size
  | cons carries _ _ _ ih =>
    intro f hf
    rcases List.mem_cons.1 hf with rfl | hf
    · exact carries.size
    · exact ih f hf

/-- The pieces are the data. -/
theorem Burst.data (h : Burst c seq k src fs) :
    (fs.map (TxFragment.data c.swEncrypt)).flatten = src := by
  induction h with
  | last carries _ => simp [carries.data]
  | cons carries _ _ _ ih => simp [carries.data, ih]

/-- Many fragments carry many octets. -/
theorem Burst.count (h : Burst c seq k src fs) :
    ∀ j, k + j ≤ 257 → j < fs.length → j * minPiece ≤ src.length := by
  induction h with
  | last _ _ =>
    intro j _ hj
    obtain rfl : j = 0 := by simpa using hj
    simp
  | @cons k f fs piece rest _ _ least _ ih =>
    intro j hk hj
    cases j with
    | zero => simp
    | succ j =>
      have hpiece := least (by omega)
      have hrest := ih j (by omega) (by simpa using hj)
      rw [List.length_append, Nat.succ_mul]
      omega

/-- **A frame the receiver has room for has 12 fragments at most.** -/
theorem Burst.length_le (h : Burst c seq 0 src fs) (hfits : src.length ≤ maxFrameSize) :
    fs.length ≤ 12 := by
  by_contra hlong
  have hcount := h.count 12 (by decide) (by omega)
  have hmax : maxFrameSize < 12 * minPiece := by decide
  omega

end

/-! ## 3. The loop makes bursts -/

namespace FragTx

variable {c : FragTx} {k : Nat} {mpduHeaderLen : UInt8}

theorem hdrLenOf_cases (qosControl : Option (Octets 2)) :
    hdrLenOf qosControl = 24 ∨ hdrLenOf qosControl = 26 := by
  cases qosControl with
  | none => exact .inl rfl
  | some _ => exact .inr rfl

/-- `MpduHeaderLen` in the `k`-th pass. -/
def LenAt (c : FragTx) (k : Nat) (mpduHeaderLen : UInt8) : Prop :=
  match c.swEncrypt with
  | some s => mpduHeaderLen.toNat = hdrLenOf c.qosControl + s.ivLen
  | none => mpduHeaderLen.toNat % 8 ≤ 2 ∧
      (k ≤ 256 → mpduHeaderLen.toNat = hdrLenOf c.qosControl + (c.llcAt k).length)

/-- An LLC/SNAP header, or none. -/
def LlcOk (c : FragTx) : Prop := c.llc = [] ∨ c.llc.length = 8

theorem lenAt_zero (hllc : c.LlcOk) : c.LenAt 0 (UInt8.ofNat c.headerLen) := by
  have hhdr := hdrLenOf_cases c.qosControl
  rw [LenAt, headerLen, behind, UInt8.toNat_ofNat']
  cases hsw : c.swEncrypt with
  | some s =>
    have hiv := s.ivLen_le
    rw [maxIvHdr] at hiv
    dsimp only
    rw [List.Vector.toList_length]
    omega
  | none =>
    dsimp only
    have hlen : c.llc.length = 0 ∨ c.llc.length = 8 := hllc.imp (by simp +contextual) id
    simp only [llcAt, hsw, Option.isNone_none, and_self, if_true]
    omega

theorem lenAt_next (hllc : c.LlcOk) (h : c.LenAt k mpduHeaderLen) :
    c.LenAt (k + 1) (c.nextHeaderLen k mpduHeaderLen) := by
  have hhdr := hdrLenOf_cases c.qosControl
  rw [LenAt] at h ⊢
  rw [nextHeaderLen]
  cases hsw : c.swEncrypt with
  | some s =>
    rw [hsw] at h
    simpa using h
  | none =>
    rw [hsw] at h
    obtain ⟨hmod, hlen⟩ := h
    have hzero : UInt8.ofNat k = 0 ↔ k % 256 = 0 := by
      rw [← UInt8.toNat_inj, UInt8.toNat_ofNat']
      rfl
    have hnext : (c.llcAt (k + 1)).length = 0 := by simp [llcAt]
    dsimp only
    rw [hnext]
    rcases hllc with hnil | h8
    · -- nothing is taken off
      have hat : (c.llcAt k).length = 0 := by simp [llcAt, hnil]
      rw [if_neg (by simp [hnil])]
      exact ⟨hmod, fun hk => (hlen (by omega)).trans (by rw [hat])⟩
    · have hne : c.llc ≠ [] := by
        intro hnil
        rw [hnil] at h8
        exact absurd h8 (by decide)
      by_cases hk : k % 256 = 0
      · rw [if_pos ⟨rfl, hzero.2 hk, hne⟩, UInt8.toNat_sub]
        have h8' : (UInt8.ofNat length8021H).toNat = 8 := rfl
        have hlt := mpduHeaderLen.toNat_lt
        rw [h8']
        refine ⟨by omega, fun hle => ?_⟩
        obtain rfl : k = 0 := by omega
        have hat : (c.llcAt 0).length = 8 := by simp [llcAt, hsw, h8]
        have hlen0 := hlen (by omega)
        omega
      · have hat : (c.llcAt k).length = 0 := by
          have hk0 : k ≠ 0 := by
            rintro rfl
            exact hk rfl
          simp [llcAt, hk0]
        rw [if_neg (by simp [hzero, hk])]
        exact ⟨hmod, fun hle => (hlen (by omega)).trans (by rw [hat])⟩

/-- There is always room for data. -/
theorem lt_freeMpduSize (h : c.LenAt k mpduHeaderLen) : 0 < c.freeMpduSize mpduHeaderLen := by
  have hhdr := hdrLenOf_cases c.qosControl
  have hmin := c.ad.fragmentThreshold.min_le
  have hlt := mpduHeaderLen.toNat_lt
  rw [minFragThreshold] at hmin
  rw [freeMpduSize, lengthCrc]
  rw [LenAt] at h
  cases hsw : c.swEncrypt with
  | some s =>
    have hiv := s.ivLen_le
    rw [maxIvHdr] at hiv
    rw [hsw] at h
    dsimp only at h
    omega
  | none =>
    rw [hsw] at h
    dsimp only at h
    omega

/-- ... and for some more in the passes that count. -/
theorem minPiece_le (hllc : c.LlcOk) (h : c.LenAt k mpduHeaderLen) (hk : k ≤ 256) :
    minPiece ≤ c.freeMpduSize mpduHeaderLen := by
  have hhdr := hdrLenOf_cases c.qosControl
  have hmin := c.ad.fragmentThreshold.min_le
  have hpiece : minPiece = 208 := rfl
  rw [minFragThreshold] at hmin
  rw [freeMpduSize, lengthCrc, hpiece]
  rw [LenAt] at h
  cases hsw : c.swEncrypt with
  | some s =>
    have hiv := s.ivLen_le
    rw [maxIvHdr] at hiv
    rw [hsw] at h
    dsimp only at h
    omega
  | none =>
    rw [hsw] at h
    dsimp only at h
    have hat : (c.llcAt k).length ≤ 8 := by
      rw [llcAt]
      split_ifs
      · rcases hllc with hnil | h8
        · simp [hnil]
        · exact Nat.le_of_eq h8
      · simp
    have hlen := h.2 hk
    omega

/-- What stands between the headers and the data in the `k`-th fragment. -/
def frontAt (c : FragTx) (k : Nat) : List UInt8 :=
  match c.swEncrypt with
  | some s => (s.iv k).toList
  | none => c.llcAt k

theorem take_behind (h : c.LenAt k mpduHeaderLen) (hk : k ≤ 256) :
    mpduHeaderLen.toNat = hdrLenOf c.qosControl + (c.frontAt k).length ∧
      (c.behind k).take (mpduHeaderLen.toNat - hdrLenOf c.qosControl) = c.frontAt k := by
  rw [LenAt] at h
  rw [frontAt, behind]
  cases hsw : c.swEncrypt with
  | some s =>
    rw [hsw] at h
    dsimp only at h ⊢
    rw [List.Vector.toList_length, h, Nat.add_sub_cancel_left]
    exact ⟨rfl, List.take_of_length_le (Nat.le_of_eq (s.iv k).toList_length)⟩
  | none =>
    rw [hsw] at h
    dsimp only at h ⊢
    have hlen := h.2 hk
    refine ⟨hlen, ?_⟩
    rw [hlen, Nat.add_sub_cancel_left, llcAt]
    split_ifs
    · exact List.take_length
    · rfl

/-- The QoS control field of every fragment. -/
def qosOctets (c : FragTx) : List UInt8 := (c.qosControl.map List.Vector.toList).getD []

theorem length_qosOctets (c : FragTx) : length80211 + c.qosOctets.length = hdrLenOf c.qosControl := by
  rw [qosOctets, hdrLenOf]
  cases c.qosControl with
  | none => rfl
  | some v => simp

section

variable {h : WifiHdr} {last : Bool} {piece : List UInt8}

/-- The MPDU of a fragment: headers, what stands between, data. -/
theorem mpdu_fragment (hlen : c.LenAt k mpduHeaderLen) (hk : k ≤ 256) :
    (c.fragment k h mpduHeaderLen last piece).mpdu =
      (h.octets ++ c.qosOctets) ++
        (c.frontAt k ++ (c.fragment k h mpduHeaderLen last piece).srcBuf) := by
  obtain ⟨hsum, htake⟩ := take_behind hlen hk
  have hhdr : (h.octets ++ c.qosOctets).length = hdrLenOf c.qosControl := by
    rw [List.length_append, WifiHdr.length_octets, length_qosOctets]
  have hbuf : (c.fragment k h mpduHeaderLen last piece).headerBuf =
      (h.octets ++ c.qosOctets) ++ c.behind k := rfl
  have hbufLen : (c.fragment k h mpduHeaderLen last piece).mpduHeaderLen = mpduHeaderLen := rfl
  rw [TxFragment.mpdu, hbuf, hbufLen, List.take_append, hhdr, htake,
    List.take_of_length_le (by omega), List.append_assoc]

/-- Front and data are what the receiver takes the cipher off. -/
theorem clear_front (c : FragTx) (k : Nat) (h : WifiHdr) (len : UInt8) (last : Bool)
    (piece : List UInt8) :
    (match c.swEncrypt with
      | some s => s.decrypt h (c.frontAt k ++ (c.fragment k h len last piece).srcBuf)
      | none => c.frontAt k ++ (c.fragment k h len last piece).srcBuf) = c.llcAt k ++ piece := by
  rw [frontAt, fragment, llcAt]
  cases hsw : c.swEncrypt with
  | some s => simp [s.decrypt_encrypt]
  | none => simp

/-- **One pass of the loop.** -/
theorem carries_fragment {seq : Fin 4096} (hlen : c.LenAt k mpduHeaderLen)
    (hfrag : h.frag.val = k % 16) (hseq : h.sequence = seq)
    (hpiece : piece.length ≤ c.freeMpduSize mpduHeaderLen) :
    Carries c seq k (c.fragment k h mpduHeaderLen last piece) piece := by
  have hfree := lt_freeMpduSize hlen
  rw [freeMpduSize, lengthCrc] at hfree hpiece
  have hmpdu := @mpdu_fragment _ _ _ h last piece hlen
  have hhdr : (h.octets ++ c.qosOctets).length = hdrLenOf c.qosControl := by
    rw [List.length_append, WifiHdr.length_octets, length_qosOctets]
  constructor
  · exact hfrag
  · exact hseq
  · rfl
  · have hsrc : (c.fragment k h mpduHeaderLen last piece).srcBuf.length =
        piece.length + extLenOf c.swEncrypt := by
      rw [fragment]
      cases c.swEncrypt with
      | some s => exact s.length_encrypt _ _ _
      | none => rfl
    rw [hsrc]
    change mpduHeaderLen.toNat + _ + 4 ≤ _
    omega
  · rw [fragment, behind]
    cases c.swEncrypt with
    | some s => exact s.decrypt_encrypt _ _ _
    | none => rfl
  · have hmax := c.ad.fragmentThreshold.le_max
    omega
  · intro hk
    rw [hmpdu hk]
    change ∃ rest, List.take (hdrLenOf c.qosControl) _ = _
    rw [List.take_left' hhdr]
    exact ⟨_, rfl⟩
  · intro hk
    rw [hmpdu hk]
    change (List.take (hdrLenOf c.qosControl) _).length = hdrLenOf c.qosControl
    rw [List.take_left' hhdr, hhdr]
  · intro hk
    have hclear := clear_front c k h mpduHeaderLen last piece
    change (match c.swEncrypt with
      | some s => s.decrypt h (List.drop (hdrLenOf c.qosControl) _)
      | none => List.drop (hdrLenOf c.qosControl) _) = _
    rw [hmpdu hk, List.drop_left' hhdr]
    exact hclear

end

/-- **The loop makes a burst** of the data it is given. -/
theorem burst_loop {seq : Fin 4096} (hllc : c.LlcOk) {h : WifiHdr} {shortPreamble : Bool}
    {src : List UInt8} (hlen : c.LenAt k mpduHeaderLen) (hfrag : h.frag.val = k % 16)
    (hseq : h.sequence = seq) :
    Burst c seq k src (c.loop k h mpduHeaderLen shortPreamble src) := by
  induction hn : src.length using Nat.strong_induction_on
    generalizing src k h mpduHeaderLen shortPreamble with
  | _ n ih =>
    have hfree := lt_freeMpduSize hlen
    rw [loop]
    dsimp only
    by_cases hlast : src.length ≤ c.freeMpduSize mpduHeaderLen
    · rw [if_pos hlast]
      exact .last (carries_fragment hlen hfrag hseq hlast) rfl
    · rw [if_neg hlast, if_neg (Nat.ne_of_gt hfree)]
      set free := c.freeMpduSize mpduHeaderLen with hset
      set more := c.moreHdr h shortPreamble (src.length - free) with hmore
      have htake : (src.take free).length = free := by
        rw [List.length_take, Nat.min_eq_left (by omega)]
      have hcarries : Carries c seq k (c.fragment k more mpduHeaderLen false (src.take free))
          (src.take free) :=
        carries_fragment hlen hfrag hseq (Nat.le_of_eq htake)
      have hdrop : (src.drop free).length < n := by
        rw [List.length_drop]
        omega
      have hfrag' : (more.frag + 1).val = (k + 1) % 16 := by
        rw [hmore, moreHdr, Fin.val_add, hfrag]
        simp [Nat.add_mod]
      have hrest : Burst c seq (k + 1) (src.drop free)
          (c.loop (k + 1) { more with frag := more.frag + 1 } (c.nextHeaderLen k mpduHeaderLen)
            false (src.drop free)) :=
        ih _ hdrop (lenAt_next hllc hlen) hfrag' hseq rfl
      have hleast : k ≤ 256 → minPiece ≤ (src.take free).length := by
        intro hk
        rw [htake]
        exact minPiece_le hllc hlen hk
      have hburst := Burst.cons hcarries rfl hleast hrest
      rwa [List.take_append_drop] at hburst

end FragTx

/-! ## 4. The receiver and a burst -/

/-- The frame under way is that of the burst: fragments `0` to `k` are in, and carry `taken`. -/
structure Buffered (fragFrame : FragFrame) (seq : Fin 4096) (k room : Nat) (taken : List UInt8) :
    Prop where
  sequence : fragFrame.sequence = seq.val
  lastFrag : fragFrame.lastFrag = k
  buffer : ∃ hdrs : List UInt8, hdrs.length = room ∧
    Mem.read fragFrame.pFragPacket 0 fragFrame.rxSize = hdrs ++ taken

/-- What the tests of the receiver come to for the fragments of a burst from the `k`-th on: none of
them begins like an LLC header, and a packet is to be had when the last one is in. -/
structure RxMem.Admits (rx : RxMem) (swEncrypt : Option SoftCipher) (k : Nat)
    (fs : List TxFragment) : Prop where
  nonempty : fs ≠ []
  noLlc : ∀ (j : Nat) (h : j < fs.length),
    anotherLlc (rx.received swEncrypt (k + j) fs[j]).toRxBlk = false
  packet : (rx.pNewFragPacket (k + fs.length - 1)).isSome = true

section

variable {rx : RxMem} {swEncrypt : Option SoftCipher} {c : FragTx} {seq : Fin 4096} {k : Nat}
  {f : TxFragment} {fs : List TxFragment} {piece src taken : List UInt8} {r : Reassembler}

theorem RxMem.admits_single :
    rx.Admits swEncrypt k [f] ↔ anotherLlc (rx.received swEncrypt k f).toRxBlk = false ∧
      (rx.pNewFragPacket k).isSome = true := by
  constructor
  · intro h
    exact ⟨h.noLlc 0 Nat.zero_lt_one, h.packet⟩
  · rintro ⟨hllc, hpacket⟩
    refine ⟨List.cons_ne_nil _ _, fun j hj => ?_, hpacket⟩
    obtain rfl : j = 0 := by simpa using hj
    exact hllc

theorem RxMem.admits_cons (hne : fs ≠ []) :
    rx.Admits swEncrypt k (f :: fs) ↔ anotherLlc (rx.received swEncrypt k f).toRxBlk = false ∧
      rx.Admits swEncrypt (k + 1) fs := by
  have hpos : 0 < fs.length := List.length_pos_iff.2 hne
  have hlast : k + (f :: fs).length - 1 = k + 1 + fs.length - 1 := by
    rw [List.length_cons]
    omega
  constructor
  · intro h
    refine ⟨h.noLlc 0 (Nat.succ_pos _), hne, fun j hj => ?_, hlast ▸ h.packet⟩
    have hnext := h.noLlc (j + 1) (Nat.succ_lt_succ hj)
    rwa [← Nat.add_assoc, Nat.add_right_comm] at hnext
  · rintro ⟨hllc, h⟩
    refine ⟨List.cons_ne_nil _ _, fun j hj => ?_, hlast ▸ h.packet⟩
    cases j with
    | zero => exact hllc
    | succ j =>
      have hnext := h.noLlc j (Nat.lt_of_succ_lt_succ hj)
      rwa [Nat.add_right_comm] at hnext

variable (rx) in
/-- **The fragment as it is received**: its number, its data, its headers. -/
theorem Carries.received (h : Carries c seq k f piece) (hllc : c.LlcOk) (hk : k < 16) :
    Header.frag (rx.received c.swEncrypt k f).pHeader = k ∧
      Header.sequence (rx.received c.swEncrypt k f).pHeader = seq.val ∧
      Header.moreFrag (rx.received c.swEncrypt k f).pHeader = f.wifiHdr.moreFrag ∧
      (rx.received c.swEncrypt k f).toRxBlk.payload = c.llcAt k ++ piece ∧
      (rx.received c.swEncrypt k f).pData = rx.room c.qosControl := by
  obtain ⟨rest, hrest⟩ := h.header (by omega)
  have hclear := h.clear (by omega)
  have hmem : (rx.received c.swEncrypt k f).pHeader = f.wifiHdr.octets ++ (rest ++
      (List.replicate (if rx.l2pad then 2 else 0) 0 ++ (f.clear c.swEncrypt ++ rx.behind k))) := by
    rw [RxMem.received, hrest]
    simp only [List.append_assoc]
  refine ⟨?_, ?_, ?_, ?_, ?_⟩
  · rw [hmem, WifiHdr.frag_octets, h.frag, Nat.mod_eq_of_lt hk]
  · rw [hmem, WifiHdr.sequence_octets, h.sequence]
  · rw [hmem, WifiHdr.moreFrag_octets]
  · have hsize : (UInt16.ofNat (f.clear c.swEncrypt).length).toNat =
        (f.clear c.swEncrypt).length := by
      have hpiece := h.piece_le
      have hmax : maxFragThreshold = 2346 := rfl
      have hfront : (c.llcAt k).length ≤ 8 := by
        rw [FragTx.llcAt]
        split_ifs
        · rcases hllc with hnil | h8
          · simp [hnil]
          · exact Nat.le_of_eq h8
        · exact Nat.zero_le _
      rw [UInt16.toNat_ofNat', hclear, List.length_append]
      exact Nat.mod_eq_of_lt (by omega)
    rw [← hclear]
    refine Mem.read_middle (f.mpdu.take (hdrLenOf f.qosControl) ++
      List.replicate (if rx.l2pad then 2 else 0) 0) (rx.behind k) rfl ?_ hsize
    rw [List.length_append, h.length_header (by omega), List.length_replicate]
    rfl
  · exact congrArg rx.room h.qosControl

/-- Fragments that are out of turn bring nothing back. -/
theorem Burst.stray (h : Burst c seq k src fs) (hllc : c.LlcOk) (hnum : k + fs.length ≤ 16)
    (hlast : r.fragFrame.lastFrag + 1 < k) :
    (Run.final Reassembler.step r (rx.feed c.swEncrypt k fs)).returned = r.returned := by
  have hreset : ∀ {k : Nat} {f : TxFragment} {piece : List UInt8} {r : Reassembler},
      Carries c seq k f piece → k < 16 → r.fragFrame.lastFrag + 1 < k →
      r.step (rx.received c.swEncrypt k f) = ⟨r.fragFrame.reset, r.returned⟩ := by
    intro k f piece r hcarries hk hlast
    obtain ⟨hfrag, -, -, -, -⟩ := hcarries.received rx hllc hk
    refine Reassembler.step_reset (by omega) (.inl ?_)
    rw [FragFrame.outOfOrder, decide_eq_true_eq, hfrag]
    exact .inr (by omega)
  induction h generalizing r with
  | @last k f src carries _ =>
    rw [RxMem.feed, RxMem.feed, Run.final_cons, Run.final_nil]
    rw [List.length_singleton] at hnum
    rw [hreset carries (by omega) hlast]
  | @cons k f fs piece rest carries _ _ behind ih =>
    rw [List.length_cons] at hnum
    have hpos := behind.length_pos
    rw [RxMem.feed, Run.final_cons, hreset carries (by omega) hlast]
    refine ih (by omega) ?_
    change 0 + 1 < k + 1
    omega

variable (rx) in
/-- A fragment in its turn passes the tests but that for the LLC header. -/
theorem Buffered.passes {room : Nat} (h : Buffered r.fragFrame seq k room taken)
    (hcarries : Carries c seq (k + 1) f piece) (hllc : c.LlcOk) (hk : k + 1 < 16)
    (hfits : room + taken.length + piece.length ≤ maxFrameSize) :
    frag (rx.received c.swEncrypt (k + 1) f).pHeader ≠ 0 ∧
      r.fragFrame.outOfOrder (rx.received c.swEncrypt (k + 1) f).toRxBlk = false ∧
      r.fragFrame.tooLarge (rx.received c.swEncrypt (k + 1) f).toRxBlk = false := by
  obtain ⟨hfrag, hseq, -, hpayload, -⟩ := hcarries.received rx hllc hk
  obtain ⟨hdrs, hroom, hbuffer⟩ := h.buffer
  have hsize := congrArg List.length hbuffer
  have hdata := congrArg List.length hpayload
  rw [Mem.length_read, List.length_append, hroom] at hsize
  rw [RxBlk.length_payload, List.length_append] at hdata
  have hfront : (c.llcAt (k + 1)).length = 0 := by simp [FragTx.llcAt]
  refine ⟨by omega, ?_, ?_⟩
  · simp [FragFrame.outOfOrder, hfrag, hseq, h.sequence, h.lastFrag]
  · rw [FragFrame.tooLarge, decide_eq_false_iff_not]
    omega

variable (rx) in
/-- ... and is put behind the others. -/
theorem Buffered.concatenate {room : Nat} (h : Buffered r.fragFrame seq k room taken)
    (hcarries : Carries c seq (k + 1) f piece) (hllc : c.LlcOk) (hk : k + 1 < 16) :
    Buffered (r.fragFrame.concatenate (rx.received c.swEncrypt (k + 1) f).toRxBlk) seq (k + 1) room
      (taken ++ piece) := by
  obtain ⟨hfrag, -, -, hpayload, -⟩ := hcarries.received rx hllc hk
  obtain ⟨hdrs, hroom, hbuffer⟩ := h.buffer
  have hfront : c.llcAt (k + 1) = [] := by simp [FragTx.llcAt]
  refine ⟨h.sequence, hfrag, hdrs, hroom, ?_⟩
  rw [FragFrame.read_concatenate, hbuffer, hpayload, hfront, List.nil_append, List.append_assoc]

/-- **The rest of a burst whose first fragments are in**: what comes back is the data of all of it
if the tests of the receiver let it through, and nothing otherwise. -/
theorem Burst.returned (h : Burst c seq k src fs) (hllc : c.LlcOk) {j : Nat} (hj : k = j + 1)
    (hnum : k + fs.length ≤ 16)
    (hbuf : Buffered r.fragFrame seq j (rx.room c.qosControl) taken)
    (hfits : rx.room c.qosControl + taken.length + src.length ≤ maxFrameSize) :
    (rx.Admits c.swEncrypt k fs → ∃ ret,
      (Run.final Reassembler.step r (rx.feed c.swEncrypt k fs)).returned = r.returned ++ [ret] ∧
        ret.payload = taken ++ src) ∧
    (¬ rx.Admits c.swEncrypt k fs →
      (Run.final Reassembler.step r (rx.feed c.swEncrypt k fs)).returned = r.returned) := by
  induction h generalizing r taken j with
  | @last k f src carries more =>
    subst hj
    rw [List.length_singleton] at hnum
    obtain ⟨hfrag, horder, hlarge⟩ := hbuf.passes rx carries hllc (by omega) hfits
    obtain ⟨-, -, hmore, -, hroom⟩ := carries.received rx hllc (by omega)
    rw [RxMem.feed, RxMem.feed, Run.final_cons, Run.final_nil, RxMem.admits_single]
    by_cases hstray : anotherLlc (rx.received c.swEncrypt (j + 1) f).toRxBlk = true
    · rw [Reassembler.step_anotherLlc hfrag horder hlarge hstray, hstray]
      simp
    rw [Bool.not_eq_true] at hstray
    have hcarries : r.fragFrame.CarriesOn (rx.received c.swEncrypt (j + 1) f).toRxBlk :=
      ⟨hfrag, horder, hlarge, hstray⟩
    cases hpacket : rx.pNewFragPacket (j + 1) with
    | none =>
      rw [Reassembler.step_noPacket hcarries (hmore.trans more) hpacket]
      simp
    | some fresh =>
      rw [Reassembler.step_last hcarries (hmore.trans more) hpacket]
      refine ⟨fun _ => ⟨_, rfl, ?_⟩, fun hno => absurd ⟨hstray, rfl⟩ hno⟩
      obtain ⟨hdrs, hlen, hbuffer⟩ := (hbuf.concatenate rx carries hllc (by omega)).buffer
      have hsize := congrArg List.length hbuffer
      rw [Mem.length_read, List.length_append, List.length_append, hlen] at hsize
      exact (FragFrame.complete_of_buffer hbuffer (hlen.trans hroom.symm) (by omega)).2
  | @cons k f fs piece rest carries more _ behind ih =>
    subst hj
    have hpos := behind.length_pos
    have hne : fs ≠ [] := List.length_pos_iff.1 hpos
    rw [List.length_cons] at hnum
    rw [List.length_append] at hfits
    obtain ⟨hfrag, horder, hlarge⟩ := hbuf.passes rx carries hllc (by omega) (by omega)
    obtain ⟨-, -, hmore, -, -⟩ := carries.received rx hllc (by omega)
    rw [RxMem.feed, Run.final_cons, RxMem.admits_cons hne]
    by_cases hstray : anotherLlc (rx.received c.swEncrypt (j + 1) f).toRxBlk = true
    · -- the fragment is left out, and those behind it are out of turn
      rw [Reassembler.step_anotherLlc hfrag horder hlarge hstray, hstray]
      have hlast : r.fragFrame.lastFrag + 1 < j + 1 + 1 := by
        rw [hbuf.lastFrag]
        omega
      simp [behind.stray hllc (by omega) hlast]
    rw [Bool.not_eq_true] at hstray
    have hcarries : r.fragFrame.CarriesOn (rx.received c.swEncrypt (j + 1) f).toRxBlk :=
      ⟨hfrag, horder, hlarge, hstray⟩
    have hnext : Buffered (r.fragFrame.concatenate (rx.received c.swEncrypt (j + 1) f).toRxBlk) seq
        (j + 1) (rx.room c.qosControl) (taken ++ piece) :=
      hbuf.concatenate rx carries hllc (by omega)
    have hfits' : rx.room c.qosControl + (taken ++ piece).length + rest.length ≤ maxFrameSize := by
      rw [List.length_append]
      omega
    rw [Reassembler.step_next hcarries (hmore.trans more), and_iff_right hstray,
      ← List.append_assoc]
    exact ih rfl (by omega) hnext hfits'

end

/-! ## 5. A packet sent and received -/

theorem llcOk_fragTxOf (ad : FragAdapter) (entry : TxEntry) (env : FragEnv)
    (swEncrypt : Option SoftCipher) (pPacket : QueuedPacket) :
    (fragTxOf ad entry env swEncrypt pPacket).1.LlcOk := by
  rw [FragTx.LlcOk, fragTxOf]
  dsimp only
  rw [fragLlcSnap, extraLlcSnapEncap]
  split_ifs
  all_goals first
    | exact .inl rfl
    | exact .inr (by rw [List.length_append, Mem.length_read]; rfl)

/-- **What the loop sends is a burst** of the data it is given. -/
theorem burst_staFragmentFrameTx {ad : FragAdapter} {entry : TxEntry} (seqs : TxSeqs)
    {env : FragEnv} {swEncrypt : Option SoftCipher} {pPacket : QueuedPacket}
    (hsuffices : env.suffices (fragTxOf ad entry env swEncrypt pPacket).1 = true) :
    ∃ seq, Burst (fragTxOf ad entry env swEncrypt pPacket).1 seq 0
      (fragTxOf ad entry env swEncrypt pPacket).2
      (staFragmentFrameTx ad entry seqs env swEncrypt pPacket).1 := by
  have hllc := llcOk_fragTxOf ad entry env swEncrypt pPacket
  refine ⟨(staBuildCommon80211Header ad.toTxAdapter seqs
    (fragTxOf ad entry env swEncrypt pPacket).1.pTxBlk
    (fragTxOf ad entry env swEncrypt pPacket).1.cipherAlg).1.sequence, ?_⟩
  rw [staFragmentFrameTx, if_pos hsuffices]
  refine FragTx.burst_loop hllc (FragTx.lenAt_zero hllc) ?_ rfl
  rw [staBuildCommon80211Header]
  dsimp only
  split_ifs <;> rfl

/-- The first fragment puts the frame under way. -/
theorem Carries.record {c : FragTx} {seq : Fin 4096} {f : TxFragment} {piece : List UInt8}
    {rx : RxMem} (h : Carries c seq 0 f piece) (hllc : c.LlcOk) (fragFrame : FragFrame) :
    Buffered (fragFrame.record (rx.received c.swEncrypt 0 f).toRxBlk
      (UInt8.ofNat (rx.received c.swEncrypt 0 f).pData)) seq 0 (rx.room c.qosControl)
      (c.llcAt 0 ++ piece) := by
  obtain ⟨hfrag, hseq, -, hpayload, hroom⟩ := h.received rx hllc (by decide)
  refine ⟨hseq, hfrag, (rx.received c.swEncrypt 0 f).toRxBlk.headers, ?_, ?_⟩
  · rw [RxBlk.length_headers, hroom]
  · rw [FragFrame.read_record, hpayload]

/-- **A whole burst** that the receiver has room for. -/
theorem Burst.reassembled {c : FragTx} {seq : Fin 4096} {src : List UInt8} {fs : List TxFragment}
    {rx : RxMem} {r : Reassembler} (h : Burst c seq 0 src fs) (hllc : c.LlcOk)
    (hfits : rx.room c.qosControl + (c.llcAt 0 ++ src).length ≤ maxFrameSize) :
    (∃ ret, (Run.final Reassembler.step r (rx.feed c.swEncrypt 0 fs)).returned =
        r.returned ++ [ret] ∧ ret.payload = c.llcAt 0 ++ src) ↔
      rx.Admits c.swEncrypt 1 fs.tail := by
  rw [List.length_append] at hfits
  have hlength := h.length_le (by omega)
  cases h with
  | last carries more =>
    obtain ⟨hfrag, -, hmore, -, -⟩ := carries.received rx hllc (by decide)
    rw [RxMem.feed, RxMem.feed, Run.final_cons, Run.final_nil,
      Reassembler.step_single hfrag (hmore.trans more)]
    constructor
    · rintro ⟨ret, hret, -⟩
      simp at hret
    · intro hadmits
      exact absurd rfl hadmits.nonempty
  | cons carries more _ behind =>
    obtain ⟨hfrag, -, hmore, -, -⟩ := carries.received rx hllc (by decide)
    rw [List.length_cons] at hlength
    rw [List.length_append] at hfits
    rw [RxMem.feed, Run.final_cons, Reassembler.step_first hfrag (hmore.trans more), List.tail_cons,
      ← List.append_assoc]
    obtain ⟨hadmitted, hstopped⟩ := behind.returned (r := ⟨_, r.returned⟩) hllc rfl
      (by omega) (carries.record hllc r.fragFrame : Buffered _ _ _ (rx.room c.qosControl) _)
      (by rw [List.length_append]; omega)
    constructor
    · rintro ⟨ret, hret, -⟩
      by_contra hno
      have heq : r.returned = r.returned ++ [ret] := (hstopped hno).symm.trans hret
      simp at heq
    · exact hadmitted

/-- The MSDU, by what the burst starts with. -/
theorem msduOf_eq (ad : FragAdapter) (entry : TxEntry) (env : FragEnv)
    (swEncrypt : Option SoftCipher) (pPacket : QueuedPacket) :
    msduOf ad entry env swEncrypt pPacket =
      (fragTxOf ad entry env swEncrypt pPacket).1.llcAt 0 ++
        (fragTxOf ad entry env swEncrypt pPacket).2 := by
  rw [msduOf, FragTx.llcAt]
  cases swEncrypt <;> rfl

namespace Example

/-- A station that sends in the clear, at the lowest threshold. -/
def sender : FragAdapter where
  bssid := .zero macAddrLen
  currentAddress := .zero macAddrLen
  bssInfra := true
  adhocOn := false
  bApsdForcePowerSave := false
  psm := false
  authMode := .openSystem
  pairCipher := .wepDisabled
  groupCipher := .wepDisabled
  portSecured := .secured
  wpaSupplicantUp := false
  ieee8021X := false
  defaultKeyId := 0
  sharedKey _ := ⟨.none, 0⟩
  ackPolicy _ := 0
  wmmInUsed := false
  bRdg := false
  bMimoPsEnable := true
  txBaSize := 0
  recomWidth := false
  mcastHtPhyMode := ⟨0, false, false, 0, .cck⟩
  fragmentThreshold := ⟨256, by decide, by decide⟩
  dsifs := 10
  expectedAckRate _ := 0
  shortPreamble := false

/-- The access point, as an entry. -/
def accessPoint : TxEntry where
  wcid := 1
  htPhyMode := ⟨7, false, false, 0, .ofdm⟩
  bAutoTxRateSwitch := true
  mmpsMode := .enable
  mpduDensity := 0
  noBaDataCountDown := 0
  baWinSize _ := 0
  wmmCapable := false
  rdgCapable := false
  piggybackCapable := false
  ralinkChipset := false
  htSta := false
  htRate := false

/-- An IP packet with `text` in it. -/
def ipPacket (text : List UInt8) : QueuedPacket where
  pSrcBufHeader := List.replicate 12 2 ++ [0x08, 0x00] ++ text
  srcBufLen := length8023 + text.length
  vlan := false
  userPriority := 0
  queIdx := 0
  eapol := false
  clearEapFrame := false
  lowRate := false
  moreData := false

/-- The first fragment takes 220 octets, the second one begins with the six of `SNAP_802_1H`. -/
def llcBehind : QueuedPacket :=
  ipPacket (List.replicate 220 0x41 ++ snap8021H ++ [0x08, 0x00])

end Example

end Mt7601.Data
