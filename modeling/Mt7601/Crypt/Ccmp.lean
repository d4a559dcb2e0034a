/-
# CCMP in software

`RTMPConstructCCMPAAD`, `RTMPConstructCCMPNonce`, `RTMPConstructCCMPHdr`, `RTMPSoftEncryptCCMP` and
`RTMPSoftDecryptCCMP` of `common/cmm_aes.c`. `pHdr` is the memory from the 802.11 header on and
`pData` that from the CCMP header on; the receiver deciphers into `pData` itself, so the text moves
over the CCMP header.

Both directions make the associated data and the nonce out of the header, the receiver taking the
packet number from the CCMP header (`rtmpSoftDecryptCcmp_eq`). Of the header only what an access
point leaves alone goes into them (`InFlight.ccmpMode`), and a frame that was sent is received
(`rtmpSoftDecryptCcmp_rtmpSoftEncryptCcmp`).
-/
import Mt7601.Crypt.AesCcm
import Mt7601.Wpa.Defs

namespace Mt7601.Crypt

open Wpa (CipherKey)

/-- `LEN_CCMP_HDR` -/
def lenCcmpHdr : Nat := 8
/-- `LEN_CCMP_MIC` -/
def lenCcmpMic : Nat := 8

/-! ## 1. The header -/

section

variable (pHdr : List UInt8)

def frameType : UInt8 := (pHdr.getD 0 0 >>> 2) &&& 0x03

def frameSubtype : UInt8 := (pHdr.getD 0 0 >>> 4) &&& 0x0f

/-- `from_ds & to_ds` -/
def a4Exists : Bool := ((pHdr.getD 1 0 &&& 0x2) >>> 1) &&& (pHdr.getD 1 0 &&& 0x1) ≠ 0

/-- `frame_type == BTYPE_DATA` -/
def isDataFrame : Bool := frameType pHdr = 2

/-- One of the four subtypes `SUBTYPE_QDATA` to `SUBTYPE_QDATA_CFACK_CFPOLL`. -/
def qosSubtype : Bool :=
  frameSubtype pHdr = 8 ∨ frameSubtype pHdr = 9 ∨ frameSubtype pHdr = 10 ∨ frameSubtype pHdr = 11

/-- `qc_exists` of the CCMP functions. -/
def qcExists : Bool := isDataFrame pHdr && qosSubtype pHdr

/-- `RTMPConstructCCMPAAD` -/
def rtmpConstructCcmpAad (isDataFrame a4Exists qcExists : Bool) : List UInt8 :=
  [if isDataFrame then pHdr.getD 0 0 &&& 0x8f else pHdr.getD 0 0,
      (pHdr.getD 1 0 &&& 0xc7) ||| 0x40] ++
    Mem.read pHdr 4 18 ++ [pHdr.getD 22 0 &&& 0x0f, 0x00] ++
    (if a4Exists then Mem.read pHdr 24 6 else []) ++
    (if qcExists && a4Exists then [pHdr.getD 30 0 &&& 0x0f, 0x00]
    else if qcExists && !a4Exists then [pHdr.getD 24 0 &&& 0x0f, 0x00]
    else [])

/-- `RTMPConstructCCMPNonce`, into octets that were zero. -/
def rtmpConstructCcmpNonce (a4Exists qcExists : Bool) (pn : Octets 6) : List UInt8 :=
  (if qcExists && a4Exists then pHdr.getD 30 0 &&& 0x0f
    else if qcExists && !a4Exists then pHdr.getD 24 0 &&& 0x0f
    else 0) ::
    (Mem.read pHdr 10 6 ++ pn.toList.reverse)

end

/-- `RTMPConstructCCMPHdr` -/
def rtmpConstructCcmpHdr (keyIdx : UInt8) (pn : Octets 6) : List UInt8 :=
  [pn.get 0, pn.get 1, 0, (keyIdx <<< 6) ||| 0x20, pn.get 2, pn.get 3, pn.get 4, pn.get 5]

/-! ## 2. The two directions -/

/-- `RTMPSoftEncryptCCMP`: the memory at `pData` once it has done. -/
def rtmpSoftEncryptCcmp (pHdr : List UInt8) (pIV : Octets 6) (pKey : Octets 16)
    (pData : List UInt8) (dataLen : Nat) : Option (List UInt8) :=
  let a4 := a4Exists pHdr
  let qc := qcExists pHdr
  let aadHdr := rtmpConstructCcmpAad pHdr (isDataFrame pHdr) a4 qc
  let nonceHdr := rtmpConstructCcmpNonce pHdr a4 qc pIV
  match aesCcmEncrypt pData 0 dataLen pKey.toList nonceHdr aadHdr lenCcmpMic 0 (dataLen + 8) with
  | .ok (pData, _) => some pData
  | .error _ => none

/-- `pn`, from the CCMP header. -/
def ccmpPn (pData : List UInt8) : Octets 6 :=
  ⟨[pData.getD 0 0, pData.getD 1 0, pData.getD 4 0, pData.getD 5 0, pData.getD 6 0,
    pData.getD 7 0], rfl⟩

/-- `RTMPSoftDecryptCCMP`: the memory at `pData` and `*DataLen`. -/
def rtmpSoftDecryptCcmp (pHdr : List UInt8) (pKey : CipherKey) (pData : List UInt8)
    (dataLen : UInt16) : Option (List UInt8 × UInt16) :=
  if pKey.keyLen = 0 then none
  else
    let a4 := a4Exists pHdr
    let qc := qcExists pHdr
    let cipherDataLen := uintSub dataLen.toNat lenCcmpHdr
    let aadHdr := rtmpConstructCcmpAad pHdr (isDataFrame pHdr) a4 qc
    let nonceHdr := rtmpConstructCcmpNonce pHdr a4 qc (ccmpPn pData)
    match aesCcmDecrypt pData lenCcmpHdr cipherDataLen pKey.key.toList nonceHdr aadHdr lenCcmpMic 0
      dataLen.toNat with
    | .ok (pData, outLen) => some (pData, UInt16.ofNat outLen)
    | .error _ => none

/-- The mode of both, at a header, a key and a packet number. -/
def ccmpMode (pHdr : List UInt8) (key : Octets 16) (pn : Octets 6) : Ccm.Mode :=
  aesCcmMode key (rtmpConstructCcmpNonce pHdr (a4Exists pHdr) (qcExists pHdr) pn)
    (rtmpConstructCcmpAad pHdr (isDataFrame pHdr) (a4Exists pHdr) (qcExists pHdr)) lenCcmpMic

@[simp] theorem length_rtmpConstructCcmpNonce (pHdr : List UInt8) (a4 qc : Bool) (pn : Octets 6) :
    (rtmpConstructCcmpNonce pHdr a4 qc pn).length = 13 := by
  simp [rtmpConstructCcmpNonce]

@[simp] theorem ccmpPn_rtmpConstructCcmpHdr (keyIdx : UInt8) (l : List UInt8) :
    ∀ pn : Octets 6, ccmpPn (rtmpConstructCcmpHdr keyIdx pn ++ l) = pn
  | ⟨[_, _, _, _, _, _], _⟩ => rfl

theorem rtmpSoftEncryptCcmp_eq (pHdr : List UInt8) (pIV : Octets 6) (pKey : Octets 16)
    (pData : List UInt8) (dataLen : Nat) :
    rtmpSoftEncryptCcmp pHdr pIV pKey pData dataLen =
      some (Mem.write pData 0
        ((ccmpMode pHdr pKey pIV).sealed lenCcmpMic (Mem.read pData 0 dataLen))) := by
  rw [rtmpSoftEncryptCcmp, aesCcmEncrypt_eq (by simp) (by decide) (.inl (Nat.le_refl 0)) (Nat.zero_le _)
    (by rw [lenCcmpMic])]
  rfl

/-- **`RTMPSoftDecryptCCMP`** opens what is behind the CCMP header and puts it over it. -/
theorem rtmpSoftDecryptCcmp_eq (pHdr : List UInt8) {pKey : CipherKey} (pData : List UInt8)
    {dataLen : UInt16} (hkey : pKey.keyLen ≠ 0) (hlen : 16 ≤ dataLen.toNat) :
    rtmpSoftDecryptCcmp pHdr pKey pData dataLen =
      ((ccmpMode pHdr pKey.key (ccmpPn pData)).opened lenCcmpMic
        (Mem.read pData 8 (dataLen.toNat - 8))).map
          fun l => (Mem.write pData 0 l, UInt16.ofNat l.length) := by
  have hmax := dataLen.toNat_lt
  have hsub : uintSub dataLen.toNat lenCcmpHdr = dataLen.toNat - 8 :=
    uintSub_eq (by rw [lenCcmpHdr]; omega) (by omega)
  rw [rtmpSoftDecryptCcmp, if_neg hkey]
  dsimp only
  rw [hsub, aesCcmDecrypt_eq (by simp) (by decide) (.inl (Nat.zero_le _)) (Nat.zero_le _)
    (by rw [lenCcmpMic]; omega) (by omega) (by omega), ← ccmpMode, lenCcmpHdr]
  cases (ccmpMode pHdr pKey.key (ccmpPn pData)).opened lenCcmpMic
    (Mem.read pData 8 (dataLen.toNat - 8)) with
  | none => rfl
  | some l => rfl

/-! ## 3. What may change in flight -/

/-- The second header is the first but for the retry, power management and more data bits, the
duration and the sequence number. -/
structure InFlight (pHdr pHdr' : List UInt8) : Prop where
  fc0 : pHdr'.getD 0 0 = pHdr.getD 0 0
  fc1 : pHdr'.getD 1 0 &&& 0xc7 = pHdr.getD 1 0 &&& 0xc7
  frag : pHdr'.getD 22 0 &&& 0x0f = pHdr.getD 22 0 &&& 0x0f
  addresses : Mem.read pHdr' 4 18 = Mem.read pHdr 4 18
  behind : Mem.read pHdr' 24 8 = Mem.read pHdr 24 8

/-- The flags of the distribution system are none of the bits that change. -/
theorem InFlight.a4Exists {pHdr pHdr' : List UInt8} (h : InFlight pHdr pHdr') :
    a4Exists pHdr' = a4Exists pHdr := by
  have hmask : ∀ b m : UInt8, 0xc7 &&& m = m → b &&& m = (b &&& 0xc7) &&& m := by
    intro b m hm
    rw [UInt8.and_assoc, hm]
  rw [Crypt.a4Exists, Crypt.a4Exists, hmask _ 0x2 (by decide), hmask _ 0x1 (by decide), h.fc1,
    ← hmask _ 0x2 (by decide), ← hmask _ 0x1 (by decide)]

/-- A read of part of what stands behind the addresses. -/
theorem InFlight.getD_behind {pHdr pHdr' : List UInt8} (h : InFlight pHdr pHdr') {i : Nat}
    (hi : i < 8) : pHdr'.getD (24 + i) 0 = pHdr.getD (24 + i) 0 := by
  rw [← Mem.getD_read pHdr' 24 hi, ← Mem.getD_read pHdr 24 hi, h.behind]

theorem InFlight.read_addr2 {pHdr pHdr' : List UInt8} (h : InFlight pHdr pHdr') :
    Mem.read pHdr' 10 6 = Mem.read pHdr 10 6 := by
  have hcut : ∀ l : List UInt8, Mem.read l 10 6 = ((Mem.read l 4 18).drop 6).take 6 := by
    intro l
    have h6 := Mem.read_add l 4 6 12
    have h12 := Mem.read_add l 10 6 6
    rw [show 4 + 6 = 10 from rfl] at h6
    rw [show (6 + 12 : Nat) = 18 from rfl] at h6
    rw [h6, show (12 : Nat) = 6 + 6 from rfl, h12, List.drop_left' (Mem.length_read _ _ _),
      List.take_left' (Mem.length_read _ _ _)]
  rw [hcut, hcut, h.addresses]

theorem InFlight.read_addr4 {pHdr pHdr' : List UInt8} (h : InFlight pHdr pHdr') :
    Mem.read pHdr' 24 6 = Mem.read pHdr 24 6 := by
  have hcut : ∀ l : List UInt8, Mem.read l 24 6 = (Mem.read l 24 8).take 6 := by
    intro l
    rw [show (8 : Nat) = 6 + 2 from rfl, Mem.read_add, List.take_left' (Mem.length_read _ _ _)]
  rw [hcut, hcut, h.behind]

/-- **The receiver does not see what changes**, in any frame. -/
theorem InFlight.rtmpSoftDecryptCcmp {pHdr pHdr' : List UInt8} (h : InFlight pHdr pHdr')
    (pKey : CipherKey) (pData : List UInt8) (dataLen : UInt16) :
    rtmpSoftDecryptCcmp pHdr' pKey pData dataLen =
      rtmpSoftDecryptCcmp pHdr pKey pData dataLen := by
  have hdata : isDataFrame pHdr' = isDataFrame pHdr := by
    rw [isDataFrame, isDataFrame, frameType, frameType, h.fc0]
  have hqc : qcExists pHdr' = qcExists pHdr := by
    rw [qcExists, qcExists, hdata, qosSubtype, qosSubtype, frameSubtype, frameSubtype, h.fc0]
  have h24 := h.getD_behind (i := 0) (by decide)
  have h30 := h.getD_behind (i := 6) (by decide)
  rw [Crypt.rtmpSoftDecryptCcmp, Crypt.rtmpSoftDecryptCcmp, hdata, hqc, h.a4Exists]
  simp only [rtmpConstructCcmpAad, rtmpConstructCcmpNonce, h.fc0, h.fc1, h.frag, h.addresses,
    h.read_addr2, h.read_addr4, h24, h30]

/-! ## 4. Sent and received -/

/-- **A frame that is sent is received**: whatever the header and whatever stands behind the text in
the memory of either side. What may change in flight makes no difference, to this frame or to any
other. -/
theorem rtmpSoftDecryptCcmp_rtmpSoftEncryptCcmp (pHdr : List UInt8) (keyIdx : UInt8)
    (pn : Octets 6) (pKey : CipherKey) (hkey : pKey.keyLen ≠ 0) (payload : List UInt8)
    (hlen : payload.length + 16 < 2 ^ 16) :
    (∀ room rest : List UInt8, ∃ cipher plain,
      rtmpSoftEncryptCcmp pHdr pn pKey.key (payload ++ room) payload.length = some cipher ∧
      rtmpSoftDecryptCcmp pHdr pKey
          (rtmpConstructCcmpHdr keyIdx pn ++ Mem.read cipher 0 (payload.length + 8) ++ rest)
          (UInt16.ofNat (payload.length + 16)) =
        some (plain, UInt16.ofNat payload.length) ∧
      Mem.read plain 0 payload.length = payload) ∧
    ∀ pHdr' : List UInt8, InFlight pHdr pHdr' → ∀ (pData : List UInt8) (dataLen : UInt16),
      rtmpSoftDecryptCcmp pHdr' pKey pData dataLen =
        rtmpSoftDecryptCcmp pHdr pKey pData dataLen := by
  refine ⟨?_, fun pHdr' h => h.rtmpSoftDecryptCcmp pKey⟩
  intro room rest
  have hread : Mem.read (payload ++ room) 0 payload.length = payload := Mem.read_zero_of_append
  set M := ccmpMode pHdr pKey.key pn with hM
  have hsealed : (M.sealed lenCcmpMic payload).length = payload.length + 8 :=
    M.length_sealed (by decide) payload
  have hcipher : Mem.read (Mem.write (payload ++ room) 0 (M.sealed lenCcmpMic payload)) 0
      (payload.length + 8) = M.sealed lenCcmpMic payload := by
    rw [← hsealed]
    exact Mem.read_write _ _ _
  set frame := rtmpConstructCcmpHdr keyIdx pn ++ (M.sealed lenCcmpMic payload ++ rest) with hframe
  have hbody : Mem.read frame 8 (payload.length + 16 - 8) = M.sealed lenCcmpMic payload :=
    Mem.read_middle (rtmpConstructCcmpHdr keyIdx pn) rest hframe rfl (by omega)
  have hsize : (UInt16.ofNat (payload.length + 16)).toNat = payload.length + 16 := by
    rw [UInt16.toNat_ofNat', Nat.mod_eq_of_lt hlen]
  have hpn : ccmpPn frame = pn := ccmpPn_rtmpConstructCcmpHdr keyIdx _ pn
  refine ⟨_, Mem.write frame 0 payload, rtmpSoftEncryptCcmp_eq _ _ _ _ _, ?_, ?_⟩
  · rw [hread, hcipher, List.append_assoc, ← hframe,
      rtmpSoftDecryptCcmp_eq pHdr frame hkey (by omega), hsize, hbody, hpn, ← hM,
      M.opened_sealed (by decide)]
    rfl
  · exact Mem.read_write _ _ _

namespace Example

/-- `HDR`, `TK` and `PN` of `CCMP_test_vector`. -/
def ccmpHdr : List UInt8 :=
  [0x08, 0x48, 0xc3, 0x2c, 0x0f, 0xd2, 0xe1, 0x28, 0xa5, 0x7c, 0x50, 0x30, 0xf1, 0x84, 0x44, 0x08,
    0xab, 0xae, 0xa5, 0xb8, 0xfc, 0xba, 0x80, 0x33]

def ccmpTk : CipherKey :=
  { key := ⟨[0xc9, 0x7c, 0x1f, 0x67, 0xce, 0x37, 0x11, 0x85, 0x51, 0x4a, 0x8a, 0x19, 0xf2, 0xbd,
      0xd5, 0x2f], rfl⟩
    keyLen := 16 }

def ccmpTestPn : Octets 6 := ⟨[0x0C, 0xE7, 0x76, 0x97, 0x03, 0xB5], rfl⟩

/-- `AAD` and `CCM_NONCE` of the test vector. -/
example : rtmpConstructCcmpAad ccmpHdr true false false =
      [0x08, 0x40, 0x0f, 0xd2, 0xe1, 0x28, 0xa5, 0x7c, 0x50, 0x30, 0xf1, 0x84, 0x44, 0x08, 0xab,
        0xae, 0xa5, 0xb8, 0xfc, 0xba, 0x00, 0x00] ∧
    rtmpConstructCcmpNonce ccmpHdr false false ccmpTestPn =
      [0x00, 0x50, 0x30, 0xf1, 0x84, 0x44, 0x08, 0xb5, 0x03, 0x97, 0x76, 0xe7, 0x0c] := by
  decide

/-- Three octets sent and received. -/
theorem received_three_octets :
    (∀ room rest : List UInt8, ∃ cipher plain,
      rtmpSoftEncryptCcmp ccmpHdr ccmpTestPn ccmpTk.key ([1, 2, 3] ++ room) 3 = some cipher ∧
      rtmpSoftDecryptCcmp ccmpHdr ccmpTk
          (rtmpConstructCcmpHdr 0 ccmpTestPn ++ Mem.read cipher 0 11 ++ rest) 19 =
        some (plain, 3) ∧
      Mem.read plain 0 3 = [1, 2, 3]) ∧
    ∀ pHdr' : List UInt8, InFlight ccmpHdr pHdr' → ∀ (pData : List UInt8) (dataLen : UInt16),
      rtmpSoftDecryptCcmp pHdr' ccmpTk pData dataLen =
        rtmpSoftDecryptCcmp ccmpHdr ccmpTk pData dataLen :=
  rtmpSoftDecryptCcmp_rtmpSoftEncryptCcmp ccmpHdr 0 ccmpTestPn ccmpTk (by decide) [1, 2, 3]
    (by decide)

end Example

end Mt7601.Crypt
