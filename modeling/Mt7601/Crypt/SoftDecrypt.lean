/-
# Deciphering in software: too short a frame

`RTMPSoftDecryptionAction` of `common/cmm_wpa.c`, which deciphers a received frame by the cipher of
the key, with every length and every access of the three receivers checked.

None of them asks for the octets its cipher adds, and of the code they call only `AES_CCM_Decrypt`
looks at a length, after the subtraction it should guard. What the receivers need is worked out
here: a frame that has room for what its cipher adds, or one that is given up before the room is
missed (`rtmpSoftDecryptionAction_sound_iff`).
-/
import Mt7601.Crypt.Tkip

namespace Mt7601.Crypt

open Wpa (CipherKey CipherAlg)

/-! ## 1. CCMP, checked -/

/-- `RTMPSoftDecryptCCMP` with `AES_CCM_Decrypt`, whose checks of the key, the nonce and the length
of the MIC hold here; what it comes to is `rtmpSoftDecryptCcmp`. -/
def checkedDecryptCcmp (pHdr : List UInt8) (pKey : CipherKey) (pData : List UInt8)
    (dataLen : UInt16) : Checked (Option (List UInt8 × UInt16)) := do
  if pKey.keyLen = 0 then return none
  Checked.access pHdr.length 0 2
  -- the packet number
  Checked.access pData.length 0 2
  Checked.access pData.length 4 4
  let cipherDataLen ← Checked.sub dataLen.toNat lenCcmpHdr
  -- the associated data and the nonce
  Checked.access pHdr.length 4 20
  Checked.access pHdr.length 24 (if a4Exists pHdr then 6 else 0)
  Checked.access pHdr.length (if a4Exists pHdr then 30 else 24) (if qcExists pHdr then 1 else 0)
  let length ← Checked.sub cipherDataLen lenCcmpMic
  -- the MIC, the text, and what it is deciphered into
  Checked.access pData.length (lenCcmpHdr + length) lenCcmpMic
  Checked.access pData.length lenCcmpHdr length
  Checked.access pData.length 0 length
  return rtmpSoftDecryptCcmp pHdr pKey pData dataLen

section

variable {pHdr pData : List UInt8} {pKey : CipherKey} {n : UInt16}

theorem checkedDecryptCcmp_empty (hkey : pKey.keyLen = 0) :
    checkedDecryptCcmp pHdr pKey pData n = .ok none := by
  rw [checkedDecryptCcmp, if_pos hkey]
  rfl

/-- **Sixteen octets are enough**. -/
theorem checkedDecryptCcmp_eq (hkey : pKey.keyLen ≠ 0) (hdata : pData.length = n.toNat)
    (hhdr : 24 + n.toNat ≤ pHdr.length) (hlen : 16 ≤ n.toNat) :
    checkedDecryptCcmp pHdr pKey pData n = .ok (rtmpSoftDecryptCcmp pHdr pKey pData n) := by
  have haddr4 : 24 + (if a4Exists pHdr then 6 else 0) ≤ pHdr.length := by
    split <;> omega
  have hqos : (if a4Exists pHdr then 30 else 24) + (if qcExists pHdr then 1 else 0) ≤
      pHdr.length := by
    split <;> split <;> omega
  rw [checkedDecryptCcmp, if_neg hkey]
  simp only [lenCcmpHdr, lenCcmpMic]
  rw [Checked.access_ok (by omega), Checked.ok_bind, Checked.access_ok (by omega),
    Checked.ok_bind, Checked.access_ok (by omega), Checked.ok_bind, Checked.sub_ok (by omega),
    Checked.ok_bind, Checked.access_ok (by omega), Checked.ok_bind, Checked.access_ok haddr4,
    Checked.ok_bind, Checked.access_ok hqos, Checked.ok_bind, Checked.sub_ok (by omega),
    Checked.ok_bind, Checked.access_ok (by omega), Checked.ok_bind, Checked.access_ok (by omega),
    Checked.ok_bind, Checked.access_ok (by omega), Checked.ok_bind]
  rfl

/-- **Fewer are not**: the length of the MIC is taken from what is left of fewer octets. -/
theorem checkedDecryptCcmp_not_safe (hkey : pKey.keyLen ≠ 0) (hlen : n.toNat < 16) :
    ¬ Checked.Safe (checkedDecryptCcmp pHdr pKey pData n) := by
  rintro ⟨r, hr⟩
  rw [checkedDecryptCcmp, if_neg hkey] at hr
  simp only [Checked.access_bind_eq_ok, Checked.sub_bind_eq_ok, lenCcmpHdr, lenCcmpMic] at hr
  omega

end

/-! ## 2. The dispatch -/

/-- A received frame: its octets from the 802.11 header on, how far the header goes, which is as far
as the basic one at least, and `*DataByteCnt`, what is behind it. -/
structure SoftFrame where
  pHdr : List UInt8
  hdrLen : Nat
  dataByteCnt : UInt16
  header : 24 ≤ hdrLen
  whole : pHdr.length = hdrLen + dataByteCnt.toNat

namespace SoftFrame

variable (f : SoftFrame)

/-- The memory at `pData`. -/
def pData : List UInt8 := f.pHdr.drop f.hdrLen

theorem length_pData : f.pData.length = f.dataByteCnt.toNat := by
  rw [pData, List.length_drop, f.whole]
  omega

theorem header_le : 24 + f.dataByteCnt.toNat ≤ f.pHdr.length := by
  have hheader := f.header
  rw [f.whole]
  omega

end SoftFrame

/-- `RTMPSoftDecryptionAction` -/
def rtmpSoftDecryptionAction (f : SoftFrame) (userPriority : UInt8) (pKey : CipherKey) :
    Checked (Option (List UInt8 × UInt16)) :=
  match pKey.cipherAlg with
  | .wep64 | .wep128 => rtmpSoftDecryptWep pKey f.pData f.dataByteCnt
  | .tkip => rtmpSoftDecryptTkip f.pHdr userPriority pKey f.pData f.dataByteCnt
  | .aes => checkedDecryptCcmp f.pHdr pKey f.pData f.dataByteCnt
  | .none => .ok none

/-- What a cipher adds to a frame: the IV, the MIC and the ICV. -/
def overhead : CipherAlg → Nat
  | .wep64 | .wep128 => lenWepIvHdr + lenIcv
  | .tkip => lenTkipIvHdr + Wpa.lenTkipMic + lenIcv
  | .aes => lenCcmpHdr + lenCcmpMic
  | .none => 0

/-- No length wraps, no access leaves the frame, and a frame without room for what its cipher adds
is given up. -/
def SoundlyDeciphered (f : SoftFrame) (userPriority : UInt8) (pKey : CipherKey) : Prop :=
  ∃ r, rtmpSoftDecryptionAction f userPriority pKey = .ok r ∧
    (f.dataByteCnt.toNat < overhead pKey.cipherAlg → r = none)

/-- The frame has room for what its cipher adds, or it is given up first: for want of a key, or as a
TKIP frame with room for an ICV, which is wrong. -/
def Deciphers (f : SoftFrame) (pKey : CipherKey) : Prop :=
  pKey.keyLen = 0 ∨ overhead pKey.cipherAlg ≤ f.dataByteCnt.toNat ∨
    pKey.cipherAlg = .tkip ∧ 12 ≤ f.dataByteCnt.toNat ∧
      tkipIcv f.pHdr pKey f.pData f.dataByteCnt.toNat = false

section

variable {f : SoftFrame} {userPriority : UInt8} {pKey : CipherKey}

/-- What is given up is soundly given up. -/
theorem SoundlyDeciphered.of_none (h : rtmpSoftDecryptionAction f userPriority pKey = .ok none) :
    SoundlyDeciphered f userPriority pKey :=
  ⟨none, h, fun _ => rfl⟩

/-- With the room, only being stopped matters. -/
theorem soundlyDeciphered_iff_safe (hroom : overhead pKey.cipherAlg ≤ f.dataByteCnt.toNat) :
    SoundlyDeciphered f userPriority pKey ↔
      Checked.Safe (rtmpSoftDecryptionAction f userPriority pKey) := by
  constructor
  · rintro ⟨r, hr, -⟩
    exact ⟨r, hr⟩
  · rintro ⟨r, hr⟩
    exact ⟨r, hr, fun hshort => absurd hshort (Nat.not_lt.2 hroom)⟩

theorem SoundlyDeciphered.safe (h : SoundlyDeciphered f userPriority pKey) :
    Checked.Safe (rtmpSoftDecryptionAction f userPriority pKey) := by
  obtain ⟨r, hr, -⟩ := h
  exact ⟨r, hr⟩

end

section

variable {f : SoftFrame} (userPriority : UInt8) {pKey : CipherKey}

theorem wep_sound_iff (hkey : pKey.keyLen ≠ 0)
    (halg : pKey.cipherAlg = .wep64 ∨ pKey.cipherAlg = .wep128) :
    SoundlyDeciphered f userPriority pKey ↔ 8 ≤ f.dataByteCnt.toNat := by
  have hact : rtmpSoftDecryptionAction f userPriority pKey =
      rtmpSoftDecryptWep pKey f.pData f.dataByteCnt := by
    rcases halg with h | h <;> rw [rtmpSoftDecryptionAction, h]
  have hover : overhead pKey.cipherAlg = 8 := by
    rcases halg with h | h <;> rw [h] <;> rfl
  constructor
  · intro h
    by_contra hshort
    exact rtmpSoftDecryptWep_not_safe hkey (Nat.lt_of_not_le hshort) (hact ▸ h.safe)
  · intro hlen
    rw [soundlyDeciphered_iff_safe (hover ▸ hlen), hact,
      rtmpSoftDecryptWep_eq hkey f.length_pData hlen]
    exact Checked.safe_ok _

theorem ccmp_sound_iff (hkey : pKey.keyLen ≠ 0) (halg : pKey.cipherAlg = .aes) :
    SoundlyDeciphered f userPriority pKey ↔ 16 ≤ f.dataByteCnt.toNat := by
  have hact : rtmpSoftDecryptionAction f userPriority pKey =
      checkedDecryptCcmp f.pHdr pKey f.pData f.dataByteCnt := by
    rw [rtmpSoftDecryptionAction, halg]
  have hover : overhead pKey.cipherAlg = 16 := by
    rw [halg]
    rfl
  constructor
  · intro h
    by_contra hshort
    exact checkedDecryptCcmp_not_safe hkey (Nat.lt_of_not_le hshort) (hact ▸ h.safe)
  · intro hlen
    rw [soundlyDeciphered_iff_safe (hover ▸ hlen), hact,
      checkedDecryptCcmp_eq hkey f.length_pData f.header_le hlen]
    exact Checked.safe_ok _

theorem tkip_sound_iff (hkey : pKey.keyLen ≠ 0) (halg : pKey.cipherAlg = .tkip) :
    SoundlyDeciphered f userPriority pKey ↔
      20 ≤ f.dataByteCnt.toNat ∨ 12 ≤ f.dataByteCnt.toNat ∧
        tkipIcv f.pHdr pKey f.pData f.dataByteCnt.toNat = false := by
  have hact : rtmpSoftDecryptionAction f userPriority pKey =
      rtmpSoftDecryptTkip f.pHdr userPriority pKey f.pData f.dataByteCnt := by
    rw [rtmpSoftDecryptionAction, halg]
  have hover : overhead pKey.cipherAlg = 20 := by
    rw [halg]
    rfl
  rcases Nat.lt_or_ge f.dataByteCnt.toNat 12 with h12 | h12
  · -- no room for the ICV
    have hno : ¬ SoundlyDeciphered f userPriority pKey := fun h =>
      rtmpSoftDecryptTkip_not_safe hkey h12 (hact ▸ h.safe)
    constructor
    · intro h
      exact absurd h hno
    · rintro (h | h) <;> omega
  rcases Nat.lt_or_ge f.dataByteCnt.toNat 20 with h20 | h20
  · -- the ICV decides
    have hshort : rtmpSoftDecryptionAction f userPriority pKey =
        if tkipIcv f.pHdr pKey f.pData f.dataByteCnt.toNat = false then .ok none
        else .error .underflow :=
      hact.trans (rtmpSoftDecryptTkip_short hkey f.length_pData f.header_le h12 h20)
    cases hicv : tkipIcv f.pHdr pKey f.pData f.dataByteCnt.toNat with
    | false =>
      rw [if_pos hicv] at hshort
      exact ⟨fun _ => .inr ⟨h12, rfl⟩, fun _ => .of_none hshort⟩
    | true =>
      rw [if_neg (by rw [hicv]; decide)] at hshort
      constructor
      · intro h
        exact absurd (hshort ▸ h.safe) (Checked.not_safe_error _)
      · rintro (h | ⟨-, h⟩)
        · omega
        · exact nomatch h
  · rw [soundlyDeciphered_iff_safe (hover ▸ h20), hact]
    exact ⟨fun _ => .inl h20,
      fun _ => rtmpSoftDecryptTkip_safe hkey f.length_pData f.header_le h20⟩

end

/-- **Deciphering in software**, of any frame under any key: no length wraps, no access leaves the
frame, and too short a frame is given up, exactly if the frame has room for what its cipher adds or
is given up before it is missed. -/
theorem rtmpSoftDecryptionAction_sound_iff (f : SoftFrame) (userPriority : UInt8)
    (pKey : CipherKey) : SoundlyDeciphered f userPriority pKey ↔ Deciphers f pKey := by
  unfold Deciphers
  by_cases hkey : pKey.keyLen = 0
  · refine ⟨fun _ => .inl hkey, fun _ => .of_none ?_⟩
    cases halg : pKey.cipherAlg with
    | none => rw [rtmpSoftDecryptionAction, halg]
    | wep64 => rw [rtmpSoftDecryptionAction, halg, rtmpSoftDecryptWep_empty hkey]
    | wep128 => rw [rtmpSoftDecryptionAction, halg, rtmpSoftDecryptWep_empty hkey]
    | tkip => rw [rtmpSoftDecryptionAction, halg, rtmpSoftDecryptTkip_empty hkey]
    | aes => rw [rtmpSoftDecryptionAction, halg, checkedDecryptCcmp_empty hkey]
  · cases halg : pKey.cipherAlg with
    | none =>
      exact ⟨fun _ => .inr (.inl (Nat.zero_le _)),
        fun _ => .of_none (by rw [rtmpSoftDecryptionAction, halg])⟩
    | wep64 =>
      rw [wep_sound_iff userPriority hkey (.inl halg)]
      simp [hkey, overhead, lenWepIvHdr, lenIcv]
    | wep128 =>
      rw [wep_sound_iff userPriority hkey (.inr halg)]
      simp [hkey, overhead, lenWepIvHdr, lenIcv]
    | tkip =>
      rw [tkip_sound_iff userPriority hkey halg]
      simp [hkey, overhead, lenTkipIvHdr, Wpa.lenTkipMic, lenIcv]
    | aes =>
      rw [ccmp_sound_iff userPriority hkey halg]
      simp [hkey, overhead, lenCcmpHdr, lenCcmpMic]

namespace Example

/-- A WEP frame that ends with its IV header. -/
def ivOnly : SoftFrame where
  pHdr := [0x08, 0x42] ++ List.replicate 22 0 ++ [0, 0, 0, 0]
  hdrLen := 24
  dataByteCnt := 4
  header := by decide
  whole := by decide

/-- The length of the ICV is taken from no octets. -/
theorem not_sound_ivOnly :
    ¬ ∀ (f : SoftFrame) (userPriority : UInt8) (pKey : CipherKey),
      SoundlyDeciphered f userPriority pKey := by
  intro hall
  have hsafe := (hall ivOnly 0 { cipherAlg := .wep64, keyLen := 5 }).safe
  exact rtmpSoftDecryptWep_not_safe (by decide) (by decide) hsafe

end Example

end Mt7601.Crypt
