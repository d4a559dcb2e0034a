/-
# What a control block keeps of a registration

`WSC_REG_DATA`, `WSC_PEER_DEV_INFO` and `WSC_PROFILE` of `include/wsc.h` and `include/oid.h`, as far
as the messages M1 to M8 read and write them, and `AES_CBC_Decrypt` of `common/crypt_aes.c`.

A field is one of a fixed number of octets (`Field.size`), so that a copy into it is one that fits or
one that does not; the registers of a block are its fields (`Regs`), each as long as it is declared.
The hash, the key agreement and the block cipher are parameters: nothing here depends on what they
compute.
-/
import Mt7601.Lib.Checked
import Mt7601.Lib.Tlv
import Mathlib.Logic.Function.Basic

namespace Mt7601.Wsc

/-! ## 1. Fields -/

/-- The fields that the messages read and write. The first are those of `SelfInfo` and of `PeerInfo`,
and those with `wscPeer` in front those of `WscPeerInfo`. -/
inductive Field
  | selfVersion
  | selfMacAddr
  | selfDevPwdId
  | selfConfigError
  | peerVersion2
  | peerUuid
  | peerMacAddr
  | peerDeviceName
  | peerPriDeviceType
  | peerAuthTypeFlags
  | peerEncrTypeFlags
  | peerConnTypeFlags
  | peerConfigMethods
  | peerScState
  | peerManufacturer
  | peerModelName
  | peerModelNumber
  | peerSerialNumber
  | peerRfBand
  | peerOsVersion
  | peerAssocState
  | peerConfigError
  | wscPeerDeviceName
  | wscPeerManufacturer
  | wscPeerModelName
  | wscPeerModelNumber
  | wscPeerSerialNumber
  | wscPeerMAC
  | enrolleeRandom
  | pke
  | pkr
  | secretKey
  | apEncrSettings
  | authKey
  | keyWrapKey
  | emsk
  | enrolleeNonce
  | registrarNonce
  | selfNonce
  | psk1
  | psk2
  | eHash1
  | eHash2
  | es1
  | es2
  | rHash1
  | rHash2
  | rs1
  | rs2
  deriving DecidableEq, Repr

/-- How many octets a field is declared with. -/
@[reducible] def Field.size : Field → Nat
  | .selfVersion | .peerVersion2 | .peerConnTypeFlags | .peerScState | .peerRfBand => 1
  | .selfDevPwdId | .selfConfigError | .peerAuthTypeFlags | .peerEncrTypeFlags
  | .peerConfigMethods | .peerAssocState | .peerConfigError => 2
  | .peerOsVersion => 4
  | .selfMacAddr | .peerMacAddr | .wscPeerMAC => 6
  | .peerPriDeviceType => 8
  | .peerUuid | .keyWrapKey | .enrolleeNonce | .registrarNonce | .selfNonce | .psk1 | .psk2
  | .es1 | .es2 | .rs1 | .rs2 => 16
  | .peerDeviceName | .peerModelName | .peerModelNumber | .peerSerialNumber
  | .wscPeerDeviceName | .wscPeerModelName | .wscPeerModelNumber | .wscPeerSerialNumber
  | .authKey | .emsk | .eHash1 | .eHash2 | .rHash1 | .rHash2 => 32
  | .peerManufacturer | .wscPeerManufacturer => 64
  | .enrolleeRandom | .pke | .pkr | .secretKey => 192
  | .apEncrSettings => 1024

/-- The registers of a control block. -/
abbrev Regs := (f : Field) → Octets f.size

/-- `NdisMoveMemory` to the front of a field. -/
def Regs.put (r : Regs) (f : Field) (l : List UInt8) : Regs :=
  Function.update r f (Octets.ofList f.size (Mem.write (r f).toList 0 l))

/-- `NdisZeroMemory` -/
def Regs.zero (r : Regs) (f : Field) : Regs := Function.update r f (Octets.zero f.size)

namespace Regs

variable (r : Regs) {f g : Field} (l : List UInt8)

theorem put_of_ne (h : g ≠ f) : r.put f l g = r g := Function.update_of_ne h _ _

theorem zero_of_ne (h : g ≠ f) : r.zero f g = r g := Function.update_of_ne h _ _

/-- A field is what is put into it as a whole. -/
theorem put_full (h : l.length = f.size) : (r.put f l f).toList = l := by
  have hwrite : Mem.write (r f).toList 0 l = l := by
    rw [Mem.write, List.takeD_zero, List.nil_append, List.drop_of_length_le (by simp [h]),
      List.append_nil]
  rw [put, Function.update_self, Octets.toList_ofList, hwrite, List.takeD_eq_take 0 (by omega),
    List.take_of_length_le (by omega)]

end Regs

/-! ## 2. Credentials -/

/-- `WSC_CREDENTIAL` -/
structure WscCredential where
  ssidLength : Nat
  ssid : Octets 32
  authType : Nat
  encrType : Nat
  key : Octets 64
  keyLength : Nat
  macAddr : Octets 6
  keyIndex : UInt8

def WscCredential.zero : WscCredential where
  ssidLength := 0
  ssid := Octets.zero 32
  authType := 0
  encrType := 0
  key := Octets.zero 64
  keyLength := 0
  macAddr := Octets.zero 6
  keyIndex := 0

/-- `WSC_PROFILE` -/
structure WscProfile where
  profileCnt : Nat
  profile : Fin 8 → WscCredential

def WscProfile.zero : WscProfile where
  profileCnt := 0
  profile _ := WscCredential.zero

/-- A write to one of the profiles. -/
def WscProfile.set (p : WscProfile) (i : Nat) (f : WscCredential → WscCredential) : WscProfile :=
  if h : i < 8 then { p with profile := Function.update p.profile ⟨i, h⟩ (f (p.profile ⟨i, h⟩)) }
  else p

/-! ## 3. What is computed -/

/-- The functions of the crypto modules. The key agreement gets the old contents of the field that it
writes to, since a number with leading zeros leaves a part of them. -/
structure WscCrypto where
  hmacSha256 : List UInt8 → List UInt8 → Octets 32
  sha256 : List UInt8 → Octets 32
  dhPublicKey : Octets 192 → Octets 192 → Octets 192
  dhSecretKey : Octets 192 → Octets 192 → Octets 192 → Octets 192
  aesDecrypt : Octets 16 → List UInt8 → Octets 16

/-- Block by block, each against the one in front of it. -/
def cbcBlocks (decrypt : List UInt8 → Octets 16) (last : List UInt8) (cipher : List UInt8) :
    List UInt8 :=
  if 16 ≤ cipher.length then
    List.zipWith (· ^^^ ·) (decrypt (cipher.take 16)).toList last ++
      cbcBlocks decrypt (cipher.take 16) (cipher.drop 16)
  else []
termination_by cipher.length
decreasing_by
  rw [List.length_drop]
  omega

/-- `AES_CBC_Decrypt` into `ApEncrSettings`, and `EncrLen`: a text that is not of whole blocks is not
deciphered, and `EncrLen` stays what it was, the size of the field. -/
def aesCbcDecrypt (C : WscCrypto) (key : Octets 16) (iv cipher : List UInt8) (out : Octets 1024) :
    Octets 1024 × Int :=
  if cipher.length % 16 ≠ 0 then (out, 1024)
  else
    let plain := cbcBlocks (C.aesDecrypt key) iv cipher
    (Octets.ofList 1024 (Mem.write out.toList 0 plain),
      (plain.length : Int) - (plain.getLastD 0).toNat)

/-- `RTMPCompareMemory` of the octets of a field and of what is left of a message, from the front: it
ends at the first that differ. -/
def compareMemory : List UInt8 → List UInt8 → Nat → Checked Bool
  | _, _, 0 => .ok true
  | a :: field, b :: msg, n + 1 => if a = b then compareMemory field msg n else .ok false
  | _, _, _ + 1 => .error .outside

/-- The compared octets are there, or the two differ within what is there. -/
theorem compareMemory_safe {n : Nat} : ∀ {field msg : List UInt8},
    Checked.Safe (compareMemory field msg n) ↔ (n ≤ field.length ∧ n ≤ msg.length) ∨
      ∃ i, i < n ∧ i < field.length ∧ i < msg.length ∧ field.getD i 0 ≠ msg.getD i 0 := by
  induction n with
  | zero =>
    intro field msg
    rw [compareMemory]
    exact ⟨fun _ => .inl ⟨Nat.zero_le _, Nat.zero_le _⟩, fun _ => Checked.safe_ok _⟩
  | succ n ih =>
    rintro (_ | ⟨a, field⟩) msg
    · refine ⟨fun h => absurd h (Checked.not_safe_error _), ?_⟩
      rintro (⟨h, -⟩ | ⟨i, -, h, -⟩)
      · exact absurd h (by simp)
      · exact absurd h (Nat.not_lt_zero i)
    · obtain _ | ⟨b, msg⟩ := msg
      · refine ⟨fun h => absurd h (Checked.not_safe_error _), ?_⟩
        rintro (⟨-, h⟩ | ⟨i, -, -, h, -⟩)
        · exact absurd h (by simp)
        · exact absurd h (Nat.not_lt_zero i)
      · rw [compareMemory]
        split
        · rename_i hab
          rw [ih]
          constructor
          · rintro (⟨hf, hm⟩ | ⟨i, hn, hf, hm, hne⟩)
            · exact .inl ⟨Nat.succ_le_succ hf, Nat.succ_le_succ hm⟩
            · exact .inr ⟨i + 1, Nat.succ_lt_succ hn, Nat.succ_lt_succ hf, Nat.succ_lt_succ hm, hne⟩
          · rintro (⟨hf, hm⟩ | ⟨i, hn, hf, hm, hne⟩)
            · exact .inl ⟨Nat.le_of_succ_le_succ hf, Nat.le_of_succ_le_succ hm⟩
            · obtain _ | i := i
              · exact absurd hab hne
              · exact .inr ⟨i, Nat.lt_of_succ_lt_succ hn, Nat.lt_of_succ_lt_succ hf,
                  Nat.lt_of_succ_lt_succ hm, hne⟩
        · rename_i hab
          exact ⟨fun _ => .inr ⟨0, Nat.succ_pos n, Nat.succ_pos _, Nat.succ_pos _, hab⟩,
            fun _ => Checked.safe_ok _⟩

/-! ## 4. The block -/

/-- `WSC_CTRL`. `wscM7Profile` is that of the station's block, and `staMode` says that the driver
runs as a station. -/
structure WscBlock where
  regs : Regs
  lastTx : List UInt8
  lastRx : List UInt8
  wscProfile : WscProfile
  wscM7Profile : WscProfile
  bConfiguredAP : Bool
  bCheckMultiByte : Bool
  bEnableWpsV2 : Bool
  staMode : Bool

end Mt7601.Wsc
