/-
# The two key derivations

`RtmpPasswordHash` and `WpaDerivePTK` (`common/cmm_wpa.c`) against PBKDF2 and the pseudo-random
function of IEEE 802.11i. The first folds its iterations over two digest buffers; the second orders
addresses and nonces by the outcome of `RTMPCompareMemory`, and has a substitution of its own for equal
nonces.
-/
import Mathlib.Data.List.TakeWhile
import Mt7601.Crypt.Sha1Spec
import Mt7601.Wpa.KeyData
import Mt7601.Wpa.Supplicant

namespace Mt7601.Wpa

open Fips180 (beOctets hmacSha1 octetMin octetMax pbkdf2 pbkdf2T pbkdf2U prf80211)
open Crypt (rtHmacSha1 rtHmacSha1_eq sha1DigestSize)

/-! ## 1. The passphrase -/

/-- The buffers of `F`. -/
structure FBuffers where
  output : Octets sha1DigestSize
  digest : Octets 36
  digest1 : Octets sha1DigestSize
  deriving DecidableEq

/-- `strlen`: the octets in front of the first zero. -/
def cString (password : List UInt8) : List UInt8 := password.takeWhile (· ≠ 0)

/-- An iteration: a digest of `digest1` in `digest`, back in `digest1`, and onto `output`. -/
def fIteration (password : List UInt8) (b : FBuffers) : FBuffers :=
  let digest := Octets.ofList 36
    (Mem.write b.digest.toList 0 (rtHmacSha1 password b.digest1.toList).toList)
  { output := .ofList sha1DigestSize (List.zipWith (· ^^^ ·) b.output.toList digest.toList)
    digest
    digest1 := .ofList sha1DigestSize (Mem.read digest.toList 0 sha1DigestSize) }

/-- `F` before its loop: the SSID and the count in `digest`, which held `stack`, and their digest. -/
def fStart (stack : Octets 36) (password ssid : List UInt8) (count : Nat) : FBuffers :=
  let digest := Octets.ofList 36
    (Mem.write stack.toList 0 (ssid ++ [UInt8.ofNat (count >>> 24), UInt8.ofNat (count >>> 16),
      UInt8.ofNat (count >>> 8), UInt8.ofNat count]))
  let digest1 := rtHmacSha1 password (Mem.read digest.toList 0 (ssid.length + 4))
  { output := digest1, digest, digest1 }

/-- `F` -/
def f (stack : Octets 36) (password ssid : List UInt8) (iterations count : Nat) :
    Octets sha1DigestSize :=
  ((List.range (iterations - 1)).foldl (fun b _ => fIteration (cString password) b)
    (fStart stack (cString password) ssid count)).output

/-- `RtmpPasswordHash`; `none` is `return 0`. -/
def rtmpPasswordHash (stack : Octets 36) (password ssid : List UInt8) : Option (Octets 40) :=
  if 63 < (cString password).length ∨ 32 < ssid.length then none
  else some (.ofList 40 ((f stack password ssid 4096 1).toList ++ (f stack password ssid 4096 2).toList))

section

variable {stack : Octets 36} {password ssid : List UInt8} {count : Nat}

theorem toList_ofList_of_length {n : Nat} {l : List UInt8} (h : l.length = n) :
    (Octets.ofList n l).toList = l := by
  rw [Octets.toList_ofList, List.takeD_eq_take 0 (Nat.le_of_eq h.symm),
    List.take_of_length_le (Nat.le_of_eq h)]

/-- The octets of the count are the number of the block. -/
theorem count_octets (count : Nat) :
    [UInt8.ofNat (count >>> 24), UInt8.ofNat (count >>> 16), UInt8.ofNat (count >>> 8),
      UInt8.ofNat count] = beOctets 4 count := by
  simp [beOctets, List.range_succ, Nat.shiftRight_eq_div_pow]

/-- What is in front of `digest` when so much was written there. -/
theorem read_write_front {m : Nat} (buf : Octets m) {l : List UInt8} (h : l.length ≤ m) :
    Mem.read (Octets.ofList m (Mem.write buf.toList 0 l)).toList 0 l.length = l := by
  have hlen : (Mem.write buf.toList 0 l).length = m := by
    simp [Mem.write]
    omega
  rw [toList_ofList_of_length hlen, Mem.write]
  simp [Mem.read]

theorem fStart_digest1 (hssid : ssid.length ≤ 32) :
    (fStart stack password ssid count).digest1.toList =
      pbkdf2U hmacSha1 password ssid count 0 := by
  have hread := read_write_front stack (l := ssid ++ beOctets 4 count) (by
    rw [List.length_append, Fips180.length_beOctets]
    omega)
  rw [List.length_append, Fips180.length_beOctets] at hread
  rw [fStart, count_octets]
  dsimp only
  rw [hread, rtHmacSha1_eq, pbkdf2U]

/-- An iteration: the next digest, and the sum so far. -/
theorem fIteration_spec (b : FBuffers) :
    (fIteration password b).digest1.toList = hmacSha1 password b.digest1.toList ∧
      (fIteration password b).output.toList =
        List.zipWith (· ^^^ ·) b.output.toList (hmacSha1 password b.digest1.toList) := by
  have hlen : (hmacSha1 password b.digest1.toList).length = sha1DigestSize :=
    Fips180.length_hmacSha1 _ _
  have hout : b.output.toList.length = sha1DigestSize := b.output.toList_length
  have hread := read_write_front b.digest (l := hmacSha1 password b.digest1.toList)
    (by rw [hlen]; decide)
  have hwrite : (Mem.write b.digest.toList 0 (hmacSha1 password b.digest1.toList)).length = 36 := by
    rw [write_zero, List.length_append, List.length_drop, List.Vector.toList_length, hlen]
    rfl
  rw [hlen] at hread
  rw [fIteration]
  dsimp only
  rw [rtHmacSha1_eq, hread]
  refine ⟨toList_ofList_of_length hlen, ?_⟩
  -- the octets of `digest` behind the new ones are not looked at
  have hzip : List.zipWith (· ^^^ ·) b.output.toList
      (Mem.write b.digest.toList 0 (hmacSha1 password b.digest1.toList)) =
        List.zipWith (· ^^^ ·) b.output.toList (hmacSha1 password b.digest1.toList) := by
    have happend : List.zipWith (· ^^^ ·) (b.output.toList ++ [])
        (hmacSha1 password b.digest1.toList ++ b.digest.toList.drop sha1DigestSize) = _ :=
      List.zipWith_append (hout.trans hlen.symm)
    rw [List.append_nil, List.zipWith_nil_left, List.append_nil] at happend
    rw [← happend, write_zero, hlen]
  rw [toList_ofList_of_length hwrite, hzip]
  refine toList_ofList_of_length ?_
  rw [List.length_zipWith, hout, hlen, Nat.min_self]

/-- **The loop of `F`.** -/
theorem foldl_fIteration (hssid : ssid.length ≤ 32) (n : Nat) :
    ((List.range n).foldl (fun b _ => fIteration password b)
        (fStart stack password ssid count)).digest1.toList = pbkdf2U hmacSha1 password ssid count n ∧
      ((List.range n).foldl (fun b _ => fIteration password b)
        (fStart stack password ssid count)).output.toList =
        (List.range n).foldl
          (fun t j => List.zipWith (· ^^^ ·) t (pbkdf2U hmacSha1 password ssid count (j + 1)))
          (pbkdf2U hmacSha1 password ssid count 0) := by
  induction n with
  | zero => exact ⟨fStart_digest1 hssid, fStart_digest1 hssid⟩
  | succ n ih =>
    obtain ⟨hdigest, houtput⟩ := ih
    obtain ⟨hnext, hsum⟩ : (fIteration password _).digest1.toList = _ ∧ _ := fIteration_spec
      ((List.range n).foldl (fun b _ => fIteration password b) (fStart stack password ssid count))
    rw [List.range_succ, List.foldl_append, List.foldl_append, List.foldl_cons, List.foldl_nil,
      List.foldl_cons, List.foldl_nil, hnext, hsum, hdigest, houtput, pbkdf2U]
    exact ⟨rfl, rfl⟩

theorem f_eq (hssid : ssid.length ≤ 32) (iterations count : Nat) :
    (f stack password ssid iterations count).toList =
      pbkdf2T hmacSha1 (cString password) ssid iterations count := by
  rw [f, (foldl_fIteration hssid _).2, pbkdf2T]

/-- **The passphrase becomes the key of PBKDF2.** -/
theorem rtmpPasswordHash_eq (hchars : 0 ∉ password) (hpassword : password.length ≤ 63)
    (hssid : ssid.length ≤ 32) :
    ∃ output, rtmpPasswordHash stack password ssid = some output ∧
      output.toList = pbkdf2 hmacSha1 20 password ssid 4096 40 := by
  have hstring : cString password = password := by
    rw [cString, List.takeWhile_eq_self_iff]
    intro b hb
    refine decide_eq_true ?_
    rintro rfl
    exact hchars hb
  have hguard : ¬ (63 < (cString password).length ∨ 32 < ssid.length) := by
    rw [hstring]
    omega
  refine ⟨_, if_neg hguard, ?_⟩
  have hlen : ∀ i, (pbkdf2T hmacSha1 password ssid 4096 i).length = 20 := by
    intro i
    rw [← hstring]
    have hf : (f stack password ssid 4096 i).toList = _ := f_eq hssid 4096 i
    rw [← hf]
    exact List.Vector.toList_length _
  have hsize : (pbkdf2T hmacSha1 password ssid 4096 1 ++
      pbkdf2T hmacSha1 password ssid 4096 2).length = 40 := by
    rw [List.length_append, hlen, hlen]
  rw [f_eq hssid, f_eq hssid, hstring, toList_ofList_of_length hsize, pbkdf2]
  have hblocks : (List.range ((40 + 20 - 1) / 20)).flatMap
      (fun i => pbkdf2T hmacSha1 password ssid 4096 (i + 1)) =
        pbkdf2T hmacSha1 password ssid 4096 1 ++ pbkdf2T hmacSha1 password ssid 4096 2 := by
    have hrange : List.range ((40 + 20 - 1) / 20) = [0, 1] := rfl
    rw [hrange, List.flatMap_cons, List.flatMap_cons, List.flatMap_nil, List.append_nil]
  rw [hblocks, List.take_of_length_le (Nat.le_of_eq hsize)]

end

/-! ## 2. The order -/

section

/-- The three outcomes of `RTMPCompareMemory`, for two fields of one size. -/
theorem rtmpCompareMemory_cases : ∀ {l m : List UInt8}, l.length = m.length →
    (rtmpCompareMemory l m = 0 ∧ l = m) ∨ (rtmpCompareMemory l m = 1 ∧ m < l ∧ ¬ l < m) ∨
      (rtmpCompareMemory l m = 2 ∧ l < m ∧ ¬ m < l)
  | [], [], _ => .inl ⟨rfl, rfl⟩
  | a :: as, b :: bs, hlen => by
      have ih := rtmpCompareMemory_cases (Nat.succ.inj hlen)
      rw [rtmpCompareMemory]
      simp only [List.cons_lt_cons_iff]
      rcases Nat.lt_trichotomy a.toNat b.toNat with hlt | heq | hgt
      · have hab : a < b := UInt8.lt_iff_toNat_lt.mpr hlt
        have hba : ¬ b < a := fun h => Nat.lt_asymm hlt (UInt8.lt_iff_toNat_lt.mp h)
        have hne : b ≠ a := fun h => hba (h ▸ hab)
        rw [if_neg hba, if_pos hab]
        exact .inr (.inr ⟨rfl, .inl hab, fun h => h.elim hba fun h => hne h.1⟩)
      · obtain rfl := UInt8.toNat_inj.mp heq
        have haa : ¬ a < a := fun h => Nat.lt_irrefl _ (UInt8.lt_iff_toNat_lt.mp h)
        rw [if_neg haa, if_neg haa]
        simpa [haa] using ih
      · have hba : b < a := UInt8.lt_iff_toNat_lt.mpr hgt
        have hab : ¬ a < b := fun h => Nat.lt_asymm hgt (UInt8.lt_iff_toNat_lt.mp h)
        have hne : a ≠ b := fun h => hab (h ▸ hba)
        rw [if_pos hba]
        exact .inr (.inl ⟨rfl, .inl hba, fun h => h.elim hab fun h => hne h.1⟩)

variable {l m : List UInt8}

theorem octetMin_of_compare (hlen : l.length = m.length) :
    (if rtmpCompareMemory l m = 1 then m else l) = octetMin l m := by
  rw [octetMin]
  rcases rtmpCompareMemory_cases hlen with ⟨h, rfl⟩ | ⟨h, hlt, -⟩ | ⟨h, -, hge⟩
  · rw [ite_self, ite_self]
  · rw [if_pos h, if_pos hlt]
  · rw [if_neg (by rw [h]; decide), if_neg hge]

theorem octetMax_of_compare (hlen : l.length = m.length) :
    (if rtmpCompareMemory l m = 1 then l else m) = octetMax l m := by
  rw [octetMax]
  rcases rtmpCompareMemory_cases hlen with ⟨h, rfl⟩ | ⟨h, hlt, -⟩ | ⟨h, -, hge⟩
  · rw [ite_self, ite_self]
  · rw [if_pos h, if_pos hlt]
  · rw [if_neg (by rw [h]; decide), if_neg hge]

theorem octetMin_comm (hlen : l.length = m.length) : octetMin l m = octetMin m l := by
  rw [octetMin, octetMin]
  rcases rtmpCompareMemory_cases hlen with ⟨-, rfl⟩ | ⟨-, hlt, hge⟩ | ⟨-, hlt, hge⟩
  · rfl
  · rw [if_pos hlt, if_neg hge]
  · rw [if_neg hge, if_pos hlt]

theorem octetMax_comm (hlen : l.length = m.length) : octetMax l m = octetMax m l := by
  rw [octetMax, octetMax]
  rcases rtmpCompareMemory_cases hlen with ⟨-, rfl⟩ | ⟨-, hlt, hge⟩ | ⟨-, hlt, hge⟩
  · rfl
  · rw [if_pos hlt, if_neg hge]
  · rw [if_neg hge, if_pos hlt]

end

/-! ## 3. The pairwise key -/

/-- `WpaDerivePTK` for `len` octets; without memory nothing is written. What it writes are whole
digests. -/
def wpaDerivePtkLen (C : Crypto) (env : Env) (pmk aNonce : Octets 32) (aa : MacAddr)
    (sNonce : Octets 32) (sa : MacAddr) (len : Nat) : Option (List UInt8) :=
  if env.alloc .prf then
    some (prf C pmk.toList ptkLabel (ptkConcatenation aNonce aa sNonce sa) len)
  else none

/-- The handshake's key is the one of `LEN_PTK` octets. -/
theorem wpaDerivePtk_eq (C : Crypto) (env : Env) (pmk aNonce : Octets 32) (aa : MacAddr)
    (sNonce : Octets 32) (sa : MacAddr) :
    wpaDerivePtk C env pmk aNonce aa sNonce sa =
      ((wpaDerivePtkLen C env pmk aNonce aa sNonce sa lenPtk).map (Octets.ofList lenPtk)).getD
        env.stackPtk := by
  rw [wpaDerivePtk, wpaDerivePtkLen]
  by_cases halloc : env.alloc .prf
  · rw [if_pos halloc, if_pos halloc]
    rfl
  · rw [if_neg halloc, if_neg halloc]
    rfl

/-- What the key is expanded from, as the standard has it: the addresses and the nonces, the smaller
first. Nonces that are equal are both replaced by the larger address and zeros. -/
def ptkInput (aNonce : Octets 32) (aa : MacAddr) (sNonce : Octets 32) (sa : MacAddr) : List UInt8 :=
  let larger := octetMax aa.toList sa.toList ++ List.replicate 26 0
  octetMin aa.toList sa.toList ++ octetMax aa.toList sa.toList ++
    if aNonce = sNonce then larger ++ larger
    else octetMin aNonce.toList sNonce.toList ++ octetMax aNonce.toList sNonce.toList

theorem ptkInput_swap (aNonce : Octets 32) (aa : MacAddr) (sNonce : Octets 32) (sa : MacAddr) :
    ptkInput aNonce aa sNonce sa = ptkInput sNonce sa aNonce aa := by
  have haddr : aa.toList.length = sa.toList.length := by simp
  have hnonce : aNonce.toList.length = sNonce.toList.length := by simp
  rw [ptkInput, ptkInput, octetMin_comm haddr, octetMax_comm haddr, octetMin_comm hnonce,
    octetMax_comm hnonce]
  simp only [eq_comm]

theorem ptkConcatenation_eq (aNonce : Octets 32) (aa : MacAddr) (sNonce : Octets 32) (sa : MacAddr) :
    ptkConcatenation aNonce aa sNonce sa = ptkInput aNonce aa sNonce sa := by
  have haddr : sa.toList.length = aa.toList.length := by simp
  have hnonce : aNonce.toList.length = sNonce.toList.length := by simp
  have hmin : (if rtmpCompareMemory sa.toList aa.toList = 1 then aa else sa).toList =
      octetMin aa.toList sa.toList := by
    rw [apply_ite List.Vector.toList, octetMin_of_compare haddr, octetMin_comm haddr]
  have hmax : (if rtmpCompareMemory sa.toList aa.toList = 1 then sa else aa).toList =
      octetMax aa.toList sa.toList := by
    rw [apply_ite List.Vector.toList, octetMax_of_compare haddr, octetMax_comm haddr]
  have hlarger : (octetMax aa.toList sa.toList).length = 6 := by
    rw [← hmax]
    exact List.Vector.toList_length _
  have htemp : (octetMax aa.toList sa.toList).takeD 32 0 =
      octetMax aa.toList sa.toList ++ List.replicate 26 0 := by
    rw [Octets.takeD_of_length_le (by omega), hlarger]
  rw [ptkConcatenation, ptkInput, hmin, hmax, htemp, List.append_assoc _ (ite _ _ _)]
  congr 1
  rcases rtmpCompareMemory_cases hnonce with ⟨h, heq⟩ | ⟨h, hlt, -⟩ | ⟨h, hlt, -⟩
  · rw [if_pos h, if_pos h, if_pos (Octets.toList_injective heq)]
  · have hne : aNonce ≠ sNonce := by
      rintro rfl
      exact absurd hlt (List.lt_irrefl _)
    have h0 : rtmpCompareMemory aNonce.toList sNonce.toList ≠ 0 := by rw [h]; decide
    rw [if_neg h0, if_neg h0, if_neg hne, octetMin_of_compare hnonce, octetMax_of_compare hnonce]
  · have hne : aNonce ≠ sNonce := by
      rintro rfl
      exact absurd hlt (List.lt_irrefl _)
    have h0 : rtmpCompareMemory aNonce.toList sNonce.toList ≠ 0 := by rw [h]; decide
    rw [if_neg h0, if_neg h0, if_neg hne, octetMin_of_compare hnonce, octetMax_of_compare hnonce]

/-- The driver's pseudo-random function, as far as it is asked for. -/
theorem take_prf (key label data : List UInt8) (len : Nat) :
    (prf .driver key label data len).take len = prf80211 hmacSha1 20 key label data len := by
  have hdigest : ∀ i, (Crypto.driver.hmacSha1 key (label ++ 0 :: data ++ [UInt8.ofNat i])).toList =
      hmacSha1 key (label ++ 0 :: data ++ [UInt8.ofNat i]) := fun i => rtHmacSha1_eq _ _
  rw [prf, prf80211, List.flatMap_congr fun i _ => hdigest i]
  exact (Fips180.take_flatMap_range (fun i => Fips180.length_hmacSha1 _ _) (by omega)
    (by omega)).symm

/-- **The two derivations.**  The passphrase becomes the first 40 octets of PBKDF2; the pairwise key
is that of IEEE 802.11i for the addresses and the nonces in their order; and it is the same for the
two ends. -/
theorem keyDerivations (stack : Octets 36) (password ssid : List UInt8) (hchars : 0 ∉ password)
    (hpassword : password.length ≤ 63) (hssid : ssid.length ≤ 32) (env : Env)
    (halloc : env.alloc .prf = true) (pmk aNonce : Octets 32) (aa : MacAddr) (sNonce : Octets 32)
    (sa : MacAddr) (len : Nat) :
    (∃ output, rtmpPasswordHash stack password ssid = some output ∧
        output.toList = pbkdf2 hmacSha1 20 password ssid 4096 40) ∧
      (∃ output, wpaDerivePtkLen .driver env pmk aNonce aa sNonce sa len = some output ∧
        output.take len =
          prf80211 hmacSha1 20 pmk.toList ptkLabel (ptkInput aNonce aa sNonce sa) len) ∧
      wpaDerivePtkLen .driver env pmk aNonce aa sNonce sa len =
        wpaDerivePtkLen .driver env pmk sNonce sa aNonce aa len := by
  refine ⟨rtmpPasswordHash_eq hchars hpassword hssid, ⟨_, if_pos halloc, ?_⟩, ?_⟩
  · rw [take_prf, ptkConcatenation_eq]
  · rw [wpaDerivePtkLen, wpaDerivePtkLen, ptkConcatenation_eq, ptkConcatenation_eq, ptkInput_swap]

/-- The passphrase "password" for the network "IEEE", and the key between two addresses. -/
theorem keyDerivations_password :
    (∃ output, rtmpPasswordHash (.zero 36) [0x70, 0x61, 0x73, 0x73, 0x77, 0x6f, 0x72, 0x64]
        [0x49, 0x45, 0x45, 0x45] = some output ∧
        output.toList = pbkdf2 hmacSha1 20 [0x70, 0x61, 0x73, 0x73, 0x77, 0x6f, 0x72, 0x64]
          [0x49, 0x45, 0x45, 0x45] 4096 40) ∧
      (∃ output, wpaDerivePtkLen .driver Example.plenty (.zero 32) (.zero 32)
          (List.Vector.replicate 6 1) (List.Vector.replicate 32 5) (List.Vector.replicate 6 2) 48 =
            some output ∧
        output.take 48 = prf80211 hmacSha1 20 (Octets.zero 32).toList ptkLabel
          (ptkInput (.zero 32) (List.Vector.replicate 6 1) (List.Vector.replicate 32 5)
            (List.Vector.replicate 6 2)) 48) ∧
      wpaDerivePtkLen .driver Example.plenty (.zero 32) (.zero 32) (List.Vector.replicate 6 1)
          (List.Vector.replicate 32 5) (List.Vector.replicate 6 2) 48 =
        wpaDerivePtkLen .driver Example.plenty (.zero 32) (List.Vector.replicate 32 5)
          (List.Vector.replicate 6 2) (.zero 32) (List.Vector.replicate 6 1) 48 :=
  keyDerivations _ _ _ (by decide) (by decide) (by decide) _ rfl _ _ _ _ _ _

end Mt7601.Wpa
