/-
# Key derivation, key wrap and message integrity codes

The part of `common/cmm_wpa.c`, `common/cmm_tkip.c`, `common/crypt_arc4.c` and
`common/crypt_aes.c` that turns keys into keys. The primitives below it -- HMAC-MD5, HMAC-SHA1,
AES-CMAC and the AES block cipher -- are parameters (`Crypto`), since nothing here depends on how
they are computed; `Crypto.driver` are the source's own. ARC4, the AES key wrap and the
pseudo-random function are the source's loops.
-/
import Mt7601.Crypt.Aes
import Mt7601.Crypt.Md5
import Mt7601.Wpa.Defs

namespace Mt7601.Wpa

/-- The primitives: a key and a message, or a key and a block. -/
structure Crypto where
  hmacMd5 : List UInt8 → List UInt8 → Octets 16
  hmacSha1 : List UInt8 → List UInt8 → Octets 20
  aesCmac : List UInt8 → List UInt8 → Octets 16
  aesEncrypt : Octets 16 → Octets 16 → Octets 16
  aesDecrypt : Octets 16 → Octets 16 → Octets 16

/-- What the two directions of the block cipher promise each other. -/
def Crypto.AesInverse (C : Crypto) : Prop :=
  ∀ key block, C.aesDecrypt key (C.aesEncrypt key block) = block

/-- The primitives of the source. -/
def Crypto.driver : Crypto where
  hmacMd5 := Crypt.rtHmacMd5
  hmacSha1 := Crypt.rtHmacSha1
  aesCmac key := Crypt.aesCmac (.ofList 16 key)
  aesEncrypt := Crypt.rtAesEncrypt
  aesDecrypt := Crypt.rtAesDecrypt

theorem Crypto.aesInverse_driver : Crypto.driver.AesInverse :=
  Crypt.rtAesDecrypt_rtAesEncrypt

/-! ## 1. ARC4 -/

/-- `ARC4_CTX_STRUC`; an index into the key block is an octet, so it cannot be out of range. -/
structure Arc4Ctx where
  blockIndex1 : UInt8
  blockIndex2 : UInt8
  keyBlock : List.Vector UInt8 256
  deriving DecidableEq

namespace Arc4Ctx

/-- One round of the key schedule in `ARC4_INIT`, with its `SWAPIndex`. -/
def scheduleRound (pKey : List UInt8) (blockIndex : Nat)
    (s : List.Vector UInt8 256 × UInt8) : List.Vector UInt8 256 × UInt8 :=
  let tempValue := s.1.get (UInt8.ofNat blockIndex).toFin
  let swapIndex := s.2 + tempValue + pKey.getD (blockIndex % pKey.length) 0
  ((s.1.set (UInt8.ofNat blockIndex).toFin (s.1.get swapIndex.toFin)).set swapIndex.toFin tempValue,
    swapIndex)

/-- `ARC4_INIT` -/
def init (pKey : List UInt8) : Arc4Ctx where
  blockIndex1 := 0
  blockIndex2 := 0
  keyBlock := (Cipher.rounds (scheduleRound pKey)
    (List.Vector.ofFn fun i => UInt8.ofNat i, 0) (List.range 256)).1

/-- The step `ARC4_Discard_KeyLength` and `ARC4_Compute` share. -/
def advance (ctx : Arc4Ctx) : Arc4Ctx :=
  let blockIndex1 := ctx.blockIndex1 + 1
  let tempValue := ctx.keyBlock.get blockIndex1.toFin
  let blockIndex2 := ctx.blockIndex2 + tempValue
  { blockIndex1, blockIndex2
    keyBlock := (ctx.keyBlock.set blockIndex1.toFin (ctx.keyBlock.get blockIndex2.toFin)).set
      blockIndex2.toFin tempValue }

/-- `ARC4_Discard_KeyLength` -/
def discardKeyLength (ctx : Arc4Ctx) (length : Nat) : Arc4Ctx :=
  Cipher.rounds (fun _ => advance) ctx (List.range length)

/-- The octet the text is added to, once the context has advanced. -/
def streamOctet (ctx : Arc4Ctx) : UInt8 :=
  ctx.keyBlock.get
    (ctx.keyBlock.get ctx.blockIndex2.toFin + ctx.keyBlock.get ctx.blockIndex1.toFin).toFin

/-- `ARC4_Compute` -/
def compute (ctx : Arc4Ctx) (inputBlock : List UInt8) : List UInt8 :=
  Cipher.keystream advance streamOctet ctx inputBlock

end Arc4Ctx

/-- `TKIP_GTK_KEY_WRAP` once it has its context; `TKIP_GTK_KEY_UNWRAP` calls it. -/
def tkipGtkKeyWrap (kek : Octets lenPtkKek) (iv : Octets lenKeyDescIv) (inputText : List UInt8) :
    List UInt8 :=
  ((Arc4Ctx.init (iv.toList ++ kek.toList)).discardKeyLength 256).compute inputText

/-- The wrapping is its own unwrapping, under one key and IV. -/
theorem tkipGtkKeyWrap_tkipGtkKeyWrap (kek : Octets lenPtkKek) (iv : Octets lenKeyDescIv)
    (inputText : List UInt8) :
    tkipGtkKeyWrap kek iv (tkipGtkKeyWrap kek iv inputText) = inputText :=
  Cipher.keystream_keystream _ _

@[simp] theorem length_tkipGtkKeyWrap (kek : Octets lenPtkKek) (iv : Octets lenKeyDescIv)
    (inputText : List UInt8) : (tkipGtkKeyWrap kek iv inputText).length = inputText.length :=
  Cipher.length_keystream _ _

/-! ## 2. AES key wrap -/

/-- `Default_IV` -/
def defaultIv : Octets 8 := List.Vector.replicate 8 0xA6

/-- `IV[7] ^= Number_Of_Block * Index_j + Index_i + 1`: only the last octet takes the count. -/
def xorCount (iv : Octets 8) (numberOfBlock : Nat) (ji : Nat × Nat) : Octets 8 :=
  iv.set 7 (iv.get 7 ^^^ UInt8.ofNat (numberOfBlock * ji.1 + ji.2 + 1))

/-- The two loops of `AES_Key_Wrap`: six passes over the blocks. -/
def wrapIndices (numberOfBlock : Nat) : List (Nat × Nat) :=
  (List.range 6).flatMap fun j => (List.range numberOfBlock).map fun i => (j, i)

/-- The body of the loops of `AES_Key_Wrap`; the state is `IV` and `pResult`. -/
def wrapRound (C : Crypto) (key : Octets 16) (numberOfBlock : Nat) (ji : Nat × Nat)
    (s : Octets 8 × List UInt8) : Octets 8 × List UInt8 :=
  let blockB := C.aesEncrypt key (.ofList 16 (s.1.toList ++ Mem.read s.2 (ji.2 * 8) 8))
  (xorCount (blockB.slice 0 8) numberOfBlock ji, Mem.write s.2 (ji.2 * 8) (blockB.slice 8 8).toList)

/-- `AES_Key_Wrap` once it has its memory. -/
def aesKeyWrap (C : Crypto) (key : Octets 16) (plainText : List UInt8) : List UInt8 :=
  let numberOfBlock := plainText.length / 8
  let s := Cipher.rounds (wrapRound C key numberOfBlock) (defaultIv, plainText)
    (wrapIndices numberOfBlock)
  s.1.toList ++ s.2

/-- The body of the loops of `AES_Key_Unwrap`. -/
def unwrapRound (C : Crypto) (key : Octets 16) (numberOfBlock : Nat) (ji : Nat × Nat)
    (s : Octets 8 × List UInt8) : Octets 8 × List UInt8 :=
  let iv := xorCount s.1 numberOfBlock ji
  let blockB := C.aesDecrypt key (.ofList 16 (iv.toList ++ Mem.read s.2 (ji.2 * 8) 8))
  (blockB.slice 0 8, Mem.write s.2 (ji.2 * 8) (blockB.slice 8 8).toList)

/-- `PlainLength`, an unsigned difference of 32 bits. -/
def unwrapLength (cipherTextLength : Nat) : Nat :=
  (cipherTextLength + 2 ^ 32 - 8) % 2 ^ 32

/-- The loops of `AES_Key_Unwrap`, which both run down. The integrity value that they leave in `IV`
is not compared with anything. -/
def unwrapBlocks (C : Crypto) (key : Octets 16) (cipherText : List UInt8) (plainLength : Nat) :
    List UInt8 :=
  let numberOfBlock := plainLength / 8
  (Cipher.rounds (unwrapRound C key numberOfBlock)
    (.ofList 8 (Mem.read cipherText 0 8), Mem.read cipherText 8 plainLength)
    (wrapIndices numberOfBlock).reverse).2

/-- `AES_Key_Unwrap` once it has its memory. -/
def aesKeyUnwrap (C : Crypto) (key : Octets 16) (cipherText : List UInt8)
    (cipherTextLength : Nat) : List UInt8 :=
  unwrapBlocks C key cipherText (unwrapLength cipherTextLength)

theorem unwrapLength_add_eight {n : Nat} (h : n + 8 < 2 ^ 32) : unwrapLength (n + 8) = n := by
  rw [unwrapLength]
  omega

/-- Adding the count twice adds nothing. -/
theorem xorCount_xorCount (iv : Octets 8) (numberOfBlock : Nat) (ji : Nat × Nat) :
    xorCount (xorCount iv numberOfBlock ji) numberOfBlock ji = iv := by
  refine List.Vector.ext fun i => ?_
  rw [xorCount, xorCount]
  by_cases hi : i = 7
  · subst hi
    simp [UInt8.xor_assoc]
  · rw [List.Vector.get_set_of_ne (Ne.symm hi), List.Vector.get_set_of_ne (Ne.symm hi)]

theorem length_wrapRound {C : Crypto} {key : Octets 16} {numberOfBlock : Nat} {ji : Nat × Nat}
    {s : Octets 8 × List UInt8} (h : ji.2 * 8 + 8 ≤ s.2.length) :
    (wrapRound C key numberOfBlock ji s).2.length = s.2.length :=
  Mem.length_write (by simpa using h)

/-- One pass of the unwrapping undoes one pass of the wrapping: the count goes away, the cipher is
inverted, and the block it replaced comes back. -/
theorem unwrapRound_wrapRound {C : Crypto} (hC : C.AesInverse) {key : Octets 16}
    {numberOfBlock : Nat} {ji : Nat × Nat} {s : Octets 8 × List UInt8}
    (h : ji.2 * 8 + 8 ≤ s.2.length) :
    unwrapRound C key numberOfBlock ji (wrapRound C key numberOfBlock ji s) = s := by
  set blockIn := Octets.ofList 16 (s.1.toList ++ Mem.read s.2 (ji.2 * 8) 8) with hin
  set blockB := C.aesEncrypt key blockIn with hB
  have hread : Mem.read (Mem.write s.2 (ji.2 * 8) (blockB.slice 8 8).toList) (ji.2 * 8) 8 =
      (blockB.slice 8 8).toList := by
    have hw := Mem.read_write s.2 (blockB.slice 8 8).toList (ji.2 * 8)
    rwa [List.Vector.toList_length] at hw
  have hdec : C.aesDecrypt key (.ofList 16 ((blockB.slice 0 8).toList ++ (blockB.slice 8 8).toList)) =
      blockIn := by
    rw [Octets.ofList_slice_append (m := 8) (n := 8) blockB, hB, hC]
  have hcut := Octets.slice_append (n := 8) s.1 (Mem.length_read s.2 (ji.2 * 8) 8)
  have hrestore : Mem.write (Mem.write s.2 (ji.2 * 8) (blockB.slice 8 8).toList) (ji.2 * 8)
      (Mem.read s.2 (ji.2 * 8) 8) = s.2 := by
    have hfits : ji.2 * 8 + (blockB.slice 8 8).toList.length ≤ s.2.length := by simpa using h
    have hw := Mem.write_write_read hfits
    rwa [List.Vector.toList_length] at hw
  simp only [unwrapRound, wrapRound, ← hin, ← hB, xorCount_xorCount, hread, hdec]
  rw [hin, hcut.1, hcut.2, hrestore]

theorem mem_wrapIndices {numberOfBlock : Nat} {ji : Nat × Nat} (h : ji ∈ wrapIndices numberOfBlock) :
    ji.2 < numberOfBlock := by
  simp only [wrapIndices, List.mem_flatMap, List.mem_map, List.mem_range] at h
  obtain ⟨j, -, i, hi, rfl⟩ := h
  exact hi

/-- Every block the loops name lies within the text. -/
theorem wrapIndices_in_text {length : Nat} {ji : Nat × Nat} (h : ji ∈ wrapIndices (length / 8)) :
    ji.2 * 8 + 8 ≤ length := by
  have hi := mem_wrapIndices h
  omega

@[simp] theorem length_aesKeyWrap (C : Crypto) (key : Octets 16) (plainText : List UInt8) :
    (aesKeyWrap C key plainText).length = plainText.length + 8 := by
  have hlen : (Cipher.rounds (wrapRound C key (plainText.length / 8)) (defaultIv, plainText)
      (wrapIndices (plainText.length / 8))).2.length = plainText.length := by
    refine Cipher.rounds_invariant
      (fun s : Octets 8 × List UInt8 => s.2.length = plainText.length) ?_ rfl
    intro ji hji s hs
    rw [length_wrapRound (by rw [hs]; exact wrapIndices_in_text hji), hs]
  simp only [aesKeyWrap, List.length_append, List.Vector.toList_length, hlen]
  omega

/-- **Unwrapping undoes wrapping**, whatever stands behind the wrapped text. -/
theorem aesKeyUnwrap_aesKeyWrap {C : Crypto} (hC : C.AesInverse) (key : Octets 16)
    (plainText rest : List UInt8) (hlt : plainText.length + 8 < 2 ^ 32) :
    aesKeyUnwrap C key (aesKeyWrap C key plainText ++ rest) (plainText.length + 8) =
      plainText := by
  set is := wrapIndices (plainText.length / 8) with his
  set s := Cipher.rounds (wrapRound C key (plainText.length / 8)) (defaultIv, plainText) is with hs
  have hkeep : ∀ ji ∈ is, ∀ t : Octets 8 × List UInt8, t.2.length = plainText.length →
      (wrapRound C key (plainText.length / 8) ji t).2.length = plainText.length := by
    intro ji hji t ht
    rw [length_wrapRound (by rw [ht]; exact wrapIndices_in_text hji), ht]
  have hslen : s.2.length = plainText.length :=
    Cipher.rounds_invariant (fun t : Octets 8 × List UInt8 => t.2.length = plainText.length)
      hkeep rfl
  have hundo : Cipher.rounds (unwrapRound C key (plainText.length / 8)) s is.reverse =
      (defaultIv, plainText) := by
    refine Cipher.rounds_undo (fun t : Octets 8 × List UInt8 => t.2.length = plainText.length)
      hkeep ?_ rfl
    intro ji hji t ht
    exact unwrapRound_wrapRound hC (by rw [ht]; exact wrapIndices_in_text hji)
  have hiv : Mem.read (s.1.toList ++ s.2 ++ rest) 0 8 = s.1.toList := by
    have h := Mem.read_zero_of_append (l := s.1.toList) (m := s.2 ++ rest)
    rwa [List.Vector.toList_length, ← List.append_assoc] at h
  have htext : Mem.read (s.1.toList ++ s.2 ++ rest) 8 plainText.length = s.2 := by
    rw [Mem.read_eq_take (by simp; omega), List.append_assoc, List.drop_left' (by simp),
      ← hslen, List.take_left]
  rw [aesKeyUnwrap, unwrapLength_add_eight hlt, unwrapBlocks, aesKeyWrap]
  simp only [← his, ← hs]
  rw [hiv, htext, Octets.ofList_toList, Prod.mk.eta, hundo]

/-! ## 3. Derivation -/

/-- `RTMPCompareMemory`: 0 equal, 1 and 2 the first or the second is larger where they first
differ. -/
def rtmpCompareMemory : List UInt8 → List UInt8 → Nat
  | a :: as, b :: bs => if b < a then 1 else if a < b then 2 else rtmpCompareMemory as bs
  | _, _ => 0

/-- `PRF` once it has its memory: whole digests, so the output may be longer than `len`. -/
def prf (C : Crypto) (key label data : List UInt8) (len : Nat) : List UInt8 :=
  (List.range ((len + 19) / 20)).flatMap fun i =>
    (C.hmacSha1 key (label ++ 0 :: data ++ [UInt8.ofNat i])).toList

/-- "Pairwise key expansion" -/
def ptkLabel : List UInt8 :=
  [0x50, 0x61, 0x69, 0x72, 0x77, 0x69, 0x73, 0x65, 0x20, 0x6b, 0x65, 0x79, 0x20,
    0x65, 0x78, 0x70, 0x61, 0x6e, 0x73, 0x69, 0x6f, 0x6e]

/-- "Group key expansion" -/
def gtkLabel : List UInt8 :=
  [0x47, 0x72, 0x6f, 0x75, 0x70, 0x20, 0x6b, 0x65, 0x79, 0x20,
    0x65, 0x78, 0x70, 0x61, 0x6e, 0x73, 0x69, 0x6f, 0x6e]

/-- The 76 octets `WpaDerivePTK` expands: the addresses and the nonces, the smaller first. Equal
nonces are replaced by the larger address. -/
def ptkConcatenation (aNonce : Octets 32) (aa : MacAddr) (sNonce : Octets 32) (sa : MacAddr) :
    List UInt8 :=
  let saLarger := rtmpCompareMemory sa.toList aa.toList = 1
  let smaller := if saLarger then aa else sa
  let larger := if saLarger then sa else aa
  let temp := larger.toList.takeD 32 0
  let order := rtmpCompareMemory aNonce.toList sNonce.toList
  smaller.toList ++ larger.toList ++
    (if order = 0 then temp else if order = 1 then sNonce.toList else aNonce.toList) ++
    (if order = 0 then temp else if order = 1 then aNonce.toList else sNonce.toList)

/-- `WpaDerivePTK`; without memory `PRF` leaves the output as it was. -/
def wpaDerivePtk (C : Crypto) (env : Env) (pmk aNonce : Octets 32) (aa : MacAddr)
    (sNonce : Octets 32) (sa : MacAddr) : Octets lenPtk :=
  if env.alloc .prf then
    .ofList lenPtk (prf C pmk.toList ptkLabel (ptkConcatenation aNonce aa sNonce sa) lenPtk)
  else env.stackPtk

/-- `WpaDeriveGTK` for the 32 octets it is called with. -/
def wpaDeriveGtk (C : Crypto) (env : Env) (gmk gNonce : Octets 32) (aa : MacAddr) : Octets 32 :=
  if env.alloc .prf then
    .ofList 32 (prf C gmk.toList gtkLabel (aa.toList ++ gNonce.toList) lenTkipGtk)
  else env.stackGtk

/-! ## 4. Message integrity -/

/-- `&PTK[0]` -/
def kckOf (ptk : Octets lenPtk) : Octets lenPtkKck := ptk.slice 0 lenPtkKck

/-- `&PTK[LEN_PTK_KCK]` -/
def kekOf (ptk : Octets lenPtk) : Octets lenPtkKek := ptk.slice lenPtkKck lenPtkKek

/-- The three-way choice `CalculateMIC` and `PeerWpaMessageSanity` both make; any other version
leaves the code zero. -/
def micOf (C : Crypto) (keyDescVer : BitVec 3) (ptk : Octets lenPtk) (frame : List UInt8) :
    Octets lenKeyDescMic :=
  if keyDescVer = keyDescTkip then C.hmacMd5 (kckOf ptk).toList frame
  else if keyDescVer = keyDescAes then (C.hmacSha1 (kckOf ptk).toList frame).slice 0 lenKeyDescMic
  else if keyDescVer = keyDescExt then C.aesCmac (kckOf ptk).toList frame
  else .zero lenKeyDescMic

/-- What the code of a frame is computed over: the body of the length the frame states and the
four octets before it. -/
def EapolPacket.micInput (pkt : EapolPacket) : List UInt8 :=
  Mem.read pkt.octets 0 (pkt.bodyLen.toNat + 4)

/-- `CalculateMIC`; the caller has cleared the field. -/
def calculateMic (C : Crypto) (env : Env) (keyDescVer : BitVec 3) (ptk : Octets lenPtk)
    (pMsg : EapolPacket) : EapolPacket :=
  if env.alloc .mic then { pMsg with keyMic := micOf C keyDescVer ptk pMsg.micInput } else pMsg

end Mt7601.Wpa
