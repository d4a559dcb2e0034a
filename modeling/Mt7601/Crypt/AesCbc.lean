/-
# AES-CBC

`AES_CBC_Encrypt` and `AES_CBC_Decrypt` of `common/crypt_aes.c`, for each length of key. Each works
block by block on a buffer whose length is the room that the caller allows; an access outside it
stops the run, while the length at the end is computed as a `UINT`.

What is enciphered comes back with its length (`aesCbc_meets_iff`). A cipher text that somebody else
has made need not: its last octet is taken for the number of octets that were filled in, whatever it
is.
-/
import Mt7601.Crypt.AesCcm
import Mt7601.Crypt.AesKeys
import Mt7601.Lib.Cbc
import Mt7601.Lib.Checked

namespace Mt7601.Crypt

/-! ## 1. The functions -/

/-- The checks they fail on, each with a message and nothing written. -/
inductive CbcError
  | cipherTextLength
  | keyLength
  | ivLength
  deriving DecidableEq, Repr

/-- A text and its length. -/
abbrev CbcText := List UInt8 × Nat

def AesKey.ofOctets? (key : List UInt8) : Option AesKey :=
  if h : key.length = 16 ∨ key.length = 24 ∨ key.length = 32 then some ⟨key, h⟩ else none

theorem AesKey.ofOctets?_octets (key : AesKey) : AesKey.ofOctets? key.octets = some key :=
  dif_pos key.length_mem

/-- `KeyLength` and `IVLength`, and then the main algorithm. -/
def cbcChecked (key iv : List UInt8) (main : AesKey → Octets 16 → Checked CbcText) :
    Checked (Except CbcError CbcText) :=
  match AesKey.ofOctets? key with
  | none => .ok (.error .keyLength)
  | some key =>
    if iv.length ≠ 16 then .ok (.error .ivLength)
    else (main key (.ofList 16 iv)).map .ok

/-- `RT_AES_Encrypt` or `RT_AES_Decrypt` of a block to the place `start` of a buffer, with what the
buffer has left there as the block size: the buffer, and the block size it gives back. -/
def aesPut (block : Octets 16) (text : List UInt8) (start : Nat) : CbcText :=
  let blockSize := uintSub text.length start
  if blockSize < 16 then (text, blockSize) else (Mem.write text start block.toList, 16)

/-- What a block is added to: the vector at the start, else the cipher text in front of it. -/
def cbcChained (iv : Octets 16) (blockStart : Nat) (cipherText : List UInt8)
    (cipherBlockStart : Nat) : Checked (Octets 16) :=
  if blockStart = 0 then .ok iv
  else do
    let off ← Checked.sub cipherBlockStart 16
    Checked.access cipherText.length off 16
    .ok (.ofList 16 (Mem.read cipherText off 16))

/-- A block into `CipherText`; the second component is `CipherBlockStart`. -/
def cbcEncryptPass (key : AesKey) (iv block : Octets 16) (s : CbcText) : Checked CbcText := do
  let x ← cbcChained iv s.2 s.1 s.2
  let put := aesPut (rtAesEncryptOf key (Ccm.add block x)) s.1 s.2
  .ok (put.1, s.2 + put.2)

/-- The first `n` passes of the loop over `PlainText`. -/
def cbcEncryptLoop (key : AesKey) (iv : Octets 16) (plainText cipherText : List UInt8) :
    Nat → Checked CbcText
  | 0 => .ok (cipherText, 0)
  | n + 1 => do
    let s ← cbcEncryptLoop key iv plainText cipherText n
    cbcEncryptPass key iv (.ofList 16 (Mem.read plainText (16 * n) 16)) s

/-- The main algorithm: the whole blocks, then what is left with the octets filled in. -/
def cbcEncryptText (key : AesKey) (iv : Octets 16) (plainText cipherText : List UInt8) :
    Checked CbcText := do
  let paddingSize := 16 - plainText.length % 16
  let plainBlockStart := 16 * (plainText.length / 16)
  let s ← cbcEncryptLoop key iv plainText cipherText (plainText.length / 16)
  cbcEncryptPass key iv (.ofList 16 (plainText.drop plainBlockStart ++
    List.replicate paddingSize (UInt8.ofNat paddingSize))) s

/-- `AES_CBC_Encrypt` into the buffer `cipherText`, whose length is `*CipherTextLength`. -/
def aesCbcEncrypt (plainText key iv cipherText : List UInt8) :
    Checked (Except CbcError CbcText) :=
  let paddingSize := 16 - plainText.length % 16
  if cipherText.length < (plainText.length + paddingSize) % 2 ^ 32 then
    .ok (.error .cipherTextLength)
  else cbcChecked key iv fun key iv => cbcEncryptText key iv plainText cipherText

/-- The block `i` of `CipherText` into `PlainText`; the second component is `PlainBlockStart`. What
`RT_AES_Decrypt` has put there is changed in place, whether it had the room to put it there or not. -/
def cbcDecryptPass (key : AesKey) (iv : Octets 16) (cipherText : List UInt8) (i : Nat)
    (s : CbcText) : Checked CbcText := do
  let put := aesPut (rtAesDecryptOf key (.ofList 16 (Mem.read cipherText (16 * i) 16))) s.1 s.2
  let x ← cbcChained iv s.2 cipherText (16 * i)
  Checked.access put.1.length s.2 16
  let block := Ccm.add (.ofList 16 (Mem.read put.1 s.2 16)) x
  .ok (Mem.write put.1 s.2 block.toList, s.2 + put.2)

/-- The first `n` passes of the loop over `CipherText`. -/
def cbcDecryptLoop (key : AesKey) (iv : Octets 16) (cipherText plainText : List UInt8) :
    Nat → Checked CbcText
  | 0 => .ok (plainText, 0)
  | n + 1 => do
    let s ← cbcDecryptLoop key iv cipherText plainText n
    cbcDecryptPass key iv cipherText n s

/-- The main algorithm: the blocks, then the padding is taken off by its last octet. -/
def cbcDecryptText (key : AesKey) (iv : Octets 16) (cipherText plainText : List UInt8) :
    Checked CbcText := do
  let s ← cbcDecryptLoop key iv cipherText plainText (cipherText.length / 16)
  let last ← Checked.sub s.2 1
  Checked.access s.1.length last 1
  let paddingSize := (s.1.getD last 0).toNat
  .ok (s.1, uintSub s.2 paddingSize)

/-- `AES_CBC_Decrypt` into the buffer `plainText`, whose length is `*PlainTextLength`. -/
def aesCbcDecrypt (cipherText key iv plainText : List UInt8) :
    Checked (Except CbcError CbcText) :=
  if cipherText.length % 16 ≠ 0 then .ok (.error .cipherTextLength)
  else cbcChecked key iv fun key iv => cbcDecryptText key iv cipherText plainText

theorem cbcChecked_octets (key : AesKey) (iv : Octets 16)
    (main : AesKey → Octets 16 → Checked CbcText) :
    cbcChecked key.octets iv.toList main = (main key iv).map .ok := by
  rw [cbcChecked, AesKey.ofOctets?_octets]
  dsimp only
  rw [if_neg (by simp), Octets.ofList_toList]

/-! ## 2. The loops -/

section

variable {key : AesKey} {iv : Octets 16}

/-- A buffer with blocks written from its start on. -/
def cbcWritten (text : List UInt8) (bs : List (Octets 16)) : List UInt8 :=
  Mem.write text 0 (Cbc.octets bs)

theorem cbcWritten_nil (text : List UInt8) : cbcWritten text [] = text :=
  Mem.write_nil (Nat.zero_le _)

theorem length_cbcWritten {text : List UInt8} {bs : List (Octets 16)}
    (h : 16 * bs.length ≤ text.length) : (cbcWritten text bs).length = text.length :=
  Mem.length_write (by simpa using h)

theorem read_cbcWritten (text : List UInt8) (bs : List (Octets 16)) :
    Mem.read (cbcWritten text bs) 0 (16 * bs.length) = Cbc.octets bs := by
  have hread := Mem.read_write text (Cbc.octets bs) 0
  rwa [Cbc.length_octets] at hread

theorem write_cbcWritten (text : List UInt8) (bs : List (Octets 16)) (b : Octets 16) :
    Mem.write (cbcWritten text bs) (16 * bs.length) b.toList = cbcWritten text (bs ++ [b]) := by
  have happend := Mem.write_append text b.toList 0 (Cbc.length_octets bs)
  rw [Nat.zero_add] at happend
  rw [cbcWritten, happend, cbcWritten, Cbc.octets_concat]

/-- The last of the blocks written. -/
theorem read_cbcWritten_concat (text : List UInt8) (bs : List (Octets 16)) (b : Octets 16) :
    Mem.read (cbcWritten text (bs ++ [b])) (16 * bs.length) 16 = b.toList := by
  have hread := Mem.read_write (cbcWritten text bs) b.toList (16 * bs.length)
  rwa [b.toList_length, write_cbcWritten] at hread

/-- A block that there is room for. -/
theorem aesPut_eq (block : Octets 16) {text : List UInt8} {start : Nat}
    (hroom : start + 16 ≤ text.length) (hmax : text.length < 2 ^ 32) :
    aesPut block text start = (Mem.write text start block.toList, 16) := by
  rw [aesPut, uintSub_eq (by omega) hmax, if_neg (by omega)]

/-- A block is added to the one in front of it, as the chain says. -/
theorem cbcChained_eq (iv : Octets 16) {cipherText : List UInt8} {n : Nat}
    (hlen : 16 * n ≤ cipherText.length) :
    cbcChained iv (16 * n) cipherText (16 * n) = .ok ((Cbc.blocks n cipherText).getLastD iv) := by
  cases n with
  | zero => rfl
  | succ n =>
    rw [cbcChained, if_neg (by omega), Checked.sub_ok (by omega), Checked.ok_bind,
      show 16 * (n + 1) - 16 = 16 * n by omega, Checked.access_ok (by omega), Checked.ok_bind,
      Cbc.blocks_succ, List.getLastD_concat]

theorem blocks_cbcWritten {text : List UInt8} {bs : List (Octets 16)}
    (h : 16 * bs.length ≤ text.length) : Cbc.blocks bs.length (cbcWritten text bs) = bs := by
  have hwrite : cbcWritten text bs = Cbc.octets bs ++ text.drop (16 * bs.length) := by
    rw [cbcWritten, Mem.write_eq_take (by simpa using h), List.take_zero, List.nil_append,
      Nat.zero_add, Cbc.length_octets]
  rw [hwrite, Cbc.blocks_octets]

/-- **A pass of the encryption.** -/
theorem cbcEncryptPass_eq (block : Octets 16) {cipherText : List UInt8} {cs : List (Octets 16)}
    (hroom : 16 * cs.length + 16 ≤ cipherText.length) (hmax : cipherText.length < 2 ^ 32) :
    cbcEncryptPass key iv block (cbcWritten cipherText cs, 16 * cs.length) =
      .ok (cbcWritten cipherText (cs ++ [rtAesEncryptOf key (Ccm.add block (cs.getLastD iv))]),
        16 * cs.length + 16) := by
  have hlen : (cbcWritten cipherText cs).length = cipherText.length := length_cbcWritten (by omega)
  rw [cbcEncryptPass]
  dsimp only
  rw [cbcChained_eq iv (by omega), Checked.ok_bind, blocks_cbcWritten (by omega),
    aesPut_eq _ (by omega) (by omega), write_cbcWritten]

/-- **The passes of the encryption.** -/
theorem cbcEncryptLoop_eq {plainText cipherText : List UInt8} (hmax : cipherText.length < 2 ^ 32)
    {n : Nat} (hroom : 16 * n ≤ cipherText.length) :
    cbcEncryptLoop key iv plainText cipherText n =
      .ok (cbcWritten cipherText
        (Cbc.encipher (rtAesEncryptOf key) iv (Cbc.blocks n plainText)), 16 * n) := by
  induction n with
  | zero =>
    have hnil := cbcWritten_nil cipherText
    rw [cbcEncryptLoop, Cbc.blocks, Cbc.encipher, hnil]
  | succ n ih =>
    have hpass := @cbcEncryptPass_eq key iv (.ofList 16 (Mem.read plainText (16 * n) 16)) cipherText
      (Cbc.encipher (rtAesEncryptOf key) iv (Cbc.blocks n plainText)) (by simp; omega) hmax
    rw [Cbc.length_encipher, Cbc.length_blocks] at hpass
    rw [cbcEncryptLoop, ih (by omega), Checked.ok_bind, hpass, Cbc.blocks_succ,
      Cbc.encipher_concat, Nat.mul_succ]

/-- **`AES_CBC_Encrypt`**: the text filled up, under the chain. -/
theorem cbcEncryptText_eq {plainText cipherText : List UInt8} (hmax : cipherText.length < 2 ^ 32)
    (hroom : (Cbc.padded plainText).length ≤ cipherText.length) :
    cbcEncryptText key iv plainText cipherText =
      .ok (cbcWritten cipherText (Cbc.encipher (rtAesEncryptOf key) iv
        (Cbc.blocks (plainText.length / 16 + 1) (Cbc.padded plainText))),
        16 * (plainText.length / 16 + 1)) := by
  set n := plainText.length / 16 with hn
  rw [Cbc.length_padded, ← hn] at hroom
  have hblocks : Cbc.blocks n (Cbc.padded plainText) = Cbc.blocks n plainText :=
    Cbc.blocks_append (by omega) _
  have hlast : Octets.ofList 16 (plainText.drop (16 * n) ++
      List.replicate (16 - plainText.length % 16) (UInt8.ofNat (16 - plainText.length % 16))) =
        .ofList 16 (Mem.read (Cbc.padded plainText) (16 * n) 16) := by
    rw [Mem.read_eq_take (by rw [Cbc.length_padded]; omega), Cbc.padded,
      List.drop_append_of_le_length (by omega), List.take_of_length_le]
    · rfl
    · rw [List.length_append, List.length_drop, List.length_replicate, Cbc.padLength]
      omega
  have hpass := @cbcEncryptPass_eq key iv
    (.ofList 16 (Mem.read (Cbc.padded plainText) (16 * n) 16)) cipherText
    (Cbc.encipher (rtAesEncryptOf key) iv (Cbc.blocks n plainText)) (by simp; omega) hmax
  rw [Cbc.length_encipher, Cbc.length_blocks] at hpass
  rw [cbcEncryptText, ← hn, cbcEncryptLoop_eq hmax (by omega), Checked.ok_bind, hlast, hpass, Cbc.blocks_succ,
    Cbc.encipher_concat, hblocks]
  rfl

/-- **A pass of the decryption**, where there is room. -/
theorem cbcDecryptPass_eq {cipherText plainText : List UInt8} {ps : List (Octets 16)}
    (hlen : 16 * ps.length ≤ cipherText.length)
    (hroom : 16 * ps.length + 16 ≤ plainText.length) (hmax : plainText.length < 2 ^ 32) :
    cbcDecryptPass key iv cipherText ps.length (cbcWritten plainText ps, 16 * ps.length) =
      .ok (cbcWritten plainText (ps ++
        [Ccm.add (rtAesDecryptOf key (.ofList 16 (Mem.read cipherText (16 * ps.length) 16)))
          ((Cbc.blocks ps.length cipherText).getLastD iv)]), 16 * ps.length + 16) := by
  have hwritten : (cbcWritten plainText ps).length = plainText.length := length_cbcWritten (by omega)
  have hmore : ∀ b : Octets 16, (cbcWritten plainText (ps ++ [b])).length = plainText.length :=
    fun b => length_cbcWritten (by simp; omega)
  have hover : ∀ b c : Octets 16, Mem.write (cbcWritten plainText (ps ++ [b])) (16 * ps.length)
      c.toList = cbcWritten plainText (ps ++ [c]) := by
    intro b c
    rw [← write_cbcWritten, Mem.write_write _ _ (by simp), write_cbcWritten]
  rw [cbcDecryptPass]
  dsimp only
  rw [aesPut_eq _ (by omega) (by omega), write_cbcWritten]
  dsimp only
  rw [cbcChained_eq iv hlen, Checked.ok_bind, hmore, Checked.access_ok (by omega), Checked.ok_bind,
    read_cbcWritten_concat, Octets.ofList_toList, hover]

/-- **The passes of the decryption**, where there is room. -/
theorem cbcDecryptLoop_eq {cipherText plainText : List UInt8} (hmax : plainText.length < 2 ^ 32)
    {n : Nat} (hlen : 16 * n ≤ cipherText.length) (hroom : 16 * n ≤ plainText.length) :
    cbcDecryptLoop key iv cipherText plainText n =
      .ok (cbcWritten plainText
        (Cbc.decipher (rtAesDecryptOf key) iv (Cbc.blocks n cipherText)), 16 * n) := by
  induction n with
  | zero =>
    have hnil := cbcWritten_nil plainText
    rw [cbcDecryptLoop, Cbc.blocks, Cbc.decipher, hnil]
  | succ n ih =>
    have hpass := @cbcDecryptPass_eq key iv cipherText plainText
      (Cbc.decipher (rtAesDecryptOf key) iv (Cbc.blocks n cipherText)) (by simp; omega)
      (by simp; omega) hmax
    rw [Cbc.length_decipher, Cbc.length_blocks] at hpass
    rw [cbcDecryptLoop, ih (by omega) (by omega), Checked.ok_bind, hpass, Cbc.blocks_succ,
      Cbc.decipher_concat, Nat.mul_succ]

/-- Where there is none, the octets of the block that does not fit are changed all the same. -/
theorem cbcDecryptLoop_outside {cipherText plainText : List UInt8} (hmax : plainText.length < 2 ^ 32)
    {n : Nat} (hlen : 16 * n ≤ cipherText.length) (hroom : plainText.length < 16 * n) :
    cbcDecryptLoop key iv cipherText plainText n = .error .outside := by
  induction n with
  | zero => exact absurd hroom (Nat.not_lt_zero _)
  | succ n ih =>
    rw [cbcDecryptLoop]
    rcases Nat.lt_or_ge plainText.length (16 * n) with hbefore | hhere
    · rw [ih (by omega) hbefore, Checked.error_bind]
    · have hwritten : (cbcWritten plainText (Cbc.decipher (rtAesDecryptOf key) iv
          (Cbc.blocks n cipherText))).length = plainText.length :=
        length_cbcWritten (by simpa using hhere)
      have hput : ∀ b : Octets 16, (aesPut b (cbcWritten plainText
          (Cbc.decipher (rtAesDecryptOf key) iv (Cbc.blocks n cipherText))) (16 * n)).1.length =
            plainText.length := by
        intro b
        rw [aesPut, uintSub_eq (by omega) (by omega), if_pos (by omega)]
        exact hwritten
      rw [cbcDecryptLoop_eq hmax (by omega) hhere, Checked.ok_bind, cbcDecryptPass]
      dsimp only
      rw [cbcChained_eq iv (by omega), Checked.ok_bind, hput, Checked.access_error (by omega),
        Checked.error_bind]

/-- **`AES_CBC_Decrypt`**: the text under the chain, and its length less its last octet. -/
theorem cbcDecryptText_eq {cipherText plainText : List UInt8} {n : Nat} (hpos : 0 < n)
    (hlen : cipherText.length = 16 * n) (hroom : 16 * n ≤ plainText.length)
    (hmax : plainText.length < 2 ^ 32) :
    cbcDecryptText key iv cipherText plainText =
      .ok (cbcWritten plainText (Cbc.decipher (rtAesDecryptOf key) iv (Cbc.blocks n cipherText)),
        uintSub (16 * n) ((Cbc.octets (Cbc.decipher (rtAesDecryptOf key) iv
          (Cbc.blocks n cipherText))).getLastD 0).toNat) := by
  set ps := Cbc.decipher (rtAesDecryptOf key) iv (Cbc.blocks n cipherText) with hps
  have hcount : ps.length = n := by simp [hps]
  have hoctets : (Cbc.octets ps).length = 16 * n := by rw [Cbc.length_octets, hcount]
  have hwritten : (cbcWritten plainText ps).length = plainText.length :=
    length_cbcWritten (by omega)
  have hlast : (cbcWritten plainText ps).getD (16 * n - 1) 0 = (Cbc.octets ps).getLastD 0 := by
    have hread := read_cbcWritten plainText ps
    have hat := Mem.getD_read (cbcWritten plainText ps) 0 (show 16 * n - 1 < 16 * ps.length by omega)
    rw [hread, Nat.zero_add] at hat
    rw [← hat, List.getLastD_eq_getLast?, List.getLast?_eq_getElem?, hoctets,
      List.getD_eq_getElem?_getD]
  rw [cbcDecryptText, show cipherText.length / 16 = n by omega,
    cbcDecryptLoop_eq hmax (by omega) hroom, Checked.ok_bind]
  dsimp only
  rw [Checked.sub_ok (by omega), Checked.ok_bind, ← hps, hwritten, Checked.access_ok (by omega),
    Checked.ok_bind, hlast]

end

/-! ## 3. There and back, and what else is deciphered -/

/-- What is enciphered into any buffer with the room for it is deciphered, in any such buffer, to
the text and its length. -/
def CbcRoundTrip (key : AesKey) (iv : Octets 16) (plainText : List UInt8) : Prop :=
  ∀ buffer : List UInt8, buffer.length < 2 ^ 32 → (Cbc.padded plainText).length ≤ buffer.length →
    ∃ cipherText n, aesCbcEncrypt plainText key.octets iv.toList buffer =
        .ok (.ok (cipherText, n)) ∧ n = (Cbc.padded plainText).length ∧
      ∀ buffer : List UInt8, buffer.length < 2 ^ 32 → n ≤ buffer.length →
        ∃ text, aesCbcDecrypt (Mem.read cipherText 0 n) key.octets iv.toList buffer =
            .ok (.ok (text, plainText.length)) ∧
          Mem.read text 0 plainText.length = plainText

/-- `AES_CBC_Decrypt` fails with a message, or gives back a length below that of the cipher text. -/
def CbcDecryptMeets (cipherText key iv buffer : List UInt8) : Prop :=
  (∃ e, aesCbcDecrypt cipherText key iv buffer = .ok (.error e)) ∨
    ∃ text n, aesCbcDecrypt cipherText key iv buffer = .ok (.ok (text, n)) ∧ n < cipherText.length

/-- A cipher text of a text whose last octet is the number of octets, one at least, that can be
taken off it. -/
def CbcPadded (key : AesKey) (iv : Octets 16) (cipherText : List UInt8) : Prop :=
  ∃ text, cipherText = Cbc.octets (Cbc.encipher (Fips197.cipher key.octets) iv text) ∧
    1 ≤ ((Cbc.octets text).getLastD 0).toNat ∧
      ((Cbc.octets text).getLastD 0).toNat ≤ cipherText.length

section

variable {key : AesKey} {iv : Octets 16}

theorem aesCbcEncrypt_eq {plainText buffer : List UInt8} (hmax : buffer.length < 2 ^ 32)
    (hroom : (Cbc.padded plainText).length ≤ buffer.length) :
    aesCbcEncrypt plainText key.octets iv.toList buffer =
      .ok (.ok (cbcWritten buffer (Cbc.encipher (rtAesEncryptOf key) iv
        (Cbc.blocks (plainText.length / 16 + 1) (Cbc.padded plainText))),
        (Cbc.padded plainText).length)) := by
  have hfits : ¬ buffer.length < (plainText.length + (16 - plainText.length % 16)) % 2 ^ 32 := by
    rw [Cbc.length_padded] at hroom
    have hmod := Nat.mod_le (plainText.length + (16 - plainText.length % 16)) (2 ^ 32)
    omega
  rw [aesCbcEncrypt, if_neg hfits, cbcChecked_octets, cbcEncryptText_eq hmax hroom, Cbc.length_padded]
  rfl

/-- **The round trip.** -/
theorem cbcRoundTrip (key : AesKey) (iv : Octets 16) (plainText : List UInt8) :
    CbcRoundTrip key iv plainText := by
  intro buffer hmax hroom
  refine ⟨_, _, aesCbcEncrypt_eq hmax hroom, rfl, ?_⟩
  intro buffer' hmax' hroom'
  set n := plainText.length / 16 + 1 with hn
  set ps := Cbc.blocks n (Cbc.padded plainText) with hps
  have hpadded : (Cbc.padded plainText).length = 16 * n := Cbc.length_padded plainText
  have hcs : (Cbc.encipher (rtAesEncryptOf key) iv ps).length = n := by simp [hps]
  have hread : Mem.read (cbcWritten buffer (Cbc.encipher (rtAesEncryptOf key) iv ps)) 0
      (Cbc.padded plainText).length = Cbc.octets (Cbc.encipher (rtAesEncryptOf key) iv ps) := by
    have hall := read_cbcWritten buffer (Cbc.encipher (rtAesEncryptOf key) iv ps)
    rwa [hcs, ← hpadded] at hall
  have hlen : (Cbc.octets (Cbc.encipher (rtAesEncryptOf key) iv ps)).length = 16 * n := by
    rw [Cbc.length_octets, hcs]
  have hback : Cbc.decipher (rtAesDecryptOf key) iv
      (Cbc.blocks n (Cbc.octets (Cbc.encipher (rtAesEncryptOf key) iv ps))) = ps := by
    have hcut := Cbc.blocks_octets (Cbc.encipher (rtAesEncryptOf key) iv ps) []
    rw [hcs, List.append_nil] at hcut
    rw [hcut, Cbc.decipher_encipher (rtAesDecryptOf_rtAesEncryptOf key)]
  have hoctets : Cbc.octets ps = Cbc.padded plainText := Cbc.octets_blocks hpadded
  obtain ⟨hpos, hle⟩ := Cbc.padLength_bounds plainText
  have hcount : uintSub (16 * n) ((Cbc.octets ps).getLastD 0).toNat = plainText.length := by
    rw [hoctets, Cbc.getLastD_padded, uintSub_eq (by omega) (by omega), Cbc.padLength]
    omega
  refine ⟨cbcWritten buffer' ps, ?_, ?_⟩
  · rw [hread, aesCbcDecrypt, if_neg (by omega), cbcChecked_octets,
      cbcDecryptText_eq (by omega) hlen (by omega) hmax', hback, hcount]
    rfl
  · have hall := read_cbcWritten buffer' ps
    rw [show ps.length = n by simp [hps], ← hpadded, hoctets] at hall
    have hself := @Mem.read_zero_of_append (Cbc.padded plainText) []
    rw [List.append_nil] at hself
    have hfront : Mem.read (cbcWritten buffer' ps) 0 plainText.length =
        Mem.read (Cbc.padded plainText) 0 plainText.length :=
      Mem.read_congr (hall.trans hself.symm) (by omega)
    rw [hfront, Cbc.padded, Mem.read_zero_of_append]

/-- The octet the padding is taken off by. -/
theorem cbcPadded_iff {cipherText : List UInt8} {n : Nat} (hlen : cipherText.length = 16 * n) :
    CbcPadded key iv cipherText ↔
      1 ≤ ((Cbc.octets (Cbc.decipher (rtAesDecryptOf key) iv
          (Cbc.blocks n cipherText))).getLastD 0).toNat ∧
        ((Cbc.octets (Cbc.decipher (rtAesDecryptOf key) iv
          (Cbc.blocks n cipherText))).getLastD 0).toNat ≤ cipherText.length := by
  have hcipher : Fips197.cipher key.octets = rtAesEncryptOf key :=
    funext fun block => (rtAesEncryptOf_eq key block).symm
  rw [CbcPadded, hcipher]
  constructor
  · rintro ⟨text, htext, hbounds⟩
    have hcount : (Cbc.encipher (rtAesEncryptOf key) iv text).length = n := by
      have hsize := congrArg List.length htext
      rw [Cbc.length_octets, hlen] at hsize
      omega
    have hcut := Cbc.blocks_octets (Cbc.encipher (rtAesEncryptOf key) iv text) []
    rw [hcount, List.append_nil, ← htext] at hcut
    rwa [hcut, Cbc.decipher_encipher (rtAesDecryptOf_rtAesEncryptOf key)]
  · intro hbounds
    refine ⟨_, ?_, hbounds⟩
    rw [Cbc.encipher_decipher (rtAesEncryptOf_rtAesDecryptOf key), Cbc.octets_blocks hlen]

/-- **A cipher text of whole blocks**, under a key and a vector that pass the checks. -/
theorem cbcDecryptMeets_iff {cipherText buffer : List UInt8} (hwhole : cipherText.length % 16 = 0)
    (hcipher : cipherText.length < 2 ^ 32) (hmax : buffer.length < 2 ^ 32) :
    CbcDecryptMeets cipherText key.octets iv.toList buffer ↔
      cipherText.length ≤ buffer.length ∧ CbcPadded key iv cipherText := by
  obtain ⟨n, hlen⟩ : ∃ n, cipherText.length = 16 * n := ⟨cipherText.length / 16, by omega⟩
  have hrun : aesCbcDecrypt cipherText key.octets iv.toList buffer =
      (cbcDecryptText key iv cipherText buffer).map .ok := by
    rw [aesCbcDecrypt, if_neg (not_not_intro hwhole), cbcChecked_octets]
  rw [CbcDecryptMeets, hrun, cbcPadded_iff hlen]
  set last := ((Cbc.octets (Cbc.decipher (rtAesDecryptOf key) iv
    (Cbc.blocks n cipherText))).getLastD 0).toNat with hlast
  rcases Nat.eq_zero_or_pos n with rfl | hpos
  · -- no octet at all to take the padding off by
    have hstop : cbcDecryptText key iv cipherText buffer = .error .underflow := by
      rw [cbcDecryptText, show cipherText.length / 16 = 0 by omega]
      rfl
    rw [hstop]
    constructor
    · rintro (⟨e, he⟩ | ⟨text, m, hok, -⟩)
      · cases he
      · cases hok
    · rintro ⟨-, hone, hle⟩
      omega
  rcases Nat.lt_or_ge buffer.length (16 * n) with hshort | hroom
  · have hstop : cbcDecryptText key iv cipherText buffer = .error .outside := by
      rw [cbcDecryptText, show cipherText.length / 16 = n by omega,
        cbcDecryptLoop_outside hmax (by omega) hshort, Checked.error_bind]
    rw [hstop]
    constructor
    · rintro (⟨e, he⟩ | ⟨text, m, hok, -⟩)
      · cases he
      · cases hok
    · rintro ⟨hle, -⟩
      omega
  · have hlast256 : last < 256 := UInt8.toNat_lt _
    have hsub : uintSub (16 * n) last < 16 * n ↔ 1 ≤ last ∧ last ≤ 16 * n := by
      rw [uintSub]
      omega
    rw [cbcDecryptText_eq hpos hlen hroom hmax, ← hlast]
    constructor
    · rintro (⟨e, he⟩ | ⟨text, m, hok, hlt⟩)
      · cases he
      · have hm : uintSub (16 * n) last = m :=
          congrArg Prod.snd (Except.ok.inj (Except.ok.inj hok))
        rw [← hm, hlen, hsub] at hlt
        exact ⟨by omega, hlt.1, by omega⟩
    · rintro ⟨-, hone, hle⟩
      refine Or.inr ⟨_, _, rfl, ?_⟩
      rw [hlen, hsub]
      omega

/-- **The round trip holds always; the rest where the cipher text is one of a padded text, or is
refused.** -/
theorem aesCbc_meets_iff {cipherText key iv buffer : List UInt8}
    (hcipher : cipherText.length < 2 ^ 32) (hmax : buffer.length < 2 ^ 32) :
    (∀ key iv plainText, CbcRoundTrip key iv plainText) ∧
      (CbcDecryptMeets cipherText key iv buffer ↔
        (cipherText.length % 16 = 0 → ∀ aesKey : AesKey, aesKey.octets = key → iv.length = 16 →
          cipherText.length ≤ buffer.length ∧ CbcPadded aesKey (.ofList 16 iv) cipherText)) := by
  refine ⟨cbcRoundTrip, ?_⟩
  rcases Decidable.em (cipherText.length % 16 = 0) with hwhole | hpart
  · rcases Decidable.em (key.length = 16 ∨ key.length = 24 ∨ key.length = 32) with hkey | hkey
    · rcases Decidable.em (iv.length = 16) with hiv | hiv
      · have hiv' : (Octets.ofList 16 iv).toList = iv := by
          rw [Octets.toList_ofList, List.takeD_eq_take 0 (by omega),
            List.take_of_length_le (by omega)]
        have hmeets := @cbcDecryptMeets_iff ⟨key, hkey⟩ (.ofList 16 iv) cipherText buffer hwhole
          hcipher hmax
        rw [hiv'] at hmeets
        rw [hmeets]
        constructor
        · rintro h - aesKey rfl -
          exact h
        · intro h
          exact h hwhole _ rfl hiv
      · have hrefused : CbcDecryptMeets cipherText key iv buffer := by
          refine Or.inl ⟨.ivLength, ?_⟩
          rw [aesCbcDecrypt, if_neg (not_not_intro hwhole), cbcChecked, AesKey.ofOctets?,
            dif_pos hkey]
          dsimp only
          rw [if_pos hiv]
        exact ⟨fun _ _ _ _ h => absurd h hiv, fun _ => hrefused⟩
    · have hrefused : CbcDecryptMeets cipherText key iv buffer := by
        refine Or.inl ⟨.keyLength, ?_⟩
        rw [aesCbcDecrypt, if_neg (not_not_intro hwhole), cbcChecked, AesKey.ofOctets?,
          dif_neg hkey]
      refine ⟨fun _ _ aesKey haes => ?_, fun _ => hrefused⟩
      exact absurd (haes ▸ aesKey.length_mem) hkey
  · have hrefused : CbcDecryptMeets cipherText key iv buffer :=
      Or.inl ⟨.cipherTextLength, if_pos hpart⟩
    exact ⟨fun _ h => absurd h hpart, fun _ => hrefused⟩

end

namespace Example

/-- The cipher text of sixteen octets that were filled in. -/
def cbcEmpty : List UInt8 :=
  Cbc.octets (Cbc.encipher (Fips197.cipher (List.replicate 16 0)) (.zero 16)
    [.ofList 16 (List.replicate 16 16)])

theorem cbc_empty : CbcDecryptMeets cbcEmpty (List.replicate 16 0) (List.replicate 16 0)
    (List.replicate 16 0) := by
  have hlen : cbcEmpty.length = 16 := rfl
  refine (aesCbc_meets_iff (by rw [hlen]; decide) (by decide)).2.mpr ?_
  rintro - aesKey hkey -
  exact ⟨by rw [hlen]; decide, _, by rw [hkey]; rfl, by decide, by rw [hlen]; decide⟩

/-- **One block of zeros** under a key and a vector of zeros: its last octet, `0x3a`, is taken off a
length of 16. -/
theorem cbc_underflow : ¬ CbcDecryptMeets (List.replicate 16 0) (List.replicate 16 0)
    (List.replicate 16 0) (List.replicate 16 0) := by
  have hrun : (aesCbcDecrypt (List.replicate 16 0) (List.replicate 16 0) (List.replicate 16 0)
      (List.replicate 16 0)).map (fun r => r.map Prod.snd) = .ok (.ok (2 ^ 32 - 42)) := by
    decide +kernel
  rintro (⟨e, he⟩ | ⟨text, n, hok, hlt⟩)
  · rw [he] at hrun
    exact nomatch hrun
  · rw [hok] at hrun
    have hn : n = 2 ^ 32 - 42 := Except.ok.inj (Except.ok.inj hrun)
    rw [hn] at hlt
    exact absurd hlt (by decide)

end Example

end Mt7601.Crypt
