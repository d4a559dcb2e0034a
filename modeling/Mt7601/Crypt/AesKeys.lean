/-
# The AES block cipher for every length of key

`RT_AES_KeyExpansion`, `RT_AES_Encrypt` and `RT_AES_Decrypt` of `common/crypt_aes.c` for keys of 16,
24 and 32 octets. `Aes.lean` has them for keys of 16; here the number of words of the key is an
argument, as it is in the source, and:

* `rtAesEncryptOf_eq`: for each length the cipher is the one of FIPS 197, and for 16 octets the one
  of `Aes.lean`;
* `rtAesDecryptOf_rtAesEncryptOf`, `rtAesEncryptOf_rtAesDecryptOf`: the two directions are inverse
  to each other, both ways round.
-/
import Mathlib.Data.Fin.VecNotation
import Mathlib.Data.Fintype.Basic
import Mathlib.Data.List.GetD
import Mathlib.Tactic.FinCases
import Mathlib.Tactic.IntervalCases
import Mt7601.Crypt.Aes
import Mt7601.Lib.Fips197

namespace Mt7601.Crypt

/-! ## 1. The cipher -/

/-- A key of `AES_KEY128_LENGTH`, `AES_KEY192_LENGTH` or `AES_KEY256_LENGTH` octets. -/
structure AesKey where
  octets : List UInt8
  length_mem : octets.length = 16 ∨ octets.length = 24 ∨ octets.length = 32
  deriving DecidableEq

/-- A key of 16 octets is one. -/
def AesKey.ofOctets (key : Octets 16) : AesKey :=
  ⟨key.toList, Or.inl key.toList_length⟩

/-- `TempWord` for the word `KeyIndex`, with `NumberOfWordOfKey`. -/
def aesTempWordOf (numberOfWordOfKey keyIndex : Nat) (w : AesColumn) : AesColumn :=
  if keyIndex % numberOfWordOfKey = 0 then
    let rcon := aesRcon.getD (keyIndex / numberOfWordOfKey) 0
    { row0 := look aesSboxEnc w.row1 ^^^ (rcon >>> 24).toUInt8
      row1 := look aesSboxEnc w.row2 ^^^ (rcon >>> 16).toUInt8
      row2 := look aesSboxEnc w.row3 ^^^ (rcon >>> 8).toUInt8
      row3 := look aesSboxEnc w.row0 ^^^ rcon.toUInt8 }
  else if 6 < numberOfWordOfKey ∧ keyIndex % numberOfWordOfKey = 4 then w.map (look aesSboxEnc)
  else w

/-- One pass of the second loop of `RT_AES_KeyExpansion`; the words so far, last first. -/
def aesNextWordOf (numberOfWordOfKey : Nat) (words : List AesColumn) : List AesColumn :=
  (words.getD (numberOfWordOfKey - 1) {}).xor
    (aesTempWordOf numberOfWordOfKey words.length (words.getD 0 {})) :: words

/-- The word `KeyIndex` of the key itself. -/
def aesKeyWord (key : List UInt8) (keyIndex : Nat) : AesColumn :=
  ⟨key.getD (4 * keyIndex) 0, key.getD (4 * keyIndex + 1) 0, key.getD (4 * keyIndex + 2) 0,
    key.getD (4 * keyIndex + 3) 0⟩

/-- `RT_AES_KeyExpansion`: its first loop, and its second up to `NumberOfWordOfKeyExpansion`. -/
def rtAesKeyExpansionOf (key : List UInt8) : List AesColumn :=
  let numberOfWordOfKey := key.length / 4
  let numberOfWordOfKeyExpansion := 4 * (key.length / 4 + 6 + 1)
  (Cipher.rounds (fun _ => aesNextWordOf numberOfWordOfKey)
    ((List.range numberOfWordOfKey).map (aesKeyWord key)).reverse
    (List.range (numberOfWordOfKeyExpansion - numberOfWordOfKey))).reverse

/-- `RT_AES_Encrypt` -/
def rtAesEncryptOf (key : AesKey) (plainBlock : Octets 16) : Octets 16 :=
  aesEncryptBlock (rtAesKeyExpansionOf key.octets) (key.octets.length / 4 + 6) plainBlock

/-- `RT_AES_Decrypt` -/
def rtAesDecryptOf (key : AesKey) (cipherBlock : Octets 16) : Octets 16 :=
  aesDecryptBlock (rtAesKeyExpansionOf key.octets) (key.octets.length / 4 + 6) cipherBlock

/-! ## 2. The layers are those of the standard -/

/-- A table that lists the values of a function row by row. -/
theorem look_eq_of_rows {table : List UInt8} {f : UInt8 → UInt8}
    (h : ∀ k < 8, (table.drop (32 * k)).take 32 =
      (List.range' (32 * k) 32).map fun i => f (UInt8.ofNat i)) (b : UInt8) :
    look table b = f b := by
  have hb : b.toNat < 256 := b.toNat_lt
  have hj : b.toNat % 32 < 32 := Nat.mod_lt _ (by decide)
  have hrow := congrArg (·[b.toNat % 32]?) (h (b.toNat / 32) (by omega))
  have hplace : 32 * (b.toNat / 32) + b.toNat % 32 = b.toNat := Nat.div_add_mod _ _
  simp only [List.getElem?_take_of_lt hj, List.getElem?_drop, hplace, List.getElem?_map,
    List.getElem?_range' hj, Nat.one_mul, Option.map_some, UInt8.ofNat_toNat] at hrow
  rw [look, List.getD_eq_getElem?_getD, hrow, Option.getD_some]

/-- The kernel computes the inverses of one row at a time. -/
theorem look_aesSboxEnc (b : UInt8) : look aesSboxEnc b = Fips197.sBox b := by
  refine look_eq_of_rows (fun k hk => ?_) b
  interval_cases k <;> decide +kernel

theorem mul_two (b : UInt8) : Fips197.mul 2 b = look aesMul2 b :=
  (look_eq (by decide +kernel) b).symm

theorem mul_three (b : UInt8) : Fips197.mul 3 b = look aesMul3 b :=
  (look_eq (by decide +kernel) b).symm

/-- A column as a word. -/
def AesColumn.word (c : AesColumn) : Fips197.Word := ![c.row0, c.row1, c.row2, c.row3]

theorem AesColumn.word_xor (c d : AesColumn) :
    (c.xor d).word = Fips197.addWord c.word d.word := by
  funext r
  fin_cases r <;> rfl

namespace AesState

/-- The state by row and column. -/
def rows (s : AesState) : Fips197.State := fun r c =>
  ![s.col0.word, s.col1.word, s.col2.word, s.col3.word] c r

theorem rows_ofBlock : ∀ block : Octets 16, (ofBlock block).rows = Fips197.input block
  | ⟨[_, _, _, _, _, _, _, _, _, _, _, _, _, _, _, _], _⟩ => by
    funext r c
    fin_cases r <;> fin_cases c <;> rfl

theorem output_rows (s : AesState) : Fips197.output s.rows = s.toBlock := rfl

theorem rows_subBytes (s : AesState) : s.subBytes.rows = Fips197.subBytes s.rows := by
  funext r c
  fin_cases r <;> fin_cases c <;> exact look_aesSboxEnc _

theorem rows_shiftRows (s : AesState) : s.shiftRows.rows = Fips197.shiftRows s.rows := by
  funext r c
  -- the octet itself, before the two states are compared
  fin_cases r <;> fin_cases c <;> (conv_lhs => whnf) <;> rfl

/-- The mixing of a column is the circulant matrix. -/
theorem word_mix (c : AesColumn) (r : Fin 4) :
    c.mix.word r = Fips197.mul 2 (c.word r) ^^^ Fips197.mul 3 (c.word (r + 1)) ^^^
      c.word (r + 2) ^^^ c.word (r + 3) := by
  rw [mul_two, mul_three]
  fin_cases r <;> simp [AesColumn.mix, AesColumn.word] <;> ac_rfl

theorem rows_mixColumns (s : AesState) : s.mixColumns.rows = Fips197.mixColumns s.rows := by
  funext r c
  fin_cases c <;> exact word_mix _ r

theorem rows_addRoundKey {words : List AesColumn} {w : Nat → Fips197.Word} {round : Nat}
    (s : AesState) (h : ∀ i < 4, (words.getD (round * 4 + i) {}).word = w (4 * round + i)) :
    (s.addRoundKey (aesRoundKey words round)).rows = Fips197.addRoundKey w round s.rows := by
  have hcol : ∀ (c : AesColumn) (r : Fin 4) (i : Nat), i < 4 →
      (c.xor (words.getD (round * 4 + i) {})).word r = c.word r ^^^ w (4 * round + i) r := by
    intro c r i hi
    rw [AesColumn.word_xor, h i hi]
    rfl
  funext r c
  fin_cases c
  · exact hcol _ r 0 (by decide)
  · exact hcol _ r 1 (by decide)
  · exact hcol _ r 2 (by decide)
  · exact hcol _ r 3 (by decide)

end AesState

/-! ## 3. The key expansion is that of the standard -/

/-- The words are the first `n` of the schedule `w`. -/
def Expands (words : List AesColumn) (w : Nat → Fips197.Word) (n : Nat) : Prop :=
  ∀ i < n, (words.getD i {}).word = w i

theorem word_aesKeyWord (key : List UInt8) (i : Nat) :
    (aesKeyWord key i).word = fun r : Fin 4 => key.getD (4 * i + r) 0 := by
  funext r
  fin_cases r <;> rfl

/-- `aes_rcon` are the powers of `x`, as far as it goes. -/
theorem rcon_aesRcon : ∀ j < 11, 0 < j →
    (((aesRcon.getD j 0) >>> 24).toUInt8 = UInt8.ofNat (Fips197.xtimes^[j - 1] 1) ∧
      ((aesRcon.getD j 0) >>> 16).toUInt8 = 0 ∧ ((aesRcon.getD j 0) >>> 8).toUInt8 = 0 ∧
      (aesRcon.getD j 0).toUInt8 = 0) := by
  decide +kernel

theorem word_aesTempWordOf {nk i : Nat} (hnk : 0 < nk) (hi : nk ≤ i) (hlt : i < 11 * nk)
    (w : AesColumn) : (aesTempWordOf nk i w).word = Fips197.temp nk i w.word := by
  rw [aesTempWordOf, Fips197.temp]
  by_cases hzero : i % nk = 0
  · rw [if_pos hzero, if_pos hzero]
    have hj : i / nk < 11 := Nat.div_lt_of_lt_mul (by rwa [Nat.mul_comm])
    obtain ⟨h24, h16, h8, h0⟩ := rcon_aesRcon (i / nk) hj (Nat.div_pos hi hnk)
    funext r
    fin_cases r
    · exact congrArg₂ (· ^^^ ·) (look_aesSboxEnc _) h24
    · exact congrArg₂ (· ^^^ ·) (look_aesSboxEnc _) h16
    · exact congrArg₂ (· ^^^ ·) (look_aesSboxEnc _) h8
    · exact congrArg₂ (· ^^^ ·) (look_aesSboxEnc _) h0
  · rw [if_neg hzero, if_neg hzero]
    by_cases hfour : 6 < nk ∧ i % nk = 4
    · rw [if_pos hfour, if_pos hfour]
      funext r
      fin_cases r <;> exact look_aesSboxEnc _
    · rw [if_neg hfour, if_neg hfour]

/-- What the second loop keeps: the words so far are those of the schedule, last first. -/
structure ExpandsSoFar (nk : Nat) (key : List UInt8) (words : List AesColumn) : Prop where
  filled : nk ≤ words.length
  words_eq : ∀ i < words.length,
    (words.getD (words.length - 1 - i) {}).word = Fips197.word nk key i

theorem ExpandsSoFar.aesNextWordOf {nk : Nat} {key : List UInt8} {words : List AesColumn}
    (hnk : 0 < nk) (hlt : words.length < 11 * nk) (h : ExpandsSoFar nk key words) :
    ExpandsSoFar nk key (aesNextWordOf nk words) := by
  have hfilled := h.filled
  have hlast := h.words_eq (words.length - 1) (by omega)
  have hback := h.words_eq (words.length - nk) (by omega)
  rw [Nat.sub_self] at hlast
  rw [show words.length - 1 - (words.length - nk) = nk - 1 by omega] at hback
  constructor
  · rw [Crypt.aesNextWordOf, List.length_cons]
    omega
  · intro i hi
    rw [Crypt.aesNextWordOf, List.length_cons] at hi ⊢
    rcases Nat.lt_or_ge i words.length with hold | hnew
    · rw [show words.length + 1 - 1 - i = (words.length - 1 - i) + 1 by omega, List.getD_cons_succ]
      exact h.words_eq i hold
    · obtain rfl : i = words.length := by omega
      rw [show words.length + 1 - 1 - words.length = 0 by omega, List.getD_cons_zero,
        AesColumn.word_xor, word_aesTempWordOf hnk hfilled hlt, hlast, hback,
        Fips197.word_of_le key hnk hfilled]

/-- The words of the key itself begin the schedule. -/
theorem expandsSoFar_keyWords (nk : Nat) (key : List UInt8) :
    ExpandsSoFar nk key ((List.range nk).map (aesKeyWord key)).reverse := by
  constructor
  · simp
  · intro i hi
    rw [List.length_reverse, List.length_map, List.length_range] at hi ⊢
    rw [Fips197.word_of_lt key hi, ← word_aesKeyWord, List.getD_eq_getElem _ _ (by simp; omega),
      List.getElem_reverse, List.getElem_map, List.getElem_range, List.length_map,
      List.length_range]
    congr 1
    congr 1
    omega

/-- **`RT_AES_KeyExpansion`** makes the schedule of the standard. -/
theorem expands_rtAesKeyExpansionOf (key : AesKey) :
    Expands (rtAesKeyExpansionOf key.octets) (Fips197.word (key.octets.length / 4) key.octets)
      (4 * (key.octets.length / 4 + 7)) := by
  set nk := key.octets.length / 4 with hnk
  have hpos : 4 ≤ nk := by
    rcases key.length_mem with h | h | h <;> omega
  have hloop : ∀ n, n ≤ 3 * nk + 28 →
      ExpandsSoFar nk key.octets (Cipher.rounds (fun _ => aesNextWordOf nk)
        ((List.range nk).map (aesKeyWord key.octets)).reverse (List.range n)) ∧
      (Cipher.rounds (fun _ => aesNextWordOf nk)
        ((List.range nk).map (aesKeyWord key.octets)).reverse (List.range n)).length = nk + n := by
    intro n
    induction n with
    | zero =>
      intro _
      exact ⟨expandsSoFar_keyWords _ _, by simp [Cipher.rounds]⟩
    | succ n ih =>
      intro hn
      obtain ⟨hsofar, hlen⟩ := ih (by omega)
      rw [List.range_succ, Cipher.rounds_append, Cipher.rounds_cons, Cipher.rounds_nil]
      refine ⟨hsofar.aesNextWordOf (by omega) (by omega), ?_⟩
      rw [aesNextWordOf, List.length_cons, hlen]
      omega
  obtain ⟨hsofar, hlen⟩ := hloop (4 * (nk + 6 + 1) - nk) (by omega)
  intro i hi
  have hword := hsofar.words_eq i (by omega)
  rw [rtAesKeyExpansionOf, ← hword, ← hnk, List.getD_eq_getElem _ _ (by rw [List.length_reverse]; omega), List.getElem_reverse,
    List.getD_eq_getElem _ _ (by omega)]

/-! ## 4. The cipher is that of the standard -/

/-- The state after each round. -/
theorem rows_rounds {words : List AesColumn} {w : Nat → Fips197.Word} {n : Nat}
    (h : Expands words w (4 * (n + 1))) (block : Octets 16) :
    (Cipher.rounds (aesEncryptRound words)
      ((AesState.ofBlock block).addRoundKey (aesRoundKey words 0)) (List.range' 1 n)).rows =
      Fips197.afterRound w (Fips197.input block) n := by
  induction n with
  | zero =>
    rw [Fips197.afterRound, ← AesState.rows_ofBlock]
    exact AesState.rows_addRoundKey _ fun i hi => h _ (by omega)
  | succ n ih =>
    have hprev := ih fun i hi => h i (by omega)
    have hkey : ∀ i < 4, (words.getD ((n + 1) * 4 + i) {}).word = w (4 * (n + 1) + i) := by
      intro i hi
      rw [Nat.mul_comm]
      exact h _ (by omega)
    rw [List.range'_concat, Cipher.rounds_append, Cipher.rounds_cons, Cipher.rounds_nil,
      Nat.one_mul, Nat.add_comm 1 n, Fips197.afterRound, ← hprev, aesEncryptRound,
      AesState.rows_addRoundKey _ hkey, AesState.rows_mixColumns, AesState.rows_shiftRows,
      AesState.rows_subBytes]

/-- **Encryption with an expanded key.** -/
theorem aesEncryptBlock_eq {words : List AesColumn} {w : Nat → Fips197.Word} {nr : Nat}
    (hnr : 0 < nr) (h : Expands words w (4 * (nr + 1))) (block : Octets 16) :
    aesEncryptBlock words nr block = Fips197.encrypt w nr block := by
  have hrounds := rows_rounds (n := nr - 1) (fun i hi => h i (by omega)) block
  rw [Fips197.encrypt, ← hrounds, aesEncryptBlock, ← AesState.rows_subBytes,
    ← AesState.rows_shiftRows, ← AesState.rows_addRoundKey, AesState.output_rows]
  intro i hi
  rw [Nat.mul_comm]
  exact h _ (by omega)

/-- **`RT_AES_Encrypt` is the cipher of FIPS 197**, for each length of key. -/
theorem rtAesEncryptOf_eq (key : AesKey) (block : Octets 16) :
    rtAesEncryptOf key block = Fips197.cipher key.octets block :=
  aesEncryptBlock_eq (Nat.succ_pos _) (expands_rtAesKeyExpansionOf key) block

/-! ## 5. Keys of 16 octets -/

theorem aesNextWordOf_four : aesNextWordOf 4 = aesNextWord := by
  have htemp : ∀ i w, aesTempWordOf 4 i w = aesTempWord i w := by
    intro i w
    rw [aesTempWordOf, aesTempWord]
    by_cases hzero : i % 4 = 0
    · rw [if_pos hzero, if_pos hzero]
    · rw [if_neg hzero, if_neg hzero, if_neg (by omega)]
  funext words
  rw [aesNextWordOf, aesNextWord, htemp]

theorem reverse_aesKeyWord : ∀ key : Octets 16,
    ((List.range 4).map (aesKeyWord key.toList)).reverse =
      [(AesState.ofBlock key).col3, (AesState.ofBlock key).col2, (AesState.ofBlock key).col1,
        (AesState.ofBlock key).col0]
  | ⟨[_, _, _, _, _, _, _, _, _, _, _, _, _, _, _, _], _⟩ => rfl

theorem rtAesKeyExpansionOf_ofOctets (key : Octets 16) :
    rtAesKeyExpansionOf (AesKey.ofOctets key).octets = rtAesKeyExpansion key := by
  rw [rtAesKeyExpansionOf, rtAesKeyExpansion, AesKey.ofOctets]
  simp only [List.Vector.toList_length, Nat.reduceDiv, Nat.reduceAdd, Nat.reduceMul, Nat.reduceSub,
    aesNextWordOf_four, reverse_aesKeyWord]

theorem rtAesEncryptOf_ofOctets (key block : Octets 16) :
    rtAesEncryptOf (AesKey.ofOctets key) block = rtAesEncrypt key block := by
  rw [rtAesEncryptOf, rtAesKeyExpansionOf_ofOctets]
  simp only [AesKey.ofOctets, List.Vector.toList_length]
  rfl

theorem rtAesEncrypt_eq_cipher (key block : Octets 16) :
    rtAesEncrypt key block = Fips197.cipher key.toList block := by
  rw [← rtAesEncryptOf_ofOctets, rtAesEncryptOf_eq]
  rfl

/-! ## 6. The two directions -/

theorem rtAesDecryptOf_rtAesEncryptOf (key : AesKey) (block : Octets 16) :
    rtAesDecryptOf key (rtAesEncryptOf key block) = block :=
  aesDecryptBlock_aesEncryptBlock _ _ block

/-- There are as many blocks as blocks, so it is an inverse on the other side too. -/
theorem rtAesEncryptOf_rtAesDecryptOf (key : AesKey) (block : Octets 16) :
    rtAesEncryptOf key (rtAesDecryptOf key block) = block :=
  Octets.rightInverse_of_leftInverse (rtAesDecryptOf_rtAesEncryptOf key) block

/-- **Both ways round, for each length of key.** -/
theorem rtAesOf_inverse (key : AesKey) (block : Octets 16) :
    rtAesDecryptOf key (rtAesEncryptOf key block) = block ∧
      rtAesEncryptOf key (rtAesDecryptOf key block) = block :=
  ⟨rtAesDecryptOf_rtAesEncryptOf key block, rtAesEncryptOf_rtAesDecryptOf key block⟩

end Mt7601.Crypt
