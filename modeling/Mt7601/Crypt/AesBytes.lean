/-
# The byte-serial AES cipher

`common/cmm_aes.c` has an AES of its own for the frames it deciphers in software: 128-bit keys, the
round key made as it goes along, `shift_row` and `mix_column` as separate passes over 16 octets. It
computes what `RT_AES_Encrypt` computes, and both compute AES-128 of FIPS 197
(`aes128k128d_eq_rtAesEncrypt`).

The octets of an array are those of a state taken column by column, so each pass is stated on
`toBlock`; the round key before round `r` is the words `4 r` to `4 r + 3` of the schedule.
-/
import Mathlib.Data.Vector.Zip
import Mt7601.Crypt.AesKeys

namespace Mt7601.Crypt

/-! ## 1. The passes -/

/-- `SboxTable` -/
def sboxTable : List UInt8 :=
  [0x63, 0x7c, 0x77, 0x7b, 0xf2, 0x6b, 0x6f, 0xc5, 0x30, 0x01, 0x67, 0x2b, 0xfe, 0xd7, 0xab, 0x76,
    0xca, 0x82, 0xc9, 0x7d, 0xfa, 0x59, 0x47, 0xf0, 0xad, 0xd4, 0xa2, 0xaf, 0x9c, 0xa4, 0x72, 0xc0,
    0xb7, 0xfd, 0x93, 0x26, 0x36, 0x3f, 0xf7, 0xcc, 0x34, 0xa5, 0xe5, 0xf1, 0x71, 0xd8, 0x31, 0x15,
    0x04, 0xc7, 0x23, 0xc3, 0x18, 0x96, 0x05, 0x9a, 0x07, 0x12, 0x80, 0xe2, 0xeb, 0x27, 0xb2, 0x75,
    0x09, 0x83, 0x2c, 0x1a, 0x1b, 0x6e, 0x5a, 0xa0, 0x52, 0x3b, 0xd6, 0xb3, 0x29, 0xe3, 0x2f, 0x84,
    0x53, 0xd1, 0x00, 0xed, 0x20, 0xfc, 0xb1, 0x5b, 0x6a, 0xcb, 0xbe, 0x39, 0x4a, 0x4c, 0x58, 0xcf,
    0xd0, 0xef, 0xaa, 0xfb, 0x43, 0x4d, 0x33, 0x85, 0x45, 0xf9, 0x02, 0x7f, 0x50, 0x3c, 0x9f, 0xa8,
    0x51, 0xa3, 0x40, 0x8f, 0x92, 0x9d, 0x38, 0xf5, 0xbc, 0xb6, 0xda, 0x21, 0x10, 0xff, 0xf3, 0xd2,
    0xcd, 0x0c, 0x13, 0xec, 0x5f, 0x97, 0x44, 0x17, 0xc4, 0xa7, 0x7e, 0x3d, 0x64, 0x5d, 0x19, 0x73,
    0x60, 0x81, 0x4f, 0xdc, 0x22, 0x2a, 0x90, 0x88, 0x46, 0xee, 0xb8, 0x14, 0xde, 0x5e, 0x0b, 0xdb,
    0xe0, 0x32, 0x3a, 0x0a, 0x49, 0x06, 0x24, 0x5c, 0xc2, 0xd3, 0xac, 0x62, 0x91, 0x95, 0xe4, 0x79,
    0xe7, 0xc8, 0x37, 0x6d, 0x8d, 0xd5, 0x4e, 0xa9, 0x6c, 0x56, 0xf4, 0xea, 0x65, 0x7a, 0xae, 0x08,
    0xba, 0x78, 0x25, 0x2e, 0x1c, 0xa6, 0xb4, 0xc6, 0xe8, 0xdd, 0x74, 0x1f, 0x4b, 0xbd, 0x8b, 0x8a,
    0x70, 0x3e, 0xb5, 0x66, 0x48, 0x03, 0xf6, 0x0e, 0x61, 0x35, 0x57, 0xb9, 0x86, 0xc1, 0x1d, 0x9e,
    0xe1, 0xf8, 0x98, 0x11, 0x69, 0xd9, 0x8e, 0x94, 0x9b, 0x1e, 0x87, 0xe9, 0xce, 0x55, 0x28, 0xdf,
    0x8c, 0xa1, 0x89, 0x0d, 0xbf, 0xe6, 0x42, 0x68, 0x41, 0x99, 0x2d, 0x0f, 0xb0, 0x54, 0xbb, 0x16]
/-- `rcon_table` of `next_key` -/
def rconTable : List UInt8 :=
  [0x01, 0x02, 0x04, 0x08, 0x10, 0x20, 0x40, 0x80, 0x1b, 0x36, 0x36, 0x36]

def xor32 (a b : Octets 4) : Octets 4 := List.Vector.zipWith (· ^^^ ·) a b

def xor128 (a b : Octets 16) : Octets 16 := List.Vector.zipWith (· ^^^ ·) a b

def rtmpCkipSbox (a : UInt8) : UInt8 := look sboxTable a

/-- `next_key`, which works in place: each word is added to the one before it. -/
def nextKey (key : Octets 16) (round : Nat) : Octets 16 :=
  let sboxKey : Octets 4 :=
    ⟨[rtmpCkipSbox (key.get 13), rtmpCkipSbox (key.get 14), rtmpCkipSbox (key.get 15),
      rtmpCkipSbox (key.get 12)], rfl⟩
  let rcon := rconTable.getD round 0
  let key0 := xor32 (key.slice 0 4) sboxKey
  let key0 := key0.set 0 (key0.get 0 ^^^ rcon)
  let key4 := xor32 (key.slice 4 4) key0
  let key8 := xor32 (key.slice 8 4) key4
  let key12 := xor32 (key.slice 12 4) key8
  .ofList 16 (key0.toList ++ key4.toList ++ key8.toList ++ key12.toList)

def byteSub (input : Octets 16) : Octets 16 := input.map rtmpCkipSbox

def shiftRow (input : Octets 16) : Octets 16 :=
  ⟨[input.get 0, input.get 5, input.get 10, input.get 15,
    input.get 4, input.get 9, input.get 14, input.get 3,
    input.get 8, input.get 13, input.get 2, input.get 7,
    input.get 12, input.get 1, input.get 6, input.get 11], rfl⟩

/-- `mix_column`. The octets of `andf7` lose their top bit before the shift, so nothing is carried
from one to the next. -/
def mixColumn (input : Octets 4) : Octets 4 :=
  let add1b : Octets 4 := input.map fun b => if b &&& 0x80 = 0x80 then 0x1b else 0x00
  let swapHalfs : Octets 4 := ⟨[input.get 2, input.get 3, input.get 0, input.get 1], rfl⟩
  let rotl : Octets 4 := ⟨[input.get 3, input.get 0, input.get 1, input.get 2], rfl⟩
  let andf7 := input.map (· &&& 0x7f)
  let shifted := fun i j =>
    if andf7.get j &&& 0x80 = 0x80 then (andf7.get i <<< 1) ||| 0x01 else andf7.get i <<< 1
  let andf7 : Octets 4 :=
    ⟨[(andf7.get 0 <<< 1) &&& 0xfe, shifted 1 0, shifted 2 1, shifted 3 2], rfl⟩
  let add1bf7 := xor32 add1b andf7
  let rotr := xor32 input add1bf7
  let rotr : Octets 4 := ⟨[rotr.get 1, rotr.get 2, rotr.get 3, rotr.get 0], rfl⟩
  xor32 (xor32 add1bf7 rotr) (xor32 swapHalfs rotl)

/-- One pass of the loop of `aes128k128d`; the state is `round_key` and `ciphertext`. -/
def aes128k128dRound (data : Octets 16) (round : Nat) (s : Octets 16 × Octets 16) :
    Octets 16 × Octets 16 :=
  if round = 0 then (nextKey s.1 round, xor128 s.1 data)
  else
    let intermediateb := shiftRow (byteSub s.2)
    if round = 10 then (s.1, xor128 intermediateb s.1)
    else
      let intermediatea : Octets 16 := .ofList 16
        ((mixColumn (intermediateb.slice 0 4)).toList ++
          (mixColumn (intermediateb.slice 4 4)).toList ++
          (mixColumn (intermediateb.slice 8 4)).toList ++
          (mixColumn (intermediateb.slice 12 4)).toList)
      (nextKey s.1 round, xor128 intermediatea s.1)

/-- `aes128k128d`; `ciphertext` is written before it is read. -/
def aes128k128d (key data : Octets 16) : Octets 16 :=
  (Cipher.rounds (aes128k128dRound data) (key, .zero 16) (List.range 11)).2

/-! ## 2. The passes on a state -/

/-- A column as four octets. -/
def AesColumn.octets (c : AesColumn) : Octets 4 := ⟨[c.row0, c.row1, c.row2, c.row3], rfl⟩

theorem xor128_toBlock (s t : AesState) :
    xor128 s.toBlock t.toBlock = (s.addRoundKey t).toBlock := rfl

theorem byteSub_toBlock (s : AesState) : byteSub s.toBlock = s.subBytes.toBlock := rfl

theorem shiftRow_toBlock (s : AesState) : shiftRow s.toBlock = s.shiftRows.toBlock := rfl

/-- `add1bf7`, of an octet shifted with a clear octet in front of it. -/
def add1bf7Of (b shifted : UInt8) : UInt8 :=
  (if b &&& 0x80 = 0x80 then 0x1b else 0x00) ^^^ shifted

/-- The shift drops the top bit, whether it is masked or not. -/
theorem shiftLeft_masked (b : UInt8) :
    (b &&& 0x7f) <<< 1 = b <<< (1 : UInt8) ∧
      (b <<< 1) &&& 0xfe = b <<< (1 : UInt8) ∧ (b &&& 0x7f) &&& 0x80 ≠ 0x80 ∧
      (b &&& 0x80 = 0x80 ↔ b.toBitVec.msb = true) := by
  have hall : ∀ i < 256,
      (UInt8.ofNat i &&& 0x7f) <<< 1 = UInt8.ofNat i <<< (1 : UInt8) ∧
        (UInt8.ofNat i <<< 1) &&& 0xfe = UInt8.ofNat i <<< (1 : UInt8) ∧
        (UInt8.ofNat i &&& 0x7f) &&& 0x80 ≠ 0x80 ∧
        (UInt8.ofNat i &&& 0x80 = 0x80 ↔ (UInt8.ofNat i).toBitVec.msb = true) := by
    decide +kernel
  have hb := hall b.toNat b.toNat_lt
  rwa [UInt8.ofNat_toNat] at hb

/-- The mask of the first octet takes nothing, and the other octets carry nothing over: each octet
is doubled. -/
theorem add1bf7_octet (b : UInt8) :
    add1bf7Of b (((b &&& 0x7f) <<< 1) &&& 0xfe) = look aesMul2 b ∧
      add1bf7Of b ((b &&& 0x7f) <<< 1) = look aesMul2 b ∧ ¬ (b &&& 0x7f) &&& 0x80 = 0x80 := by
  obtain ⟨hshift, hmask, hclear, hmsb⟩ := shiftLeft_masked b
  have hdouble : add1bf7Of b (b <<< 1) = look aesMul2 b := by
    rw [look_aesMul2, xtime, add1bf7Of, UInt8.xor_comm]
    simp only [hmsb]
  rw [hshift, hmask]
  exact ⟨hdouble, hdouble, hclear⟩

/-- **`mix_column` is `AES_MixColumns`.** -/
theorem mixColumn_octets (c : AesColumn) : mixColumn c.octets = c.mix.octets := by
  let first : UInt8 → UInt8 := fun b => add1bf7Of b (((b &&& 0x7f) <<< 1) &&& 0xfe)
  let next : UInt8 → UInt8 → UInt8 := fun p b => add1bf7Of b
    (if (p &&& 0x7f) &&& 0x80 = 0x80 then ((b &&& 0x7f) <<< 1) ||| 0x01 else (b &&& 0x7f) <<< 1)
  have hfirst : ∀ b, first b = look aesMul2 b := fun b => (add1bf7_octet b).1
  have hnext : ∀ p b, next p b = look aesMul2 b := by
    intro p b
    change add1bf7Of b (if (p &&& 0x7f) &&& 0x80 = 0x80 then _ else _) = _
    rw [if_neg (add1bf7_octet p).2.2]
    exact (add1bf7_octet b).2.1
  have hthree : ∀ b, look aesMul3 b = look aesMul2 b ^^^ b := by
    intro b
    rw [look_aesMul3, look_aesMul2]
  have hcolumn : mixColumn c.octets =
      ⟨[(first c.row0 ^^^ (c.row1 ^^^ next c.row0 c.row1)) ^^^ (c.row2 ^^^ c.row3),
        (next c.row0 c.row1 ^^^ (c.row2 ^^^ next c.row1 c.row2)) ^^^ (c.row3 ^^^ c.row0),
        (next c.row1 c.row2 ^^^ (c.row3 ^^^ next c.row2 c.row3)) ^^^ (c.row0 ^^^ c.row1),
        (next c.row2 c.row3 ^^^ (c.row0 ^^^ first c.row0)) ^^^ (c.row1 ^^^ c.row2)], rfl⟩ := rfl
  rw [hcolumn]
  refine List.Vector.toList_injective ?_
  simp only [hfirst, hnext, AesColumn.octets, AesColumn.mix, hthree, List.Vector.toList_mk,
    List.cons.injEq, and_true]
  refine ⟨?_, ?_, ?_, ?_⟩ <;> ac_rfl

/-- The four columns mixed and put together. -/
theorem mixColumns_toBlock (s : AesState) :
    Octets.ofList 16 ((mixColumn (s.toBlock.slice 0 4)).toList ++
      (mixColumn (s.toBlock.slice 4 4)).toList ++ (mixColumn (s.toBlock.slice 8 4)).toList ++
      (mixColumn (s.toBlock.slice 12 4)).toList) = s.mixColumns.toBlock := by
  have h0 : s.toBlock.slice 0 4 = s.col0.octets := rfl
  have h4 : s.toBlock.slice 4 4 = s.col1.octets := rfl
  have h8 : s.toBlock.slice 8 4 = s.col2.octets := rfl
  have h12 : s.toBlock.slice 12 4 = s.col3.octets := rfl
  rw [h0, h4, h8, h12, mixColumn_octets, mixColumn_octets, mixColumn_octets, mixColumn_octets]
  rfl

/-- `next_key` on the four words of a round key. -/
def nextRoundKey (k : AesState) (round : Nat) : AesState :=
  let temp : AesColumn :=
    { row0 := look aesSboxEnc k.col3.row1 ^^^ rconTable.getD round 0
      row1 := look aesSboxEnc k.col3.row2
      row2 := look aesSboxEnc k.col3.row3
      row3 := look aesSboxEnc k.col3.row0 }
  let col0 := k.col0.xor temp
  let col1 := k.col1.xor col0
  let col2 := k.col2.xor col1
  ⟨col0, col1, col2, k.col3.xor col2⟩

theorem nextKey_toBlock (k : AesState) (round : Nat) :
    nextKey k.toBlock round = (nextRoundKey k round).toBlock := by
  refine List.Vector.toList_injective ?_
  have hassoc : nextKey k.toBlock round =
      (let c0 : AesColumn := ⟨(k.col0.row0 ^^^ look aesSboxEnc k.col3.row1) ^^^
          rconTable.getD round 0, k.col0.row1 ^^^ look aesSboxEnc k.col3.row2,
          k.col0.row2 ^^^ look aesSboxEnc k.col3.row3, k.col0.row3 ^^^ look aesSboxEnc k.col3.row0⟩
        let c1 := k.col1.xor c0
        let c2 := k.col2.xor c1
        AesState.toBlock ⟨c0, c1, c2, k.col3.xor c2⟩) := rfl
  rw [hassoc, UInt8.xor_assoc]
  rfl

/-! ## 3. The round keys -/

/-- The round key is the words of round `round`. -/
structure RoundKeyIs (w : Nat → Fips197.Word) (round : Nat) (k : AesState) : Prop where
  col0 : k.col0.word = w (4 * round)
  col1 : k.col1.word = w (4 * round + 1)
  col2 : k.col2.word = w (4 * round + 2)
  col3 : k.col3.word = w (4 * round + 3)

theorem rcon_rconTable : ∀ round < 10,
    rconTable.getD round 0 = UInt8.ofNat (Fips197.xtimes^[round] 1) := by
  decide +kernel

/-- The first word of the next round key, which takes the substituted word and the constant. -/
theorem word_temp {round : Nat} (hround : round < 10) (c : AesColumn) :
    (AesColumn.mk (look aesSboxEnc c.row1 ^^^ rconTable.getD round 0) (look aesSboxEnc c.row2)
      (look aesSboxEnc c.row3) (look aesSboxEnc c.row0)).word =
      Fips197.temp 4 (4 * (round + 1)) c.word := by
  have hj : 4 * (round + 1) / 4 = round + 1 := by omega
  rw [Fips197.temp, if_pos (by omega), hj, rcon_rconTable round hround]
  simp only [look_aesSboxEnc]
  funext r
  fin_cases r
  · rfl
  all_goals exact (UInt8.xor_zero).symm

/-- **`next_key`** makes the words of the next round out of those of the last. -/
theorem RoundKeyIs.next {key : List UInt8} {round : Nat} {k : AesState} (hround : round < 10)
    (h : RoundKeyIs (Fips197.word 4 key) round k) :
    RoundKeyIs (Fips197.word 4 key) (round + 1) (nextRoundKey k round) := by
  have hword : ∀ i, i < 4 → Fips197.word 4 key (4 * (round + 1) + i) =
      Fips197.addWord (Fips197.word 4 key (4 * round + i))
        (Fips197.temp 4 (4 * (round + 1) + i) (Fips197.word 4 key (4 * round + 3 + i))) := by
    intro i hi
    rw [Fips197.word_of_le key (by decide) (by omega),
      show 4 * (round + 1) + i - 4 = 4 * round + i by omega,
      show 4 * (round + 1) + i - 1 = 4 * round + 3 + i by omega]
  -- the other words take the word before them as it is
  have htemp : ∀ i, 0 < i → i < 4 → ∀ v, Fips197.temp 4 (4 * (round + 1) + i) v = v := by
    intro i hpos hi v
    rw [Fips197.temp, if_neg (by omega), if_neg (by omega)]
  have hcol0 : (nextRoundKey k round).col0.word = Fips197.word 4 key (4 * (round + 1)) := by
    have h0 := hword 0 (by decide)
    simp only [Nat.add_zero] at h0
    rw [h0, ← h.col0, ← h.col3, ← word_temp hround, ← AesColumn.word_xor]
    rfl
  have hcol1 : (nextRoundKey k round).col1.word = Fips197.word 4 key (4 * (round + 1) + 1) := by
    rw [hword 1 (by decide), htemp 1 (by decide) (by decide), ← h.col1,
      show 4 * round + 3 + 1 = 4 * (round + 1) by omega, ← hcol0, ← AesColumn.word_xor]
    rfl
  have hcol2 : (nextRoundKey k round).col2.word = Fips197.word 4 key (4 * (round + 1) + 2) := by
    rw [hword 2 (by decide), htemp 2 (by decide) (by decide), ← h.col2,
      show 4 * round + 3 + 2 = 4 * (round + 1) + 1 by omega, ← hcol1, ← AesColumn.word_xor]
    rfl
  refine ⟨hcol0, hcol1, hcol2, ?_⟩
  rw [hword 3 (by decide), htemp 3 (by decide) (by decide), ← h.col3,
    show 4 * round + 3 + 3 = 4 * (round + 1) + 2 by omega, ← hcol2, ← AesColumn.word_xor]
  rfl

/-- The key itself is the first round key. -/
theorem roundKeyIs_key : ∀ key : Octets 16,
    RoundKeyIs (Fips197.word 4 key.toList) 0 (AesState.ofBlock key)
  | ⟨[_, _, _, _, _, _, _, _, _, _, _, _, _, _, _, _], _⟩ => by
    refine ⟨?_, ?_, ?_, ?_⟩
    all_goals
      rw [Fips197.word_of_lt _ (by decide)]
      funext r
      fin_cases r <;> rfl

theorem RoundKeyIs.rows_addRoundKey {w : Nat → Fips197.Word} {round : Nat} {k : AesState}
    (h : RoundKeyIs w round k) (s : AesState) :
    (s.addRoundKey k).rows = Fips197.addRoundKey w round s.rows := by
  funext r c
  fin_cases c
  · exact (congrFun (AesColumn.word_xor s.col0 k.col0) r).trans (congrArg _ (congrFun h.col0 r))
  · exact (congrFun (AesColumn.word_xor s.col1 k.col1) r).trans (congrArg _ (congrFun h.col1 r))
  · exact (congrFun (AesColumn.word_xor s.col2 k.col2) r).trans (congrArg _ (congrFun h.col2 r))
  · exact (congrFun (AesColumn.word_xor s.col3 k.col3) r).trans (congrArg _ (congrFun h.col3 r))

/-! ## 4. The loop -/

/-- **After `n + 1` passes** the state is that of the standard after round `n`, and the round key is
the one of round `n + 1`. -/
theorem rounds_aes128k128d (key data : Octets 16) {n : Nat} (hn : n < 10) :
    ∃ k t : AesState, Cipher.rounds (aes128k128dRound data) (key, .zero 16) (List.range (n + 1)) =
        (k.toBlock, t.toBlock) ∧
      RoundKeyIs (Fips197.word 4 key.toList) (n + 1) k ∧
      t.rows = Fips197.afterRound (Fips197.word 4 key.toList) (Fips197.input data) n := by
  induction n with
  | zero =>
    have hkey := roundKeyIs_key key
    refine ⟨nextRoundKey (AesState.ofBlock key) 0,
      (AesState.ofBlock data).addRoundKey (AesState.ofBlock key), ?_, hkey.next hn, ?_⟩
    · have hcomm : xor128 key data = xor128 data key := by
        refine List.Vector.ext fun i => ?_
        simp only [xor128, List.Vector.zipWith_get]
        exact UInt8.xor_comm _ _
      rw [List.range_succ, List.range_zero, List.nil_append, Cipher.rounds_cons, Cipher.rounds_nil,
        aes128k128dRound, if_pos rfl, hcomm, ← nextKey_toBlock, ← xor128_toBlock,
        AesState.toBlock_ofBlock, AesState.toBlock_ofBlock]
    · rw [Fips197.afterRound, hkey.rows_addRoundKey, AesState.rows_ofBlock]
  | succ n ih =>
    obtain ⟨k, t, hrun, hkey, hrows⟩ := ih (by omega)
    refine ⟨nextRoundKey k (n + 1), t.subBytes.shiftRows.mixColumns.addRoundKey k, ?_,
      hkey.next hn, ?_⟩
    · rw [List.range_succ, Cipher.rounds_append, hrun, Cipher.rounds_cons, Cipher.rounds_nil,
        aes128k128dRound, if_neg (Nat.succ_ne_zero n)]
      dsimp only
      rw [if_neg (by omega), byteSub_toBlock, shiftRow_toBlock, mixColumns_toBlock, xor128_toBlock,
        nextKey_toBlock]
    · rw [Fips197.afterRound, hkey.rows_addRoundKey, AesState.rows_mixColumns,
        AesState.rows_shiftRows, AesState.rows_subBytes, hrows]

theorem aes128k128d_eq_cipher (key data : Octets 16) :
    aes128k128d key data = Fips197.cipher key.toList data := by
  obtain ⟨k, t, hrun, hkey, hrows⟩ := rounds_aes128k128d key data (n := 9) (by decide)
  have hlast : aes128k128d key data = (t.subBytes.shiftRows.addRoundKey k).toBlock := by
    rw [aes128k128d, List.range_succ, Cipher.rounds_append, hrun, Cipher.rounds_cons,
      Cipher.rounds_nil, aes128k128dRound, if_neg (by decide)]
    dsimp only
    rw [if_pos rfl, byteSub_toBlock, shiftRow_toBlock, xor128_toBlock]
  rw [hlast, Fips197.cipher, Fips197.encrypt, List.Vector.toList_length, ← AesState.output_rows,
    hkey.rows_addRoundKey, AesState.rows_shiftRows, AesState.rows_subBytes, hrows]

/-- **The two ciphers are one, and AES-128.** -/
theorem aes128k128d_eq_rtAesEncrypt (key block : Octets 16) :
    aes128k128d key block = rtAesEncrypt key block ∧
      rtAesEncrypt key block = Fips197.cipher key.toList block :=
  ⟨(aes128k128d_eq_cipher key block).trans (rtAesEncrypt_eq_cipher key block).symm,
    rtAesEncrypt_eq_cipher key block⟩

end Mt7601.Crypt
