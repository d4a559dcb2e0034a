/-
# Quotients of big integers

`BigInteger_Div` takes the octets of the quotient one by one from the highest down, each found by
trial from an estimate on. The estimate comes from `BigInteger_GetByteValue`, which shifts one octet
too little, and at the lowest octet of a word by a negative number of octets. So what it divides are
not the leading octets, and the trial may begin behind the digit (`bigIntegerDiv_divides`).
-/
import Mt7601.Crypt.BigIntegerBin
import Mt7601.Crypt.Montgomery
import Mt7601.Lib.LongDivision

namespace Mt7601.Crypt

/-! ## 1. What is used of an octet and of a digit -/

/-- What has no meaning in the language. -/
inductive DivFault
  /-- A shift of a word by more than its bits. -/
  | shift
  | divisionByZero
  /-- An access outside of an array. -/
  | outside
  deriving DecidableEq, Repr

/-- `BigInteger_GetByteValue`. The word is in the array, as the octet is. -/
def bigIntegerGetByteValue (pBI : BigInteger) (index : Nat) : Except DivFault Nat :=
  let array := if 0 < index then (index - 1) / 4 else 0
  let shift := if 0 < index then (index - 1) % 4 else 0
  if pBI.pIntegerArray.length < array ∨ pBI.integerLength < index then .ok 0
  -- `Shift - 1` wraps
  else if shift = 0 then .error .shift
  else .ok (uint32GetByte (pBI.pIntegerArray.getD array 0) (shift - 1))

/-- `pMulBI`: all the words it has room for, and the `IntegerLength` of the last `BigInteger_AllocSize`,
which does not have to hold for the words. It never gets a sign. -/
structure MulBI where
  pIntegerArray : List UInt32
  integerLength : Nat

/-- The words up to `ArrayLength`. -/
def MulBI.words (m : MulBI) : List UInt32 := m.pIntegerArray.take (arrayLengthOf m.integerLength)

/-- `pMulBI->pIntegerArray[i] = w` -/
def MulBI.setWord (m : MulBI) (i : Nat) (w : UInt32) : Except DivFault MulBI :=
  if i < m.pIntegerArray.length then .ok { m with pIntegerArray := m.pIntegerArray.set i w }
  else .error .outside

/-- `pMulBI->pIntegerArray[i] = w`, under a condition -/
def MulBI.setWordIf (cond : Prop) [Decidable cond] (m : MulBI) (i : Nat) (w : UInt32) :
    Except DivFault MulBI :=
  if cond then m.setWord i w else .ok m

/-- A row of `BigInteger_Mul` in an array with this room; the carry goes on as in the reduction. -/
def mulRowRoom (first : UInt32) : List UInt32 → List UInt32 → UInt64 → Checked (List UInt32)
  | [], rs, carry => montCarry rs carry
  | _ :: _, [], _ => .error .outside
  | b :: bs, r :: rs, carry => do
    let sum := r.toUInt64 + b.toUInt64 * first.toUInt64 + carry
    let rs ← mulRowRoom first bs rs (sum >>> 32)
    .ok ((sum &&& 0xffffffff).toUInt32 :: rs)

/-- The rows. -/
def mulWordsRoom : List UInt32 → List UInt32 → List UInt32 → Checked (List UInt32)
  | [], _, rs => .ok rs
  | a :: as, bs, rs =>
    if a = 0 then (mulWordsRoom as bs rs.tail).map (rs.take 1 ++ ·)
    else do
      let row ← mulRowRoom a bs rs 0
      let rest ← mulWordsRoom as bs row.tail
      .ok (row.take 1 ++ rest)

/-- `BigInteger_Mul` of a number and `pMulBI`, into a result with this room -/
def bigIntegerMulBy (room : Nat) (a : BigInteger) (m : MulBI) : Except DivFault BigInteger :=
  if (a.integerLength = 1 ∧ a.pIntegerArray.headD 0 = 0) ∨
      (m.integerLength = 1 ∧ m.pIntegerArray.headD 0 = 0) then
    .ok (bigIntegerClearHighBits [0] a.signed)
  else if a.integerLength = 1 ∧ a.pIntegerArray.headD 0 = 1 then
    .ok (bigIntegerClearHighBits m.words a.signed)
  else if m.integerLength = 1 ∧ m.pIntegerArray.headD 0 = 1 then
    .ok (bigIntegerClearHighBits a.pIntegerArray a.signed)
  else
    let arrayLength := arrayLengthOf (a.integerLength + m.integerLength)
    match mulWordsRoom a.pIntegerArray m.words (List.replicate (max room arrayLength) 0) with
    | .ok words => .ok (bigIntegerClearHighBits (words.take arrayLength) a.signed)
    | .error _ => .error .outside

/-- `BigInteger_UnsignedCompare` of a number and `pMulBI` -/
def unsignedCompareMulBI (a : BigInteger) (m : MulBI) : Ordering :=
  if m.integerLength < a.integerLength then .gt
  else if a.integerLength < m.integerLength then .lt
  else compareDown a.pIntegerArray.reverse m.words.reverse

/-- `BigInteger_Add` of a number and `pMulBI` -/
def bigIntegerAddMulBI (old : Option OldResult) (a : BigInteger) (m : MulBI) : BigInteger :=
  if a.signed = 1 then
    bigIntegerClearHighBits
      (sumWords (arrayLengthOf (if m.integerLength < a.integerLength then a.integerLength + 1
        else m.integerLength + 1)) a.pIntegerArray m.words 0) 1
  else
    -- what has a sign is subtracted
    match unsignedCompareMulBI a m with
    | .eq => bigIntegerZero old
    | .lt => bigIntegerClearHighBits (diffWords m.words a.pIntegerArray 0) 1
    | .gt => bigIntegerClearHighBits (diffWords a.pIntegerArray m.words 0) (-1)

/-! ## 2. `BigInteger_Div` -/

/-- `MulStart`, unless the round is skipped. -/
def divMulStart (remainder : BigInteger) (secondHighByte highIndex : Nat) :
    Except DivFault (Option Nat) := do
  let high ← bigIntegerGetByteValue remainder (highIndex + 1)
  let low ← bigIntegerGetByteValue remainder highIndex
  let mulStart := high <<< 8 ||| low
  if mulStart < secondHighByte then .ok none
  else if secondHighByte = 0 then .error .divisionByZero
  else .ok (some (if 0xff < mulStart / secondHighByte then 0x100 else mulStart / secondHighByte))

/-- Where the trial ends. -/
structure DivTrial where
  mulIndex : Nat
  arrayIndex : Nat
  pMulBI : MulBI
  compareResult : Ordering

/-- The word for a digit. -/
def mulIndexWord (mulIndex shiftIndex : Nat) : UInt32 :=
  UInt32.ofNat mulIndex <<< UInt32.ofNat (8 * shiftIndex)

/-- The loop over `MulIndex`, for `n` more of them. -/
def divTrial (room : Nat) (b remainder : BigInteger) (shiftIndex : Nat) :
    Nat → Nat → Nat → MulBI → Except DivFault (Option DivTrial)
  | 0, _, _, _ => .ok none
  | n + 1, mulIndex, arrayIndex, m => do
    let m ← m.setWordIf (0xff < mulIndex ∧ shiftIndex = 3) (arrayIndex + 1) 1
    let m ← m.setWord arrayIndex (mulIndexWord mulIndex shiftIndex)
    let temp ← bigIntegerMulBy room b m
    if bigIntegerUnsignedCompare remainder temp = .gt then do
      let m ← m.setWordIf (0x100 ≤ mulIndex ∧ shiftIndex = 3) arrayIndex 0
      let arrayIndex := if 0x100 ≤ mulIndex ∧ shiftIndex = 3 then arrayIndex + 1 else arrayIndex
      let m ← m.setWord arrayIndex 0
      divTrial room b remainder shiftIndex n (mulIndex + 1) arrayIndex m
    else
      .ok (some ⟨mulIndex, arrayIndex, m, bigIntegerUnsignedCompare remainder temp⟩)

/-- `*pBI_Remainder`, `*pBI_Result`, and `Signed` of `pTempBI2`. -/
structure DivState where
  remainder : BigInteger
  result : BigInteger
  tempSigned : ℤˣ

/-- What `pMulBI` times the divisor is taken off, and it is added to the result. -/
def divSubtract (room : Nat) (b : BigInteger) (s : DivState) (m : MulBI) : Except DivFault DivState := do
  let temp ← bigIntegerMulBy room b m
  let remainder := bigIntegerSub (some ⟨room, s.tempSigned⟩) s.remainder temp
  let result := bigIntegerAddMulBI (some ⟨room, remainder.signed⟩) s.result m
  .ok ⟨remainder, result, result.signed⟩

/-- What is done with the digit that was found. -/
def divTake (room : Nat) (b : BigInteger) (s : DivState) (shiftIndex : Nat) (t : DivTrial) :
    Except DivFault DivState :=
  if 1 < t.mulIndex then
    if t.compareResult ≠ .eq then do
      let m ← t.pMulBI.setWordIf (t.mulIndex = 0x100 ∧ shiftIndex = 3) (t.arrayIndex + 1) 0
      let m ← m.setWord t.arrayIndex (mulIndexWord (t.mulIndex - 1) shiftIndex)
      divSubtract room b s m
    else divSubtract room b s t.pMulBI
  else .ok s

/-- A digit from `MulStart` on. -/
def divDigit (room : Nat) (b : BigInteger) (index mulStart : Nat) (s : DivState) :
    Except DivFault DivState := do
  let arrayIndex := if 0 < index then (index - 1) / 4 else 0
  let shiftIndex := (if index % 4 = 0 then 4 else index % 4) - 1
  let trial ← divTrial room b s.remainder shiftIndex (0x102 - mulStart) mulStart arrayIndex
    ⟨List.replicate room 0, index + 1⟩
  match trial with
  | none => .ok s
  | some t => divTake room b s shiftIndex t

/-- A round of the loop over `Index` -/
def divRound (a b : BigInteger) (secondHighByte index : Nat) (s : DivState) :
    Except DivFault DivState :=
  let computeSize := a.integerLength - b.integerLength + 1
  -- the difference of the lengths is unsigned
  if s.remainder.integerLength ≤ b.integerLength + index ∧
      b.integerLength + index - s.remainder.integerLength ≤ 1 then do
    let mulStart ← divMulStart s.remainder secondHighByte (a.integerLength + index - computeSize)
    match mulStart with
    | none => .ok s
    | some mulStart => divDigit (arrayLengthOf (2 * a.integerLength)) b index mulStart s
  else .ok s

/-- The loop over `Index`, down to 0 -/
def divRounds (a b : BigInteger) (secondHighByte : Nat) : Nat → DivState → Except DivFault DivState
  | 0, s =>
    if bigIntegerUnsignedCompare s.remainder b = .lt then .ok s
    else divRound a b secondHighByte 0 s
  | index + 1, s =>
    if bigIntegerUnsignedCompare s.remainder b = .lt then .ok s
    else do
      let s ← divRound a b secondHighByte (index + 1) s
      divRounds a b secondHighByte index s

/-- `BigInteger_AllocSize` of an object with this sign: a zero with leading zeros. -/
def bigIntegerZeros (n : Nat) (signed : ℤˣ) : BigInteger where
  pIntegerArray := List.replicate (arrayLengthOf (n + 1)) 0
  integerLength := n + 1
  signed := signed
  pos := Nat.succ_pos n
  arrayLength := List.length_replicate
  fits := by
    rw [wordsValue_replicate_zero]
    exact Nat.pow_pos (by decide)

/-- The signs and lengths of the results. -/
def divOutput (a b quotient remainder : BigInteger) : BigInteger × BigInteger :=
  (bigIntegerClearHighBits quotient.pIntegerArray (a.signed * b.signed),
    bigIntegerClearHighBits remainder.pIntegerArray (a.signed * b.signed))

/-- `BigInteger_Div`: the quotient and the remainder, but for a divisor that is zero; `old` is what
the object for the quotient was. -/
def bigIntegerDiv (old : Option OldResult) (a b : BigInteger) :
    Except DivFault (Option (BigInteger × BigInteger)) :=
  if b.integerLength = 1 ∧ b.pIntegerArray.headD 0 = 0 then .ok none
  else if b.integerLength = 1 ∧ b.pIntegerArray.headD 0 = 1 then
    .ok (some (divOutput a b a (bigIntegerClearHighBits [0] 1)))
  else
    match bigIntegerUnsignedCompare a b with
    | .eq => .ok (some (divOutput a b (bigIntegerClearHighBits [1] 1) (bigIntegerClearHighBits [0] 1)))
    | .lt => .ok (some (divOutput a b (bigIntegerClearHighBits [0] 1) a))
    | .gt => do
      let secondHighByte ← bigIntegerGetByteValue b b.integerLength
      let length := a.integerLength - b.integerLength
      let result := bigIntegerZeros length (signedBehindAlloc old (arrayLengthOf (length + 1)))
      let s ← divRounds a b secondHighByte (length + 1) ⟨a, result, 1⟩
      .ok (some (divOutput a b s.result s.remainder))

/-! ## 3. Products and sums with `pMulBI` -/

/-- The words are a number of its `IntegerLength`. -/
structure MulBI.Valid (m : MulBI) : Prop where
  pos : 1 < m.integerLength
  room : arrayLengthOf m.integerLength ≤ m.pIntegerArray.length
  fits : wordsValue m.words < 256 ^ m.integerLength

theorem MulBI.Valid.length_words {m : MulBI} (h : m.Valid) :
    m.words.length = arrayLengthOf m.integerLength :=
  List.length_take_of_le h.room

/-- That number. -/
def MulBI.number (m : MulBI) (h : m.Valid) : BigInteger where
  pIntegerArray := m.words
  integerLength := m.integerLength
  signed := 1
  pos := Nat.zero_lt_of_lt h.pos
  arrayLength := h.length_words
  fits := h.fits

theorem mulRowRoom_eq (first : UInt32) {bs rs : List UInt32} {carry : UInt64}
    (hcarry : carry.toNat < wordBase) : mulRowRoom first bs rs carry = montRow first bs rs carry := by
  induction bs generalizing rs carry with
  | nil => rfl
  | cons b bs ih =>
    rcases rs with _ | ⟨r, rs⟩
    · rfl
    obtain ⟨hlow, hhigh⟩ := @crossSum_eq r first b carry hcarry
    obtain ⟨-, hnext⟩ := toNat_split (r.toUInt64 + b.toUInt64 * first.toUInt64 + carry)
    rw [mulRowRoom, montRow, hlow, hhigh, ih hnext]

/-- **The product of two arrays of words**, where there is room for it. -/
theorem mulWordsRoom_eq {as bs rs : List UInt32} (hbs : 0 < bs.length)
    (hlen : as.length + bs.length ≤ rs.length + 1)
    (hfits : wordsValue rs + wordsValue as * wordsValue bs < wordBase ^ rs.length) :
    ∃ rs', mulWordsRoom as bs rs = .ok rs' ∧ rs'.length = rs.length ∧
      wordsValue rs' = wordsValue rs + wordsValue as * wordsValue bs := by
  induction as generalizing rs with
  | nil => exact ⟨rs, rfl, rfl, by rw [wordsValue_nil, Nat.zero_mul, Nat.add_zero]⟩
  | cons a as ih =>
    rw [List.length_cons] at hlen
    have hsum : wordsValue rs + wordsValue (a :: as) * wordsValue bs =
        wordsValue rs + a.toNat * wordsValue bs + wordBase * (wordsValue as * wordsValue bs) := by
      rw [wordsValue_cons]
      ring
    rw [hsum] at hfits ⊢
    -- what a row makes of the array, and then the rows behind it
    have hrest : ∀ row : List UInt32, row.length = rs.length →
        wordsValue row = wordsValue rs + a.toNat * wordsValue bs →
        ∃ rest, mulWordsRoom as bs row.tail = .ok rest ∧ (row.take 1 ++ rest).length = rs.length ∧
          wordsValue (row.take 1 ++ rest) = wordsValue rs + a.toNat * wordsValue bs +
            wordBase * (wordsValue as * wordsValue bs) := by
      intro row hrow hvalue
      rcases row with _ | ⟨r, row⟩
      · rw [List.length_nil] at hrow
        omega
      rw [List.length_cons] at hrow
      rw [← hvalue, wordsValue_cons, ← hrow, pow_succ', Nat.add_assoc, ← Nat.mul_add] at hfits
      have htail := Nat.lt_of_mul_lt_mul_left ((Nat.le_add_left _ _).trans_lt hfits)
      obtain ⟨rest, hrun, hlen', hvalue'⟩ := ih (show as.length + bs.length ≤ row.length + 1 by omega) htail
      refine ⟨rest, hrun, ?_, ?_⟩
      · rw [List.take_succ_cons, List.take_zero, List.singleton_append, List.length_cons, hlen', hrow]
      · rw [← hvalue, List.take_succ_cons, List.take_zero, List.singleton_append, wordsValue_cons,
          wordsValue_cons, hvalue']
        ring
    rw [mulWordsRoom]
    split_ifs with hzero
    · obtain ⟨rest, hrun, hlen', hvalue⟩ := hrest rs rfl (by
        rw [hzero, UInt32.toNat_zero, Nat.zero_mul, Nat.add_zero])
      rw [hrun]
      exact ⟨_, rfl, hlen', hvalue⟩
    · have hcarry : (0 : UInt64).toNat < wordBase := by decide
      have hroom : bs.length ≤ rs.length := by omega
      obtain ⟨row, hrow, hrowLen, hrowValue⟩ := montRow_eq a hcarry hroom (by
        rw [UInt64.toNat_zero]
        omega)
      rw [UInt64.toNat_zero, Nat.add_zero] at hrowValue
      obtain ⟨rest, hrun, hlen', hvalue⟩ := hrest row hrowLen hrowValue
      rw [mulRowRoom_eq a hcarry, hrow, Checked.ok_bind, hrun, Checked.ok_bind]
      exact ⟨_, rfl, hlen', hvalue⟩

/-- **The product with `pMulBI`.** -/
theorem returns_mulBy (room : Nat) (a : BigInteger) {m : MulBI} (hm : m.Valid) :
    ∃ t, bigIntegerMulBy room a m = .ok t ∧ t.Returns (a.value * wordsValue m.words) := by
  have hvalue : a.value * wordsValue m.words =
      (a.signed : Int) * ((a.magnitude * wordsValue m.words : Nat) : Int) := by
    rw [BigInteger.value, Nat.cast_mul]
    ring
  have hlong : ¬ m.integerLength = 1 := hm.pos.ne'
  rw [bigIntegerMulBy, hvalue]
  split_ifs with hzero hone hone'
  · rcases hzero with ⟨hlen, hword⟩ | ⟨hlen, -⟩
    · refine ⟨_, rfl, (returns_clearHighBits _ _ _).mpr ?_⟩
      rw [magnitude_of_length_one hlen, hword, UInt32.toNat_zero, Nat.zero_mul]
      rfl
    · exact absurd hlen hlong
  · refine ⟨_, rfl, (returns_clearHighBits _ _ _).mpr ?_⟩
    rw [magnitude_of_length_one hone.1, hone.2, UInt32.toNat_one, Nat.one_mul]
  · exact absurd hone'.1 hlong
  · set n := arrayLengthOf (a.integerLength + m.integerLength) with hn
    have hprod : a.magnitude * wordsValue m.words < wordBase ^ n := by
      refine (magnitude_mul_lt a (m.number hm)).trans_le ?_
      rw [wordBase_pow, hn, arrayLengthOf]
      refine Nat.pow_le_pow_right (by decide) ?_
      have hlength : (m.number hm).integerLength = m.integerLength := rfl
      split_ifs <;> omega
    have hpos := hm.pos
    have hwords : 0 < m.words.length := by
      rw [hm.length_words, arrayLengthOf]
      split_ifs <;> omega
    have hlen : a.pIntegerArray.length + m.words.length ≤
        (List.replicate (max room n) (0 : UInt32)).length + 1 := by
      rw [List.length_replicate, a.arrayLength, hm.length_words]
      refine le_trans ?_ (Nat.succ_le_succ (Nat.le_max_right room n))
      rw [hn, arrayLengthOf, arrayLengthOf, arrayLengthOf]
      split_ifs <;> omega
    have hfits : wordsValue (List.replicate (max room n) 0) +
        wordsValue a.pIntegerArray * wordsValue m.words <
          wordBase ^ (List.replicate (max room n) (0 : UInt32)).length := by
      rw [wordsValue_replicate_zero, Nat.zero_add, List.length_replicate]
      exact hprod.trans_le (Nat.pow_le_pow_right (by decide) (Nat.le_max_right _ _))
    obtain ⟨words, hrun, -, hsum⟩ := mulWordsRoom_eq hwords hlen hfits
    rw [wordsValue_replicate_zero, Nat.zero_add] at hsum
    have htake : wordsValue (words.take n) = a.magnitude * wordsValue m.words := by
      rw [wordsValue_take (by rw [hsum]; exact hprod), hsum]
      rfl
    dsimp only
    rw [hrun]
    exact ⟨_, rfl, (returns_clearHighBits _ _ _).mpr (by rw [htake])⟩

/-- **The sum.** -/
theorem addMulBI_spec (old : Option OldResult) {a : BigInteger} (ha : a.signed = 1) {m : MulBI}
    (hm : m.Valid) :
    (bigIntegerAddMulBI old a m).magnitude = a.magnitude + wordsValue m.words ∧
      (bigIntegerAddMulBI old a m).signed = 1 := by
  have hsum := wordsValue_addAlike a (m.number hm)
  obtain ⟨hmagnitude, -, hsigned⟩ := clearHighBits_spec
    (sumWords (arrayLengthOf (if m.integerLength < a.integerLength then a.integerLength + 1
      else m.integerLength + 1)) a.pIntegerArray m.words 0) 1
  rw [bigIntegerAddMulBI, if_pos ha, hmagnitude, hsigned, ite_self]
  exact ⟨hsum, rfl⟩

/-! ## 4. A digit in `pMulBI` -/

theorem wordsValue_set {ws : List UInt32} {i : Nat} (w : UInt32) (hi : i < ws.length) :
    wordsValue (ws.set i w) + wordBase ^ i * ws[i].toNat = wordsValue ws + wordBase ^ i * w.toNat := by
  induction ws generalizing i with
  | nil => exact absurd hi (Nat.not_lt_zero i)
  | cons x ws ih =>
    cases i with
    | zero =>
      rw [List.set_cons_zero, wordsValue_cons, wordsValue_cons, pow_zero, List.getElem_cons_zero]
      omega
    | succ i =>
      have hi' : i < ws.length := Nat.lt_of_succ_lt_succ hi
      have hih := ih hi'
      rw [List.set_cons_succ, wordsValue_cons, wordsValue_cons, List.getElem_cons_succ, pow_succ']
      calc x.toNat + wordBase * wordsValue (ws.set i w) + wordBase * wordBase ^ i * ws[i].toNat
          = x.toNat + wordBase * (wordsValue (ws.set i w) + wordBase ^ i * ws[i].toNat) := by ring
        _ = x.toNat + wordBase * (wordsValue ws + wordBase ^ i * w.toNat) := by rw [hih]
        _ = x.toNat + wordBase * wordsValue ws + wordBase * wordBase ^ i * w.toNat := by ring

/-- `pMulBI` behind `BigInteger_AllocSize` for the octet `index`. -/
def mulBIZero (room index : Nat) : MulBI := ⟨List.replicate room 0, index + 2⟩

/-- `pMulBI` with a digit at the octet `index`. -/
def mulBIDigit (room index digit : Nat) : MulBI where
  pIntegerArray :=
    (if 0xff < digit ∧ index % 4 = 3 then (List.replicate room 0).set (index / 4 + 1) 1
      else List.replicate room 0).set (index / 4) (mulIndexWord digit (index % 4))
  integerLength := index + 2

theorem toNat_mulIndexWord {digit shift : Nat} (hdigit : digit ≤ 256) (hshift : shift < 4) :
    (mulIndexWord digit shift).toNat =
      if 0xff < digit ∧ shift = 3 then 0 else digit * 256 ^ shift := by
  have hamount : (UInt32.ofNat (8 * shift)).toNat % 32 = 8 * shift := by
    rw [UInt32.toNat_ofNat']
    omega
  have hword : (UInt32.ofNat digit).toNat = digit := by
    rw [UInt32.toNat_ofNat']
    omega
  have hpow : 2 ^ (8 * shift) = 256 ^ shift := by
    rw [pow_mul]
    rfl
  rw [mulIndexWord, UInt32.toNat_shiftLeft, hamount, hword, Nat.shiftLeft_eq, hpow]
  split_ifs with hcarry
  · obtain ⟨hbig, rfl⟩ := hcarry
    obtain rfl : digit = 256 := by omega
    decide
  · refine Nat.mod_eq_of_lt ?_
    rcases (by omega : shift = 0 ∨ shift = 1 ∨ shift = 2 ∨ shift = 3) with rfl | rfl | rfl | rfl <;>
      norm_num at hcarry ⊢ <;> omega

theorem index_lt_arrayLength (index : Nat) : index / 4 < arrayLengthOf (index + 2) ∧
    (index % 4 = 3 → index / 4 + 1 < arrayLengthOf (index + 2)) := by
  rw [arrayLengthOf]
  split_ifs <;> omega

section

variable {room index digit : Nat} (hroom : arrayLengthOf (index + 2) ≤ room)

include hroom

/-- **The digit is at its octet**, also if it needs a second one. -/
theorem wordsValue_mulBIDigit (hdigit : digit ≤ 256) :
    wordsValue (mulBIDigit room index digit).words = digit * 256 ^ index := by
  obtain ⟨hword, hnext⟩ := index_lt_arrayLength index
  have hpow : 256 ^ index = wordBase ^ (index / 4) * 256 ^ (index % 4) := by
    rw [wordBase_pow, ← pow_add, Nat.div_add_mod]
  have htoNat := toNat_mulIndexWord hdigit (Nat.mod_lt index (show 0 < 4 by decide))
  have htake : (List.replicate room (0 : UInt32)).take (arrayLengthOf (index + 2)) =
      List.replicate (arrayLengthOf (index + 2)) 0 := by
    rw [List.take_replicate, Nat.min_eq_left hroom]
  rw [MulBI.words, mulBIDigit, hpow]
  dsimp only
  generalize arrayLengthOf (index + 2) = n at *
  split_ifs with hcarry
  · obtain ⟨hbig, hlast⟩ := hcarry
    obtain rfl : digit = 256 := by omega
    rw [if_pos ⟨by decide, hlast⟩] at htoNat
    have hset := @wordsValue_set ((List.replicate n 0).set (index / 4 + 1) 1) (index / 4)
      (mulIndexWord 256 (index % 4)) (by
        rw [List.length_set, List.length_replicate]
        exact hword)
    have hset' := @wordsValue_set (List.replicate n 0) (index / 4 + 1) 1 (by
      rw [List.length_replicate]
      exact hnext hlast)
    rw [List.getElem_set_ne (by omega), List.getElem_replicate] at hset
    rw [List.getElem_replicate, wordsValue_replicate_zero] at hset'
    have hbase : wordBase = 256 ^ 3 * 256 := rfl
    simp only [htoNat, UInt32.toNat_zero, UInt32.toNat_one, Nat.mul_zero, Nat.add_zero,
      Nat.zero_add, Nat.mul_one] at hset hset'
    rw [List.take_set, List.take_set, htake, hset, hset', hlast, pow_succ, hbase]
    ring
  · rw [if_neg hcarry] at htoNat
    have hset := @wordsValue_set (List.replicate n 0) (index / 4)
      (mulIndexWord digit (index % 4)) (by
        rw [List.length_replicate]
        exact hword)
    rw [List.getElem_replicate, wordsValue_replicate_zero, htoNat] at hset
    rw [List.take_set, htake]
    simp only [UInt32.toNat_zero, Nat.mul_zero, Nat.add_zero, Nat.zero_add] at hset
    rw [hset]
    ring

theorem valid_mulBIDigit (hdigit : digit ≤ 256) : (mulBIDigit room index digit).Valid where
  pos := Nat.succ_lt_succ (Nat.succ_pos index)
  room := by
    rw [mulBIDigit]
    dsimp only
    split_ifs <;> simp only [List.length_set, List.length_replicate] <;> exact hroom
  fits := by
    rw [wordsValue_mulBIDigit hroom hdigit]
    have hlength : (mulBIDigit room index digit).integerLength = index + 2 := rfl
    have hpos : 0 < 256 ^ index := Nat.pow_pos (by decide)
    rw [hlength, pow_add]
    have hmul := Nat.mul_le_mul_right (256 ^ index) hdigit
    omega

/-- The two words the trial writes. -/
theorem setWord_mulBIZero {α : Type} (f : MulBI → Except DivFault α) :
    ((mulBIZero room index).setWordIf (0xff < digit ∧ index % 4 = 3) (index / 4 + 1) 1 >>= fun m =>
      m.setWord (index / 4) (mulIndexWord digit (index % 4)) >>= f) =
      f (mulBIDigit room index digit) := by
  obtain ⟨hword, hnext⟩ := index_lt_arrayLength index
  rw [MulBI.setWordIf, mulBIZero, mulBIDigit]
  split_ifs with hcarry
  · have hlt : index / 4 + 1 < (List.replicate room (0 : UInt32)).length := by
      rw [List.length_replicate]
      exact (hnext hcarry.2).trans_le hroom
    have hlt' : index / 4 < ((List.replicate room (0 : UInt32)).set (index / 4 + 1) 1).length := by
      rw [List.length_set]
      omega
    rw [MulBI.setWord, if_pos hlt]
    change MulBI.setWord _ _ _ >>= f = _
    rw [MulBI.setWord, if_pos hlt']
    rfl
  · have hlt : index / 4 < (List.replicate room (0 : UInt32)).length := by
      rw [List.length_replicate]
      omega
    change MulBI.setWord _ _ _ >>= f = _
    rw [MulBI.setWord, if_pos hlt]
    rfl

/-- What it clears if the digit was too small. -/
theorem setWord_mulBIDigit_zero (hdigit : digit ≤ 0xff) :
    (mulBIDigit room index digit).setWord (index / 4) 0 = .ok (mulBIZero room index) := by
  obtain ⟨hword, -⟩ := index_lt_arrayLength index
  have hcarry : ¬ (0xff < digit ∧ index % 4 = 3) := fun h => absurd h.1 (Nat.not_lt_of_le hdigit)
  rw [mulBIDigit, if_neg hcarry, MulBI.setWord]
  dsimp only
  rw [if_pos (by rw [List.length_set, List.length_replicate]; omega), List.set_set, mulBIZero]
  congr 2
  refine List.ext_getElem (by rw [List.length_set]) fun i hi _ => ?_
  rw [List.getElem_set, List.getElem_replicate]
  split_ifs <;> rfl

/-- **The digit before.** -/
theorem setWord_mulBIDigit_pred {α : Type} (f : MulBI → Except DivFault α) (hdigit : digit ≤ 0xff) :
    ((mulBIDigit room index (digit + 1)).setWordIf (digit + 1 = 0x100 ∧ index % 4 = 3)
        (index / 4 + 1) 0 >>= fun m =>
      m.setWord (index / 4) (mulIndexWord digit (index % 4)) >>= f) =
      f (mulBIDigit room index digit) := by
  obtain ⟨hword, hnext⟩ := index_lt_arrayLength index
  have hcarry : ¬ (0xff < digit ∧ index % 4 = 3) := fun h => absurd h.1 (Nat.not_lt_of_le hdigit)
  have hiff : (0xff < digit + 1 ∧ index % 4 = 3) ↔ (digit + 1 = 0x100 ∧ index % 4 = 3) := by omega
  rw [MulBI.setWordIf, mulBIDigit, mulBIDigit, if_neg hcarry, if_congr hiff rfl rfl]
  split_ifs with hlast
  · have hlt : index / 4 + 1 < room := (hnext hlast.2).trans_le hroom
    rw [MulBI.setWord]
    dsimp only
    rw [if_pos (by simpa using hlt)]
    change MulBI.setWord _ _ _ >>= f = _
    rw [MulBI.setWord]
    dsimp only
    rw [if_pos (by simp only [List.length_set, List.length_replicate]; omega)]
    change f _ = f _
    congr 2
    refine List.ext_getElem (by simp only [List.length_set]) fun i hi _ => ?_
    simp only [List.getElem_set, List.getElem_replicate]
    split_ifs <;> rfl
  · change MulBI.setWord _ _ _ >>= f = _
    rw [MulBI.setWord]
    dsimp only
    rw [if_pos (by simp only [List.length_set, List.length_replicate]; omega), List.set_set]
    rfl

end

/-! ## 5. A round -/

section

variable {room index digit : Nat} {b : BigInteger}

theorem returns_mulBy_digit (hb : b.signed = 1) (hroom : arrayLengthOf (index + 2) ≤ room)
    (hdigit : digit ≤ 256) : ∃ t, bigIntegerMulBy room b (mulBIDigit room index digit) = .ok t ∧
      t.Returns ((digit * (b.magnitude * 256 ^ index) : Nat) : Int) := by
  obtain ⟨t, hrun, ht⟩ := returns_mulBy room b (valid_mulBIDigit hroom hdigit)
  refine ⟨t, hrun, ?_⟩
  rw [wordsValue_mulBIDigit hroom hdigit, BigInteger.value, hb, Units.val_one, one_mul,
    ← Nat.cast_mul] at ht
  rwa [Nat.mul_left_comm]

omit index digit room b in
/-- What is not smaller than a canonical number is found to be so. -/
theorem unsignedCompare_of_le {r t : BigInteger} (ht : t.Canonical)
    (hle : t.magnitude ≤ r.magnitude) : bigIntegerUnsignedCompare r t = .gt ∨
      bigIntegerUnsignedCompare r t = .eq ∧ r.magnitude = t.magnitude := by
  rcases unsignedCompare_cases (a := r) (b := t) with ⟨hc, -⟩ | ⟨-, hlen⟩ | ⟨-, hc⟩
  · exact .inl hc
  · have hfits : t.magnitude < 256 ^ r.integerLength := hle.trans_lt r.fits
    exact absurd (integerLength_le ht r.pos hfits) (Nat.not_le_of_lt hlen)
  · rw [hc, compare_gt_iff_gt, compare_eq_iff_eq, and_self]
    exact (Nat.lt_or_eq_of_le hle).imp_right Eq.symm

/-- **The trial finds the digit**, or the one behind it. -/
theorem divTrial_eq {r : BigInteger} (hb : b.signed = 1) (hroom : arrayLengthOf (index + 2) ≤ room)
    (hdigit : digit ≤ 0xff) (hle : digit * (b.magnitude * 256 ^ index) ≤ r.magnitude)
    (hpos : 0 < b.magnitude) (hlast : ∀ t : BigInteger,
      t.Returns (((digit + 1) * (b.magnitude * 256 ^ index) : Nat) : Int) →
      bigIntegerUnsignedCompare r t = .lt) {n m : Nat}
    (hm : m ≤ digit + 1) (hn : digit + 2 ≤ n + m) :
    ∃ t, divTrial room b r (index % 4) n m (index / 4) (mulBIZero room index) = .ok (some t) ∧
      (t = ⟨digit, index / 4, mulBIDigit room index digit, .eq⟩ ∧ m ≤ digit ∧
        (∃ temp : BigInteger, temp.Returns ((digit * (b.magnitude * 256 ^ index) : Nat) : Int) ∧
          bigIntegerUnsignedCompare r temp = .eq) ∨
        t = ⟨digit + 1, index / 4, mulBIDigit room index (digit + 1), .lt⟩) := by
  induction n generalizing m with
  | zero => omega
  | succ n ih =>
    obtain ⟨temp, hrun, htemp⟩ := @returns_mulBy_digit room index m b hb hroom (by omega)
    have hunit : 0 < b.magnitude * 256 ^ index := Nat.mul_pos hpos (Nat.pow_pos (by decide))
    generalize b.magnitude * 256 ^ index = unit at *
    rw [divTrial, setWord_mulBIZero hroom, hrun]
    change ∃ t, (if bigIntegerUnsignedCompare r temp = .gt then _ else _) = _ ∧ _
    rcases Nat.eq_or_lt_of_le hm with rfl | hlt
    · -- the digit behind it
      rw [hlast temp htemp, if_neg (by decide)]
      exact ⟨_, rfl, .inr rfl⟩
    have hle' : m ≤ digit := Nat.le_of_lt_succ hlt
    by_cases hgt : bigIntegerUnsignedCompare r temp = .gt
    · have hnot : ¬ (0x100 ≤ m ∧ index % 4 = 3) := by omega
      rw [if_pos hgt, MulBI.setWordIf, if_neg hnot]
      change ∃ t, (MulBI.setWord _ (if 0x100 ≤ m ∧ index % 4 = 3 then _ else _) _ >>= _) = _ ∧ _
      rw [if_neg hnot, setWord_mulBIDigit_zero hroom (by omega)]
      change ∃ t, divTrial room b r (index % 4) n (m + 1) (index / 4) (mulBIZero room index) = _ ∧ _
      obtain ⟨t, htrial, ⟨heq, hle'', hfound⟩ | heq⟩ := ih (m := m + 1) (by omega) (by omega)
      · exact ⟨t, htrial, .inl ⟨heq, hle', hfound⟩⟩
      · exact ⟨t, htrial, .inr heq⟩
    · -- nothing is left, and it is the digit itself
      have hmul := Nat.mul_le_mul_right unit hle'
      obtain ⟨heq, hvalue⟩ := (unsignedCompare_of_le htemp.canonical (r := r) (by
        rw [htemp.natCast.1]
        omega)).resolve_left hgt
      have hsame : m = digit := by
        by_contra hne
        have hless := Nat.mul_lt_mul_of_pos_right (by omega : m < digit) hunit
        rw [htemp.natCast.1] at hvalue
        omega
      rw [hsame] at htemp ⊢
      rw [if_neg hgt, heq]
      exact ⟨_, rfl, .inl ⟨rfl, Nat.le_refl _, temp, htemp, heq⟩⟩

/-- **The digit is taken off.** -/
theorem divSubtract_eq {s : DivState} (hb : b.signed = 1) (hroom : arrayLengthOf (index + 2) ≤ room)
    (hdigit : digit ≤ 0xff) (hsigned : s.remainder.signed = 1)
    (hresult : s.result.signed = 1) (htemp : s.tempSigned = 1)
    (hle : digit * (b.magnitude * 256 ^ index) ≤ s.remainder.magnitude)
    (hborrows : ∀ t : BigInteger, t.Returns ((digit * (b.magnitude * 256 ^ index) : Nat) : Int) →
      BorrowsWell s.remainder.pIntegerArray t.pIntegerArray 0) :
    ∃ s', divSubtract room b s (mulBIDigit room index digit) = .ok s' ∧
      s'.remainder.Returns ((s.remainder.magnitude - digit * (b.magnitude * 256 ^ index) : Nat) : Int) ∧
      s'.result.magnitude = s.result.magnitude + digit * 256 ^ index ∧
      s'.result.signed = 1 ∧ s'.tempSigned = 1 := by
  obtain ⟨t, hrun, ht⟩ := @returns_mulBy_digit room index digit b hb hroom (by omega)
  obtain ⟨htmag, htsigned⟩ := ht.natCast
  have hfits : SubFits (some ⟨room, s.tempSigned⟩) s.remainder t := by
    rw [SubFits, if_pos (hsigned.trans htsigned.symm), SubAlikeFits]
    cases hc : bigIntegerUnsignedCompare s.remainder t with
    | gt => exact ⟨htmag ▸ hle, hborrows t ht⟩
    | eq =>
      intro o ho
      rw [← Option.some_inj.mp ho]
      exact htemp
    | lt =>
      rcases unsignedCompare_of_le ht.canonical (htmag ▸ hle) with hc' | ⟨hc', -⟩
      · cases hc.symm.trans hc'
      · cases hc.symm.trans hc'
  have hsub := (returns_sub_iff _ _ _).mpr hfits
  rw [BigInteger.value, BigInteger.value, hsigned, htsigned, Units.val_one, one_mul, one_mul, htmag,
    ← Nat.cast_sub hle] at hsub
  rw [divSubtract, hrun]
  refine ⟨_, rfl, hsub, ?_⟩
  obtain ⟨hsum, hone⟩ := addMulBI_spec
    (some ⟨room, (bigIntegerSub (some ⟨room, s.tempSigned⟩) s.remainder t).signed⟩) hresult
    (@valid_mulBIDigit room index digit hroom (by omega))
  rw [wordsValue_mulBIDigit hroom (by omega)] at hsum
  exact ⟨hsum, hone, hone⟩

end

/-! ## 6. When it is right -/

open LongDivision (rest digit rest_succ rest_zero rest_of_lt rest_lt digit_lt digit_spec)

/-- **The estimate is not behind the digit**, also not if the round is skipped; the trial stops at it,
but not at a digit 1 that leaves nothing; and no borrow of the subtraction goes wrong. -/
structure TrialFits (b : BigInteger) (secondHighByte index digit : Nat) (r : BigInteger) : Prop where
  start : ∃ mulStart, divMulStart r secondHighByte (b.integerLength + index) = .ok mulStart ∧
    match mulStart with
    | none => digit = 0
    | some m => m ≤ digit + 1 ∧
      (∀ t : BigInteger, t.Returns (((digit + 1) * (b.magnitude * 256 ^ index) : Nat) : Int) →
        bigIntegerUnsignedCompare r t = .lt) ∧
      (m ≤ 1 → ∀ t : BigInteger, t.Returns ((b.magnitude * 256 ^ index : Nat) : Int) →
        bigIntegerUnsignedCompare r t ≠ .eq)
  borrows : 0 < digit → ∀ t : BigInteger,
    t.Returns ((digit * (b.magnitude * 256 ^ index) : Nat) : Int) →
      BorrowsWell r.pIntegerArray t.pIntegerArray 0

/-- The rounds end only with less than the divisor, and leave out only the digit 0. -/
structure RoundFits (b : BigInteger) (secondHighByte index digit : Nat) (r : BigInteger) : Prop where
  stops : bigIntegerUnsignedCompare r b = .lt → r.magnitude < b.magnitude
  skips : bigIntegerUnsignedCompare r b ≠ .lt →
    ¬ (b.integerLength + index ≤ r.integerLength ∧ r.integerLength ≤ b.integerLength + index + 1) →
    digit = 0
  trial : bigIntegerUnsignedCompare r b ≠ .lt → b.integerLength + index ≤ r.integerLength →
    r.integerLength ≤ b.integerLength + index + 1 → TrialFits b secondHighByte index digit r

/-- What long division has left for the octets below `index`: the dividend itself as long as it has
taken nothing off. -/
def IsRest (a b : BigInteger) (index : Nat) (r : BigInteger) : Prop :=
  if a.magnitude < b.magnitude * 256 ^ index then r = a
  else r.Returns (rest 256 a.magnitude b.magnitude index : Nat)

/-- **The long divisions that are right**: those of which every round is. -/
structure LongDivFits (old : Option OldResult) (a b : BigInteger) : Prop where
  signed : a.signed = 1
  oldSigned : signedBehindAlloc old (arrayLengthOf (a.integerLength - b.integerLength + 1)) = 1
  le : b.magnitude ≤ a.magnitude
  lt : a.magnitude < b.magnitude * 256 ^ (a.integerLength - b.integerLength + 1)
  rounds : ∃ secondHighByte, bigIntegerGetByteValue b b.integerLength = .ok secondHighByte ∧
    ∀ index ≤ a.integerLength - b.integerLength, ∀ r : BigInteger, IsRest a b (index + 1) r →
      RoundFits b secondHighByte index (digit 256 a.magnitude b.magnitude index) r

/-- **The divisions that are right.** -/
def DivFits (old : Option OldResult) (a b : BigInteger) : Prop :=
  b.signed = 1 ∧ (b.integerLength = 1 ∧ b.pIntegerArray.headD 0 = 1 ∨
    match bigIntegerUnsignedCompare a b with
    | .eq => True
    | .lt => a.magnitude < b.magnitude ∧ (a.signed = 1 ∨ a.magnitude = 0)
    | .gt => LongDivFits old a b)

/-- Nothing without a meaning is done up to the first estimate. -/
def StartsDefined (a b : BigInteger) : Prop :=
  ∃ secondHighByte mulStart, bigIntegerGetByteValue b b.integerLength = .ok secondHighByte ∧
    divMulStart a secondHighByte a.integerLength = .ok mulStart

/-- A quotient and a remainder come out. -/
def Divides (run : Except DivFault (Option (BigInteger × BigInteger))) (a b : BigInteger) : Prop :=
  ∃ q r, run = .ok (some (q, r)) ∧ a.value = q.value * b.value + r.value ∧
    0 ≤ r.value ∧ r.value < b.value

theorem IsRest.spec {a b r : BigInteger} {index : Nat} (h : IsRest a b index r) (ha : a.signed = 1) :
    r.magnitude = rest 256 a.magnitude b.magnitude index ∧ r.signed = 1 := by
  rw [IsRest] at h
  split_ifs at h with hlt
  · rw [h, rest_of_lt hlt]
    exact ⟨rfl, ha⟩
  · exact h.natCast

/-- In front of a round. -/
structure DivInvariant (a b : BigInteger) (index : Nat) (s : DivState) : Prop where
  remainder : IsRest a b index s.remainder
  quotient : a.magnitude = s.result.magnitude * b.magnitude + s.remainder.magnitude
  result : s.result.signed = 1
  temp : s.tempSigned = 1

section

variable {a b : BigInteger} {index : Nat} {s : DivState}

theorem DivInvariant.skip (h : DivInvariant a b (index + 1) s) (hb : 0 < b.magnitude)
    (hzero : digit 256 a.magnitude b.magnitude index = 0) : DivInvariant a b index s := by
  refine ⟨?_, h.quotient, h.result, h.temp⟩
  have hremainder := h.remainder
  have hrest := @rest_succ 256 a.magnitude b.magnitude index
  rw [hzero, Nat.zero_mul, Nat.zero_add] at hrest
  rw [IsRest] at hremainder ⊢
  rw [hrest] at hremainder
  by_cases hlt : a.magnitude < b.magnitude * 256 ^ index
  · have hmono : b.magnitude * 256 ^ index ≤ b.magnitude * 256 ^ (index + 1) :=
      Nat.mul_le_mul_left _ (Nat.pow_le_pow_right (by decide) index.le_succ)
    rw [if_pos (hlt.trans_le hmono)] at hremainder
    rwa [if_pos hlt]
  · rw [if_neg hlt]
    by_cases hnext : a.magnitude < b.magnitude * 256 ^ (index + 1)
    · -- the digit would not be 0
      have hsmall := rest_lt (v := a.magnitude) (k := index) hb (show 0 < 256 by decide)
      rw [← hrest, rest_of_lt hnext] at hsmall
      exact absurd hsmall hlt
    · rwa [if_neg hnext] at hremainder

theorem DivInvariant.take {s' : DivState} (h : DivInvariant a b (index + 1) s) (ha : a.signed = 1)
    (hdigit : 0 < digit 256 a.magnitude b.magnitude index)
    (hremainder : s'.remainder.Returns ((s.remainder.magnitude -
      digit 256 a.magnitude b.magnitude index * (b.magnitude * 256 ^ index) : Nat) : Int))
    (hresult : s'.result.magnitude =
      s.result.magnitude + digit 256 a.magnitude b.magnitude index * 256 ^ index)
    (hsigned : s'.result.signed = 1) (htemp : s'.tempSigned = 1) : DivInvariant a b index s' := by
  have hrest := (h.remainder.spec ha).1
  have hle : rest 256 a.magnitude b.magnitude (index + 1) ≤ a.magnitude := Nat.mod_le _ _
  rw [rest_succ] at hrest hle
  rw [hrest, Nat.add_sub_cancel_left] at hremainder
  have hnot : ¬ a.magnitude < b.magnitude * 256 ^ index := by
    have hmul := Nat.mul_le_mul_right (b.magnitude * 256 ^ index) hdigit
    omega
  refine ⟨?_, ?_, hsigned, htemp⟩
  · rw [IsRest, if_neg hnot]
    exact hremainder
  · rw [h.quotient, hresult, hrest, hremainder.natCast.1]
    ring

omit a b index s in
/-- The trial begins with 1 at least. -/
theorem divMulStart_pos {r : BigInteger} {second high m : Nat}
    (h : divMulStart r second high = .ok (some m)) : 0 < m := by
  rw [divMulStart] at h
  cases hhigh : bigIntegerGetByteValue r (high + 1) with
  | error e =>
    rw [hhigh] at h
    exact nomatch h
  | ok x =>
    cases hlow : bigIntegerGetByteValue r high with
    | error e =>
      rw [hhigh, hlow] at h
      exact nomatch h
    | ok y =>
      rw [hhigh, hlow] at h
      change (if x <<< 8 ||| y < second then _ else _) = _ at h
      generalize x <<< 8 ||| y = start at h
      by_cases hless : start < second
      · rw [if_pos hless] at h
        exact nomatch h
      · rw [if_neg hless] at h
        by_cases hzero : second = 0
        · rw [if_pos hzero] at h
          exact nomatch h
        · rw [if_neg hzero] at h
          have hm := Option.some_inj.mp (Except.ok.inj h)
          have hdiv : 0 < start / second := Nat.div_pos (by omega) (by omega)
          rw [← hm]
          split_ifs <;> omega

/-- **A digit.** -/
theorem divDigit_spec {room m : Nat} (h : DivInvariant a b (index + 1) s) (ha : a.signed = 1)
    (hb : b.signed = 1) (hpos : 0 < b.magnitude) (hroom : arrayLengthOf (index + 2) ≤ room) (hm : 0 < m)
    (hle : m ≤ digit 256 a.magnitude b.magnitude index + 1)
    (hlast : ∀ t : BigInteger, t.Returns
      (((digit 256 a.magnitude b.magnitude index + 1) * (b.magnitude * 256 ^ index) : Nat) : Int) →
        bigIntegerUnsignedCompare s.remainder t = .lt)
    (hone : m ≤ 1 → ∀ t : BigInteger, t.Returns ((b.magnitude * 256 ^ index : Nat) : Int) →
      bigIntegerUnsignedCompare s.remainder t ≠ .eq)
    (hborrows : 0 < digit 256 a.magnitude b.magnitude index → ∀ t : BigInteger, t.Returns
      ((digit 256 a.magnitude b.magnitude index * (b.magnitude * 256 ^ index) : Nat) : Int) →
        BorrowsWell s.remainder.pIntegerArray t.pIntegerArray 0) :
    ∃ s', divDigit room b (index + 1) m s = .ok s' ∧ DivInvariant a b index s' := by
  obtain ⟨hrest, hsigned⟩ := h.remainder.spec ha
  obtain ⟨hlow, -⟩ := digit_spec (v := a.magnitude) (k := index) hpos (show 0 < 256 by decide)
  have hdigit := digit_lt (v := a.magnitude) (k := index) hpos (show 0 < 256 by decide)
  rw [← hrest] at hlow
  have hskip := h.skip hpos
  have htake : ∀ s', _ := fun s' => @DivInvariant.take a b index s s' h ha
  generalize digit 256 a.magnitude b.magnitude index = d at *
  have hshift : (if (index + 1) % 4 = 0 then 4 else (index + 1) % 4) - 1 = index % 4 := by
    split_ifs <;> omega
  have harray : (if 0 < index + 1 then (index + 1 - 1) / 4 else 0) = index / 4 := if_pos (by omega)
  have hsubtract : 0 < d → ∃ s', divSubtract room b s (mulBIDigit room index d) = .ok s' ∧
      DivInvariant a b index s' := by
    intro hd
    obtain ⟨s', hrun, hrem, hres, hone', htemp⟩ := divSubtract_eq hb hroom (by omega) hsigned
      h.result h.temp hlow (hborrows hd)
    exact ⟨s', hrun, htake s' hd hrem hres hone' htemp⟩
  rw [divDigit, hshift, harray]
  change ∃ s', (divTrial room b s.remainder (index % 4) (0x102 - m) m (index / 4)
    (mulBIZero room index) >>= _) = .ok s' ∧ _
  obtain ⟨t, htrial, ⟨rfl, hmd, temp, htemp, hfound⟩ | rfl⟩ := divTrial_eq (n := 0x102 - m) hb hroom
    (by omega) hlow hpos hlast hle (by omega)
  · rw [htrial]
    have htwo : 1 < d := by
      by_contra hnot
      obtain rfl : d = 1 := by omega
      rw [Nat.one_mul] at htemp
      exact hone (by omega) temp htemp hfound
    obtain ⟨s', hrun, hinv⟩ := hsubtract (by omega)
    refine ⟨s', ?_, hinv⟩
    change divTake room b s (index % 4) _ = _
    rw [divTake, if_pos htwo, if_neg (not_not.mpr rfl)]
    exact hrun
  · rw [htrial]
    rcases Nat.eq_zero_or_pos d with hzero | hd
    · refine ⟨s, ?_, hskip hzero⟩
      change divTake room b s (index % 4) _ = _
      exact if_neg (show ¬ 1 < d + 1 by omega)
    · obtain ⟨s', hrun, hinv⟩ := hsubtract hd
      refine ⟨s', ?_, hinv⟩
      change divTake room b s (index % 4) _ = _
      rw [divTake, if_pos (show 1 < d + 1 by omega), if_pos (show Ordering.lt ≠ .eq by decide)]
      change (_ >>= fun m : MulBI => m.setWord (index / 4) (mulIndexWord d (index % 4)) >>=
        divSubtract room b s) = _
      rw [setWord_mulBIDigit_pred hroom (divSubtract room b s) (by omega)]
      exact hrun

/-- **A round.** -/
theorem divRound_spec {second : Nat} (h : DivInvariant a b (index + 1) s) (ha : a.signed = 1)
    (hb : b.signed = 1) (hpos : 0 < b.magnitude) (hlen : b.integerLength ≤ a.integerLength)
    (hindex : index ≤ a.integerLength - b.integerLength)
    (hcompare : bigIntegerUnsignedCompare s.remainder b ≠ .lt)
    (hfits : RoundFits b second index (digit 256 a.magnitude b.magnitude index) s.remainder) :
    ∃ s', divRound a b second (index + 1) s = .ok s' ∧ DivInvariant a b index s' := by
  have hbpos := b.pos
  have hhigh : a.integerLength + (index + 1) - (a.integerLength - b.integerLength + 1) =
      b.integerLength + index := by omega
  rw [divRound, hhigh]
  by_cases hround : b.integerLength + index ≤ s.remainder.integerLength ∧
      s.remainder.integerLength ≤ b.integerLength + index + 1
  · obtain ⟨⟨mulStart, hstart, hmul⟩, hborrows⟩ := hfits.trial hcompare hround.1 hround.2
    rw [if_pos ⟨by omega, by omega⟩, hstart]
    cases mulStart with
    | none => exact ⟨s, rfl, h.skip hpos hmul⟩
    | some m =>
      have hroom : arrayLengthOf (index + 2) ≤ arrayLengthOf (2 * a.integerLength) := by
        rw [arrayLengthOf, arrayLengthOf]
        split_ifs <;> omega
      have hm : 0 < m := divMulStart_pos hstart
      exact divDigit_spec h ha hb hpos hroom hm hmul.1 hmul.2.1 hmul.2.2 hborrows
  · rw [if_neg (by omega)]
    exact ⟨s, rfl, h.skip hpos (hfits.skips hcompare hround)⟩

/-- **The rounds leave less than the divisor.** -/
theorem divRounds_spec {second n : Nat} (h : DivInvariant a b n s) (ha : a.signed = 1)
    (hb : b.signed = 1) (hpos : 0 < b.magnitude) (hle : b.magnitude ≤ a.magnitude)
    (hlen : b.integerLength ≤ a.integerLength) (hn : n ≤ a.integerLength - b.integerLength + 1)
    (hfits : ∀ index ≤ a.integerLength - b.integerLength, ∀ r : BigInteger, IsRest a b (index + 1) r →
      RoundFits b second index (digit 256 a.magnitude b.magnitude index) r) :
    ∃ s', divRounds a b second n s = .ok s' ∧ s'.remainder.magnitude < b.magnitude ∧
      a.magnitude = s'.result.magnitude * b.magnitude + s'.remainder.magnitude := by
  induction n generalizing s with
  | zero =>
    have hsmall : s.remainder.magnitude < b.magnitude := by
      rw [(h.remainder.spec ha).1, rest_zero]
      exact Nat.mod_lt _ hpos
    have hremainder := h.remainder
    rw [IsRest, pow_zero, Nat.mul_one, if_neg (Nat.not_lt_of_le hle)] at hremainder
    have hcompare : bigIntegerUnsignedCompare s.remainder b = .lt := by
      have hgt := unsignedCompare_of_le (r := b) hremainder.canonical hsmall.le
      rw [unsignedCompare_swap, hgt.resolve_right fun heq => absurd heq.2 hsmall.ne']
      rfl
    rw [divRounds, if_pos hcompare]
    exact ⟨s, rfl, hsmall, h.quotient⟩
  | succ n ih =>
    have hindex : n ≤ a.integerLength - b.integerLength := Nat.le_of_succ_le_succ hn
    have hround := hfits n hindex s.remainder h.remainder
    rw [divRounds]
    by_cases hcompare : bigIntegerUnsignedCompare s.remainder b = .lt
    · rw [if_pos hcompare]
      exact ⟨s, rfl, hround.stops hcompare, h.quotient⟩
    · obtain ⟨s', hrun, hinv⟩ := divRound_spec h ha hb hpos hlen hindex hcompare hround
      rw [if_neg hcompare, hrun]
      exact ih hinv (Nat.le_of_succ_le hn)

end

/-! ## 7. The division -/

section

variable {a b : BigInteger}

/-- What a quotient and a remainder come to, for a positive divisor. -/
theorem divides_output_iff (hb : b.signed = 1) (hpos : 0 < b.magnitude) (q r : BigInteger) :
    Divides (.ok (some (divOutput a b q r))) a b ↔
      a.magnitude = q.magnitude * b.magnitude + r.magnitude ∧ r.magnitude < b.magnitude ∧
        (a.signed = 1 ∨ r.magnitude = 0) := by
  have hq := ((returns_clearHighBits q.pIntegerArray (a.signed * b.signed) _).mpr rfl).value
  have hr := ((returns_clearHighBits r.pIntegerArray (a.signed * b.signed) _).mpr rfl).value
  have hiff : Divides (.ok (some (divOutput a b q r))) a b ↔
      a.value = (a.signed * q.magnitude : Int) * b.magnitude + a.signed * r.magnitude ∧
        0 ≤ (a.signed * r.magnitude : Int) ∧ (a.signed * r.magnitude : Int) < b.magnitude := by
    rw [hb, mul_one] at hq hr
    rw [Divides, ← BigInteger.value_of_signed hb, divOutput, hb, mul_one]
    constructor
    · rintro ⟨q', r', hrun, hdiv⟩
      obtain ⟨rfl, rfl⟩ := Prod.mk.inj (Option.some_inj.mp (Except.ok.inj hrun))
      rw [hq, hr] at hdiv
      exact hdiv
    · intro h
      refine ⟨_, _, rfl, ?_⟩
      rw [hq, hr]
      exact h
  rw [hiff, BigInteger.value]
  rcases Int.units_eq_one_or a.signed with ha | ha
  · rw [ha, Units.val_one]
    simp only [one_mul, true_or, and_true]
    constructor
    · rintro ⟨hsum, -, hlt⟩
      exact ⟨by exact_mod_cast hsum, by exact_mod_cast hlt⟩
    · rintro ⟨hsum, hlt⟩
      exact ⟨by exact_mod_cast hsum, Int.natCast_nonneg _, by exact_mod_cast hlt⟩
  · have hne : ¬ (-1 : ℤˣ) = 1 := by decide
    rw [ha, Units.val_neg, Units.val_one]
    constructor
    · rintro ⟨hsum, hnonneg, -⟩
      have hzero : r.magnitude = 0 := by omega
      rw [hzero] at hsum ⊢
      refine ⟨?_, hpos, .inr rfl⟩
      have hprod : (a.magnitude : Int) = q.magnitude * b.magnitude := by
        push_cast at hsum
        linarith
      exact_mod_cast hprod
    · rintro ⟨hsum, -, hzero⟩
      have hzero := hzero.resolve_left hne
      rw [hsum, hzero]
      refine ⟨?_, by simp, by simpa using hpos⟩
      push_cast
      ring

/-- **A long division that fits is right.** -/
theorem divRounds_of_fits {old : Option OldResult} (hpos : 0 < b.magnitude) (hb : b.signed = 1)
    (hlen : b.integerLength ≤ a.integerLength) (h : LongDivFits old a b) :
    ∃ second s, bigIntegerGetByteValue b b.integerLength = .ok second ∧
      divRounds a b second (a.integerLength - b.integerLength + 1)
        ⟨a, bigIntegerZeros (a.integerLength - b.integerLength) (signedBehindAlloc old
          (arrayLengthOf (a.integerLength - b.integerLength + 1))), 1⟩ = .ok s ∧
      s.remainder.magnitude < b.magnitude ∧
      a.magnitude = s.result.magnitude * b.magnitude + s.remainder.magnitude := by
  obtain ⟨second, hsecond, hrounds⟩ := h.rounds
  have hinv : DivInvariant a b (a.integerLength - b.integerLength + 1)
      ⟨a, bigIntegerZeros (a.integerLength - b.integerLength) (signedBehindAlloc old
        (arrayLengthOf (a.integerLength - b.integerLength + 1))), 1⟩ := by
    refine ⟨?_, ?_, h.oldSigned, rfl⟩
    · rw [IsRest, if_pos h.lt]
    · rw [show (bigIntegerZeros _ _).magnitude = 0 from wordsValue_replicate_zero _, Nat.zero_mul,
        Nat.zero_add]
  obtain ⟨s, hrun, hsmall, hsum⟩ := divRounds_spec hinv h.signed hb hpos h.le hlen (Nat.le_refl _)
    hrounds
  exact ⟨second, s, hsecond, hrun, hsmall, hsum⟩

/-- A long division that returns has got over its first estimate. -/
theorem startsDefined_of_divides {old : Option OldResult}
    (hgt : bigIntegerUnsignedCompare a b = .gt)
    (hzero : ¬ (b.integerLength = 1 ∧ b.pIntegerArray.headD 0 = 0))
    (hone : ¬ (b.integerLength = 1 ∧ b.pIntegerArray.headD 0 = 1))
    (h : Divides (bigIntegerDiv old a b) a b) : StartsDefined a b := by
  obtain ⟨q, r, hrun, -⟩ := h
  have hlen := (unsignedCompare_gt hgt).1
  rw [bigIntegerDiv, if_neg hzero, if_neg hone, hgt] at hrun
  cases hsecond : bigIntegerGetByteValue b b.integerLength with
  | error e =>
    rw [hsecond] at hrun
    exact nomatch hrun
  | ok second =>
    have hhigh : a.integerLength + (a.integerLength - b.integerLength + 1) -
        (a.integerLength - b.integerLength + 1) = a.integerLength := by omega
    have hround : a.integerLength ≤ b.integerLength + (a.integerLength - b.integerLength + 1) ∧
        b.integerLength + (a.integerLength - b.integerLength + 1) - a.integerLength ≤ 1 :=
      ⟨by omega, by omega⟩
    have hnot : ¬ bigIntegerUnsignedCompare a b = .lt := by
      rw [hgt]
      decide
    cases hstart : divMulStart a second a.integerLength with
    | error e =>
      rw [hsecond] at hrun
      change (divRounds a b second (a.integerLength - b.integerLength + 1) _ >>= _) = _ at hrun
      rw [divRounds, if_neg hnot, divRound, hhigh, if_pos hround] at hrun
      change ((divMulStart a second a.integerLength >>= _ : Except DivFault DivState) >>= _) >>= _ = _ at hrun
      rw [hstart] at hrun
      exact nomatch hrun
    | ok start => exact ⟨second, start, hsecond, hstart⟩

/-- **A division with a non-zero divisor that fits gives a quotient and a remainder; and none does with
a negative divisor, without a long division where it does not fit, or with one whose first estimate is
not defined.** -/
theorem bigIntegerDiv_divides (old : Option OldResult) (hb : b.magnitude ≠ 0) :
    (DivFits old a b → Divides (bigIntegerDiv old a b) a b) ∧
      (Divides (bigIntegerDiv old a b) a b → b.signed = 1 ∧
        (bigIntegerUnsignedCompare a b ≠ .gt → DivFits old a b) ∧
        (bigIntegerUnsignedCompare a b = .gt → DivFits old a b ∨ StartsDefined a b)) := by
  have hpos : 0 < b.magnitude := Nat.pos_of_ne_zero hb
  have hzero : ¬ (b.integerLength = 1 ∧ b.pIntegerArray.headD 0 = 0) := by
    rintro ⟨hlen, hword⟩
    rw [magnitude_of_length_one hlen, hword] at hb
    exact hb rfl
  have hnil : (bigIntegerClearHighBits [0] 1).magnitude = 0 := magnitude_clearHighBits _ _
  have hunit : (bigIntegerClearHighBits [1] 1).magnitude = 1 := magnitude_clearHighBits _ _
  constructor
  · rintro ⟨hsigned, hfits⟩
    rw [bigIntegerDiv, if_neg hzero]
    by_cases hone : b.integerLength = 1 ∧ b.pIntegerArray.headD 0 = 1
    · have hvalue : b.magnitude = 1 := by
        rw [magnitude_of_length_one hone.1, hone.2, UInt32.toNat_one]
      rw [if_pos hone, divides_output_iff hsigned hpos, hnil, hvalue]
      exact ⟨by omega, by decide, .inr rfl⟩
    · rw [if_neg hone]
      have hmatch := hfits.resolve_left hone
      cases hc : bigIntegerUnsignedCompare a b with
      | eq =>
        dsimp only
        rw [divides_output_iff hsigned hpos, hnil, hunit, unsignedCompare_eq hc]
        exact ⟨by omega, hpos, .inr rfl⟩
      | lt =>
        rw [hc] at hmatch
        dsimp only
        rw [divides_output_iff hsigned hpos, hnil]
        exact ⟨by omega, hmatch.1, hmatch.2⟩
      | gt =>
        rw [hc] at hmatch
        obtain ⟨second, s, hsecond, hrun, hsmall, hsum⟩ :=
          divRounds_of_fits hpos hsigned (unsignedCompare_gt hc).1 hmatch
        dsimp only
        rw [hsecond]
        change Divides (divRounds a b second _ _ >>= _) a b
        rw [hrun]
        exact (divides_output_iff hsigned hpos _ _).mpr ⟨hsum, hsmall, .inl hmatch.signed⟩
  · intro h
    have hsigned : b.signed = 1 := by
      obtain ⟨q, r, -, -, hnonneg, hlt⟩ := h
      rcases Int.units_eq_one_or b.signed with hs | hs
      · exact hs
      · have hneg : b.value = -b.magnitude := by
          rw [BigInteger.value, hs, Units.val_neg, Units.val_one, neg_one_mul]
        omega
    refine ⟨hsigned, fun hne => ⟨hsigned, ?_⟩, fun hgt => ?_⟩
    · refine or_iff_not_imp_left.mpr fun hone => ?_
      rw [bigIntegerDiv, if_neg hzero, if_neg hone] at h
      cases hc : bigIntegerUnsignedCompare a b with
      | eq => trivial
      | lt =>
        rw [hc] at h
        have hout := (divides_output_iff hsigned hpos _ _).mp h
        exact hout.2
      | gt => exact absurd hc hne
    · by_cases hone : b.integerLength = 1 ∧ b.pIntegerArray.headD 0 = 1
      · exact .inl ⟨hsigned, .inl hone⟩
      · exact .inr (startsDefined_of_divides hgt hzero hone h)

end

namespace Example

/-- `0x05060708` -/
def dividend : BigInteger where
  pIntegerArray := [0x05060708]
  integerLength := 4
  signed := 1
  pos := by decide
  arrayLength := rfl
  fits := by decide

/-- `0x0101` -/
def divisor : BigInteger where
  pIntegerArray := [0x0101]
  integerLength := 2
  signed := 1
  pos := by decide
  arrayLength := rfl
  fits := by decide

/-- `0x0506` -/
def shortDividend : BigInteger where
  pIntegerArray := [0x0506]
  integerLength := 2
  signed := 1
  pos := by decide
  arrayLength := rfl
  fits := by decide

/-- The trial for the only octet begins with the one behind it. -/
theorem longDivFits_shortDividend : LongDivFits none shortDividend divisor where
  signed := rfl
  oldSigned := rfl
  le := by decide +kernel
  lt := by decide +kernel
  rounds := by
    refine ⟨1, by decide +kernel, fun index hindex r hr => ?_⟩
    obtain rfl : index = 0 := Nat.le_zero.mp hindex
    rw [IsRest, if_pos (by decide +kernel)] at hr
    rw [hr]
    have hcanonical : shortDividend.Canonical := ⟨.inr (by decide), fun _ => rfl⟩
    refine ⟨fun h => absurd h (by decide +kernel), fun _ h => absurd h (by decide +kernel),
      fun _ _ _ => ⟨⟨some 6, by decide +kernel, by decide +kernel, fun t ht => ?_, ?_⟩, ?_⟩⟩
    · rw [unsignedCompare_of_canonical hcanonical ht.canonical, ht.natCast.1]
      decide +kernel
    · exact fun h => absurd h (by decide)
    · -- there is only one word
      intro _ t _ i hi hborrows
      obtain rfl : i = 0 := Nat.lt_one_iff.mp hi
      exact absurd (Limbs.borrows_zero.mp hborrows) (Nat.lt_irrefl 0)

/-- `0x0506` divided by `0x0101` -/
theorem divides_shortDividend :
    Divides (bigIntegerDiv none shortDividend divisor) shortDividend divisor :=
  (bigIntegerDiv_divides none (a := shortDividend) (b := divisor) (by decide)).1
    ⟨rfl, .inr longDivFits_shortDividend⟩

end Example

/-- **The second trial begins behind its digit.** -/
theorem not_divides_overshoot :
    ¬ Divides (bigIntegerDiv none Example.dividend Example.divisor) Example.dividend Example.divisor := by
  rintro ⟨q, r, hrun, hsum, -⟩
  have hvalues : (bigIntegerDiv none Example.dividend Example.divisor).map
      (Option.map fun p => (p.1.value, p.2.value)) = .ok (some (0x50600, 0x4fef8)) := by
    decide +kernel
  rw [hrun] at hvalues
  obtain ⟨hq, hr⟩ := Prod.mk.inj (Option.some_inj.mp (Except.ok.inj hvalues))
  change q.value = 0x50600 at hq
  change r.value = 0x4fef8 at hr
  rw [hq, hr] at hsum
  exact absurd hsum (by decide +kernel)

end Mt7601.Crypt
