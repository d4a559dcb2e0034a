/-
# The Montgomery reduction of the big integers

`BigInteger_Montgomery_Reduction` for a modulus whose lowest word is `0xffffffff`, as that of the key
agreement is, so that each row is the modulus times the word that it makes zero. The loop works on
the array of the result in place, which has to have 97 words, and comes out below twice the modulus
(`montLoop_eq`). Then the modulus is taken off by `BigInteger_Sub`, which is right only if it loses
no borrow (`montgomeryReduction_iff`).
-/
import Mt7601.Crypt.BigIntegerBin
import Mt7601.Crypt.BigIntegerSquare
import Mt7601.Lib.Montgomery

namespace Mt7601.Crypt

/-! ## 1. The prime -/

/-- `WPS_DH_P_VALUE` -/
def wpsDhPValue : List UInt8 :=
  [0xff, 0xff, 0xff, 0xff, 0xff, 0xff, 0xff, 0xff, 0xc9, 0x0f, 0xda, 0xa2,
   0x21, 0x68, 0xc2, 0x34, 0xc4, 0xc6, 0x62, 0x8b, 0x80, 0xdc, 0x1c, 0xd1,
   0x29, 0x02, 0x4e, 0x08, 0x8a, 0x67, 0xcc, 0x74, 0x02, 0x0b, 0xbe, 0xa6,
   0x3b, 0x13, 0x9b, 0x22, 0x51, 0x4a, 0x08, 0x79, 0x8e, 0x34, 0x04, 0xdd,
   0xef, 0x95, 0x19, 0xb3, 0xcd, 0x3a, 0x43, 0x1b, 0x30, 0x2b, 0x0a, 0x6d,
   0xf2, 0x5f, 0x14, 0x37, 0x4f, 0xe1, 0x35, 0x6d, 0x6d, 0x51, 0xc2, 0x45,
   0xe4, 0x85, 0xb5, 0x76, 0x62, 0x5e, 0x7e, 0xc6, 0xf4, 0x4c, 0x42, 0xe9,
   0xa6, 0x37, 0xed, 0x6b, 0x0b, 0xff, 0x5c, 0xb6, 0xf4, 0x06, 0xb7, 0xed,
   0xee, 0x38, 0x6b, 0xfb, 0x5a, 0x89, 0x9f, 0xa5, 0xae, 0x9f, 0x24, 0x11,
   0x7c, 0x4b, 0x1f, 0xe6, 0x49, 0x28, 0x66, 0x51, 0xec, 0xe4, 0x5b, 0x3d,
   0xc2, 0x00, 0x7c, 0xb8, 0xa1, 0x63, 0xbf, 0x05, 0x98, 0xda, 0x48, 0x36,
   0x1c, 0x55, 0xd3, 0x9a, 0x69, 0x16, 0x3f, 0xa8, 0xfd, 0x24, 0xcf, 0x5f,
   0x83, 0x65, 0x5d, 0x23, 0xdc, 0xa3, 0xad, 0x96, 0x1c, 0x62, 0xf3, 0x56,
   0x20, 0x85, 0x52, 0xbb, 0x9e, 0xd5, 0x29, 0x07, 0x70, 0x96, 0x96, 0x6d,
   0x67, 0x0c, 0x35, 0x4e, 0x4a, 0xbc, 0x98, 0x04, 0xf1, 0x74, 0x6c, 0x08,
   0xca, 0x23, 0x73, 0x27, 0xff, 0xff, 0xff, 0xff, 0xff, 0xff, 0xff, 0xff]

theorem length_wpsDhPValue : wpsDhPValue.length = 192 := by
  decide +kernel

/-- `pBI_P` -/
def wpsDhP : BigInteger where
  pIntegerArray := bin2biWords wpsDhPValue 0 (firstShiftIndex wpsDhPValue.length) []
  integerLength := wpsDhPValue.length
  signed := 1
  pos := by
    rw [length_wpsDhPValue]
    decide
  arrayLength := (bin2biWords_all wpsDhPValue).1
  fits := (bin2biWords_all wpsDhPValue).2.trans_lt (beVal_lt wpsDhPValue)

/-- `WPS_DH_R_VALUE` is this number. -/
def montgomeryR : Nat := 2 ^ 1536

theorem montgomeryR_eq : montgomeryR = wordBase ^ 48 := by
  rw [montgomeryR, ← pow_mul]

/-- What the reduction needs of a modulus: 192 octets, the highest not zero, and the lowest word -1. -/
structure Suits (p : BigInteger) : Prop where
  integerLength : p.integerLength = 192
  signed : p.signed = 1
  leading : 256 ^ 191 ≤ p.magnitude
  low : wordBase ∣ 1 * p.magnitude + 1

theorem suits_wpsDhP : Suits wpsDhP where
  integerLength := length_wpsDhPValue
  signed := rfl
  leading := by decide +kernel
  low := by decide +kernel

namespace Suits

variable {p : BigInteger} (hp : Suits p)

include hp

theorem length : p.pIntegerArray.length = 48 := by
  rw [p.arrayLength, hp.integerLength]
  rfl

theorem lt_pow : p.magnitude < wordBase ^ 48 := by
  have hlt := wordsValue_lt p.pIntegerArray
  rwa [hp.length] at hlt

theorem pos : 0 < p.magnitude := (Nat.pow_pos (by decide)).trans_le hp.leading

theorem canonical : p.Canonical where
  length := by
    rw [hp.integerLength]
    exact .inr hp.leading
  sign := fun _ => hp.signed

end Suits

/-! ## 2. The loop -/

/-- The carry out of a row. -/
def montCarry : List UInt32 → UInt64 → Checked (List UInt32)
  | [], carry => if carry = 0 then .ok [] else .error .outside
  | r :: rs, carry =>
    if carry = 0 then .ok (r :: rs)
    else do
      let result1 := r.toUInt64 + carry
      let rs ← montCarry rs (result1 >>> 32)
      .ok ((result1 &&& 0xffffffff).toUInt32 :: rs)

/-- A row: the words of the prime times `TempValue64`, added to the result from `Point_Result` on. -/
def montRow (temp : UInt32) : List UInt32 → List UInt32 → UInt64 → Checked (List UInt32)
  | [], rs, carry => montCarry rs carry
  | _ :: _, [], _ => .error .outside
  | p :: ps, r :: rs, carry => do
    let result1 := r.toUInt64 + carry
    let result2 := p.toUInt64 * temp.toUInt64
    let carry := result1 >>> 32
    let result1 := (result1 &&& 0xffffffff) + result2
    let carry := carry + (result1 >>> 32)
    let rs ← montRow temp ps rs carry
    .ok ((result1 &&& 0xffffffff).toUInt32 :: rs)

/-- `n` rows, each from the next word on; what is left is the array behind the last of them. Where
there is no first word the row stops at once. -/
def montLoop (ps : List UInt32) : Nat → List UInt32 → Checked (List UInt32)
  | 0, rs => .ok rs
  | n + 1, rs => do
    let rs ← montRow (rs.headD 0) ps rs 0
    montLoop ps n rs.tail

theorem montCarry_eq {rs : List UInt32} {carry : UInt64} (hcarry : carry.toNat < wordBase)
    (hfits : wordsValue rs + carry.toNat < wordBase ^ rs.length) :
    ∃ rs', montCarry rs carry = .ok rs' ∧ rs'.length = rs.length ∧
      wordsValue rs' = wordsValue rs + carry.toNat := by
  induction rs generalizing carry with
  | nil =>
    rw [wordsValue_nil, List.length_nil, pow_zero, Nat.zero_add, Nat.lt_one_iff] at hfits
    rw [montCarry, if_pos (UInt64.toNat_inj.mp hfits), hfits]
    exact ⟨[], rfl, rfl, rfl⟩
  | cons r rs ih =>
    rw [montCarry]
    split_ifs with hzero
    · rw [hzero]
      exact ⟨_, rfl, rfl, rfl⟩
    · obtain ⟨hsplit, hnext⟩ := toNat_split (r.toUInt64 + carry)
      have hsum : (r.toUInt64 + carry).toNat = r.toNat + carry.toNat := by
        have hr := r.toNat_lt
        have hbase : wordBase = 4294967296 := rfl
        rw [UInt64.toNat_add, UInt32.toNat_toUInt64]
        omega
      rw [hsum] at hsplit
      have htotal : wordsValue (r :: rs) + carry.toNat =
          ((r.toUInt64 + carry) &&& 0xffffffff).toUInt32.toNat +
            wordBase * (wordsValue rs + ((r.toUInt64 + carry) >>> 32).toNat) := by
        rw [wordsValue_cons, show r.toNat + wordBase * wordsValue rs + carry.toNat =
          r.toNat + carry.toNat + wordBase * wordsValue rs by ring, ← hsplit]
        ring
      rw [htotal, List.length_cons, pow_succ'] at hfits
      have hrest := Nat.lt_of_mul_lt_mul_left ((Nat.le_add_left _ _).trans_lt hfits)
      obtain ⟨rs', hrun, hlen, hvalue⟩ := ih hnext hrest
      dsimp only
      rw [hrun, Checked.ok_bind]
      exact ⟨_, rfl, by rw [List.length_cons, List.length_cons, hlen],
        by rw [wordsValue_cons, hvalue, htotal]⟩

/-- **A row that fits** is added. -/
theorem montRow_eq (temp : UInt32) {ps rs : List UInt32} {carry : UInt64}
    (hcarry : carry.toNat < wordBase) (hlen : ps.length ≤ rs.length)
    (hfits : wordsValue rs + temp.toNat * wordsValue ps + carry.toNat < wordBase ^ rs.length) :
    ∃ rs', montRow temp ps rs carry = .ok rs' ∧ rs'.length = rs.length ∧
      wordsValue rs' = wordsValue rs + temp.toNat * wordsValue ps + carry.toNat := by
  induction ps generalizing rs carry with
  | nil =>
    rw [wordsValue_nil, Nat.mul_zero, Nat.add_zero] at hfits ⊢
    exact montCarry_eq hcarry hfits
  | cons p ps ih =>
    rcases rs with _ | ⟨r, rs⟩
    · exact absurd hlen (Nat.not_succ_le_zero _)
    obtain ⟨hlow, hhigh⟩ := @crossSum_eq r temp p carry hcarry
    obtain ⟨hsplit, hnext⟩ := toNat_split (r.toUInt64 + p.toUInt64 * temp.toUInt64 + carry)
    rw [toNat_mac hcarry] at hsplit
    have htotal : wordsValue (r :: rs) + temp.toNat * wordsValue (p :: ps) + carry.toNat =
        ((r.toUInt64 + p.toUInt64 * temp.toUInt64 + carry) &&& 0xffffffff).toUInt32.toNat +
          wordBase * (wordsValue rs + temp.toNat * wordsValue ps +
            ((r.toUInt64 + p.toUInt64 * temp.toUInt64 + carry) >>> 32).toNat) := by
      rw [wordsValue_cons, wordsValue_cons,
        show r.toNat + wordBase * wordsValue rs + temp.toNat * (p.toNat + wordBase * wordsValue ps) +
          carry.toNat = r.toNat + p.toNat * temp.toNat + carry.toNat +
            wordBase * (wordsValue rs + temp.toNat * wordsValue ps) by ring, ← hsplit]
      ring
    rw [htotal, List.length_cons, pow_succ'] at hfits
    have hrest := Nat.lt_of_mul_lt_mul_left ((Nat.le_add_left _ _).trans_lt hfits)
    obtain ⟨rs', hrun, hlen', hvalue⟩ := ih hnext (Nat.le_of_succ_le_succ hlen) hrest
    rw [montRow, hlow, hhigh, hrun, Checked.ok_bind]
    exact ⟨_, rfl, by rw [List.length_cons, List.length_cons, hlen'],
      by rw [wordsValue_cons, hvalue, htotal]⟩

theorem length_montCarry {rs rs' : List UInt32} {carry : UInt64}
    (h : montCarry rs carry = .ok rs') : rs'.length = rs.length := by
  induction rs generalizing rs' carry with
  | nil =>
    rw [montCarry] at h
    split_ifs at h
    rw [← Except.ok.inj h]
  | cons r rs ih =>
    rw [montCarry] at h
    split_ifs at h
    · rw [← Except.ok.inj h]
    · obtain ⟨rest, hrest, heq⟩ := Checked.bind_eq_ok.mp h
      rw [← Except.ok.inj heq, List.length_cons, ih hrest, List.length_cons]

/-- A row that is not stopped has had the words of the prime in front of it. -/
theorem length_montRow {temp : UInt32} {ps rs rs' : List UInt32} {carry : UInt64}
    (h : montRow temp ps rs carry = .ok rs') :
    rs'.length = rs.length ∧ ps.length ≤ rs.length := by
  induction ps generalizing rs rs' carry with
  | nil =>
    rw [montRow] at h
    exact ⟨length_montCarry h, Nat.zero_le _⟩
  | cons p ps ih =>
    rcases rs with _ | ⟨r, rs⟩
    · exact nomatch h
    rw [montRow] at h
    obtain ⟨rest, hrest, heq⟩ := Checked.bind_eq_ok.mp h
    obtain ⟨hlen, hle⟩ := ih hrest
    rw [← Except.ok.inj heq, List.length_cons, List.length_cons, List.length_cons, hlen]
    exact ⟨rfl, Nat.succ_le_succ hle⟩

theorem length_montLoop {n : Nat} {ps rs rs' : List UInt32} (hps : ps ≠ [])
    (h : montLoop ps n rs = .ok rs') : rs'.length + n = rs.length := by
  induction n generalizing rs with
  | zero => rw [← Except.ok.inj h, Nat.add_zero]
  | succ n ih =>
    rw [montLoop] at h
    obtain ⟨row, hrow, hrest⟩ := Checked.bind_eq_ok.mp h
    obtain ⟨hlen, hle⟩ := length_montRow hrow
    have hpos := List.length_pos_iff.mpr hps
    have hih := ih hrest
    rw [List.length_tail] at hih
    omega

/-- **The loop takes `n` digits off**, and leaves the number behind them. -/
theorem montLoop_eq {p : BigInteger} (hp : Suits p) {n : Nat} {rs : List UInt32} (hlen : n + 49 ≤ rs.length)
    (hlt : wordsValue rs < p.magnitude * wordBase ^ n + p.magnitude) :
    ∃ rs', montLoop p.pIntegerArray n rs = .ok rs' ∧
      wordsValue rs' = Montgomery.steps wordBase p.magnitude 1 n (wordsValue rs) := by
  induction n generalizing rs with
  | zero => exact ⟨rs, rfl, rfl⟩
  | succ n ih =>
    have hhead := wordsValue_head_tail rs
    have hword : (rs.headD 0).toNat < wordBase := (rs.headD 0).toNat_lt
    have hprime := hp.lt_pow
    have hpow : wordBase ≤ wordBase ^ (n + 1) := Nat.le_self_pow (Nat.succ_ne_zero n) _
    have hmul : (rs.headD 0).toNat * p.magnitude + p.magnitude ≤ p.magnitude * wordBase := by
      have hle := Nat.mul_le_mul_right p.magnitude (Nat.succ_le_of_lt hword)
      rwa [Nat.succ_mul, Nat.mul_comm wordBase] at hle
    have hfits : wordsValue rs + (rs.headD 0).toNat * wordsValue p.pIntegerArray +
        (0 : UInt64).toNat < wordBase ^ rs.length := by
      have hroom : wordBase ^ (n + 50) ≤ wordBase ^ rs.length :=
        Nat.pow_le_pow_right (by decide) (by omega)
      have hsum : p.magnitude * wordBase ^ (n + 1) + p.magnitude * wordBase ≤ wordBase ^ (n + 50) := by
        calc p.magnitude * wordBase ^ (n + 1) + p.magnitude * wordBase
            ≤ p.magnitude * wordBase ^ (n + 1) + p.magnitude * wordBase ^ (n + 1) :=
              Nat.add_le_add_left (Nat.mul_le_mul_left _ hpow) _
          _ = 2 * (p.magnitude * wordBase ^ (n + 1)) := (Nat.two_mul _).symm
          _ ≤ wordBase * (wordBase ^ 48 * wordBase ^ (n + 1)) :=
              Nat.mul_le_mul (by decide) (Nat.mul_le_mul_right _ hprime.le)
          _ = wordBase ^ (n + 50) := by ring
      rw [show wordsValue p.pIntegerArray = p.magnitude from rfl, UInt64.toNat_zero]
      omega
    have hprimeLen : p.pIntegerArray.length ≤ rs.length := by
      rw [hp.length]
      omega
    obtain ⟨row, hrow, hrowLen, hvalue⟩ := montRow_eq (rs.headD 0) (by decide) hprimeLen hfits
    have hfactor : Montgomery.factor wordBase 1 (wordsValue rs) = (rs.headD 0).toNat := by
      rw [Montgomery.factor, Nat.mul_one, Nat.mod_mod, hhead, Nat.add_mul_mod_self_left]
      exact Nat.mod_eq_of_lt hword
    have hstep := Montgomery.mul_step hp.low (wordsValue rs)
    rw [hfactor] at hstep
    rw [show wordsValue p.pIntegerArray = p.magnitude from rfl, UInt64.toNat_zero, Nat.add_zero,
      ← hstep, wordsValue_head_tail] at hvalue
    have hzero : (row.headD 0).toNat = 0 := by
      have hdvd : wordBase ∣ (row.headD 0).toNat :=
        (Nat.dvd_add_left (Nat.dvd_mul_right _ _)).mp (hvalue ▸ Nat.dvd_mul_right _ _)
      exact Nat.eq_zero_of_dvd_of_lt hdvd (row.headD 0).toNat_lt
    have htail : wordsValue row.tail = Montgomery.step wordBase p.magnitude 1 (wordsValue rs) := by
      rw [hzero, Nat.zero_add] at hvalue
      exact Nat.eq_of_mul_eq_mul_left (by decide) hvalue
    have hnext : wordsValue row.tail < p.magnitude * wordBase ^ n + p.magnitude := by
      refine Nat.lt_of_mul_lt_mul_left (a := wordBase) ?_
      rw [htail, hstep, Nat.mul_add, Nat.mul_left_comm, ← pow_succ', Nat.mul_comm wordBase p.magnitude]
      omega
    have htailLen : n + 49 ≤ row.tail.length := by
      rw [List.length_tail]
      omega
    obtain ⟨rs', hrun, hvalue'⟩ := ih htailLen hnext
    rw [montLoop, hrow, Checked.ok_bind, Montgomery.steps, ← htail]
    exact ⟨rs', hrun, hvalue'⟩

/-! ## 3. `BigInteger_Montgomery_Reduction` -/

/-- `Bits_Of_R`, as it is set for the prime -/
def bitsOfR : Nat := 1537

/-- `LoopCount` -/
def loopCount : Nat := bitsOfR >>> 5

/-- The words the result object has room for behind `BigInteger_AllocSize`. -/
def roomBehindAlloc (old : Option OldResult) (arrayLength : Nat) : Nat :=
  max ((old.map OldResult.allocWords).getD 0) arrayLength

/-- The room for the reduction of `a`. -/
def reductionRoom (old : Option OldResult) (a p : BigInteger) : Nat :=
  roomBehindAlloc old (arrayLengthOf (a.integerLength + p.integerLength + 20))

/-- The subtraction behind the loop; `oldU` is what `pBI_U` was. -/
def takePrimeOff (oldU : Option OldResult) (result p : BigInteger) : BigInteger :=
  if bigIntegerUnsignedCompare result p ≠ .lt then
    let u := bigIntegerSub oldU result p
    bigIntegerClearHighBits u.pIntegerArray u.signed
  else bigIntegerClearHighBits result.pIntegerArray result.signed

/-- `BigInteger_Montgomery_Reduction` for the prime -/
def bigIntegerMontgomeryReduction (old oldU : Option OldResult) (a p : BigInteger) :
    Checked BigInteger := do
  let zeros := List.replicate (reductionRoom old a p - a.pIntegerArray.length) 0
  let rs ← montLoop p.pIntegerArray loopCount (a.pIntegerArray ++ zeros)
  -- the words that are moved to the front
  Checked.access rs.length 0 (loopCount + 1)
  let arrayLength := if rs.getD loopCount 0 ≠ 0 then loopCount + 1 else loopCount
  .ok (takePrimeOff oldU (bigIntegerClearHighBits (rs.take arrayLength) a.signed) p)

theorem wordsValue_append (ws ws' : List UInt32) :
    wordsValue (ws ++ ws') = wordsValue ws + wordBase ^ ws.length * wordsValue ws' := by
  rw [wordsValue, List.map_append, Nat.ofDigits_append, List.length_map, wordsValue, wordsValue]

/-- A number that fits into the first words is in them. -/
theorem wordsValue_take {ws : List UInt32} {n : Nat} (h : wordsValue ws < wordBase ^ n) :
    wordsValue (ws.take n) = wordsValue ws := by
  rcases Nat.le_total ws.length n with hle | hle
  · rw [List.take_of_length_le hle]
  · have hsplit := wordsValue_append (ws.take n) (ws.drop n)
    rw [List.take_append_drop, List.length_take_of_le hle] at hsplit
    have hzero : wordsValue (ws.drop n) = 0 := by
      by_contra hne
      have hmul := Nat.mul_le_mul_left (wordBase ^ n) (Nat.one_le_iff_ne_zero.mpr hne)
      omega
    rw [hsplit, hzero, Nat.mul_zero, Nat.add_zero]

/-- And the last of them may be left out if it is zero. -/
theorem wordsValue_take_succ {ws : List UInt32} {n : Nat} (h : wordsValue ws < wordBase ^ (n + 1)) :
    wordsValue (ws.take (if ws.getD n 0 ≠ 0 then n + 1 else n)) = wordsValue ws := by
  split_ifs with hword
  · exact wordsValue_take h
  · have hfull := wordsValue_take h
    push Not at hword
    rcases Nat.lt_or_ge n ws.length with hlt | hge
    · rw [List.getD_eq_getElem?_getD, List.getElem?_eq_getElem hlt, Option.getD_some] at hword
      rw [List.take_succ_eq_append_getElem hlt, hword, wordsValue_append_singleton,
        UInt32.toNat_zero, Nat.mul_zero, Nat.add_zero] at hfull
      exact hfull
    · rw [List.take_of_length_le hge]

/-- Canonical numbers are compared right. -/
theorem unsignedCompare_of_canonical {a b : BigInteger} (ha : a.Canonical) (hb : b.Canonical) :
    bigIntegerUnsignedCompare a b = compare a.magnitude b.magnitude := by
  have hlonger : ∀ {a b : BigInteger}, a.Canonical → b.integerLength < a.integerLength →
      b.magnitude < a.magnitude := by
    intro a b ha hlen
    by_contra hle
    have hfits : a.magnitude < 256 ^ b.integerLength := (Nat.le_of_not_lt hle).trans_lt b.fits
    exact absurd (integerLength_le ha b.pos hfits) (Nat.not_le_of_lt hlen)
  rcases unsignedCompare_cases (a := a) (b := b) with ⟨hc, hlen⟩ | ⟨hc, hlen⟩ | ⟨-, hc⟩
  · rw [hc, compare_gt_iff_gt.mpr (hlonger ha hlen)]
  · rw [hc, compare_lt_iff_lt.mpr (hlonger hb hlen)]
  · exact hc

/-! ## 4. When it is right -/

/-- The number that is wanted of `A`, modulo `P`. -/
structure IsReduction (P : Nat) (A T : Int) : Prop where
  nonneg : 0 ≤ T
  lt : T < P
  modEq : T * montgomeryR ≡ A [ZMOD P]

/-- It is returned, and there is no other. -/
def Reduces (run : Checked BigInteger) (P : Nat) (A : Int) : Prop :=
  ∃ r, run = .ok r ∧ IsReduction P A r.value ∧ ∀ T, IsReduction P A T → T = r.value

/-- **If the number in front of the last subtraction is not below the modulus**, no borrow of it goes
wrong. -/
structure LastSubFits (a p : BigInteger) : Prop where
  borrows : ∀ (M : Nat) (t : BigInteger), M < montgomeryR → t.Canonical →
    a.magnitude + M * p.magnitude = montgomeryR * t.magnitude →
    p.magnitude ≤ t.magnitude → BorrowsWell t.pIntegerArray p.pIntegerArray 0

theorem not_reduces_error (e : Checked.Fault) (P : Nat) (A : Int) : ¬ Reduces (.error e) P A := by
  rintro ⟨r, hr, -⟩
  exact nomatch hr

/-- The modulus may be taken off. -/
theorem IsReduction.of_sub {A : Int} {P t : Nat} (hle : P ≤ t) (hlt : t < 2 * P)
    (hmod : (t : Int) * montgomeryR ≡ A [ZMOD P]) : IsReduction P A ((t - P : Nat) : Int) := by
  refine ⟨Int.natCast_nonneg _, by omega, ?_⟩
  have hzero : (P : Int) * montgomeryR ≡ 0 [ZMOD P] :=
    Int.modEq_zero_iff_dvd.mpr (Dvd.intro _ rfl)
  rw [Nat.cast_sub hle, sub_mul, ← sub_zero A]
  exact hmod.sub hzero

/-- A number that is cleared again is the same. -/
theorem value_clearHighBits (r : BigInteger) :
    (bigIntegerClearHighBits r.pIntegerArray r.signed).value = r.value :=
  ((returns_clearHighBits _ _ _).mpr rfl).value

section

variable {p : BigInteger} (hp : Suits p)

include hp

theorem IsReduction.unique {A T T' : Int} (h : IsReduction p.magnitude A T)
    (h' : IsReduction p.magnitude A T') : T = T' := by
  have hcoprime : Int.gcd p.magnitude montgomeryR = 1 := by
    rw [montgomeryR_eq, Int.gcd_natCast_natCast]
    exact (Montgomery.coprime hp.low 48).symm
  have hdvd := Int.modEq_iff_dvd.mp (h.modEq.trans h'.modEq.symm)
  rw [← sub_mul] at hdvd
  have hmod := Int.modEq_iff_dvd.mpr (Int.dvd_of_dvd_mul_left_of_gcd_one hdvd hcoprime)
  calc T = T % p.magnitude := (Int.emod_eq_of_lt h.nonneg h.lt).symm
    _ = T' % p.magnitude := hmod
    _ = T' := Int.emod_eq_of_lt h'.nonneg h'.lt

theorem reduces_ok_iff (r : BigInteger) (A : Int) :
    Reduces (.ok r) p.magnitude A ↔ IsReduction p.magnitude A r.value := by
  constructor
  · rintro ⟨r', hr, h, -⟩
    rw [Except.ok.inj hr]
    exact h
  · intro h
    exact ⟨r, rfl, h, fun T hT => hT.unique hp h⟩

/-- **The last subtraction is right exactly if it loses no borrow.** -/
theorem isReduction_takePrimeOff_iff (oldU : Option OldResult) {A : Int} {t : BigInteger}
    (hcanonical : t.Canonical) (hsigned : t.signed = 1) (hlt : t.magnitude < 2 * p.magnitude)
    (hmod : (t.magnitude : Int) * montgomeryR ≡ A [ZMOD p.magnitude]) :
    IsReduction p.magnitude A (takePrimeOff oldU t p).value ↔
      (p.magnitude ≤ t.magnitude → BorrowsWell t.pIntegerArray p.pIntegerArray 0) := by
  have hcompare := unsignedCompare_of_canonical hcanonical hp.canonical
  have hsame : t.signed = p.signed := hsigned.trans hp.signed.symm
  rw [takePrimeOff]
  rcases Nat.lt_trichotomy t.magnitude p.magnitude with hbelow | heq | habove
  · rw [compare_lt_iff_lt.mpr hbelow] at hcompare
    rw [if_neg (not_not.mpr hcompare), value_clearHighBits, BigInteger.value, hsigned, Units.val_one,
      one_mul]
    exact iff_of_true ⟨Int.natCast_nonneg _, Int.ofNat_lt.mpr hbelow, hmod⟩
      fun h => absurd h (Nat.not_le_of_lt hbelow)
  · rw [compare_eq_iff_eq.mpr heq] at hcompare
    have hsub := IsReduction.of_sub heq.ge hlt hmod
    rw [if_pos (by rw [hcompare]; decide), value_clearHighBits, bigIntegerSub, if_pos hsame,
      bigIntegerSubAlike, hcompare]
    have hzero : (bigIntegerZero oldU).value = ((t.magnitude - p.magnitude : Nat) : Int) := by
      rw [heq, Nat.sub_self]
      exact mul_zero _
    dsimp only
    rw [hzero]
    exact iff_of_true hsub fun _ => borrowsWell_of_eq heq
  · rw [compare_gt_iff_gt.mpr habove] at hcompare
    have hsub := IsReduction.of_sub habove.le hlt hmod
    rw [if_pos (by rw [hcompare]; decide), value_clearHighBits, bigIntegerSub, if_pos hsame,
      bigIntegerSubAlike, hcompare]
    have hnot : ¬ (t.signed = -1 ∧ p.signed = -1) := fun h =>
      absurd (hsigned.symm.trans h.1) (by decide)
    have hvalue : (bigIntegerClearHighBits (diffWords t.pIntegerArray p.pIntegerArray 0)
        (if t.signed = -1 ∧ p.signed = -1 then -1 else t.signed)).value =
          wordsValue (diffWords t.pIntegerArray p.pIntegerArray 0) := by
      rw [if_neg hnot, hsigned, ((returns_clearHighBits _ _ _).mpr rfl).value, Units.val_one, one_mul]
    have hdiff : wordsValue (diffWords t.pIntegerArray p.pIntegerArray 0) =
        t.magnitude - p.magnitude ↔ BorrowsWell t.pIntegerArray p.pIntegerArray 0 :=
      wordsValue_diffWords_iff habove.le
    dsimp only
    rw [hvalue, forall_prop_of_true habove.le, ← hdiff]
    constructor
    · intro h
      exact Int.ofNat_inj.mp (h.unique hp hsub)
    · intro h
      rw [h]
      exact hsub

/-- **What is in front of it.** -/
theorem lastSubFits_iff {a t : BigInteger} (hcanonical : t.Canonical) (hsigned : t.signed = 1)
    (ht : t.magnitude = Montgomery.steps wordBase p.magnitude 1 48 a.magnitude) :
    LastSubFits a p ↔
      (p.magnitude ≤ t.magnitude → BorrowsWell t.pIntegerArray p.pIntegerArray 0) := by
  constructor
  · intro h
    obtain ⟨M, hM, hsum⟩ := Montgomery.steps_spec (by decide) hp.low 48 a.magnitude
    rw [← montgomeryR_eq] at hM hsum
    rw [← ht] at hsum
    exact h.borrows M t hM hcanonical hsum
  · intro h
    refine ⟨fun M t' hM hcanonical' hsum hle => ?_⟩
    rw [montgomeryR_eq] at hM hsum
    have hsame : t'.magnitude = t.magnitude :=
      (Montgomery.eq_steps (by decide) hp.low hM hsum).trans ht.symm
    have hreturns : t.Returns t.magnitude :=
      ⟨by rw [BigInteger.value, hsigned, Units.val_one, one_mul], hcanonical⟩
    have hreturns' : t'.abs.Returns t.magnitude :=
      ⟨by rw [BigInteger.value_abs, hsame], ⟨hcanonical'.length, fun _ => rfl⟩⟩
    have hone := hreturns'.unique hreturns
    have hwords : t'.abs.pIntegerArray = t.pIntegerArray := congrArg BigInteger.pIntegerArray hone
    change t'.pIntegerArray = _ at hwords
    rw [hwords]
    exact h (hsame ▸ hle)

omit hp in
/-- A number below the modulus comes out below it. -/
theorem lastSubFits_of_lt {a : BigInteger} (h : a.magnitude < p.magnitude) : LastSubFits a p := by
  refine ⟨fun M t hM _ hsum hle => ?_⟩
  have hmul := Nat.mul_le_mul_left montgomeryR hle
  have hsucc := Nat.mul_le_mul_right p.magnitude (Nat.succ_le_of_lt hM)
  rw [Nat.succ_mul] at hsucc
  omega

/-- **For a modulus that suits, what is wanted is returned exactly if the result object has 97 words
and the last subtraction loses no borrow.** -/
theorem reduces_iff (old oldU : Option OldResult) {a : BigInteger} (hnonneg : 0 ≤ a.value)
    (hlt : a.value < p.magnitude * montgomeryR) :
    Reduces (bigIntegerMontgomeryReduction old oldU a p) p.magnitude a.value ↔
      97 ≤ reductionRoom old a p ∧ LastSubFits a p := by
  have hsign := BigInteger.signed_of_nonneg hnonneg
  have hmagnitude := BigInteger.value_of_nonneg hnonneg
  have hloops : loopCount = 48 := rfl
  set zeros := List.replicate (reductionRoom old a p - a.pIntegerArray.length) (0 : UInt32) with hzeros
  have hroom : (a.pIntegerArray ++ zeros).length = reductionRoom old a p := by
    have hle : a.pIntegerArray.length ≤ reductionRoom old a p := by
      refine le_trans ?_ (Nat.le_max_right _ _)
      rw [a.arrayLength, arrayLengthOf, arrayLengthOf]
      split_ifs <;> omega
    rw [hzeros, List.length_append, List.length_replicate]
    omega
  have hvalue : wordsValue (a.pIntegerArray ++ zeros) = a.magnitude :=
    wordsValue_append_zeros _ _
  rw [bigIntegerMontgomeryReduction, ← hzeros]
  by_cases hwords : 97 ≤ reductionRoom old a p
  · have hbound : a.magnitude < p.magnitude * wordBase ^ 48 := by
      rw [hmagnitude, ← Nat.cast_mul, Nat.cast_lt, montgomeryR_eq] at hlt
      exact hlt
    have hlong : 48 + 49 ≤ (a.pIntegerArray ++ zeros).length := by
      rw [hroom]
      exact hwords
    obtain ⟨rs, hrun, hsteps⟩ := montLoop_eq hp hlong (by
      rw [hvalue]
      exact Nat.lt_add_right _ hbound)
    have hlen := length_montLoop (pIntegerArray_ne_nil p) hrun
    have hsmall := Montgomery.steps_lt (by decide) hp.low hp.pos hbound
    have hcongr := Montgomery.steps_modEq (by decide) hp.low 48 a.magnitude
    rw [hvalue] at hsteps
    rw [hroom] at hlen
    have hfits : wordsValue rs < wordBase ^ (48 + 1) := by
      rw [hsteps, pow_succ']
      exact hsmall.trans_le (Nat.mul_le_mul (by decide) hp.lt_pow.le)
    obtain ⟨hmag, hcanonical, hsigned⟩ := clearHighBits_spec
      (rs.take (if rs.getD 48 0 ≠ 0 then 48 + 1 else 48)) a.signed
    rw [wordsValue_take_succ hfits, hsteps] at hmag hsigned
    rw [hloops, hrun, Checked.ok_bind, Checked.access_ok (by omega), Checked.ok_bind]
    dsimp only
    generalize bigIntegerClearHighBits (rs.take (if rs.getD 48 0 ≠ 0 then 48 + 1 else 48))
      a.signed = t at *
    have hone : t.signed = 1 := by
      rcases hsign with hs | hs
      · rw [hsigned, hs, ite_self]
      · have hzero : Montgomery.steps wordBase p.magnitude 1 48 a.magnitude = 0 := by
          refine (Montgomery.eq_steps (M := 0) (by decide) hp.low (by decide) ?_).symm
          rw [hs, Nat.zero_mul, Nat.mul_zero]
        rw [hsigned, if_pos hzero]
    rw [reduces_ok_iff hp, and_iff_right hwords, lastSubFits_iff hp hcanonical hone hmag]
    refine isReduction_takePrimeOff_iff hp oldU hcanonical hone (by omega) ?_
    rw [hmagnitude, ← Nat.cast_mul, Int.natCast_modEq_iff, hmag, montgomeryR_eq, Nat.mul_comm]
    exact hcongr
  · refine iff_of_false ?_ fun h => hwords h.1
    cases hrun : montLoop p.pIntegerArray loopCount (a.pIntegerArray ++ zeros) with
    | error e => exact not_reduces_error e _ _
    | ok rs =>
      have hlen := length_montLoop (pIntegerArray_ne_nil p) hrun
      rw [hroom, hloops] at hlen
      rw [Checked.ok_bind, Checked.access_error (by omega)]
      exact not_reduces_error _ _ _

end

/-- **So it is for the prime.** -/
theorem montgomeryReduction_iff (old oldU : Option OldResult) {a : BigInteger} (hnonneg : 0 ≤ a.value)
    (hlt : a.value < wpsDhP.magnitude * montgomeryR) :
    Reduces (bigIntegerMontgomeryReduction old oldU a wpsDhP) wpsDhP.magnitude a.value ↔
      97 ≤ reductionRoom old a wpsDhP ∧ LastSubFits a wpsDhP :=
  reduces_iff suits_wpsDhP old oldU hnonneg hlt

namespace Example

/-- A zero. -/
def zeroBigInteger : BigInteger := bigIntegerZero none

/-- The prime, and 2 ^ 64 - 1 times 2 ^ 1536. -/
def primeAndMultiple : BigInteger where
  pIntegerArray := wpsDhP.pIntegerArray ++ [0xffffffff, 0xffffffff]
  integerLength := 200
  signed := 1
  pos := by decide
  arrayLength := by
    rw [List.length_append, suits_wpsDhP.length]
    rfl
  fits := by decide +kernel

/-- With 97 words it is right. -/
theorem montgomery_zero : Reduces (bigIntegerMontgomeryReduction (some ⟨97, 1⟩) none zeroBigInteger
    wpsDhP) wpsDhP.magnitude zeroBigInteger.value := by
  have hfits : LastSubFits zeroBigInteger wpsDhP := lastSubFits_of_lt suits_wpsDhP.pos
  exact (montgomeryReduction_iff (some ⟨97, 1⟩) none (a := zeroBigInteger) (by decide +kernel)
    (by decide +kernel)).mpr ⟨by decide +kernel, hfits⟩

end Example

/-- **A borrow is lost.** -/
theorem not_reduces_primeAndMultiple : ¬ (0 ≤ Example.primeAndMultiple.value →
    Example.primeAndMultiple.value < wpsDhP.magnitude * montgomeryR →
    Reduces (bigIntegerMontgomeryReduction none none Example.primeAndMultiple wpsDhP) wpsDhP.magnitude
      Example.primeAndMultiple.value) := by
  intro h
  obtain ⟨r, hr, -, honly⟩ := h (by decide +kernel) (by decide +kernel)
  have hwanted : IsReduction wpsDhP.magnitude Example.primeAndMultiple.value (2 ^ 64 - 1) := by
    constructor <;> decide +kernel
  have hrun : (bigIntegerMontgomeryReduction none none Example.primeAndMultiple wpsDhP).map
      (fun r => decide ((2 ^ 64 - 1 : Int) = r.value)) = .ok false := by
    decide +kernel
  rw [hr] at hrun
  exact of_decide_eq_false (Except.ok.inj hrun) (honly _ hwanted)

end Mt7601.Crypt
