/-
# Big integers and octet strings

`BigInteger_Bin2BI` and `BigInteger_BI2Bin`. A string that has an octet at all comes back without its
leading zeros. But until then the object keeps them in its `IntegerLength`, which is what
`BigInteger_UnsignedCompare` goes by first; and for the empty string nothing is converted, so that the
object is what it was (`binMeets_iff`).
-/
import Mt7601.Crypt.BigInteger
import Mt7601.Lib.Checked
import Mt7601.Lib.Octets

namespace Mt7601.Crypt

/-! ## 1. Numbers without leading zeros -/

/-- The string without its leading zeros; a zero has one octet. -/
def withoutLeadingZeros : List UInt8 → List UInt8
  | [] => []
  | [b] => [b]
  | a :: b :: bs => if a = 0 then withoutLeadingZeros (b :: bs) else a :: b :: bs

/-- What has this length and is this number has no leading zeros. -/
def LeadingOctet (length n : Nat) : Prop := length = 1 ∨ 256 ^ (length - 1) ≤ n

theorem beVal_withoutLeadingZeros (l : List UInt8) : beVal (withoutLeadingZeros l) = beVal l := by
  induction l with
  | nil => rfl
  | cons a l ih =>
    cases l with
    | nil => rfl
    | cons b bs =>
      rw [withoutLeadingZeros]
      split_ifs with ha
      · rw [ih, ha]
        simp [beVal]
      · rfl

theorem withoutLeadingZeros_spec {l : List UInt8} (h : l ≠ []) :
    0 < (withoutLeadingZeros l).length ∧
      LeadingOctet (withoutLeadingZeros l).length (beVal l) := by
  induction l with
  | nil => exact absurd rfl h
  | cons a l ih =>
    cases l with
    | nil => exact ⟨Nat.one_pos, .inl rfl⟩
    | cons b bs =>
      rw [withoutLeadingZeros]
      split_ifs with ha
      · have hval : beVal (a :: b :: bs) = beVal (b :: bs) := by
          rw [ha]
          simp [beVal]
        rw [hval]
        exact ih (List.cons_ne_nil _ _)
      · refine ⟨Nat.succ_pos _, .inr ?_⟩
        have hone : 1 ≤ a.toNat := by
          refine Nat.one_le_iff_ne_zero.mpr fun h0 => ha ?_
          exact UInt8.toNat_inj.mp h0
        have hmul := Nat.mul_le_mul_right (256 ^ (b :: bs).length) hone
        rw [Nat.one_mul] at hmul
        exact hmul.trans (Nat.le_add_right _ _)

/-- The number determines the length. -/
theorem LeadingOctet.length_le {m n v : Nat} (hm : LeadingOctet m v) (hn : 0 < n)
    (hv : v < 256 ^ n) : m ≤ n := by
  rcases hm with rfl | hm
  · exact hn
  · have hpow : 256 ^ (m - 1) < 256 ^ n := hm.trans_lt hv
    have hlt := (Nat.pow_lt_pow_iff_right (by decide)).mp hpow
    omega

/-- **And so the string.** -/
theorem eq_withoutLeadingZeros {l out : List UInt8} (hl : l ≠ []) (hpos : 0 < out.length)
    (hval : beVal out = beVal l) (hlead : LeadingOctet out.length (beVal l)) :
    out = withoutLeadingZeros l := by
  obtain ⟨hpos', hlead'⟩ := withoutLeadingZeros_spec hl
  have hout := beVal_lt out
  have hwithout := beVal_lt (withoutLeadingZeros l)
  rw [beVal_withoutLeadingZeros] at hwithout
  rw [hval] at hout
  refine beVal_injective ?_ (hval.trans (beVal_withoutLeadingZeros l).symm)
  exact Nat.le_antisymm (hlead.length_le hpos' hwithout) (hlead'.length_le hpos hout)

/-! ## 2. The functions -/

/-- A `BIG_INTEGER`, with `IntegerLength` zero before it has an array; of the array, the words it has
room for are kept beside its number. -/
inductive BigIntegerObject
  | noArray
  | number (allocWords : Nat) (n : BigInteger)

/-- What `BigInteger_AllocSize` sees of it. -/
def BigIntegerObject.oldResult : BigIntegerObject → OldResult
  | .noArray => ⟨0, 1⟩
  | .number allocWords n => ⟨allocWords, n.signed⟩

/-- The room behind `BigInteger_AllocSize`. -/
def allocWordsBehind (pBI : Option BigIntegerObject) (arrayLength : Nat) : Nat :=
  match pBI with
  | some (.number allocWords _) => max allocWords arrayLength
  | _ => arrayLength

/-- The loop of `BigInteger_Bin2BI`; the words that are in the array, the last of them in front. -/
def bin2biWords : List UInt8 → UInt32 → Nat → List UInt32 → List UInt32
  | [], _, _, array => array
  | v :: pValue, number, shiftIndex, array =>
    let number := number <<< 8 ||| v.toUInt32
    if shiftIndex - 1 = 0 then bin2biWords pValue 0 4 (number :: array)
    else bin2biWords pValue number (shiftIndex - 1) array

/-- The octets in the highest word. -/
def firstShiftIndex (length : Nat) : Nat := if length % 4 = 0 then 4 else length % 4

/-- The loop of `BigInteger_BI2Bin` for `n` octets: from `Number` and then from the words below it,
the highest first. In front of the array, where the last pass reads, stands the word `front`. -/
def bi2binOctets (front : UInt32) : Nat → UInt32 → Nat → List UInt32 → List UInt8
  | 0, _, _, _ => []
  | n + 1, number, shiftIndex, below =>
    UInt8.ofNat (uint32GetByte number (shiftIndex - 1)) ::
      if shiftIndex - 1 = 0 then bi2binOctets front n (below.headD front) 4 below.tail
      else bi2binOctets front n number (shiftIndex - 1) below

/-! ## 3. The loops -/

theorem toNat_shiftLeft_or {number : UInt32} (h : number.toNat < 256 ^ 3) (v : UInt8) :
    (number <<< 8 ||| v.toUInt32).toNat = number.toNat * 256 + v.toNat := by
  have hv : v.toNat < 2 ^ 8 := v.toNat_lt
  have hshift : number.toNat <<< 8 = number.toNat * 256 := Nat.shiftLeft_eq _ _
  have hor := Nat.shiftLeft_add_eq_or_of_lt hv number.toNat
  have hmod : number.toNat <<< 8 % 2 ^ 32 = number.toNat <<< 8 := by
    rw [hshift]
    omega
  rw [UInt32.toNat_or, UInt32.toNat_shiftLeft, UInt8.toNat_toUInt32,
    show (8 : UInt32).toNat % 32 = 8 from rfl, hmod, ← hor, hshift]

/-- **The words of a string**, behind those that are in the array and the octets in `Number`. -/
theorem bin2biWords_spec (pValue : List UInt8) {number : UInt32} {shiftIndex : Nat}
    (array : List UInt32) (hpos : 0 < shiftIndex) (hle : shiftIndex ≤ 4)
    (hmod : pValue.length % 4 = shiftIndex % 4) (hnumber : number.toNat < 256 ^ (4 - shiftIndex)) :
    (bin2biWords pValue number shiftIndex array).length = array.length + (pValue.length + 3) / 4 ∧
      wordsValue (bin2biWords pValue number shiftIndex array) =
        (wordsValue array * 256 ^ (4 - shiftIndex) + number.toNat) * 256 ^ pValue.length +
          beVal pValue := by
  induction pValue generalizing number shiftIndex array with
  | nil =>
    rw [List.length_nil] at hmod
    obtain rfl : shiftIndex = 4 := by omega
    have hzero : number.toNat = 0 := Nat.lt_one_iff.mp hnumber
    rw [bin2biWords, hzero]
    simp [beVal]
  | cons v pValue ih =>
    rw [List.length_cons] at hmod
    have hthree : number.toNat < 256 ^ 3 :=
      hnumber.trans_le (Nat.pow_le_pow_right (by decide) (by omega))
    have hnext := toNat_shiftLeft_or hthree v
    have hv : v.toNat < 256 := v.toNat_lt
    rw [bin2biWords, beVal, List.length_cons]
    generalize number <<< 8 ||| v.toUInt32 = next at *
    split_ifs with hone
    · obtain rfl : shiftIndex = 1 := by omega
      obtain ⟨hlen, hvalue⟩ := @ih 0 4 (next :: array) (by decide) (by decide) (by omega) (by decide)
      rw [hlen, hvalue, wordsValue_cons, hnext, List.length_cons, Nat.pow_succ]
      refine ⟨by omega, ?_⟩
      rw [show wordBase = 256 ^ 3 * 256 from rfl]
      simp only [UInt32.toNat_zero, Nat.sub_self, pow_zero]
      ring
    · have hbound : next.toNat < 256 ^ (4 - (shiftIndex - 1)) := by
        rw [show 4 - (shiftIndex - 1) = 4 - shiftIndex + 1 by omega, Nat.pow_succ, hnext]
        omega
      obtain ⟨hlen, hvalue⟩ := ih array (by omega) (by omega) (by omega) hbound
      rw [hlen, hvalue, hnext, show 4 - (shiftIndex - 1) = 4 - shiftIndex + 1 by omega,
        Nat.pow_succ, Nat.pow_succ]
      refine ⟨by omega, ?_⟩
      ring

theorem firstShiftIndex_spec (length : Nat) :
    0 < firstShiftIndex length ∧ firstShiftIndex length ≤ 4 ∧
      length % 4 = firstShiftIndex length % 4 := by
  rw [firstShiftIndex]
  split_ifs <;> omega

/-- **All of them.** -/
theorem bin2biWords_all (pValue : List UInt8) :
    (bin2biWords pValue 0 (firstShiftIndex pValue.length) []).length =
        arrayLengthOf pValue.length ∧
      wordsValue (bin2biWords pValue 0 (firstShiftIndex pValue.length) []) = beVal pValue := by
  obtain ⟨hpos, hle, hmod⟩ := firstShiftIndex_spec pValue.length
  have hzero : (0 : UInt32).toNat < 256 ^ (4 - firstShiftIndex pValue.length) :=
    Nat.pow_pos (by decide)
  obtain ⟨hlen, hvalue⟩ := bin2biWords_spec pValue [] hpos hle hmod hzero
  rw [hlen, hvalue, wordsValue_nil, arrayLengthOf]
  refine ⟨?_, by simp⟩
  rw [List.length_nil]
  split_ifs <;> omega

/-- **The octets of a word and of those below it.** -/
theorem bi2binOctets_spec (front : UInt32) {n : Nat} {number : UInt32} {shiftIndex : Nat}
    {below : List UInt32} (hpos : 0 < shiftIndex) (hn : n = shiftIndex + 4 * below.length) :
    (bi2binOctets front n number shiftIndex below).length = n ∧
      beVal (bi2binOctets front n number shiftIndex below) =
        number.toNat % 256 ^ shiftIndex * 256 ^ (4 * below.length) + wordsValue below.reverse := by
  induction n generalizing number shiftIndex below with
  | zero => omega
  | succ n ih =>
    have hbyte : (UInt8.ofNat (uint32GetByte number (shiftIndex - 1))).toNat =
        number.toNat / 256 ^ (shiftIndex - 1) % 256 := by
      rw [uint32GetByte, UInt8.toNat_ofNat']
      exact Nat.mod_mod _ _
    rw [bi2binOctets, List.length_cons, beVal, hbyte]
    rcases Nat.exists_eq_succ_of_ne_zero hpos.ne' with ⟨k, rfl⟩
    rcases k with _ | k
    · rw [if_pos rfl]
      cases below with
      | nil =>
        obtain rfl : n = 0 := by
          rw [List.length_nil] at hn
          omega
        refine ⟨rfl, ?_⟩
        simp [bi2binOctets, beVal, wordsValue_nil]
      | cons w ws =>
        rw [List.length_cons] at hn
        obtain ⟨hlen, hvalue⟩ := @ih w 4 ws (by decide) (by omega)
        have hword : w.toNat % 256 ^ 4 = w.toNat := Nat.mod_eq_of_lt w.toNat_lt
        rw [List.headD_cons, List.tail_cons, hlen, hvalue, hword, List.reverse_cons,
          wordsValue_append_singleton, List.length_reverse, wordBase_pow,
          show n = 4 * (ws.length + 1) by omega, List.length_cons]
        refine ⟨rfl, ?_⟩
        simp only [Nat.succ_eq_add_one, Nat.zero_add, Nat.sub_self, pow_zero, Nat.div_one, pow_one]
        ring
    · obtain ⟨hlen, hvalue⟩ := @ih number (k + 1) below (Nat.succ_pos k) (by omega)
      have hscale : 256 ^ n = 256 ^ (k + 1) * 256 ^ (4 * below.length) := by
        rw [← pow_add]
        congr 1
        omega
      have hsplit : number.toNat % 256 ^ (k + 1 + 1) =
          number.toNat % 256 ^ (k + 1) + 256 ^ (k + 1) * (number.toNat / 256 ^ (k + 1) % 256) := by
        rw [Nat.pow_succ 256 (k + 1)]
        exact Nat.mod_mul
      rw [if_neg (by omega), Nat.succ_eq_add_one, Nat.add_sub_cancel, hlen, hvalue, hscale, hsplit]
      refine ⟨rfl, ?_⟩
      generalize 256 ^ (k + 1) = scale
      ring

/-! ## 4. The conversions -/

/-- `BigInteger_Bin2BI` behind a `BigInteger_AllocSize` for which `length` is no positive `INT`, so
that it has made no array: there has to be an object, and if it has an array the loop is over
nothing, or runs out of it. -/
def bin2BIUnallocated (pBI : Option BigIntegerObject) (length : Nat) : Checked BigIntegerObject :=
  match pBI with
  | none => .error .outside
  | some .noArray => .ok .noArray
  | some (.number allocWords n) =>
    if length = 0 then .ok (.number allocWords n) else .error .outside

/-- `BigInteger_Bin2BI` -/
def bigIntegerBin2BI (pBI : Option BigIntegerObject) (pValue : List UInt8) :
    Checked BigIntegerObject :=
  if h : 0 < pValue.length ∧ pValue.length < 2 ^ 31 then
    .ok (.number (allocWordsBehind pBI (arrayLengthOf pValue.length))
      { pIntegerArray := bin2biWords pValue 0 (firstShiftIndex pValue.length) []
        integerLength := pValue.length
        signed := signedBehindAlloc (pBI.map BigIntegerObject.oldResult) (arrayLengthOf pValue.length)
        pos := h.1
        arrayLength := (bin2biWords_all pValue).1
        fits := (bin2biWords_all pValue).2.trans_lt (beVal_lt pValue) })
  else bin2BIUnallocated pBI pValue.length

/-- `BigInteger_BI2Bin` into `length` octets: those that `*Length` counts at the end, and the
object. -/
def bigIntegerBI2Bin (front : UInt32) (pBI : BigIntegerObject) (length : Nat) :
    List UInt8 × BigIntegerObject :=
  match pBI with
  | .noArray => ([], .noArray)
  | .number allocWords n =>
    if length < n.integerLength then ([], .number allocWords n)
    else
      let n := bigIntegerClearHighBits n.pIntegerArray n.signed
      let words := n.pIntegerArray.reverse
      (bi2binOctets front n.integerLength (words.headD 0) (firstShiftIndex n.integerLength)
        words.tail, .number allocWords n)

/-- `BigInteger_UnsignedCompare` of two objects. -/
def unsignedCompareObjects : BigIntegerObject → BigIntegerObject → Ordering
  | .noArray, .noArray => .eq
  | .noArray, .number _ _ => .lt
  | .number _ _, .noArray => .gt
  | .number _ a, .number _ b => bigIntegerUnsignedCompare a b

theorem bin2BI_eq {pValue : List UInt8} (pBI : Option BigIntegerObject)
    (h : 0 < pValue.length ∧ pValue.length < 2 ^ 31) :
    ∃ allocWords n, bigIntegerBin2BI pBI pValue = .ok (.number allocWords n) ∧
      n.integerLength = pValue.length ∧ n.magnitude = beVal pValue := by
  rw [bigIntegerBin2BI, dif_pos h]
  exact ⟨_, _, rfl, rfl, (bin2biWords_all pValue).2⟩

/-- **What `BigInteger_BI2Bin` writes**, with room for the length that the object has. -/
theorem bi2Bin_spec (front : UInt32) (allocWords : Nat) {n : BigInteger} {length : Nat}
    (hroom : n.integerLength ≤ length) :
    0 < (bigIntegerBI2Bin front (.number allocWords n) length).1.length ∧
      beVal (bigIntegerBI2Bin front (.number allocWords n) length).1 = n.magnitude ∧
      LeadingOctet (bigIntegerBI2Bin front (.number allocWords n) length).1.length n.magnitude := by
  obtain ⟨hmagnitude, hcanonical, -⟩ := clearHighBits_spec n.pIntegerArray n.signed
  have hlead : LeadingOctet (bigIntegerClearHighBits n.pIntegerArray n.signed).integerLength
      n.magnitude := by
    have hlength := hcanonical.length
    rwa [hmagnitude] at hlength
  rw [bigIntegerBI2Bin]
  dsimp only
  rw [if_neg (Nat.not_lt.mpr hroom)]
  dsimp only
  set c := bigIntegerClearHighBits n.pIntegerArray n.signed with hc
  have harray := c.arrayLength
  have hcount : c.pIntegerArray.reverse ≠ [] := by
    intro hnil
    have hlen := congrArg List.length hnil
    rw [List.length_reverse, harray, arrayLengthOf] at hlen
    have hpos := c.pos
    rw [List.length_nil] at hlen
    split_ifs at hlen
    omega
  obtain ⟨w, ws, hwords⟩ := List.exists_cons_of_ne_nil hcount
  have hlen := congrArg List.length hwords
  rw [List.length_reverse, harray, List.length_cons, arrayLengthOf] at hlen
  obtain ⟨hspos, hsle, hsmod⟩ := firstShiftIndex_spec c.integerLength
  have hpos := c.pos
  have hsize : c.integerLength = firstShiftIndex c.integerLength + 4 * ws.length := by
    split_ifs at hlen <;> omega
  have hvalue : wordsValue c.pIntegerArray = wordsValue ws.reverse + 256 ^ (4 * ws.length) * w.toNat := by
    rw [← List.reverse_reverse c.pIntegerArray, hwords, List.reverse_cons,
      wordsValue_append_singleton, List.length_reverse, wordBase_pow]
  have hfits := c.fits
  rw [hvalue, hsize, pow_add] at hfits
  have hword : w.toNat % 256 ^ firstShiftIndex c.integerLength = w.toNat := by
    refine Nat.mod_eq_of_lt ?_
    by_contra hge
    have hmul := Nat.mul_le_mul_left (256 ^ (4 * ws.length)) (Nat.le_of_not_lt hge)
    rw [Nat.mul_comm] at hmul
    omega
  obtain ⟨holen, hoval⟩ := @bi2binOctets_spec front c.integerLength w
    (firstShiftIndex c.integerLength) ws hspos hsize
  rw [hwords, List.headD_cons, List.tail_cons, holen, hoval, hword]
  refine ⟨hpos, ?_, hlead⟩
  have hsame : n.magnitude = wordsValue c.pIntegerArray := hmagnitude.symm
  rw [hsame, hvalue, Nat.mul_comm, Nat.add_comm]

/-! ## 5. When they are right -/

/-- There and back comes the string without its leading zeros, wherever it has room as it is. -/
def BinRoundTrips (pBI : Option BigIntegerObject) (s : List UInt8) : Prop :=
  ∃ o, bigIntegerBin2BI pBI s = .ok o ∧ ∀ front length, s.length ≤ length →
    (bigIntegerBI2Bin front o length).1 = withoutLeadingZeros s

/-- The two objects are ordered as the numbers of their strings. -/
def BinCompares (pBI pBI' : Option BigIntegerObject) (s t : List UInt8) : Prop :=
  ∃ o o', bigIntegerBin2BI pBI s = .ok o ∧ bigIntegerBin2BI pBI' t = .ok o' ∧
    unsignedCompareObjects o o' = compare (beVal s) (beVal t)

/-- The string is converted: its length is an `INT`, and for none there is an object without an
array. -/
def Converts (pBI : Option BigIntegerObject) (s : List UInt8) : Prop :=
  s.length < 2 ^ 31 ∧ (s = [] → pBI = some .noArray)

/-- `IntegerLength` -/
def BigIntegerObject.integerLength : BigIntegerObject → Nat
  | .noArray => 0
  | .number _ n => n.integerLength

def BigIntegerObject.magnitude : BigIntegerObject → Nat
  | .noArray => 0
  | .number _ n => n.magnitude

/-- What a string that is converted is converted to. -/
theorem Converts.runs {pBI : Option BigIntegerObject} {s : List UInt8} (h : Converts pBI s) :
    ∃ o, bigIntegerBin2BI pBI s = .ok o ∧ o.integerLength = s.length ∧ o.magnitude = beVal s := by
  rcases s with _ | ⟨b, bs⟩
  · rw [h.2 rfl]
    exact ⟨.noArray, rfl, rfl, rfl⟩
  · obtain ⟨allocWords, n, hrun, hlen, hvalue⟩ := @bin2BI_eq (b :: bs) pBI ⟨Nat.succ_pos _, h.1⟩
    exact ⟨_, hrun, hlen, hvalue⟩

/-- The comparison is right if the object with the larger `IntegerLength` is the larger number. -/
theorem unsignedCompareObjects_iff (o o' : BigIntegerObject) :
    unsignedCompareObjects o o' = compare o.magnitude o'.magnitude ↔
      (o.integerLength < o'.integerLength → o.magnitude < o'.magnitude) ∧
        (o'.integerLength < o.integerLength → o'.magnitude < o.magnitude) := by
  rcases o with _ | ⟨allocWords, a⟩
  · rcases o' with _ | ⟨allocWords', b⟩
    · exact iff_of_true rfl ⟨id, id⟩
    · have hpos : (BigIntegerObject.noArray).integerLength <
          (BigIntegerObject.number allocWords' b).integerLength := b.pos
      rw [unsignedCompareObjects, eq_comm, compare_lt_iff_lt]
      exact ⟨fun h => ⟨fun _ => h, fun hgt => absurd hpos (Nat.lt_asymm hgt)⟩, fun h => h.1 hpos⟩
  · rcases o' with _ | ⟨allocWords', b⟩
    · have hpos : (BigIntegerObject.noArray).integerLength <
          (BigIntegerObject.number allocWords a).integerLength := a.pos
      rw [unsignedCompareObjects, eq_comm, compare_gt_iff_gt]
      exact ⟨fun h => ⟨fun hlt => absurd hpos (Nat.lt_asymm hlt), fun _ => h⟩, fun h => h.2 hpos⟩
    · rw [unsignedCompareObjects, BigIntegerObject.magnitude, BigIntegerObject.magnitude,
        BigIntegerObject.integerLength, BigIntegerObject.integerLength]
      rcases unsignedCompare_cases (a := a) (b := b) with ⟨hc, hlt⟩ | ⟨hc, hlt⟩ | ⟨heq, hc⟩
      · rw [hc, eq_comm, compare_gt_iff_gt]
        exact ⟨fun h => ⟨fun hgt => absurd hlt (Nat.lt_asymm hgt), fun _ => h⟩, fun h => h.2 hlt⟩
      · rw [hc, eq_comm, compare_lt_iff_lt]
        exact ⟨fun h => ⟨fun _ => h, fun hgt => absurd hlt (Nat.lt_asymm hgt)⟩, fun h => h.1 hlt⟩
      · rw [hc, heq]
        exact iff_of_true rfl ⟨fun h => absurd h (Nat.lt_irrefl _), fun h => absurd h (Nat.lt_irrefl _)⟩

/-- **The round trip.** -/
theorem binRoundTrips_iff (pBI : Option BigIntegerObject) (s : List UInt8) :
    BinRoundTrips pBI s ↔ Converts pBI s := by
  rcases Decidable.em (0 < s.length ∧ s.length < 2 ^ 31) with h | h
  · have hne : s ≠ [] := List.length_pos_iff.mp h.1
    refine iff_of_true ?_ ⟨h.2, fun hnil => absurd hnil hne⟩
    obtain ⟨allocWords, n, hrun, hlen, hvalue⟩ := bin2BI_eq pBI h
    refine ⟨_, hrun, fun front length hroom => ?_⟩
    obtain ⟨hpos, hval, hlead⟩ := bi2Bin_spec front allocWords (hlen.trans_le hroom)
    rw [hvalue] at hval hlead
    exact eq_withoutLeadingZeros hne hpos hval hlead
  · rw [BinRoundTrips, bigIntegerBin2BI, dif_neg h]
    constructor
    · rintro ⟨o, hrun, hback⟩
      rcases pBI with _ | _ | ⟨allocWords, n⟩
      · exact nomatch hrun
      · obtain rfl := Except.ok.inj hrun
        have hnil : withoutLeadingZeros s = [] := (hback 0 _ (Nat.le_refl _)).symm
        have hs : s = [] := by
          by_contra hne
          have hpos := (withoutLeadingZeros_spec hne).1
          rw [hnil] at hpos
          exact absurd hpos (Nat.lt_irrefl 0)
        rw [hs]
        exact ⟨by decide, fun _ => rfl⟩
      · -- the object still has the number it had
        rw [bin2BIUnallocated] at hrun
        split_ifs at hrun with hzero
        have hs : s = [] := List.length_eq_zero_iff.mp hzero
        obtain rfl := Except.ok.inj hrun
        obtain ⟨hpos, -⟩ := @bi2Bin_spec 0 allocWords n n.integerLength (Nat.le_refl _)
        rw [hback 0 _ (by omega), hs] at hpos
        exact absurd hpos (Nat.lt_irrefl 0)
    · rintro ⟨hlt, hnil⟩
      have hs : s = [] := List.length_eq_zero_iff.mp (by omega)
      rw [hnil hs, hs]
      exact ⟨_, rfl, fun _ _ _ => rfl⟩

/-- **The comparison** of two strings that are converted. -/
theorem binCompares_iff {pBI pBI' : Option BigIntegerObject} {s t : List UInt8}
    (hs : Converts pBI s) (ht : Converts pBI' t) :
    BinCompares pBI pBI' s t ↔
      (s.length < t.length → beVal s < beVal t) ∧ (t.length < s.length → beVal t < beVal s) := by
  have hcompare : ∀ {o o' : BigIntegerObject}, bigIntegerBin2BI pBI s = .ok o →
      bigIntegerBin2BI pBI' t = .ok o' →
      (BinCompares pBI pBI' s t ↔ unsignedCompareObjects o o' = compare (beVal s) (beVal t)) := by
    intro o o' ho ho'
    constructor
    · rintro ⟨o₁, o₁', h, h', hc⟩
      rw [ho] at h
      rw [ho'] at h'
      obtain rfl := Except.ok.inj h
      obtain rfl := Except.ok.inj h'
      exact hc
    · intro hc
      exact ⟨_, _, ho, ho', hc⟩
  obtain ⟨o, ho, hlen, hvalue⟩ := hs.runs
  obtain ⟨o', ho', hlen', hvalue'⟩ := ht.runs
  rw [hcompare ho ho', ← hlen, ← hlen', ← hvalue, ← hvalue']
  exact unsignedCompareObjects_iff o o'

/-- **The round trip holds, and the comparison is right**, exactly where both strings are converted
and a longer one is a larger number. -/
theorem binMeets_iff (pBI pBI' : Option BigIntegerObject) (s t : List UInt8) :
    BinRoundTrips pBI s ∧ BinRoundTrips pBI' t ∧ BinCompares pBI pBI' s t ↔
      Converts pBI s ∧ Converts pBI' t ∧
        (s.length < t.length → beVal s < beVal t) ∧
          (t.length < s.length → beVal t < beVal s) := by
  rw [binRoundTrips_iff, binRoundTrips_iff]
  refine and_congr_right fun hs => and_congr_right fun ht => ?_
  exact binCompares_iff hs ht

/-- **1 with a leading zero counts as larger than 2.** -/
theorem not_binCompares_leadingZero : ¬ BinCompares none none [0, 1] [2] := by
  rintro ⟨o, o', ho, ho', hc⟩
  obtain rfl := Except.ok.inj ho
  obtain rfl := Except.ok.inj ho'
  exact absurd hc (by decide)

end Mt7601.Crypt
