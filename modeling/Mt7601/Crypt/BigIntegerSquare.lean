/-
# Squares of big integers

`BigInteger_Square` adds up the products of two different words, doubles their sum and adds the
squares of the words. The doubling finds a carry out of a word by the word getting smaller, which it
does not if the word is `0xffffffff` and there is a carry into it: the carry is lost. And an old
result with a sign has that sign still when the two sums are added, so that they are subtracted
(`bigIntegerSquare_iff`).
-/
import Mt7601.Crypt.BigIntegerMul

namespace Mt7601.Crypt

/-! ## 1. The words of a square -/

/-- The two words of the square of a word, from its halves. -/
def squareWord (w : UInt32) : UInt32 × UInt32 :=
  let hbits := (w >>> 16) &&& 0xffff
  let lbits := w &&& 0xffff
  let temp1 := hbits * lbits
  let temp2 := (temp1 &&& 0x7fff) <<< 17
  let low := lbits * lbits + temp2
  let high := hbits * hbits + ((temp1 >>> 15) &&& 0x1ffff)
  (low, if low < temp2 then high + 1 else high)

/-- Step 1: the squares. -/
def squareWords : List UInt32 → List UInt32
  | [] => []
  | w :: ws => (squareWord w).1 :: (squareWord w).2 :: squareWords ws

/-- Step 2: the first row, put into the result. -/
def firstRow (first : UInt32) : List UInt32 → List UInt32 → UInt64 → List UInt32
  | _, [], _ => []
  | [], r :: rs, carry => (if 0 < carry then (carry &&& 0xffffffff).toUInt32 else r) :: rs
  | b :: bs, _ :: rs, carry =>
    let result := b.toUInt64 * first.toUInt64 + carry
    (result &&& 0xffffffff).toUInt32 :: firstRow first bs rs (result >>> 32)

/-- Step 3: a row, added to the result. -/
def crossRow (first : UInt32) : List UInt32 → List UInt32 → UInt64 → List UInt32
  | _, [], _ => []
  | [], r :: rs, carry => (if 0 < carry then r + (carry &&& 0xffffffff).toUInt32 else r) :: rs
  | b :: bs, r :: rs, carry =>
    let result1 := r.toUInt64 + carry
    let result2 := b.toUInt64 * first.toUInt64
    let carry := result1 >>> 32
    let result1 := (result1 &&& 0xffffffff) + result2
    let carry := carry + (result1 >>> 32)
    (result1 &&& 0xffffffff).toUInt32 :: crossRow first bs rs carry

/-- The rows of step 3; each begins two words behind the one before. -/
def crossRows : List UInt32 → List UInt32 → List UInt32
  | a :: b :: as, rs =>
    match crossRow a (b :: as) rs 0 with
    | r :: r' :: rs => r :: r' :: crossRows (b :: as) rs
    | rs => rs
  | _, rs => rs

/-- Steps 2 and 3: the products of two different words. -/
def crossWords : List UInt32 → List UInt32 → List UInt32
  | a :: as, _ :: rs =>
    0 :: match firstRow a as rs 0 with
      | r :: r' :: rs => r :: r' :: crossRows as rs
      | rs => rs
  | _, rs => rs

/-- The words doubled, with the carry found by comparison, and it put behind them. -/
def doubleWords : List UInt32 → UInt32 → List UInt32
  | [], carry32 => [carry32]
  | c :: cs, carry32 =>
    let o := c <<< 1 ||| carry32
    o :: doubleWords cs (if o < c then 1 else 0)

/-- The sum of the squares of the words. -/
def wordSquares : List UInt32 → Nat
  | [] => 0
  | w :: ws => w.toNat ^ 2 + wordBase ^ 2 * wordSquares ws

/-- The sum of the products of two different words, each pair once. -/
def crossProducts : List UInt32 → Nat
  | [] => 0
  | w :: ws => wordBase * (w.toNat * wordsValue ws) + wordBase ^ 2 * crossProducts ws

/-- **A square is the squares and twice the products.** -/
theorem square_eq (ws : List UInt32) :
    wordsValue ws ^ 2 = wordSquares ws + 2 * crossProducts ws := by
  induction ws with
  | nil => rfl
  | cons w ws ih =>
    rw [wordsValue_cons, wordSquares, crossProducts]
    calc (w.toNat + wordBase * wordsValue ws) ^ 2
        = w.toNat ^ 2 + wordBase ^ 2 * wordsValue ws ^ 2 +
          2 * (wordBase * (w.toNat * wordsValue ws)) := by ring
      _ = _ := by
        rw [ih]
        ring

/-- The halves of a word. -/
theorem toNat_halves (w : UInt32) :
    ((w >>> 16) &&& 0xffff).toNat = w.toNat / 2 ^ 16 ∧ (w &&& 0xffff).toNat = w.toNat % 2 ^ 16 := by
  have hlt := w.toNat_lt
  have hmask : (0xffff : UInt32).toNat = 2 ^ 16 - 1 := rfl
  constructor
  · rw [UInt32.toNat_and, hmask, Nat.and_two_pow_sub_one_eq_mod, UInt32.toNat_shiftRight,
      show (16 : UInt32).toNat % 32 = 16 from rfl, Nat.shiftRight_eq_div_pow]
    omega
  · rw [UInt32.toNat_and, hmask, Nat.and_two_pow_sub_one_eq_mod]

/-- The products of halves fit into a word. -/
theorem toNat_mul_halves {a b : UInt32} (ha : a.toNat ≤ 2 ^ 16 - 1) (hb : b.toNat ≤ 2 ^ 16 - 1) :
    (a * b).toNat = a.toNat * b.toNat ∧ a.toNat * b.toNat < 2 ^ 32 := by
  have hlt : a.toNat * b.toNat < 2 ^ 32 := (Nat.mul_le_mul ha hb).trans_lt (by decide)
  rw [UInt32.toNat_mul]
  exact ⟨Nat.mod_eq_of_lt hlt, hlt⟩

/-- A sum wraps around exactly if it is less than what is added. -/
theorem toNat_add_of_lt {x y : UInt32} (h : x + y < y) :
    (x + y).toNat + wordBase = x.toNat + y.toNat := by
  have hx := x.toNat_lt
  have hy := y.toNat_lt
  have hbase : wordBase = 4294967296 := rfl
  rw [UInt32.lt_iff_toNat_lt] at h
  rw [UInt32.toNat_add] at h ⊢
  omega

theorem toNat_add_of_not_lt {x y : UInt32} (h : ¬ x + y < y) :
    (x + y).toNat = x.toNat + y.toNat := by
  have hx := x.toNat_lt
  have hy := y.toNat_lt
  rw [UInt32.lt_iff_toNat_lt] at h
  rw [UInt32.toNat_add] at h ⊢
  omega

theorem mul_parts (p : Nat) : p * 2 ^ 17 = p / 2 ^ 15 * wordBase + p % 2 ^ 15 * 2 ^ 17 := by
  rw [wordBase]
  omega

theorem toNat_squareWord (w : UInt32) :
    (squareWord w).1.toNat + wordBase * (squareWord w).2.toNat = w.toNat ^ 2 := by
  obtain ⟨hhigh, hlow⟩ := toNat_halves w
  have hlt := w.toNat_lt
  rw [squareWord]
  generalize (w >>> 16) &&& 0xffff = hbits at *
  generalize w &&& 0xffff = lbits at *
  have hh : hbits.toNat ≤ 2 ^ 16 - 1 := by omega
  have hl : lbits.toNat ≤ 2 ^ 16 - 1 := by omega
  have hw : w.toNat = hbits.toNat * 2 ^ 16 + lbits.toNat := by omega
  obtain ⟨htemp1, hsmall⟩ := toNat_mul_halves hh hl
  have hsquare : w.toNat ^ 2 = (hbits.toNat * hbits.toNat +
      hbits.toNat * lbits.toNat / 2 ^ 15) * wordBase +
        (lbits.toNat * lbits.toNat + hbits.toNat * lbits.toNat % 2 ^ 15 * 2 ^ 17) := by
    calc w.toNat ^ 2 = hbits.toNat * hbits.toNat * wordBase +
          hbits.toNat * lbits.toNat * 2 ^ 17 + lbits.toNat * lbits.toNat := by
          rw [hw, wordBase]
          ring
      _ = _ := by
          rw [mul_parts]
          ring
  have hmax : w.toNat ^ 2 < wordBase * wordBase := by
    calc w.toNat ^ 2 < wordBase ^ 2 := Nat.pow_lt_pow_left hlt (by decide)
      _ = wordBase * wordBase := sq _
  have hmasked : (hbits * lbits &&& 0x7fff).toNat = hbits.toNat * lbits.toNat % 2 ^ 15 := by
    have hmask : (0x7fff : UInt32).toNat = 2 ^ 15 - 1 := rfl
    rw [UInt32.toNat_and, htemp1, hmask, Nat.and_two_pow_sub_one_eq_mod]
  have htemp2 : ((hbits * lbits &&& 0x7fff) <<< 17).toNat =
      hbits.toNat * lbits.toNat % 2 ^ 15 * 2 ^ 17 := by
    have hplace : (17 : UInt32).toNat % 32 = 17 := rfl
    have hfits : hbits.toNat * lbits.toNat % 2 ^ 15 * 2 ^ 17 < 2 ^ 15 * 2 ^ 17 :=
      Nat.mul_lt_mul_of_pos_right (Nat.mod_lt _ (by decide)) (by decide)
    rw [UInt32.toNat_shiftLeft, hmasked, hplace, Nat.shiftLeft_eq]
    exact Nat.mod_eq_of_lt hfits
  have hupper : (((hbits * lbits) >>> 15) &&& 0x1ffff).toNat = hbits.toNat * lbits.toNat / 2 ^ 15 := by
    have hmask : (0x1ffff : UInt32).toNat = 2 ^ 17 - 1 := rfl
    have hplace : (15 : UInt32).toNat % 32 = 15 := rfl
    rw [UInt32.toNat_and, UInt32.toNat_shiftRight, htemp1, hmask, Nat.and_two_pow_sub_one_eq_mod,
      hplace, Nat.shiftRight_eq_div_pow]
    exact Nat.mod_eq_of_lt (Nat.div_lt_of_lt_mul hsmall)
  dsimp only
  obtain ⟨hhh, -⟩ := toNat_mul_halves hh hh
  obtain ⟨hll, -⟩ := toNat_mul_halves hl hl
  split_ifs with hcarry
  · have hsum := toNat_add_of_lt hcarry
    rw [hll, htemp2] at hsum
    have htotal : w.toNat ^ 2 = (hbits.toNat * hbits.toNat +
        hbits.toNat * lbits.toNat / 2 ^ 15 + 1) * wordBase +
          (lbits * lbits + (hbits * lbits &&& 0x7fff) <<< 17).toNat := by
      rw [hsquare, ← hsum]
      ring
    rw [htotal] at hmax
    have htop := Nat.lt_of_mul_lt_mul_right ((Nat.le_add_right _ _).trans_lt hmax)
    rw [UInt32.toNat_add (hbits * hbits + _) 1, UInt32.toNat_add (hbits * hbits), hhh, hupper,
      UInt32.toNat_one, Nat.mod_add_mod,
      Nat.mod_eq_of_lt htop, htotal]
    ring
  · have hsum := toNat_add_of_not_lt hcarry
    rw [hll, htemp2] at hsum
    rw [← hsum] at hsquare
    rw [hsquare] at hmax
    have htop := Nat.lt_of_mul_lt_mul_right ((Nat.le_add_right _ _).trans_lt hmax)
    rw [UInt32.toNat_add (hbits * hbits), hhh, hupper, Nat.mod_eq_of_lt htop, hsquare]
    ring

theorem length_squareWords (ws : List UInt32) : (squareWords ws).length = 2 * ws.length := by
  induction ws with
  | nil => rfl
  | cons w ws ih =>
    rw [squareWords, List.length_cons, List.length_cons, ih, List.length_cons]
    omega

/-- **The squares.** -/
theorem wordsValue_squareWords (ws : List UInt32) : wordsValue (squareWords ws) = wordSquares ws := by
  induction ws with
  | nil => rfl
  | cons w ws ih =>
    rw [squareWords, wordsValue_cons, wordsValue_cons, ih, wordSquares, ← toNat_squareWord]
    ring

theorem wordsValue_injective {ws ws' : List UInt32} (hlen : ws.length = ws'.length)
    (h : wordsValue ws = wordsValue ws') : ws = ws' := by
  induction ws generalizing ws' with
  | nil => exact (List.length_eq_zero_iff.mp hlen.symm).symm
  | cons w ws ih =>
    cases ws' with
    | nil => exact nomatch hlen
    | cons w' ws' =>
      have hw := w.toNat_lt
      have hw' := w'.toNat_lt
      have hbase : wordBase = 4294967296 := rfl
      rw [wordsValue_cons, wordsValue_cons, hbase] at h
      rw [List.length_cons, List.length_cons, Nat.add_right_cancel_iff] at hlen
      rw [ih hlen (by omega), UInt32.toNat_inj.mp (show w.toNat = w'.toNat by omega)]

theorem wordsValue_append_zeros (ws : List UInt32) (n : Nat) :
    wordsValue (ws ++ List.replicate n 0) = wordsValue ws := by
  induction ws with
  | nil => exact wordsValue_replicate_zero n
  | cons w ws ih => rw [List.cons_append, wordsValue_cons, wordsValue_cons, ih]

/-! ## 2. The rows of a square -/

/-- The carry into an empty word stays there. -/
theorem addCarry_zero_word (rs : List UInt32) {carry : UInt64} (hcarry : carry.toNat < wordBase) :
    addCarry (0 :: rs) carry = (carry &&& 0xffffffff).toUInt32 :: rs := by
  have hsum : (0 : UInt32).toUInt64 + carry = carry := UInt64.zero_add carry
  have hhigh : carry >>> 32 = 0 := by
    refine UInt64.toNat_inj.mp ?_
    rw [toNat_high]
    exact Nat.div_eq_of_lt hcarry
  rw [addCarry]
  split_ifs with hzero
  · rw [hzero]
    rfl
  · rw [hsum]
    dsimp only
    rw [hhigh]
    cases rs with
    | nil => rfl
    | cons r rs => rw [addCarry, if_pos rfl]

/-- **The first row**, into an empty result. -/
theorem firstRow_eq (first : UInt32) {bs rs : List UInt32} {carry : UInt64}
    (hlen : bs.length < rs.length) (hzero : ∀ r ∈ rs, r = 0) (hcarry : carry.toNat < wordBase) :
    firstRow first bs rs carry = mulRow first bs rs carry := by
  induction bs generalizing rs carry with
  | nil =>
    cases rs with
    | nil => exact absurd hlen (Nat.lt_irrefl 0)
    | cons r rs =>
      have hr : r = 0 := hzero r List.mem_cons_self
      rw [firstRow, mulRow, hr, addCarry_zero_word rs hcarry]
      split_ifs with hpos
      · rfl
      · have hnone : carry = 0 := UInt64.toNat_inj.mp (Nat.eq_zero_of_not_pos hpos)
        rw [hnone]
        rfl
  | cons b bs ih =>
    cases rs with
    | nil => exact absurd hlen (Nat.not_lt_zero _)
    | cons r rs =>
      have hr : r = 0 := hzero r List.mem_cons_self
      have hsum : b.toUInt64 * first.toUInt64 + carry =
          r.toUInt64 + b.toUInt64 * first.toUInt64 + carry := by
        rw [hr, show (0 : UInt32).toUInt64 = 0 from rfl, UInt64.zero_add]
      rw [firstRow, mulRow, hsum, ih (Nat.lt_of_succ_lt_succ hlen)
        (fun w hw => hzero w (List.mem_cons_of_mem _ hw)) (toNat_split _).2]

/-- The sum of a row in two steps. -/
theorem crossSum_eq {r a b : UInt32} {carry : UInt64} (hcarry : carry.toNat < wordBase) :
    ((((r.toUInt64 + carry) &&& 0xffffffff) + b.toUInt64 * a.toUInt64) &&& 0xffffffff).toUInt32 =
        ((r.toUInt64 + b.toUInt64 * a.toUInt64 + carry) &&& 0xffffffff).toUInt32 ∧
      ((r.toUInt64 + carry) >>> 32) +
          ((((r.toUInt64 + carry) &&& 0xffffffff) + b.toUInt64 * a.toUInt64) >>> 32) =
        (r.toUInt64 + b.toUInt64 * a.toUInt64 + carry) >>> 32 := by
  have hr := r.toNat_lt
  have htotal := @toNat_mac r a b carry hcarry
  have hlt := (r.toUInt64 + b.toUInt64 * a.toUInt64 + carry).toNat_lt
  have hfirst : (r.toUInt64 + carry).toNat = r.toNat + carry.toNat := by
    rw [UInt64.toNat_add, UInt32.toNat_toUInt64]
    omega
  have hprod := @toNat_mac 0 a b 0 (by decide)
  rw [show (0 : UInt32).toUInt64 = 0 from rfl, UInt64.zero_add, UInt64.add_zero, UInt32.toNat_zero, Nat.zero_add,
    UInt64.toNat_zero, Nat.add_zero] at hprod
  rw [htotal, Nat.add_right_comm] at hlt
  have hsecond : (((r.toUInt64 + carry) &&& 0xffffffff) + b.toUInt64 * a.toUInt64).toNat =
      (r.toNat + carry.toNat) % wordBase + b.toNat * a.toNat := by
    rw [UInt64.toNat_add, toNat_mask, hfirst, hprod]
    exact Nat.mod_eq_of_lt ((Nat.add_le_add_right (Nat.mod_le _ _) _).trans_lt hlt)
  constructor
  · refine UInt32.toNat_inj.mp ?_
    rw [toNat_low, toNat_low, hsecond, htotal, Nat.mod_add_mod, Nat.add_right_comm]
  · refine UInt64.toNat_inj.mp ?_
    have hdiv : (r.toNat + carry.toNat) / wordBase +
        ((r.toNat + carry.toNat) % wordBase + b.toNat * a.toNat) / wordBase =
          (r.toNat + carry.toNat + b.toNat * a.toNat) / wordBase := by
      rw [← Nat.mul_add_div (by decide : 0 < wordBase), ← Nat.add_assoc, Nat.div_add_mod]
    rw [UInt64.toNat_add, toNat_high, toNat_high, toNat_high, hsecond, htotal, hfirst, hdiv,
      Nat.add_right_comm]
    rw [Nat.add_right_comm] at hlt
    exact Nat.mod_eq_of_lt ((Nat.div_le_self _ _).trans_lt hlt)

/-- **A row**, into a result whose next word is empty. -/
theorem crossRow_eq (first : UInt32) {bs rs : List UInt32} {carry : UInt64}
    (hlen : bs.length < rs.length) (hzero : rs.getD bs.length 0 = 0) (hcarry : carry.toNat < wordBase) :
    crossRow first bs rs carry = mulRow first bs rs carry := by
  induction bs generalizing rs carry with
  | nil =>
    cases rs with
    | nil => exact absurd hlen (Nat.lt_irrefl 0)
    | cons r rs =>
      have hr : r = 0 := hzero
      rw [crossRow, mulRow, hr, addCarry_zero_word rs hcarry]
      split_ifs with hpos
      · rw [UInt32.zero_add]
      · have hnone : carry = 0 := UInt64.toNat_inj.mp (Nat.eq_zero_of_not_pos hpos)
        rw [hnone]
        rfl
  | cons b bs ih =>
    cases rs with
    | nil => exact absurd hlen (Nat.not_lt_zero _)
    | cons r rs =>
      obtain ⟨hlow, hhigh⟩ := @crossSum_eq r first b carry hcarry
      rw [crossRow, mulRow, hlow, hhigh, ih (Nat.lt_of_succ_lt_succ hlen) hzero (toNat_split _).2]

/-- A row leaves what is behind its carry. -/
theorem drop_mulRow (first : UInt32) {bs rs : List UInt32} {carry : UInt64}
    (hlen : bs.length < rs.length) (hzero : rs.getD bs.length 0 = 0) (hcarry : carry.toNat < wordBase) :
    (mulRow first bs rs carry).drop (bs.length + 1) = rs.drop (bs.length + 1) := by
  induction bs generalizing rs carry with
  | nil =>
    cases rs with
    | nil => exact absurd hlen (Nat.lt_irrefl 0)
    | cons r rs =>
      have hr : r = 0 := hzero
      rw [mulRow, hr, addCarry_zero_word rs hcarry]
      rfl
  | cons b bs ih =>
    cases rs with
    | nil => exact absurd hlen (Nat.not_lt_zero _)
    | cons r rs =>
      rw [mulRow, List.length_cons, List.drop_succ_cons, List.drop_succ_cons]
      exact ih (Nat.lt_of_succ_lt_succ hlen) hzero (toNat_split _).2

theorem getD_drop (ws : List UInt32) (m i : Nat) : (ws.drop m).getD i 0 = ws.getD (m + i) 0 := by
  rw [List.getD_eq_getElem?_getD, List.getD_eq_getElem?_getD, List.getElem?_drop]

theorem getD_zero_of_forall {ws : List UInt32} (h : ∀ w ∈ ws, w = 0) (i : Nat) :
    ws.getD i 0 = 0 := by
  rw [List.getD_eq_getElem?_getD]
  cases hget : ws[i]? with
  | none => rfl
  | some w => exact h w (List.mem_of_getElem? hget)

/-- Two words of a row stay, and the rows that follow work on what is behind them. -/
theorem modEq_cons_cons {r r' : UInt32} {ws xs : List UInt32} {c y n : Nat}
    (hrow : wordBase * wordsValue (r :: r' :: ws) ≡ y [MOD wordBase ^ (n + 1 + 1 + 1)])
    (hrest : wordBase * wordsValue xs ≡ wordBase * wordsValue ws + c [MOD wordBase ^ (n + 1)]) :
    wordBase * wordsValue (r :: r' :: xs) ≡ y + wordBase ^ 2 * c
      [MOD wordBase ^ (n + 1 + 1 + 1)] := by
  have hscaled := hrest.mul_left' (wordBase ^ 2)
  rw [← pow_add, show 2 + (n + 1) = n + 1 + 1 + 1 by omega] at hscaled
  have hsum := (hscaled.add_left (wordBase * (r.toNat + wordBase * r'.toNat)))
  rw [wordsValue_cons, wordsValue_cons] at hrow ⊢
  rw [show wordBase * (r.toNat + wordBase * r'.toNat) + wordBase ^ 2 *
      (wordBase * wordsValue ws + c) =
        wordBase * (r.toNat + wordBase * (r'.toNat + wordBase * wordsValue ws)) +
          wordBase ^ 2 * c by ring] at hsum
  rw [show wordBase * (r.toNat + wordBase * (r'.toNat + wordBase * wordsValue xs)) =
    wordBase * (r.toNat + wordBase * r'.toNat) + wordBase ^ 2 * (wordBase * wordsValue xs) by ring]
  exact hsum.trans (hrow.add_right _)

/-- **The rows behind one another.** -/
theorem crossRows_spec {as rs : List UInt32} (hlen : 2 * as.length ≤ rs.length + 1)
    (hzero : ∀ r ∈ rs.drop (as.length - 1), r = 0) :
    (crossRows as rs).length = rs.length ∧
      wordBase * wordsValue (crossRows as rs) ≡ wordBase * wordsValue rs + crossProducts as
        [MOD wordBase ^ (rs.length + 1)] := by
  induction as generalizing rs with
  | nil => exact ⟨rfl, Nat.ModEq.refl _⟩
  | cons a as ih =>
    cases as with
    | nil =>
      have hnone : crossProducts [a] = 0 := by
        rw [crossProducts, crossProducts, wordsValue_nil]
        ring
      rw [show crossRows [a] rs = rs from rfl, hnone]
      exact ⟨rfl, Nat.ModEq.refl _⟩
    | cons b as =>
      rw [List.length_cons] at hlen
      set m := (b :: as).length with hm
      have hmpos : 0 < m := Nat.succ_pos _
      have hat : rs.getD m 0 = 0 := by
        rw [← Nat.add_zero m, ← getD_drop]
        exact getD_zero_of_forall hzero 0
      have hrow : crossRow a (b :: as) rs 0 = mulRow a (b :: as) rs 0 :=
        crossRow_eq a (by omega) hat (by decide)
      have hdrop := drop_mulRow a (show (b :: as).length < rs.length by omega) hat
        (show (0 : UInt64).toNat < wordBase by decide)
      have hvalue := wordsValue_mulRow a (show (b :: as).length ≤ rs.length by omega)
        (show (0 : UInt64).toNat < wordBase by decide)
      have hsize := length_mulRow a 0 (show (b :: as).length ≤ rs.length by omega)
      rw [crossRows, hrow]
      generalize mulRow a (b :: as) rs 0 = row at *
      rcases row with _ | ⟨r, _ | ⟨r', row⟩⟩
      · rw [List.length_nil] at hsize
        omega
      · rw [List.length_singleton] at hsize
        omega
      · rw [List.length_cons, List.length_cons] at hsize
        rw [List.drop_succ_cons] at hdrop
        have hbehind : ∀ w ∈ row.drop (m - 1), w = 0 := by
          intro w hw
          refine hzero w ?_
          have hstep : (r' :: row).drop m = row.drop (m - 1) := by
            obtain ⟨k, hk⟩ := Nat.exists_eq_succ_of_ne_zero hmpos.ne'
            rw [hk, List.drop_succ_cons, Nat.succ_sub_one]
          rw [← hstep, hdrop, ← List.drop_drop] at hw
          exact List.mem_of_mem_drop hw
        obtain ⟨hlen', hrest⟩ := @ih row (by omega) hbehind
        dsimp only
        rw [List.length_cons, List.length_cons, hlen']
        refine ⟨hsize, ?_⟩
        have hrowScaled := hvalue.mul_left' wordBase
        rw [← pow_succ', UInt64.toNat_zero, Nat.add_zero] at hrowScaled
        rw [← hsize] at hrowScaled ⊢
        have hall := modEq_cons_cons hrowScaled hrest
        rw [crossProducts, show wordBase * wordsValue rs + (wordBase * (a.toNat *
          wordsValue (b :: as)) + wordBase ^ 2 * crossProducts (b :: as)) =
            wordBase * (wordsValue rs + a.toNat * wordsValue (b :: as)) +
              wordBase ^ 2 * crossProducts (b :: as) by ring]
        exact hall

/-- **Twice the rows: the products of two different words.** -/
theorem crossWords_spec {as : List UInt32} {n : Nat} (hne : as ≠ []) (hn : 2 * as.length ≤ n) :
    (crossWords as (List.replicate n 0)).length = n ∧
      wordsValue (crossWords as (List.replicate n 0)) ≡ crossProducts as [MOD wordBase ^ n] := by
  obtain ⟨a, as, rfl⟩ := List.exists_cons_of_ne_nil hne
  rw [List.length_cons] at hn
  obtain ⟨k, rfl⟩ := Nat.exists_eq_succ_of_ne_zero (show n ≠ 0 by omega)
  have hempty : ∀ r ∈ List.replicate k (0 : UInt32), r = 0 := fun r hr => List.eq_of_mem_replicate hr
  have hlen : (List.replicate k (0 : UInt32)).length = k := List.length_replicate
  have hrow : firstRow a as (List.replicate k 0) 0 = mulRow a as (List.replicate k 0) 0 :=
    firstRow_eq a (by omega) hempty (by decide)
  have hdrop := drop_mulRow a (show as.length < (List.replicate k (0 : UInt32)).length by omega)
    (getD_zero_of_forall hempty _) (show (0 : UInt64).toNat < wordBase by decide)
  have hvalue := wordsValue_mulRow a (show as.length ≤ (List.replicate k (0 : UInt32)).length by omega)
    (show (0 : UInt64).toNat < wordBase by decide)
  have hsize := length_mulRow a 0 (show as.length ≤ (List.replicate k (0 : UInt32)).length by omega)
  have hscaled := hvalue.mul_left' wordBase
  rw [hlen, ← pow_succ', UInt64.toNat_zero, Nat.add_zero, wordsValue_replicate_zero,
    Nat.zero_add] at hscaled
  rw [hlen] at hsize
  rw [List.replicate_succ, crossWords, hrow, crossProducts]
  generalize mulRow a as (List.replicate k 0) 0 = row at *
  rcases row with _ | ⟨r, _ | ⟨r', row⟩⟩
  · rw [List.length_nil] at hsize
    omega
  · rw [List.length_singleton] at hsize
    obtain rfl : as = [] := List.length_eq_zero_iff.mp (by omega)
    dsimp only
    rw [← hsize] at hscaled ⊢
    refine ⟨rfl, ?_⟩
    rw [wordsValue_cons, UInt32.toNat_zero, Nat.zero_add, crossProducts, Nat.mul_zero, Nat.add_zero]
    exact hscaled
  · rw [List.length_cons, List.length_cons] at hsize
    rw [List.drop_succ_cons] at hdrop
    have hbehind : ∀ w ∈ row.drop (as.length - 1), w = 0 := by
      intro w hw
      refine hempty w ?_
      have hcut : w ∈ (r' :: row).drop as.length := by
        rcases Nat.eq_zero_or_pos as.length with hzero | hpos
        · rw [hzero] at hw ⊢
          exact List.mem_cons_of_mem _ hw
        · obtain ⟨j, hj⟩ := Nat.exists_eq_succ_of_ne_zero hpos.ne'
          rw [hj, Nat.succ_sub_one] at hw
          rw [hj, List.drop_succ_cons]
          exact hw
      rw [hdrop] at hcut
      exact List.mem_of_mem_drop hcut
    obtain ⟨hlen', hrest⟩ := crossRows_spec (show 2 * as.length ≤ row.length + 1 by omega) hbehind
    dsimp only
    rw [← hsize] at hscaled ⊢
    rw [List.length_cons, List.length_cons, List.length_cons, hlen', wordsValue_cons,
      UInt32.toNat_zero, Nat.zero_add]
    exact ⟨rfl, modEq_cons_cons hscaled hrest⟩

/-! ## 3. Doubling -/

/-- Word `i` of a number. -/
def numberWord (n i : Nat) : Nat := n / wordBase ^ i % wordBase

theorem numberWord_zero (n : Nat) : numberWord n 0 = n % wordBase := by
  rw [numberWord, pow_zero, Nat.div_one]

theorem numberWord_succ {w n : Nat} (hw : w < wordBase) (i : Nat) :
    numberWord (w + wordBase * n) (i + 1) = numberWord n i := by
  have hdiv : (w + wordBase * n) / wordBase = n := by
    rw [Nat.add_mul_div_left _ _ (by decide), Nat.div_eq_of_lt hw, Nat.zero_add]
  rw [numberWord, numberWord, pow_succ', ← Nat.div_div_eq_div_mul, hdiv]

/-- The number is doubled word by word: no word `0xffffffff` has a carry into it. -/
def DoublesWell (n : Nat) : Prop :=
  ∀ i, 2 ^ 31 ≤ numberWord n i → numberWord n (i + 1) ≠ 2 ^ 32 - 1

/-- The same with a carry into the lowest word. -/
def DoublesWellFrom (carry n : Nat) : Prop :=
  (carry = 1 → numberWord n 0 ≠ 2 ^ 32 - 1) ∧ DoublesWell n

theorem doublesWellFrom_cons {carry w n : Nat} (hw : w < wordBase) :
    DoublesWellFrom carry (w + wordBase * n) ↔
      ¬ (carry = 1 ∧ w = 2 ^ 32 - 1) ∧ DoublesWellFrom (if 2 ^ 31 ≤ w then 1 else 0) n := by
  have hzero : numberWord (w + wordBase * n) 0 = w := by
    rw [numberWord_zero, Nat.add_mul_mod_self_left, Nat.mod_eq_of_lt hw]
  rw [DoublesWellFrom, DoublesWellFrom, hzero]
  constructor
  · rintro ⟨hcarry, hwell⟩
    refine ⟨fun h => hcarry h.1 h.2, fun hone => ?_, fun i hi => ?_⟩
    · have hfirst := hwell 0
      rw [hzero, numberWord_succ hw] at hfirst
      refine hfirst ?_
      by_contra hlt
      rw [if_neg hlt] at hone
      exact absurd hone (by decide)
    · have hnext := hwell (i + 1)
      rw [numberWord_succ hw, numberWord_succ hw] at hnext
      exact hnext hi
  · rintro ⟨hcarry, hone, hwell⟩
    refine ⟨fun h hmax => hcarry ⟨h, hmax⟩, fun i hi => ?_⟩
    rw [numberWord_succ hw]
    cases i with
    | zero =>
      rw [hzero] at hi
      exact hone (if_pos hi)
    | succ i =>
      rw [numberWord_succ hw] at hi
      exact hwell i hi

/-- A word doubled. -/
theorem toNat_doubled (c : UInt32) {carry32 : UInt32} (hcarry : carry32.toNat ≤ 1) :
    (c <<< 1 ||| carry32).toNat = (2 * c.toNat + carry32.toNat) % wordBase := by
  have hc := c.toNat_lt
  have hshift : c.toNat <<< 1 % 2 ^ 32 = (c.toNat % 2 ^ 31) <<< 1 := by
    rw [Nat.shiftLeft_eq, Nat.shiftLeft_eq]
    omega
  have hor := Nat.shiftLeft_add_eq_or_of_lt (show carry32.toNat < 2 ^ 1 by omega) (c.toNat % 2 ^ 31)
  have hbase : wordBase = 4294967296 := rfl
  rw [UInt32.toNat_or, UInt32.toNat_shiftLeft, show (1 : UInt32).toNat % 32 = 1 from rfl, hshift,
    ← hor, Nat.shiftLeft_eq, hbase]
  omega

/-- The carry that is found: there is one, and the word does get smaller. -/
theorem doubled_lt_iff (c : UInt32) {carry32 : UInt32} (hcarry : carry32.toNat ≤ 1) :
    c <<< 1 ||| carry32 < c ↔
      2 ^ 31 ≤ c.toNat ∧ ¬ (carry32.toNat = 1 ∧ c.toNat = 2 ^ 32 - 1) := by
  have hc := c.toNat_lt
  have hbase : wordBase = 4294967296 := rfl
  rw [UInt32.lt_iff_toNat_lt, toNat_doubled c hcarry, hbase]
  omega

/-- **Twice the number, or less**: then it is right up to a word `0xffffffff`. -/
theorem doubleWords_spec (cs : List UInt32) {carry32 : UInt32} (hcarry : carry32.toNat ≤ 1) :
    wordsValue (doubleWords cs carry32) ≤ 2 * wordsValue cs + carry32.toNat ∧
      (wordsValue (doubleWords cs carry32) = 2 * wordsValue cs + carry32.toNat ∨
        ∃ j, wordsValue (doubleWords cs carry32) ≡ 2 * wordsValue cs + carry32.toNat
          [MOD wordBase ^ (j + 1)] ∧ numberWord (wordsValue (doubleWords cs carry32)) j = 2 ^ 32 - 1) ∧
      (wordsValue (doubleWords cs carry32) = 2 * wordsValue cs + carry32.toNat ↔
        DoublesWellFrom carry32.toNat (wordsValue cs)) := by
  induction cs generalizing carry32 with
  | nil =>
    have hvalue : wordsValue (doubleWords [] carry32) = 2 * wordsValue [] + carry32.toNat := by
      rw [doubleWords, wordsValue_cons, wordsValue_nil]
      ring
    refine ⟨hvalue.le, .inl hvalue, iff_of_true hvalue ⟨fun _ => ?_, fun i _ => ?_⟩⟩
    · rw [wordsValue_nil, numberWord, Nat.zero_div, Nat.zero_mod]
      decide
    · rw [wordsValue_nil, numberWord, Nat.zero_div, Nat.zero_mod]
      decide
  | cons c cs ih =>
    have hc := c.toNat_lt
    have hbase : wordBase = 4294967296 := rfl
    have hword := toNat_doubled c hcarry
    have hless := doubled_lt_iff c hcarry
    rw [doubleWords, wordsValue_cons, wordsValue_cons, doublesWellFrom_cons hc]
    generalize hnext : (if c <<< 1 ||| carry32 < c then (1 : UInt32) else 0) = next
    have hnextLe : next.toNat ≤ 1 := by
      rw [← hnext]
      split_ifs <;> decide
    obtain ⟨hle, hor, hiff⟩ := ih hnextLe
    generalize c <<< 1 ||| carry32 = o at *
    generalize wordsValue (doubleWords cs next) = d at *
    generalize wordsValue cs = v at *
    rcases Decidable.em (carry32.toNat = 1 ∧ c.toNat = 2 ^ 32 - 1) with hlost | hkept
    · -- the carry out of the word is lost
      have hzero : next = 0 := by
        rw [← hnext, if_neg]
        exact fun h => (hless.mp h).2 hlost
      have hmax : o.toNat = 2 ^ 32 - 1 := by
        rw [hword, hbase]
        omega
      rw [hzero, UInt32.toNat_zero] at hle
      have hstrict : o.toNat + wordBase * d < 2 * (c.toNat + wordBase * v) + carry32.toNat := by
        rw [hmax, hbase, hlost.1, hlost.2]
        omega
      refine ⟨hstrict.le, .inr ⟨0, ?_, ?_⟩, iff_of_false hstrict.ne fun h => h.1 hlost⟩
      · rw [zero_add, pow_one, Nat.ModEq, Nat.add_mul_mod_self_left, hword,
          show 2 * (c.toNat + wordBase * v) + carry32.toNat =
            2 * c.toNat + carry32.toNat + wordBase * (2 * v) by ring, Nat.add_mul_mod_self_left,
          Nat.mod_mod]
      · rw [numberWord_zero, Nat.add_mul_mod_self_left, hmax]
        exact Nat.mod_eq_of_lt (by decide)
    · have hcarried : next.toNat = if 2 ^ 31 ≤ c.toNat then 1 else 0 := by
        rw [← hnext]
        split_ifs with hlt hhalf hhalf
        · rfl
        · exact absurd (hless.mp hlt).1 hhalf
        · exact absurd (hless.mpr ⟨hhalf, hkept⟩) hlt
        · rfl
      have hsplit : o.toNat + wordBase * next.toNat = 2 * c.toNat + carry32.toNat := by
        rw [hword, hcarried, hbase]
        split_ifs <;> omega
      have htwice : 2 * (c.toNat + wordBase * v) + carry32.toNat =
          o.toNat + wordBase * (2 * v + next.toNat) := by
        rw [show 2 * (c.toNat + wordBase * v) + carry32.toNat =
          2 * c.toNat + carry32.toNat + wordBase * (2 * v) by ring, ← hsplit]
        ring
      rw [← hcarried, and_iff_right hkept, ← hiff, htwice]
      refine ⟨?_, ?_, ?_⟩
      · exact Nat.add_le_add_left (Nat.mul_le_mul_left _ hle) _
      · rcases hor with heq | ⟨j, hmod, hat⟩
        · exact .inl (by rw [heq])
        · refine .inr ⟨j + 1, ?_, ?_⟩
          · rw [pow_succ']
            exact (hmod.mul_left' wordBase).add_left _
          · rw [numberWord_succ o.toNat_lt]
            exact hat
      · constructor
        · intro h
          have hmul := Nat.add_left_cancel h
          exact Nat.eq_of_mul_eq_mul_left (by decide) hmul
        · intro h
          rw [h]

/-! ## 4. A difference for a sum -/

/-- `bs` is `T`, or is `T` as far as a word `0xffffffff`. -/
def AgreesUpTo (n T : Nat) : Prop :=
  n = T ∨ ∃ j, n ≡ T [MOD wordBase ^ (j + 1)] ∧ numberWord n j = 2 ^ 32 - 1

/-- Behind a word zero they agree as well. -/
theorem AgreesUpTo.tail {n T : Nat} (h : AgreesUpTo (wordBase * n) T) :
    ∃ T', T = wordBase * T' ∧ AgreesUpTo n T' := by
  rcases h with rfl | ⟨j, hmod, hat⟩
  · exact ⟨n, rfl, .inl rfl⟩
  · have hdvd : wordBase ∣ T := by
      have hlow := hmod.of_dvd (Dvd.intro_left (wordBase ^ j) (pow_succ _ _).symm)
      exact (Nat.modEq_zero_iff_dvd.mp (hlow.symm.trans (Nat.modEq_zero_iff_dvd.mpr ⟨n, rfl⟩)))
    obtain ⟨T', rfl⟩ := hdvd
    have hzero := numberWord_succ (w := 0) (n := n) (by decide)
    rw [Nat.zero_add] at hzero
    cases j with
    | zero =>
      rw [numberWord_zero, Nat.mul_mod_right] at hat
      exact absurd hat (by decide)
    | succ j =>
      rw [hzero] at hat
      rw [pow_succ'] at hmod
      exact ⟨T', rfl, .inr ⟨j, Nat.ModEq.mul_left_cancel' (by decide) hmod, hat⟩⟩

/-- They agree in the lowest word; and in the next one, if the lowest is another. -/
theorem AgreesUpTo.head {w n T : Nat} (hw : w < wordBase) (h : AgreesUpTo (w + wordBase * n) T) :
    ∃ T', T = w + wordBase * T' ∧ (w ≠ 2 ^ 32 - 1 → n ≡ T' [MOD wordBase]) := by
  rcases h with rfl | ⟨j, hmod, hat⟩
  · exact ⟨n, rfl, fun _ => Nat.ModEq.refl n⟩
  · have hlow := hmod.of_dvd (Dvd.intro_left (wordBase ^ j) (pow_succ _ _).symm)
    have hT : T = w + wordBase * (T / wordBase) := by
      have hmodT : T % wordBase = w := by
        rw [← hlow, Nat.add_mul_mod_self_left, Nat.mod_eq_of_lt hw]
      have hdiv := Nat.mod_add_div T wordBase
      rw [hmodT] at hdiv
      exact hdiv.symm
    refine ⟨T / wordBase, hT, fun hne => ?_⟩
    cases j with
    | zero =>
      rw [numberWord_zero, Nat.add_mul_mod_self_left, Nat.mod_eq_of_lt hw] at hat
      exact absurd hat hne
    | succ j =>
      rw [hT, pow_succ'] at hmod
      have hrest := Nat.ModEq.mul_left_cancel' (by decide) (hmod.add_left_cancel' w)
      exact hrest.of_dvd (Dvd.intro_left (wordBase ^ j) (pow_succ _ _).symm)

/-- **A difference is not the sum**: the lowest word of the subtrahend that is not zero would have to
be half of the base, and the next one to be its own negative less one. -/
theorem diffWords_not_sum {as bs : List UInt32} {T : Nat} (hlen : bs.length < as.length)
    (hne : wordsValue bs ≠ 0) (hagrees : AgreesUpTo (wordsValue bs) T) :
    ¬ (wordsValue (diffWords as bs 0) : Int) ≡ wordsValue as + T [ZMOD wordBase ^ as.length] := by
  have hbase : (wordBase : Int) = 4294967296 := rfl
  induction as generalizing bs T with
  | nil => exact absurd hlen (Nat.not_lt_zero _)
  | cons a as ih =>
    rcases bs with _ | ⟨b, bs⟩
    · exact absurd wordsValue_nil hne
    rw [List.length_cons, List.length_cons] at hlen
    have hword := toNat_diff a b toNat_zero_le
    have hborrow := nextCarry_zero a b
    have ha := a.toNat_lt
    have hb := b.toNat_lt
    have hr := (a - b - 0).toNat_lt
    rw [UInt32.toNat_zero, Nat.cast_zero, sub_zero ((a.toNat : Int) - b.toNat)] at hword
    rw [diffWords_cons, List.length_cons, pow_succ', wordsValue_cons, wordsValue_cons]
    rw [wordsValue_cons] at hne hagrees
    simp only [Nat.cast_add, Nat.cast_mul]
    intro h
    by_cases hzero : b.toNat = 0
    · -- a word zero is the same in both
      rw [hzero, Nat.zero_add] at hagrees hne
      obtain ⟨T', rfl, hrest⟩ := hagrees.tail
      have hnone : borrowOf a.toNat b.toNat 0 = 0 := by
        rw [hzero]
        exact if_neg (Nat.not_lt_zero _)
      have hcarry : nextCarry a b 0 = 0 := UInt32.toNat_inj.mp (hborrow.trans hnone)
      rw [hnone, hzero] at hword
      have htail := (Limbs.sub_cons_iff (show 0 < wordBase by decide)
        (show ((a - b - 0).toNat : Int) = a.toNat - 0 - 0 + wordBase * 0 by
          rw [hword]; simp)).mp
        (show _ ≡ (a.toNat + wordBase * wordsValue as : Int) - (0 + wordBase * -(T' : Int)) - 0
          [ZMOD _] by
            rw [show (a.toNat + wordBase * wordsValue as : Int) - (0 + wordBase * -(T' : Int)) - 0 =
              a.toNat + wordBase * wordsValue as + ((wordBase * T' : Nat) : Int) by
                push_cast
                ring]
            exact h)
      rw [hcarry, sub_zero, sub_neg_eq_add] at htail
      exact ih (Nat.lt_of_succ_lt_succ hlen)
        (fun hv => hne (by rw [hv, Nat.mul_zero])) hrest htail
    · obtain ⟨T', rfl, hnext⟩ := hagrees.head hb
      rcases as with _ | ⟨a', as⟩
      · exact absurd hlen (by simp)
      have hhalf : b.toNat = 2 ^ 31 := by
        have hfirst : ((a - b - 0).toNat : Int) ≡ a.toNat + b.toNat [ZMOD wordBase] := by
          refine Limbs.modEq_head (Y := (wordsValue (a' :: as) + T' : Int)) (h.trans ?_)
          rw [show (a.toNat + wordBase * wordsValue (a' :: as) : Int) +
            ((b.toNat + wordBase * T' : Nat) : Int) =
              a.toNat + b.toNat + wordBase * (wordsValue (a' :: as) + T') by
                push_cast
                ring]
        obtain ⟨u, hu⟩ := Int.modEq_iff_dvd.mp hfirst
        rw [hbase] at hu
        rw [hword, hbase] at hu
        omega
      obtain ⟨r', rest, lost, hwords, hr', hlost⟩ :=
        @head_diffWords a' as bs (nextCarry a b 0) (nextCarry_le a b 0)
      have hk := borrowOf_le a.toNat b.toNat 0
      have hsecond := (Limbs.sub_cons_iff (show 0 < wordBase by decide)
        (show ((a - b - 0).toNat : Int) = a.toNat - -(b.toNat : Int) - 0 +
          wordBase * (borrowOf a.toNat b.toNat 0 - 1) by
            rw [hword, hhalf, hbase]
            push_cast
            ring)).mp
        (show _ ≡ (a.toNat + wordBase * wordsValue (a' :: as) : Int) -
          (-(b.toNat : Int) + wordBase * -(T' : Int)) - 0 [ZMOD _] by
            rw [show (a.toNat + wordBase * wordsValue (a' :: as) : Int) -
              (-(b.toNat : Int) + wordBase * -(T' : Int)) - 0 =
                a.toNat + wordBase * wordsValue (a' :: as) +
                  ((b.toNat + wordBase * T' : Nat) : Int) by
                    push_cast
                    ring]
            exact h)
      have hheads : (bs.headD 0).toNat ≡ T' [MOD wordBase] := by
        have hsame := hnext (by rw [hhalf]; decide)
        rw [wordsValue_head_tail bs] at hsame
        exact (by rw [Nat.ModEq, Nat.add_mul_mod_self_left] : _ ≡ _ [MOD wordBase]).symm.trans hsame
      rw [hwords, wordsValue_cons, wordsValue_cons, List.length_cons, pow_succ'] at hsecond
      simp only [Nat.cast_add, Nat.cast_mul] at hsecond
      have hlow : (r'.toNat : Int) ≡ a'.toNat + T' - (borrowOf a.toNat b.toNat 0 - 1)
          [ZMOD wordBase] := by
        refine Limbs.modEq_head (Y := (wordsValue as : Int)) (hsecond.trans ?_)
        rw [show (a'.toNat + wordBase * wordsValue as : Int) - -(T' : Int) -
          (borrowOf a.toNat b.toNat 0 - 1) =
            a'.toNat + T' - (borrowOf a.toNat b.toNat 0 - 1) + wordBase * wordsValue as by ring]
      have hT := (Int.natCast_modEq_iff.mpr hheads)
      obtain ⟨v, hv⟩ := Int.modEq_iff_dvd.mp (hr'.symm.trans hlow)
      obtain ⟨x, hx⟩ := Int.modEq_iff_dvd.mp hT
      rw [hbase] at hv hx
      rw [← hborrow] at hv
      omega

/-! ## 5. `BigInteger_Square` -/

/-- The octets `BigInteger_AllocSize` is asked for. -/
def squareLength (a : BigInteger) : Nat := a.integerLength * 2 + 20

theorem square_lt (a : BigInteger) : a.magnitude ^ 2 < 256 ^ (2 * a.integerLength) := by
  rw [Nat.mul_comm, pow_mul]
  exact Nat.pow_lt_pow_left a.fits (by decide)

theorem length_le_squareLength (a : BigInteger) :
    2 * a.pIntegerArray.length ≤ arrayLengthOf (squareLength a) := by
  rw [a.arrayLength, arrayLengthOf, arrayLengthOf, squareLength]
  split_ifs <;> omega

/-- `pBI_S`: the squares of the words. Nobody ever gives it a sign. -/
def pBIS (a : BigInteger) : BigInteger where
  pIntegerArray := squareWords a.pIntegerArray ++
    List.replicate (arrayLengthOf (squareLength a) - 2 * a.pIntegerArray.length) 0
  integerLength := squareLength a
  signed := 1
  pos := Nat.succ_pos _
  arrayLength := by
    have hroom := length_le_squareLength a
    rw [List.length_append, length_squareWords, List.length_replicate]
    omega
  fits := by
    have hsquare : a.magnitude ^ 2 = _ := square_eq a.pIntegerArray
    have hlt := square_lt a
    have hmono : 256 ^ (2 * a.integerLength) ≤ 256 ^ squareLength a :=
      Nat.pow_le_pow_right (by decide) (by rw [squareLength]; omega)
    rw [wordsValue_append_zeros, wordsValue_squareWords]
    omega

/-- `BigInteger_Square` -/
def bigIntegerSquare (old : Option OldResult) (a : BigInteger) : BigInteger :=
  if a.integerLength = 1 ∧ a.pIntegerArray.headD 0 = 0 then bigIntegerClearHighBits [0] 1
  else
    let arrayLength := arrayLengthOf (squareLength a)
    let result := bigIntegerClearHighBits
      (crossWords a.pIntegerArray (List.replicate arrayLength 0)) (signedBehindAlloc old arrayLength)
    -- `pBI_O` is a copy of it, with its sign
    let o := bigIntegerClearHighBits (doubleWords result.pIntegerArray 0) result.signed
    let allocWords := max arrayLength ((old.map OldResult.allocWords).getD 0)
    let sum := bigIntegerAdd (some ⟨allocWords, result.signed⟩) o (pBIS a)
    bigIntegerClearHighBits sum.pIntegerArray 1

section

variable {a : BigInteger}

/-- The products are at most half of the square. -/
theorem two_mul_crossProducts_le (a : BigInteger) :
    a.magnitude ^ 2 = wordSquares a.pIntegerArray + 2 * crossProducts a.pIntegerArray ∧
      2 * crossProducts a.pIntegerArray < 256 ^ (2 * a.integerLength) := by
  have hsquare : a.magnitude ^ 2 = _ := square_eq a.pIntegerArray
  have hlt := square_lt a
  exact ⟨hsquare, by omega⟩

theorem pIntegerArray_ne_nil (a : BigInteger) : a.pIntegerArray ≠ [] := by
  intro hnil
  have hlen := a.arrayLength
  have hpos := a.pos
  rw [hnil, List.length_nil, arrayLengthOf] at hlen
  split_ifs at hlen
  omega

/-- **The words of the products.** -/
theorem wordsValue_crossWords (a : BigInteger) :
    wordsValue (crossWords a.pIntegerArray
      (List.replicate (arrayLengthOf (squareLength a)) 0)) = crossProducts a.pIntegerArray := by
  obtain ⟨hlen, hvalue⟩ := crossWords_spec (pIntegerArray_ne_nil a) (length_le_squareLength a)
  have hlt := wordsValue_lt (crossWords a.pIntegerArray
    (List.replicate (arrayLengthOf (squareLength a)) 0))
  rw [hlen] at hlt
  refine hvalue.eq_of_lt_of_lt hlt ?_
  have hhalf := (two_mul_crossProducts_le a).2
  have hmono : 256 ^ (2 * a.integerLength) ≤ wordBase ^ arrayLengthOf (squareLength a) := by
    rw [wordBase_pow, arrayLengthOf, squareLength]
    refine Nat.pow_le_pow_right (by decide) ?_
    split_ifs <;> omega
  omega

/-- A number that is no longer than another one. -/
theorem integerLength_le {r : BigInteger} {n : Nat} (hr : r.Canonical) (hn : 0 < n)
    (hlt : r.magnitude < 256 ^ n) : r.integerLength ≤ n := by
  rcases hr.length with hone | hle
  · omega
  · have hpow := (Nat.pow_lt_pow_iff_right (show 1 < 256 by decide)).mp (hle.trans_lt hlt)
    omega

/-- **A number has one canonical form.** -/
theorem BigInteger.Returns.unique {r r' : BigInteger} {v : Int} (h : r.Returns v)
    (h' : r'.Returns v) : r = r' := by
  have hm : r.magnitude = v.natAbs := by rw [← BigInteger.natAbs_value, h.value]
  have hm' : r'.magnitude = v.natAbs := by rw [← BigInteger.natAbs_value, h'.value]
  have hlength : r.integerLength = r'.integerLength := by
    have hfits : r'.magnitude < 256 ^ r'.integerLength := r'.fits
    have hfits' : r.magnitude < 256 ^ r.integerLength := r.fits
    rw [hm', ← hm] at hfits
    rw [hm, ← hm'] at hfits'
    exact Nat.le_antisymm (integerLength_le h.canonical r'.pos hfits)
      (integerLength_le h'.canonical r.pos hfits')
  have hwords : r.pIntegerArray = r'.pIntegerArray := by
    refine wordsValue_injective ?_ (hm.trans hm'.symm)
    rw [r.arrayLength, r'.arrayLength, hlength]
  have hsigned : r.signed = r'.signed := by
    by_cases hzero : v.natAbs = 0
    · rw [h.canonical.sign (hm.trans hzero), h'.canonical.sign (hm'.trans hzero)]
    · have hvalue := h.value.trans h'.value.symm
      rw [BigInteger.value, BigInteger.value, hm, hm'] at hvalue
      have hne : (v.natAbs : Int) ≠ 0 := Int.natCast_ne_zero.mpr hzero
      exact Units.ext (mul_right_cancel₀ hne hvalue)
  cases r
  cases r'
  simp only at hlength hwords hsigned
  subst hlength hwords hsigned
  rfl

theorem magnitude_pBIS (a : BigInteger) : (pBIS a).magnitude = wordSquares a.pIntegerArray := by
  rw [BigInteger.magnitude, pBIS, wordsValue_append_zeros, wordsValue_squareWords]

/-- The two sums are added if the first has no sign. -/
theorem magnitude_add_pBIS (old : Option OldResult) {o : BigInteger} (ho : o.signed = 1) :
    (bigIntegerAdd old o (pBIS a)).magnitude = o.magnitude + wordSquares a.pIntegerArray := by
  have hsame : o.signed = (pBIS a).signed := ho
  rw [bigIntegerAdd, if_neg fun h => h.2 hsame, if_pos hsame, magnitude_addAlike, magnitude_pBIS]

/-- With a sign it is subtracted: `pBI_S` has more octets. -/
theorem magnitude_add_pBIS_neg (old : Option OldResult) {o : BigInteger} (ho : o.signed = -1)
    (hlen : o.integerLength < squareLength a) :
    (bigIntegerAdd old o (pBIS a)).magnitude =
      wordsValue (diffWords (pBIS a).pIntegerArray o.pIntegerArray 0) := by
  have hne : o.signed ≠ (pBIS a).signed := by
    rw [ho]
    exact (by decide : (-1 : ℤˣ) ≠ 1)
  have hone : ¬ o.signed = 1 := by
    rw [ho]
    exact (by decide : (-1 : ℤˣ) ≠ 1)
  have hlen' : o.integerLength < (pBIS a).integerLength := hlen
  have hlt : bigIntegerUnsignedCompare o (pBIS a) = .lt := by
    rw [bigIntegerUnsignedCompare, if_neg (Nat.lt_asymm hlen'), if_pos hlen']
  have habs : o.abs.integerLength < (pBIS a).integerLength := hlen
  have hgt : bigIntegerUnsignedCompare (pBIS a) o.abs = .gt := by
    rw [bigIntegerUnsignedCompare, if_pos habs]
  have hnot : ¬ (bigIntegerUnsignedCompare o (pBIS a) = .eq ∧ o.signed ≠ (pBIS a).signed) := by
    rw [hlt]
    exact fun h => by cases h.1
  rw [bigIntegerAdd, if_neg hnot, if_neg hne, if_neg hone, bigIntegerSubAlike, hgt]
  exact magnitude_clearHighBits _ _

/-- **A square is right exactly if the doubling loses no carry and no sign is left over.** -/
theorem returns_square_iff (old : Option OldResult) (a : BigInteger) :
    (bigIntegerSquare old a).Returns (a.value * a.value) ↔
      DoublesWell (crossProducts a.pIntegerArray) ∧
        (crossProducts a.pIntegerArray ≠ 0 →
          signedBehindAlloc old (arrayLengthOf (squareLength a)) = 1) := by
  obtain ⟨hsquare, hhalf⟩ := two_mul_crossProducts_le a
  have hvalue : a.value * a.value = ((a.magnitude ^ 2 : Nat) : Int) := by
    rw [← Int.natAbs_mul_self, BigInteger.natAbs_value, sq, Nat.cast_mul]
  have hnone : DoublesWell 0 := by
    intro i hi
    rw [numberWord, Nat.zero_div, Nat.zero_mod] at hi
    exact absurd hi (by decide)
  rw [hvalue, bigIntegerSquare]
  by_cases hshort : a.integerLength = 1 ∧ a.pIntegerArray.headD 0 = 0
  · have hzero : a.magnitude = 0 := by
      rw [magnitude_of_length_one hshort.1, hshort.2, UInt32.toNat_zero]
    have hcross : crossProducts a.pIntegerArray = 0 := by
      rw [hzero] at hsquare
      omega
    rw [if_pos hshort, returns_clearHighBits, hcross, hzero]
    exact iff_of_true rfl ⟨hnone, fun h => absurd rfl h⟩
  rw [if_neg hshort]
  dsimp only
  obtain ⟨hmag, -, hsigned⟩ := clearHighBits_spec
    (crossWords a.pIntegerArray (List.replicate (arrayLengthOf (squareLength a)) 0))
    (signedBehindAlloc old (arrayLengthOf (squareLength a)))
  rw [wordsValue_crossWords] at hmag hsigned
  generalize bigIntegerClearHighBits (crossWords a.pIntegerArray
    (List.replicate (arrayLengthOf (squareLength a)) 0))
      (signedBehindAlloc old (arrayLengthOf (squareLength a))) = result at *
  obtain ⟨hle, hagrees, hwell⟩ := doubleWords_spec result.pIntegerArray toNat_zero_le
  obtain ⟨homag, hocanonical, hosigned⟩ :=
    clearHighBits_spec (doubleWords result.pIntegerArray 0) result.signed
  rw [show wordsValue result.pIntegerArray = _ from hmag, UInt32.toNat_zero, Nat.add_zero]
    at hle hagrees hwell
  have hstart : ∀ n, DoublesWellFrom 0 n ↔ DoublesWell n := fun n =>
    and_iff_right fun h => absurd h (by decide)
  rw [hstart] at hwell
  generalize bigIntegerClearHighBits (doubleWords result.pIntegerArray 0) result.signed = o at *
  generalize wordsValue (doubleWords result.pIntegerArray 0) = d at *
  have hlength : o.integerLength < squareLength a := by
    have hmax : o.magnitude < 256 ^ (2 * a.integerLength) := by omega
    have holen := integerLength_le hocanonical (by have := a.pos; omega) hmax
    rw [squareLength]
    omega
  rw [returns_clearHighBits, Units.val_one, one_mul, Nat.cast_inj, hsquare]
  by_cases hcross : crossProducts a.pIntegerArray = 0
  · -- one word, or zero words but one
    have hd : d = 0 := by omega
    rw [if_pos hd] at hosigned
    have hsum := magnitude_add_pBIS (a := a) (some ⟨max (arrayLengthOf (squareLength a))
      ((old.map OldResult.allocWords).getD 0), result.signed⟩) hosigned
    rw [show wordsValue _ = _ from hsum, homag, hd, hcross]
    exact iff_of_true (by omega) ⟨hnone, fun h => absurd rfl h⟩
  · have hd : d ≠ 0 := by
      rintro rfl
      rcases hagrees with heq | ⟨j, -, hat⟩
      · omega
      · rw [numberWord, Nat.zero_div, Nat.zero_mod] at hat
        exact absurd hat (by decide)
    rw [if_neg hd, hsigned, if_neg hcross] at hosigned
    rcases Int.units_eq_one_or (signedBehindAlloc old (arrayLengthOf (squareLength a))) with hone | hneg
    · have hsum := magnitude_add_pBIS (a := a) (some ⟨max (arrayLengthOf (squareLength a))
        ((old.map OldResult.allocWords).getD 0), result.signed⟩) (hosigned.trans hone)
      rw [show wordsValue _ = _ from hsum, homag, ← hwell]
      constructor
      · intro h
        exact ⟨by omega, fun _ => hone⟩
      · rintro ⟨h, -⟩
        omega
    · have hdiff := magnitude_add_pBIS_neg (a := a) (some ⟨max (arrayLengthOf (squareLength a))
        ((old.map OldResult.allocWords).getD 0), result.signed⟩) (hosigned.trans hneg) hlength
      have hwords : o.pIntegerArray.length < (pBIS a).pIntegerArray.length := by
        rw [o.arrayLength, (pBIS a).arrayLength]
        have hlong : (pBIS a).integerLength = a.integerLength * 2 + 20 := rfl
        have holen := integerLength_le hocanonical (show 0 < 2 * a.integerLength by
          have := a.pos
          omega) (by omega)
        rw [hlong, arrayLengthOf, arrayLengthOf]
        split_ifs <;> omega
      have hnot := diffWords_not_sum hwords (T := 2 * crossProducts a.pIntegerArray)
        (by rw [show wordsValue o.pIntegerArray = d from homag]; exact hd)
        (by rw [show wordsValue o.pIntegerArray = d from homag]; exact hagrees)
      rw [show wordsValue _ = _ from hdiff, hneg]
      refine iff_of_false (fun h => hnot ?_) fun h => absurd (h.2 hcross) (by decide)
      rw [h, ← magnitude_pBIS, Nat.cast_add]
      exact Int.ModEq.refl _

/-- **`BigInteger_Mul` is always the product; `BigInteger_Square` is `BigInteger_Mul` of a number with
itself exactly then.** -/
theorem bigIntegerSquare_iff (old : Option OldResult) (a b : BigInteger) :
    (bigIntegerMul a b).Returns (a.value * b.value) ∧
      (bigIntegerSquare old a = bigIntegerMul a a ↔
        DoublesWell (crossProducts a.pIntegerArray) ∧
          (crossProducts a.pIntegerArray ≠ 0 →
            signedBehindAlloc old (arrayLengthOf (squareLength a)) = 1)) := by
  refine ⟨returns_mul a b, ?_⟩
  rw [← returns_square_iff]
  constructor
  · intro h
    rw [h]
    exact returns_mul a a
  · intro h
    exact h.unique (returns_mul a a)

end

/-- 1, 2 ^ 31 and 2 ^ 32 - 1, the lowest first. -/
def Example.carryIntoMax : BigInteger where
  pIntegerArray := [1, 0x80000000, 0xffffffff]
  integerLength := 12
  signed := 1
  pos := by decide
  arrayLength := rfl
  fits := by decide

/-- **The carry into the word `0xffffffff` is lost.** -/
theorem bigIntegerSquare_carryIntoMax :
    bigIntegerSquare none Example.carryIntoMax ≠
      bigIntegerMul Example.carryIntoMax Example.carryIntoMax := by
  intro h
  have hwords := congrArg BigInteger.pIntegerArray h
  exact absurd hwords (by decide +kernel)

end Mt7601.Crypt
