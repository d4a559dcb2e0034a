/-
# The driver's SHA-1 is SHA-1

`RT_SHA1` and `RT_HMAC_SHA1` against FIPS 180 and HMAC, for every message and every key. The
schedule of a block is a list that grows at its head; in the standard it is a function of the round.
The message comes in pieces, and that is as for every hash of the driver (`sha1Code`). A context stands
for the message it has been given (`Sha1Ctx.Holds`).
-/
import Mt7601.Crypt.Sha1
import Mt7601.Crypt.HashCode

namespace Mt7601.Crypt

open Fips180 (beOctets wordAt absorb)

/-! ## 1. Words and octets -/

/-- Four octets put together by shifts. -/
theorem wordOf_eq (b₀ b₁ b₂ b₃ : UInt8) :
    wordOf b₀ b₁ b₂ b₃ = UInt32.ofNat (beVal [b₀, b₁, b₂, b₃]) := by
  have h₀ := b₀.toNat_lt
  have h₁ := b₁.toNat_lt
  have h₂ := b₂.toNat_lt
  have h₃ := b₃.toNat_lt
  have hval : beVal [b₀, b₁, b₂, b₃] =
      2 ^ 24 * b₀.toNat + (2 ^ 16 * b₁.toNat + (2 ^ 8 * b₂.toNat + b₃.toNat)) := by
    simp only [beVal, List.length_cons, List.length_nil]
    omega
  -- the parts do not overlap
  have hor₂ := Nat.two_pow_add_eq_or_of_lt (i := 8) h₃ b₂.toNat
  have hor₁ := Nat.two_pow_add_eq_or_of_lt (i := 16)
    (show 2 ^ 8 * b₂.toNat + b₃.toNat < 2 ^ 16 by omega) b₁.toNat
  have hor₀ := Nat.two_pow_add_eq_or_of_lt (i := 24)
    (show 2 ^ 16 * b₁.toNat + (2 ^ 8 * b₂.toNat + b₃.toNat) < 2 ^ 24 by omega) b₀.toNat
  have hshift : ∀ (b : UInt8) (n : UInt32), n.toNat ≤ 24 →
      (b.toUInt32 <<< n).toNat = 2 ^ n.toNat * b.toNat := by
    intro b n hn
    have hb := b.toNat_lt
    have hlt : 2 ^ n.toNat * b.toNat < 2 ^ 24 * 2 ^ 8 :=
      Nat.mul_lt_mul_of_le_of_lt (Nat.pow_le_pow_right (by decide) hn) hb (by decide)
    rw [UInt32.toNat_shiftLeft, UInt8.toNat_toUInt32, Nat.shiftLeft_eq, Nat.mul_comm,
      Nat.mod_eq_of_lt (show n.toNat < 32 by omega), Nat.mod_eq_of_lt (by omega)]
  have hs₀ : (b₀.toUInt32 <<< 24).toNat = 2 ^ 24 * b₀.toNat := hshift b₀ 24 (by decide)
  have hs₁ : (b₁.toUInt32 <<< 16).toNat = 2 ^ 16 * b₁.toNat := hshift b₁ 16 (by decide)
  have hs₂ : (b₂.toUInt32 <<< 8).toNat = 2 ^ 8 * b₂.toNat := hshift b₂ 8 (by decide)
  refine UInt32.toNat_inj.1 ?_
  rw [hval, UInt32.toNat_ofNat', Nat.mod_eq_of_lt (by omega), hor₀, hor₁, hor₂, wordOf,
    UInt32.toNat_or, UInt32.toNat_or, UInt32.toNat_or, hs₀, hs₁, hs₂, UInt8.toNat_toUInt32,
    Nat.or_assoc, Nat.or_assoc]

theorem octetsOf_eq (w : UInt32) : octetsOf w = beOctets 4 w.toNat := by
  have hoctet : ∀ n : UInt32, n.toNat % 32 = n.toNat →
      (w >>> n).toUInt8 = UInt8.ofNat (w.toNat / 2 ^ n.toNat) := by
    intro n hn
    refine UInt8.toNat_inj.1 ?_
    rw [UInt32.toNat_toUInt8, UInt32.toNat_shiftRight, hn, Nat.shiftRight_eq_div_pow,
      UInt8.toNat_ofNat']
  have h24 := hoctet 24 rfl
  have h16 := hoctet 16 rfl
  have h8 := hoctet 8 rfl
  have h0 : w.toUInt8 = UInt8.ofNat w.toNat := by
    refine UInt8.toNat_inj.1 ?_
    rw [UInt32.toNat_toUInt8, UInt8.toNat_ofNat']
  rw [octetsOf, h24, h16, h8, h0]
  simp [beOctets, List.range_succ]


/-- The words of a block. -/
theorem wordsOf_eq {n : Nat} : ∀ {l : List UInt8}, l.length = 4 * n →
    wordsOf l = (List.range n).map (wordAt l) := by
  induction n with
  | zero =>
    intro l h
    rw [List.eq_nil_of_length_eq_zero h]
    rfl
  | succ n ih =>
    rintro (_ | ⟨b₀, _ | ⟨b₁, _ | ⟨b₂, _ | ⟨b₃, l⟩⟩⟩⟩) h
    · exact absurd h (by simp)
    · exact absurd h (by simp; omega)
    · exact absurd h (by simp; omega)
    · exact absurd h (by simp; omega)
    · have hl : l.length = 4 * n := by
        simp only [List.length_cons] at h
        omega
      have hnext : ∀ t, wordAt (b₀ :: b₁ :: b₂ :: b₃ :: l) (t + 1) = wordAt l t := fun t => by
        rw [wordAt, wordAt, Mem.read, Mem.read, Nat.mul_succ]
        rfl
      rw [wordsOf, ih hl, wordOf_eq, List.range_succ_eq_map, List.map_cons, List.map_map]
      exact congrArg _ (List.map_congr_left fun t _ => (hnext t).symm)

/-! ## 2. A block -/

/-- The schedule, last word first, when it has come to `n` words more than sixteen. -/
theorem foldl_scheduleWord (block : List UInt8) (n : Nat) :
    (List.range n).foldl (fun w _ => scheduleWord w)
        ((List.range 16).map (Fips180.schedule block)).reverse =
      ((List.range (16 + n)).map (Fips180.schedule block)).reverse := by
  induction n with
  | zero => rfl
  | succ n ih =>
    have hword : ∀ i, i < 16 + n →
        (((List.range (16 + n)).map (Fips180.schedule block)).reverse).getD i 0 =
          Fips180.schedule block (16 + n - 1 - i) := by
      intro i hi
      rw [List.getD_eq_getElem?_getD, List.getElem?_reverse (by simpa using hi), List.length_map,
        List.length_range, List.getElem?_map, List.getElem?_range (by omega)]
      rfl
    rw [List.range_succ (n := n), List.foldl_append, ih, List.foldl_cons, List.foldl_nil, scheduleWord,
      hword 2 (by omega), hword 7 (by omega), hword 13 (by omega), hword 15 (by omega),
      show 16 + (n + 1) = 16 + n + 1 by omega, List.range_succ, List.map_append, List.reverse_append]
    have hnew : Fips180.schedule block (16 + n) =
        Fips180.rotl (Fips180.schedule block (16 + n - 3) ^^^ Fips180.schedule block (16 + n - 8) ^^^
          Fips180.schedule block (16 + n - 14) ^^^ Fips180.schedule block (16 + n - 16)) 1 := by
      rw [Fips180.schedule, if_neg (by omega)]
    rw [List.map_cons, List.map_nil, List.reverse_singleton, hnew]
    rfl

/-- **The schedule.** -/
theorem schedule_eq {block : List UInt8} (h : block.length = 64) :
    schedule block = (List.range 80).map (Fips180.schedule block) := by
  have hfirst : wordsOf block = (List.range 16).map (Fips180.schedule block) := by
    rw [wordsOf_eq (show block.length = 4 * 16 from h)]
    refine List.map_congr_left fun t ht => ?_
    rw [Fips180.schedule, if_pos (List.mem_range.mp ht)]
  rw [schedule, hfirst, foldl_scheduleWord, List.reverse_reverse]

/-- The words of the driver's context are words of the standard. -/
def Sha1Words.toSpec (h : Sha1Words) : Fips180.Words := ⟨h.a, h.b, h.c, h.d, h.e⟩

theorem sha1Round_toSpec (w : Nat → UInt32) (v : Sha1Words) (t : Nat) :
    (sha1Round v (w t, t)).toSpec = Fips180.round w v.toSpec t := by
  have hf : (roundFunction t v.b v.c v.d).1 = Fips180.f t v.b v.c v.d ∧
      (roundFunction t v.b v.c v.d).2 = Fips180.k t := by
    rw [roundFunction, Fips180.f, Fips180.k]
    split
    · exact ⟨rfl, rfl⟩
    · split
      · exact ⟨rfl, rfl⟩
      · split
        · exact ⟨rfl, rfl⟩
        · exact ⟨rfl, rfl⟩
  rw [sha1Round, Fips180.round]
  dsimp only
  rw [hf.1, hf.2]
  rfl

theorem foldl_sha1Round (w : Nat → UInt32) (n : Nat) (h : Sha1Words) :
    (((List.range n).map w).zipIdx.foldl sha1Round h).toSpec =
      (List.range n).foldl (Fips180.round w) h.toSpec := by
  induction n with
  | zero => rfl
  | succ n ih =>
    rw [List.range_succ, List.map_append, List.zipIdx_append, List.foldl_append, List.foldl_append,
      ← ih]
    simp [sha1Round_toSpec]

/-- **A block is taken in as the standard says.** -/
theorem rtSha1Hash_hashValue (ctx : Sha1Ctx) :
    (rtSha1Hash ctx).hashValue.toSpec =
      Fips180.compress ctx.hashValue.toSpec (ctx.block.takeD sha1BlockSize 0) := by
  have hfold := foldl_sha1Round (Fips180.schedule (ctx.block.takeD sha1BlockSize 0)) 80 ctx.hashValue
  rw [← schedule_eq (List.takeD_length _ _ _)] at hfold
  rw [Fips180.compress, ← hfold]
  rfl

/-! ## 3. The rest of the code -/

/-- A number of 64 bits in two words. -/
theorem octetsOf_bits (v : Nat) :
    octetsOf (UInt64.ofNat v >>> 32).toUInt32 ++ octetsOf (UInt64.ofNat v).toUInt32 =
      beOctets 8 v := by
  have hhigh : (UInt64.ofNat v >>> 32).toUInt32.toNat = v / 256 ^ 4 % 256 ^ 4 := by
    have h32 : (32 : UInt64).toNat % 64 = 32 := rfl
    have h64 : (2 : Nat) ^ 64 = 256 ^ 4 * 256 ^ 4 := rfl
    rw [UInt64.toNat_toUInt32, UInt64.toNat_shiftRight, UInt64.toNat_ofNat', h32,
      Nat.shiftRight_eq_div_pow, h64]
    exact (congrArg (· % 2 ^ 32) (Nat.mod_mul_right_div_self ..)).trans (Nat.mod_mod _ (256 ^ 4))
  have hlow : (UInt64.ofNat v).toUInt32.toNat = v % 256 ^ 4 := by
    rw [UInt64.toNat_toUInt32, UInt64.toNat_ofNat']
    exact Nat.mod_mod_of_dvd v (by decide)
  rw [octetsOf_eq, octetsOf_eq, hhigh, hlow, Fips180.beOctets_mod, Fips180.beOctets_mod,
    ← Fips180.beOctets_append]
/-- The octets of a hash value. -/
theorem octets_toSpec (h : Sha1Words) :
    octetsOf h.a ++ octetsOf h.b ++ octetsOf h.c ++ octetsOf h.d ++ octetsOf h.e =
      Fips180.digest h.toSpec := by
  rw [octetsOf_eq, octetsOf_eq, octetsOf_eq, octetsOf_eq, octetsOf_eq]
  rfl

/-- What the code of SHA-1 has of its own. -/
def sha1Code : HashCode Sha1Words where
  defaultHashValue := sha1DefaultHashValue
  hash h block := (rtSha1Hash { hashValue := h, block }).hashValue
  lengthOctets bits := octetsOf (bits >>> 32).toUInt32 ++ octetsOf bits.toUInt32
  octets h := octetsOf h.a ++ octetsOf h.b ++ octetsOf h.c ++ octetsOf h.d ++ octetsOf h.e
  digestSize := sha1DigestSize

theorem sha1Code_implements : sha1Code.Implements Fips180.sha1Blocks Sha1Words.toSpec where
  initial := rfl
  compress h block hblock := by
    have htake : block.takeD sha1BlockSize 0 = block := by
      rw [sha1BlockSize, List.takeD_eq_take 0 (Nat.le_of_eq hblock.symm),
        List.take_of_length_le (Nat.le_of_eq hblock)]
    have hvalue := rtSha1Hash_hashValue { hashValue := h, block }
    rw [htake] at hvalue
    exact hvalue
  lengthOctets := octetsOf_bits
  octets := octets_toSpec
  digestSize := Fips180.length_digest

/-! ## 4. A message in pieces -/

/-- **A context holds a message**: the hash value is that behind its whole blocks, the block begun
holds the rest. -/
structure Sha1Ctx.Holds (ctx : Sha1Ctx) (message : List UInt8) : Prop where
  hashValue : ctx.hashValue.toSpec = absorb message
  block : ctx.block = message.drop (64 * (message.length / 64))

/-- The message with its length, in octets modulo `2⁶⁴`. -/
structure Sha1Ctx.HoldsAll (ctx : Sha1Ctx) (message : List UInt8) : Prop where
  holds : ctx.Holds message
  messageLen : ctx.messageLen = UInt64.ofNat message.length

def Sha1Ctx.toHashCtx (ctx : Sha1Ctx) : HashCtx Sha1Words :=
  ⟨ctx.hashValue, ctx.messageLen, ctx.block⟩

@[simp] theorem Sha1Ctx.toHashCtx_block (ctx : Sha1Ctx) : ctx.toHashCtx.block = ctx.block := rfl

theorem Sha1Ctx.toHashCtx_with (ctx : Sha1Ctx) (l : List UInt8) :
    { ctx with block := l }.toHashCtx = { ctx.toHashCtx with block := l } := rfl

section

variable {ctx : Sha1Ctx} {message : List UInt8}

theorem Sha1Ctx.holdsAll_iff : ctx.HoldsAll message ↔
    ctx.toHashCtx.Holds Fips180.sha1Blocks Sha1Words.toSpec message := by
  constructor
  · intro h
    exact ⟨⟨h.holds.hashValue, h.holds.block⟩, h.messageLen⟩
  · intro h
    exact ⟨⟨h.holds.value, h.holds.begun⟩, h.messageLen⟩

theorem rtSha1Hash_toHashCtx (ctx : Sha1Ctx) :
    (rtSha1Hash ctx).toHashCtx = sha1Code.rtHash ctx.toHashCtx := by
  have htake : (ctx.block.takeD sha1BlockSize 0).takeD sha1BlockSize 0 =
      ctx.block.takeD sha1BlockSize 0 := by
    have hlen : (ctx.block.takeD sha1BlockSize 0).length = sha1BlockSize := List.takeD_length _ _ _
    rw [List.takeD_eq_take 0 (Nat.le_of_eq hlen.symm), List.take_of_length_le (Nat.le_of_eq hlen)]
  have hvalue : sha1Code.hash ctx.hashValue (ctx.block.takeD sha1BlockSize 0) =
      (rtSha1Hash ctx).hashValue := by
    rw [sha1Code]
    dsimp only
    rw [rtSha1Hash, rtSha1Hash]
    dsimp only
    rw [htake]
  have hmessageLen : (rtSha1Hash ctx).messageLen = ctx.messageLen := by rw [rtSha1Hash]
  have hblock : (rtSha1Hash ctx).block = [] := by rw [rtSha1Hash]
  rw [Sha1Ctx.toHashCtx, Sha1Ctx.toHashCtx, HashCode.rtHash, hmessageLen, hblock]
  dsimp only
  rw [hashBlockSize, ← sha1BlockSize, hvalue]

theorem rtSha1AppendLoop_toHashCtx (passes : Nat) (ctx : Sha1Ctx) (piece : List UInt8) :
    (rtSha1AppendLoop passes ctx piece).toHashCtx =
      sha1Code.appendLoop passes ctx.toHashCtx piece := by
  induction passes generalizing ctx piece with
  | zero => rfl
  | succ passes ih =>
    rw [rtSha1AppendLoop, HashCode.appendLoop, Sha1Ctx.toHashCtx_block, sha1BlockSize, hashBlockSize]
    by_cases hnil : piece.length = 0
    · rw [if_pos hnil, if_pos hnil]
    · rw [if_neg hnil, if_neg hnil]
      by_cases hshort : ctx.block.length + piece.length < 64
      · rw [if_pos hshort, if_pos hshort, Sha1Ctx.toHashCtx_with]
      · rw [if_neg hshort, if_neg hshort]
        dsimp only
        rw [ih, rtSha1Hash_toHashCtx, Sha1Ctx.toHashCtx_with]

/-- **A piece is taken in**, however the message was cut. -/
theorem Sha1Ctx.HoldsAll.append (h : ctx.HoldsAll message) (piece : List UInt8) :
    (rtSha1Append ctx piece).HoldsAll (message ++ piece) := by
  have happend : (rtSha1Append ctx piece).toHashCtx = sha1Code.append ctx.toHashCtx piece := by
    rw [HashCode.append, ← rtSha1AppendLoop_toHashCtx]
    rfl
  rw [holdsAll_iff, happend]
  exact sha1Code_implements.append (holdsAll_iff.mp h) piece

theorem rtSha1End_toHashCtx (ctx : Sha1Ctx) :
    rtSha1End ctx = .ofList sha1DigestSize (sha1Code.rtEnd ctx.toHashCtx) := by
  have hlen : 56 < (ctx.block ++ [(0x80 : UInt8)]).length ↔ 55 < ctx.block.length := by
    rw [List.length_append, List.length_singleton]
    omega
  unfold rtSha1End HashCode.rtEnd
  extract_lets bits begun last block words bits' blockLen begun' last' closed
  have hbegun : begun.toHashCtx = begun' := rfl
  have hlast : last.toHashCtx = last' := by
    by_cases hroom : 55 < ctx.block.length
    · have h : last = rtSha1Hash begun := if_pos (hlen.mpr hroom)
      have h' : last' = sha1Code.rtHash begun' := if_pos hroom
      rw [h, h', rtSha1Hash_toHashCtx, hbegun]
    · have h : last = begun := if_neg fun hroom' => hroom (hlen.mp hroom')
      have h' : last' = begun' := if_neg hroom
      rw [h, h', hbegun]
  have hclosed : (rtSha1Hash { last with block }).toHashCtx = closed := by
    have hblock : block = last'.block.takeD 56 0 ++ sha1Code.lengthOctets bits' := by
      rw [← hlast, Sha1Ctx.toHashCtx_block]
      exact List.append_assoc _ _ _
    rw [rtSha1Hash_toHashCtx, Sha1Ctx.toHashCtx_with, hlast, hblock]
  have hwords : words = closed.hashValue := congrArg HashCtx.hashValue hclosed
  rw [hwords]
  rfl

/-- **The digest is that of the message.** -/
theorem Sha1Ctx.HoldsAll.rtSha1End (h : ctx.HoldsAll message) :
    (rtSha1End ctx).toList = Fips180.sha1 message := by
  have hlen := Fips180.length_sha1 message
  rw [rtSha1End_toHashCtx, sha1Code_implements.rtEnd (holdsAll_iff.mp h), ← Fips180.sha1_eq,
    Octets.toList_ofList, List.takeD_eq_take 0 (Nat.le_of_eq hlen.symm),
    List.take_of_length_le (Nat.le_of_eq hlen)]

/-- **`RT_SHA1` is SHA-1.** -/
theorem rtSha1_eq (message : List UInt8) : (rtSha1 message).toList = Fips180.sha1 message := by
  have hstart : Sha1Ctx.HoldsAll {} [] := ⟨⟨rfl, rfl⟩, rfl⟩
  exact (hstart.append message).rtSha1End

/-- **`RT_HMAC_SHA1` is HMAC-SHA-1.** -/
theorem rtHmacSha1_eq (key message : List UInt8) :
    (rtHmacSha1 key message).toList = Fips180.hmacSha1 key message := by
  have hstart : Sha1Ctx.HoldsAll {} [] := ⟨⟨rfl, rfl⟩, rfl⟩
  have hpieces : ∀ l m : List UInt8,
      (Crypt.rtSha1End (rtSha1Append (rtSha1Append {} l) m)).toList = Fips180.sha1 (l ++ m) :=
    fun l m => ((hstart.append l).append m).rtSha1End
  rw [rtHmacSha1, hpieces, hpieces, Fips180.hmacSha1, Fips180.hmac]
  split
  · rfl
  · rw [rtSha1_eq]

end

end Mt7601.Crypt
