/-
# A hash of a message that comes in pieces

`common/crypt_md5.c` and `common/crypt_sha2.c` have one `Append` and one `End` three times over, and
`common/crypt_hmac.c` one HMAC: for MD5, SHA-1 and SHA-256. Here they are once, over what the three
have of their own (`HashCode`).

`append` counts in numbers. `appendUint` counts as the code does: the fill of the block and the length
of a piece are added as a `UINT`, and what is copied must lie in the block. They agree as long as the
sum fits a `UINT` (`appendUint_eq`). A context stands for the message it has been given
(`HashCtx.Holds`).
-/
import Mt7601.Lib.Checked
import Mt7601.Lib.Fips180

namespace Mt7601.Crypt

/-! ## 1. The code -/

/-- `MD5_CTX_STRUC`, `SHA1_CTX_STRUC`, `SHA256_CTX_STRUC`; `block` is what the block holds so far,
`BlockLen` its length. -/
structure HashCtx (W : Type) where
  hashValue : W
  messageLen : UInt64 := 0
  block : List UInt8 := []

/-- `MD5_BLOCK_SIZE`, `SHA1_BLOCK_SIZE`, `SHA256_BLOCK_SIZE` -/
abbrev hashBlockSize : Nat := 64

/-- What one algorithm has of its own: its `DefaultHashValue`, the hash value its `Hash` leaves behind
a block, the octets of `message_length_bits` and of a hash value, and its `DIGEST_SIZE`. -/
structure HashCode (W : Type) where
  defaultHashValue : W
  hash : W → List UInt8 → W
  lengthOctets : UInt64 → List UInt8
  octets : W → List UInt8
  digestSize : Nat

namespace HashCode

variable {W V : Type} (code : HashCode W)

/-- `Init` -/
def init : HashCtx W := { hashValue := code.defaultHashValue }

/-- `Hash`, on a block that is filled with zeros to its size. -/
def rtHash (ctx : HashCtx W) : HashCtx W :=
  { ctx with hashValue := code.hash ctx.hashValue (ctx.block.takeD hashBlockSize 0), block := [] }

/-- The loop of `Append`: each pass takes an octet at least, so there are no more passes than
octets. -/
def appendLoop : Nat → HashCtx W → List UInt8 → HashCtx W
  | 0, ctx, _ => ctx
  | passes + 1, ctx, message =>
    if message.length = 0 then ctx
    else if ctx.block.length + message.length < hashBlockSize then
      { ctx with block := ctx.block ++ message }
    else
      let room := hashBlockSize - ctx.block.length
      appendLoop passes (code.rtHash { ctx with block := ctx.block ++ message.take room })
        (message.drop room)

def append (ctx : HashCtx W) (message : List UInt8) : HashCtx W :=
  let ctx' := code.appendLoop message.length ctx message
  { ctx' with messageLen := ctx'.messageLen + UInt64.ofNat message.length }

/-- The loop of `Append` with `BlockLen + diffLen` as a `UINT`. -/
def appendLoopUint : Nat → HashCtx W → List UInt8 → Checked (HashCtx W)
  | 0, ctx, _ => .ok ctx
  | passes + 1, ctx, message =>
    if message.length = 0 then .ok ctx
    else if (ctx.block.length + message.length) % 2 ^ 32 < hashBlockSize then do
      Checked.access hashBlockSize ctx.block.length message.length
      .ok { ctx with block := ctx.block ++ message }
    else
      let room := hashBlockSize - ctx.block.length
      appendLoopUint passes (code.rtHash { ctx with block := ctx.block ++ message.take room })
        (message.drop room)

/-- `Append` -/
def appendUint (ctx : HashCtx W) (message : List UInt8) : Checked (HashCtx W) := do
  let ctx' ← code.appendLoopUint message.length ctx message
  .ok { ctx' with messageLen := ctx'.messageLen + UInt64.ofNat message.length }

/-- `End`: the bit 1, and the number of bits in the last eight octets of a block. -/
def rtEnd (ctx : HashCtx W) : List UInt8 :=
  let bits := ctx.messageLen * 8
  let blockLen := ctx.block.length
  let ctx := { ctx with block := ctx.block ++ [0x80] }
  let ctx := if 55 < blockLen then code.rtHash ctx else ctx
  let ctx := code.rtHash { ctx with block := ctx.block.takeD 56 0 ++ code.lengthOctets bits }
  code.octets ctx.hashValue

/-- `RT_MD5`, `RT_SHA1`, `RT_SHA256` -/
def rtHashMessage (message : List UInt8) : Checked (List UInt8) := do
  let ctx ← code.appendUint code.init message
  .ok (code.rtEnd ctx)

/-- `Init`, then the pieces through `Append`, then `End`. -/
def rtHashPieces (pieces : List (List UInt8)) : Checked (List UInt8) := do
  let ctx ← pieces.foldlM code.appendUint code.init
  .ok (code.rtEnd ctx)

/-- `K0` -/
def hmacKey (key : List UInt8) : Checked (List UInt8) :=
  if key.length ≤ hashBlockSize then .ok (key.takeD hashBlockSize 0)
  else do
    let digest ← code.rtHashMessage key
    .ok (digest.takeD hashBlockSize 0)

/-- `RT_HMAC_MD5`, `RT_HMAC_SHA1`, `RT_HMAC_SHA256`: what they write to `MAC`. -/
def rtHmac (key message : List UInt8) (macLen : UInt32) : Checked (List UInt8) := do
  let k0 ← code.hmacKey key
  let k0 := k0.map (· ^^^ 0x36)
  let ctx ← code.appendUint code.init k0
  let ctx ← code.appendUint ctx message
  let digest := code.rtEnd ctx
  let k0 := k0.map (· ^^^ (0x36 ^^^ 0x5c))
  let ctx ← code.appendUint code.init k0
  let ctx ← code.appendUint ctx digest
  let digest := code.rtEnd ctx
  .ok (if code.digestSize < macLen.toNat then digest.take code.digestSize
    else digest.take macLen.toNat)

end HashCode

/-! ## 2. A message in pieces -/

/-- **The code computes a hash function**: each part of it the part of the function of that name. -/
structure HashCode.Implements {W V : Type} (code : HashCode W) (s : BlockHash V) (toSpec : W → V) :
    Prop where
  initial : toSpec code.defaultHashValue = s.initial
  compress : ∀ h block, block.length = 64 → toSpec (code.hash h block) = s.compress (toSpec h) block
  lengthOctets : ∀ n, code.lengthOctets (UInt64.ofNat n) = s.lengthOctets n
  octets : ∀ h, code.octets h = s.digest (toSpec h)
  digestSize : ∀ h, (s.digest h).length = code.digestSize

/-- **A context holds a message**, with its length in octets modulo `2⁶⁴`. -/
structure HashCtx.Holds {W V : Type} (s : BlockHash V) (toSpec : W → V) (ctx : HashCtx W)
    (message : List UInt8) : Prop where
  holds : s.Holds (toSpec ctx.hashValue) ctx.block message
  messageLen : ctx.messageLen = UInt64.ofNat message.length

namespace HashCode

variable {W V : Type} {code : HashCode W} {s : BlockHash V} {toSpec : W → V} {ctx : HashCtx W}
  {message piece : List UInt8}

@[simp] theorem rtHash_messageLen (ctx : HashCtx W) :
    (code.rtHash ctx).messageLen = ctx.messageLen := rfl

theorem appendLoop_messageLen (passes : Nat) (ctx : HashCtx W) (message : List UInt8) :
    (code.appendLoop passes ctx message).messageLen = ctx.messageLen := by
  induction passes generalizing ctx message with
  | zero => rfl
  | succ passes ih =>
    rw [appendLoop]
    split_ifs
    · rfl
    · rfl
    · rw [ih, rtHash_messageLen]

section

variable (hcode : code.Implements s toSpec)

include hcode

/-- A block is closed. -/
theorem Implements.close (h : s.Holds (toSpec ctx.hashValue) ctx.block message)
    (hlen : message.length % 64 + piece.length = 64) :
    s.Holds (toSpec (code.rtHash { ctx with block := ctx.block ++ piece }).hashValue) []
      (message ++ piece) := by
  have hfull : (ctx.block ++ piece).length = 64 := by
    rw [List.length_append, h.length_begun, hlen]
  have hvalue : toSpec (code.rtHash { ctx with block := ctx.block ++ piece }).hashValue =
      s.compress (toSpec ctx.hashValue) (ctx.block ++ piece) := by
    rw [rtHash]
    dsimp only
    rw [hashBlockSize, List.takeD_eq_take 0 (by omega), List.take_of_length_le (by omega),
      hcode.compress _ _ hfull]
  rw [hvalue]
  exact h.close hlen

/-- The loop over a piece. -/
theorem Implements.appendLoop {passes : Nat} (h : s.Holds (toSpec ctx.hashValue) ctx.block message)
    (hpasses : piece.length ≤ passes) :
    s.Holds (toSpec (code.appendLoop passes ctx piece).hashValue)
      (code.appendLoop passes ctx piece).block (message ++ piece) := by
  induction passes generalizing ctx message piece with
  | zero =>
    rw [List.eq_nil_of_length_eq_zero (Nat.le_zero.mp hpasses), List.append_nil]
    exact h
  | succ passes ih =>
    have hblock := h.length_begun
    rw [HashCode.appendLoop]
    by_cases hnil : piece.length = 0
    · rw [if_pos hnil, List.eq_nil_of_length_eq_zero hnil, List.append_nil]
      exact h
    · rw [if_neg hnil]
      by_cases hshort : ctx.block.length + piece.length < hashBlockSize
      · rw [if_pos hshort]
        exact h.short (hblock ▸ hshort)
      · rw [if_neg hshort]
        -- the block is closed with what there is room for, and the rest is the loop's
        obtain ⟨room, hroom⟩ : ∃ room, room = hashBlockSize - ctx.block.length := ⟨_, rfl⟩
        rw [← hroom]
        rw [hashBlockSize] at hshort hroom
        have htake : (piece.take room).length = room := by
          rw [List.length_take]
          omega
        have hclose := hcode.close h (show message.length % 64 + (piece.take room).length = 64 by omega)
        have hdrop : (piece.drop room).length ≤ passes := by
          rw [List.length_drop]
          omega
        have hrest := ih hclose hdrop
        rwa [List.append_assoc, List.take_append_drop] at hrest

/-- **A piece is taken in**, however the message was cut. -/
theorem Implements.append (h : ctx.Holds s toSpec message) (piece : List UInt8) :
    (code.append ctx piece).Holds s toSpec (message ++ piece) := by
  refine ⟨hcode.appendLoop h.holds (Nat.le_refl piece.length), ?_⟩
  rw [HashCode.append]
  dsimp only
  rw [appendLoop_messageLen, h.messageLen, List.length_append, UInt64.ofNat_add]

/-- **The digest is that of the message.** -/
theorem Implements.rtEnd (h : ctx.Holds s toSpec message) : code.rtEnd ctx = s.hash message := by
  have hbits : ctx.messageLen * 8 = UInt64.ofNat (8 * message.length) := by
    rw [h.messageLen, Nat.mul_comm, UInt64.ofNat_mul]
    rfl
  have hlength := s.length_lengthOctets (8 * message.length)
  have hhash : ∀ (w : HashCtx W) (l : List UInt8), l.length = 56 →
      toSpec (code.rtHash { w with block := l ++ s.lengthOctets (8 * message.length) }).hashValue =
        s.compress (toSpec w.hashValue) (l ++ s.lengthOctets (8 * message.length)) := by
    intro w l hl
    have hfull : (l ++ s.lengthOctets (8 * message.length)).length = 64 := by
      rw [List.length_append, hl, hlength]
    rw [rtHash]
    dsimp only
    rw [hashBlockSize, List.takeD_eq_take 0 (by omega), List.take_of_length_le (by omega),
      hcode.compress _ _ hfull]
  rw [HashCode.rtEnd, hbits, hcode.lengthOctets, hcode.octets, BlockHash.hash]
  by_cases hroom : 55 < ctx.block.length
  · rw [if_pos hroom, hhash _ _ (List.takeD_length _ _ _), h.holds.absorb_pad_two hroom, rtHash]
    dsimp only
    rw [List.takeD_nil, hcode.compress _ _ (List.takeD_length _ _ _)]
  · rw [if_neg hroom, hhash _ _ (List.takeD_length _ _ _),
      h.holds.absorb_pad_one (Nat.not_lt.mp hroom)]

theorem Implements.init : code.init.Holds s toSpec [] := by
  have hvalue : toSpec code.init.hashValue = s.initial := hcode.initial
  refine ⟨?_, rfl⟩
  rw [hvalue]
  exact BlockHash.holds_nil

end

/-! ## 3. Lengths as `UINT` -/

/-- A sum that fits a `UINT` is the number, and what is copied lies in the block. -/
theorem appendLoopUint_of_lt {passes : Nat} (hblock : ctx.block.length < 64)
    (hlt : ctx.block.length + piece.length < 2 ^ 32) :
    code.appendLoopUint passes ctx piece = .ok (code.appendLoop passes ctx piece) := by
  induction passes generalizing ctx piece with
  | zero => rfl
  | succ passes ih =>
    rw [appendLoopUint, HashCode.appendLoop, Nat.mod_eq_of_lt hlt]
    by_cases hnil : piece.length = 0
    · rw [if_pos hnil, if_pos hnil]
    · rw [if_neg hnil, if_neg hnil]
      by_cases hshort : ctx.block.length + piece.length < hashBlockSize
      · rw [if_pos hshort, if_pos hshort, Checked.access_ok (Nat.le_of_lt hshort),
          Checked.ok_bind]
      · rw [if_neg hshort, if_neg hshort]
        refine ih ?_ ?_
        · rw [rtHash]
          exact Nat.zero_lt_of_lt hblock
        · rw [rtHash, List.length_drop]
          dsimp only
          rw [List.length_nil]
          omega

/-- A sum that does not: the code takes it for a piece that fills no block, and copies the whole of
it behind the block begun. -/
theorem appendLoopUint_of_le {passes : Nat} (hpasses : 0 < passes) (hblock : ctx.block.length < 64)
    (hpiece : piece.length < 2 ^ 32) (hle : 2 ^ 32 ≤ ctx.block.length + piece.length) :
    code.appendLoopUint passes ctx piece = .error .outside := by
  obtain ⟨passes, rfl⟩ := Nat.exists_eq_succ_of_ne_zero (Nat.ne_of_gt hpasses)
  have hwrap : (ctx.block.length + piece.length) % 2 ^ 32 < hashBlockSize := by
    rw [hashBlockSize]
    omega
  rw [Nat.succ_eq_add_one, appendLoopUint, if_neg (by omega), if_pos hwrap, Checked.access_error (by
    rw [hashBlockSize]
    omega), Checked.error_bind]

/-- **`Append` with `UINT` lengths** is `Append`, up to a piece that with what is in the block comes to
`2³²` octets. -/
theorem appendUint_eq (hblock : ctx.block.length < 64) (hpiece : piece.length < 2 ^ 32) :
    code.appendUint ctx piece =
      if ctx.block.length + piece.length < 2 ^ 32 then .ok (code.append ctx piece)
      else .error .outside := by
  rw [appendUint]
  by_cases hlt : ctx.block.length + piece.length < 2 ^ 32
  · rw [if_pos hlt, appendLoopUint_of_lt hblock hlt, Checked.ok_bind]
    rfl
  · have hpasses : 0 < piece.length := by omega
    rw [if_neg hlt, appendLoopUint_of_le hpasses hblock hpiece (Nat.not_lt.mp hlt),
      Checked.error_bind]

end HashCode

/-- **Pieces that can be counted**: none of them, with what is left of the `n` octets before it behind
their whole blocks, comes to `2³²` octets. -/
def PiecesFit (n : Nat) : List (List UInt8) → Prop
  | [] => True
  | piece :: pieces => n % 64 + piece.length < 2 ^ 32 ∧ PiecesFit (n + piece.length) pieces

/-- **A piece**, behind a message. -/
theorem HashCtx.Holds.appendUint {W V : Type} {code : HashCode W} {s : BlockHash V} {toSpec : W → V}
    {ctx : HashCtx W} {message piece : List UInt8} (h : ctx.Holds s toSpec message)
    (hpiece : piece.length < 2 ^ 32) :
    code.appendUint ctx piece =
      if message.length % 64 + piece.length < 2 ^ 32 then .ok (code.append ctx piece)
      else .error .outside := by
  have hblock := h.holds.length_begun
  have hmod := Nat.mod_lt message.length (show 0 < 64 by decide)
  rw [HashCode.appendUint_eq (by omega) hpiece, hblock]

namespace HashCode

variable {W V : Type} {code : HashCode W} {s : BlockHash V} {toSpec : W → V} {ctx : HashCtx W}
  {message piece : List UInt8}

section

variable (hcode : code.Implements s toSpec)

include hcode

/-- **The pieces of a message**, one after the other. -/
theorem Implements.foldlM_appendUint {pieces : List (List UInt8)} (h : ctx.Holds s toSpec message)
    (hpieces : ∀ piece ∈ pieces, piece.length < 2 ^ 32) :
    (PiecesFit message.length pieces → ∃ ctx', pieces.foldlM code.appendUint ctx = .ok ctx' ∧
      ctx'.Holds s toSpec (message ++ pieces.flatten)) ∧
    (¬ PiecesFit message.length pieces →
      pieces.foldlM code.appendUint ctx = .error .outside) := by
  induction pieces generalizing ctx message with
  | nil =>
    refine ⟨fun _ => ⟨ctx, rfl, ?_⟩, fun hn => absurd trivial hn⟩
    rw [List.flatten_nil, List.append_nil]
    exact h
  | cons piece pieces ih =>
    have hstep : code.appendUint ctx piece = _ := h.appendUint (hpieces piece List.mem_cons_self)
    have hnext := hcode.append h piece
    have hrest := ih hnext fun p hp => hpieces p (List.mem_cons_of_mem _ hp)
    rw [List.foldlM_cons, PiecesFit, List.flatten_cons, ← List.append_assoc, hstep,
      ← List.length_append]
    by_cases hlt : message.length % 64 + piece.length < 2 ^ 32
    · rw [if_pos hlt, Checked.ok_bind]
      refine ⟨fun hfit => hrest.1 hfit.2, fun hn => hrest.2 fun hfit => hn ⟨hlt, hfit⟩⟩
    · rw [if_neg hlt, Checked.error_bind]
      exact ⟨fun hfit => absurd hfit.1 hlt, fun _ => rfl⟩

/-- **A message in pieces** is hashed as the whole, or a piece is copied past the block. -/
theorem Implements.rtHashPieces_eq {pieces : List (List UInt8)}
    (hpieces : ∀ piece ∈ pieces, piece.length < 2 ^ 32) :
    (PiecesFit 0 pieces → code.rtHashPieces pieces = .ok (s.hash pieces.flatten)) ∧
    (¬ PiecesFit 0 pieces → code.rtHashPieces pieces = .error .outside) := by
  obtain ⟨hfit, hwrap⟩ := hcode.foldlM_appendUint hcode.init hpieces
  refine ⟨fun h => ?_, fun h => ?_⟩
  · obtain ⟨ctx', hrun, hholds⟩ := hfit h
    rw [rtHashPieces, hrun, Checked.ok_bind, hcode.rtEnd hholds]
    rfl
  · rw [rtHashPieces, hwrap h, Checked.error_bind]

/-- One piece alone always can be counted. -/
theorem Implements.rtHashMessage_eq (hmessage : message.length < 2 ^ 32) :
    code.rtHashMessage message = .ok (s.hash message) := by
  have hstep : code.appendUint code.init message = _ := hcode.init.appendUint hmessage
  have hnext := hcode.append hcode.init message
  rw [rtHashMessage, hstep, if_pos (by rw [List.length_nil]; omega), Checked.ok_bind,
    hcode.rtEnd hnext]
  rfl

/-- The pad of an HMAC is a block, so what is behind it is counted from a new block on. -/
theorem Implements.rtEnd_pad {pad : List UInt8} (hpad : pad.length = 64)
    (hmessage : message.length < 2 ^ 32) :
    ∃ ctx₁ ctx₂, code.appendUint code.init pad = .ok ctx₁ ∧ code.appendUint ctx₁ message = .ok ctx₂ ∧
      code.rtEnd ctx₂ = s.hash (pad ++ message) := by
  have hfirst := hcode.append hcode.init pad
  have hsecond := hcode.append hfirst message
  rw [List.nil_append] at hfirst hsecond
  refine ⟨code.append code.init pad, _, ?_, ?_, hcode.rtEnd hsecond⟩
  · rw [hcode.init.appendUint (by omega), List.length_nil, if_pos (by omega)]
  · rw [hfirst.appendUint hmessage, if_pos (by omega)]

/-- **HMAC.** -/
theorem Implements.rtHmac_eq {key : List UInt8} (hkey : key.length < 2 ^ 32)
    (hmessage : message.length < 2 ^ 32) (hdigest : code.digestSize < 2 ^ 32) (macLen : UInt32) :
    code.rtHmac key message macLen =
      .ok ((Fips180.hmac s.hash 64 key message).take macLen.toNat) := by
  have hkey0 : code.hmacKey key =
      .ok ((if key.length ≤ 64 then key else s.hash key).takeD 64 0) := by
    rw [hmacKey]
    by_cases hle : key.length ≤ hashBlockSize
    · rw [if_pos hle, if_pos hle]
    · rw [if_neg hle, if_neg hle, hcode.rtHashMessage_eq hkey, Checked.ok_bind]
  obtain ⟨k0, hk0⟩ : ∃ k0, k0 = (if key.length ≤ 64 then key else s.hash key).takeD 64 0 := ⟨_, rfl⟩
  have hlen : k0.length = 64 := by rw [hk0, List.takeD_length]
  -- the second pad is made of the first
  have hopad : (k0.map (· ^^^ 0x36)).map (· ^^^ (0x36 ^^^ 0x5c)) = k0.map (· ^^^ 0x5c) := by
    rw [List.map_map]
    refine List.map_congr_left fun b _ => ?_
    rw [Function.comp_apply, ← UInt8.xor_assoc, UInt8.xor_assoc b, UInt8.xor_self, UInt8.xor_zero]
  obtain ⟨ctx₁, ctx₂, h₁, h₂, hinner⟩ := hcode.rtEnd_pad
    (show (k0.map (· ^^^ 0x36)).length = 64 by rw [List.length_map, hlen]) hmessage
  have hlenInner : (code.rtEnd ctx₂).length = code.digestSize := by
    rw [hinner, BlockHash.hash, hcode.digestSize]
  obtain ⟨ctx₃, ctx₄, h₃, h₄, houter⟩ := hcode.rtEnd_pad
    (show (k0.map (· ^^^ 0x5c)).length = 64 by rw [List.length_map, hlen])
    (show (code.rtEnd ctx₂).length < 2 ^ 32 by omega)
  have hlenOuter : (code.rtEnd ctx₄).length = code.digestSize := by
    rw [houter, BlockHash.hash, hcode.digestSize]
  have hmac : code.rtEnd ctx₄ = Fips180.hmac s.hash 64 key message := by
    rw [houter, hinner, hk0, Fips180.hmac]
  rw [rtHmac, hkey0, Checked.ok_bind, ← hk0]
  dsimp only
  rw [h₁, Checked.ok_bind, h₂, Checked.ok_bind, hopad, h₃, Checked.ok_bind, h₄, Checked.ok_bind,
    ← hmac]
  by_cases hlong : code.digestSize < macLen.toNat
  · rw [if_pos hlong, List.take_of_length_le (by omega), List.take_of_length_le (by omega)]
  · rw [if_neg hlong]

end

end HashCode

end Mt7601.Crypt
