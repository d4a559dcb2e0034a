/-
# The AES key wrap

`AES_Key_Wrap` and `AES_Key_Unwrap` of `common/crypt_aes.c` for every length of key, against the key
wrap of RFC 3394 over the cipher of FIPS 197. Two things set the code apart from it:

* the number of a step is added to the last octet of `IV` alone, so from the 256th step on, that is
  from 43 half blocks on, the steps are counted modulo 256;
* `AES_Key_Unwrap` never looks at the integrity value it recovers.

`aesKeyWrap_text` and `aesKeyUnwrap_text` say that the code is RFC 3394 with the steps counted
modulo 256; the rest is read off the library.
-/
import Mt7601.Crypt.AesKeys
import Mt7601.Lib.KeyWrap
import Mt7601.Wpa.Crypto

namespace Mt7601.Wpa

open Crypt KeyWrap

/-! ## 1. The two functions -/

/-- The primitives with AES at a KEK of any length: what the loops of the two functions call. -/
def Crypto.ofKek (kek : AesKey) : Crypto :=
  { Crypto.driver with
    aesEncrypt := fun _ => rtAesEncryptOf kek
    aesDecrypt := fun _ => rtAesDecryptOf kek }

/-- `AES_Key_Wrap`, given its memory: the text and `*CipherTextLength`, or the error code. -/
def aesKeyWrapOf (key plainText : List UInt8) : Except Int (List UInt8 × Nat) :=
  if h : key.length = 16 ∨ key.length = 24 ∨ key.length = 32 then
    .ok (aesKeyWrap (.ofKek ⟨key, h⟩) (.zero 16) plainText, (plainText.length + 8) % 2 ^ 32)
  else .error (-1)

/-- `AES_Key_Unwrap`, given its memory: the text and `*PlainTextLength`, or the error code. -/
def aesKeyUnwrapOf (key cipherText : List UInt8) (cipherTextLength : Nat) :
    Except Int (List UInt8 × Nat) :=
  if h : key.length = 16 ∨ key.length = 24 ∨ key.length = 32 then
    .ok (aesKeyUnwrap (.ofKek ⟨key, h⟩) (.zero 16) cipherText cipherTextLength,
      unwrapLength cipherTextLength)
  else .error (-1)

/-! ## 2. Half blocks and octets -/

/-- The text of the half blocks. -/
def flat {n : Nat} (r : Fin n → Octets 8) : List UInt8 :=
  (List.ofFn r).flatMap List.Vector.toList

/-- The first `n` half blocks of a text. -/
def halfBlocks (n : Nat) (text : List UInt8) : Fin n → Octets 8 := fun i =>
  .ofList 8 (Mem.read text (i * 8) 8)

/-- The text of the registers: `A`, then the half blocks. -/
def registersText {n : Nat} (s : Registers (Octets 8) n) : List UInt8 :=
  s.a.toList ++ flat s.r

/-- The registers of a wrapped text with `n` half blocks. -/
def textRegisters (n : Nat) (text : List UInt8) : Registers (Octets 8) n :=
  ⟨.ofList 8 (Mem.read text 0 8), halfBlocks n (text.drop 8)⟩

theorem length_flatMap_octets (l : List (Octets 8)) :
    (l.flatMap List.Vector.toList).length = l.length * 8 := by
  induction l with
  | nil => rfl
  | cons x l ih =>
    rw [List.flatMap_cons, List.length_append, ih, List.Vector.toList_length, List.length_cons]
    omega

/-- A text cut at a half block. -/
theorem flatMap_octets_split {l : List (Octets 8)} {i : Nat} (h : i < l.length) :
    l.flatMap List.Vector.toList = (l.take i).flatMap List.Vector.toList ++
      (l[i].toList ++ (l.drop (i + 1)).flatMap List.Vector.toList) := by
  conv_lhs => rw [← List.take_append_drop i l, List.drop_eq_getElem_cons h]
  rw [List.flatMap_append, List.flatMap_cons]

theorem length_flatMap_take {l : List (Octets 8)} {i : Nat} (h : i < l.length) :
    i * 8 = ((l.take i).flatMap List.Vector.toList).length := by
  rw [length_flatMap_octets, List.length_take, Nat.min_eq_left (Nat.le_of_lt h)]

section

variable {n : Nat} (r : Fin n → Octets 8)

@[simp] theorem length_flat : (flat r).length = n * 8 := by
  rw [flat, length_flatMap_octets, List.length_ofFn]

theorem read_flat (i : Fin n) : Mem.read (flat r) (i * 8) 8 = (r i).toList := by
  have hi : i.val < (List.ofFn r).length := by
    rw [List.length_ofFn]
    exact i.isLt
  have hread := Mem.read_middle _ _ (flatMap_octets_split hi) (length_flatMap_take hi)
    (List.Vector.toList_length _).symm
  rwa [List.getElem_ofFn] at hread

theorem write_flat (i : Fin n) (b : Octets 8) :
    Mem.write (flat r) (i * 8) b.toList = flat (Function.update r i b) := by
  have hi : i.val < (List.ofFn r).length := by
    rw [List.length_ofFn]
    exact i.isLt
  have hset : List.ofFn (Function.update r i b) = (List.ofFn r).set i b := by
    refine List.ext_getElem (by simp) fun j hj _ => ?_
    rw [List.getElem_ofFn, List.getElem_set, Function.update_apply, List.getElem_ofFn]
    simp only [Fin.ext_iff, eq_comm]
  rw [flat, Mem.write_middle _ _ (flatMap_octets_split hi) (length_flatMap_take hi) (by simp),
    flat, hset, List.set_eq_take_append_cons_drop, if_pos hi, List.flatMap_append,
    List.flatMap_cons]

theorem halfBlocks_flat (rest : List UInt8) : halfBlocks n (flat r ++ rest) = r := by
  funext i
  have hi := i.isLt
  have hread : Mem.read (flat r ++ rest) (i * 8) 8 = Mem.read (flat r) (i * 8) 8 := by
    rw [Mem.read_eq_take (by rw [List.length_append, length_flat]; omega),
      Mem.read_eq_take (by rw [length_flat]; omega),
      List.drop_append_of_le_length (by rw [length_flat]; omega),
      List.take_append_of_le_length (by rw [List.length_drop, length_flat]; omega)]
  rw [halfBlocks, hread, read_flat, Octets.ofList_toList]

end

/-- A text of whole half blocks is the text of its half blocks. -/
theorem flat_halfBlocks {n : Nat} {text : List UInt8} (h : text.length = n * 8) :
    flat (halfBlocks n text) = text := by
  induction n generalizing text with
  | zero =>
    rw [Nat.zero_mul, List.length_eq_zero_iff] at h
    rw [h]
    rfl
  | succ n ih =>
    have hrest : (text.drop 8).length = n * 8 := by
      rw [List.length_drop]
      omega
    have hsucc : ∀ i : Fin n, halfBlocks (n + 1) text i.succ = halfBlocks n (text.drop 8) i := by
      intro i
      rw [halfBlocks, halfBlocks, Mem.read, Mem.read, List.drop_drop, Fin.val_succ, Nat.add_mul,
        Nat.one_mul, Nat.add_comm 8]
    have hfirst : (halfBlocks (n + 1) text 0).toList = text.take 8 := by
      rw [halfBlocks, Octets.toList_ofList, Mem.read_eq_take (by simp; omega)]
      simp only [Fin.val_zero, Nat.zero_mul, List.drop_zero]
      rw [List.takeD_eq_take 0 (by rw [List.length_take]; omega), List.take_take, Nat.min_self]
    rw [flat, List.ofFn_succ, List.flatMap_cons, hfirst]
    simp only [hsucc]
    rw [← flat, ih hrest, List.take_append_drop]

/-- A text of whole half blocks is that of its registers. -/
theorem registersText_textRegisters {n : Nat} {text : List UInt8} (h : text.length = n * 8 + 8) :
    registersText (textRegisters n text) = text := by
  have hrest : (text.drop 8).length = n * 8 := by
    rw [List.length_drop, h, Nat.add_sub_cancel]
  rw [registersText, textRegisters, flat_halfBlocks hrest, Octets.toList_ofList,
    Mem.read_eq_take (by omega), List.drop_zero,
    List.takeD_eq_take 0 (by rw [List.length_take]; omega), List.take_take, Nat.min_self,
    List.take_append_drop]

theorem textRegisters_registersText {n : Nat} (s : Registers (Octets 8) n) :
    textRegisters n (registersText s) = s := by
  have ha : s.a.toList.length = 8 := s.a.toList_length
  have hread := Mem.read_zero_of_append (l := s.a.toList) (m := flat s.r)
  have hr := halfBlocks_flat s.r []
  rw [ha] at hread
  rw [List.append_nil] at hr
  rw [textRegisters, registersText, hread, Octets.ofList_toList, List.drop_left' ha, hr]

/-! ## 3. RFC 3394 -/

/-- A block as two half blocks, and back. -/
def splitBlock (b : Octets 16) : Octets 8 × Octets 8 := (b.slice 0 8, b.slice 8 8)

def joinBlock (p : Octets 8 × Octets 8) : Octets 16 := .ofList 16 (p.1.toList ++ p.2.toList)

theorem joinBlock_splitBlock (b : Octets 16) : joinBlock (splitBlock b) = b :=
  Octets.ofList_slice_append (m := 8) (n := 8) b

theorem splitBlock_joinBlock (p : Octets 8 × Octets 8) : splitBlock (joinBlock p) = p := by
  obtain ⟨hfirst, hsecond⟩ := Octets.slice_append (n := 8) p.1 p.2.toList_length
  exact Prod.ext hfirst (Octets.toList_injective hsecond)

/-- The number of a step added to a half block, of which it has eight octets. -/
def addCount (t : Nat) (a : Octets 8) : Octets 8 :=
  List.Vector.ofFn fun i => a.get i ^^^ UInt8.ofNat (t / 256 ^ (7 - i.val))

theorem addCount_addCount (t : Nat) (a : Octets 8) : addCount t (addCount t a) = a := by
  refine List.Vector.ext fun i => ?_
  rw [addCount, addCount, List.Vector.get_ofFn, List.Vector.get_ofFn, UInt8.xor_assoc,
    UInt8.xor_self, UInt8.xor_zero]

/-- The key wrap under `kek`, the steps counted by `count`. -/
def keyWrapScheme (kek : AesKey) (count : Nat → Nat) : Scheme (Octets 8) where
  cipher :=
    { toFun := fun p => splitBlock (Fips197.cipher kek.octets (joinBlock p))
      invFun := fun p => splitBlock (rtAesDecryptOf kek (joinBlock p))
      left_inv := fun p => by
        dsimp only
        rw [joinBlock_splitBlock, ← rtAesEncryptOf_eq, rtAesDecryptOf_rtAesEncryptOf,
          splitBlock_joinBlock]
      right_inv := fun p => by
        dsimp only
        rw [joinBlock_splitBlock, ← rtAesEncryptOf_eq, rtAesEncryptOf_rtAesDecryptOf,
          splitBlock_joinBlock] }
  mark := fun t => ⟨addCount (count t), addCount (count t), addCount_addCount _, addCount_addCount _⟩

/-- The wrapping of a text of whole half blocks. -/
def wrapText (kek : AesKey) (count : Nat → Nat) (p : List UInt8) : List UInt8 :=
  registersText ((keyWrapScheme kek count).wrap defaultIv (halfBlocks (p.length / 8) p))

/-- The key wrap of RFC 3394. -/
def rfc3394Wrap (kek : AesKey) (p : List UInt8) : List UInt8 := wrapText kek id p

/-- The same with the steps counted modulo 256. -/
def octetCountWrap (kek : AesKey) (p : List UInt8) : List UInt8 := wrapText kek (· % 256) p

/-! ## 4. The loops are RFC 3394 but for the count -/

/-- `IV` and `pResult`, from the registers. -/
def loopState {n : Nat} (s : Registers (Octets 8) n) : Octets 8 × List UInt8 := (s.a, flat s.r)

/-- The number of a step as it is added to the last octet. -/
theorem xorCount_eq (a : Octets 8) (n : Nat) (ji : Nat × Nat) :
    xorCount a n ji = addCount ((n * ji.1 + ji.2 + 1) % 256) a := by
  refine List.Vector.ext fun i => ?_
  rw [xorCount, addCount, List.Vector.get_ofFn]
  by_cases hi : i = 7
  · subst hi
    have hlast : ∀ t : Nat, UInt8.ofNat (t % 256 / 256 ^ (7 - 7)) = UInt8.ofNat t := by
      intro t
      rw [Nat.sub_self, Nat.pow_zero, Nat.div_one]
      exact UInt8.toNat_inj.1 (by simp)
    rw [List.Vector.get_set_same, ← hlast]
    rfl
  · have hpow : 256 ^ 1 ≤ 256 ^ (7 - i.val) :=
      Nat.pow_le_pow_right (by decide) (by omega)
    have hlt : (n * ji.1 + ji.2 + 1) % 256 < 256 := Nat.mod_lt _ (by decide)
    rw [List.Vector.get_set_of_ne (Ne.symm hi), Nat.div_eq_of_lt (by omega)]
    simp

section

variable {n : Nat} (kek : AesKey) (key : Octets 16)

theorem loopState_step (ji : Nat × Fin n) (s : Registers (Octets 8) n) :
    loopState ((keyWrapScheme kek (· % 256)).step ji s) =
      wrapRound (.ofKek kek) key n (ji.1, ji.2) (loopState s) := by
  have hcipher : ∀ b, (Crypto.ofKek kek).aesEncrypt key b = Fips197.cipher kek.octets b :=
    rtAesEncryptOf_eq kek
  rw [wrapRound, loopState, loopState]
  dsimp only
  rw [read_flat, hcipher, xorCount_eq, write_flat]
  rfl

theorem loopState_unstep (ji : Nat × Fin n) (s : Registers (Octets 8) n) :
    loopState ((keyWrapScheme kek (· % 256)).unstep ji s) =
      unwrapRound (.ofKek kek) key n (ji.1, ji.2) (loopState s) := by
  rw [unwrapRound, loopState, loopState]
  dsimp only
  rw [read_flat, xorCount_eq, write_flat]
  rfl

theorem wrapIndices_eq : wrapIndices n = (Scheme.steps n).map fun ji => (ji.1, ji.2.val) := by
  rw [wrapIndices, Scheme.steps, List.map_flatMap]
  refine List.flatMap_congr fun j _ => ?_
  rw [List.map_map, ← List.map_coe_finRange_eq_range, List.map_map]
  rfl

/-- The loops of `AES_Key_Wrap`, on registers. -/
theorem rounds_wrapRound (s : Registers (Octets 8) n) :
    Cipher.rounds (wrapRound (.ofKek kek) key n) (loopState s) (wrapIndices n) =
      loopState (Cipher.rounds (keyWrapScheme kek (· % 256)).step s (Scheme.steps n)) := by
  rw [Cipher.rounds_comm loopState fun ji s => loopState_step kek key ji s, wrapIndices_eq,
    Cipher.rounds, Cipher.rounds, List.foldl_map]

/-- The loops of `AES_Key_Unwrap`, on registers. -/
theorem rounds_unwrapRound (s : Registers (Octets 8) n) :
    Cipher.rounds (unwrapRound (.ofKek kek) key n) (loopState s) (wrapIndices n).reverse =
      loopState ((keyWrapScheme kek (· % 256)).recover s) := by
  rw [Scheme.recover, Cipher.rounds_comm loopState fun ji s => loopState_unstep kek key ji s,
    wrapIndices_eq, ← List.map_reverse, Cipher.rounds, Cipher.rounds, List.foldl_map]

end

/-- **`AES_Key_Wrap`** is the key wrap with the steps counted modulo 256. -/
theorem aesKeyWrap_text (kek : AesKey) (key : Octets 16) {p : List UInt8} (h : 8 ∣ p.length) :
    aesKeyWrap (.ofKek kek) key p = octetCountWrap kek p := by
  have hp : p.length = p.length / 8 * 8 := (Nat.div_mul_cancel h).symm
  have hstart : (defaultIv, p) = loopState ⟨defaultIv, halfBlocks (p.length / 8) p⟩ := by
    rw [loopState, flat_halfBlocks hp]
  rw [aesKeyWrap, hstart, rounds_wrapRound]
  rfl

/-- What the steps taken back leave of a wrapped text: the integrity value and the text. -/
def recoverText (kek : AesKey) (count : Nat → Nat) (c : List UInt8) : Octets 8 × List UInt8 :=
  loopState ((keyWrapScheme kek count).recover (textRegisters (c.length / 8 - 1) c))

/-- **`AES_Key_Unwrap`** gives the text that is recovered with the steps counted modulo 256,
whatever integrity value comes with it. -/
theorem aesKeyUnwrap_text (kek : AesKey) (key : Octets 16) {c : List UInt8} {length : Nat}
    (hmod : 8 ∣ c.length) (hmin : 24 ≤ c.length) (hlength : unwrapLength length = c.length - 8) :
    aesKeyUnwrap (.ofKek kek) key c length = (recoverText kek (· % 256) c).2 := by
  obtain ⟨m, hm⟩ := hmod
  set n := c.length / 8 - 1 with hn
  have hc : registersText (textRegisters n c) = c := registersText_textRegisters (by omega)
  set s := textRegisters n c with hs
  have ha : s.a.toList.length = 8 := s.a.toList_length
  have hiv := Mem.read_zero_of_append (l := s.a.toList) (m := flat s.r)
  have htext : Mem.read (registersText s) 8 (n * 8) = flat s.r :=
    Mem.read_middle s.a.toList [] (by rw [registersText, List.append_nil]) ha.symm
      (length_flat s.r).symm
  have hloops := congrArg Prod.snd (rounds_unwrapRound kek key s)
  rw [ha] at hiv
  rw [aesKeyUnwrap, hlength, show c.length - 8 = n * 8 by omega, recoverText, ← hn, ← hs,
    ← hloops, unwrapBlocks, ← hc, htext, registersText, hiv, Octets.ofList_toList,
    Nat.mul_div_cancel _ (by decide)]
  rfl

/-! ## 5. What they meet -/

theorem length_wrapText (kek : AesKey) (count : Nat → Nat) {p : List UInt8} (h : 8 ∣ p.length) :
    (wrapText kek count p).length = p.length + 8 := by
  rw [wrapText, registersText, List.length_append, length_flat, List.Vector.toList_length,
    Nat.div_mul_cancel h, Nat.add_comm]

/-- A text is the wrapping of what is recovered from it, if the integrity value is right. -/
theorem wrapText_eq_iff (kek : AesKey) (count : Nat → Nat) {p c : List UInt8}
    (hp : 8 ∣ p.length) (hc : 8 ∣ c.length) (hmin : 8 ≤ c.length) :
    wrapText kek count p = c ↔ recoverText kek count c = (defaultIv, p) := by
  obtain ⟨m, hm⟩ := hp
  obtain ⟨l, hl⟩ := hc
  constructor
  · rintro rfl
    have hlen : (wrapText kek count p).length / 8 - 1 = p.length / 8 := by
      rw [length_wrapText kek count ⟨m, hm⟩]
      omega
    rw [recoverText, hlen, wrapText, textRegisters_registersText, Scheme.recover_wrap, loopState,
      flat_halfBlocks (by omega)]
  · intro h
    rw [recoverText, loopState, Prod.mk.injEq] at h
    obtain ⟨hiv, hr⟩ := h
    have hlen := congrArg List.length hr
    rw [length_flat] at hlen
    have hwrap := (keyWrapScheme kek count).wrap_recover (textRegisters (c.length / 8 - 1) c)
    have hhalf := halfBlocks_flat
      ((keyWrapScheme kek count).recover (textRegisters (c.length / 8 - 1) c)).r []
    rw [List.append_nil, hr] at hhalf
    rw [wrapText, ← hlen, Nat.mul_div_cancel _ (by decide), hhalf, ← hiv, hwrap,
      registersText_textRegisters (by omega)]

/-- Up to the 255th step the two counts are one, in wrapping and in unwrapping. -/
theorem mark_octetCount (kek : AesKey) {n t : Nat} (hn : 6 * n < 256) (ht : t ≤ 6 * n) :
    (keyWrapScheme kek (· % 256)).mark t = (keyWrapScheme kek id).mark t := by
  have hmod : t % 256 = t := Nat.mod_eq_of_lt (by omega)
  simp [keyWrapScheme, hmod]

theorem octetCountWrap_eq (kek : AesKey) {p : List UInt8} (h : 6 * (p.length / 8) < 256) :
    octetCountWrap kek p = rfc3394Wrap kek p := by
  rw [octetCountWrap, rfc3394Wrap, wrapText, wrapText,
    Scheme.wrap_congr (keyWrapScheme kek (· % 256)) (T := keyWrapScheme kek id) rfl
      fun _ _ => mark_octetCount kek h]

theorem recoverText_octetCount (kek : AesKey) {c : List UInt8}
    (h : 6 * (c.length / 8 - 1) < 256) :
    recoverText kek (· % 256) c = recoverText kek id c := by
  rw [recoverText, recoverText,
    Scheme.recover_congr (keyWrapScheme kek (· % 256)) (T := keyWrapScheme kek id) rfl
      fun _ _ => mark_octetCount kek h]

/-- `AES_Key_Unwrap` succeeds on a text exactly if it is a wrapping, and gives what was wrapped. -/
structure UnwrapExact (kek : AesKey) (c : List UInt8) : Prop where
  succeeds : (∃ r, aesKeyUnwrapOf kek.octets c c.length = .ok r) ↔
    ∃ p : List UInt8, 8 ∣ p.length ∧ rfc3394Wrap kek p = c
  returns : ∀ p : List UInt8, 8 ∣ p.length → rfc3394Wrap kek p = c →
    aesKeyUnwrapOf kek.octets c c.length = .ok (p, p.length)

theorem aesKeyWrapOf_eq (kek : AesKey) {p : List UInt8} (h : 8 ∣ p.length) :
    aesKeyWrapOf kek.octets p = .ok (octetCountWrap kek p, (p.length + 8) % 2 ^ 32) := by
  rw [aesKeyWrapOf, dif_pos kek.length_mem, aesKeyWrap_text _ _ h]

theorem aesKeyUnwrapOf_eq (kek : AesKey) {c : List UInt8} {length : Nat} (hmod : 8 ∣ c.length)
    (hmin : 24 ≤ c.length) (hlength : unwrapLength length = c.length - 8) :
    aesKeyUnwrapOf kek.octets c length =
      .ok ((recoverText kek (· % 256) c).2, c.length - 8) := by
  rw [aesKeyUnwrapOf, dif_pos kek.length_mem, aesKeyUnwrap_text _ _ hmod hmin hlength, hlength]

/-- The wrappings are the texts with the right integrity value. -/
theorem exists_rfc3394Wrap_iff (kek : AesKey) {c : List UInt8} (hmod : 8 ∣ c.length)
    (hmin : 8 ≤ c.length) :
    (∃ p : List UInt8, 8 ∣ p.length ∧ rfc3394Wrap kek p = c) ↔
      (recoverText kek id c).1 = defaultIv := by
  constructor
  · rintro ⟨p, hp, hwrap⟩
    rw [(wrapText_eq_iff kek id hp hmod hmin).1 hwrap]
  · intro hiv
    have hlen : 8 ∣ (recoverText kek id c).2.length :=
      ⟨c.length / 8 - 1, by rw [recoverText, loopState, length_flat, Nat.mul_comm]⟩
    refine ⟨(recoverText kek id c).2, hlen, ?_⟩
    rw [rfc3394Wrap, wrapText_eq_iff kek id hlen hmod hmin, ← hiv]

theorem unwrapExact_iff (kek : AesKey) {c : List UInt8} (hmod : 8 ∣ c.length)
    (hmin : 24 ≤ c.length) (hmax : c.length < 2 ^ 32) :
    UnwrapExact kek c ↔ (recoverText kek id c).1 = defaultIv ∧
      (recoverText kek (· % 256) c).2 = (recoverText kek id c).2 := by
  have himage := exists_rfc3394Wrap_iff kek hmod (by omega)
  have hlength : unwrapLength c.length = c.length - 8 := by
    rw [unwrapLength]
    omega
  have hunwrap := aesKeyUnwrapOf_eq kek hmod hmin hlength
  constructor
  · intro h
    obtain ⟨p, hp, hwrap⟩ := h.succeeds.1 ⟨_, hunwrap⟩
    have hrecover := (wrapText_eq_iff kek id hp hmod (by omega)).1 hwrap
    have hreturns := hunwrap.symm.trans (h.returns p hp hwrap)
    rw [Except.ok.injEq, Prod.mk.injEq] at hreturns
    rw [hrecover]
    exact ⟨rfl, hreturns.1⟩
  · rintro ⟨hiv, htext⟩
    refine ⟨⟨fun _ => himage.2 hiv, fun _ => ⟨_, hunwrap⟩⟩, ?_⟩
    intro p hp hwrap
    have hrecover := (wrapText_eq_iff kek id hp hmod (by omega)).1 hwrap
    have hlen := length_wrapText kek id hp
    rw [rfc3394Wrap] at hwrap
    rw [hwrap] at hlen
    rw [hunwrap, htext, hrecover, hlen, Nat.add_sub_cancel]

/-- Unwrapping undoes wrapping: the two count alike. -/
theorem aesKeyUnwrapOf_aesKeyWrapOf (kek : AesKey) {p : List UInt8} (hmod : 8 ∣ p.length)
    (hmin : 16 ≤ p.length) (hmax : p.length < 2 ^ 32) :
    ∃ c length, aesKeyWrapOf kek.octets p = .ok (c, length) ∧
      aesKeyUnwrapOf kek.octets c length = .ok (p, p.length) := by
  have hlen : (octetCountWrap kek p).length = p.length + 8 :=
    length_wrapText kek (· % 256) hmod
  have hlength : unwrapLength ((p.length + 8) % 2 ^ 32) = (octetCountWrap kek p).length - 8 := by
    rw [hlen, unwrapLength]
    omega
  have hmod' : 8 ∣ (octetCountWrap kek p).length := by omega
  refine ⟨_, _, aesKeyWrapOf_eq kek hmod, ?_⟩
  rw [aesKeyUnwrapOf_eq kek hmod' (by omega) hlength,
    (wrapText_eq_iff kek (· % 256) hmod hmod' (by omega)).1 rfl, hlen, Nat.add_sub_cancel]

/-- **Wrapping and unwrapping.** Unwrapping does as RFC 3394 asks exactly where the integrity value
is right and the count modulo 256 gives the same text; it undoes wrapping in every case. Wrapping is
RFC 3394 exactly where the count modulo 256 makes no difference. Up to 42 half blocks it makes
none. -/
theorem aesKeyUnwrap_exact_iff (kek : AesKey) :
    (∀ c : List UInt8, 8 ∣ c.length → 24 ≤ c.length → c.length < 2 ^ 32 →
      ((∃ p : List UInt8, 8 ∣ p.length ∧ rfc3394Wrap kek p = c) ↔
          (recoverText kek id c).1 = defaultIv) ∧
        (UnwrapExact kek c ↔ (recoverText kek id c).1 = defaultIv ∧
          (recoverText kek (· % 256) c).2 = (recoverText kek id c).2)) ∧
    (∀ p : List UInt8, 8 ∣ p.length → 16 ≤ p.length → p.length < 2 ^ 32 →
      (∃ c length, aesKeyWrapOf kek.octets p = .ok (c, length) ∧
        aesKeyUnwrapOf kek.octets c length = .ok (p, p.length)) ∧
      (aesKeyWrapOf kek.octets p = .ok (rfc3394Wrap kek p, (p.length + 8) % 2 ^ 32) ↔
        octetCountWrap kek p = rfc3394Wrap kek p)) ∧
    (∀ p : List UInt8, 6 * (p.length / 8) < 256 → octetCountWrap kek p = rfc3394Wrap kek p) ∧
    ∀ c : List UInt8, 6 * (c.length / 8 - 1) < 256 →
      recoverText kek (· % 256) c = recoverText kek id c := by
  refine ⟨?_, ?_, fun _ => octetCountWrap_eq kek, fun _ => recoverText_octetCount kek⟩
  · intro c hmod hmin hmax
    exact ⟨exists_rfc3394Wrap_iff kek hmod (by omega), unwrapExact_iff kek hmod hmin hmax⟩
  · intro p hmod hmin hmax
    refine ⟨aesKeyUnwrapOf_aesKeyWrapOf kek hmod hmin hmax, ?_⟩
    rw [aesKeyWrapOf_eq kek hmod, Except.ok.injEq, Prod.mk.injEq]
    exact and_iff_left rfl

namespace Example

/-- A KEK of zeros. -/
def zeroKek : AesKey := .ofOctets (.zero 16)

/-- Sixteen octets of zeros, wrapped with another integrity value. -/
def otherIv : List UInt8 :=
  registersText ((keyWrapScheme zeroKek id).wrap (.zero 8) fun _ : Fin 2 => .zero 8)

theorem length_otherIv : otherIv.length = 24 := by
  rw [otherIv, registersText, List.length_append, length_flat, List.Vector.toList_length]

/-- It is unwrapped, although it is no wrapping. -/
theorem not_unwrapExact_otherIv : ¬ UnwrapExact zeroKek otherIv := by
  intro h
  have hlen := length_otherIv
  have hiv := ((unwrapExact_iff zeroKek (by omega) (by omega) (by omega)).1 h).1
  rw [recoverText, hlen, otherIv, textRegisters_registersText, Scheme.recover_wrap] at hiv
  exact absurd hiv (by decide)

end Example

end Mt7601.Wpa
