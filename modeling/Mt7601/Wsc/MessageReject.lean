/-
# Messages that are rejected

A message M2 to M8 whose authenticators do not verify, whose nonce is not ours or that is rejected
leaves hashes, secret nonces, keys and credentials as they were (`RejectLaw`).

The handlers store while they read and verify afterwards, if at all, and nothing that is stored is
taken back. So the law holds of a message that is not to be stored exactly if it has nothing to store
that is not there already (`Restored`).
-/
import Mt7601.Wsc.MessageFields

namespace Mt7601.Wsc

open Checked (Safe sub)
open Tlv (Attr)

/-! ## 1. The law -/

/-- Keys, hashes and secret nonces. -/
def guarded : List Field :=
  [.enrolleeRandom, .pke, .pkr, .secretKey, .authKey, .keyWrapKey, .emsk, .psk1, .psk2, .eHash1,
    .eHash2, .es1, .es2, .rHash1, .rHash2, .rs1, .rs2]

/-- Nothing of them is changed, and no credential. -/
structure WscBlock.Unchanged (b b' : WscBlock) : Prop where
  regs : ∀ f ∈ guarded, b'.regs f = b.regs f
  profile : b'.wscProfile = b.wscProfile
  m7 : b'.wscM7Profile = b.wscM7Profile

/-- A message and its spec. -/
def Message.spec : Message → MsgSpec
  | .m1 => m1Spec
  | .m2 => m2Spec
  | .m2D => m2DSpec
  | .m3 => m3Spec
  | .m4 => m4Spec
  | .m5 => m5Spec
  | .m6 => m6Spec
  | .m7 => m7Spec
  | .m8 => m8Spec

/-- The nonce that a message returns, and where ours is. -/
def Message.nonce : Message → Nat × Field
  | .m1 | .m2 => (wscIdEnrolleeNonce, .selfNonce)
  | .m3 | .m5 | .m7 => (wscIdRegistrarNonce, .registrarNonce)
  | .m2D | .m4 | .m6 | .m8 => (wscIdEnrolleeNonce, .enrolleeNonce)

/-- The block as a handler reads the message. -/
def WscBlock.received (C : WscCrypto) (env : Surroundings) (b : WscBlock) (msg : List UInt8) :
    Message → WscBlock
  | .m1 => b.receiveM1 C msg env.random
  | .m2 => b.receiveM2 msg
  | _ => b.receive msg

/-- The attributes that are read, each with what is deciphered at it. -/
def attributesRead (C : WscCrypto) (spec : MsgSpec) (b : WscBlock) :
    List (Attr × Option (List UInt8)) :=
  attrsRead C spec b.lastRx b (attrsOf b.lastRx)

/-- The fields with the values of a message. -/
def valuesStored (C : WscCrypto) (spec : MsgSpec) (b : WscBlock) : Regs := fun f =>
  overwritten (b.regs f) ((attributesRead C spec b).flatMap (valuesFor spec b.lastRx f))

/-- What a handler makes of the fields in the end: M2 has the keys of the session computed. -/
def Message.keys (C : WscCrypto) (r : Regs) : Message → Regs
  | .m2 => m2Keys C r
  | _ => r

/-- A message comes without its authenticator, or without an attribute. -/
def Fails (C : WscCrypto) (m : Message) (key : Octets 32) (b : WscBlock) (msg : List UInt8) :
    Prop :=
  ¬ Complete m.spec msg ∨ macOf m.spec msg ≠
    (C.hmacSha256 key.toList (b.lastTx ++ msg.take (msg.length - 12))).toList.take 8

section

variable (C : WscCrypto) (env : Surroundings) (b : WscBlock) (msg : List UInt8) (m : Message)

/-- Hashes, nonces and keys with what a message brings. -/
def Message.stored : Regs := m.keys C (valuesStored C m.spec (b.received C env msg m))

/-- A message ends in its authenticator, over the last one sent and itself. -/
def Verifies : Prop :=
  ∃ body, msg = body ++ [0x10, 0x05, 0, 8] ++
    (C.hmacSha256 (m.stored C env b msg .authKey).toList (b.lastTx ++ body)).toList.take 8

/-- Settings end in their authenticator. -/
def KeyWrapVerifies (plain : List UInt8) : Prop :=
  ∃ body, plain = body ++ [0x10, 0x1E, 0, 8] ++
    (C.hmacSha256 (b.regs .authKey).toList body).toList.take 8

/-- A message that is not to be stored: an authenticator that does not verify, or a nonce that is not
ours. -/
def NotToBeStored : Prop :=
  ¬ Verifies C env b msg m ∨
    (∃ p ∈ attributesRead C m.spec (b.received C env msg m), ∃ plain ∈ p.2,
      ¬ KeyWrapVerifies C b plain) ∨
    ∃ a ∈ attrsOf msg, a.type = m.nonce.1 ∧ a.value msg ≠ (b.regs m.nonce.2).toList

/-- **The law.** The handler comes to its end, and what is not to be stored, or is rejected, changes
nothing. -/
def RejectLaw : Prop :=
  ∃ b' ret, processMessage C env b msg m = .ok (b', ret) ∧
    (NotToBeStored C env b msg m ∨ ret ≠ wscErrorNoError → b.Unchanged b')

/-! ## 2. When it holds -/

/-- A message is rejected: it is not complete, its authenticator is not the one that is computed, a
commitment is not opened, credentials are refused, or there is no memory. -/
def Rejected : Prop :=
  let b' := b.received C env msg m
  let fails := Fails C m (m.stored C env b msg .authKey) b msg
  match m with
  | .m1 => ¬ Complete m.spec msg
  | .m2 | .m3 => fails
  | .m2D => False
  | .m4 => env.memory = false ∨ fails ∨ ¬ Opens C (valuesStored C m.spec b') .rHash1 .rs1 .psk1
  | .m5 => env.memory = false ∨ fails ∨ ¬ Opens C (valuesStored C m.spec b') .eHash1 .es1 .psk1
  | .m6 => env.memory = false ∨ fails ∨ ¬ Opens C (valuesStored C m.spec b') .rHash2 .rs2 .psk2
  | .m7 => env.memory = false ∨ fails
  | .m8 => env.memory = false ∨ fails ∨
      (attributesRead C m.spec b').any (refuses m.spec b.bCheckMultiByte b.bEnableWpsV2) = true

/-- A message is stored at all. -/
def Message.stores : Prop :=
  match m with
  | .m1 | .m2 | .m2D | .m3 => True
  | _ => env.memory = true

/-- **Nothing new is stored**: each field holds what the message has for it, and each profile. -/
structure Restored : Prop where
  regs : ∀ f ∈ guarded, m.stored C env b msg f = b.regs f
  profile : (attributesRead C m.spec (b.received C env msg m)).foldl
    (creditedAfter m.spec b.bCheckMultiByte b.bEnableWpsV2) b.wscProfile = b.wscProfile
  m7 : (attributesRead C m.spec (b.received C env msg m)).foldl
    (profileAfter m.spec b.staMode) b.wscM7Profile = b.wscM7Profile

end

/-! ## 3. The specs -/

/-- The fields that are followed: those that are guarded, and those that the keys are made of. -/
def followed : List Field := guarded ++ [.registrarNonce, .selfNonce, .selfMacAddr]

theorem Message.spec_after (m : Message) (r : Regs) {f : Field} (hf : f ≠ .wscPeerMAC) :
    m.spec.after r f = r f := by
  cases m with
  | m2 => exact Regs.put_of_ne _ _ hf
  | _ => rfl

theorem Message.spares (m : Message) {f : Field} (hf : f ∈ followed) : m.spec.Spares f := by
  have hacts : ∀ f ∈ followed, f ≠ .wscPeerMAC ∧ ∀ p ∈ m.spec.acts, f ∉ p.2.others := by
    cases m with
    | _ => decide +kernel
  exact ⟨(hacts f hf).2, fun r => m.spec_after r (hacts f hf).1⟩

theorem Message.keepsBuffer (m : Message) : m.spec.KeepsBuffer := by
  have hacts : ∀ p ∈ m.spec.acts,
      p.2.copiesTo .apEncrSettings = 0 ∧ (.apEncrSettings ∈ p.2.others → 0 < p.2.capacity) := by
    cases m with
    | _ => decide +kernel
  exact ⟨hacts, fun r => m.spec_after r (by decide)⟩

/-- A field that nothing is copied to and that settings do not have. -/
theorem valuesFor_eq_nil {spec : MsgSpec} {msg : List UInt8} {f : Field}
    (hcopies : ∀ q ∈ spec.acts, q.2.copiesTo f = 0) (hf : f ∉ [Field.es1, .es2, .rs1, .rs2])
    (p : Attr × Option (List UInt8)) : valuesFor spec msg f p = [] := by
  obtain ⟨a, plain⟩ := p
  unfold valuesFor
  dsimp only
  cases hact : spec.act a with
  | none => rfl
  | some act =>
    obtain ⟨l₁, l₂, hlist, -⟩ := List.lookup_eq_some_iff.1 hact
    have hnone : act.copiesTo f = 0 := hcopies (a.type, act) (by rw [hlist]; simp)
    have hsettings := settingValues_of_notMem hf
    cases act with
    | settings | m7Settings =>
      cases plain with
      | none => rfl
      | some plain => exact hsettings plain
    | copy fs =>
      dsimp only
      rw [hnone]
      rfl
    | _ => rfl

/-- No message has anything for this key. -/
theorem Message.valuesFor_keyWrapKey (m : Message) (msg : List UInt8)
    (p : Attr × Option (List UInt8)) : valuesFor m.spec msg .keyWrapKey p = [] := by
  have hcopies : ∀ q ∈ m.spec.acts, q.2.copiesTo .keyWrapKey = 0 := by
    cases m with
    | _ => decide +kernel
  exact valuesFor_eq_nil hcopies (by decide) p

/-- **What reading a message leaves.** -/
theorem Message.read_leaves (m : Message) (C : WscCrypto) (b : WscBlock) :
    AllLeave m.spec b.lastRx b (blockOf (messageStored C m.spec b))
        (attributesRead C m.spec b) ∧
      ((∃ blk, messageStored C m.spec b = .inr blk) ↔
        (attributesRead C m.spec b).any
          (refuses m.spec b.bCheckMultiByte b.bEnableWpsV2) = true) :=
  walk_leaves m.keepsBuffer ⟨m.spares (by decide), m.valuesFor_keyWrapKey b.lastRx⟩
    (attrsOf b.lastRx) (Reading.start m.spec b)

/-! ## 4. The handlers -/

/-- They agree on what is followed. -/
def Regs.Agree (r r' : Regs) : Prop := ∀ f ∈ followed, r f = r' f

theorem Regs.Agree.put {r r' : Regs} (h : r.Agree r') (g : Field) (l : List UInt8) :
    (r.put g l).Agree (r'.put g l) := by
  intro f hf
  by_cases hg : f = g
  · subst hg
    rw [Regs.put_self, Regs.put_self, h f hf]
  · rw [Regs.put_of_ne _ _ hg, Regs.put_of_ne _ _ hg, h f hf]

theorem m2Keys_agree (C : WscCrypto) {r r' : Regs} (h : r.Agree r') :
    (m2Keys C r).Agree (m2Keys C r') := by
  have hsecret : (r.put .secretKey
      (C.dhSecretKey (r .pkr) (r .enrolleeRandom) (r .secretKey)).toList).Agree
      (r'.put .secretKey
        (C.dhSecretKey (r' .pkr) (r' .enrolleeRandom) (r' .secretKey)).toList) := by
    rw [h .pkr (by decide), h .enrolleeRandom (by decide), h .secretKey (by decide)]
    exact h.put _ _
  unfold m2Keys sessionKeys
  dsimp only
  rw [hsecret .selfNonce (by decide), hsecret .selfMacAddr (by decide),
    hsecret .secretKey (by decide), hsecret .registrarNonce (by decide)]
  exact ((hsecret.put _ _).put _ _).put _ _

theorem commitment_agree (C : WscCrypto) {r r' : Regs} (h : r.Agree r') (hash nonce psk : Field)
    (hhash : hash ∈ followed) (hnonce : nonce ∈ followed) (hpsk : psk ∈ followed) :
    Opens C r hash nonce psk ↔ Opens C r' hash nonce psk := by
  unfold Opens commitment
  rw [h hash hhash, h nonce hnonce, h psk hpsk, h .authKey (by decide), h .pke (by decide),
    h .pkr (by decide)]

section

variable {C : WscCrypto} {env : Surroundings} {b : WscBlock} {msg : List UInt8} {m : Message}

theorem zeroPeerInfo_agree (r : Regs) : (zeroPeerInfo r).Agree r := by
  intro f hf
  have hne : ∀ f ∈ followed, f ≠ .wscPeerDeviceName ∧ f ≠ .wscPeerManufacturer ∧
      f ≠ .wscPeerModelName ∧ f ≠ .wscPeerModelNumber ∧ f ≠ .wscPeerSerialNumber ∧
      f ≠ .wscPeerMAC := by
    decide
  obtain ⟨h₁, h₂, h₃, h₄, h₅, h₆⟩ := hne f hf
  unfold zeroPeerInfo
  simp only [List.foldl_cons, List.foldl_nil]
  rw [Regs.zero_of_ne _ h₆, Regs.zero_of_ne _ h₅, Regs.zero_of_ne _ h₄, Regs.zero_of_ne _ h₃,
    Regs.zero_of_ne _ h₂, Regs.zero_of_ne _ h₁]

/-- What is followed is there when a message comes. -/
theorem received_agree (hm : m ≠ .m1) : (b.received C env msg m).regs.Agree b.regs := by
  cases m with
  | m1 => exact absurd rfl hm
  | m2 =>
    intro f hf
    have hne : ∀ f ∈ followed, f ≠ .peerVersion2 := by decide
    exact (zeroPeerInfo_agree _ f hf).trans (Regs.put_of_ne _ _ (hne f hf))
  | _ => exact fun f _ => rfl

theorem received_same (C : WscCrypto) (env : Surroundings) (b : WscBlock) (msg : List UInt8)
    (m : Message) :
    (b.received C env msg m).lastRx = msg ∧ (b.received C env msg m).lastTx = b.lastTx ∧
      (b.received C env msg m).wscProfile = b.wscProfile ∧
      (b.received C env msg m).wscM7Profile = b.wscM7Profile ∧
      (b.received C env msg m).bCheckMultiByte = b.bCheckMultiByte ∧
      (b.received C env msg m).bEnableWpsV2 = b.bEnableWpsV2 ∧
      (b.received C env msg m).staMode = b.staMode := by
  cases m with
  | _ => exact ⟨rfl, rfl, rfl, rfl, rfl, rfl, rfl⟩

/-- Credentials come in M8 only. -/
def Act.credits : Act → Bool
  | .credentials => true
  | _ => false

theorem Message.refuses_eq_false (hm : m ≠ .m8) (bCheckMultiByte bEnableWpsV2 : Bool)
    (p : Attr × Option (List UInt8)) : refuses m.spec bCheckMultiByte bEnableWpsV2 p = false := by
  have hacts : ∀ q ∈ m.spec.acts, q.2.credits = false := by
    cases m with
    | m8 => exact absurd rfl hm
    | _ => decide
  obtain ⟨a, plain⟩ := p
  unfold refuses
  dsimp only
  cases hact : m.spec.act a with
  | none => rfl
  | some act =>
    obtain ⟨l₁, l₂, hlist, -⟩ := List.lookup_eq_some_iff.1 hact
    have hnone := hacts (a.type, act) (by rw [hlist]; simp)
    cases act with
    | credentials => exact nomatch hnone
    | _ => rfl

/-- A message that has been read, or given up. -/
structure ReadAs (C : WscCrypto) (env : Surroundings) (b : WscBlock) (msg : List UInt8)
    (m : Message) (b' : WscBlock) : Prop where
  regs : b'.regs.Agree (valuesStored C m.spec (b.received C env msg m))
  profile : b'.wscProfile = (attributesRead C m.spec (b.received C env msg m)).foldl
    (creditedAfter m.spec b.bCheckMultiByte b.bEnableWpsV2) b.wscProfile
  m7 : b'.wscM7Profile = (attributesRead C m.spec (b.received C env msg m)).foldl
    (profileAfter m.spec b.staMode) b.wscM7Profile
  lastTx : b'.lastTx = b.lastTx
  lastRx : b'.lastRx = msg

theorem readAs (C : WscCrypto) (env : Surroundings) (b : WscBlock) (msg : List UInt8)
    (m : Message) : ReadAs C env b msg m
    (blockOf (messageStored C m.spec (b.received C env msg m))) := by
  obtain ⟨hall, -⟩ := m.read_leaves C (b.received C env msg m)
  obtain ⟨hlastRx, hlastTx, hprof, hm7, hmulti, hv2, hsta⟩ := received_same C env b msg m
  refine ⟨fun f hf => hall.regs f (m.spares hf), ?_, ?_, ?_, ?_⟩
  · rw [hall.profile, hmulti, hv2, hprof]
  · rw [hall.m7, hsta, hm7]
  · rw [hall.same.lastTx, hlastTx]
  · rw [hall.same.lastRx, hlastRx]

/-- The verdict on a message that has been read. -/
theorem verdict_ne_zero {s : Reading} {r : Regs}
    (hfits : MessageFits C m.spec (b.received C env msg m))
    (hs : messageStored C m.spec (b.received C env msg m) = .inl s) :
    (s.setRegs r).verdict C m.spec (msg.length - 12) ≠ wscErrorNoError ↔
      Fails C m (r .authKey) b msg := by
  have hread := readAs C env b msg m
  rw [hs] at hread
  have hwants := wants_eq hfits hs
  have hhmac := hmac_eq hfits hs
  rw [(received_same C env b msg m).1] at hwants hhmac
  have hauth : authenticator C (s.setRegs r).blk (msg.length - 12) =
      (C.hmacSha256 (r .authKey).toList (b.lastTx ++ msg.take (msg.length - 12))).toList.take 8 := by
    unfold authenticator
    have htx : (s.setRegs r).blk.lastTx = b.lastTx := hread.lastTx
    have hrx : (s.setRegs r).blk.lastRx = msg := hread.lastRx
    rw [htx, hrx]
    rfl
  have hhmac' : (s.setRegs r).hmac = macOf m.spec msg := hhmac
  have hwants' : (s.setRegs r).wants m.spec = s.wants m.spec := rfl
  unfold Reading.verdict Fails
  rw [hauth, hhmac', hwants']
  cases hw : s.wants m.spec with
  | true =>
    have hmissing : ¬ Complete m.spec msg := fun h => by
      rw [hwants.2 h] at hw
      exact nomatch hw
    rw [if_pos rfl]
    exact ⟨fun _ => .inl hmissing, fun _ => by decide⟩
  | false =>
    rw [if_neg Bool.false_ne_true]
    have hcomplete := hwants.1 hw
    split
    · rename_i heq
      refine ⟨fun h => absurd rfl h, ?_⟩
      rintro (h | h)
      · exact absurd hcomplete h
      · exact absurd heq.symm h
    · rename_i hne
      exact ⟨fun _ => .inr (Ne.symm hne), fun _ => by decide⟩

/-! ## 5. What a handler leaves -/

/-- What a message that is stored leaves, and what is returned. -/
structure Outcome (C : WscCrypto) (env : Surroundings) (b : WscBlock) (msg : List UInt8)
    (m : Message) (b' : WscBlock) (ret : Nat) : Prop where
  regs : b'.regs.Agree (m.stored C env b msg)
  profile : b'.wscProfile = (attributesRead C m.spec (b.received C env msg m)).foldl
    (creditedAfter m.spec b.bCheckMultiByte b.bEnableWpsV2) b.wscProfile
  m7 : b'.wscM7Profile = (attributesRead C m.spec (b.received C env msg m)).foldl
    (profileAfter m.spec b.staMode) b.wscM7Profile
  ret : ret ≠ wscErrorNoError ↔ Rejected C env b msg m

/-- A handler that reads and then gives its verdict. -/
theorem readThen_outcome {finish : Reading → Checked (WscBlock × Nat)} {b' : WscBlock} {ret : Nat}
    (h : readThen C m.spec (b.received C env msg m) finish = .ok (b', ret))
    (hfinish : ∀ s, messageStored C m.spec (b.received C env msg m) = .inl s →
      MessageFits C m.spec (b.received C env msg m) → ReadAs C env b msg m s.blk →
      finish s = .ok (b', ret) → Outcome C env b msg m b' ret)
    (hrefused : m = .m8 → ∀ b', ReadAs C env b msg m b' →
      (attributesRead C m.spec (b.received C env msg m)).any
        (refuses m.spec b.bCheckMultiByte b.bEnableWpsV2) = true →
      Outcome C env b msg m b' wscErrorSetupLocked) :
    Outcome C env b msg m b' ret := by
  have hread := readAs C env b msg m
  obtain ⟨hfits, ⟨s, hs, hfin⟩ | ⟨blk, hblk, hret⟩⟩ := readThen_eq_ok.1 h
  · rw [hs] at hread
    exact hfinish s hs hfits hread hfin
  · cases hret
    rw [hblk] at hread
    have hany := (m.read_leaves C (b.received C env msg m)).2.1 ⟨_, hblk⟩
    obtain ⟨-, -, -, -, hmulti, hv2, -⟩ := received_same C env b msg m
    rw [hmulti, hv2] at hany
    by_cases hm : m = .m8
    · exact hrefused hm _ hread hany
    · rw [List.any_eq_true] at hany
      obtain ⟨p, -, hp⟩ := hany
      rw [Message.refuses_eq_false hm] at hp
      exact nomatch hp

/-- The verdict of a handler that leaves the keys as they are. -/
theorem verdict_fails {s : Reading} {b' : WscBlock} {ret n : Nat}
    (hfits : MessageFits C m.spec (b.received C env msg m))
    (hs : messageStored C m.spec (b.received C env msg m) = .inl s)
    (hread : ReadAs C env b msg m s.blk) (hn : n = s.blk.lastRx.length - 12)
    (hret : (s.blk, s.verdict C m.spec n) = (b', ret)) :
    b' = s.blk ∧ (ret ≠ wscErrorNoError ↔
      Fails C m (valuesStored C m.spec (b.received C env msg m) .authKey) b msg) := by
  cases hret
  refine ⟨rfl, ?_⟩
  rw [hn, hread.lastRx, ← hread.regs .authKey (by decide)]
  exact verdict_ne_zero (r := s.blk.regs) hfits hs

/-- A handler that checks a commitment has checked it, and then the authenticator. -/
theorem iff_rejected {fails opens : Prop} {ret : Nat} (hmem : env.memory = true) (ho : opens)
    (hret : ret ≠ wscErrorNoError ↔ fails) :
    ret ≠ wscErrorNoError ↔ env.memory = false ∨ fails ∨ ¬ opens := by
  rw [hret]
  constructor
  · exact fun hf => .inr (.inl hf)
  · rintro (hf | hf | hf)
    · rw [hmem] at hf
      exact nomatch hf
    · exact hf
    · exact absurd ho hf

/-- **What a handler leaves.** -/
theorem processMessage_outcome {b' : WscBlock} {ret : Nat} (hm : m ≠ .m1) (hstores : m.stores env)
    (h : processMessage C env b msg m = .ok (b', ret)) : Outcome C env b msg m b' ret := by
  cases m with
  | m1 => exact absurd rfl hm
  | m2 =>
    refine readThen_outcome h (fun s hs hfits hread hfin => ?_) (fun h => (nomatch h))
    obtain ⟨-, hfin⟩ := Checked.sub_bind_eq_ok.1 hfin
    have hrx : (s.setRegs (m2Keys C s.blk.regs)).blk.lastRx = msg := hread.lastRx
    rw [hrx] at hfin
    cases hfin
    have hkeys := m2Keys_agree C hread.regs
    refine ⟨hkeys, hread.profile, hread.m7, (verdict_ne_zero hfits hs).trans ?_⟩
    rw [hkeys .authKey (by decide)]
    rfl
  | m2D =>
    refine readThen_outcome h (fun s hs hfits hread hfin => ?_) (fun h => (nomatch h))
    cases hfin
    exact ⟨hread.regs, hread.profile, hread.m7, ⟨fun h => absurd rfl h, fun h => h.elim⟩⟩
  | m3 =>
    refine readThen_outcome h (fun s hs hfits hread hfin => ?_) (fun h => (nomatch h))
    obtain ⟨-, hfin⟩ := Checked.sub_bind_eq_ok.1 hfin
    obtain ⟨rfl, hv⟩ := verdict_fails hfits hs hread rfl (Except.ok.inj hfin)
    exact ⟨hread.regs, hread.profile, hread.m7, hv⟩
  | m4 =>
    have hmem : env.memory = true := hstores
    rw [processMessage, processMessageM4, if_pos hmem] at h
    refine readThen_outcome h (fun s hs hfits hread hfin => ?_) (fun h => (nomatch h))
    have hagree := commitment_agree C hread.regs .rHash1 .rs1 .psk1 (by decide) (by decide)
      (by decide)
    split at hfin
    · rename_i heq
      obtain ⟨-, hfin⟩ := Checked.sub_bind_eq_ok.1 hfin
      obtain ⟨rfl, hv⟩ := verdict_fails hfits hs hread rfl (Except.ok.inj hfin)
      exact ⟨hread.regs, hread.profile, hread.m7, iff_rejected hmem (hagree.1 heq) hv⟩
    · rename_i hne
      cases hfin
      exact ⟨hread.regs, hread.profile, hread.m7,
        iff_of_true (by decide) (.inr (.inr fun ho => hne (hagree.2 ho)))⟩
  | m5 =>
    have hmem : env.memory = true := hstores
    rw [processMessage, processMessageM5, if_pos hmem] at h
    refine readThen_outcome h (fun s hs hfits hread hfin => ?_) (fun h => (nomatch h))
    have hagree := commitment_agree C hread.regs .eHash1 .es1 .psk1 (by decide) (by decide)
      (by decide)
    obtain ⟨-, hfin⟩ := Checked.sub_bind_eq_ok.1 hfin
    split at hfin
    · rename_i heq
      obtain ⟨rfl, hv⟩ := verdict_fails hfits hs hread rfl (Except.ok.inj hfin)
      exact ⟨hread.regs, hread.profile, hread.m7, iff_rejected hmem (hagree.1 heq) hv⟩
    · rename_i hne
      cases hfin
      refine ⟨fun f hf => ?_, hread.profile, hread.m7,
        iff_of_true (by decide) (.inr (.inr fun ho => hne (hagree.2 ho)))⟩
      have hother : ∀ f ∈ followed, f ≠ .selfConfigError := by decide
      exact (Regs.put_of_ne _ _ (hother f hf)).trans (hread.regs f hf)
  | m6 =>
    have hmem : env.memory = true := hstores
    rw [processMessage, processMessageM6, if_pos hmem] at h
    refine readThen_outcome h (fun s hs hfits hread hfin => ?_) (fun h => (nomatch h))
    have hagree := commitment_agree C hread.regs .rHash2 .rs2 .psk2 (by decide) (by decide)
      (by decide)
    split at hfin
    · rename_i heq
      obtain ⟨-, hfin⟩ := Checked.sub_bind_eq_ok.1 hfin
      obtain ⟨rfl, hv⟩ := verdict_fails hfits hs hread rfl (Except.ok.inj hfin)
      exact ⟨hread.regs, hread.profile, hread.m7, iff_rejected hmem (hagree.1 heq) hv⟩
    · rename_i hne
      cases hfin
      exact ⟨hread.regs, hread.profile, hread.m7,
        iff_of_true (by decide) (.inr (.inr fun ho => hne (hagree.2 ho)))⟩
  | m7 =>
    have hmem : env.memory = true := hstores
    rw [processMessage, processMessageM7, if_pos hmem] at h
    refine readThen_outcome h (fun s hs hfits hread hfin => ?_) (fun h => (nomatch h))
    obtain ⟨-, hfin⟩ := Checked.sub_bind_eq_ok.1 hfin
    obtain ⟨rfl, hv⟩ := verdict_fails hfits hs hread rfl (Except.ok.inj hfin)
    refine ⟨hread.regs, hread.profile, hread.m7, hv.trans ?_⟩
    exact ⟨.inr, fun h => h.resolve_left (by rw [hmem]; decide)⟩
  | m8 =>
    have hmem : env.memory = true := hstores
    rw [processMessage, processMessageM8, if_pos hmem] at h
    refine readThen_outcome h (fun s hs hfits hread hfin => ?_) (fun _ b' hread hany => ?_)
    · obtain ⟨-, hfin⟩ := Checked.sub_bind_eq_ok.1 hfin
      obtain ⟨rfl, hv⟩ := verdict_fails hfits hs hread rfl (Except.ok.inj hfin)
      have htaken : ¬ (attributesRead C m8Spec (b.receive msg)).any
          (refuses m8Spec b.bCheckMultiByte b.bEnableWpsV2) = true := by
        intro hany
        obtain ⟨blk, hblk⟩ := (Message.m8.read_leaves C (b.receive msg)).2.2 hany
        rw [show messageStored C Message.m8.spec (b.receive msg) = .inl s from hs] at hblk
        exact nomatch hblk
      refine ⟨hread.regs, hread.profile, hread.m7, hv.trans ?_⟩
      constructor
      · exact fun hf => .inr (.inl hf)
      · rintro (hf | hf | hf)
        · rw [hmem] at hf
          exact nomatch hf
        · exact hf
        · exact absurd hf htaken
    · exact ⟨hread.regs, hread.profile, hread.m7, iff_of_true (by decide) (.inr (.inr hany))⟩

/-- Without memory nothing is read. -/
theorem processMessage_noMemory (h : ¬ m.stores env) :
    processMessage C env b msg m = .ok (b, wscErrorCanNotAllocMem) := by
  cases m with
  | m1 | m2 | m2D | m3 => exact absurd trivial h
  | _ => exact if_neg h

/-- What is left unchanged is what is restored. -/
theorem Outcome.unchanged_iff {b' : WscBlock} {ret : Nat} (h : Outcome C env b msg m b' ret) :
    b.Unchanged b' ↔ Restored C env b msg m := by
  have hregs : ∀ f ∈ guarded, b'.regs f = m.stored C env b msg f :=
    fun f hf => h.regs f (List.mem_append_left _ hf)
  constructor
  · intro hunch
    refine ⟨fun f hf => (hregs f hf).symm.trans (hunch.regs f hf), ?_, ?_⟩
    · exact h.profile.symm.trans hunch.profile
    · exact h.m7.symm.trans hunch.m7
  · intro hrest
    refine ⟨fun f hf => (hregs f hf).trans (hrest.regs f hf), ?_, ?_⟩
    · exact h.profile.trans hrest.profile
    · exact h.m7.trans hrest.m7

end

/-! ## 6. The law -/

/-- **When a message that is not to be stored is not stored**: it is read in bounds, and it has
nothing that is not there already. -/
theorem rejectLaw_iff (C : WscCrypto) (env : Surroundings) (b : WscBlock) (msg : List UInt8)
    (m : Message) (hm : m ≠ .m1) :
    RejectLaw C env b msg m ↔ InBounds C env b msg m ∧
      (NotToBeStored C env b msg m ∨ Rejected C env b msg m → m.stores env →
        Restored C env b msg m) := by
  rw [← processMessage_safe]
  constructor
  · rintro ⟨b', ret, hret, hlaw⟩
    refine ⟨⟨_, hret⟩, fun hbad hstores => ?_⟩
    have hout := processMessage_outcome hm hstores hret
    refine hout.unchanged_iff.1 (hlaw ?_)
    rcases hbad with hbad | hbad
    · exact .inl hbad
    · exact .inr (hout.ret.2 hbad)
  · rintro ⟨⟨⟨b', ret⟩, hret⟩, h⟩
    refine ⟨b', ret, hret, fun hbad => ?_⟩
    by_cases hstores : m.stores env
    · have hout := processMessage_outcome hm hstores hret
      refine hout.unchanged_iff.2 (h ?_ hstores)
      rcases hbad with hbad | hbad
      · exact .inl hbad
      · exact .inr (hout.ret.1 hbad)
    · rw [processMessage_noMemory hstores] at hret
      cases hret
      exact ⟨fun f _ => rfl, rfl, rfl⟩

namespace Example

/-- An M3 with an E-Hash1 and nothing else. -/
def loneHash : List UInt8 := [0x10, 0x14, 0, 32] ++ List.replicate 32 1

/-- The law, of that message. -/
theorem rejectLaw_loneHash_iff :
    RejectLaw noCrypto surroundings freshBlock loneHash .m3 ↔
      InBounds noCrypto surroundings freshBlock loneHash .m3 ∧
        (NotToBeStored noCrypto surroundings freshBlock loneHash .m3 ∨
            Rejected noCrypto surroundings freshBlock loneHash .m3 →
          Message.m3.stores surroundings →
            Restored noCrypto surroundings freshBlock loneHash .m3) :=
  rejectLaw_iff noCrypto surroundings freshBlock loneHash .m3 (by decide)

/-- **A hash of an M3 that is rejected is stored.** -/
theorem not_rejectLaw_loneHash :
    ¬ RejectLaw noCrypto surroundings freshBlock loneHash .m3 := by
  rintro ⟨b', ret, hret, hlaw⟩
  have hattrs : attrsOf loneHash = [{ type := wscIdEHash1, off := 4, len := 32 }] := by
    rw [attrsOf, Tlv.attrs, if_pos (by decide), Tlv.attrs, if_neg (by decide)]
    rfl
  have hstores : Message.m3.stores surroundings := trivial
  have hout := processMessage_outcome (by decide) hstores hret
  have hread : attributesRead noCrypto m3Spec (freshBlock.receive loneHash) =
      [({ type := wscIdEHash1, off := 4, len := 32 }, none)] := by
    unfold attributesRead attrsRead WscBlock.receive
    dsimp only
    rw [hattrs]
    rfl
  have hincomplete : ret ≠ wscErrorNoError := by
    refine hout.ret.2 (.inl fun hcomplete => ?_)
    have hversion := hcomplete wscIdVersion (by decide)
    rw [hattrs] at hversion
    exact absurd hversion (by decide)
  have hhash := (hlaw (.inr hincomplete)).regs .eHash1 (by decide)
  rw [hout.regs .eHash1 (by decide)] at hhash
  change overwritten _ ((attributesRead noCrypto m3Spec (freshBlock.receive loneHash)).flatMap _) = _
    at hhash
  rw [hread] at hhash
  exact absurd hhash (by decide)

end Example

end Mt7601.Wsc
