/-
# Commitments that are opened

A registrar accepts M7, and an enrollee M8, once the peer has shown that it knows both halves of the
PIN: two hashes come first, and the nonces that open them later, each in a message of its own. Over
a run the values that the peer has sent are kept beside the registers (`Heard`), so that what has
been verified is a statement about the messages (`View.Verified`).

`ProcessMessageM7` opens nothing: the second hash of the enrollee is never compared. With the nonces
and hashes that a message is to bring, in their full lengths, the other three are.
-/
import Mt7601.Wsc.Registration
import Mt7601.Lib.Run

namespace Mt7601.Wsc

/-! ## 1. What is proven, and by what -/

/-- A half of the PIN: the hash that commits to it, the nonce that opens it. -/
structure Half where
  hash : Field
  nonce : Field
  second : Bool

/-- Its pre-shared key. -/
def Half.psk (h : Half) : Field := if h.second then .psk2 else .psk1

/-- The halves that the enrollee proves, -/
def eHalf1 : Half where
  hash := .eHash1
  nonce := .es1
  second := false

def eHalf2 : Half where
  hash := .eHash2
  nonce := .es2
  second := true

/-- and those of the registrar. -/
def rHalf1 : Half where
  hash := .rHash1
  nonce := .rs1
  second := false

def rHalf2 : Half where
  hash := .rHash2
  nonce := .rs2
  second := true

/-- What a message brings. -/
def Message.brings : Message → List Field
  | .m3 => [.eHash1, .eHash2]
  | .m4 => [.rHash1, .rHash2, .rs1]
  | .m5 => [.es1]
  | .m6 => [.rs2]
  | .m7 => [.es2]
  | _ => []

/-- What must have been proven when a message is accepted. -/
def Message.proves : Message → List Half
  | .m7 => [eHalf1, eHalf2]
  | .m8 => [rHalf1, rHalf2]
  | _ => []

/-- What the peer has sent last. -/
abbrev Heard := Field → Option (List UInt8)

/-- The values that a message has for a field. -/
def Message.values (C : WscCrypto) (env : Surroundings) (b : WscBlock) (msg : List UInt8)
    (m : Message) (f : Field) : List (List UInt8) :=
  (attributesRead C m.spec (b.received C env msg m)).flatMap (valuesFor m.spec msg f)

/-- What has been sent when a message has come: of the values in it, the last. -/
def Heard.after (C : WscCrypto) (env : Surroundings) (b : WscBlock) (msg : List UInt8)
    (m : Message) (heard : Heard) : Heard := fun f =>
  if f ∈ m.brings then (m.values C env b msg f).getLast? else heard f

/-- The registers, what the peer has sent, and the PIN of the hashes that were built last. -/
structure View where
  regs : Regs
  heard : Heard
  pin : Octets 8
  pinCodeLen : Nat

/-- The pre-shared key of a half. -/
def View.psk (C : WscCrypto) (v : View) (second : Bool) : List UInt8 :=
  pskOf C (v.regs .authKey).toList v.pin v.pinCodeLen second

/-- **A half is verified**: the peer has sent a hash, and a nonce that opens it. -/
def View.Verified (C : WscCrypto) (v : View) (h : Half) : Prop :=
  ∃ hash nonce, v.heard h.hash = some hash ∧ v.heard h.nonce = some nonce ∧
    hash = (C.hmacSha256 (v.regs .authKey).toList
      (nonce ++ v.psk C h.second ++ (v.regs .pke).toList ++ (v.regs .pkr).toList)).toList

/-! ## 2. Runs -/

/-- A registration with what is kept beside it: `accepted` has each M7 and M8 that was accepted, as
things stood then. -/
structure Session where
  reg : Registration
  heard : Heard
  pin : Octets 8
  pinCodeLen : Nat
  accepted : List (Message × View)

def Session.view (s : Session) : View where
  regs := s.reg.blk.regs
  heard := s.heard
  pin := s.pin
  pinCodeLen := s.pinCodeLen

/-- A state in which M4 or a later message is awaited. -/
def WscState.keyed : WscState → Bool
  | .waitM4 | .waitM5 | .waitM6 | .waitM7 | .waitM8 => true
  | _ => false

/-- What happens. Any message may come, with any octets; `other` is everything that is none of the
rest, and leads to a state that no message from M2 on is answered with. -/
inductive Event
  | start (c : Circumstances)
  | message (m : Message) (msg : List UInt8) (c : Circumstances)
  | pin (pin : Octets 8) (pinCodeLen : Nat)
  | reComputePke
  | other (state : WscState) (blk : WscBlock)

section

variable (C : WscCrypto)

/-- A session behind a message that has been taken. -/
def Session.taken (s : Session) (m : Message) (msg : List UInt8) (c : Circumstances)
    (reg : Registration) : Session :=
  let built : Bool := m = .m2 ∨ m = .m3
  { s with
    reg := reg
    heard := s.heard.after C c.env (s.reg.handed c m) msg m
    pin := if built then s.reg.pin else s.pin
    pinCodeLen := if built then s.reg.pinCodeLen else s.pinCodeLen }

/-- It is written down if it has been accepted. -/
def Session.recorded (s : Session) (m : Message) : Session :=
  { s with accepted := (m, s.view) :: s.accepted }

/-- A message, in a session; without a session behind it if it is read out of bounds. -/
def Session.message (s : Session) (m : Message) (msg : List UInt8) (c : Circumstances) :
    Option Session :=
  match s.reg.receive C c m msg with
  | .error _ => none
  | .ok (_, none) => some s
  | .ok (reg, some ret) =>
    if ret = wscErrorNoError then some ((s.taken C m msg c reg).recorded m)
    else some (s.taken C m msg c reg)

def Session.step (s : Session) : Event → Option Session
  | .start c => some { s with reg := s.reg.start C c }
  | .message m msg c => s.message C m msg c
  | .pin pin pinCodeLen => some { s with reg := { s.reg with pin, pinCodeLen } }
  | .reComputePke => some { s with reg := { s.reg with reComputePke := true } }
  | .other state blk =>
    if state.keyed then some s else some { s with reg := { s.reg with state := state, blk := blk } }

/-- One event, unless the run has left the bounds before. -/
def step (s : Option Session) (e : Event) : Option Session := s.bind fun s => s.step C e

/-- **The law.** What has been accepted had been proven. -/
def CommitmentLaw (s : Option Session) : Prop :=
  ∃ t, s = some t ∧ ∀ a ∈ t.accepted, ∀ h ∈ a.1.proves, a.2.Verified C h

/-! ## 3. The condition -/

/-- What an M3 or an M4 is built with, what the next message is to bring, and the second hash of the
enrollee. -/
structure Honest (s : Session) (m : Message) (msg : List UInt8) (c : Circumstances) : Prop where
  memory : m = .m2 ∨ m = .m3 → c.memory = true
  brings : ∀ f ∈ m.brings, ∃ v, (m.values C c.env (s.reg.handed c m) msg f).getLast? = some v ∧
    v.length = f.size
  opens : m = .m7 →
    Opens C (m.stored C c.env (s.reg.handed c m) msg) .eHash2 .es2 .psk2

/-- The condition on an event: a message that is taken is read in bounds, and if it is not rejected
it brings what it is to bring; and the key of the enrollee is not computed anew while M6, M7 or M8
is awaited. -/
def Sound (s : Session) : Event → Prop
  | .start _ => s.reg.state ∈ [.waitM6, .waitM7, .waitM8] → s.reg.reComputePke = false
  | .message m msg c => m.awaited s.reg.state → InBounds C c.env (s.reg.handed c m) msg m ∧
      (¬ Rejected C c.env (s.reg.handed c m) msg m → Honest C s m msg c)
  | _ => True

end

/-! ## 4. What holds between two messages -/

/-- The hashes that are still to be opened, -/
def WscState.held : WscState → List Field
  | .waitM5 => [.eHash1, .eHash2]
  | .waitM6 => [.rHash2]
  | .waitM7 => [.eHash2]
  | _ => []

/-- and the halves that have been proven. -/
def WscState.proven : WscState → List Half
  | .waitM6 => [rHalf1]
  | .waitM7 => [eHalf1]
  | .waitM8 => [rHalf1, rHalf2]
  | _ => []

/-- **The invariant.** -/
structure Session.Inv (C : WscCrypto) (s : Session) : Prop where
  accepted : ∀ a ∈ s.accepted, ∀ h ∈ a.1.proves, a.2.Verified C h
  psk : s.reg.state.keyed = true → (s.view.regs .psk1).toList = s.view.psk C false ∧
    (s.view.regs .psk2).toList = s.view.psk C true
  held : ∀ f ∈ s.reg.state.held, s.heard f = some (s.view.regs f).toList
  proven : ∀ h ∈ s.reg.state.proven, s.view.Verified C h

section

variable {C : WscCrypto} {s : Session} {v v' : View} {h : Half}

/-- A state in which nothing is held. -/
theorem Session.Inv.of_idle (hacc : ∀ a ∈ s.accepted, ∀ h ∈ a.1.proves, a.2.Verified C h)
    (hidle : s.reg.state.keyed = false) : s.Inv C := by
  have hnone : s.reg.state.held = [] ∧ s.reg.state.proven = [] := by
    revert hidle
    cases s.reg.state with
    | waitM4 | waitM5 | waitM6 | waitM7 | waitM8 => exact fun h => nomatch h
    | _ => exact fun _ => ⟨rfl, rfl⟩
  obtain ⟨hheld, hproven⟩ := hnone
  refine ⟨hacc, fun hk => ?_, ?_, ?_⟩
  · rw [hidle] at hk
    exact nomatch hk
  · rw [hheld]
    exact fun f hf => absurd hf List.not_mem_nil
  · rw [hproven]
    exact fun f hf => absurd hf List.not_mem_nil

/-- What is verified stays so while the keys and the two values stay. -/
theorem View.Verified.congr (hv : v.Verified C h)
    (hkeys : ∀ f ∈ [Field.authKey, .pke, .pkr], v'.regs f = v.regs f)
    (hheard : v'.heard h.hash = v.heard h.hash ∧ v'.heard h.nonce = v.heard h.nonce)
    (hpin : v'.pin = v.pin ∧ v'.pinCodeLen = v.pinCodeLen) : v'.Verified C h := by
  obtain ⟨hash, nonce, hhash, hnonce, heq⟩ := hv
  refine ⟨hash, nonce, hheard.1.trans hhash, hheard.2.trans hnonce, ?_⟩
  unfold View.psk at heq ⊢
  rw [hkeys .authKey (by decide), hkeys .pke (by decide), hkeys .pkr (by decide), hpin.1, hpin.2]
  exact heq

/-- A hash that is held, and a nonce that has just come. -/
theorem verified_of_opens (hopens : Opens C v.regs h.hash h.nonce h.psk)
    (hhash : v.heard h.hash = some (v.regs h.hash).toList)
    (hnonce : v.heard h.nonce = some (v.regs h.nonce).toList)
    (hpsk : (v.regs .psk1).toList = v.psk C false ∧ (v.regs .psk2).toList = v.psk C true) :
    v.Verified C h := by
  refine ⟨_, _, hhash, hnonce, ?_⟩
  have hkey : (v.regs h.psk).toList = v.psk C h.second := by
    unfold Half.psk
    cases h.second with
    | false => exact hpsk.1
    | true => exact hpsk.2
  rw [← hkey]
  exact hopens

end

/-! ## 5. A message -/

section

variable {C : WscCrypto} {env : Surroundings} {b b' : WscBlock} {msg : List UInt8} {m : Message}
  {ret : Nat} {f : Field} {heard : Heard}

/-- No message but M2 computes keys. -/
theorem Message.keys_eq (hm : m ≠ .m2) (r : Regs) : m.keys C r = r := by
  cases m with
  | m2 => exact absurd rfl hm
  | _ => rfl

/-- A field that a message has no value for. -/
theorem Message.values_eq_nil (hcopies : ∀ q ∈ m.spec.acts, q.2.copiesTo f = 0)
    (hf : f ∉ [Field.es1, .es2, .rs1, .rs2]) : m.values C env b msg f = [] := by
  unfold Message.values
  rw [List.flatMap_eq_nil_iff]
  exact fun p _ => valuesFor_eq_nil hcopies hf p

section

variable (hm : m ≠ .m1 ∧ m ≠ .m2) (hout : Outcome C env b msg m b' ret) (hf : f ∈ followed)

include hm hout hf

/-- What a field holds behind a message. -/
theorem Outcome.regs_eq : b'.regs f = overwritten (b.regs f) (m.values C env b msg f) := by
  rw [hout.regs f hf]
  unfold Message.stored
  rw [Message.keys_eq hm.2]
  unfold valuesStored Message.values
  rw [received_agree hm.1 f hf, (received_same C env b msg m).1]

/-- A field that a message has no value for is as it was. -/
theorem Outcome.regs_kept (hcopies : ∀ q ∈ m.spec.acts, q.2.copiesTo f = 0)
    (hnonce : f ∉ [Field.es1, .es2, .rs1, .rs2]) : b'.regs f = b.regs f := by
  rw [hout.regs_eq hm hf, Message.values_eq_nil hcopies hnonce, overwritten_nil]

/-- A field that a message has brought. -/
theorem Outcome.heard_eq (hbrings : f ∈ m.brings)
    (hfull : ∃ v, (m.values C env b msg f).getLast? = some v ∧ v.length = f.size) :
    heard.after C env b msg m f = some (b'.regs f).toList := by
  obtain ⟨v, hv, hlen⟩ := hfull
  obtain ⟨l, hl⟩ := List.getLast?_eq_some_iff.1 hv
  unfold Heard.after
  rw [if_pos hbrings, hv, hout.regs_eq hm hf, hl, overwritten_full hlen]

end

/-- What has been sent before. -/
theorem Heard.after_of_notMem (h : f ∉ m.brings) : heard.after C env b msg m f = heard f :=
  if_neg h

end

/-! ## 6. What is built -/

section

variable {C : WscCrypto} {pin : Octets 8} {pinCodeLen : Nat} {hash1 hash2 f : Field} {r : Regs}

theorem pskOf_length (authKey : List UInt8) (second : Bool) :
    (pskOf C authKey pin pinCodeLen second).length = 16 := by
  unfold pskOf
  rw [List.length_take, List.Vector.toList_length]
  rfl

/-- What a hash is not built of is as it was. -/
theorem hashesBuilt_of_ne (hf : f ≠ .psk1 ∧ f ≠ .psk2) (hhash : f ≠ hash1 ∧ f ≠ hash2) :
    hashesBuilt C pin pinCodeLen hash1 hash2 r f = r f := by
  unfold hashesBuilt
  rw [Regs.put_of_ne _ _ hhash.2, Regs.put_of_ne _ _ hf.2, Regs.put_of_ne _ _ hhash.1,
    Regs.put_of_ne _ _ hf.1]

/-- The pre-shared keys are those of the PIN. -/
theorem hashesBuilt_psk (hhash : hash1 ∉ [Field.psk1, .psk2, .authKey])
    (hhash' : hash2 ∉ [Field.psk1, .psk2, .authKey]) :
    (hashesBuilt C pin pinCodeLen hash1 hash2 r .psk1).toList =
        pskOf C (r .authKey).toList pin pinCodeLen false ∧
      (hashesBuilt C pin pinCodeLen hash1 hash2 r .psk2).toList =
        pskOf C (r .authKey).toList pin pinCodeLen true := by
  simp only [List.mem_cons, List.not_mem_nil, or_false, not_or] at hhash hhash'
  unfold hashesBuilt
  constructor
  · rw [Regs.put_of_ne _ _ (Ne.symm hhash'.1), Regs.put_of_ne _ _ (by decide),
      Regs.put_of_ne _ _ (Ne.symm hhash.1)]
    exact Regs.put_full _ _ (pskOf_length _ _)
  · rw [Regs.put_of_ne _ _ (Ne.symm hhash'.2.1), Regs.put_full _ _ (pskOf_length _ _),
      Regs.put_of_ne _ _ (Ne.symm hhash.2.2), Regs.put_of_ne _ _ (by decide)]

end

/-- What a start leaves: two nonces are drawn, and the key pair if it is wanted. -/
theorem Registration.start_regs (C : WscCrypto) (c : Circumstances) (s : Registration) {f : Field}
    (hf : f ≠ .selfNonce ∧ f ≠ .enrolleeNonce)
    (hpke : s.reComputePke = true → f ≠ .enrolleeRandom ∧ f ≠ .pke) :
    (s.start C c).blk.regs f = s.blk.regs f := by
  change m1Built c.nonce (if s.reComputePke then pkeComputed C c.env.random s.blk.regs
    else s.blk.regs) f = _
  unfold m1Built
  rw [Regs.put_of_ne _ _ hf.2, Regs.put_of_ne _ _ hf.1]
  split
  · rename_i hre
    unfold pkeComputed
    rw [Regs.put_of_ne _ _ (hpke hre).2, Regs.put_of_ne _ _ (hpke hre).1]
  · rfl

/-! ## 7. Steps -/

section

variable {C : WscCrypto} {s : Session}

/-- A start keeps the invariant. -/
theorem Session.Inv.start (hinv : s.Inv C) (c : Circumstances) (hsound : Sound C s (.start c)) :
    ({ s with reg := s.reg.start C c } : Session).Inv C := by
  by_cases hbefore : s.reg.state.beforeM1 = true
  · refine .of_idle hinv.accepted ?_
    change (if s.reg.state.beforeM1 then WscState.sentM1 else s.reg.state).keyed = false
    rw [if_pos hbefore]
    rfl
  · have hstate : (s.reg.start C c).state = s.reg.state := if_neg hbefore
    have hkept : ∀ f ∈ [Field.authKey, .pkr, .psk1, .psk2, .eHash1, .eHash2, .rHash2],
        (s.reg.start C c).blk.regs f = s.reg.blk.regs f := by
      intro f hf
      have hne : ∀ f ∈ [Field.authKey, .pkr, .psk1, .psk2, .eHash1, .eHash2, .rHash2],
          (f ≠ .selfNonce ∧ f ≠ .enrolleeNonce) ∧ f ≠ .enrolleeRandom ∧ f ≠ .pke := by
        decide
      exact Registration.start_regs C c s.reg (hne f hf).1 fun _ => (hne f hf).2
    refine ⟨hinv.accepted, fun hk => ?_, fun f hf => ?_, fun h hh => ?_⟩
    · have hpsk := hinv.psk (hstate ▸ hk)
      unfold Session.view View.psk at hpsk ⊢
      dsimp only at hpsk ⊢
      rw [hkept .psk1 (by decide), hkept .psk2 (by decide), hkept .authKey (by decide)]
      exact hpsk
    · change f ∈ (s.reg.start C c).state.held at hf
      rw [hstate] at hf
      have hmem : ∀ state : WscState, ∀ f ∈ state.held,
          f ∈ [Field.authKey, .pkr, .psk1, .psk2, .eHash1, .eHash2, .rHash2] := by
        intro state
        cases state with
        | _ => decide
      refine (hinv.held f hf).trans ?_
      change _ = some ((s.reg.start C c).blk.regs f).toList
      rw [hkept f (hmem _ f hf)]
      rfl
    · change h ∈ (s.reg.start C c).state.proven at hh
      rw [hstate] at hh
      have hawaits : ∀ state : WscState, state.proven ≠ [] →
          state ∈ [WscState.waitM6, .waitM7, .waitM8] := by
        intro state
        cases state with
        | _ => decide
      have hre : s.reg.reComputePke = false :=
        hsound (hawaits _ (List.ne_nil_of_mem hh))
      refine (hinv.proven h hh).congr (fun f hf => ?_) ⟨rfl, rfl⟩ ⟨rfl, rfl⟩
      have hne : ∀ f ∈ [Field.authKey, .pke, .pkr], f ≠ .selfNonce ∧ f ≠ .enrolleeNonce := by
        decide
      refine Registration.start_regs C c s.reg (hne f hf) fun h => ?_
      rw [hre] at h
      exact nomatch h

/-- The messages behind M3. -/
def Message.late : Message → Bool
  | .m4 | .m5 | .m6 | .m7 | .m8 => true
  | _ => false

/-- The half that a message opens. -/
def Message.half : Message → Option Half
  | .m4 => some rHalf1
  | .m5 => some eHalf1
  | .m6 => some rHalf2
  | .m7 => some eHalf2
  | _ => none

/-- What a message that has been accepted leaves, beside what was sent. -/
def Session.readView (C : WscCrypto) (s : Session) (m : Message) (msg : List UInt8)
    (c : Circumstances) (b' : WscBlock) : View where
  regs := b'.regs
  heard := s.heard.after C c.env (s.reg.handed c m) msg m
  pin := s.pin
  pinCodeLen := s.pinCodeLen

section

variable {m : Message} {msg : List UInt8} {c : Circumstances} {b' : WscBlock} {h : Half}

/-- The block that is handed on with a late message. -/
theorem Registration.handed_late (hlate : m.late = true) : s.reg.handed c m = s.reg.blk := by
  cases m with
  | m2 => exact nomatch hlate
  | _ => rfl

theorem Message.late_ne (hlate : m.late = true) : m ≠ .m1 ∧ m ≠ .m2 := by
  cases m with
  | m1 | m2 => exact nomatch hlate
  | _ => decide

/-- A late message has no keys. -/
theorem Outcome.keys_kept (hlate : m.late = true)
    (hout : Outcome C c.env (s.reg.handed c m) msg m b' wscErrorNoError) :
    ∀ f ∈ [Field.authKey, .pke, .pkr, .psk1, .psk2, .eHash1, .eHash2],
      b'.regs f = s.reg.blk.regs f := by
  intro f hf
  have hcopies : ∀ f ∈ [Field.authKey, .pke, .pkr, .psk1, .psk2, .eHash1, .eHash2],
      ∀ q ∈ m.spec.acts, q.2.copiesTo f = 0 := by
    cases m with
    | m1 | m2 | m2D | m3 => exact nomatch hlate
    | _ => decide +kernel
  have hmem : ∀ f ∈ [Field.authKey, .pke, .pkr, .psk1, .psk2, .eHash1, .eHash2],
      f ∈ followed ∧ f ∉ [Field.es1, .es2, .rs1, .rs2] := by
    decide
  rw [hout.regs_kept (Message.late_ne hlate) (hmem f hf).1 (hcopies f hf) (hmem f hf).2,
    Registration.handed_late hlate]

/-- The pre-shared keys behind a late message. -/
theorem Session.Inv.psk_late (hinv : s.Inv C) (hlate : m.late = true)
    (hkeyed : s.reg.state.keyed = true)
    (hout : Outcome C c.env (s.reg.handed c m) msg m b' wscErrorNoError) :
    (b'.regs .psk1).toList = (s.readView C m msg c b').psk C false ∧
      (b'.regs .psk2).toList = (s.readView C m msg c b').psk C true := by
  have hkept := hout.keys_kept hlate
  have hpsk := hinv.psk hkeyed
  unfold Session.readView View.psk
  unfold Session.view View.psk at hpsk
  dsimp only at hpsk ⊢
  rw [hkept .psk1 (by decide), hkept .psk2 (by decide), hkept .authKey (by decide)]
  exact hpsk

/-- What was proven before a late message. -/
theorem Session.Inv.proven_late (hinv : s.Inv C) (hlate : m.late = true)
    (hout : Outcome C c.env (s.reg.handed c m) msg m b' wscErrorNoError)
    (hh : h ∈ s.reg.state.proven) (hbrings : h.hash ∉ m.brings ∧ h.nonce ∉ m.brings) :
    (s.readView C m msg c b').Verified C h := by
  have hkept := hout.keys_kept hlate
  have hmem : ∀ f ∈ [Field.authKey, .pke, .pkr],
      f ∈ [Field.authKey, .pke, .pkr, .psk1, .psk2, .eHash1, .eHash2] := by
    decide
  refine (hinv.proven h hh).congr (fun f hf => hkept f (hmem f hf)) ?_ ⟨rfl, rfl⟩
  exact ⟨Heard.after_of_notMem hbrings.1, Heard.after_of_notMem hbrings.2⟩

/-- **What a late message proves**: the half that it opens. -/
theorem Session.Inv.opened_late (hinv : s.Inv C) (hlate : m.late = true)
    (hkeyed : s.reg.state.keyed = true)
    (hout : Outcome C c.env (s.reg.handed c m) msg m b' wscErrorNoError)
    (haccepted : ¬ Rejected C c.env (s.reg.handed c m) msg m) (hhonest : Honest C s m msg c)
    (hh : m.half = some h)
    (hhash : (s.readView C m msg c b').heard h.hash = some (b'.regs h.hash).toList) :
    (s.readView C m msg c b').Verified C h := by
  have hopens : Opens C (m.stored C c.env (s.reg.handed c m) msg) h.hash h.nonce h.psk := by
    unfold Rejected at haccepted
    cases m with
    | m4 | m5 | m6 =>
      cases hh
      by_contra hno
      exact haccepted (.inr (.inr hno))
    | m7 =>
      cases hh
      exact hhonest.opens rfl
    | _ => exact nomatch hh
  have hfields : h.hash ∈ followed ∧ h.nonce ∈ followed ∧ h.psk ∈ followed ∧
      h.nonce ∈ m.brings := by
    cases m with
    | m4 | m5 | m6 | m7 =>
      cases hh
      decide
    | _ => exact nomatch hh
  obtain ⟨hf₁, hf₂, hf₃, hbrings⟩ := hfields
  refine verified_of_opens ?_ hhash ?_ (hinv.psk_late hlate hkeyed hout)
  · exact (commitment_agree C hout.regs h.hash h.nonce h.psk hf₁ hf₂ hf₃).2 hopens
  · exact hout.heard_eq (Message.late_ne hlate) hf₂ hbrings (hhonest.brings _ hbrings)

/-- An error ends the run. -/
theorem Registration.failed_idle (c : Circumstances) (r : Registration) (m : Message) (rv : Nat) :
    (r.failed c m rv).state.keyed = false := by
  unfold Registration.failed
  split
  · rfl
  split
  · rfl
  · rfl

/-- A registration with the block that a handler leaves. -/
def Session.handled (s : Session) (b' : WscBlock) : Registration := { s.reg with blk := b' }

/-- The view behind a late message. -/
theorem Session.taken_view {reg : Registration} (b' : WscBlock) (hlate : m.late = true)
    (hreg : reg.blk.regs = b'.regs) :
    (s.taken C m msg c reg).view = s.readView C m msg c b' := by
  have hbuilt : decide (m = .m2 ∨ m = .m3) = false := by
    cases m with
    | m2 | m3 => exact nomatch hlate
    | _ => rfl
  unfold Session.taken Session.view Session.readView
  dsimp only
  rw [hreg, hbuilt]
  rfl

/-- A message that proves nothing, and leads to a state in which nothing is held. -/
theorem Session.Inv.recorded_idle {t : Session}
    (hacc : ∀ a ∈ t.accepted, ∀ h ∈ a.1.proves, a.2.Verified C h)
    (hproves : ∀ h ∈ m.proves, t.view.Verified C h) (hidle : t.reg.state.keyed = false) :
    (t.recorded m).Inv C := by
  refine .of_idle ?_ hidle
  intro a ha
  obtain rfl | ha := List.mem_cons.1 ha
  · exact hproves
  · exact hacc a ha

/-- A message that proves nothing. -/
theorem Session.Inv.recorded_of {t : Session} (hinv : t.Inv C) (hproves : m.proves = []) :
    (t.recorded m).Inv C := by
  refine ⟨?_, hinv.psk, hinv.held, hinv.proven⟩
  intro a ha
  obtain rfl | ha := List.mem_cons.1 ha
  · intro h hh
    rw [show m.proves = [] from hproves] at hh
    exact absurd hh List.not_mem_nil
  · exact hinv.accepted a ha

/-- The hashes that M3 or M4 is built with. -/
theorem Registration.psk_built (r : Registration) (hash1 hash2 : Field)
    (hhash : hash1 ∉ [Field.psk1, .psk2, .authKey]) (hhash' : hash2 ∉ [Field.psk1, .psk2, .authKey])
    (v : View) (hv : v.regs = hashesBuilt C v.pin v.pinCodeLen hash1 hash2 r.blk.regs) :
    (v.regs .psk1).toList = v.psk C false ∧ (v.regs .psk2).toList = v.psk C true := by
  have hne : Field.authKey ≠ hash1 ∧ Field.authKey ≠ hash2 := by
    constructor
    · rintro rfl
      exact hhash (by decide)
    · rintro rfl
      exact hhash' (by decide)
  unfold View.psk
  rw [hv, hashesBuilt_of_ne (by decide) hne]
  exact hashesBuilt_psk hhash hhash'

/-- **A message that has been accepted.** -/
theorem Session.Inv.answered (hinv : s.Inv C) (hawaited : m.awaited s.reg.state = true)
    (hm : m ≠ .m1) (hout : Outcome C c.env (s.reg.handed c m) msg m b' wscErrorNoError)
    (haccepted : ¬ Rejected C c.env (s.reg.handed c m) msg m) (hhonest : Honest C s m msg c) :
    ((s.taken C m msg c ((s.handled b').answered C c m)).recorded m).Inv C := by
  cases m with
  | m1 => exact absurd rfl hm
  | m2 =>
    refine Session.Inv.recorded_of ?_ rfl
    have hmem : c.memory = true := hhonest.memory (.inl rfl)
    unfold Registration.answered
    dsimp only
    split
    · exact .of_idle hinv.accepted (Registration.failed_idle _ _ _ _)
    · unfold Registration.hashed
      rw [if_pos hmem]
      refine ⟨hinv.accepted, fun _ => ?_, fun f hf => absurd hf List.not_mem_nil,
        fun h hh => absurd hh List.not_mem_nil⟩
      exact Registration.psk_built (s.handled b') .eHash1 .eHash2 (by decide) (by decide) _ rfl
  | m2D =>
    refine Session.Inv.recorded_of (.of_idle hinv.accepted ?_) rfl
    unfold Registration.answered
    dsimp only
    split
    · rfl
    · rfl
  | m3 =>
    refine Session.Inv.recorded_of ?_ rfl
    have hmem : c.memory = true := hhonest.memory (.inr rfl)
    unfold Registration.answered Registration.hashed
    dsimp only
    rw [if_pos hmem]
    refine ⟨hinv.accepted, fun _ => ?_, fun f hf => ?_, fun h hh => absurd hh List.not_mem_nil⟩
    · exact Registration.psk_built (s.handled b') .rHash1 .rHash2 (by decide) (by decide) _ rfl
    · change f ∈ [Field.eHash1, .eHash2] at hf
      have hfield : ∀ f ∈ [Field.eHash1, .eHash2], f ∈ followed ∧ f ∈ Message.m3.brings ∧
          (f ≠ .psk1 ∧ f ≠ .psk2) ∧ f ≠ .rHash1 ∧ f ≠ .rHash2 := by
        decide
      obtain ⟨hf₁, hf₂, hf₃, hf₄⟩ := hfield f hf
      refine (hout.heard_eq (by decide) hf₁ hf₂ (hhonest.brings f hf₂)).trans ?_
      change _ = some (hashesBuilt C _ _ .rHash1 .rHash2 b'.regs f).toList
      rw [hashesBuilt_of_ne hf₃ hf₄]
  | m4 =>
    refine Session.Inv.recorded_of ?_ rfl
    have hstate : s.reg.state = .waitM4 := of_decide_eq_true hawaited
    have hkeyed : s.reg.state.keyed = true := by rw [hstate]; rfl
    have hbrought : ∀ f ∈ [Field.rHash1, .rHash2],
        s.heard.after C c.env (s.reg.handed c .m4) msg .m4 f = some (b'.regs f).toList := by
      intro f hf
      have hfield : ∀ f ∈ [Field.rHash1, .rHash2], f ∈ followed ∧ f ∈ Message.m4.brings := by
        decide
      exact hout.heard_eq (by decide) (hfield f hf).1 (hfield f hf).2
        (hhonest.brings f (hfield f hf).2)
    refine ⟨hinv.accepted, fun _ => hinv.psk_late rfl hkeyed hout, fun f hf => ?_, fun h hh => ?_⟩
    · change f ∈ [Field.rHash2] at hf
      obtain rfl := List.mem_singleton.1 hf
      exact hbrought .rHash2 (by decide)
    · change h ∈ [rHalf1] at hh
      obtain rfl := List.mem_singleton.1 hh
      rw [Session.taken_view b' rfl rfl]
      exact hinv.opened_late rfl hkeyed hout haccepted hhonest rfl (hbrought .rHash1 (by decide))
  | m5 =>
    refine Session.Inv.recorded_of ?_ rfl
    have hstate : s.reg.state = .waitM5 := of_decide_eq_true hawaited
    have hkeyed : s.reg.state.keyed = true := by rw [hstate]; rfl
    have hheld : ∀ f ∈ [Field.eHash1, .eHash2],
        s.heard.after C c.env (s.reg.handed c .m5) msg .m5 f = some (b'.regs f).toList := by
      intro f hf
      have hfield : ∀ f ∈ [Field.eHash1, .eHash2], f ∉ Message.m5.brings ∧
          f ∈ [Field.authKey, .pke, .pkr, .psk1, .psk2, .eHash1, .eHash2] := by
        decide
      rw [Heard.after_of_notMem (hfield f hf).1, hinv.held f (by rw [hstate]; exact hf),
        hout.keys_kept rfl f (hfield f hf).2]
      rfl
    refine ⟨hinv.accepted, fun _ => hinv.psk_late rfl hkeyed hout, fun f hf => ?_, fun h hh => ?_⟩
    · change f ∈ [Field.eHash2] at hf
      obtain rfl := List.mem_singleton.1 hf
      exact hheld .eHash2 (by decide)
    · change h ∈ [eHalf1] at hh
      obtain rfl := List.mem_singleton.1 hh
      rw [Session.taken_view b' rfl rfl]
      exact hinv.opened_late rfl hkeyed hout haccepted hhonest rfl (hheld .eHash1 (by decide))
  | m6 =>
    refine Session.Inv.recorded_of ?_ rfl
    have hstate : s.reg.state = .waitM6 := of_decide_eq_true hawaited
    have hkeyed : s.reg.state.keyed = true := by rw [hstate]; rfl
    have hheld : s.heard.after C c.env (s.reg.handed c .m6) msg .m6 .rHash2 =
        some (b'.regs .rHash2).toList := by
      rw [Heard.after_of_notMem (by decide), hinv.held .rHash2 (by rw [hstate]; decide),
        hout.regs_kept (by decide) (by decide) (by decide) (by decide)]
      rfl
    refine ⟨hinv.accepted, fun _ => hinv.psk_late rfl hkeyed hout,
      fun f hf => absurd hf List.not_mem_nil, fun h hh => ?_⟩
    change h ∈ [rHalf1, rHalf2] at hh
    rw [Session.taken_view b' rfl rfl]
    obtain rfl | hh := List.mem_cons.1 hh
    · exact hinv.proven_late rfl hout (by rw [hstate]; exact List.mem_cons_self) (by decide)
    · obtain rfl := List.mem_singleton.1 hh
      exact hinv.opened_late rfl hkeyed hout haccepted hhonest rfl hheld
  | m7 =>
    have hstate : s.reg.state = .waitM7 := of_decide_eq_true hawaited
    have hkeyed : s.reg.state.keyed = true := by rw [hstate]; rfl
    have hheld : s.heard.after C c.env (s.reg.handed c .m7) msg .m7 .eHash2 =
        some (b'.regs .eHash2).toList := by
      rw [Heard.after_of_notMem (by decide), hinv.held .eHash2 (by rw [hstate]; decide),
        hout.keys_kept rfl .eHash2 (by decide)]
      rfl
    have hanswer : ((s.handled b').answered C c .m7).blk = b' ∧
        ((s.handled b').answered C c .m7).state.keyed = false := by
      unfold Registration.answered
      dsimp only
      split
      · exact ⟨rfl, rfl⟩
      · exact ⟨rfl, rfl⟩
    refine Session.Inv.recorded_idle hinv.accepted (fun h hh => ?_) hanswer.2
    rw [Session.taken_view b' rfl (congrArg WscBlock.regs hanswer.1)]
    change h ∈ [eHalf1, eHalf2] at hh
    obtain rfl | hh := List.mem_cons.1 hh
    · exact hinv.proven_late rfl hout (by rw [hstate]; exact List.mem_cons_self) (by decide)
    · obtain rfl := List.mem_singleton.1 hh
      exact hinv.opened_late rfl hkeyed hout haccepted hhonest rfl hheld
  | m8 =>
    have hstate : s.reg.state = .waitM8 := of_decide_eq_true hawaited
    have hidle : ((s.handled b').answered C c .m8).state.keyed = false := by
      change (if b'.staMode then WscState.waitEapFail else if c.upnp then .configured
        else if c.isEntryApCli then .waitEapFail else .waitAck).keyed = false
      split
      · rfl
      split
      · rfl
      split
      · rfl
      · rfl
    refine Session.Inv.recorded_idle hinv.accepted (fun h hh => ?_) hidle
    change h ∈ [rHalf1, rHalf2] at hh
    rw [Session.taken_view b' rfl rfl]
    refine hinv.proven_late rfl hout (by rw [hstate]; exact hh) ?_
    exact ⟨List.not_mem_nil, List.not_mem_nil⟩

/-- **A message keeps the invariant.** -/
theorem Session.Inv.message (hinv : s.Inv C) (hsound : Sound C s (.message m msg c)) :
    ∃ t, s.message C m msg c = some t ∧ t.Inv C := by
  by_cases hawaited : m.awaited s.reg.state = true
  · obtain ⟨hbounds, hhonest⟩ := hsound hawaited
    obtain ⟨⟨b', ret⟩, hproc⟩ := (processMessage_safe m).2 hbounds
    have hreceive : s.reg.receive C c m msg =
        .ok (if ret = wscErrorNoError then (s.handled b').answered C c m
          else (s.handled b').failed c m ret, some ret) := by
      unfold Registration.receive
      rw [if_pos hawaited, hproc]
      rfl
    unfold Session.message
    rw [hreceive]
    by_cases hret : ret = wscErrorNoError
    · subst hret
      refine ⟨_, rfl, ?_⟩
      by_cases hm : m = .m1
      · subst hm
        refine Session.Inv.recorded_of (.of_idle hinv.accepted ?_) rfl
        change ((s.handled b').answered C c .m1).state.keyed = false
        unfold Registration.answered
        dsimp only
        split
        · dsimp only
          split
          · rfl
          · rfl
        · rfl
      · have hstores : m.stores c.env := by
          by_contra hno
          rw [processMessage_noMemory hno] at hproc
          have hcode : wscErrorCanNotAllocMem = wscErrorNoError :=
            congrArg Prod.snd (Except.ok.inj hproc)
          exact absurd hcode (by decide)
        have hout := processMessage_outcome hm hstores hproc
        have haccepted : ¬ Rejected C c.env (s.reg.handed c m) msg m :=
          fun hrej => hout.ret.2 hrej rfl
        exact hinv.answered hawaited hm hout haccepted (hhonest haccepted)
    · refine ⟨_, if_neg hret, ?_⟩
      rw [if_neg hret]
      exact .of_idle hinv.accepted (Registration.failed_idle _ _ _ _)
  · have hreceive : s.reg.receive C c m msg = .ok (s.reg, none) := if_neg hawaited
    unfold Session.message
    rw [hreceive]
    exact ⟨s, rfl, hinv⟩

end

/-- **Every event keeps the invariant** if it meets the condition. -/
theorem Session.Inv.step (hinv : s.Inv C) {e : Event} (hsound : Sound C s e) :
    ∃ t, s.step C e = some t ∧ t.Inv C := by
  cases e with
  | start c => exact ⟨_, rfl, hinv.start c hsound⟩
  | message m msg c => exact hinv.message hsound
  | pin pin pinCodeLen => exact ⟨_, rfl, hinv.accepted, hinv.psk, hinv.held, hinv.proven⟩
  | reComputePke => exact ⟨_, rfl, hinv.accepted, hinv.psk, hinv.held, hinv.proven⟩
  | other state blk =>
    by_cases hkeyed : state.keyed = true
    · exact ⟨s, if_pos hkeyed, hinv⟩
    · refine ⟨_, if_neg hkeyed, .of_idle hinv.accepted ?_⟩
      exact Bool.eq_false_iff.2 hkeyed

end

/-! ## 8. The law -/

/-- A block whose state machine is off. -/
def Session.off (blk : WscBlock) (pin : Octets 8) (pinCodeLen : Nat) (reComputePke : Bool) :
    Session where
  reg := { state := .off, blk, pin, pinCodeLen, reComputePke }
  heard _ := none
  pin := pin
  pinCodeLen := pinCodeLen
  accepted := []

/-- **Nothing is accepted that has not been proven**, in a run whose messages bring what they are to
bring and whose M7 open the second hash of the enrollee. -/
theorem commitmentLaw_of_sound (C : WscCrypto) (blk : WscBlock) (pin : Octets 8) (pinCodeLen : Nat)
    (reComputePke : Bool) (es : List Event)
    (h : Run.StepsMeet (step C) (fun o e => ∀ s, o = some s → Sound C s e)
      (some (Session.off blk pin pinCodeLen reComputePke)) es) :
    CommitmentLaw C
      (Run.final (step C) (some (Session.off blk pin pinCodeLen reComputePke)) es) := by
  have hstart : (Session.off blk pin pinCodeLen reComputePke).Inv C :=
    .of_idle (fun a ha => absurd ha List.not_mem_nil) rfl
  have hend := Run.invariant (fun o => ∃ s : Session, o = some s ∧ s.Inv C) ?_ ⟨_, rfl, hstart⟩ h
  · obtain ⟨t, ht, hinv⟩ := hend
    exact ⟨t, ht, hinv.accepted⟩
  · rintro o e ⟨s, rfl, hinv⟩ hsound
    exact hinv.step (hsound s rfl)

/-- The condition on a message, where it can be computed. -/
theorem sound_of {C : WscCrypto} {o : Option Session} {m : Message} {msg : List UInt8}
    {c : Circumstances} (hmem : c.memory = true)
    (hsafe : o.map (fun s => (processMessage C c.env (s.reg.handed c m) msg m).isOk) = some true)
    (hbrings : ∀ f ∈ m.brings,
      o.map (fun s => (m.values C c.env (s.reg.handed c m) msg f).getLast?.map List.length) =
        some (some f.size))
    (hopens : m = .m7 → o.map (fun s =>
      let r := m.stored C c.env (s.reg.handed c m) msg
      decide ((r .eHash2).toList = (commitment C r .es2 .psk2).toList)) = some true) :
    ∀ s, o = some s → Sound C s (.message m msg c) := by
  rintro s rfl hawaited
  have hok : (processMessage C c.env (s.reg.handed c m) msg m).isOk = true := Option.some.inj hsafe
  refine ⟨?_, fun _ => ⟨fun _ => hmem, fun f hf => ?_, fun hm => ?_⟩⟩
  · rw [← processMessage_safe]
    cases hproc : processMessage C c.env (s.reg.handed c m) msg m with
    | error e =>
      rw [hproc] at hok
      exact nomatch hok
    | ok r => exact ⟨r, rfl⟩
  · have hlen := Option.some.inj (hbrings f hf)
    exact Option.map_eq_some_iff.1 hlen
  · exact of_decide_eq_true (Option.some.inj (hopens hm))

namespace Example

/-- An attribute, as it is sent. -/
def attr (type : Nat) (value : List UInt8) : List UInt8 :=
  [UInt8.ofNat (type / 256), UInt8.ofNat type, 0, UInt8.ofNat value.length] ++ value

/-- An M1 that has every attribute. -/
def m1Message : List UInt8 :=
  (m1Required.map fun type =>
    attr type (List.replicate (if type = wscIdOsVersion then 8 else 2) 0)).flatten ++
      attr wscIdAuthenticator []

/-- A message to the registrar, with a nonce that it takes. -/
def toRegistrar (type : UInt8) (body : List UInt8) : List UInt8 :=
  attr wscIdVersion [0x10] ++ attr wscIdMsgType [type] ++
    attr wscIdRegistrarNonce (List.replicate 16 0) ++ body ++
      attr wscIdAuthenticator (List.replicate 8 0)

/-- An M3. The first hash is what the functions of no use make of anything. -/
def m3Message (octet : UInt8) : List UInt8 :=
  toRegistrar 7
    (attr wscIdEHash1 (List.replicate 32 0) ++ attr wscIdEHash2 (List.replicate 32 octet))

/-- An M5 or an M7: a nonce, enciphered. -/
def nonceMessage (type : UInt8) (nonce : Nat) : List UInt8 :=
  toRegistrar type (attr wscIdEncrSettings
    (attr nonce (List.replicate 16 0) ++ attr wscIdKeyWrapAuth (List.replicate 8 0) ++
      List.replicate 16 0))

def circumstances : Circumstances where
  env := surroundings
  nonce := .zero 16
  memory := true
  tx := []
  entryAddr := .zero 6
  bSendM2D := false
  bSetupLock := false
  bForceSetAP := false
  isEntryApCli := false
  upnp := false

def offSession : Session := .off freshBlock (.zero 8) 8 true

/-- A run of the registrar, with an E-Hash2 of this octet. -/
def registration (octet : UInt8) : List Event :=
  [.other .waitM1 freshBlock, .message .m1 m1Message circumstances,
    .message .m3 (m3Message octet) circumstances,
    .message .m5 (nonceMessage 9 wscIdESNonce1) circumstances,
    .message .m7 (nonceMessage 11 wscIdESNonce2) circumstances]

/-- A run to the end in which all hashes are opened. -/
theorem commitmentLaw_registration :
    CommitmentLaw noCrypto (Run.final (step noCrypto) (some offSession) (registration 0)) ∧
      (Run.final (step noCrypto) (some offSession) (registration 0)).map (fun s => s.reg.state) =
        some .waitDone := by
  refine ⟨commitmentLaw_of_sound noCrypto freshBlock (.zero 8) 8 true (registration 0) ?_,
    by decide +kernel⟩
  refine ⟨fun _ _ => trivial, ?_, ?_, ?_, ?_, trivial⟩
  · exact sound_of rfl (by decide +kernel) (by decide) (fun h => (nomatch h))
  · exact sound_of rfl (by decide +kernel) (by decide +kernel) (fun h => (nomatch h))
  · exact sound_of rfl (by decide +kernel) (by decide +kernel) (fun h => (nomatch h))
  · exact sound_of rfl (by decide +kernel) (by decide +kernel) (fun _ => by decide +kernel)

/-- **An M7 that does not open the second hash is accepted.** -/
theorem not_commitmentLaw_registration :
    ¬ CommitmentLaw noCrypto (Run.final (step noCrypto) (some offSession) (registration 1)) := by
  rintro ⟨t, ht, hlaw⟩
  have hend : (Run.final (step noCrypto) (some offSession) (registration 1)).map
      (fun s => s.accepted.map fun a => (a.1, a.2.heard .eHash2)) =
        some [(.m7, some (List.replicate 32 1)), (.m5, some (List.replicate 32 1)),
          (.m3, some (List.replicate 32 1)), (.m1, none)] := by
    decide +kernel
  rw [ht] at hend
  have hm7 : (Message.m7, some (List.replicate 32 1)) ∈
      t.accepted.map fun a => (a.1, a.2.heard .eHash2) := by
    have hlist := Option.some.inj hend
    dsimp only at hlist
    rw [hlist]
    exact List.mem_cons_self
  obtain ⟨⟨m, v⟩, ha, heq⟩ := List.mem_map.1 hm7
  obtain ⟨rfl, hheard⟩ := Prod.mk.inj heq
  obtain ⟨hash, nonce, hhash, -, hopens⟩ :=
    hlaw _ ha eHalf2 (List.mem_cons_of_mem _ List.mem_cons_self)
  obtain rfl := Option.some.inj (hheard.symm.trans hhash)
  have hzero : List.replicate 32 (1 : UInt8) = (Octets.zero 32).toList := hopens
  exact absurd hzero (by decide)

end Example

end Mt7601.Wsc
