/-
# Runs of the supplicant

What a station does over any sequence of received EAPOL-Key frames of one association, whatever
they contain and whoever has sent them:

* the key under which a protected frame is verified (section 2);
* how often one derived key is installed (section 3);
* the replay counters of the frames it accepts (section 4).

The first two laws hold of runs that keep out of one state each: `PeerPairMsg3Action` and
`PeerGroupMsg1Action` never look at `WpaState`, as the handlers of the other side do. The examples
at the end are the shortest runs that break them.
-/
import Mt7601.Lib.Run
import Mt7601.Wpa.Steps

namespace Mt7601.Wpa

variable {C : Crypto} {ad₀ s : Adapter}

/-! ## 1. The runs -/

/-- What the station takes in one step: what it meets, and a frame. -/
abbrev StaInput := Env × Elem

def staOutcome (C : Crypto) (s : Adapter) (i : StaInput) : Outcome :=
  wpaEapolKeyAction C i.1 s i.2

def staStep (C : Crypto) (s : Adapter) (i : StaInput) : Adapter :=
  (staOutcome C s i).ad

/-- The state in which the run of the inputs `is` ends. -/
abbrev staFinal (C : Crypto) (s : Adapter) (is : List StaInput) : Adapter :=
  Run.final (staStep C) s is

theorem staFinal_append (s : Adapter) (is js : List StaInput) :
    staFinal C s (is ++ js) = staFinal C (staFinal C s is) js :=
  Run.final_append _ _ _ _

theorem staFinal_concat (s : Adapter) (is : List StaInput) (i : StaInput) :
    staFinal C s (is ++ [i]) = staStep C (staFinal C s is) i :=
  staFinal_append s is [i]

/-- A fresh association, as `StaAddMacTableEntry` leaves the entry. -/
structure FreshAssociation (ad : Adapter) : Prop where
  opMode : ad.opMode = .sta
  ptk : ad.entry.ptk = .zero lenPtk
  rCounter : ad.entry.rCounter = .zero lenKeyDescReplay
  wpaState : ad.entry.wpaState = .initPsk

theorem staStep_change (hsta : s.opMode = .sta) (i : StaInput) :
    StaChange C i.1 s i.2 (staOutcome C s i) :=
  (wpaEapolKeyAction_staStep hsta).change

theorem staStep_config (hsta : s.opMode = .sta) (i : StaInput) :
    (staStep C s i).config = s.config :=
  (wpaEapolKeyAction_staStep hsta).config

theorem staFinal_config (hsta : s.opMode = .sta) (is : List StaInput) :
    (staFinal C s is).config = s.config := by
  refine Run.invariant_always (fun s' : Adapter => s'.config = s.config) ?_ rfl
  intro s' i hs'
  have hmode : s'.opMode = s.opMode := congrArg StaConfig.opMode hs'
  rw [staStep_config (hmode.trans hsta)]
  exact hs'

theorem staFinal_opMode (hsta : s.opMode = .sta) (is : List StaInput) :
    (staFinal C s is).opMode = .sta :=
  (congrArg StaConfig.opMode (staFinal_config hsta is)).trans hsta

/-- A frame for one of the two protected messages of an authenticator. -/
def protectedHandler (s : Adapter) (i : StaInput) : Prop :=
  handlerOf s i.2 = some .pairMsg3 ∨ handlerOf s i.2 = some .groupMsg1

/-- The message that a frame for `h` is checked as. -/
def Handler.msgType : Handler → MsgType
  | .pairMsg1 => .pairMsg1
  | .pairMsg2 => .pairMsg2
  | .pairMsg3 => .pairMsg3
  | .pairMsg4 => .pairMsg4
  | .groupMsg1 => .groupMsg1
  | _ => .groupMsg2

/-- The integrity code of the frame is right under the PTK the station holds. -/
def micVerified (C : Crypto) (s : Adapter) (i : StaInput) : Prop :=
  ∃ h, handlerOf s i.2 = some h ∧ micOk C h.msgType s.entry.ptk i.2.pkt = true

/-! ## 2. The key a protected frame is verified under -/

/-- `ptk` is what `WpaDerivePTK` made of the PMK and the nonces of a message 1 that the run has
accepted. -/
def DerivedIn (C : Crypto) (ad₀ : Adapter) (is : List StaInput) (ptk : Octets lenPtk) : Prop :=
  ∃ pre j mid, is = pre ++ j :: mid ∧
    handlerOf (staFinal C ad₀ pre) j.2 = some .pairMsg1 ∧
    (staOutcome C (staFinal C ad₀ pre) j).verdict.passed = true ∧
    j.1.alloc .prf = true ∧
    ptk = wpaDerivePtk C j.1 ad₀.staCfg.pmk j.2.pkt.keyNonce ad₀.entry.addr j.1.random
      ad₀.currentAddress

theorem DerivedIn.mono {is : List StaInput} {ptk : Octets lenPtk} (h : DerivedIn C ad₀ is ptk)
    (js : List StaInput) : DerivedIn C ad₀ (is ++ js) ptk := by
  obtain ⟨pre, j, mid, rfl, hrest⟩ := h
  exact ⟨pre, j, mid ++ js, by simp, hrest⟩

/-- The three descriptor versions with an integrity code. -/
def hasMicVersion (pkt : EapolPacket) : Prop :=
  pkt.keyInfo.keyDescVer = keyDescTkip ∨ pkt.keyInfo.keyDescVer = keyDescAes ∨
    pkt.keyInfo.keyDescVer = keyDescExt

/-- **The law of the derived key.** Wherever a protected message is accepted, grants a key or opens
the port, its integrity code was verified under a PTK derived from an earlier message 1. -/
def DerivedKeyLaw (C : Crypto) (ad₀ : Adapter) (is : List StaInput) : Prop :=
  ∀ pre i post, is = pre ++ i :: post →
    let s := staFinal C ad₀ pre
    let o := staOutcome C s i
    protectedHandler s i → (o.verdict = .accepted ∨ ∃ e ∈ o.out, e.grants = true) →
      micVerified C s i ∧ hasMicVersion i.2.pkt ∧ DerivedIn C ad₀ pre s.entry.ptk

/-- The step keeps to what the law needs: a protected message that verifies has a code, and finds
the handshake past message 1; and a message 1 finds the memory to derive from. -/
def derivesFirst (C : Crypto) (s : Adapter) (i : StaInput) : Prop :=
  (protectedHandler s i → micVerified C s i →
    hasMicVersion i.2.pkt ∧ WpaState.ptkInitNegotiating ≤ s.entry.wpaState) ∧
  (handlerOf s i.2 = some .pairMsg1 → i.1.alloc .prf = true)

/-- What the run has done so far, when every step has kept to it. -/
structure DerivedSoFar (C : Crypto) (ad₀ : Adapter) (done : List StaInput) (s : Adapter) :
    Prop where
  final : s = staFinal C ad₀ done
  config : s.config = ad₀.config
  opMode : s.opMode = .sta
  derived : WpaState.ptkInitNegotiating ≤ s.entry.wpaState → DerivedIn C ad₀ done s.entry.ptk

/-- A protected message that passes has verified. -/
theorem micVerified_of_passed (hsta : s.opMode = .sta) {i : StaInput}
    (hprot : protectedHandler s i) (hpass : (staOutcome C s i).verdict.passed = true) :
    micVerified C s i := by
  cases staStep_change (C := C) hsta i with
  | quiet _ _ hnot =>
    obtain ⟨hno3, hnog⟩ := hnot hpass
    exact hprot.elim (absurd · hno3) (absurd · hnog)
  | pairMsg1 hh _ _ _ _ =>
    rcases hprot with h | h <;> rw [hh] at h <;> cases h
  | pairMsg3 hh _ _ hmic => exact ⟨_, hh, hmic⟩
  | groupMsg1 hh _ _ hmic => exact ⟨_, hh, hmic⟩
  | pairMsg4 hh _ _ _ hmic => exact ⟨_, hh, hmic⟩

/-- A step that grants something to a protected message has let it pass. -/
theorem passed_of_grants (hsta : s.opMode = .sta) {i : StaInput}
    (hgrant : ∃ e ∈ (staOutcome C s i).out, e.grants = true) :
    (staOutcome C s i).verdict.passed = true := by
  obtain ⟨e, he, hgrant⟩ := hgrant
  cases staStep_change (C := C) hsta i with
  | quiet _ hout _ =>
    rw [hout e he] at hgrant
    cases hgrant
  | pairMsg1 _ hpass => exact hpass
  | pairMsg3 _ hpass => exact hpass
  | groupMsg1 _ hpass => exact hpass
  | pairMsg4 _ hpass => exact hpass

/-- One step. Only message 1 writes the PTK; the state gets past it only by message 1, or by a
protected message that verifies, which finds it there already. -/
theorem DerivedSoFar.step {done : List StaInput} {i : StaInput}
    (h : DerivedSoFar C ad₀ done s) (hok : derivesFirst C s i) :
    DerivedSoFar C ad₀ (done ++ [i]) (staStep C s i) := by
  have hconfig := staStep_config (C := C) h.opMode i
  have hkeep : WpaState.ptkInitNegotiating ≤ s.entry.wpaState →
      (staStep C s i).entry.ptk = s.entry.ptk →
      DerivedIn C ad₀ (done ++ [i]) (staStep C s i).entry.ptk := by
    intro hstate hptk
    rw [hptk]
    exact (h.derived hstate).mono [i]
  refine ⟨?_, hconfig.trans h.config, ?_, ?_⟩
  · rw [staFinal_concat, h.final]
  · exact (congrArg StaConfig.opMode hconfig).trans h.opMode
  · intro hstate
    cases staStep_change (C := C) h.opMode i with
    | quiet same _ _ =>
      refine hkeep ?_ same.ptk
      rw [← same.wpaState]
      exact hstate
    | pairMsg1 hh hpass _ hentry _ =>
      have hs : s = staFinal C ad₀ done := h.final
      refine ⟨done, i, [], rfl, hs ▸ hh, hs ▸ hpass, hok.2 hh, ?_⟩
      have hpmk : s.staCfg.pmk = ad₀.staCfg.pmk := congrArg StaConfig.pmk h.config
      have haddr : s.entry.addr = ad₀.entry.addr := congrArg StaConfig.addr h.config
      have hcur : s.currentAddress = ad₀.currentAddress :=
        congrArg StaConfig.currentAddress h.config
      have hptk := congrArg MacTableEntry.ptk hentry
      rw [← hpmk, ← haddr, ← hcur]
      exact hptk
    | pairMsg3 hh _ _ hmic hptk =>
      exact hkeep (hok.1 (.inl hh) ⟨_, hh, hmic⟩).2 hptk
    | groupMsg1 hh _ _ hmic hptk =>
      exact hkeep (hok.1 (.inr hh) ⟨_, hh, hmic⟩).2 hptk
    | pairMsg4 _ _ hneg _ _ hptk => exact hkeep hneg hptk

/-- **Protected messages are verified under a derived key**, in every run whose steps keep to
`derivesFirst`. -/
theorem derivedKeyLaw_of_derivesFirst {is : List StaInput} (hfresh : FreshAssociation ad₀)
    (hok : Run.StepsMeet (staStep C) (derivesFirst C) ad₀ is) : DerivedKeyLaw C ad₀ is := by
  rintro pre i post rfl
  dsimp only
  intro hprot hgrant
  obtain ⟨hpre, hi⟩ := Run.stepsMeet_append.1 hok
  have hinit : DerivedSoFar C ad₀ [] ad₀ := by
    refine ⟨rfl, rfl, hfresh.opMode, ?_⟩
    intro hstate
    rw [hfresh.wpaState] at hstate
    exact absurd hstate (by decide)
  have hinv := Run.invariant_history (DerivedSoFar C ad₀) (fun _ _ _ => DerivedSoFar.step)
    hinit hpre
  have hpass : (staOutcome C (staFinal C ad₀ pre) i).verdict.passed = true := by
    rcases hgrant with hacc | hgrant
    · rw [hacc]
      rfl
    · exact passed_of_grants hinv.opMode hgrant
  have hmic := micVerified_of_passed hinv.opMode hprot hpass
  obtain ⟨hver, hstate⟩ := hi.1.1 hprot hmic
  exact ⟨hmic, hver, hinv.derived hstate⟩

/-! ## 3. How often a key is installed -/

/-- The step derives a PTK: it accepts a message 1. -/
def derives (C : Crypto) (s : Adapter) (i : StaInput) : Prop :=
  handlerOf s i.2 = some .pairMsg1 ∧ (staOutcome C s i).verdict.passed = true

/-- The pairwise keys a run gives to the hardware. -/
def installsOf (C : Crypto) : Adapter → List StaInput → Nat
  | _, [] => 0
  | s, i :: is => pairwiseInstalls (staOutcome C s i).out + installsOf C (staStep C s i) is

/-- **The law of the single installation.** A stretch of the run in which no PTK is derived
installs a pairwise key at most once: the PTK it runs under is not installed again. -/
def SingleInstallLaw (C : Crypto) (ad₀ : Adapter) (is : List StaInput) : Prop :=
  ∀ pre mid post, is = pre ++ mid ++ post →
    Run.StepsMeet (staStep C) (fun s i => ¬ derives C s i) (staFinal C ad₀ pre) mid →
      installsOf C (staFinal C ad₀ pre) mid ≤ 1

/-- The step is not one that installs again: once the handshake is done, no message 3 or message 4
verifies with a counter that passes and, for message 3, the nonce of the handshake. -/
def noReinstall (C : Crypto) (s : Adapter) (i : StaInput) : Prop :=
  s.entry.wpaState = .ptkInitDone →
    ¬ (handlerOf s i.2 = some .pairMsg3 ∧ micOk C .pairMsg3 s.entry.ptk i.2.pkt = true ∧
      replayOkSupplicant i.2.pkt.replayCounter s.entry.rCounter = true ∧
      i.2.pkt.keyNonce = s.entry.aNonce) ∧
    ¬ (handlerOf s i.2 = some .pairMsg4 ∧ micOk C .pairMsg4 s.entry.ptk i.2.pkt = true ∧
      i.2.pkt.replayCounter = s.entry.rCounter)

/-- One step without a derivation: either it installs nothing and the state stays, or it installs
one key at most and finishes a handshake that was not finished. -/
theorem installs_step (hsta : s.opMode = .sta) {i : StaInput} (hok : noReinstall C s i)
    (hnot : ¬ derives C s i) :
    ((staStep C s i).entry.wpaState = s.entry.wpaState ∧
        pairwiseInstalls (staOutcome C s i).out = 0) ∨
      (s.entry.wpaState ≠ .ptkInitDone ∧ (staStep C s i).entry.wpaState = .ptkInitDone ∧
        pairwiseInstalls (staOutcome C s i).out ≤ 1) := by
  cases staStep_change (C := C) hsta i with
  | quiet same hout _ =>
    left
    exact ⟨same.wpaState,
      pairwiseInstalls_eq_zero fun e he => installsPairwise_of_grants (hout e he)⟩
  | pairMsg1 hh hpass => exact absurd ⟨hh, hpass⟩ hnot
  | pairMsg3 hh _ hreplay hmic _ _ _ hstate =>
    rcases hstate with hstate | ⟨hnonce, hdone, hcount⟩
    · exact .inl hstate
    · refine .inr ⟨?_, hdone, hcount⟩
      intro hs
      exact (hok hs).1 ⟨hh, hmic, hreplay, hnonce⟩
  | groupMsg1 _ _ _ _ _ _ _ hstate hcount => exact .inl ⟨hstate, hcount⟩
  | pairMsg4 hh _ _ hreplay hmic _ _ _ hdone hcount =>
    refine .inr ⟨?_, hdone, hcount⟩
    intro hs
    exact (hok hs).2 ⟨hh, hmic, hreplay⟩

/-- A stretch without a derivation: nothing if the handshake is finished, else one key at most. -/
theorem installsOf_le {mid : List StaInput} (hsta : s.opMode = .sta)
    (hok : Run.StepsMeet (staStep C) (noReinstall C) s mid)
    (hnot : Run.StepsMeet (staStep C) (fun s i => ¬ derives C s i) s mid) :
    installsOf C s mid ≤ 1 ∧ (s.entry.wpaState = .ptkInitDone → installsOf C s mid = 0) := by
  induction mid generalizing s with
  | nil => exact ⟨Nat.zero_le 1, fun _ => rfl⟩
  | cons i is ih =>
    have hsta' : (staStep C s i).opMode = .sta :=
      (congrArg StaConfig.opMode (staStep_config hsta i)).trans hsta
    obtain ⟨hle, hdone⟩ := ih hsta' hok.2 hnot.2
    rw [installsOf]
    rcases installs_step hsta hok.1 hnot.1 with ⟨hstate, hzero⟩ | ⟨hs, hstate, hcount⟩
    · rw [hzero, Nat.zero_add]
      exact ⟨hle, fun hs => hdone (hstate.trans hs)⟩
    · rw [hdone hstate]
      exact ⟨hcount, fun h => absurd h hs⟩

/-- Of two fields of one length, `RTMPCompareMemory` finds the one with the larger number. -/
theorem rtmpCompareMemory_eq_one : ∀ {l m : List UInt8}, l.length = m.length →
    (rtmpCompareMemory l m = 1 ↔ beVal m < beVal l)
  | [], [], _ => by simp [rtmpCompareMemory]
  | a :: as, b :: bs, hlen => by
      have hlen' : as.length = bs.length := Nat.succ.inj hlen
      rw [beVal_cons_lt_cons hlen'.symm, rtmpCompareMemory]
      split_ifs with hba hab
      · simp [hba]
      · have hne : b ≠ a := (UInt8.ne_of_lt hab).symm
        simp [hba, hne]
      · have heq : b = a := UInt8.le_antisymm (UInt8.not_lt.1 hab) (UInt8.not_lt.1 hba)
        rw [rtmpCompareMemory_eq_one hlen']
        simp [heq]

/-- The number of a replay counter. -/
def counterOf (c : Octets lenKeyDescReplay) : Nat := beVal c.toList

theorem counterOf_zero : counterOf (.zero lenKeyDescReplay) = 0 :=
  beVal_replicate_zero _

/-- **The check of the supplicant, as numbers.** -/
theorem replayOkSupplicant_iff (received stored : Octets lenKeyDescReplay) :
    replayOkSupplicant received stored = true ↔
      counterOf stored < counterOf received ∨ counterOf received = 0 := by
  have hlen : received.toList.length = stored.toList.length := by simp
  have hzero : received = .zero lenKeyDescReplay ↔ counterOf received = 0 := by
    constructor
    · intro h
      rw [h, counterOf_zero]
    · intro h
      refine Octets.toList_injective (beVal_injective (by simp) ?_)
      exact h.trans counterOf_zero.symm
  simp only [replayOkSupplicant, decide_eq_true_eq, rtmpCompareMemory_eq_one hlen, hzero]
  rfl

/-- The next counter, unless it wraps. -/
theorem counterOf_addOne {c : Octets lenKeyDescReplay} (h : counterOf c + 1 < 256 ^ 8) :
    counterOf (addOneTo64BitVar c) = counterOf c + 1 := by
  have hsucc := beVal_beSucc c.toList
  have hlen : c.toList.length = 8 := by simp
  rw [hlen] at hsucc
  have hval : counterOf (addOneTo64BitVar c) = beVal (beSucc c.toList).1 := rfl
  rw [hval, counterOf]
  rw [counterOf] at h
  split_ifs at hsucc <;> omega

/-- The frame is protected, and the step accepts it. -/
def acceptsProtected (C : Crypto) (s : Adapter) (i : StaInput) : Prop :=
  protectedHandler s i ∧ (staOutcome C s i).verdict.passed = true

/-- **Counters increase**, with no exception: of two protected frames the run accepts, the later has
the larger counter. -/
def CountersIncrease (C : Crypto) (ad₀ : Adapter) (is : List StaInput) : Prop :=
  ∀ pre i mid j post, is = pre ++ i :: (mid ++ j :: post) →
    acceptsProtected C (staFinal C ad₀ pre) i →
    acceptsProtected C (staFinal C ad₀ (pre ++ i :: mid)) j →
      counterOf i.2.pkt.replayCounter < counterOf j.2.pkt.replayCounter

/-- The step does not turn the counter back: no frame of the authenticator is accepted with the
counter zero, and the station does not itself count past the end. -/
def countsForward (C : Crypto) (s : Adapter) (i : StaInput) : Prop :=
  (staOutcome C s i).verdict.passed = true →
    ((handlerOf s i.2 = some .pairMsg1 ∨ protectedHandler s i) →
      counterOf i.2.pkt.replayCounter ≠ 0) ∧
    (handlerOf s i.2 = some .pairMsg4 → counterOf s.entry.rCounter + 1 < 256 ^ 8)

/-- An accepted protected frame: its counter passes, and is stored. -/
theorem acceptsProtected_counter (hsta : s.opMode = .sta) {i : StaInput}
    (h : acceptsProtected C s i) :
    (counterOf s.entry.rCounter < counterOf i.2.pkt.replayCounter ∨
        counterOf i.2.pkt.replayCounter = 0) ∧
      (staStep C s i).entry.rCounter = i.2.pkt.replayCounter := by
  obtain ⟨hprot, hpass⟩ := h
  cases staStep_change (C := C) hsta i with
  | quiet _ _ hnot =>
    obtain ⟨hno3, hnog⟩ := hnot hpass
    exact hprot.elim (absurd · hno3) (absurd · hnog)
  | pairMsg1 hh _ _ _ _ => rcases hprot with h | h <;> rw [hh] at h <;> cases h
  | pairMsg3 _ _ hreplay _ _ _ hctr => exact ⟨(replayOkSupplicant_iff _ _).1 hreplay, hctr⟩
  | groupMsg1 _ _ hreplay _ _ _ hctr => exact ⟨(replayOkSupplicant_iff _ _).1 hreplay, hctr⟩
  | pairMsg4 hh => rcases hprot with h | h <;> rw [hh] at h <;> cases h

/-- **The stored counter does not fall** over a step that counts forward. -/
theorem counter_le_step (hsta : s.opMode = .sta) {i : StaInput} (hok : countsForward C s i) :
    counterOf s.entry.rCounter ≤ counterOf (staStep C s i).entry.rCounter := by
  have hstored : ∀ pkt : EapolPacket,
      replayOkSupplicant pkt.replayCounter s.entry.rCounter = true →
      counterOf pkt.replayCounter ≠ 0 →
      counterOf s.entry.rCounter ≤ counterOf pkt.replayCounter := by
    intro pkt hreplay hne
    rcases (replayOkSupplicant_iff _ _).1 hreplay with hlt | hzero
    · exact Nat.le_of_lt hlt
    · exact absurd hzero hne
  cases staStep_change (C := C) hsta i with
  | quiet same _ _ =>
    have hctr : (staStep C s i).entry.rCounter = s.entry.rCounter := same.rCounter
    rw [hctr]
  | pairMsg1 hh hpass hreplay hentry _ =>
    have hctr : (staStep C s i).entry.rCounter = i.2.pkt.replayCounter :=
      congrArg MacTableEntry.rCounter hentry
    rw [hctr]
    exact hstored _ hreplay ((hok hpass).1 (.inl hh))
  | pairMsg3 hh hpass hreplay _ _ _ hctr _ =>
    have hctr' : (staStep C s i).entry.rCounter = i.2.pkt.replayCounter := hctr
    rw [hctr']
    exact hstored _ hreplay ((hok hpass).1 (.inr (.inl hh)))
  | groupMsg1 hh hpass hreplay _ _ _ hctr _ _ =>
    have hctr' : (staStep C s i).entry.rCounter = i.2.pkt.replayCounter := hctr
    rw [hctr']
    exact hstored _ hreplay ((hok hpass).1 (.inr (.inr hh)))
  | pairMsg4 hh hpass _ _ _ _ _ hctr _ _ =>
    have hctr' : (staStep C s i).entry.rCounter = s.entry.rCounter ∨
        (staStep C s i).entry.rCounter = addOneTo64BitVar s.entry.rCounter := hctr
    rcases hctr' with h | h
    · rw [h]
    · rw [h, counterOf_addOne ((hok hpass).2 hh)]
      exact Nat.le_succ _

/-- Nor over a stretch of such steps. -/
theorem counter_le_final (hsta : s.opMode = .sta) {mid : List StaInput}
    (hok : Run.StepsMeet (staStep C) (countsForward C) s mid) :
    counterOf s.entry.rCounter ≤ counterOf (staFinal C s mid).entry.rCounter := by
  refine (Run.invariant
    (fun s' => s'.opMode = .sta ∧ counterOf s.entry.rCounter ≤ counterOf s'.entry.rCounter)
    ?_ ⟨hsta, Nat.le_refl _⟩ hok).2
  rintro s' i ⟨hsta', hle⟩ hfwd
  exact ⟨(congrArg StaConfig.opMode (staStep_config hsta' i)).trans hsta',
    Nat.le_trans hle (counter_le_step hsta' hfwd)⟩

/-- The counters of the protected frames a run accepts, as the law has them: one by one, each is
zero or larger than the stored one; and of two, the later is the larger if from the first to the
second the run counts forward, whatever else it receives. -/
def CounterLaw (C : Crypto) (ad₀ : Adapter) (is : List StaInput) : Prop :=
  (∀ pre i post, is = pre ++ i :: post → acceptsProtected C (staFinal C ad₀ pre) i →
    counterOf i.2.pkt.replayCounter = 0 ∨
      counterOf (staFinal C ad₀ pre).entry.rCounter < counterOf i.2.pkt.replayCounter) ∧
  ∀ pre i mid j post, is = pre ++ i :: (mid ++ j :: post) →
    acceptsProtected C (staFinal C ad₀ pre) i →
    acceptsProtected C (staFinal C ad₀ (pre ++ i :: mid)) j →
    Run.StepsMeet (staStep C) (countsForward C) (staFinal C ad₀ (pre ++ [i])) (mid ++ [j]) →
      counterOf i.2.pkt.replayCounter < counterOf j.2.pkt.replayCounter

/-- **The counters of accepted frames increase**, up to the two ways back that the code leaves
open. -/
theorem counterLaw {is : List StaInput} (hfresh : FreshAssociation ad₀) :
    CounterLaw C ad₀ is := by
  constructor
  · rintro pre i post - hacc
    exact (acceptsProtected_counter (staFinal_opMode hfresh.opMode pre) hacc).1.symm
  · rintro pre i mid j post - hi hj hok
    have hsta := staFinal_opMode (C := C) hfresh.opMode pre
    have hsta₁ := staFinal_opMode (C := C) hfresh.opMode (pre ++ [i])
    have hsta₂ := staFinal_opMode (C := C) hfresh.opMode (pre ++ i :: mid)
    have hsplit : pre ++ i :: mid = pre ++ [i] ++ mid := by simp
    obtain ⟨hmid, hlast, -⟩ := Run.stepsMeet_append.1 hok
    have hat : staFinal C (staFinal C ad₀ (pre ++ [i])) mid = staFinal C ad₀ (pre ++ i :: mid) := by
      rw [← staFinal_append, ← hsplit]
    rw [← staFinal, hat] at hlast
    have hstored := (acceptsProtected_counter hsta hi).2
    have hle := counter_le_final hsta₁ hmid
    rw [hat, staFinal_concat, hstored] at hle
    rcases (acceptsProtected_counter hsta₂ hj).1 with hlt | hzero
    · exact Nat.lt_of_le_of_lt hle hlt
    · exact absurd hzero ((hlast hj.2).1 (.inr hj.1))

/-! ## 5. The shortest runs outside the laws -/

namespace Example

/-- A step in which every allocation succeeds. -/
def plenty : Env where
  alloc _ := true
  random := .zero 32
  txTsc := .zero 6
  now := 0
  closed := false
  stackPtk := .zero lenPtk
  stackGtk := .zero 32
  heap := []
  pool := []

/-- A WPA2-PSK station with AES that has just associated. -/
def station : Adapter where
  opMode := .sta
  currentAddress := List.Vector.replicate 6 2
  staCfg := {
    pmk := List.Vector.replicate 32 7
    ptk := .zero lenPtk
    gtk := List.replicate 32 0
    groupCipher := .encryption3Enabled
    rsnIe := ⟨[1, 0, 0, 15, 172, 4], by decide⟩
    defaultKeyId := 0
    portSecured := .notSecured }
  bssidNum := 0
  maxMbssidNum := 1
  mbss := {
    bssid := .zero 6
    authMode := .openSystem
    groupKeyWepStatus := .wepDisabled
    pmk := .zero 32
    gmk := .zero 32
    gNonce := .zero 32
    gtk := .zero 32
    defaultKeyId := 0
    rsnIe0 := ⟨[], Nat.zero_le _⟩
    rsnIe1 := ⟨[], Nat.zero_le _⟩
    pmkidCache := List.Vector.replicate 8 ⟨false, .zero 6, 0, .zero 16, .zero 32⟩ }
  sharedKey := List.Vector.replicate 4 {}
  entry := {
    entryClient := true
    addr := List.Vector.replicate 6 1
    authMode := .wpa2Psk
    wepStatus := .encryption3Enabled
    sst := .assoc
    wpaState := .initPsk
    portSecured := .notSecured
    privacyFilter := .filter8021xWep }

theorem station_fresh : FreshAssociation station := ⟨rfl, rfl, rfl, rfl⟩

/-- The replay counter with the number `n`, for small `n`. -/
def counter (n : UInt8) : Octets lenKeyDescReplay := .ofList 8 [0, 0, 0, 0, 0, 0, 0, n]

/-- Message 1 with the nonce zero. -/
def msg1 : Elem where
  addr2 := List.Vector.replicate 6 1
  msgLen := 131
  pkt := {
    proVer := eapolVer
    proType := eapolKey
    bodyLen := 95
    type := wpa2KeyDesc
    keyInfo := { keyDescVer := keyDescAes, keyType := true, keyAck := true }
    replayCounter := counter 1 }

/-- Message 3 without key data, before it has its code. -/
def msg3Frame (n : UInt8) : EapolPacket where
  proVer := eapolVer
  proType := eapolKey
  bodyLen := 95
  type := wpa2KeyDesc
  keyInfo := {
    keyMic := true, secure := true, keyDescVer := keyDescAes, keyType := true, install := true,
    keyAck := true }
  replayCounter := counter n

/-- Message 3 as a holder of `ptk` sends it. -/
def msg3 (C : Crypto) (ptk : Octets lenPtk) (n : UInt8) : Elem where
  addr2 := List.Vector.replicate 6 1
  msgLen := 131
  pkt := { msg3Frame n with keyMic := micOf C keyDescAes ptk (msg3Frame n).micInput }

/-- The PTK of message 1. -/
def derivedPtk (C : Crypto) : Octets lenPtk :=
  wpaDerivePtk C plenty station.staCfg.pmk (.zero 32) station.entry.addr plenty.random
    station.currentAddress

/-- The station after message 1. -/
theorem msg1_accepted (C : Crypto) :
    (staStep C station (plenty, msg1)).config = station.config ∧
      (staStep C station (plenty, msg1)).entry.wpaState = .ptkInitNegotiating ∧
      (staStep C station (plenty, msg1)).entry.ptk = derivedPtk C ∧
      (staStep C station (plenty, msg1)).entry.aNonce = .zero 32 ∧
      (staStep C station (plenty, msg1)).entry.rCounter = counter 1 :=
  ⟨rfl, rfl, rfl, rfl, rfl⟩

/-- **A message 3 under the PTK of the entry is accepted in every state** of the handshake, and
installs that PTK. -/
theorem msg3_accepted (C : Crypto) {s : Adapter} {n : UInt8} (hconfig : s.config = station.config)
    (hstate : WpaState.initPsk ≤ s.entry.wpaState) (hnonce : s.entry.aNonce = .zero 32)
    (hctr : replayOkSupplicant (counter n) s.entry.rCounter = true) :
    let i : StaInput := (plenty, msg3 C s.entry.ptk n)
    handlerOf s i.2 = some .pairMsg3 ∧ (staOutcome C s i).verdict = .accepted ∧
      pairwiseInstalls (staOutcome C s i).out = 1 ∧
      (staStep C s i).entry = { s.entry with
        rCounter := counter n
        wpaState := .ptkInitDone
        pairwiseKey := (staStep C s i).entry.pairwiseKey
        portSecured := .secured
        privacyFilter := .acceptAll } := by
  intro i
  have hsta : s.opMode = .sta := congrArg StaConfig.opMode hconfig
  have hclient : s.entry.entryClient = true := congrArg StaConfig.entryClient hconfig
  have haddr : s.entry.addr = List.Vector.replicate 6 1 := congrArg StaConfig.addr hconfig
  have hauth : s.entry.authMode = .wpa2Psk := congrArg StaConfig.authMode hconfig
  have hwep : s.entry.wepStatus = .encryption3Enabled := congrArg StaConfig.wepStatus hconfig
  have hsst : s.entry.sst = .assoc := congrArg StaConfig.sst hconfig
  have hadmits : wpaEapolKeyAdmits s i.2 = true := by
    refine decide_eq_true ⟨decide_eq_true ⟨hclient, haddr⟩, ?_, ?_, .inl rfl, .inr rfl, ?_, ?_,
      hsst, hstate⟩
    · rw [hauth]
      decide
    · exact (by decide : UInt64.ofNat (95 + 4) ≤ 131 - 24 - 8)
    · rw [hwep]
      nofun
    · exact fun _ => .inl rfl
  have hh : handlerOf s i.2 = some .pairMsg3 := by
    rw [handlerOf, hadmits]
    rfl
  have hp : Passes C plenty s i.2.pkt .pairMsg3 s [] := by
    refine ⟨rfl, hctr, ?_, rfl⟩
    exact decide_eq_true (.inr rfl)
  have hout : staOutcome C s i = pairMsg3Passed C plenty i.2.pkt s := by
    rw [staOutcome, wpaEapolKeyAction_of_handlerOf hh]
    exact peerPairMsg3Action_of_passes hsta hclient rfl hp
  have hpassed : pairMsg3Passed C plenty i.2.pkt s = _ := if_neg (not_not.2 hnonce)
  rw [staStep, hout, hpassed]
  simp only [pairMsg3Install, wpaInstallPairwiseKey, pairwiseKeyOf, hwep, hauth]
  exact ⟨hh, rfl, rfl, rfl⟩

/-- A station that has received nothing takes a message 3 under the key zero. -/
theorem not_derivedKeyLaw :
    ¬ ∃ C : Crypto, DerivedKeyLaw C station [(plenty, msg3 C (.zero lenPtk) 1)] := by
  rintro ⟨C, hlaw⟩
  obtain ⟨hh, hacc, -⟩ := msg3_accepted C (s := station) (n := 1) rfl (by decide) rfl (by decide)
  obtain ⟨-, -, pre, j, mid, hnil, -⟩ := hlaw [] _ [] rfl (.inl hh) (.inl hacc)
  cases pre <;> cases hnil

/-- The run of `not_singleInstallLaw` and of `not_countersIncrease` goes on from here: message 3
after message 1. -/
theorem msg3_after_msg1 (C : Crypto) {n : UInt8}
    (hctr : replayOkSupplicant (counter n) (counter 1) = true) :
    let s := staStep C station (plenty, msg1)
    let i : StaInput := (plenty, msg3 C (derivedPtk C) n)
    handlerOf s i.2 = some .pairMsg3 ∧ (staOutcome C s i).verdict = .accepted ∧
      pairwiseInstalls (staOutcome C s i).out = 1 ∧
      (staStep C s i).config = station.config ∧ (staStep C s i).entry.ptk = derivedPtk C ∧
      (staStep C s i).entry.aNonce = .zero 32 ∧
      (staStep C s i).entry.rCounter = counter n ∧
      (staStep C s i).entry.wpaState = .ptkInitDone := by
  intro s i
  obtain ⟨hconfig, hstate, hptk, hnonce, hrc⟩ := msg1_accepted C
  have h := msg3_accepted C (s := s) (n := n) hconfig (by rw [hstate]; decide) hnonce
    (by rw [hrc]; exact hctr)
  rw [hptk] at h
  obtain ⟨hh, hacc, hcount, hentry⟩ := h
  have hsta : s.opMode = .sta := congrArg StaConfig.opMode hconfig
  refine ⟨hh, hacc, hcount, (staStep_config hsta i).trans hconfig, ?_, ?_, ?_, ?_⟩
  · exact (congrArg MacTableEntry.ptk hentry).trans hptk
  · exact (congrArg MacTableEntry.aNonce hentry).trans hnonce
  · exact congrArg MacTableEntry.rCounter hentry
  · exact congrArg MacTableEntry.wpaState hentry

/-- A message 3 whose counter is zero is accepted, and then the same message again. -/
theorem not_countersIncrease :
    ¬ ∃ C : Crypto, CountersIncrease C station
      [(plenty, msg1), (plenty, msg3 C (derivedPtk C) 0), (plenty, msg3 C (derivedPtk C) 0)] := by
  rintro ⟨C, hlaw⟩
  obtain ⟨hh, hacc, -, hconfig, hptk, hnonce, hctr, hstate⟩ :=
    msg3_after_msg1 C (n := 0) (by decide)
  have hagain := msg3_accepted C (n := 0) hconfig (by rw [hstate]; decide) hnonce
    (by rw [hctr]; decide)
  rw [hptk] at hagain
  obtain ⟨hh', hacc', -⟩ := hagain
  have hlt := hlaw [(plenty, msg1)] (plenty, msg3 C (derivedPtk C) 0) [] (plenty, msg3 C (derivedPtk C) 0)
    [] rfl ⟨.inl hh, ?_⟩ ⟨.inl hh', ?_⟩
  · exact absurd hlt (Nat.lt_irrefl _)
  · exact congrArg Verdict.passed hacc
  · exact congrArg Verdict.passed hacc'

/-- Message 1 and the message 3 that answers it. -/
def handshake : List StaInput := [(plenty, msg1), (plenty, msg3 .driver (derivedPtk .driver) 2)]

theorem derivedKeyLaw_handshake : DerivedKeyLaw .driver station handshake := by
  refine derivedKeyLaw_of_derivesFirst station_fresh ⟨⟨?_, fun _ => rfl⟩, ⟨?_, ?_⟩, trivial⟩
  · rintro (h | h) <;> exact absurd h (by decide)
  · obtain ⟨-, hstate, -⟩ := msg1_accepted .driver
    intro _ _
    exact ⟨.inr (.inl rfl), by rw [hstate]; decide⟩
  · obtain ⟨hh, -⟩ := msg3_after_msg1 .driver (n := 2) (by decide)
    rw [hh]
    nofun

theorem counterLaw_handshake : CounterLaw .driver station handshake :=
  counterLaw station_fresh

end Example

end Mt7601.Wpa
