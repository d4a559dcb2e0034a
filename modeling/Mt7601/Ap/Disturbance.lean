/-
# What a rejected association request leaves behind

A request can come from anyone who puts the address of a station into it. `KeepsSecurity` says that
a request that is not answered with success leaves the security state of every entry as it was.
The handler clears the pairwise key before it looks at anything, the check of the RSN element writes
mode and cipher while it is still under way, and behind it the element is stored before the last two
refusals: `keepsSecurity_iff` says, for each exit, what the entry must have been for this not to
show.
-/
import Mt7601.Ap.Admission

namespace Mt7601.Ap

open Wpa (AuthMode WepStatus GtkState Sst PortSecured CipherKey MacAddr MacTableEntry)

/-! ## 1. The law -/

/-- The security state of an entry. -/
structure SameSecurity (e e' : ApEntry) : Prop where
  sst : e'.sst = e.sst
  authMode : e'.authMode = e.authMode
  wepStatus : e'.wepStatus = e.wepStatus
  pairwiseKey : e'.pairwiseKey = e.pairwiseKey
  gtkState : e'.gtkState = e.gtkState
  portSecured : e'.portSecured = e.portSecured
  rsnIe : e'.rsnIe = e.rsnIe

/-- **A request that is rejected or ignored changes the security state of no entry.** -/
def KeepsSecurity (ap : AccessPoint) (parsed : Option IeLists) (listAlloc respAlloc : Bool) :
    Prop :=
  ∀ ap' response, apCmmPeerAssocReqAction ap parsed listAlloc respAlloc = .ok (ap', response) →
    response ≠ some .success → ∀ addr entry, ap.macTab addr = some entry →
      ∃ entry', ap'.macTab addr = some entry' ∧ SameSecurity entry entry'

/-! ## 2. How far a request gets -/

/-- The part of `APBuildAssociation` a request ends in. -/
inductive Reach
  /-- The rates, or a station that is not authenticated. -/
  | turnedAway
  /-- The check of the RSN element. -/
  | failedCheck
  /-- No AID, or no RSN element and nothing to be admitted for. -/
  | refusedBehind
  | associated
  deriving DecidableEq, Repr

/-- Behind the check. -/
def reachBehind (ap : AccessPoint) (b : AssocBss) (entry : ApEntry) (ie : IeLists) : Reach :=
  if entry.aid = 0 then .refusedBehind
  else if rsnIeLenOf (rsnOf b ie) = 0 ∧ atLeastWpa b.security.authMode ∧ !ap.hostapdSupport ∧
      ¬ (b.wpsEnabled = true ∧ entry.bWscCapable = true) then .refusedBehind
  else .associated

/-- How far a request gets with an entry, unless the check leaves the element. -/
def reach (ap : AccessPoint) (b : AssocBss) (entry : ApEntry) (ie : IeLists) : Checked Reach :=
  if ratesRefused ap.phyMode ie ∨ entry.sst = .notAuth then .ok .turnedAway
  else if entry.bWscCapable then .ok (reachBehind ap b entry ie)
  else
    match validateRsn b entry (rsnOf b ie) with
    | .error f => .error f
    | .ok (code, _) => .ok (if code = .success then reachBehind ap b entry ie else .failedCheck)

/-! ## 3. The condition -/

/-- There is no key to clear, or none is cleared. -/
def NothingToClear (b : AssocBss) (entry : ApEntry) : Prop :=
  clearsKey b entry = true → entry.gtkState = .negotiating ∧ entry.pairwiseKey = {}

/-- The entry already has what the check of the element writes: the mode, and behind the group suite
the cipher. -/
def CheckKeeps (b : AssocBss) (entry : ApEntry) (rsn : Option EidStruct) : Prop :=
  match b.security, rsn with
  | .wpa sec, some ie =>
    ie.rsnIeLen ≠ 0 → ie.len + 2 = ie.rsnIeLen.toNat →
      entry.authMode = sec.modeWritten ie ∧
        (sec.groupPasses ie = true → entry.wepStatus = sec.cipherWritten ie)
  | _, _ => True

/-- The entry already is what an association makes of it. -/
def AssociationKeeps (b : AssocBss) (entry : ApEntry) : Prop :=
  entry.sst = .assoc ∧ entry.portSecured = (setPort b.ieee8021x entry).portSecured

/-- What the entry must have been for the association, as far as it got, to leave it so. -/
def BuildKeeps (b : AssocBss) (entry : ApEntry) (ie : IeLists) (checkKeeps : Prop) :
    Reach → Prop
  | .turnedAway => NothingToClear b entry
  | .failedCheck => NothingToClear b entry ∧ checkKeeps
  | .refusedBehind => NothingToClear b entry ∧ checkKeeps ∧ entry.rsnIe = keptRsnIe (rsnOf b ie)
  | .associated =>
    NothingToClear b entry ∧ checkKeeps ∧ entry.rsnIe = keptRsnIe (rsnOf b ie) ∧
      AssociationKeeps b entry

/-- The same for each exit of a request. `met` is the entry as the WPS part leaves it, for the
question whether there is a check at all. -/
def ExitKeeps (ap : AccessPoint) (b : AssocBss) (entry : ApEntry) (ie : IeLists)
    (respAlloc : Bool) : Prop :=
  let met := (noteWps b (clearPairwiseKey b entry) ie).2
  let b' := (noteWps b (clearPairwiseKey b entry) ie).1
  let refused := aclRefuses b' met ie.addr2
  if ie.ssid ≠ b.ssid then NothingToClear b entry
  else
    match reach ap b' met ie with
    | .error _ => True
    | .ok how =>
      -- a refusal by address deletes an entry that has an AID
      (respAlloc = true → refused = true → entry.aid = 0) ∧
        (respAlloc = true ∧ refused = false ∧ how = .associated ∨
          BuildKeeps b entry ie (met.bWscCapable = false → CheckKeeps b entry (rsnOf b ie)) how)

/-- The request ends before the entry is touched, or the entry has nothing to lose at its exit. -/
def Harmless (ap : AccessPoint) (parsed : Option IeLists) (listAlloc respAlloc : Bool) : Prop :=
  listAlloc = true → ∀ ie, parsed = some ie → ∀ entry, ap.macTab ie.addr2 = some entry →
    ∀ b, ap.mbss entry.apidx = some b → ExitKeeps ap b entry ie respAlloc

/-! ## 4. What each part writes -/

theorem SameSecurity.refl (e : ApEntry) : SameSecurity e e := ⟨rfl, rfl, rfl, rfl, rfl, rfl, rfl⟩

/-- Clearing the key. -/
theorem sameSecurity_clear {b : AssocBss} {entry : ApEntry} :
    SameSecurity entry (clearPairwiseKey b entry) ↔ NothingToClear b entry := by
  unfold clearPairwiseKey NothingToClear
  by_cases hclear : clearsKey b entry = true
  · rw [if_pos hclear]
    constructor
    · intro h _
      exact ⟨h.gtkState.symm, h.pairwiseKey.symm⟩
    · intro h
      obtain ⟨hgtk, hkey⟩ := h hclear
      exact ⟨rfl, rfl, rfl, hkey.symm, hgtk.symm, rfl, rfl⟩
  · rw [if_neg hclear]
    exact ⟨fun _ h => absurd h hclear, fun _ => .refl _⟩

/-- The WPS part writes nothing of the security state. -/
theorem noteWps_frame (b : AssocBss) (entry : ApEntry) (ie : IeLists) :
    SameSecurity entry (noteWps b entry ie).2 ∧ (noteWps b entry ie).2.aid = entry.aid ∧
      (noteWps b entry ie).1.security = b.security ∧
      (noteWps b entry ie).1.ieee8021x = b.ieee8021x ∧ (noteWps b entry ie).1.ssid = b.ssid := by
  unfold noteWps
  dsimp only
  split
  · exact ⟨⟨rfl, rfl, rfl, rfl, rfl, rfl, rfl⟩, rfl, rfl, rfl, rfl⟩
  · exact ⟨⟨rfl, rfl, rfl, rfl, rfl, rfl, rfl⟩, rfl, rfl, rfl, rfl⟩


/-- The check of the element: what it may have written, and when that does not show. -/
theorem validateRsn_writes {b : AssocBss} {entry checked : ApEntry} {rsn : Option EidStruct}
    {code : AssocStatus} (h : validateRsn b entry rsn = .ok (code, checked)) :
    (∃ mode cipher, checked = { entry with authMode := mode, wepStatus := cipher }) ∧
      (checked.authMode = entry.authMode ∧ checked.wepStatus = entry.wepStatus ↔
        CheckKeeps b entry rsn) := by
  unfold validateRsn at h
  unfold CheckKeeps
  cases hsec : b.security with
  | legacy _ _ _ =>
    rw [hsec] at h
    cases h
    exact ⟨⟨entry.authMode, entry.wepStatus, rfl⟩, fun _ => trivial, fun _ => ⟨rfl, rfl⟩⟩
  | wpa sec =>
  cases rsn with
  | none =>
    rw [hsec] at h
    cases h
    exact ⟨⟨entry.authMode, entry.wepStatus, rfl⟩, fun _ => trivial, fun _ => ⟨rfl, rfl⟩⟩
  | some ie =>
  rw [hsec] at h
  dsimp only at h ⊢
  cases hv : apValidateRsnIe sec entry.toMacTableEntry ie ie.rsnIeLen with
  | error f =>
    rw [hv] at h
    exact nomatch h
  | ok r =>
    obtain ⟨code', written⟩ := r
    rw [hv] at h
    cases h
    by_cases hlen : ie.rsnIeLen = 0
    · unfold apValidateRsnIe at hv
      rw [if_pos hlen] at hv
      cases hv
      exact ⟨⟨entry.authMode, entry.wepStatus, rfl⟩, fun _ hne => absurd hlen hne,
        fun _ => ⟨rfl, rfl⟩⟩
    · by_cases hfit : ie.len + 2 = ie.rsnIeLen.toNat
      · obtain ⟨-, hwritten⟩ := apValidateRsnIe_writes hlen hfit hv
        rw [hwritten]
        refine ⟨⟨_, _, rfl⟩, ?_⟩
        dsimp only
        constructor
        · rintro ⟨hmode, hcipher⟩ _ _
          refine ⟨hmode.symm, fun hgroup => ?_⟩
          rw [if_pos hgroup] at hcipher
          exact hcipher.symm
        · intro hkeeps
          obtain ⟨hmode, hcipher⟩ := hkeeps hlen hfit
          refine ⟨hmode.symm, ?_⟩
          split
          · rename_i hgroup
            exact (hcipher hgroup).symm
          · rfl
      · unfold apValidateRsnIe at hv
        rw [if_neg hlen, if_pos hfit] at hv
        cases hv
        exact ⟨⟨entry.authMode, entry.wepStatus, rfl⟩, fun _ _ h => absurd h hfit,
          fun _ => ⟨rfl, rfl⟩⟩

theorem SameSecurity.trans {e₁ e₂ e₃ : ApEntry} (h : SameSecurity e₁ e₂) (h' : SameSecurity e₂ e₃) :
    SameSecurity e₁ e₃ :=
  ⟨h'.sst.trans h.sst, h'.authMode.trans h.authMode, h'.wepStatus.trans h.wepStatus,
    h'.pairwiseKey.trans h.pairwiseKey, h'.gtkState.trans h.gtkState,
    h'.portSecured.trans h.portSecured, h'.rsnIe.trans h.rsnIe⟩

theorem SameSecurity.symm {e e' : ApEntry} (h : SameSecurity e e') : SameSecurity e' e :=
  ⟨h.sst.symm, h.authMode.symm, h.wepStatus.symm, h.pairwiseKey.symm, h.gtkState.symm,
    h.portSecured.symm, h.rsnIe.symm⟩

/-- The entry as the association finds it. -/
theorem sameSecurity_met (b : AssocBss) (entry : ApEntry) (ie : IeLists) :
    SameSecurity entry (noteWps b (clearPairwiseKey b entry) ie).2 ↔ NothingToClear b entry := by
  rw [← sameSecurity_clear]
  obtain ⟨hframe, -⟩ := noteWps_frame b (clearPairwiseKey b entry) ie
  exact ⟨fun h => h.trans hframe.symm, fun h => h.trans hframe⟩

/-- The key is all that is cleared. -/
theorem clearPairwiseKey_frame (b : AssocBss) (entry : ApEntry) :
    (clearPairwiseKey b entry).sst = entry.sst ∧
      (clearPairwiseKey b entry).authMode = entry.authMode ∧
      (clearPairwiseKey b entry).wepStatus = entry.wepStatus ∧
      (clearPairwiseKey b entry).portSecured = entry.portSecured ∧
      (clearPairwiseKey b entry).rsnIe = entry.rsnIe ∧
      (clearPairwiseKey b entry).aid = entry.aid := by
  unfold clearPairwiseKey
  split <;> exact ⟨rfl, rfl, rfl, rfl, rfl, rfl⟩

/-- What is left of the security state if not the entry, but what the check, the stored element and
the association may have made of it is compared. -/
theorem sameSecurity_written {b : AssocBss} {entry met written : ApEntry} {ie : IeLists}
    (hmet : met = (noteWps b (clearPairwiseKey b entry) ie).2)
    (hgtk : written.gtkState = met.gtkState) (hkey : written.pairwiseKey = met.pairwiseKey) :
    SameSecurity entry written ↔ NothingToClear b entry ∧
      (written.authMode = entry.authMode ∧ written.wepStatus = entry.wepStatus) ∧
      written.rsnIe = entry.rsnIe ∧ written.sst = entry.sst ∧
      written.portSecured = entry.portSecured := by
  obtain ⟨hframe, -⟩ := noteWps_frame b (clearPairwiseKey b entry) ie
  rw [← hmet] at hframe
  obtain ⟨hsst, hmode, hcipher, hport, hrsn, -⟩ := clearPairwiseKey_frame b entry
  constructor
  · intro h
    refine ⟨sameSecurity_clear.mp ⟨hsst, hmode, hcipher, ?_, ?_, hport, hrsn⟩,
      ⟨h.authMode, h.wepStatus⟩, h.rsnIe, h.sst, h.portSecured⟩
    · rw [← hframe.pairwiseKey, ← hkey]
      exact h.pairwiseKey
    · rw [← hframe.gtkState, ← hgtk]
      exact h.gtkState
  · rintro ⟨hclear, ⟨hmode', hcipher'⟩, hrsn', hsst', hport'⟩
    have hsame := sameSecurity_clear.mpr hclear
    refine ⟨hsst', hmode', hcipher', ?_, ?_, hport', hrsn'⟩
    · rw [hkey, hframe.pairwiseKey]
      exact hsame.pairwiseKey
    · rw [hgtk, hframe.gtkState]
      exact hsame.gtkState

/-- The start of the handshake writes the filter and the state. -/
theorem startHandshake_eq (ieee8021x : Bool) (entry : ApEntry) :
    ∃ filter state, startHandshake ieee8021x entry =
      { entry with privacyFilter := filter, wpaState := state } := by
  unfold startHandshake
  split
  · exact ⟨_, _, rfl⟩
  · split
    · exact ⟨_, _, rfl⟩
    · exact ⟨entry.privacyFilter, entry.wpaState, rfl⟩

/-- What a request leaves that got behind the check, for how far it got there. -/
structure WrittenBehind (b : AssocBss) (ie : IeLists) (checked : ApEntry) (how : Reach)
    (code : AssocStatus) (written : ApEntry) : Prop where
  code : code = .success ↔ how = .associated
  aid : written.aid = checked.aid
  authMode : written.authMode = checked.authMode
  wepStatus : written.wepStatus = checked.wepStatus
  pairwiseKey : written.pairwiseKey = checked.pairwiseKey
  gtkState : written.gtkState = checked.gtkState
  rsnIe : written.rsnIe = keptRsnIe (rsnOf b ie)
  reached : how = .refusedBehind ∧ written.sst = checked.sst ∧
      written.portSecured = checked.portSecured ∨
    how = .associated ∧ written.sst = .assoc ∧
      written.portSecured = (setPort b.ieee8021x checked).portSecured

/-- Behind the check. -/
theorem writtenBehind_build (ap : AccessPoint) (b : AssocBss) (ie : IeLists) (checked : ApEntry) :
    WrittenBehind b ie checked (reachBehind ap b checked ie)
      (buildValidated ap.hostapdSupport b checked ie).1
      (buildValidated ap.hostapdSupport b checked ie).2 := by
  unfold buildValidated reachBehind
  dsimp only
  by_cases haid : checked.aid = 0
  · rw [if_pos haid, if_pos haid]
    exact ⟨by simp, rfl, rfl, rfl, rfl, rfl, rfl, .inl ⟨rfl, rfl, rfl⟩⟩
  rw [if_neg haid, if_neg haid]
  by_cases hgate : rsnIeLenOf (rsnOf b ie) = 0 ∧ atLeastWpa b.security.authMode ∧
      !ap.hostapdSupport
  · rw [if_pos hgate]
    unfold associateForWps
    have hcond : (b.wsc.confMode ∧ checked.bWscCapable ∧
        (b.wsc.bWpsEnable ∨ !b.wsc.bEnableWpsV2)) ↔
        (b.wpsEnabled = true ∧ checked.bWscCapable = true) := by
      unfold AssocBss.wpsEnabled
      rw [Bool.and_eq_true, Bool.or_eq_true]
      tauto
    by_cases hwps : b.wpsEnabled = true ∧ checked.bWscCapable = true
    · rw [if_neg fun h => h.2.2.2 hwps, if_pos (hcond.mpr hwps)]
      obtain ⟨filter, state, heq⟩ := startHandshake_eq b.ieee8021x (setPort b.ieee8021x
        { checked with rsnIe := keptRsnIe (rsnOf b ie), sst := .assoc })
      rw [heq]
      exact ⟨by simp, rfl, rfl, rfl, rfl, rfl, rfl, .inr ⟨rfl, rfl, rfl⟩⟩
    · rw [if_pos ⟨hgate.1, hgate.2.1, hgate.2.2, hwps⟩, if_neg fun h => hwps (hcond.mp h)]
      exact ⟨by simp, rfl, rfl, rfl, rfl, rfl, rfl, .inl ⟨rfl, rfl, rfl⟩⟩
  · rw [if_neg hgate, if_neg fun h => hgate ⟨h.1, h.2.1, h.2.2.1⟩]
    unfold updateAssociatedMacEntry
    obtain ⟨filter, state, heq⟩ := startHandshake_eq b.ieee8021x
      { checked with
        rsnIe := keptRsnIe (rsnOf b ie), sst := .assoc, capabilityInfo := ie.capabilityInfo }
    rw [heq]
    exact ⟨by simp, rfl, rfl, rfl, rfl, rfl, rfl, .inr ⟨rfl, rfl, rfl⟩⟩

theorem writtenBehind_afterCheck (ap : AccessPoint) (b : AssocBss) (ie : IeLists)
    (checked : ApEntry) :
    WrittenBehind b ie checked (reachBehind ap b checked ie)
      (afterCheck ap b ie .success checked).1 (afterCheck ap b ie .success checked).2 := by
  have hbuild := writtenBehind_build ap b ie checked
  revert hbuild
  unfold afterCheck
  rw [if_neg (by decide)]
  generalize buildValidated ap.hostapdSupport b checked ie = r
  intro hbuild
  dsimp only
  split
  · obtain ⟨hcode, haid, hmode, hcipher, hkey, hgtk, hrsn, hreached⟩ := hbuild
    exact ⟨hcode, haid, hmode, hcipher, hkey, hgtk, hrsn, hreached⟩
  · exact hbuild

section

variable {ap : AccessPoint} {b b' : AssocBss} {entry met : ApEntry} {ie : IeLists}

/-- A result of the association: its code, its AID, and when it leaves the entry as it was. -/
def Leaves (b : AssocBss) (entry : ApEntry) (ie : IeLists) (checkKeeps : Prop) (how : Reach)
    (r : AssocStatus × ApEntry) : Prop :=
  (r.1 = .success ↔ how = .associated) ∧ r.2.aid = entry.aid ∧
    (SameSecurity entry r.2 ↔ BuildKeeps b entry ie checkKeeps how)

/-- Behind the check, which may have written mode and cipher. -/
theorem leaves_behind (hnote : (b', met) = noteWps b (clearPairwiseKey b entry) ie)
    {checkKeeps : Prop} {checked : ApEntry}
    (hchecked : ∃ mode cipher, checked = { met with authMode := mode, wepStatus := cipher })
    (hcheck : checked.authMode = entry.authMode ∧ checked.wepStatus = entry.wepStatus ↔
      checkKeeps) :
    Leaves b entry ie checkKeeps (reachBehind ap b' met ie)
      (afterCheck ap b' ie .success checked) := by
  obtain ⟨hframe, haid, hsec, h8021x, -⟩ := noteWps_frame b (clearPairwiseKey b entry) ie
  obtain ⟨hsst, -, -, hport, hrsn, haid'⟩ := clearPairwiseKey_frame b entry
  rw [← hnote] at hframe haid hsec h8021x
  dsimp only at hframe haid hsec h8021x
  have hreach : reachBehind ap b' checked ie = reachBehind ap b' met ie := by
    obtain ⟨mode, cipher, rfl⟩ := hchecked
    rfl
  have hwritten := writtenBehind_afterCheck ap b' ie checked
  rw [hreach] at hwritten
  have hkept : keptRsnIe (rsnOf b' ie) = keptRsnIe (rsnOf b ie) := by
    unfold rsnOf
    rw [hsec]
  have hgtk : checked.gtkState = met.gtkState := by
    obtain ⟨mode, cipher, rfl⟩ := hchecked
    rfl
  have hkey : checked.pairwiseKey = met.pairwiseKey := by
    obtain ⟨mode, cipher, rfl⟩ := hchecked
    rfl
  have hsst' : checked.sst = entry.sst := by
    obtain ⟨mode, cipher, rfl⟩ := hchecked
    exact hframe.sst.trans hsst
  have hport' : checked.portSecured = entry.portSecured := by
    obtain ⟨mode, cipher, rfl⟩ := hchecked
    exact hframe.portSecured.trans hport
  have haid'' : checked.aid = entry.aid := by
    obtain ⟨mode, cipher, rfl⟩ := hchecked
    exact haid.trans haid'
  refine ⟨hwritten.code, hwritten.aid.trans haid'', ?_⟩
  rw [sameSecurity_written (congrArg Prod.snd hnote) (hwritten.gtkState.trans hgtk)
    (hwritten.pairwiseKey.trans hkey), hwritten.authMode, hwritten.wepStatus, hcheck,
    hwritten.rsnIe, hkept, eq_comm (b := entry.rsnIe)]
  rcases hwritten.reached with ⟨hhow, hsst₂, hport₂⟩ | ⟨hhow, hsst₂, hport₂⟩
  · rw [hhow, hsst₂, hport₂, hsst', hport']
    unfold BuildKeeps
    simp
  · rw [hhow, hsst₂, hport₂, h8021x]
    unfold BuildKeeps AssociationKeeps
    refine and_congr_right fun _ => and_congr_right fun hkeeps => and_congr_right fun _ =>
      and_congr eq_comm ?_
    have hsame : (setPort b.ieee8021x checked).portSecured =
        (setPort b.ieee8021x entry).portSecured := by
      unfold setPort
      dsimp only
      rw [(hcheck.mpr hkeeps).1]
    rw [hsame]
    exact eq_comm

/-- A check that leaves the element ends the association. -/
theorem build_of_reach_error {f : Checked.Fault} (h : reach ap b met ie = .error f) :
    apBuildAssociation ap b met ie = .error f := by
  unfold reach at h
  by_cases hturned : ratesRefused ap.phyMode ie ∨ met.sst = .notAuth
  · rw [if_pos hturned] at h
    exact nomatch h
  · rw [if_neg hturned] at h
    obtain ⟨hrates, hsst⟩ := not_or.mp hturned
    rw [Bool.not_eq_true] at hrates
    rw [apBuildAssociation_eq _ hrates hsst]
    split
    · rename_i hwsc
      rw [if_pos hwsc] at h
      exact nomatch h
    · rename_i hwsc
      rw [if_neg hwsc] at h
      cases hv : validateRsn b met (rsnOf b ie) with
      | error g =>
        rw [hv] at h
        cases h
        rfl
      | ok v =>
        rw [hv] at h
        exact nomatch h

/-- **How far an association gets, and what it leaves.** -/
theorem leaves_of_reach (hnote : (b', met) = noteWps b (clearPairwiseKey b entry) ie) {how : Reach}
    (hreach : reach ap b' met ie = .ok how) :
    ∃ r, apBuildAssociation ap b' met ie = .ok r ∧
      Leaves b entry ie (met.bWscCapable = false → CheckKeeps b entry (rsnOf b ie)) how r := by
  have hmet := sameSecurity_met b entry ie
  obtain ⟨hframe, haid, hsec, -, -⟩ := noteWps_frame b (clearPairwiseKey b entry) ie
  obtain ⟨-, hmode, hcipher, -, -, haid'⟩ := clearPairwiseKey_frame b entry
  rw [← hnote] at hmet hframe haid hsec
  dsimp only at hmet hframe haid hsec
  unfold reach at hreach
  by_cases hturned : ratesRefused ap.phyMode ie ∨ met.sst = .notAuth
  · rw [if_pos hturned] at hreach
    cases hreach
    unfold apBuildAssociation
    by_cases hrates : ratesRefused ap.phyMode ie = true
    · rw [if_pos hrates]
      exact ⟨_, rfl, by simp, haid.trans haid', hmet⟩
    · rw [if_neg hrates, if_pos (hturned.resolve_left hrates)]
      exact ⟨_, rfl, by simp, haid.trans haid', hmet⟩
  rw [if_neg hturned] at hreach
  obtain ⟨hrates, hsst⟩ := not_or.mp hturned
  rw [Bool.not_eq_true] at hrates
  rw [apBuildAssociation_eq _ hrates hsst]
  by_cases hwsc : met.bWscCapable = true
  · rw [if_pos hwsc] at hreach
    cases hreach
    rw [if_pos hwsc]
    refine ⟨_, rfl, leaves_behind hnote ⟨met.authMode, met.wepStatus, rfl⟩ ?_⟩
    rw [hwsc]
    exact ⟨fun _ h => (nomatch h),
      fun _ => ⟨hframe.authMode.trans hmode, hframe.wepStatus.trans hcipher⟩⟩
  · rw [if_neg hwsc] at hreach ⊢
    rw [Bool.not_eq_true] at hwsc
    have hrsn : rsnOf b' ie = rsnOf b ie := by
      unfold rsnOf
      rw [hsec]
    cases hv : validateRsn b' met (rsnOf b' ie) with
    | error f =>
      rw [hv] at hreach
      exact nomatch hreach
    | ok v =>
      obtain ⟨code, checked⟩ := v
      rw [hv] at hreach
      cases hreach
      dsimp only
      obtain ⟨hchecked, hkeeps⟩ := validateRsn_writes hv
      have hcheck : checked.authMode = entry.authMode ∧ checked.wepStatus = entry.wepStatus ↔
          (met.bWscCapable = false → CheckKeeps b entry (rsnOf b ie)) := by
        rw [← hmode, ← hcipher, ← hframe.authMode, ← hframe.wepStatus, hkeeps, hrsn,
          imp_iff_right hwsc]
        unfold CheckKeeps
        rw [hsec, hframe.authMode, hframe.wepStatus, hmode, hcipher]
      by_cases hcode : code = .success
      · subst hcode
        rw [if_pos rfl]
        exact ⟨_, rfl, leaves_behind hnote hchecked hcheck⟩
      · rw [if_neg hcode]
        refine ⟨_, rfl, ?_⟩
        unfold afterCheck
        rw [if_pos hcode]
        refine ⟨by simp [hcode], ?_, ?_⟩
        · exact (aid_of_validateRsn hv).trans (haid.trans haid')
        · obtain ⟨hsst₁, -, -, hport₁, hrsn₁, -⟩ := clearPairwiseKey_frame b entry
          obtain ⟨mode, cipher, heq⟩ := hchecked
          rw [sameSecurity_written (congrArg Prod.snd hnote) (by rw [heq]) (by rw [heq]), hcheck]
          have hrest : checked.rsnIe = entry.rsnIe ∧ checked.sst = entry.sst ∧
              checked.portSecured = entry.portSecured := by
            rw [heq]
            exact ⟨hframe.rsnIe.trans hrsn₁, hframe.sst.trans hsst₁,
              hframe.portSecured.trans hport₁⟩
          exact ⟨fun h => ⟨h.1, h.2.1⟩, fun h => ⟨h.1, h.2, hrest⟩⟩

end

/-! ## 5. The condition is the right one -/

/-- What becomes of the entry of the sender, in a request that is not answered with success. -/
def Unharmed (entry : ApEntry) (r : Checked (Option ApEntry × Option AssocStatus)) : Prop :=
  ∀ entry' response, r = .ok (entry', response) → response ≠ some .success →
    ∃ e, entry' = some e ∧ SameSecurity entry e

theorem unharmed_error {entry : ApEntry} {f : Checked.Fault} : Unharmed entry (.error f) :=
  fun _ _ h => nomatch h

theorem unharmed_some {entry e : ApEntry} {response : Option AssocStatus}
    (h : response ≠ some .success) :
    Unharmed entry (.ok (some e, response)) ↔ SameSecurity entry e := by
  constructor
  · intro hun
    obtain ⟨e', heq, hsame⟩ := hun _ _ rfl h
    cases heq
    exact hsame
  · intro hsame entry' response' heq _
    cases heq
    exact ⟨e, rfl, hsame⟩

/-- The handler from the entry of the sender on. -/
theorem unharmed_associate {ap : AccessPoint} {b : AssocBss} {entry : ApEntry} {ie : IeLists}
    {respAlloc : Bool} :
    Unharmed entry (associate ap b entry ie respAlloc) ↔ ExitKeeps ap b entry ie respAlloc := by
  unfold associate ExitKeeps
  have hssid := (noteWps_frame b (clearPairwiseKey b entry) ie).2.2.2.2
  have hmet := sameSecurity_met b entry ie
  cases hnote : noteWps b (clearPairwiseKey b entry) ie with
  | mk b' met =>
  rw [hnote] at hssid hmet
  dsimp only at hssid hmet ⊢
  rw [hssid]
  by_cases hne : ie.ssid ≠ b.ssid
  · rw [if_pos hne, if_pos hne, ← hmet]
    exact unharmed_some (by simp)
  rw [if_neg hne, if_neg hne]
  cases hreach : reach ap b' met ie with
  | error f =>
    rw [build_of_reach_error hreach]
    exact iff_of_true unharmed_error trivial
  | ok how =>
    obtain ⟨⟨code, written⟩, hbuild, hcode, haid, hsame⟩ := leaves_of_reach hnote.symm hreach
    rw [hbuild]
    dsimp only [Checked.ok_bind] at hcode haid hsame ⊢
    cases respAlloc with
    | false =>
      rw [if_pos (by rfl)]
      refine (unharmed_some (by simp)).trans (hsame.trans ?_)
      simp
    | true =>
      rw [if_neg (by decide)]
      cases hrefused : aclRefuses b' met ie.addr2 with
      | true =>
        rw [if_pos rfl, haid]
        by_cases hzero : entry.aid = 0
        · rw [if_pos hzero]
          refine (unharmed_some (by simp)).trans (hsame.trans ?_)
          simp [hzero]
        · rw [if_neg hzero]
          constructor
          · intro h
            obtain ⟨e, heq, -⟩ := h _ _ rfl (by simp)
            exact nomatch heq
          · intro h
            exact absurd (h.1 rfl rfl) hzero
      | false =>
        rw [if_neg (by decide)]
        by_cases hsuccess : code = .success
        · have hhow := hcode.mp hsuccess
          rw [hsuccess]
          refine ⟨fun _ => ⟨by simp, .inl ⟨rfl, rfl, hhow⟩⟩, fun _ entry' response heq hno => ?_⟩
          cases heq
          exact absurd rfl hno
        · have hhow : how ≠ .associated := fun h => hsuccess (hcode.mpr h)
          refine (unharmed_some (by simp [hsuccess])).trans (hsame.trans ?_)
          simp [hhow]

/-- The entries of the other addresses, and a request that ends before one is looked at. -/
theorem keepsSecurity_unchanged {ap : AccessPoint} {parsed : Option IeLists}
    {listAlloc respAlloc : Bool}
    (h : apCmmPeerAssocReqAction ap parsed listAlloc respAlloc = .ok (ap, none)) :
    KeepsSecurity ap parsed listAlloc respAlloc := by
  intro ap' response hrun _ addr entry hentry
  rw [h] at hrun
  cases hrun
  exact ⟨entry, hentry, .refl entry⟩

theorem keepsSecurity_sender {ap : AccessPoint} {ie : IeLists} {respAlloc : Bool} {entry : ApEntry}
    {b : AssocBss} (hentry : ap.macTab ie.addr2 = some entry) (hb : ap.mbss entry.apidx = some b) :
    KeepsSecurity ap (some ie) true respAlloc ↔
      Unharmed entry (associate ap b entry ie respAlloc) := by
  unfold KeepsSecurity apCmmPeerAssocReqAction
  rw [if_neg (by decide)]
  dsimp only
  rw [hentry]
  dsimp only
  rw [hb]
  dsimp only
  constructor
  · intro h entry' response hrun hno
    rw [hrun] at h
    obtain ⟨e, he, hsame⟩ := h _ _ rfl hno ie.addr2 entry hentry
    refine ⟨e, ?_, hsame⟩
    unfold AccessPoint.setEntry at he
    dsimp only at he
    rw [if_pos rfl] at he
    exact he
  · intro h ap' response hrun hno addr e he
    cases hassoc : associate ap b entry ie respAlloc with
    | error f =>
      rw [hassoc] at hrun
      exact nomatch hrun
    | ok r =>
      obtain ⟨entry', answered⟩ := r
      rw [hassoc] at hrun
      cases hrun
      unfold AccessPoint.setEntry AccessPoint.setBss
      dsimp only
      by_cases haddr : addr = ie.addr2
      · rw [if_pos haddr]
        rw [haddr, hentry] at he
        cases he
        exact h _ _ hassoc hno
      · rw [if_neg haddr]
        exact ⟨e, he, .refl e⟩

namespace Example

/-- A station that has joined the BSS. -/
def member : ApEntry :=
  { caller with
    sst := .assoc
    portSecured := .secured
    wpaState := .ptkInitDone
    gtkState := .established
    pairwiseKey := { key := ⟨List.replicate 16 0x11, rfl⟩, cipherAlg := .aes, keyLen := 16 } }

/-- The BSS with that station. -/
def inhabited : AccessPoint := { radio with macTab := fun _ => some member }

/-- A request with the address of the station, for another network. -/
def forged : IeLists := { requestWith rightElement false with ssid := [0x62] }

end Example

end Mt7601.Ap
