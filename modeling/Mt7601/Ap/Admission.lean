/-
# Who is let into a protected BSS

What a successful `APBuildAssociation` leaves in the entry of a station, in a BSS configured for
WPA or WPA2: `Admission` says that the port is not secured, that the handshake is at the start its
mode has, and that the station either had its RSN element accepted or comes for WPS, in a BSS that
offers it, without one. `admission_iff` gives the stations and requests for which this is so.
-/
import Mt7601.Ap.Assoc
import Mt7601.Ap.RsnIeExact

namespace Mt7601.Ap

open Wpa (AuthMode WepStatus WpaState Sst PortSecured MacTableEntry)

/-! ## 1. The law -/

/-- The modes with a pre-shared key. -/
def isPskMode (mode : AuthMode) : Bool :=
  mode = .wpaPsk ∨ mode = .wpa2Psk ∨ mode = .wpa1PskWpa2Psk

/-- Nothing passes the port, and the handshake is where it starts: with the pre-shared key, or with
802.1X. -/
def AtStart (entry : ApEntry) : Prop :=
  entry.portSecured = .notSecured ∧
    entry.wpaState = if isPskMode entry.authMode then .initPsk else .authentication

/-- `APValidateRSNIE` was run on the element of the request, and accepted it. It is not run for a
station that comes for WPS. -/
def RsnAccepted (b : AssocBss) (entry : ApEntry) (ie : IeLists) : Prop :=
  entry.bWscCapable = false ∧ rsnIeLenOf (rsnOf b ie) ≠ 0 ∧
    ∃ checked, validateRsn b entry (rsnOf b ie) = .ok (.success, checked)

/-- WPS is enabled on the BSS. -/
def AssocBss.wpsEnabled (b : AssocBss) : Bool :=
  b.wsc.confMode && (b.wsc.bWpsEnable || !b.wsc.bEnableWpsV2)

/-- The station comes for WPS, and has no RSN element. -/
def WpsOnly (b : AssocBss) (entry : ApEntry) (ie : IeLists) : Prop :=
  entry.bWscCapable = true ∧ rsnIeLenOf (rsnOf b ie) = 0

/-- **A success is an admission**: the station is at the start of its handshake, and was let in for
its RSN element or for WPS. -/
def Admission (ap : AccessPoint) (b : AssocBss) (entry : ApEntry) (ie : IeLists) : Prop :=
  ∀ entry', apBuildAssociation ap b entry ie = .ok (.success, entry') →
    AtStart entry' ∧ (RsnAccepted b entry ie ∨ b.wpsEnabled = true ∧ WpsOnly b entry ie)

/-- The modes an entry of the BSS can have: that of the BSS, which it is given when it is made, or
that of a version in use, which the check of an RSN element leaves. -/
def ModeOf (sec : ApSecurity) (mode : AuthMode) : Prop :=
  mode = sec.authMode ∨ ∃ v, mode = sec.authModeFor v

/-! ## 2. The condition -/

/-- The start of the handshake gets the state of the entry's mode. In a mode that stands for both
versions it is left as it was, or set to that of 802.1X. -/
def StartsRight (ieee8021x : Bool) (entry : ApEntry) : Prop :=
  match entry.authMode with
  | .wpa1PskWpa2Psk => ieee8021x = false ∧ entry.wpaState = .initPsk
  | .wpa1Wpa2 => ieee8021x = true ∨ entry.wpaState = .authentication
  | _ => True

/-- The request is refused for something else; or the station does not come for WPS, and has an
RSN element or is asked for one; or it comes for WPS without an RSN element, and the BSS offers
it and its handshake starts right, or the BSS does not offer it and says so. -/
def AdmittedProperly (ap : AccessPoint) (b : AssocBss) (entry : ApEntry) (ie : IeLists) : Prop :=
  ratesRefused ap.phyMode ie = true ∨ entry.sst = .notAuth ∨ entry.aid = 0 ∨
    (entry.bWscCapable = false ∧
      (rsnIeLenOf (rsnOf b ie) ≠ 0 ∨ ap.hostapdSupport = false)) ∨
    (WpsOnly b entry ie ∧
      (b.wpsEnabled = true ∧ StartsRight b.ieee8021x entry ∨
        b.wpsEnabled = false ∧ ap.hostapdSupport = false))

/-! ## 3. The modes of an entry -/

theorem isApWpaMode_of_modeOf {sec : ApSecurity} {mode : AuthMode} (h : ModeOf sec mode) :
    isApWpaMode mode = true := by
  have hwpa := sec.isWpa
  rcases h with rfl | ⟨v, rfl⟩
  · exact hwpa
  · unfold ApSecurity.authModeFor
    revert hwpa
    cases sec.authMode <;> cases v <;> decide

theorem atLeastWpa_of_isApWpaMode {mode : AuthMode} (h : isApWpaMode mode = true) :
    atLeastWpa mode = true := by
  revert h
  cases mode <;> decide

/-- The check of an element leaves the AID. -/
theorem aid_of_validateRsn {b : AssocBss} {entry checked : ApEntry} {rsn : Option EidStruct}
    {code : AssocStatus} (h : validateRsn b entry rsn = .ok (code, checked)) :
    checked.aid = entry.aid := by
  unfold validateRsn at h
  split at h
  · rename_i sec ie _
    cases hv : apValidateRsnIe sec entry.toMacTableEntry ie ie.rsnIeLen with
    | error f =>
      rw [hv] at h
      exact nomatch h
    | ok r =>
      rw [hv] at h
      cases h
      rfl
  · cases h
    rfl

/-- An element that was accepted leaves the mode of its version. -/
theorem validateRsn_accepted {b : AssocBss} {sec : ApSecurity} (hb : b.security = .wpa sec)
    {entry checked : ApEntry} {rsn : Option EidStruct} (hlen : rsnIeLenOf rsn ≠ 0)
    (h : validateRsn b entry rsn = .ok (.success, checked)) :
    ∃ v, checked.authMode = sec.authModeFor v := by
  unfold validateRsn at h
  rw [hb] at h
  cases rsn with
  | none => exact absurd rfl hlen
  | some ie =>
    dsimp only at h
    cases hv : apValidateRsnIe sec entry.toMacTableEntry ie ie.rsnIeLen with
    | error f =>
      rw [hv] at h
      exact nomatch h
    | ok r =>
      obtain ⟨code, written⟩ := r
      rw [hv] at h
      cases h
      exact authMode_of_success hlen hv

/-- The mode of a version has a start of its own. -/
theorem startsRight_of_version {sec : ApSecurity} {v : WpaVersion} {ieee8021x : Bool}
    {entry : ApEntry} (h : entry.authMode = sec.authModeFor v) : StartsRight ieee8021x entry := by
  have hwpa := sec.isWpa
  unfold StartsRight
  rw [h]
  unfold ApSecurity.authModeFor
  revert hwpa
  cases sec.authMode <;> cases v <;> intro hwpa <;> trivial

/-! ## 4. What an association writes -/

theorem startHandshake_authMode (ieee8021x : Bool) (entry : ApEntry) :
    (startHandshake ieee8021x entry).authMode = entry.authMode := by
  unfold startHandshake
  split
  · rfl
  · split <;> rfl

theorem startHandshake_portSecured (ieee8021x : Bool) (entry : ApEntry) :
    (startHandshake ieee8021x entry).portSecured = entry.portSecured := by
  unfold startHandshake
  split
  · rfl
  · split <;> rfl

/-- The start depends on the mode and on the state before it. -/
theorem startHandshake_congr {ieee8021x : Bool} {entry entry' : ApEntry}
    (hmode : entry'.authMode = entry.authMode) (hstate : entry'.wpaState = entry.wpaState) :
    (startHandshake ieee8021x entry').wpaState = (startHandshake ieee8021x entry).wpaState := by
  unfold startHandshake
  rw [hmode]
  split
  · rfl
  · split
    · rfl
    · exact hstate

/-- The start of the handshake gets the state of the mode. -/
theorem startHandshake_wpaState {ieee8021x : Bool} {entry : ApEntry}
    (hmode : isApWpaMode entry.authMode = true) :
    (startHandshake ieee8021x entry).wpaState =
      (if isPskMode entry.authMode then .initPsk else .authentication) ↔
        StartsRight ieee8021x entry := by
  unfold startHandshake StartsRight isPskMode
  revert hmode
  cases hm : entry.authMode <;> intro hmode
  case openSystem | shared | autoSwitch | wpaNone => exact absurd hmode (by decide)
  all_goals cases ieee8021x <;> simp

/-- An entry written by an association: the state of the handshake, the mode, the port. -/
theorem atStart_iff {b : AssocBss} {entry written : ApEntry}
    (hmode : isApWpaMode entry.authMode = true)
    (hstate : written.wpaState = (startHandshake b.ieee8021x entry).wpaState)
    (hsame : written.authMode = entry.authMode)
    (hport : written.portSecured = (setPort b.ieee8021x entry).portSecured) :
    AtStart written ↔ StartsRight b.ieee8021x entry := by
  have hnot : (setPort b.ieee8021x entry).portSecured = .notSecured := by
    unfold setPort
    dsimp only
    rw [if_pos (.inl (atLeastWpa_of_isApWpaMode hmode))]
  unfold AtStart
  rw [hport, hstate, hsame]
  exact (and_iff_right hnot).trans (startHandshake_wpaState hmode)

/-- The association of a station that was checked. -/
theorem atStart_update {b : AssocBss} {ie : IeLists} {entry : ApEntry} {kept : List UInt8}
    {wmm : Bool} (hmode : isApWpaMode entry.authMode = true) :
    AtStart { updateAssociatedMacEntry b ie { entry with rsnIe := kept } with wmmCapable := wmm } ↔
      StartsRight b.ieee8021x entry := by
  refine atStart_iff hmode ?_ ?_ ?_
  · exact startHandshake_congr rfl rfl
  · exact startHandshake_authMode _ _
  · unfold updateAssociatedMacEntry setPort
    dsimp only
    rw [startHandshake_authMode]

/-- An association for WPS. -/
theorem atStart_wps {b : AssocBss} {entry : ApEntry} {kept : List UInt8} {wmm : Bool}
    (hmode : isApWpaMode entry.authMode = true) :
    AtStart { startHandshake b.ieee8021x
        (setPort b.ieee8021x { entry with rsnIe := kept, sst := .assoc }) with
      wmmCapable := wmm } ↔ StartsRight b.ieee8021x entry := by
  refine atStart_iff hmode ?_ ?_ ?_
  · exact startHandshake_congr rfl rfl
  · exact startHandshake_authMode _ _
  · exact startHandshake_portSecured _ _

/-! ## 5. The condition is the right one -/

/-- Behind the check, with an AID: the station is associated, is taken for WPS, or is denied. -/
theorem buildValidated_eq {b : AssocBss} {sec : ApSecurity} (hb : b.security = .wpa sec)
    {hostapd : Bool} {entry : ApEntry} {ie : IeLists} (haid : entry.aid ≠ 0) :
    buildValidated hostapd b entry ie =
      if rsnIeLenOf (rsnOf b ie) = 0 ∧ hostapd = false then
        associateForWps b { entry with rsnIe := keptRsnIe (rsnOf b ie) }
      else (.success,
        updateAssociatedMacEntry b ie { entry with rsnIe := keptRsnIe (rsnOf b ie) }) := by
  have hwpa : atLeastWpa b.security.authMode = true := by
    rw [hb]
    exact atLeastWpa_of_isApWpaMode sec.isWpa
  unfold buildValidated
  dsimp only
  rw [if_neg haid, hwpa]
  simp

/-- A request without RSN element has nothing to check. -/
theorem validateRsn_of_len_eq_zero {b : AssocBss} {entry : ApEntry} {rsn : Option EidStruct}
    (h : rsnIeLenOf rsn = 0) : validateRsn b entry rsn = .ok (.success, entry) := by
  unfold validateRsn
  cases b.security with
  | legacy _ _ _ => rfl
  | wpa sec =>
    cases rsn with
    | none => rfl
    | some ie =>
      change ie.rsnIeLen = 0 at h
      unfold apValidateRsnIe
      simp only [if_pos h]
      rfl

/-- What follows the check of the RSN element. -/
def afterCheck (ap : AccessPoint) (b : AssocBss) (ie : IeLists) (code : AssocStatus)
    (entry : ApEntry) : AssocStatus × ApEntry :=
  if code ≠ .success then (code, entry)
  else
    let r := buildValidated ap.hostapdSupport b entry ie
    (r.1, if r.1 = .success then { r.2 with wmmCapable := ie.bWmmCapable } else r.2)

theorem apBuildAssociation_eq {ap : AccessPoint} (b : AssocBss) {entry : ApEntry} {ie : IeLists}
    (hrates : ratesRefused ap.phyMode ie = false) (hsst : entry.sst ≠ .notAuth) :
    apBuildAssociation ap b entry ie =
      if entry.bWscCapable then .ok (afterCheck ap b ie .success entry)
      else
        match validateRsn b entry (rsnOf b ie) with
        | .error f => .error f
        | .ok (code, checked) => .ok (afterCheck ap b ie code checked) := by
  unfold apBuildAssociation afterCheck
  rw [hrates, if_neg (by decide), if_neg hsst]
  by_cases hwsc : entry.bWscCapable = true
  · rw [if_pos hwsc, if_pos hwsc]
    rfl
  · rw [if_neg hwsc, if_neg hwsc]
    cases validateRsn b entry (rsnOf b ie) with
    | error f => rfl
    | ok r =>
      obtain ⟨code, checked⟩ := r
      dsimp only [Checked.ok_bind]
      split <;> rfl

section

variable {ap : AccessPoint} {b : AssocBss} {sec : ApSecurity} {entry : ApEntry} {ie : IeLists}

/-- A station taken for one that needs no RSN element. -/
theorem afterCheck_associated (hb : b.security = .wpa sec) (haid : entry.aid ≠ 0)
    (hgate : ¬ (rsnIeLenOf (rsnOf b ie) = 0 ∧ ap.hostapdSupport = false)) :
    afterCheck ap b ie .success entry =
      (.success, { updateAssociatedMacEntry b ie
          { entry with rsnIe := keptRsnIe (rsnOf b ie) } with wmmCapable := ie.bWmmCapable }) := by
  unfold afterCheck
  rw [if_neg (by decide), buildValidated_eq hb haid, if_neg hgate]
  rfl

/-- A station asked whether it comes for WPS. -/
theorem afterCheck_wps (hb : b.security = .wpa sec) (haid : entry.aid ≠ 0)
    (hlen : rsnIeLenOf (rsnOf b ie) = 0) (hsupport : ap.hostapdSupport = false) :
    afterCheck ap b ie .success entry =
      if b.wpsEnabled = true ∧ entry.bWscCapable = true then
        (.success, { startHandshake b.ieee8021x (setPort b.ieee8021x
            { entry with rsnIe := keptRsnIe (rsnOf b ie), sst := .assoc }) with
          wmmCapable := ie.bWmmCapable })
      else (.denyOutScope, { entry with rsnIe := keptRsnIe (rsnOf b ie) }) := by
  unfold afterCheck
  rw [if_neg (by decide), buildValidated_eq hb haid, if_pos ⟨hlen, hsupport⟩]
  unfold associateForWps
  have hcond : (b.wsc.confMode ∧ entry.bWscCapable ∧ (b.wsc.bWpsEnable ∨ !b.wsc.bEnableWpsV2)) ↔
      (b.wpsEnabled = true ∧ entry.bWscCapable = true) := by
    unfold AssocBss.wpsEnabled
    rw [Bool.and_eq_true, Bool.or_eq_true]
    tauto
  simp only [hcond]
  split <;> rfl

/-- A station that does not come for WPS. -/
theorem admission_of_rsn (hb : b.security = .wpa sec)
    (hrates : ratesRefused ap.phyMode ie = false) (hsst : entry.sst ≠ .notAuth)
    (haid : entry.aid ≠ 0) (hwsc : entry.bWscCapable = false) :
    Admission ap b entry ie ↔
      rsnIeLenOf (rsnOf b ie) ≠ 0 ∨ ap.hostapdSupport = false := by
  have hrun := apBuildAssociation_eq b hrates hsst
  rw [hwsc, if_neg (by decide)] at hrun
  by_cases hlen : rsnIeLenOf (rsnOf b ie) = 0
  · rw [validateRsn_of_len_eq_zero hlen] at hrun
    dsimp only at hrun
    by_cases hsupport : ap.hostapdSupport = false
    · -- asked for WPS, which it does not come for
      refine ⟨fun _ => .inr hsupport, fun _ entry' h => ?_⟩
      rw [hrun, afterCheck_wps hb haid hlen hsupport, hwsc, if_neg (by simp)] at h
      exact nomatch h
    · rw [afterCheck_associated hb haid fun h => hsupport h.2] at hrun
      refine ⟨fun h => ?_, fun h => ?_⟩
      · rcases (h _ hrun).2 with ⟨-, hne, -⟩ | ⟨-, hyes, -⟩
        · exact absurd hlen hne
        · rw [hwsc] at hyes
          exact nomatch hyes
      · rcases h with hne | hno
        · exact absurd hlen hne
        · exact absurd hno hsupport
  · refine ⟨fun _ => .inl hlen, fun _ entry' h => ?_⟩
    cases hv : validateRsn b entry (rsnOf b ie) with
    | error f =>
      rw [hrun, hv] at h
      exact nomatch h
    | ok r =>
      obtain ⟨code, checked⟩ := r
      rw [hv] at hrun
      dsimp only at hrun
      by_cases hcode : code = .success
      · subst hcode
        obtain ⟨v, hversion⟩ := validateRsn_accepted hb hlen hv
        have haid' := aid_of_validateRsn hv
        have hmode' : isApWpaMode checked.authMode = true :=
          isApWpaMode_of_modeOf (.inr ⟨v, hversion⟩)
        rw [afterCheck_associated hb (by rw [haid']; exact haid) fun h => hlen h.1] at hrun
        rw [hrun] at h
        cases h
        exact ⟨(atStart_update hmode').mpr (startsRight_of_version hversion),
          .inl ⟨hwsc, hlen, checked, hv⟩⟩
      · unfold afterCheck at hrun
        rw [if_pos hcode] at hrun
        rw [hrun] at h
        cases h
        exact absurd rfl hcode

/-- A station that comes for WPS. -/
theorem admission_of_wps (hb : b.security = .wpa sec) (hmode : ModeOf sec entry.authMode)
    (hrates : ratesRefused ap.phyMode ie = false) (hsst : entry.sst ≠ .notAuth)
    (haid : entry.aid ≠ 0) (hwsc : entry.bWscCapable = true) :
    Admission ap b entry ie ↔ rsnIeLenOf (rsnOf b ie) = 0 ∧
      (b.wpsEnabled = true ∧ StartsRight b.ieee8021x entry ∨
        b.wpsEnabled = false ∧ ap.hostapdSupport = false) := by
  have hmode' := isApWpaMode_of_modeOf hmode
  have hrun := apBuildAssociation_eq b hrates hsst
  rw [hwsc, if_pos rfl] at hrun
  have hnot : ¬ RsnAccepted b entry ie := by
    rintro ⟨hno, -⟩
    rw [hwsc] at hno
    exact nomatch hno
  by_cases hgate : rsnIeLenOf (rsnOf b ie) = 0 ∧ ap.hostapdSupport = false
  · obtain ⟨hlen, hsupport⟩ := hgate
    rw [afterCheck_wps hb haid hlen hsupport] at hrun
    by_cases hwps : b.wpsEnabled = true
    · have hyes : b.wpsEnabled = true ∧ entry.bWscCapable = true := ⟨hwps, hwsc⟩
      rw [if_pos hyes] at hrun
      constructor
      · intro h
        exact ⟨hlen, .inl ⟨hwps, (atStart_wps hmode').mp (h _ hrun).1⟩⟩
      · rintro ⟨-, ⟨-, hstart⟩ | ⟨hno, -⟩⟩ entry' h
        · rw [hrun] at h
          cases h
          exact ⟨(atStart_wps hmode').mpr hstart, .inr ⟨hwps, hwsc, hlen⟩⟩
        · rw [hwps] at hno
          exact nomatch hno
    · rw [if_neg fun h => hwps h.1] at hrun
      rw [Bool.not_eq_true] at hwps
      refine ⟨fun _ => ⟨hlen, .inr ⟨hwps, hsupport⟩⟩, fun _ entry' h => ?_⟩
      rw [hrun] at h
      exact nomatch h
  · rw [afterCheck_associated hb haid hgate] at hrun
    constructor
    · intro h
      obtain ⟨hstart, hwhy⟩ := h _ hrun
      obtain ⟨hwps, -, hlen⟩ := hwhy.resolve_left hnot
      exact ⟨hlen, .inl ⟨hwps, (atStart_update hmode').mp hstart⟩⟩
    · rintro ⟨hlen, ⟨hwps, hstart⟩ | ⟨-, hsupport⟩⟩ entry' h
      · rw [hrun] at h
        cases h
        exact ⟨(atStart_update hmode').mpr hstart, .inr ⟨hwps, hwsc, hlen⟩⟩
      · exact absurd ⟨hlen, hsupport⟩ hgate

/-- A station without AID is not associated. -/
theorem afterCheck_of_aid_eq_zero {code : AssocStatus} {checked : ApEntry}
    (haid : checked.aid = 0) : (afterCheck ap b ie code checked).1 ≠ .success := by
  unfold afterCheck buildValidated
  by_cases hcode : code = .success
  · simp [hcode, haid]
  · rw [if_pos hcode]
    exact hcode

theorem admission_of_aid_eq_zero (hrates : ratesRefused ap.phyMode ie = false)
    (hsst : entry.sst ≠ .notAuth) (haid : entry.aid = 0) : Admission ap b entry ie := by
  intro entry' h
  rw [apBuildAssociation_eq b hrates hsst] at h
  split at h
  · exact absurd (congrArg Prod.fst (Except.ok.inj h)) (afterCheck_of_aid_eq_zero haid)
  · split at h
    · exact nomatch h
    · rename_i hv
      refine absurd (congrArg Prod.fst (Except.ok.inj h)) (afterCheck_of_aid_eq_zero ?_)
      rw [aid_of_validateRsn hv]
      exact haid

end

/-- **Who is let in.** -/
theorem admission_iff (ap : AccessPoint) (b : AssocBss) (sec : ApSecurity)
    (hb : b.security = .wpa sec) (entry : ApEntry) (hmode : ModeOf sec entry.authMode)
    (ie : IeLists) : Admission ap b entry ie ↔ AdmittedProperly ap b entry ie := by
  unfold AdmittedProperly
  by_cases hrates : ratesRefused ap.phyMode ie = true
  · refine ⟨fun _ => .inl hrates, fun _ entry' h => ?_⟩
    unfold apBuildAssociation at h
    rw [if_pos hrates] at h
    exact nomatch h
  by_cases hsst : entry.sst = .notAuth
  · refine ⟨fun _ => .inr (.inl hsst), fun _ entry' h => ?_⟩
    unfold apBuildAssociation at h
    rw [if_neg hrates, if_pos hsst] at h
    exact nomatch h
  rw [Bool.not_eq_true] at hrates
  by_cases haid : entry.aid = 0
  · exact ⟨fun _ => .inr (.inr (.inl haid)),
      fun _ => admission_of_aid_eq_zero hrates hsst haid⟩
  have hrates' : ¬ ratesRefused ap.phyMode ie = true := by
    rw [hrates]
    decide
  rw [or_iff_right hrates', or_iff_right hsst, or_iff_right haid]
  unfold WpsOnly
  cases hwsc : entry.bWscCapable with
  | false =>
    rw [admission_of_rsn hb hrates hsst haid hwsc]
    simp
  | true =>
    rw [admission_of_wps hb hmode hrates hsst haid hwsc]
    simp

namespace Example

/-- A BSS with WPA2-PSK and AES, and without WPS. -/
def guarded : AssocBss where
  ssid := [0x61]
  security := .wpa wpa2Psk
  ieee8021x := false
  wsc := ⟨false, .zero 6, false, false⟩
  acl := ⟨0, []⟩

/-- A station that has been authenticated. -/
def caller : ApEntry where
  entryClient := true
  authMode := .wpa2Psk
  wepStatus := .encryption3Enabled
  sst := .auth
  aid := 1
  rsnIe := []
  bWscCapable := false
  receiveEapolStartEapRspId := 0
  capabilityInfo := 0
  wmmCapable := false

def radio : AccessPoint where
  hostapdSupport := false
  phyMode := 14
  mbss _ := some guarded
  macTab _ := some caller

/-- The suites of the BSS. -/
def rightElement : EidStruct where
  eid := 48
  octet := ⟨[1, 0, 0x00, 0x0f, 0xac, 4, 1, 0, 0x00, 0x0f, 0xac, 4, 1, 0, 0x00, 0x0f, 0xac, 2], by
    decide⟩

def requestWith (rsn : EidStruct) (wpsIe : Bool) : IeLists where
  addr2 := .zero 6
  capabilityInfo := 0
  ssid := [0x61]
  supportedRates := [0x8b, 0x96, 12, 108]
  rsn := some rsn
  wpsIe
  bWmmCapable := false
  htCap := false

/-- The entry when the association is built, for a request with an RSN element nobody accepts and a
WPS element. -/
def impostor : ApEntry := (noteWps guarded caller (requestWith manySuites true)).2

end Example

/-- A station with the suites of the BSS. -/
theorem admission_caller :
    Admission Example.radio Example.guarded Example.caller
      (Example.requestWith Example.rightElement false) :=
  (admission_iff Example.radio Example.guarded Example.wpa2Psk rfl Example.caller (.inl rfl)
    (Example.requestWith Example.rightElement false)).mpr
    (.inr (.inr (.inr (.inl ⟨rfl, .inr rfl⟩))))

/-- With a WPS element beside it, an RSN element is not looked at. -/
theorem not_admission_impostor :
    ¬ Admission Example.radio Example.guarded Example.impostor
      (Example.requestWith Example.manySuites true) := by
  intro h
  obtain ⟨-, ⟨hno, -⟩ | ⟨hno, -⟩⟩ := h _ rfl
  · exact absurd hno (by decide)
  · exact absurd hno (by decide)

end Mt7601.Ap
