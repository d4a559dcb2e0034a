/-
# Which key protects a group frame, over runs of an access point

`DefaultKeyId` names two things at once: the index under which the stations are told the group key,
and the place of the shared key table the transmit path takes its key from. `Session` records what
was given out under each index beside the BSS; `Protected` says that a group frame sent now goes out
under the key that was given out under its index.

The two meanings part between the turn of the timer that moves `DefaultKeyId` on and the one that
installs the new key. `GroupKeyLaw` holds of every run in which no group frame falls between the
two (`groupKeyLaw_of_settled`); a frame that does takes what the other place held before
(`choice_while_pending`), which after the start of the BSS is no key at all.
-/
import Mt7601.Ap.GroupRekey

namespace Mt7601.Ap

open Wpa

/-! ## 1. Sessions -/

/-- A BSS, the key last given out under each index, and whether a key given out is still to be
installed. -/
structure Session where
  bss : Bss
  given : UInt8 → Option (Octets 32)
  pending : Bool

/-- Something that happens to the BSS. -/
inductive Event
  /-- The timer of the group key expires. -/
  | turn (t : Turn)
  /-- A group-addressed data frame other than an EAPOL frame is sent. -/
  | groupData (srcBufLen : UInt64)

/-- The turn moves `DefaultKeyId` on. -/
def Bss.changesKey (b : Bss) (t : Turn) : Bool :=
  isWpaCapability b.ad.mbss.authMode &&
    (match tempCounter b with
    | none => false
    | some (temp, _) => b.reKeyInterval < temp) && decide (0 < t.staCount)

/-- The messages of a change, and every message of a handshake after it, carry `DefaultKeyId` and
the group key of the BSS: the key counts as given out from the moment it is derived. -/
def Session.step (C : Crypto) (s : Session) : Event → Session
  | .turn t =>
    let b := (grekeyPeriodicExec C s.bss t).1
    { bss := b
      given := fun keyIdx =>
        if s.bss.changesKey t ∧ keyIdx = b.ad.mbss.defaultKeyId then some b.ad.mbss.gtk
        else s.given keyIdx
      pending := (s.bss.changesKey t || s.pending) && b.rekeyCountDown ≠ 0 }
  | .groupData srcBufLen => { s with bss := recordMcast s.bss (groupFrame srcBufLen) }

/-- The session a started BSS begins with: its first key is given out and installed. -/
def Session.start (C : Crypto) (env : Env) (b : Bss) : Session where
  bss := startUp C env b
  given := fun keyIdx =>
    if keyIdx = (startUp C env b).ad.mbss.defaultKeyId then some (startUp C env b).ad.mbss.gtk
    else none
  pending := false

/-! ## 2. The law -/

/-- The entry of the shared key table is that group key, with its two MIC keys if the cipher is
TKIP. -/
structure Holds (key : CipherKey) (gtk : Octets 32) : Prop where
  keyLen : key.keyLen = 16
  octets : key.key.toList = gtk.toList.take 16
  mic : key.cipherAlg = .tkip → key.txMic.toList = (gtk.toList.drop 16).take 8 ∧
    key.rxMic.toList = (gtk.toList.drop 24).take 8

/-- A group frame sent now is encrypted, and the entry its key index denotes holds the key last
given out under that index. -/
def Session.Protected (s : Session) (srcBufLen : UInt64) : Prop :=
  let choice := apFindCipherAlgorithm s.bss (groupFrame srcBufLen)
  choice.cipherAlg ≠ .none ∧
    ∃ gtk, s.given choice.keyIdx = some gtk ∧ Holds (s.bss.sharedKeyAt choice.keyIdx) gtk

/-- **The group key law** of a run: every group frame is protected when it is sent. -/
def GroupKeyLaw (C : Crypto) (s : Session) (events : List Event) : Prop :=
  ∀ done srcBufLen rest, events = done ++ .groupData srcBufLen :: rest →
    (Run.final (Session.step C) s done).Protected srcBufLen

/-- The BSS is configured for WPA or WPA2, with TKIP, AES or both. -/
structure Bss.UsesWpa (b : Bss) : Prop where
  authMode : isWpaCapability b.ad.mbss.authMode
  wepStatus : b.wepStatus = .encryption2Enabled ∨ b.wepStatus = .encryption3Enabled ∨
    b.wepStatus = .encryption4Enabled
  apidx : b.apidx < b.ad.maxMbssidNum

/-- No group frame is sent while a key that was given out is still to be installed. -/
def Settled (s : Session) : Event → Prop
  | .turn _ => True
  | .groupData _ => s.pending = false

instance (s : Session) : (e : Event) → Decidable (Settled s e)
  | .turn _ => .isTrue trivial
  | .groupData _ => inferInstanceAs (Decidable (s.pending = false))

/-! ## 3. What a step does to the key -/

/-- What the turns of the timer leave alone. -/
structure SameSetting (b b' : Bss) : Prop where
  wepStatus : b'.wepStatus = b.wepStatus
  apidx : b'.apidx = b.apidx
  maxMbssidNum : b'.ad.maxMbssidNum = b.ad.maxMbssidNum
  groupKeyWepStatus : b'.ad.mbss.groupKeyWepStatus = b.ad.mbss.groupKeyWepStatus

/-- Index and key are as they were. -/
structure SameIndex (b b' : Bss) : Prop extends SameSetting b b' where
  defaultKeyId : b'.ad.mbss.defaultKeyId = b.ad.mbss.defaultKeyId
  gtk : b'.ad.mbss.gtk = b.ad.mbss.gtk

/-- The table is as it was, too. -/
structure SameKey (b b' : Bss) : Prop extends SameIndex b b' where
  sharedKey : b'.ad.sharedKey = b.ad.sharedKey

/-- The setting in which the group key gets into the table. -/
structure Bss.Ready (b : Bss) : Prop where
  wepStatus : b.wepStatus = .encryption2Enabled ∨ b.wepStatus = .encryption3Enabled ∨
    b.wepStatus = .encryption4Enabled
  apidx : b.apidx < b.ad.maxMbssidNum
  groupKeyWepStatus : b.ad.mbss.groupKeyWepStatus = .encryption2Enabled ∨
    b.ad.mbss.groupKeyWepStatus = .encryption3Enabled
  defaultKeyId : b.ad.mbss.defaultKeyId = 1 ∨ b.ad.mbss.defaultKeyId = 2

/-- The key of the BSS is in its place. -/
def Bss.Installed (b : Bss) : Prop :=
  (b.sharedKeyAt b.ad.mbss.defaultKeyId).cipherAlg ≠ .none ∧
    Holds (b.sharedKeyAt b.ad.mbss.defaultKeyId) b.ad.mbss.gtk

theorem SameKey.of_eq {b b' : Bss} (had : b'.ad = b.ad) (hapidx : b'.apidx = b.apidx)
    (hwep : b'.wepStatus = b.wepStatus) : SameKey b b' := by
  constructor
  · exact ⟨⟨hwep, hapidx, by rw [had], by rw [had]⟩, by rw [had], by rw [had]⟩
  · rw [had]

theorem SameIndex.trans {b b' b'' : Bss} (h : SameIndex b b') (h' : SameIndex b' b'') :
    SameIndex b b'' where
  wepStatus := h'.wepStatus.trans h.wepStatus
  apidx := h'.apidx.trans h.apidx
  maxMbssidNum := h'.maxMbssidNum.trans h.maxMbssidNum
  groupKeyWepStatus := h'.groupKeyWepStatus.trans h.groupKeyWepStatus
  defaultKeyId := h'.defaultKeyId.trans h.defaultKeyId
  gtk := h'.gtk.trans h.gtk

theorem SameSetting.ready {b b' : Bss} (h : SameSetting b b') (hready : b.Ready)
    (hkey : b'.ad.mbss.defaultKeyId = 1 ∨ b'.ad.mbss.defaultKeyId = 2) : b'.Ready where
  wepStatus := by rw [h.wepStatus]; exact hready.wepStatus
  apidx := by rw [h.apidx, h.maxMbssidNum]; exact hready.apidx
  groupKeyWepStatus := by rw [h.groupKeyWepStatus]; exact hready.groupKeyWepStatus
  defaultKeyId := hkey

theorem SameKey.installed {b b' : Bss} (h : SameKey b b') (hinst : b.Installed) :
    b'.Installed := by
  have hat : ∀ keyIdx, b'.sharedKeyAt keyIdx = b.sharedKeyAt keyIdx := by
    intro keyIdx
    unfold Bss.sharedKeyAt
    rw [h.sharedKey]
  unfold Bss.Installed
  rw [hat, h.defaultKeyId, h.gtk]
  exact hinst

/-- The entry `WPAInstallSharedKey` makes of a group key for TKIP or AES. -/
theorem holds_sharedKeyOf {groupCipher : WepStatus} (gtk : Octets 32)
    (h : groupCipher = .encryption2Enabled ∨ groupCipher = .encryption3Enabled) :
    (sharedKeyOf groupCipher true gtk.toList lenTkipGtk).1.cipherAlg ≠ .none ∧
      Holds (sharedKeyOf groupCipher true gtk.toList lenTkipGtk).1 gtk := by
  have hlen : gtk.toList.length = 32 := gtk.toList_length
  have hcut : ∀ i n, i + n ≤ 32 → (gtk.toList.drop i).takeD n 0 = (gtk.toList.drop i).take n := by
    intro i n hle
    refine List.takeD_eq_take 0 ?_
    rw [List.length_drop]
    omega
  rcases h with rfl | rfl
  · refine ⟨nofun, rfl, ?_, fun _ => ⟨?_, ?_⟩⟩
    · exact hcut 0 16 (by omega)
    · exact hcut 16 8 (by omega)
    · exact hcut 24 8 (by omega)
  · exact ⟨nofun, rfl, hcut 0 16 (by omega), nofun⟩

/-- The install writes the table and nothing else. -/
theorem installGroupKey_setting (b : Bss) : SameSetting b (installGroupKey b).1 ∧
    (installGroupKey b).1.ad.mbss = b.ad.mbss := by
  unfold installGroupKey wpaInstallSharedKey
  by_cases hmax : b.ad.maxMbssidNum ≤ b.apidx
  · rw [if_pos hmax]
    exact ⟨⟨rfl, rfl, rfl, rfl⟩, rfl⟩
  · rw [if_neg hmax]
    exact ⟨⟨rfl, rfl, rfl, rfl⟩, rfl⟩

/-- The install puts the key of the BSS under its index. -/
theorem installGroupKey_installed {b : Bss} (h : b.Ready) : (installGroupKey b).1.Installed := by
  obtain ⟨-, hmbss⟩ := installGroupKey_setting b
  have hentry : (installGroupKey b).1.sharedKeyAt b.ad.mbss.defaultKeyId =
      (sharedKeyOf b.ad.mbss.groupKeyWepStatus true b.ad.mbss.gtk.toList lenTkipGtk).1 := by
    have hlt : b.ad.mbss.defaultKeyId.toNat < 4 := by
      rcases h.defaultKeyId with hkey | hkey <;> rw [hkey] <;> decide
    have hmax : ¬ b.ad.maxMbssidNum ≤ b.apidx := UInt8.not_le.mpr h.apidx
    unfold Bss.sharedKeyAt
    rw [dif_pos hlt]
    unfold installGroupKey wpaInstallSharedKey
    simp only [if_neg hmax, List.Vector.get_ofFn, if_true]
  unfold Bss.Installed
  rw [hmbss, hentry]
  exact holds_sharedKeyOf _ h.groupKeyWepStatus

/-- The count-down stands, or is at its last turn and installs, or runs on. -/
theorem countDown_cases (b : Bss) :
    (b.rekeyCountDown = 0 ∧ (countDown b).1 = b) ∨
    (b.rekeyCountDown ≠ 0 ∧
      (countDown b).1 = (installGroupKey { b with rekeyCountDown := 0 }).1) ∨
    (b.rekeyCountDown ≠ 0 ∧ b.rekeyCountDown - 1 ≠ 0 ∧
      (countDown b).1 = { b with rekeyCountDown := b.rekeyCountDown - 1 }) := by
  unfold countDown
  by_cases hrun : 0 < b.rekeyCountDown
  · have hne : b.rekeyCountDown ≠ 0 := by
      intro h0
      rw [h0] at hrun
      exact absurd hrun (by decide)
    rw [if_pos hrun]
    by_cases hlast : b.rekeyCountDown - 1 = 0
    · simp only [hlast, if_true]
      exact .inr (.inl ⟨hne, trivial⟩)
    · simp only [hlast, if_false]
      exact .inr (.inr ⟨hne, hlast, trivial⟩)
  · rw [if_neg hrun]
    refine .inl ⟨?_, rfl⟩
    exact UInt8.le_antisymm (UInt8.not_lt.mp hrun) (UInt8.zero_le)

/-- A turn that does not change the key leaves it where it was, or installs it. -/
def Bss.KeepsKey (b b' : Bss) : Prop :=
  (SameKey b b' ∧ (b.rekeyCountDown ≠ 0 → b'.rekeyCountDown ≠ 0)) ∨
    (SameIndex b b' ∧ (b.Ready → b'.Installed))

theorem countDown_keepsKey (b : Bss) : b.KeepsKey (countDown b).1 := by
  rcases countDown_cases b with ⟨h0, heq⟩ | ⟨-, heq⟩ | ⟨-, hne, heq⟩
  · rw [heq]
    exact .inl ⟨.of_eq rfl rfl rfl, id⟩
  · rw [heq]
    obtain ⟨hset, hmbss⟩ := installGroupKey_setting { b with rekeyCountDown := 0 }
    refine .inr ⟨⟨⟨hset.1, hset.2, hset.3, hset.4⟩, by rw [hmbss], by rw [hmbss]⟩, fun h => ?_⟩
    exact installGroupKey_installed ⟨h.1, h.2, h.3, h.4⟩
  · rw [heq]
    exact .inl ⟨.of_eq rfl rfl rfl, fun _ => hne⟩

/-- A turn that only restarts the count-down before its share of it. -/
theorem Bss.KeepsKey.of_same {b b₁ b' : Bss} (hsame : SameKey b b₁)
    (hrun : b.rekeyCountDown ≠ 0 → b₁.rekeyCountDown ≠ 0) (h : b₁.KeepsKey b') : b.KeepsKey b' := by
  rcases h with ⟨hkey, hrun'⟩ | ⟨hindex, hinst⟩
  · refine .inl ⟨⟨hsame.toSameIndex.trans hkey.toSameIndex, ?_⟩, fun h => hrun' (hrun h)⟩
    exact hkey.sharedKey.trans hsame.sharedKey
  · refine .inr ⟨hsame.toSameIndex.trans hindex, fun hready => hinst ?_⟩
    refine hsame.ready hready ?_
    rw [hsame.defaultKeyId]
    exact hready.defaultKeyId

/-- What a change of the key does: index and key are new, and the count-down has two turns to go. -/
theorem changeGroupKey_countDown (C : Crypto) (b : Bss) (t : Turn) (h3 : b.rekeyCountDown = 3) :
    (countDown (changeGroupKey C b t).1).1 =
      { (changeGroupKey C b t).1 with rekeyCountDown := 2 } := by
  have hcd : (changeGroupKey C b t).1.rekeyCountDown = 3 := h3
  unfold countDown
  rw [hcd]
  rfl

/-- **A turn of the timer** changes the key, and then does not install it; or keeps it. -/
theorem grekeyPeriodicExec_cases (C : Crypto) (b : Bss) (t : Turn) :
    (b.changesKey t = false ∧ b.KeepsKey (grekeyPeriodicExec C b t).1) ∨
    (b.changesKey t = true ∧ SameSetting b (grekeyPeriodicExec C b t).1 ∧
      ((grekeyPeriodicExec C b t).1.ad.mbss.defaultKeyId = 1 ∨
        (grekeyPeriodicExec C b t).1.ad.mbss.defaultKeyId = 2) ∧
      (grekeyPeriodicExec C b t).1.ad.sharedKey = b.ad.sharedKey ∧
      (grekeyPeriodicExec C b t).1.rekeyCountDown ≠ 0) := by
  have hstay : b.KeepsKey b := .inl ⟨.of_eq rfl rfl rfl, id⟩
  unfold Bss.changesKey grekeyPeriodicExec
  by_cases hwpa : isWpaCapability b.ad.mbss.authMode = true
  swap
  · rw [Bool.not_eq_true] at hwpa
    rw [hwpa]
    exact .inl ⟨rfl, hstay⟩
  rw [hwpa]
  rcases htemp : tempCounter b with _ | ⟨temp, counter⟩
  · exact .inl ⟨rfl, hstay⟩
  simp only [Bool.not_true, Bool.true_and, if_false, Bool.false_eq_true]
  by_cases hexc : b.reKeyInterval < temp
  · by_cases hsta : 0 < t.staCount
    · right
      simp only [hexc, if_true, intervalExcess, hsta, decide_true, Bool.and_self, true_and]
      rw [changeGroupKey_countDown C _ t rfl]
      have hcd : (2 : UInt8) ≠ 0 := by decide
      refine ⟨⟨rfl, rfl, rfl, rfl⟩, ?_, rfl, hcd⟩
      change (if b.ad.mbss.defaultKeyId = 1 then (2 : UInt8) else 1) = 1 ∨
        (if b.ad.mbss.defaultKeyId = 1 then (2 : UInt8) else 1) = 2
      split
      · exact .inr rfl
      · exact .inl rfl
    · left
      simp only [hexc, if_true, intervalExcess, hsta, decide_false, Bool.and_false, if_false,
        true_and]
      have hcd : (3 : UInt8) ≠ 0 := by decide
      refine .of_same ?_ (fun _ => hcd) (countDown_keepsKey _)
      exact .of_eq rfl rfl rfl
  · left
    simp only [hexc, if_false, decide_false, Bool.false_and, true_and]
    have hsame : SameKey b { b with rekeyCounter := counter } := .of_eq rfl rfl rfl
    exact .of_same hsame id (countDown_keepsKey _)

/-! ## 4. The invariant -/

/-- What every state of a settled run looks like. -/
structure Session.Inv (s : Session) : Prop where
  ready : s.bss.Ready
  given : s.given s.bss.ad.mbss.defaultKeyId = some s.bss.ad.mbss.gtk
  installed : s.pending = false → s.bss.Installed
  running : s.pending = true → s.bss.rekeyCountDown ≠ 0

/-- A turn keeps it. -/
theorem Session.Inv.turn {C : Crypto} {s : Session} (hinv : s.Inv) (t : Turn) :
    (s.step C (.turn t)).Inv := by
  rcases grekeyPeriodicExec_cases C s.bss t with ⟨hno, hkeep⟩ | ⟨hyes, hset, hkey, -, hcd⟩
  · have hindex : SameIndex s.bss (grekeyPeriodicExec C s.bss t).1 := by
      rcases hkeep with ⟨hkey, -⟩ | ⟨hindex, -⟩
      · exact hkey.toSameIndex
      · exact hindex
    have hgiven : ∀ keyIdx, (s.step C (.turn t)).given keyIdx = s.given keyIdx := by
      intro keyIdx
      simp only [Session.step, hno, Bool.false_eq_true, false_and, if_false]
    have hpending : (s.step C (.turn t)).pending =
        (s.pending && (grekeyPeriodicExec C s.bss t).1.rekeyCountDown ≠ 0) := by
      simp only [Session.step, hno, Bool.false_or]
    refine ⟨hindex.ready hinv.ready ?_, ?_, ?_, ?_⟩
    · rw [hindex.defaultKeyId]
      exact hinv.ready.defaultKeyId
    · rw [hgiven]
      change s.given (grekeyPeriodicExec C s.bss t).1.ad.mbss.defaultKeyId =
        some (grekeyPeriodicExec C s.bss t).1.ad.mbss.gtk
      rw [hindex.defaultKeyId, hindex.gtk]
      exact hinv.given
    · intro hpend
      rw [hpending] at hpend
      rcases hkeep with ⟨hkey, hrun⟩ | ⟨-, hinst⟩
      · have hfalse : s.pending = false := by
          by_contra htrue
          rw [Bool.not_eq_false] at htrue
          rw [htrue, Bool.true_and, decide_eq_false_iff_not] at hpend
          exact hpend (hrun (hinv.running htrue))
        exact hkey.installed (hinv.installed hfalse)
      · exact hinst hinv.ready
    · intro hpend
      rw [hpending, Bool.and_eq_true, decide_eq_true_eq] at hpend
      exact hpend.2
  · have hpending : (s.step C (.turn t)).pending = true := by
      simp only [Session.step, hyes, Bool.true_or, Bool.true_and, decide_eq_true_eq]
      exact hcd
    refine ⟨hset.ready hinv.ready hkey, ?_, ?_, fun _ => hcd⟩
    · simp only [Session.step, hyes, true_and, if_true]
    · intro hpend
      rw [hpending] at hpend
      exact absurd hpend (by decide)

/-- A group frame keeps it. -/
theorem Session.Inv.groupData {C : Crypto} {s : Session} (hinv : s.Inv) (srcBufLen : UInt64) :
    (s.step C (.groupData srcBufLen)).Inv := by
  unfold Session.step recordMcast
  dsimp only
  split
  · exact ⟨⟨hinv.1.1, hinv.1.2, hinv.1.3, hinv.1.4⟩, hinv.2, hinv.3, hinv.4⟩
  · exact hinv

theorem Session.Inv.step {C : Crypto} {s : Session} (hinv : s.Inv) (e : Event) :
    (s.step C e).Inv := by
  cases e with
  | turn t => exact hinv.turn t
  | groupData srcBufLen => exact hinv.groupData srcBufLen

/-! ## 5. The law over runs -/

/-- The BSS is ready for its first install. -/
theorem ready_deriveFirstKey (C : Crypto) (env : Env) {b : Bss} (h : b.UsesWpa) :
    (deriveFirstKey C env b).Ready where
  wepStatus := h.wepStatus
  apidx := h.apidx
  groupKeyWepStatus := by
    change groupKeyWepStatusOf b.wepStatus = _ ∨ groupKeyWepStatusOf b.wepStatus = _
    rcases h.wepStatus with hwep | hwep | hwep <;> rw [hwep]
    · exact .inl rfl
    · exact .inr rfl
    · exact .inl rfl
  defaultKeyId := by
    left
    change (if isWpaCapability b.ad.mbss.authMode = true then (1 : UInt8) else _) = 1
    rw [if_pos h.authMode]

theorem Session.inv_start (C : Crypto) (env : Env) {b : Bss} (h : b.UsesWpa) :
    (Session.start C env b).Inv := by
  have hready := ready_deriveFirstKey C env h
  obtain ⟨hset, hmbss⟩ := installGroupKey_setting (deriveFirstKey C env b)
  refine ⟨hset.ready hready ?_, ?_, fun _ => installGroupKey_installed hready, nofun⟩
  · rw [hmbss]
    exact hready.defaultKeyId
  · simp only [Session.start, if_true]

/-- For a group frame the choice is the entry under `DefaultKeyId`. -/
theorem apFindCipherAlgorithm_groupFrame {b : Bss} (h : b.Ready) (srcBufLen : UInt64) :
    apFindCipherAlgorithm b (groupFrame srcBufLen) =
      .ofKey (b.sharedKeyAt b.ad.mbss.defaultKeyId) b.ad.mbss.defaultKeyId := by
  unfold apFindCipherAlgorithm
  simp only [groupFrame, Bool.false_eq_true, if_false, false_or]
  rw [if_pos (.inr h.wepStatus)]

/-- **Where no key is pending, a group frame is protected.** -/
theorem Session.Inv.protected {s : Session} (hinv : s.Inv) (hsettled : s.pending = false)
    (srcBufLen : UInt64) : s.Protected srcBufLen := by
  obtain ⟨hcipher, hholds⟩ := hinv.installed hsettled
  unfold Session.Protected
  rw [apFindCipherAlgorithm_groupFrame hinv.ready]
  exact ⟨hcipher, s.bss.ad.mbss.gtk, hinv.given, hholds⟩

/-- **The group key law.** In a run of a started BSS in which no group frame is sent between a
change of the key and its install, every group frame is encrypted, with the key the stations were
last given under its index. -/
theorem groupKeyLaw_of_settled (C : Crypto) (env : Env) (b : Bss) (hwpa : b.UsesWpa)
    (events : List Event)
    (hsettled : Run.StepsMeet (Session.step C) Settled (Session.start C env b) events) :
    GroupKeyLaw C (Session.start C env b) events := by
  intro done srcBufLen rest hsplit
  rw [hsplit, Run.stepsMeet_append, Run.stepsMeet_cons] at hsettled
  obtain ⟨-, hnow, -⟩ := hsettled
  have hinv : (Run.final (Session.step C) (Session.start C env b) done).Inv :=
    Run.invariant_always Session.Inv (fun _ e hs => hs.step e) (Session.inv_start C env hwpa)
  exact hinv.protected hnow srcBufLen

/-! ## 6. A change of the key seen from the air -/

namespace Example

def quietEnv : Env where
  alloc _ := true
  random := .zero 32
  txTsc := .zero 6
  now := 0
  closed := false
  stackPtk := .zero 64
  stackGtk := .zero 32
  heap := []
  pool := []

def noPmkid : ApBssidInfo := ⟨false, .zero 6, 0, .zero 16, .zero 32⟩

/-- A BSS with WPA2-PSK and AES that changes its key every ten seconds. -/
def home : Bss where
  ad :=
    { opMode := .ap
      currentAddress := .zero 6
      staCfg := ⟨.zero 32, .zero 64, [], .wepEnabled, ⟨[], by decide⟩, 0, .unset⟩
      bssidNum := 1
      maxMbssidNum := 8
      mbss :=
        { bssid := .zero 6
          authMode := .wpa2Psk
          groupKeyWepStatus := .encryption3Enabled
          pmk := .zero 32
          gmk := .zero 32
          gNonce := .zero 32
          gtk := .zero 32
          defaultKeyId := 0
          rsnIe0 := ⟨[], by decide⟩
          rsnIe1 := ⟨[], by decide⟩
          pmkidCache := .replicate 8 noPmkid }
      sharedKey := .replicate 4 {}
      entry := {} }
  apidx := 0
  wepStatus := .encryption3Enabled
  ieee8021x := false
  reKeyMethod := .time
  reKeyInterval := 10
  rekeyCounter := 0
  rekeyCountDown := 0
  rekeyTimerRunning := true

theorem usesWpa_home : home.UsesWpa := ⟨rfl, .inr (.inl rfl), by decide⟩

/-- One station, with its handshake done. -/
def second : Event :=
  .turn ⟨1, [({ entryClient := true, wpaState := .ptkInitDone }, quietEnv)], quietEnv⟩

end Example

/-- Frames before the change and after the install. -/
theorem groupKeyLaw_home :
    GroupKeyLaw .driver (Session.start .driver Example.quietEnv Example.home)
      ([.groupData 100] ++ List.replicate 13 Example.second ++ [.groupData 100]) :=
  groupKeyLaw_of_settled .driver Example.quietEnv Example.home Example.usesWpa_home _
    (by decide +kernel)

/-- A frame in the second after the eleventh turn goes out in the clear. -/
theorem not_groupKeyLaw_home :
    ¬ GroupKeyLaw .driver (Session.start .driver Example.quietEnv Example.home)
      (List.replicate 11 Example.second ++ [.groupData 100]) := by
  intro h
  obtain ⟨hcipher, -⟩ := h (List.replicate 11 Example.second) 100 [] rfl
  exact hcipher (by decide +kernel)

end Mt7601.Ap
