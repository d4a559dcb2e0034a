/-
# What a message leaves in the fields

A message is stored while it is read. What a field holds in the end is what it held with the values
of the message written to its front, one over the other (`overwritten`): the values of the attributes
that are copied to it, and those of the secret nonces inside Encrypted Settings.

Encrypted Settings are deciphered into a buffer that is parsed whether they have been deciphered or
not, so that each attribute is taken with what is in the buffer behind it (`opened`).
-/
import Mt7601.Wsc.MessageBounds

namespace Mt7601.Wsc

open Tlv (Attr)

/-! ## 1. Values in a field -/

/-- A field with values written to its front, one after the other. -/
def overwritten {n : Nat} (v : Octets n) (values : List (List UInt8)) : Octets n :=
  values.foldl (fun v l => Octets.ofList n (Mem.write v.toList 0 l)) v

section

variable {n : Nat} {v : Octets n} {values : List (List UInt8)}

@[simp] theorem overwritten_nil : overwritten v [] = v := rfl

theorem overwritten_append (values' : List (List UInt8)) :
    overwritten v (values ++ values') = overwritten (overwritten v values) values' :=
  List.foldl_append

/-- A value as long as the field is what the field holds then. -/
theorem overwritten_full {l : List UInt8} (h : l.length = n) :
    (overwritten v (values ++ [l])).toList = l := by
  rw [overwritten_append]
  change (Mem.write (overwritten v values).toList 0 l).takeD n 0 = l
  rw [Mem.write, List.takeD_zero, List.nil_append, List.drop_of_length_le (by simp [h]),
    List.append_nil, List.takeD_eq_take 0 (by omega), List.take_of_length_le (by omega)]

end

theorem Regs.put_self (r : Regs) (f : Field) (l : List UInt8) :
    r.put f l f = overwritten (r f) [l] := Function.update_self _ _ _

/-- One value, to a row of fields. -/
theorem Regs.foldl_put (l : List UInt8) (f : Field) (fs : List Field) (r : Regs) :
    fs.foldl (fun r g => r.put g l) r f = overwritten (r f) (List.replicate (fs.count f) l) := by
  induction fs generalizing r with
  | nil => rfl
  | cons g fs ih =>
    rw [List.foldl_cons, ih, List.count_cons]
    by_cases hg : g = f
    · subst hg
      rw [Regs.put_self, if_pos (beq_self_eq_true g), Nat.add_comm, List.replicate_add,
        overwritten_append]
      rfl
    · rw [Regs.put_of_ne r l (Ne.symm hg), if_neg (by simpa using hg), Nat.add_zero]

/-! ## 2. Settings -/

/-- The values of a nonce in settings. -/
def settingValues (plain : List UInt8) (f : Field) : List (List UInt8) :=
  ((settingsOf plain).filter fun a => settingField a.type = some f).map (·.value plain)

/-- `WscM7Profile` as settings leave it. -/
def settingsProfile (plain : List UInt8) (p : WscProfile) : WscProfile :=
  (settingsOf plain).foldl (fun p a => settingProfile plain a p) p

theorem settingsStored_regs (plain : List UInt8) (s : Settings) (f : Field) :
    (settingsStored plain s).regs f = overwritten (s.regs f) (settingValues plain f) := by
  unfold settingsStored settingValues
  generalize settingsOf plain = as
  induction as generalizing s with
  | nil => rfl
  | cons a as ih =>
    rw [List.foldl_cons, ih, List.filter_cons]
    change overwritten (settingRegs plain a s.regs f) _ = _
    unfold settingRegs
    cases hfield : settingField a.type with
    | none => rw [if_neg (by simp)]
    | some g =>
      by_cases hg : g = f
      · subst hg
        rw [if_pos (by simp)]
        dsimp only
        rw [Regs.put_self]
        rfl
      · rw [if_neg (by simpa using hg)]
        dsimp only
        rw [Regs.put_of_ne _ _ (Ne.symm hg)]

/-- A field that is none of the secret nonces gets nothing of settings. -/
theorem settingValues_of_notMem {f : Field} (h : f ∉ [Field.es1, .es2, .rs1, .rs2])
    (plain : List UInt8) : settingValues plain f = [] := by
  have hnone : ∀ type, settingField type ≠ some f := by
    intro type hfield
    unfold settingField at hfield
    split at hfield
    · exact h (by rw [← Option.some.inj hfield]; decide)
    split at hfield
    · exact h (by rw [← Option.some.inj hfield]; decide)
    split at hfield
    · exact h (by rw [← Option.some.inj hfield]; decide)
    split at hfield
    · exact h (by rw [← Option.some.inj hfield]; decide)
    · exact nomatch hfield
  unfold settingValues
  rw [List.filter_eq_nil_iff.2 fun a _ => by simpa using hnone a.type]
  rfl

theorem settingsStored_m7 (plain : List UInt8) (s : Settings) :
    (settingsStored plain s).m7 = settingsProfile plain s.m7 := by
  unfold settingsStored settingsProfile
  generalize settingsOf plain = as
  induction as generalizing s with
  | nil => rfl
  | cons a as ih =>
    rw [List.foldl_cons, ih]
    rfl

/-! ## 3. Attributes with what is deciphered -/

/-- How many octets of Encrypted Settings are taken. -/
def Act.capacity : Act → Nat
  | .settings => 512
  | .m7Settings | .credentials => 1024
  | _ => 0

/-- How often the value of an attribute is copied to a field. -/
def Act.copiesTo (f : Field) : Act → Nat
  | .copy fs => fs.count f
  | _ => 0

/-- What is done with an attribute, if anything is. -/
def MsgSpec.act (spec : MsgSpec) (a : Attr) : Option Act := spec.acts.lookup a.type

/-- An attribute is deciphered. -/
def MsgSpec.Deciphers (spec : MsgSpec) (a : Attr) : Prop :=
  16 < a.len ∧ a.len ≤ ((spec.act a).map Act.capacity).getD 0

instance (spec : MsgSpec) (a : Attr) : Decidable (spec.Deciphers a) :=
  inferInstanceAs (Decidable (_ ∧ _))

/-- `ApEncrSettings` with an attribute deciphered into it, and its octets up to `EncrLen`. -/
def openAttr (C : WscCrypto) (msg : List UInt8) (key : Octets 16) (buffer : Octets 1024)
    (a : Attr) : Octets 1024 × List UInt8 :=
  let v := a.value msg
  let deciphered := aesCbcDecrypt C key (v.take 16) (v.drop 16) buffer
  (deciphered.1, deciphered.1.toList.take deciphered.2.toNat)

section

variable (C : WscCrypto) (spec : MsgSpec) (msg : List UInt8) (key : Octets 16)

/-- The attributes, each with the settings that are deciphered at it. -/
def opened : Octets 1024 → List Attr → List (Attr × Option (List UInt8))
  | _, [] => []
  | buffer, a :: as =>
    if spec.Deciphers a then
      (a, some (openAttr C msg key buffer a).2) :: opened (openAttr C msg key buffer a).1 as
    else (a, none) :: opened buffer as

/-- What an attribute writes to a field. -/
def valuesFor (f : Field) (p : Attr × Option (List UInt8)) : List (List UInt8) :=
  match spec.act p.1, p.2 with
  | some .settings, some plain => settingValues plain f
  | some .m7Settings, some plain => settingValues plain f
  | some act, _ => List.replicate (act.copiesTo f) (p.1.value msg)
  | none, _ => []

/-- What it makes of `WscM7Profile`. -/
def profileAfter (staMode : Bool) (m7 : WscProfile) (p : Attr × Option (List UInt8)) :
    WscProfile :=
  match spec.act p.1, p.2 with
  | some .settings, some plain => settingsProfile plain m7
  | some .m7Settings, some plain =>
    settingsProfile plain (if staMode then WscProfile.zero else m7)
  | _, _ => m7

/-- What it makes of `WscProfile`, -/
def creditedAfter (bCheckMultiByte bEnableWpsV2 : Bool) (prof : WscProfile)
    (p : Attr × Option (List UInt8)) : WscProfile :=
  match spec.act p.1, p.2 with
  | some .credentials, some plain => (credited bCheckMultiByte bEnableWpsV2 plain).1
  | _, _ => prof

/-- and whether the message is given up there. -/
def refuses (bCheckMultiByte bEnableWpsV2 : Bool) (p : Attr × Option (List UInt8)) : Bool :=
  match spec.act p.1, p.2 with
  | some .credentials, some plain => !(credited bCheckMultiByte bEnableWpsV2 plain).2
  | _, _ => false

end

/-- The fields that an action writes to besides: they get numbers, or what is deciphered. -/
def Act.others : Act → List Field
  | .store f _ | .storeBe f => [f]
  | .devicePwdId => [.selfDevPwdId]
  | .scState => [.peerScState]
  | .version2 => [.peerVersion2]
  | .settings | .m7Settings | .credentials => [.apEncrSettings]
  | _ => []

/-- A field that only gets values of attributes. -/
structure MsgSpec.Spares (spec : MsgSpec) (f : Field) : Prop where
  acts : ∀ p ∈ spec.acts, f ∉ p.2.others
  after : ∀ r, spec.after r f = r f

/-! ## 4. An attribute -/

section

variable {C : WscCrypto} {spec : MsgSpec} {msg : List UInt8} {s s' : Reading} {a : Attr}

/-- Settings that are deciphered, or passed over. -/
theorem Reading.storeSettings_of (C : WscCrypto) (msg : List UInt8) (s : Reading) (a : Attr)
    (capacity : Nat) (m7 : WscProfile) :
    (16 < a.len ∧ a.len ≤ capacity → (s.storeSettings C msg a capacity m7) =
      ({ s with
        blk := { s.blk with
          regs := (settingsStored (s.decipher C msg a).2
            { regs := s.deciphered C msg a, m7 := m7 }).regs
          wscM7Profile := settingsProfile (s.decipher C msg a).2 m7 } }, true)) ∧
    (¬ (16 < a.len ∧ a.len ≤ capacity) → s.storeSettings C msg a capacity m7 = (s, false)) := by
  unfold storeSettings
  constructor
  · intro h
    rw [if_neg (by omega)]
    dsimp only
    rw [settingsStored_m7]
  · intro h
    rw [if_pos (by omega)]

/-- The registers with something deciphered. -/
theorem Reading.deciphered_of_ne {f : Field} (h : f ≠ .apEncrSettings) :
    s.deciphered C msg a f = s.blk.regs f := Function.update_of_ne h _ _

/-- What an attribute is paired with. -/
def plainOf (C : WscCrypto) (spec : MsgSpec) (msg : List UInt8) (r : Regs) (a : Attr) :
    Option (List UInt8) :=
  if spec.Deciphers a then some (openAttr C msg (r .keyWrapKey) (r .apEncrSettings) a).2 else none

/-- `ApEncrSettings` behind it. -/
def bufferOf (C : WscCrypto) (spec : MsgSpec) (msg : List UInt8) (r : Regs) (a : Attr) :
    Octets 1024 :=
  if spec.Deciphers a then (openAttr C msg (r .keyWrapKey) (r .apEncrSettings) a).1
  else r .apEncrSettings

/-- Nothing but Encrypted Settings is stored in the buffer. -/
structure MsgSpec.KeepsBuffer (spec : MsgSpec) : Prop where
  acts : ∀ p ∈ spec.acts,
    p.2.copiesTo .apEncrSettings = 0 ∧ (.apEncrSettings ∈ p.2.others → 0 < p.2.capacity)
  after : ∀ r, spec.after r .apEncrSettings = r .apEncrSettings

/-- What an attribute leaves. -/
structure Leaves (C : WscCrypto) (spec : MsgSpec) (msg : List UInt8) (b b' : WscBlock)
    (a : Attr) : Prop where
  regs : ∀ f, spec.Spares f → b'.regs f =
    overwritten (b.regs f) (valuesFor spec msg f (a, plainOf C spec msg b.regs a))
  m7 : b'.wscM7Profile =
    profileAfter spec b.staMode b.wscM7Profile (a, plainOf C spec msg b.regs a)
  profile : b'.wscProfile = creditedAfter spec b.bCheckMultiByte b.bEnableWpsV2 b.wscProfile
    (a, plainOf C spec msg b.regs a)
  buffer : b'.regs .apEncrSettings = bufferOf C spec msg b.regs a
  same : b.Same b'

/-- An attribute is deciphered as its action says. -/
theorem deciphers_iff {act : Act} (hact : spec.act a = some act) :
    spec.Deciphers a ↔ 16 < a.len ∧ a.len ≤ act.capacity := by
  rw [MsgSpec.Deciphers, hact]
  rfl

/-- An action that deciphers nothing. -/
theorem leaves_plain {act : Act} (hact : spec.act a = some act) (hcap : act.capacity = 0)
    (hm7 : s'.blk.wscM7Profile = s.blk.wscM7Profile) (hprof : s'.blk.wscProfile = s.blk.wscProfile)
    (hregs : ∀ f, f ∉ act.others → s'.blk.regs f =
      overwritten (s.blk.regs f) (List.replicate (act.copiesTo f) (a.value msg)))
    (hsame : s.blk.Same s'.blk) (hkeeps : spec.KeepsBuffer) :
    Leaves C spec msg s.blk s'.blk a := by
  obtain ⟨l₁, l₂, hlist, -⟩ := List.lookup_eq_some_iff.1 hact
  have hmem : (a.type, act) ∈ spec.acts := by
    rw [hlist]
    simp
  have hnone : ¬ spec.Deciphers a := by
    rw [deciphers_iff hact, hcap]
    omega
  have hplain : plainOf C spec msg s.blk.regs a = none := if_neg hnone
  obtain ⟨hcopies, hothers⟩ := hkeeps.acts _ hmem
  refine ⟨fun f hf => ?_, ?_, ?_, ?_, hsame⟩
  · rw [hregs f (hf.acts _ hmem), valuesFor, hplain]
    dsimp only
    rw [hact]
    cases act with
    | _ => rfl
  · rw [hm7, profileAfter, hplain]
    dsimp only
    rw [hact]
    cases act with
    | _ => rfl
  · rw [hprof, creditedAfter, hplain]
    dsimp only
    rw [hact]
    cases act with
    | _ => rfl
  · rw [bufferOf, if_neg hnone, hregs _ fun h => absurd (hothers h) (by dsimp only; omega),
      hcopies]
    rfl

/-- An attribute that is passed over. -/
theorem leaves_none {act : Act} (hact : spec.act a = some act) (hnone : ¬ spec.Deciphers a)
    (hcap : 0 < act.capacity) : Leaves C spec msg s.blk s.blk a := by
  have hplain : plainOf C spec msg s.blk.regs a = none := if_neg hnone
  refine ⟨fun f _ => ?_, ?_, ?_, ?_, .refl _⟩
  · rw [valuesFor, hplain]
    dsimp only
    rw [hact]
    cases act with
    | copy fs => exact absurd hcap (Nat.lt_irrefl 0)
    | _ => rfl
  · rw [profileAfter, hplain]
    dsimp only
    rw [hact]
    cases act with
    | _ => rfl
  · rw [creditedAfter, hplain]
    dsimp only
    rw [hact]
    cases act with
    | _ => rfl
  · rw [bufferOf, if_neg hnone]

/-- What is deciphered is not what is spared. -/
theorem ne_apEncrSettings {act : Act} (hact : spec.act a = some act)
    (hothers : act.others = [.apEncrSettings]) {f : Field} (hf : spec.Spares f) :
    f ≠ .apEncrSettings := by
  obtain ⟨l₁, l₂, hlist, -⟩ := List.lookup_eq_some_iff.1 hact
  have hnot := hf.acts (a.type, act) (by rw [hlist]; simp)
  dsimp only at hnot
  rw [hothers] at hnot
  simpa using hnot

/-- Settings, as they are stored. -/
theorem leaves_settings {act : Act} {m7 : WscProfile} (hact : spec.act a = some act)
    (hact' : act = .settings ∧ m7 = s.blk.wscM7Profile ∨
      act = .m7Settings ∧ m7 = if s.blk.staMode then WscProfile.zero else s.blk.wscM7Profile) :
    Leaves C spec msg s.blk (s.storeSettings C msg a act.capacity m7).1.blk a := by
  obtain ⟨hdeciphered, hpassed⟩ := Reading.storeSettings_of C msg s a act.capacity m7
  by_cases hd : spec.Deciphers a
  · have hplain : plainOf C spec msg s.blk.regs a = some (s.decipher C msg a).2 := if_pos hd
    have hothers : act.others = [.apEncrSettings] := by
      rcases hact' with ⟨rfl, -⟩ | ⟨rfl, -⟩
      · rfl
      · rfl
    have hsettings : ∀ f, valuesFor spec msg f (a, plainOf C spec msg s.blk.regs a) =
        settingValues (s.decipher C msg a).2 f := by
      intro f
      rw [valuesFor, hplain]
      dsimp only
      rw [hact]
      rcases hact' with ⟨rfl, -⟩ | ⟨rfl, -⟩
      · rfl
      · rfl
    rw [hdeciphered ((deciphers_iff hact).1 hd)]
    refine ⟨fun f hf => ?_, ?_, ?_, ?_, ⟨rfl, rfl, rfl, rfl, rfl⟩⟩
    · rw [hsettings]
      change (settingsStored _ _).regs f = _
      rw [settingsStored_regs]
      dsimp only
      rw [Reading.deciphered_of_ne (ne_apEncrSettings hact hothers hf)]
    · rw [profileAfter, hplain]
      dsimp only
      rw [hact]
      rcases hact' with ⟨rfl, rfl⟩ | ⟨rfl, rfl⟩
      · rfl
      · rfl
    · rw [creditedAfter, hplain]
      dsimp only
      rw [hact]
      rcases hact' with ⟨rfl, -⟩ | ⟨rfl, -⟩
      · rfl
      · rfl
    · rw [bufferOf, if_pos hd]
      change (settingsStored _ _).regs .apEncrSettings = _
      rw [settingsStored_regs, settingValues_of_notMem (by decide), overwritten_nil]
      exact Function.update_self Field.apEncrSettings _ s.blk.regs
  · rw [hpassed (hd ∘ (deciphers_iff hact).2)]
    refine leaves_none hact hd ?_
    rcases hact' with ⟨rfl, -⟩ | ⟨rfl, -⟩
    · decide
    · decide

/-- Credentials, as they are stored: the message goes on if they are not refused. -/
theorem leaves_credentials (hact : spec.act a = some .credentials) :
    match s.storeCredentials C msg a with
    | .inl (s', _) => Leaves C spec msg s.blk s'.blk a ∧
        refuses spec s.blk.bCheckMultiByte s.blk.bEnableWpsV2
          (a, plainOf C spec msg s.blk.regs a) = false
    | .inr blk => Leaves C spec msg s.blk blk a ∧
        refuses spec s.blk.bCheckMultiByte s.blk.bEnableWpsV2
          (a, plainOf C spec msg s.blk.regs a) = true := by
  have hiff := deciphers_iff hact
  change spec.Deciphers a ↔ 16 < a.len ∧ a.len ≤ 1024 at hiff
  unfold Reading.storeCredentials
  by_cases hd : spec.Deciphers a
  · have hplain : plainOf C spec msg s.blk.regs a = some (s.decipher C msg a).2 := if_pos hd
    have hlen := hiff.1 hd
    have hrefuses : refuses spec s.blk.bCheckMultiByte s.blk.bEnableWpsV2
        (a, plainOf C spec msg s.blk.regs a) =
          !(credited s.blk.bCheckMultiByte s.blk.bEnableWpsV2 (s.decipher C msg a).2).2 := by
      rw [refuses, hplain]
      dsimp only
      rw [hact]
    have hleaves : ∀ b' : WscBlock, b' = { s.blk with
          regs := s.deciphered C msg a
          wscProfile := (credited s.blk.bCheckMultiByte s.blk.bEnableWpsV2 (s.decipher C msg a).2).1 } →
        Leaves C spec msg s.blk b' a := by
      rintro b' rfl
      refine ⟨fun f hf => ?_, ?_, ?_, ?_, ⟨rfl, rfl, rfl, rfl, rfl⟩⟩
      · rw [valuesFor, hplain]
        dsimp only
        rw [hact, Reading.deciphered_of_ne (ne_apEncrSettings hact rfl hf)]
        rfl
      · rw [profileAfter, hplain]
        dsimp only
        rw [hact]
      · rw [creditedAfter, hplain]
        dsimp only
        rw [hact]
      · rw [bufferOf, if_pos hd]
        exact Function.update_self Field.apEncrSettings _ s.blk.regs
    rw [if_neg (by omega), hrefuses]
    dsimp only
    cases htaken : (credited s.blk.bCheckMultiByte s.blk.bEnableWpsV2 (s.decipher C msg a).2).2 with
    | true => exact ⟨hleaves _ rfl, rfl⟩
    | false => exact ⟨hleaves _ rfl, rfl⟩
  · have hlen : ¬ (16 < a.len ∧ a.len ≤ 1024) := fun hlen => hd (hiff.2 hlen)
    rw [if_pos (by omega)]
    refine ⟨leaves_none hact hd (by decide), ?_⟩
    rw [refuses, plainOf, if_neg hd]
    dsimp only
    rw [hact]

/-- What an action leaves, and whether the message is given up. -/
theorem leaves_effect (C : WscCrypto) (msg : List UInt8) (s : Reading) {act : Act}
    (hact : spec.act a = some act) (hkeeps : spec.KeepsBuffer) :
    match s.effect C msg a act with
    | .inl (s', _) => Leaves C spec msg s.blk s'.blk a ∧
        refuses spec s.blk.bCheckMultiByte s.blk.bEnableWpsV2
          (a, plainOf C spec msg s.blk.regs a) = false
    | .inr blk => Leaves C spec msg s.blk blk a ∧
        refuses spec s.blk.bCheckMultiByte s.blk.bEnableWpsV2
          (a, plainOf C spec msg s.blk.regs a) = true := by
  have hput : ∀ {r : Regs} {g f : Field} {l : List UInt8}, f ∉ [g] → r.put g l f = r f :=
    fun hf => Regs.put_of_ne _ _ (by simpa using hf)
  have hgoes : act ≠ .credentials → refuses spec s.blk.bCheckMultiByte s.blk.bEnableWpsV2
      (a, plainOf C spec msg s.blk.regs a) = false := by
    intro hne
    unfold refuses
    dsimp only
    rw [hact]
    cases act with
    | credentials => exact absurd rfl hne
    | _ => rfl
  cases act with
  | tick | peek | compare g | authenticator =>
    exact ⟨leaves_plain hact rfl rfl rfl (fun f _ => rfl) ⟨rfl, rfl, rfl, rfl, rfl⟩ hkeeps,
      hgoes (by simp)⟩
  | store g n | storeBe g | scState =>
    exact ⟨leaves_plain hact rfl rfl rfl (fun f hf => hput hf) ⟨rfl, rfl, rfl, rfl, rfl⟩ hkeeps,
      hgoes (by simp)⟩
  | copy fs =>
    exact ⟨leaves_plain hact rfl rfl rfl (fun f _ => Regs.foldl_put _ f fs _)
      ⟨rfl, rfl, rfl, rfl, rfl⟩ hkeeps, hgoes (by simp)⟩
  | devicePwdId =>
    refine ⟨leaves_plain hact rfl rfl rfl (fun f hf => ?_) ⟨rfl, rfl, rfl, rfl, rfl⟩ hkeeps,
      hgoes (by simp)⟩
    change (if _ then _ else if _ then _ else _ : Regs) f = _
    split
    · exact hput hf
    split
    · exact hput hf
    · rfl
  | version2 =>
    rw [Reading.effect]
    by_cases hv2 : s.blk.bEnableWpsV2
    · rw [if_pos hv2]
      cases subItem msg wfaExtIdVersion2 a.off a.len 0 with
      | none =>
        exact ⟨leaves_plain hact rfl rfl rfl (fun f _ => rfl) (.refl _) hkeeps, hgoes (by simp)⟩
      | some v =>
        exact ⟨leaves_plain hact rfl rfl rfl (fun f hf => hput hf) ⟨rfl, rfl, rfl, rfl, rfl⟩ hkeeps,
          hgoes (by simp)⟩
    · rw [if_neg hv2]
      exact ⟨leaves_plain hact rfl rfl rfl (fun f _ => rfl) (.refl _) hkeeps, hgoes (by simp)⟩
  | settings => exact ⟨leaves_settings hact (.inl ⟨rfl, rfl⟩), hgoes (by simp)⟩
  | m7Settings => exact ⟨leaves_settings hact (.inr ⟨rfl, rfl⟩), hgoes (by simp)⟩
  | credentials => exact leaves_credentials hact

/-- An attribute of no use. -/
theorem leaves_unknown (C : WscCrypto) (msg : List UInt8) (s : Reading)
    (hact : spec.act a = none) : Leaves C spec msg s.blk s.blk a ∧
    refuses spec s.blk.bCheckMultiByte s.blk.bEnableWpsV2
      (a, plainOf C spec msg s.blk.regs a) = false := by
  have hnone : ¬ spec.Deciphers a := by
    rintro ⟨hmin, hmax⟩
    rw [hact] at hmax
    exact absurd hmax (by simp only [Option.map_none, Option.getD_none]; omega)
  refine ⟨⟨fun f _ => ?_, ?_, ?_, ?_, .refl _⟩, ?_⟩
  · unfold valuesFor
    dsimp only
    rw [hact]
    rfl
  · unfold profileAfter
    dsimp only
    rw [hact]
  · unfold creditedAfter
    dsimp only
    rw [hact]
  · rw [bufferOf, if_neg hnone]
  · unfold refuses
    dsimp only
    rw [hact]

/-- **An attribute of a message**: what it leaves, and whether the message is given up. -/
theorem leaves_readEffect (C : WscCrypto) (msg : List UInt8) (s : Reading) (a : Attr)
    (hkeeps : spec.KeepsBuffer) :
    match readEffect C spec msg s a with
    | .inl s' => Leaves C spec msg s.blk s'.blk a ∧
        refuses spec s.blk.bCheckMultiByte s.blk.bEnableWpsV2
          (a, plainOf C spec msg s.blk.regs a) = false
    | .inr blk => Leaves C spec msg s.blk blk a ∧
        refuses spec s.blk.bCheckMultiByte s.blk.bEnableWpsV2
          (a, plainOf C spec msg s.blk.regs a) = true := by
  have htick : ∀ (s' : Reading) (counts : Bool), Leaves C spec msg s.blk s'.blk a →
      Leaves C spec msg s.blk (s'.tick spec a counts).blk a := by
    intro s' counts h
    refine ⟨fun f hf => (hf.after _).trans (h.regs f hf), h.m7, h.profile,
      (hkeeps.after _).trans h.buffer, ?_⟩
    exact ⟨h.same.lastTx, h.same.lastRx, h.same.bCheckMultiByte, h.same.bEnableWpsV2,
      h.same.staMode⟩
  unfold readEffect
  cases hact : spec.acts.lookup a.type with
  | none =>
    have hleaves := leaves_unknown C msg s hact
    exact ⟨htick s false hleaves.1, hleaves.2⟩
  | some act =>
    have hleaves := leaves_effect C msg s hact hkeeps
    dsimp only
    cases heffect : s.effect C msg a act with
    | inl next =>
      rw [heffect] at hleaves
      exact ⟨htick next.1 next.2 hleaves.1, hleaves.2⟩
    | inr blk =>
      rw [heffect] at hleaves
      exact hleaves

end

/-! ## 5. A message -/

/-- A list up to the first that is refused. -/
def untilRefused {α : Type} (refuse : α → Bool) : List α → List α
  | [] => []
  | x :: xs => if refuse x then [x] else x :: untilRefused refuse xs

/-- The attributes that are read of a message, each with what is deciphered at it. -/
def attrsRead (C : WscCrypto) (spec : MsgSpec) (msg : List UInt8) (b : WscBlock)
    (as : List Attr) : List (Attr × Option (List UInt8)) :=
  untilRefused (refuses spec b.bCheckMultiByte b.bEnableWpsV2)
    (opened C spec msg (b.regs .keyWrapKey) (b.regs .apEncrSettings) as)

/-- The block of a message that has been read or given up. -/
def blockOf : Reading ⊕ WscBlock → WscBlock
  | .inl s => s.blk
  | .inr blk => blk

/-- What the attributes of a message leave. -/
structure AllLeave (spec : MsgSpec) (msg : List UInt8) (b b' : WscBlock)
    (ps : List (Attr × Option (List UInt8))) : Prop where
  regs : ∀ f, spec.Spares f →
    b'.regs f = overwritten (b.regs f) (ps.flatMap (valuesFor spec msg f))
  m7 : b'.wscM7Profile = ps.foldl (profileAfter spec b.staMode) b.wscM7Profile
  profile : b'.wscProfile =
    ps.foldl (creditedAfter spec b.bCheckMultiByte b.bEnableWpsV2) b.wscProfile
  same : b.Same b'

/-- **What reading leaves**: every field with the values that have come for it. -/
theorem walk_leaves {C : WscCrypto} {spec : MsgSpec} {msg : List UInt8} (hkeeps : spec.KeepsBuffer)
    (hkey : spec.Spares .keyWrapKey ∧
      ∀ p : Attr × Option (List UInt8), valuesFor spec msg .keyWrapKey p = []) :
    ∀ (as : List Attr) (s : Reading),
      AllLeave spec msg s.blk (blockOf (Tlv.walk (readEffect C spec msg) s as))
          (attrsRead C spec msg s.blk as) ∧
        ((∃ blk, Tlv.walk (readEffect C spec msg) s as = .inr blk) ↔
          (attrsRead C spec msg s.blk as).any
            (refuses spec s.blk.bCheckMultiByte s.blk.bEnableWpsV2) = true) := by
  intro as
  induction as with
  | nil =>
    intro s
    refine ⟨⟨fun f _ => rfl, rfl, rfl, .refl _⟩, ?_⟩
    constructor
    · rintro ⟨blk, hblk⟩
      exact nomatch hblk
    · intro h
      exact nomatch h
  | cons a as ih =>
    intro s
    have hstep := leaves_readEffect C msg s a hkeeps
    have hopened : opened C spec msg (s.blk.regs .keyWrapKey) (s.blk.regs .apEncrSettings) (a :: as) =
        (a, plainOf C spec msg s.blk.regs a) ::
          opened C spec msg (s.blk.regs .keyWrapKey) (bufferOf C spec msg s.blk.regs a) as := by
      rw [opened, plainOf, bufferOf]
      split
      · rfl
      · rfl
    rw [Tlv.walk]
    unfold attrsRead at ih ⊢
    rw [hopened, untilRefused]
    cases hnext : readEffect C spec msg s a with
    | inl s₁ =>
      rw [hnext] at hstep
      obtain ⟨hleaves, hgoes⟩ := hstep
      obtain ⟨hall, hgives⟩ := ih s₁
      have hkeep : s₁.blk.regs .keyWrapKey = s.blk.regs .keyWrapKey := by
        rw [hleaves.regs _ hkey.1, hkey.2, overwritten_nil]
      rw [hkeep, hleaves.buffer, hleaves.same.bCheckMultiByte, hleaves.same.bEnableWpsV2]
        at hall hgives
      rw [hgoes, if_neg Bool.false_ne_true]
      refine ⟨⟨fun f hf => ?_, ?_, ?_, hleaves.same.trans hall.same⟩, ?_⟩
      · rw [List.flatMap_cons, overwritten_append, ← hleaves.regs f hf]
        exact hall.regs f hf
      · rw [List.foldl_cons, ← hleaves.m7, ← hleaves.same.staMode]
        exact hall.m7
      · rw [List.foldl_cons, ← hleaves.profile]
        have hprof := hall.profile
        rw [hleaves.same.bCheckMultiByte, hleaves.same.bEnableWpsV2] at hprof
        exact hprof
      · rw [List.any_cons, hgoes, Bool.false_or]
        exact hgives
    | inr blk =>
      rw [hnext] at hstep
      obtain ⟨hleaves, hrefused⟩ := hstep
      rw [hrefused, if_pos rfl]
      refine ⟨⟨fun f hf => ?_, ?_, ?_, hleaves.same⟩, ?_⟩
      · rw [List.flatMap_cons, List.flatMap_nil, List.append_nil]
        exact hleaves.regs f hf
      · exact hleaves.m7
      · exact hleaves.profile
      · rw [List.any_cons, hrefused, Bool.true_or]
        exact ⟨fun _ => rfl, fun _ => ⟨blk, rfl⟩⟩

/-! ## 6. The authenticator and the attributes that are ticked off -/

/-- `Hmac` behind a value. -/
def Act.mac (hmac value : List UInt8) : Act → List UInt8
  | .authenticator => Mem.write hmac 0 value
  | _ => hmac

/-- `Hmac` behind an attribute. -/
def macAfter (spec : MsgSpec) (msg : List UInt8) (hmac : List UInt8) (a : Attr) : List UInt8 :=
  ((spec.act a).map (Act.mac hmac (a.value msg))).getD hmac

/-- `Hmac`, as a message leaves it. -/
def macOf (spec : MsgSpec) (msg : List UInt8) : List UInt8 :=
  (attrsOf msg).foldl (macAfter spec msg) (List.replicate 8 0xff)

/-- An attribute counts, Encrypted Settings only if they are deciphered. -/
def ticks (spec : MsgSpec) (a : Attr) : Bool :=
  match spec.act a with
  | none => false
  | some act => act.capacity = 0 ∨ spec.Deciphers a

/-- Every attribute that a message must have comes an odd number of times. -/
def Complete (spec : MsgSpec) (msg : List UInt8) : Prop :=
  ∀ type ∈ spec.required,
    (attrsOf msg).countP (fun a => a.type = type ∧ ticks spec a) % 2 = 1

section

variable {C : WscCrypto} {spec : MsgSpec} {msg : List UInt8} {s s' : Reading} {a : Attr}

theorem effect_ticks {act : Act} {counts : Bool} (hact : spec.act a = some act)
    (h : s.effect C msg a act = .inl (s', counts)) :
    counts = ticks spec a ∧ s'.check = s.check ∧ s'.hmac = macAfter spec msg s.hmac a := by
  have hmac : macAfter spec msg s.hmac a = act.mac s.hmac (a.value msg) := by
    unfold macAfter
    rw [hact]
    rfl
  have hticks : ticks spec a = decide (act.capacity = 0 ∨ spec.Deciphers a) := by
    unfold ticks
    rw [hact]
  have hstore : ∀ {m7 : WscProfile}, 0 < act.capacity →
      s.storeSettings C msg a act.capacity m7 = (s', counts) →
      counts = decide (act.capacity = 0 ∨ spec.Deciphers a) ∧ s'.check = s.check ∧
        s'.hmac = s.hmac := by
    intro m7 hcap hpair
    obtain ⟨hdeciphered, hpassed⟩ := Reading.storeSettings_of C msg s a act.capacity m7
    by_cases hd : spec.Deciphers a
    · rw [hdeciphered ((deciphers_iff hact).1 hd)] at hpair
      cases hpair
      exact ⟨(decide_eq_true (.inr hd)).symm, rfl, rfl⟩
    · rw [hpassed (hd ∘ (deciphers_iff hact).2)] at hpair
      cases hpair
      exact ⟨(decide_eq_false fun h0 => h0.elim (Nat.ne_of_gt hcap) hd).symm, rfl, rfl⟩
  rw [hmac, hticks]
  cases act with
  | tick | peek | compare g | store g n | storeBe g | copy fs | devicePwdId | scState
  | authenticator =>
    cases h
    exact ⟨rfl, rfl, rfl⟩
  | version2 =>
    rw [Reading.effect] at h
    split at h
    · split at h
      · cases h
        exact ⟨rfl, rfl, rfl⟩
      · cases h
        exact ⟨rfl, rfl, rfl⟩
    · cases h
      exact ⟨rfl, rfl, rfl⟩
  | settings | m7Settings => exact hstore (by decide) (Sum.inl.inj h)
  | credentials =>
    have hiff := deciphers_iff hact
    rw [Reading.effect, Reading.storeCredentials] at h
    split at h
    · rename_i hlen
      cases h
      have hd : ¬ spec.Deciphers a := by
        rw [hiff]
        change ¬ (16 < a.len ∧ a.len ≤ 1024)
        omega
      exact ⟨(decide_eq_false fun h0 => h0.elim (by decide) hd).symm, rfl, rfl⟩
    · rename_i hlen
      have hd : spec.Deciphers a := by
        rw [hiff]
        change 16 < a.len ∧ a.len ≤ 1024
        omega
      dsimp only at h
      split at h
      · cases h
        exact ⟨(decide_eq_true (.inr hd)).symm, rfl, rfl⟩
      · cases h

/-- What is ticked off behind an attribute. -/
def checkAfter (spec : MsgSpec) (check : Nat → Bool) (a : Attr) : Nat → Bool :=
  if ticks spec a ∧ a.type ∈ spec.required then Function.update check a.type (!check a.type)
  else check

theorem readEffect_ticks (h : readEffect C spec msg s a = .inl s') :
    s'.check = checkAfter spec s.check a ∧ s'.hmac = macAfter spec msg s.hmac a := by
  unfold readEffect at h
  cases hact : spec.acts.lookup a.type with
  | none =>
    rw [hact] at h
    cases h
    have hact' : spec.act a = none := hact
    constructor
    · rw [checkAfter, ticks, hact']
      rfl
    · rw [macAfter, hact']
      rfl
  | some act =>
    rw [hact] at h
    dsimp only at h
    cases heffect : s.effect C msg a act with
    | inl next =>
      obtain ⟨s₁, counts⟩ := next
      rw [heffect] at h
      cases h
      obtain ⟨rfl, hcheck, hhmac⟩ := effect_ticks hact heffect
      refine ⟨?_, hhmac⟩
      rw [checkAfter, ← hcheck]
      rfl
    | inr blk =>
      rw [heffect] at h
      exact nomatch h

/-- Ticked off an odd number of times is ticked off. -/
theorem foldl_checkAfter {type : Nat} (htype : type ∈ spec.required) (as : List Attr)
    (check : Nat → Bool) :
    as.foldl (checkAfter spec) check type =
      (check type ^^ decide (as.countP (fun a => a.type = type ∧ ticks spec a) % 2 = 1)) := by
  induction as generalizing check with
  | nil => simp
  | cons a as ih =>
    rw [List.foldl_cons, ih, List.countP_cons, checkAfter]
    by_cases ht : a.type = type ∧ ticks spec a = true
    · have hreq : a.type ∈ spec.required := ht.1 ▸ htype
      rw [if_pos ⟨ht.2, hreq⟩, if_pos (by simpa using ht), ht.1, Function.update_self]
      rcases Nat.mod_two_eq_zero_or_one
        (as.countP fun a => decide (a.type = type ∧ ticks spec a = true)) with h | h
      · rw [Nat.add_mod, h]
        cases check type with
        | _ => rfl
      · rw [Nat.add_mod, h]
        cases check type with
        | _ => rfl
    · have hcount : (if decide (a.type = type ∧ ticks spec a = true) = true then 1 else 0) = 0 :=
        if_neg (by simpa using ht)
      rw [hcount, Nat.add_zero]
      split
      · rename_i hreq
        rw [Function.update_of_ne fun h => ht ⟨h.symm, hreq.1⟩]
      · rfl

/-- **What is missing** in the end. -/
theorem wants_eq {b : WscBlock} (hfits : MessageFits C spec b)
    (h : messageStored C spec b = .inl s) :
    s.wants spec = false ↔ Complete spec b.lastRx := by
  have hcheck : s.check = (attrsOf b.lastRx).foldl (checkAfter spec) (Reading.start spec b).check :=
    Tlv.walk_foldl (v := Reading.check) (fun _ _ _ _ _ hnext => (readEffect_ticks hnext).1) hfits h
  unfold Reading.wants Complete
  rw [List.any_eq_false]
  refine forall₂_congr fun type htype => ?_
  rw [hcheck, foldl_checkAfter htype]
  change ¬ ((decide (type ∈ spec.required) ^^ _) = true) ↔ _
  rw [decide_eq_true htype]
  simp

theorem hmac_eq {b : WscBlock} (hfits : MessageFits C spec b)
    (h : messageStored C spec b = .inl s) : s.hmac = macOf spec b.lastRx :=
  Tlv.walk_foldl (v := Reading.hmac) (fun _ _ _ _ _ hnext => (readEffect_ticks hnext).2) hfits h

end

end Mt7601.Wsc
