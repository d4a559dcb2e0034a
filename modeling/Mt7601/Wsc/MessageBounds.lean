/-
# Where the messages are read and what is written of them

When a message M1 to M8 is read without leaving it, and without writing behind the field that an
attribute is stored in (`processMessage_safe_iff`).

None of the handlers compares a length with anything but that of Encrypted Settings, so that the
condition is one on the message: every attribute that the loop comes to must fit. It is stated field
by field (`settingBound`, `credentialBound`, `Act.Bound`), along what the attributes in front of it
have been stored as.
-/
import Mt7601.Wsc.ProcessMessage

namespace Mt7601.Wsc

open Checked (Safe access sub safe_bind safe_access)
open Tlv (Attr)

/-! ## 1. Names and keys -/

theorem access_bind_safe {α : Type} {size off n : Nat} {f : Unit → Checked α} :
    Safe (access size off n >>= f) ↔ off + n ≤ size ∧ Safe (f ()) := by
  rw [safe_bind]
  constructor
  · rintro ⟨u, hu, h⟩
    exact ⟨safe_access.1 ⟨u, hu⟩, h⟩
  · rintro ⟨h, hf⟩
    exact ⟨(), Checked.access_ok h, hf⟩

/-- The octets up to a zero are there. -/
def SsidInside (l : List UInt8) (n : Nat) : Prop := n ≤ l.length ∨ 0 ∈ l

theorem ssidIdx_safe : ∀ {l : List UInt8} {n : Nat}, Safe (ssidIdx l n) ↔ SsidInside l n
  | l, 0 => by
    rw [ssidIdx]
    exact ⟨fun _ => .inl (Nat.zero_le _), fun _ => Checked.safe_ok _⟩
  | [], n + 1 => by
    refine ⟨fun h => absurd h (Checked.not_safe_error _), ?_⟩
    rintro (h | h)
    · exact absurd h (Nat.not_succ_le_zero n)
    · exact nomatch h
  | b :: l, n + 1 => by
    rw [ssidIdx]
    split
    · rename_i hb
      subst hb
      exact ⟨fun _ => .inr List.mem_cons_self, fun _ => Checked.safe_ok _⟩
    · rename_i hb
      have ih := ssidIdx_safe (l := l) (n := n)
      rw [safe_bind]
      constructor
      · rintro ⟨idx, hidx, -⟩
        rcases ih.1 ⟨idx, hidx⟩ with h | h
        · exact .inl (Nat.succ_le_succ h)
        · exact .inr (List.mem_cons_of_mem _ h)
      · intro h
        have hl : SsidInside l n := by
          rcases h with h | h
          · exact .inl (Nat.le_of_succ_le_succ h)
          · exact .inr ((List.mem_cons.1 h).resolve_left (Ne.symm hb))
        obtain ⟨idx, hidx⟩ := ih.2 hl
        exact ⟨idx, hidx, Checked.safe_ok _⟩

theorem ssidIdx_eq : ∀ {l : List UInt8} {n idx : Nat}, ssidIdx l n = .ok idx →
    idx = (ssidOf l n).length
  | l, 0, idx, h => by
    rw [ssidIdx] at h
    cases h
    simp [ssidOf]
  | [], n + 1, idx, h => nomatch h
  | b :: l, n + 1, idx, h => by
    rw [ssidIdx] at h
    split at h
    · rename_i hb
      cases h
      simp [ssidOf, hb]
    · rename_i hb
      cases hl : ssidIdx l n with
      | error e =>
        rw [hl] at h
        exact nomatch h
      | ok idx' =>
        rw [hl] at h
        cases h
        have ih := ssidIdx_eq hl
        simpa [ssidOf, hb] using ih

/-- The octets of a name that are counted are there. -/
theorem length_ssidOf_le (l : List UInt8) (n : Nat) : (ssidOf l n).length ≤ l.length :=
  (List.takeWhile_sublist _).length_le.trans (List.length_take_le' n l)

/-- The octets up to one that is not printable are there. -/
def PrintableInside (l : List UInt8) (n : Nat) : Prop :=
  n ≤ l.length ∨ l.all printAble = false

theorem rtmpCheckStrPrintAble_safe : ∀ {l : List UInt8} {n : Nat},
    Safe (rtmpCheckStrPrintAble l n) ↔ PrintableInside l n
  | l, 0 => by
    rw [rtmpCheckStrPrintAble]
    exact ⟨fun _ => .inl (Nat.zero_le _), fun _ => Checked.safe_ok _⟩
  | [], n + 1 => by
    refine ⟨fun h => absurd h (Checked.not_safe_error _), ?_⟩
    rintro (h | h)
    · exact absurd h (Nat.not_succ_le_zero n)
    · exact nomatch h
  | b :: l, n + 1 => by
    rw [rtmpCheckStrPrintAble]
    split
    · rename_i hb
      rw [rtmpCheckStrPrintAble_safe]
      unfold PrintableInside
      rw [List.all_cons, hb, Bool.true_and, List.length_cons, Nat.succ_le_succ_iff]
    · rename_i hb
      refine ⟨fun _ => .inr ?_, fun _ => Checked.safe_ok _⟩
      rw [List.all_cons, Bool.eq_false_iff.2 hb, Bool.false_and]

theorem rtmpCheckStrPrintAble_eq : ∀ {l : List UInt8} {n : Nat} {r : Bool},
    rtmpCheckStrPrintAble l n = .ok r → r = (l.take n).all printAble
  | l, 0, r, h => by
    rw [rtmpCheckStrPrintAble] at h
    cases h
    rfl
  | [], n + 1, r, h => nomatch h
  | b :: l, n + 1, r, h => by
    rw [rtmpCheckStrPrintAble] at h
    rw [List.take_succ_cons, List.all_cons]
    split at h
    · rename_i hb
      rw [hb, Bool.true_and]
      exact rtmpCheckStrPrintAble_eq h
    · rename_i hb
      cases h
      rw [Bool.eq_false_iff.2 hb, Bool.false_and]

/-! ## 2. Settings -/

/-- An attribute of the settings that fits. -/
def settingBound (data : List UInt8) (a : Attr) : Prop :=
  match settingField a.type with
  | some f => a.Inside data ∧ a.len ≤ f.size
  | none =>
    if a.type = wscIdKeyWrapAuth then a.Inside data ∧ a.len ≤ 8
    else if a.type = wscIdSsid then
      SsidInside (data.drop a.off) a.len ∧ (ssidOf (data.drop a.off) a.len).length ≤ 32
    else if a.type = wscIdMacAddr then a.Has data 6
    else if a.type = wscIdAuthType ∨ a.type = wscIdEncrType then a.Has data 2
    else if a.type = wscIdNwKeyIndex then a.Has data 1
    else if a.type = wscIdNwKey ∧ a.len ≠ 0 then a.Inside data ∧ a.len ≤ 64
    else True

/-- A copy of the value into so many octets. -/
theorem copy_safe {data : List UInt8} {a : Attr} {size : Nat} :
    Safe (access data.length a.off a.len >>= fun _ => access size 0 a.len) ↔
      a.Inside data ∧ a.len ≤ size := by
  rw [access_bind_safe, safe_access, Nat.zero_add]
  rfl

/-- A name is read, and something is done with its length. -/
theorem ssidIdx_bind_safe {α : Type} {l : List UInt8} {n : Nat} {f : Nat → Checked α} :
    Safe (ssidIdx l n >>= f) ↔ SsidInside l n ∧ Safe (f (ssidOf l n).length) := by
  rw [safe_bind]
  constructor
  · rintro ⟨idx, hidx, h⟩
    rw [ssidIdx_eq hidx] at h
    exact ⟨ssidIdx_safe.1 ⟨idx, hidx⟩, h⟩
  · rintro ⟨hin, h⟩
    obtain ⟨idx, hidx⟩ := ssidIdx_safe.2 hin
    refine ⟨idx, hidx, ?_⟩
    rw [ssidIdx_eq hidx]
    exact h

theorem settingReads_safe {data : List UInt8} {a : Attr} :
    Safe (settingReads data a) ↔ settingBound data a := by
  unfold settingReads settingBound
  cases settingField a.type with
  | some f => exact copy_safe
  | none =>
    dsimp only
    split
    · exact copy_safe
    split
    · rw [ssidIdx_bind_safe, safe_access, Nat.zero_add]
    split
    · exact safe_access
    split
    · exact safe_access
    split
    · exact safe_access
    split
    · exact copy_safe
    · exact ⟨fun _ => trivial, fun _ => Checked.safe_ok _⟩

/-- A switch that reads and then writes is one with a bound and an effect. -/
theorem bounded_of_reads {σ ρ : Type} {reads : σ → Attr → Checked Unit}
    {bound : σ → Attr → Prop} {stores : σ → Attr → σ ⊕ ρ}
    (h : ∀ s a, Safe (reads s a) ↔ bound s a) :
    Tlv.Bounded (fun s a => reads s a >>= fun _ => .ok (stores s a)) bound stores := by
  refine ⟨fun s a => Checked.safe_map.trans (h s a), fun {s a r} hr => ?_⟩
  · cases hreads : reads s a with
    | error e =>
      rw [hreads] at hr
      exact nomatch hr
    | ok u =>
      rw [hreads] at hr
      cases hr
      rfl

theorem settingAttr_bounded (data : List UInt8) :
    Tlv.Bounded (settingAttr data) (fun _ a => settingBound data a)
      (fun s a => .inl (settingStores data s a)) :=
  bounded_of_reads fun _ _ => settingReads_safe

/-- The attributes of settings. -/
abbrev settingsOf (plain : List UInt8) : List Attr := Tlv.attrs (·.len) plain 0

/-- Settings that fit. -/
def SettingsBound (plain : List UInt8) : Prop :=
  (∀ a ∈ settingsOf plain, settingBound plain a) ∧ 12 ≤ plain.length

/-- What they are stored as. -/
def settingsStored (plain : List UInt8) (s : Settings) : Settings :=
  (settingsOf plain).foldl (settingStores plain) s

theorem walk_settings (plain : List UInt8) (s : Settings) (as : List Attr) :
    Tlv.walk (fun s a => (.inl (settingStores plain s a) : Settings ⊕ Empty)) s as =
      .inl (as.foldl (settingStores plain) s) := by
  induction as generalizing s with
  | nil => rfl
  | cons a as ih => exact ih (settingStores plain s a)

theorem wscParseEncrSettings_safe {plain : List UInt8} {s : Settings} :
    Safe (wscParseEncrSettings plain s) ↔ SettingsBound plain := by
  have hrun : Safe (Tlv.run (settingAttr plain) s (settingsOf plain)) ↔
      ∀ a ∈ settingsOf plain, settingBound plain a :=
    (settingAttr_bounded plain).safe_run.trans
      (Tlv.fits_iff_forall (fun s a => ⟨settingStores plain s a, rfl⟩) fun _ _ => Iff.rfl)
  unfold wscParseEncrSettings SettingsBound
  rw [Tlv.loop_eq_run, safe_bind, ← hrun]
  constructor
  · rintro ⟨r | r, hr, h⟩
    · obtain ⟨n, hn, -⟩ := safe_bind.1 h
      exact ⟨⟨_, hr⟩, Checked.safe_sub.1 ⟨n, hn⟩⟩
    · exact nomatch r
  · rintro ⟨⟨r, hr⟩, hlen⟩
    refine ⟨r, hr, ?_⟩
    rcases r with r | r
    · exact safe_bind.2 ⟨_, Checked.sub_ok hlen, Checked.safe_ok _⟩
    · exact nomatch r

theorem wscParseEncrSettings_eq {plain : List UInt8} {s s' : Settings}
    (h : wscParseEncrSettings plain s = .ok s') : s' = settingsStored plain s := by
  unfold wscParseEncrSettings at h
  rw [Tlv.loop_eq_run] at h
  cases hr : Tlv.run (settingAttr plain) s (settingsOf plain) with
  | error e =>
    rw [hr] at h
    exact nomatch h
  | ok r =>
    have hwalk := (settingAttr_bounded plain).run_eq hr
    rw [walk_settings] at hwalk
    rw [hr, hwalk] at h
    exact (Except.ok.inj (Checked.sub_bind_eq_ok.1 h).2).symm

/-! ## 3. Credentials -/

/-- An attribute of the credentials that fits. The current profile is one of the eight. -/
def credentialBound (bCheckMultiByte : Bool) (data : List UInt8) (s : Crediting) (a : Attr) : Prop :=
  if a.type = wscIdSsid then
    SsidInside (data.drop a.off) a.len ∧ s.currentIdx < 8 ∧
      (takes bCheckMultiByte data a (ssidOf (data.drop a.off) a.len).length →
        (ssidOf (data.drop a.off) a.len).length ≤ 32)
  else if a.type = wscIdAuthType ∨ a.type = wscIdEncrType then a.Has data 2 ∧ s.currentIdx < 8
  else if a.type = wscIdNwKeyIndex then a.Has data 1 ∧ s.currentIdx < 8
  else if a.type = wscIdNwKey ∧ a.len ≠ 0 then
    PrintableInside (data.drop a.off) (a.len % 256) ∧
      (takes bCheckMultiByte data a a.len → s.currentIdx < 8 ∧ a.Inside data ∧ a.len ≤ 64)
  else if a.type = wscIdMacAddr then a.Has data 6 ∧ s.currentIdx < 8
  else True

/-- What is printable is looked at, and something is done if it is taken. -/
theorem printable_bind_safe {bCheckMultiByte : Bool} {data : List UInt8} {a : Attr} {n : Nat}
    {x : Checked Unit} :
    Safe (rtmpCheckStrPrintAble (data.drop a.off) (n % 256) >>= fun printable =>
        if printable ∨ bCheckMultiByte = false then x else .ok ()) ↔
      PrintableInside (data.drop a.off) (n % 256) ∧
        (takes bCheckMultiByte data a n → Safe x) := by
  have hcond : ∀ printable, printable = ((data.drop a.off).take (n % 256)).all printAble →
      ((printable = true ∨ bCheckMultiByte = false) ↔ takes bCheckMultiByte data a n = true) := by
    intro printable hp
    rw [takes, ← hp, Bool.or_eq_true, Bool.not_eq_true']
  rw [safe_bind]
  constructor
  · rintro ⟨printable, hp, h⟩
    refine ⟨rtmpCheckStrPrintAble_safe.1 ⟨_, hp⟩, fun htakes => ?_⟩
    rw [if_pos ((hcond printable (rtmpCheckStrPrintAble_eq hp)).2 htakes)] at h
    exact h
  · rintro ⟨hin, h⟩
    obtain ⟨printable, hp⟩ := rtmpCheckStrPrintAble_safe.2 hin
    refine ⟨printable, hp, ?_⟩
    split
    · rename_i htakes
      exact h ((hcond printable (rtmpCheckStrPrintAble_eq hp)).1 htakes)
    · exact Checked.safe_ok _

theorem credentialReads_safe {bCheckMultiByte : Bool} {data : List UInt8} {s : Crediting}
    {a : Attr} :
    Safe (credentialReads bCheckMultiByte data s a) ↔ credentialBound bCheckMultiByte data s a := by
  have hnamed : PrintableInside (data.drop a.off)
      ((ssidOf (data.drop a.off) a.len).length % 256) :=
    .inl ((Nat.mod_le _ _).trans (length_ssidOf_le _ _))
  unfold credentialReads credentialBound
  split
  · rw [ssidIdx_bind_safe, access_bind_safe, printable_bind_safe, safe_access, Nat.zero_add]
    exact and_congr_right fun _ => and_congr_right fun _ => and_iff_right hnamed
  split
  · rw [access_bind_safe, safe_access]
    exact Iff.rfl
  split
  · rw [access_bind_safe, safe_access]
    exact Iff.rfl
  split
  · rw [printable_bind_safe, access_bind_safe, copy_safe]
    exact Iff.rfl
  split
  · rw [access_bind_safe, safe_access]
    exact Iff.rfl
  · exact ⟨fun _ => trivial, fun _ => Checked.safe_ok _⟩

theorem credentialAttr_bounded (bCheckMultiByte : Bool) (plain : List UInt8) :
    Tlv.Bounded (credentialAttr bCheckMultiByte plain) (credentialBound bCheckMultiByte plain)
      (credentialStores bCheckMultiByte plain) :=
  bounded_of_reads fun _ _ => credentialReads_safe

/-- One of the first profiles is a WEP one. -/
def HasWep (prof : WscProfile) (n : Nat) : Prop :=
  ∃ i : Fin 8, i.val < n ∧ (prof.profile i).encrType = wscEncrTypeWep

instance (prof : WscProfile) (n : Nat) : Decidable (HasWep prof n) :=
  inferInstanceAs (Decidable (∃ i : Fin 8, i.val < n ∧ _))

/-- The loop over the profiles. -/
theorem rejectsWep_spec {prof : WscProfile} : ∀ {n idx : Nat},
    (∀ i : Fin 8, i.val < idx → (prof.profile i).encrType ≠ wscEncrTypeWep) →
    (Safe (rejectsWep prof n idx) ↔ n + idx ≤ 8 ∨ n = 0 ∨ HasWep prof (n + idx)) ∧
      ∀ r, rejectsWep prof n idx = .ok r → r = decide (HasWep prof (n + idx))
  | 0, idx, hbefore => by
    have hnone : ¬ HasWep prof (0 + idx) := by
      rintro ⟨i, hi, hwep⟩
      exact hbefore i (by omega) hwep
    rw [rejectsWep]
    refine ⟨⟨fun _ => .inr (.inl rfl), fun _ => Checked.safe_ok _⟩, fun r hr => ?_⟩
    cases hr
    rw [decide_eq_false hnone]
  | n + 1, idx, hbefore => by
    rw [rejectsWep]
    split
    · rename_i hidx
      split
      · rename_i hwep
        have hhas : HasWep prof (n + 1 + idx) := ⟨⟨idx, hidx⟩, by dsimp only; omega, hwep⟩
        refine ⟨⟨fun _ => .inr (.inr hhas), fun _ => Checked.safe_ok _⟩, fun r hr => ?_⟩
        cases hr
        rw [decide_eq_true hhas]
      · rename_i hwep
        have hnext : ∀ i : Fin 8, i.val < idx + 1 → (prof.profile i).encrType ≠ wscEncrTypeWep := by
          intro i hi
          rcases Nat.lt_succ_iff_lt_or_eq.1 hi with h | h
          · exact hbefore i h
          · have hi' : i = ⟨idx, hidx⟩ := Fin.ext h
            rw [hi']
            exact hwep
        obtain ⟨hsafe, heq⟩ := rejectsWep_spec (n := n) hnext
        have hadd : n + (idx + 1) = n + 1 + idx := by omega
        rw [hadd] at hsafe heq
        refine ⟨hsafe.trans ?_, heq⟩
        constructor
        · rintro (h | h | h)
          · exact .inl h
          · exact .inl (by omega)
          · exact .inr (.inr h)
        · rintro (h | h | h)
          · exact .inl h
          · exact absurd h (Nat.succ_ne_zero n)
          · exact .inr (.inr h)
    · rename_i hidx
      refine ⟨⟨fun h => absurd h (Checked.not_safe_error _), ?_⟩, fun r hr => (nomatch hr)⟩
      rintro (h | h | ⟨i, -, hwep⟩)
      · omega
      · exact absurd h (Nat.succ_ne_zero n)
      · exact absurd hwep (hbefore i (by omega))

/-- The attributes of credentials, those of a Credential among them. -/
abbrev credentialsOf (plain : List UInt8) : List Attr := Tlv.attrs credentialSkip plain 0

/-- What the attributes of credentials come to. -/
def creditedOf (bCheckMultiByte : Bool) (plain : List UInt8) : Crediting ⊕ WscProfile :=
  Tlv.walk (credentialStores bCheckMultiByte plain)
    { prof := WscProfile.zero, cnt := 0, currentIdx := 0 } (credentialsOf plain)

/-- Credentials that fit, and no more than there are profiles where they are looked through. -/
def CredentialsBound (bCheckMultiByte bEnableWpsV2 : Bool) (plain : List UInt8) : Prop :=
  Tlv.Fits (credentialStores bCheckMultiByte plain) (credentialBound bCheckMultiByte plain)
      { prof := WscProfile.zero, cnt := 0, currentIdx := 0 } (credentialsOf plain) ∧
    ∀ s, creditedOf bCheckMultiByte plain = .inl s → bEnableWpsV2 →
      s.cnt ≤ 8 ∨ HasWep s.prof s.cnt

/-- What they are stored as, and whether they are taken. -/
def credited (bCheckMultiByte bEnableWpsV2 : Bool) (plain : List UInt8) : WscProfile × Bool :=
  match creditedOf bCheckMultiByte plain with
  | .inl s =>
    if bEnableWpsV2 ∧ HasWep s.prof s.cnt then (WscProfile.zero, false)
    else ({ s.prof with profileCnt := s.cnt }, true)
  | .inr prof => (prof, false)

theorem wscProcessCredential_safe {bCheckMultiByte bEnableWpsV2 : Bool} {plain : List UInt8} :
    Safe (wscProcessCredential bCheckMultiByte bEnableWpsV2 plain) ↔
      CredentialsBound bCheckMultiByte bEnableWpsV2 plain := by
  have hbounded := credentialAttr_bounded bCheckMultiByte plain
  unfold wscProcessCredential CredentialsBound
  rw [Tlv.loop_eq_run, safe_bind, ← hbounded.safe_run]
  have hwep (s : Crediting) : Safe (rejectsWep { s.prof with profileCnt := s.cnt } s.cnt 0) ↔
      s.cnt ≤ 8 ∨ HasWep s.prof s.cnt := by
    refine (rejectsWep_spec fun i hi => absurd hi (Nat.not_lt_zero _)).1.trans ?_
    constructor
    · rintro (h | h | h)
      · exact .inl h
      · exact .inl (by omega)
      · exact .inr h
    · rintro (h | h)
      · exact .inl h
      · exact .inr (.inr h)
  constructor
  · rintro ⟨r, hr, h⟩
    refine ⟨⟨r, hr⟩, fun s hs hv2 => ?_⟩
    have hwalk := hbounded.run_eq hr
    rw [creditedOf] at hs
    rw [hs] at hwalk
    subst hwalk
    dsimp only at h
    rw [if_pos hv2] at h
    obtain ⟨rejects, hrejects, -⟩ := safe_bind.1 h
    exact (hwep s).1 ⟨rejects, hrejects⟩
  · rintro ⟨⟨r, hr⟩, h⟩
    refine ⟨r, hr, ?_⟩
    have hwalk := hbounded.run_eq hr
    cases r with
    | inr prof => exact Checked.safe_ok _
    | inl s =>
      dsimp only
      split
      · rename_i hv2
        obtain ⟨rejects, hrejects⟩ := (hwep s).2 (h s hwalk.symm hv2)
        refine safe_bind.2 ⟨rejects, hrejects, ?_⟩
        split
        · exact Checked.safe_ok _
        · exact Checked.safe_ok _
      · exact Checked.safe_ok _

theorem wscProcessCredential_eq {bCheckMultiByte bEnableWpsV2 : Bool} {plain : List UInt8}
    {r : WscProfile × Bool} (h : wscProcessCredential bCheckMultiByte bEnableWpsV2 plain = .ok r) :
    r = credited bCheckMultiByte bEnableWpsV2 plain := by
  unfold wscProcessCredential at h
  rw [Tlv.loop_eq_run] at h
  cases hr : Tlv.run (credentialAttr bCheckMultiByte plain)
      { prof := WscProfile.zero, cnt := 0, currentIdx := 0 } (credentialsOf plain) with
  | error e =>
    rw [hr] at h
    exact nomatch h
  | ok next =>
    have hwalk := (credentialAttr_bounded bCheckMultiByte plain).run_eq hr
    rw [hr, Checked.ok_bind] at h
    unfold credited creditedOf
    rw [← hwalk]
    cases next with
    | inr prof => exact (Except.ok.inj h).symm
    | inl s =>
      dsimp only at h ⊢
      split at h
      · rename_i hv2
        cases hrejects : rejectsWep { s.prof with profileCnt := s.cnt } s.cnt 0 with
        | error e =>
          rw [hrejects] at h
          exact nomatch h
        | ok rejects =>
          have heq : rejects = decide (HasWep { s.prof with profileCnt := s.cnt } s.cnt) :=
            (rejectsWep_spec fun i hi => absurd hi (Nat.not_lt_zero _)).2 _ hrejects
          replace heq : rejects = decide (HasWep s.prof s.cnt) := heq
          rw [hrejects, Checked.ok_bind, heq] at h
          by_cases hhas : HasWep s.prof s.cnt
          · rw [if_pos ⟨hv2, hhas⟩]
            rw [if_pos (decide_eq_true hhas)] at h
            exact (Except.ok.inj h).symm
          · rw [if_neg fun hboth => hhas hboth.2]
            rw [if_neg fun hdec => hhas (of_decide_eq_true hdec)] at h
            exact (Except.ok.inj h).symm
      · rename_i hv2
        rw [if_neg fun hboth => hv2 hboth.1]
        exact (Except.ok.inj h).symm

/-! ## 4. Attributes of a message -/

/-- The items of a vendor extension are there, up to the one that is looked for, and that is one
octet. -/
def SubItemBound (data : List UInt8) (subId : UInt8) (base dataLen length : Nat) : Prop :=
  if base + 3 + length + 2 ≤ data.length then
    let len := (data.getD (base + 3 + length + 1) 0).toNat
    if length + 2 + len + 3 ≤ dataLen then
      if data.getD (base + 3 + length) 0 = subId then
        base + 3 + length + 2 + len ≤ data.length ∧ len ≤ 1
      else SubItemBound data subId base dataLen (length + 2 + len)
    else True
  else False
termination_by data.length - length

/-- The item that is looked for. -/
def subItem (data : List UInt8) (subId : UInt8) (base dataLen length : Nat) :
    Option (List UInt8) :=
  if base + 3 + length + 2 ≤ data.length then
    let len := (data.getD (base + 3 + length + 1) 0).toNat
    if length + 2 + len + 3 ≤ dataLen then
      if data.getD (base + 3 + length) 0 = subId then
        some ((data.drop (base + 3 + length + 2)).take len)
      else subItem data subId base dataLen (length + 2 + len)
    else none
  else none
termination_by data.length - length

theorem wscParseV2SubItem_eq {data : List UInt8} {subId : UInt8} {base dataLen length : Nat}
    {r : Option (List UInt8)} (h : wscParseV2SubItem data subId base dataLen length = .ok r) :
    r = subItem data subId base dataLen length := by
  fun_induction subItem data subId base dataLen length with
  | case1 length hin len hlen hid =>
    rw [wscParseV2SubItem, if_pos hin] at h
    dsimp only at h
    rw [if_pos hlen, if_pos hid, Checked.access_bind_eq_ok] at h
    exact (Except.ok.inj h.2).symm
  | case2 length hin len hlen hid ih =>
    rw [wscParseV2SubItem, if_pos hin] at h
    dsimp only at h
    rw [if_pos hlen, if_neg hid] at h
    exact ih h
  | case3 length hin len hlen =>
    rw [wscParseV2SubItem, if_pos hin] at h
    dsimp only at h
    rw [if_neg hlen] at h
    exact (Except.ok.inj h).symm
  | case4 length hin =>
    rw [wscParseV2SubItem, if_neg hin] at h
    exact nomatch h

/-- The items of a vendor extension are there, up to the one that is looked for, and `room` octets
hold that one. -/
def SubItemLaid (data : List UInt8) (subId : UInt8) (room base dataLen length : Nat) : Prop :=
  if base + 3 + length + 2 ≤ data.length then
    let len := (data.getD (base + 3 + length + 1) 0).toNat
    if length + 2 + len + 3 ≤ dataLen then
      if data.getD (base + 3 + length) 0 = subId then
        base + 3 + length + 2 + len ≤ data.length ∧ len ≤ room
      else SubItemLaid data subId room base dataLen (length + 2 + len)
    else True
  else False
termination_by data.length - length

/-- The item is looked for and stored in `room` octets. -/
theorem subItem_laid {data : List UInt8} {subId : UInt8} {room base dataLen length : Nat} :
    (Safe (wscParseV2SubItem data subId base dataLen length) ∧
        ∀ v, subItem data subId base dataLen length = some v → v.length ≤ room) ↔
      SubItemLaid data subId room base dataLen length := by
  fun_induction subItem data subId base dataLen length with
  | case1 length hin len hlen hid =>
    rw [wscParseV2SubItem, if_pos hin, SubItemLaid, if_pos hin]
    dsimp only
    rw [if_pos hlen, if_pos hid, if_pos hlen, if_pos hid, access_bind_safe]
    constructor
    · rintro ⟨⟨hread, -⟩, hv⟩
      refine ⟨hread, ?_⟩
      have hfits := hv _ rfl
      rw [List.length_take, List.length_drop] at hfits
      omega
    · rintro ⟨hread, hfits⟩
      refine ⟨⟨hread, Checked.safe_ok _⟩, fun v hv => ?_⟩
      cases hv
      rw [List.length_take]
      omega
  | case2 length hin len hlen hid ih =>
    rw [wscParseV2SubItem, if_pos hin, SubItemLaid, if_pos hin]
    dsimp only
    rw [if_pos hlen, if_neg hid, if_pos hlen, if_neg hid]
    exact ih
  | case3 length hin len hlen =>
    rw [wscParseV2SubItem, if_pos hin, SubItemLaid, if_pos hin]
    dsimp only
    rw [if_neg hlen, if_neg hlen]
    exact ⟨fun _ => trivial, fun _ => ⟨Checked.safe_ok _, fun v hv => (nomatch hv)⟩⟩
  | case4 length hin =>
    rw [wscParseV2SubItem, if_neg hin, SubItemLaid, if_neg hin]
    exact ⟨fun h => absurd h.1 (Checked.not_safe_error _), fun h => h.elim⟩

theorem subItemBound_iff {data : List UInt8} {subId : UInt8} {base dataLen length : Nat} :
    SubItemBound data subId base dataLen length ↔
      SubItemLaid data subId 1 base dataLen length := by
  fun_induction SubItemBound data subId base dataLen length with
  | case1 length hin len hlen hid =>
    rw [SubItemLaid, if_pos hin]
    dsimp only
    rw [if_pos hlen, if_pos hid]
  | case2 length hin len hlen hid ih =>
    rw [SubItemLaid, if_pos hin]
    dsimp only
    rw [if_pos hlen, if_neg hid]
    exact ih
  | case3 length hin len hlen =>
    rw [SubItemLaid, if_pos hin]
    dsimp only
    rw [if_neg hlen]
  | case4 length hin => rw [SubItemLaid, if_neg hin]

/-- The item is looked for and stored in one octet. -/
theorem subItem_safe {data : List UInt8} {subId : UInt8} {base dataLen length : Nat} :
    (Safe (wscParseV2SubItem data subId base dataLen length) ∧
        ∀ v, subItem data subId base dataLen length = some v → v.length ≤ 1) ↔
      SubItemBound data subId base dataLen length :=
  subItem_laid.trans subItemBound_iff.symm

namespace Reading

variable (C : WscCrypto) (msg : List UInt8) (s : Reading) (a : Attr)

/-- Settings of an attribute that is not passed over. -/
def SettingsFit (capacity : Nat) : Prop :=
  16 < a.len ∧ a.len ≤ capacity → a.Inside msg ∧ SettingsBound (s.decipher C msg a).2

/-- The field and the value are as long as the length, or differ in front of that. -/
def CompareFits (field : List UInt8) : Prop :=
  (a.len ≤ field.length ∧ a.len ≤ (msg.drop a.off).length) ∨
    ∃ i, i < a.len ∧ i < field.length ∧ i < (msg.drop a.off).length ∧
      field.getD i 0 ≠ (msg.drop a.off).getD i 0

/-- An attribute of a message that fits. -/
def Bound : Act → Prop
  | .tick => True
  | .peek => a.Has msg 1
  | .store _ n => a.Has msg n
  | .storeBe _ | .devicePwdId | .scState => a.Has msg 2
  | .copy fs => ∀ f ∈ fs, a.Inside msg ∧ a.len ≤ f.size
  | .compare f => CompareFits msg a (s.blk.regs f).toList
  | .version2 => s.blk.bEnableWpsV2 → SubItemBound msg wfaExtIdVersion2 a.off a.len 0
  | .authenticator => a.Inside msg ∧ a.len ≤ 8
  | .settings => s.SettingsFit C msg a 512
  | .m7Settings => s.SettingsFit C msg a 1024
  | .credentials => 16 < a.len ∧ a.len ≤ 1024 → a.Inside msg ∧
      CredentialsBound s.blk.bCheckMultiByte s.blk.bEnableWpsV2 (s.decipher C msg a).2

/-- Settings, as they are stored. -/
def storeSettings (capacity : Nat) (m7 : WscProfile) : Reading × Bool :=
  if a.len ≤ 16 ∨ capacity < a.len then (s, false)
  else
    let settings :=
      settingsStored (s.decipher C msg a).2 { regs := s.deciphered C msg a, m7 := m7 }
    ({ s with blk := { s.blk with regs := settings.regs, wscM7Profile := settings.m7 } }, true)

/-- Credentials, as they are stored. -/
def storeCredentials : Reading × Bool ⊕ WscBlock :=
  if a.len ≤ 16 ∨ 1024 < a.len then .inl (s, false)
  else
    let stored := credited s.blk.bCheckMultiByte s.blk.bEnableWpsV2 (s.decipher C msg a).2
    let blk := { s.blk with regs := s.deciphered C msg a, wscProfile := stored.1 }
    if stored.2 then .inl ({ s with blk := blk }, true) else .inr blk

/-- What is done with an attribute. -/
def effect : Act → Reading × Bool ⊕ WscBlock
  | .tick | .peek | .compare _ => .inl (s, true)
  | .store f n => .inl (s.setRegs (s.blk.regs.put f ((octets msg a n).take f.size)), true)
  | .storeBe f => .inl (s.setRegs (s.blk.regs.put f (octets msg a 2).reverse), true)
  | .copy fs => .inl (s.setRegs (fs.foldl (fun r f => r.put f (a.value msg)) s.blk.regs), true)
  | .devicePwdId =>
    let regs :=
      if octets msg a 2 = [0, 0] then s.blk.regs.put .selfDevPwdId [0, 0]
      else if octets msg a 2 = [4, 0] then s.blk.regs.put .selfDevPwdId [0, 4]
      else s.blk.regs
    .inl (s.setRegs regs, true)
  | .scState =>
    let s := s.setRegs (s.blk.regs.put .peerScState ((octets msg a 2).take 1))
    let bConfiguredAP :=
      if s.blk.staMode then decide ((octets msg a 2).take 1 = [2]) else s.blk.bConfiguredAP
    .inl ({ s with blk := { s.blk with bConfiguredAP := bConfiguredAP } }, true)
  | .version2 =>
    if s.blk.bEnableWpsV2 then
      match subItem msg wfaExtIdVersion2 a.off a.len 0 with
      | none => .inl (s, true)
      | some v => .inl (s.setRegs (s.blk.regs.put .peerVersion2 v), true)
    else .inl (s, true)
  | .authenticator => .inl ({ s with hmac := Mem.write s.hmac 0 (a.value msg) }, true)
  | .settings => .inl (s.storeSettings C msg a 512 s.blk.wscM7Profile)
  | .m7Settings =>
    .inl (s.storeSettings C msg a 1024
      (if s.blk.staMode then WscProfile.zero else s.blk.wscM7Profile))
  | .credentials => s.storeCredentials C msg a

variable {C msg s a}

theorem octetsOf_bind_safe {α : Type} {n : Nat} {f : List UInt8 → Checked α} :
    Safe (octetsOf msg a n >>= f) ↔ a.Has msg n ∧ Safe (f (octets msg a n)) := by
  unfold octetsOf
  rw [bind_assoc, access_bind_safe]
  rfl

theorem copies_safe {fs : List Field} {r : Regs} :
    Safe (copies msg a fs r) ↔ ∀ f ∈ fs, a.Inside msg ∧ a.len ≤ f.size := by
  induction fs generalizing r with
  | nil => exact ⟨fun _ f hf => (nomatch hf), fun _ => Checked.safe_ok _⟩
  | cons f fs ih =>
    rw [copies, copyInto, bind_assoc, access_bind_safe, bind_assoc, access_bind_safe,
      List.forall_mem_cons, Nat.zero_add, ← and_assoc]
    exact and_congr_right fun _ => ih

theorem copies_eq {fs : List Field} {r r' : Regs} (h : copies msg a fs r = .ok r') :
    r' = fs.foldl (fun r f => r.put f (a.value msg)) r := by
  induction fs generalizing r with
  | nil => exact (Except.ok.inj h).symm
  | cons f fs ih =>
    rw [copies, copyInto, bind_assoc, Checked.access_bind_eq_ok, bind_assoc,
      Checked.access_bind_eq_ok] at h
    exact ih h.2.2

theorem decipher_safe {α : Type} {capacity : Nat} {f : Unit → Checked α} {x : α} :
    Safe (if a.len ≤ 16 ∨ capacity < a.len then (pure x : Checked α)
        else access msg.length a.off a.len >>= f) ↔
      (16 < a.len ∧ a.len ≤ capacity → a.Inside msg ∧ Safe (f ())) := by
  split
  · rename_i h
    exact ⟨fun _ hlen => absurd hlen (by omega), fun _ => Checked.safe_ok _⟩
  · rename_i h
    have hlen : 16 < a.len ∧ a.len ≤ capacity := by omega
    rw [access_bind_safe]
    exact ⟨fun hsafe _ => hsafe, fun hsafe => hsafe hlen⟩

theorem readSettings_safe {capacity : Nat} {m7 : WscProfile} :
    Safe (s.readSettings C msg a capacity m7) ↔ s.SettingsFit C msg a capacity := by
  unfold readSettings SettingsFit
  rw [decipher_safe]
  refine forall_congr' fun _ => and_congr_right fun _ => ?_
  exact Checked.safe_map.trans wscParseEncrSettings_safe

theorem readSettings_eq {capacity : Nat} {m7 : WscProfile} {r : Reading × Bool}
    (h : s.readSettings C msg a capacity m7 = .ok r) : r = s.storeSettings C msg a capacity m7 := by
  unfold readSettings at h
  unfold storeSettings
  split at h
  · rename_i hlen
    rw [if_pos hlen]
    exact (Except.ok.inj h).symm
  · rename_i hlen
    rw [if_neg hlen]
    rw [Checked.access_bind_eq_ok] at h
    dsimp only at h ⊢
    cases hparse : wscParseEncrSettings (s.decipher C msg a).2
        { regs := s.deciphered C msg a, m7 := m7 } with
    | error e =>
      rw [hparse] at h
      exact nomatch h.2
    | ok settings =>
      rw [hparse] at h
      rw [← wscParseEncrSettings_eq hparse]
      exact (Except.ok.inj h.2).symm

/-- A credential is read without being stopped. -/
theorem readCredentials_safe :
    Safe (s.readCredentials C msg a) ↔ s.Bound C msg a .credentials := by
  unfold readCredentials
  rw [decipher_safe]
  refine forall_congr' fun _ => and_congr_right fun _ => ?_
  rw [safe_bind, ← wscProcessCredential_safe]
  constructor
  · rintro ⟨r, hr, -⟩
    exact ⟨r, hr⟩
  · rintro ⟨r, hr⟩
    refine ⟨r, hr, ?_⟩
    dsimp only
    split
    · exact Checked.safe_ok _
    · exact Checked.safe_ok _

theorem readCredentials_eq {r : Reading × Bool ⊕ WscBlock}
    (h : s.readCredentials C msg a = .ok r) : r = s.storeCredentials C msg a := by
  unfold readCredentials at h
  unfold storeCredentials
  split at h
  · rename_i hlen
    rw [if_pos hlen]
    exact (Except.ok.inj h).symm
  · rename_i hlen
    rw [if_neg hlen]
    rw [Checked.access_bind_eq_ok] at h
    dsimp only at h ⊢
    cases hprocess : wscProcessCredential s.blk.bCheckMultiByte s.blk.bEnableWpsV2
        (s.decipher C msg a).2 with
    | error e =>
      rw [hprocess] at h
      exact nomatch h.2
    | ok stored =>
      rw [hprocess] at h
      rw [← wscProcessCredential_eq hprocess]
      replace h := h.2
      rw [Checked.ok_bind] at h
      split at h
      · rename_i htaken
        rw [if_pos htaken]
        exact (Except.ok.inj h).symm
      · rename_i htaken
        rw [if_neg htaken]
        exact (Except.ok.inj h).symm

/-- **An attribute is read inside its bound**, -/
theorem perform_safe {act : Act} : Safe (s.perform C msg a act) ↔ s.Bound C msg a act := by
  cases act with
  | tick => exact ⟨fun _ => trivial, fun _ => Checked.safe_ok _⟩
  | peek | store f n | storeBe f | devicePwdId | scState =>
    exact octetsOf_bind_safe.trans (and_iff_left (Checked.safe_ok _))
  | copy fs => exact Checked.safe_map.trans copies_safe
  | compare f => exact Checked.safe_map.trans compareMemory_safe
  | version2 =>
    rw [perform, Bound]
    split
    · rename_i hv2
      rw [safe_bind, forall_prop_of_true hv2, ← subItem_safe]
      constructor
      · rintro ⟨item, hitem, h⟩
        refine ⟨⟨item, hitem⟩, fun v hv => ?_⟩
        rw [← wscParseV2SubItem_eq hitem] at hv
        subst hv
        exact (Nat.zero_add _).symm.trans_le (access_bind_safe.1 h).1
      · rintro ⟨⟨item, hitem⟩, hone⟩
        refine ⟨item, hitem, ?_⟩
        cases item with
        | none => exact Checked.safe_ok _
        | some v =>
          have hv := hone v (wscParseV2SubItem_eq hitem).symm
          exact access_bind_safe.2 ⟨(Nat.zero_add _).trans_le hv, Checked.safe_ok _⟩
    · rename_i hv2
      exact ⟨fun _ h => absurd h hv2, fun _ => Checked.safe_ok _⟩
  | authenticator =>
    rw [perform, access_bind_safe, access_bind_safe, Nat.zero_add]
    exact and_congr_right fun _ => and_iff_left (Checked.safe_ok _)
  | settings | m7Settings => exact Checked.safe_map.trans readSettings_safe
  | credentials => exact readCredentials_safe

/-- and this is what is done with it. -/
theorem perform_eq {act : Act} {r : Reading × Bool ⊕ WscBlock}
    (h : s.perform C msg a act = .ok r) : r = s.effect C msg a act := by
  have hoctets : ∀ {n : Nat} {f : List UInt8 → Checked (Reading × Bool ⊕ WscBlock)},
      (octetsOf msg a n >>= f) = .ok r → f (octets msg a n) = .ok r := by
    intro n f hf
    rw [octetsOf, bind_assoc, Checked.access_bind_eq_ok] at hf
    exact hf.2
  cases act with
  | tick => exact (Except.ok.inj h).symm
  | peek | store f n | storeBe f | devicePwdId | scState => exact (Except.ok.inj (hoctets h)).symm
  | copy fs =>
    rw [perform] at h
    cases hcopies : copies msg a fs s.blk.regs with
    | error e =>
      rw [hcopies] at h
      exact nomatch h
    | ok regs =>
      rw [hcopies] at h
      rw [effect, ← copies_eq hcopies]
      exact (Except.ok.inj h).symm
  | compare f =>
    rw [perform] at h
    cases hcompare : compareMemory (s.blk.regs f).toList (msg.drop a.off) a.len with
    | error e =>
      rw [hcompare] at h
      exact nomatch h
    | ok same =>
      rw [hcompare] at h
      exact (Except.ok.inj h).symm
  | version2 =>
    rw [perform] at h
    rw [effect]
    split at h
    · rename_i hv2
      rw [if_pos hv2]
      cases hitem : wscParseV2SubItem msg wfaExtIdVersion2 a.off a.len 0 with
      | error e =>
        rw [hitem] at h
        exact nomatch h
      | ok item =>
        rw [hitem, Checked.ok_bind] at h
        rw [← wscParseV2SubItem_eq hitem]
        cases item with
        | none => exact (Except.ok.inj h).symm
        | some v =>
          dsimp only at h
          rw [Checked.access_bind_eq_ok] at h
          exact (Except.ok.inj h.2).symm
    · rename_i hv2
      rw [if_neg hv2]
      exact (Except.ok.inj h).symm
  | authenticator =>
    rw [perform, Checked.access_bind_eq_ok, Checked.access_bind_eq_ok] at h
    exact (Except.ok.inj h.2.2).symm
  | settings =>
    rw [perform] at h
    cases hread : s.readSettings C msg a 512 s.blk.wscM7Profile with
    | error e =>
      rw [hread] at h
      exact nomatch h
    | ok read =>
      rw [hread] at h
      rw [effect, ← readSettings_eq hread]
      exact (Except.ok.inj h).symm
  | m7Settings =>
    rw [perform] at h
    cases hread : s.readSettings C msg a 1024
        (if s.blk.staMode then WscProfile.zero else s.blk.wscM7Profile) with
    | error e =>
      rw [hread] at h
      exact nomatch h
    | ok read =>
      rw [hread] at h
      rw [effect, ← readSettings_eq hread]
      exact (Except.ok.inj h).symm
  | credentials => exact readCredentials_eq h

end Reading

/-! ## 5. A message -/

section

variable (C : WscCrypto) (spec : MsgSpec) (msg : List UInt8)

/-- An attribute that the message has a use for fits. -/
def readBound (s : Reading) (a : Attr) : Prop :=
  match spec.acts.lookup a.type with
  | none => True
  | some act => s.Bound C msg a act

/-- What becomes of an attribute. -/
def readEffect (s : Reading) (a : Attr) : Reading ⊕ WscBlock :=
  match spec.acts.lookup a.type with
  | none => .inl (s.tick spec a false)
  | some act =>
    match s.effect C msg a act with
    | .inl (s, counts) => .inl (s.tick spec a counts)
    | .inr blk => .inr blk

theorem readAttr_bounded :
    Tlv.Bounded (readAttr C spec msg) (readBound C spec msg) (readEffect C spec msg) := by
  refine ⟨fun s a => ?_, fun {s a r} hr => ?_⟩
  · unfold readAttr readBound
    cases spec.acts.lookup a.type with
    | none => exact ⟨fun _ => trivial, fun _ => Checked.safe_ok _⟩
    | some act =>
      refine Iff.trans ?_ Reading.perform_safe
      rw [safe_bind]
      constructor
      · rintro ⟨performed, hperformed, -⟩
        exact ⟨performed, hperformed⟩
      · rintro ⟨performed, hperformed⟩
        refine ⟨performed, hperformed, ?_⟩
        cases performed with
        | inl next => exact Checked.safe_ok _
        | inr blk => exact Checked.safe_ok _
  · unfold readAttr at hr
    unfold readEffect
    cases hact : spec.acts.lookup a.type with
    | none =>
      rw [hact] at hr
      exact (Except.ok.inj hr).symm
    | some act =>
      rw [hact] at hr
      dsimp only at hr ⊢
      cases hperformed : s.perform C msg a act with
      | error e =>
        rw [hperformed] at hr
        exact nomatch hr
      | ok performed =>
        rw [hperformed, Checked.ok_bind] at hr
        rw [← Reading.perform_eq hperformed]
        cases performed with
        | inl next => exact (Except.ok.inj hr).symm
        | inr blk => exact (Except.ok.inj hr).symm

/-- The attributes of a message. -/
abbrev attrsOf : List Attr := Tlv.attrs (·.len) msg 0

/-- Every attribute of the message that is come to fits. -/
def MessageFits (b : WscBlock) : Prop :=
  Tlv.Fits (readEffect C spec b.lastRx) (readBound C spec b.lastRx) (Reading.start spec b)
    (attrsOf b.lastRx)

/-- What the attributes of the message come to. -/
def messageStored (b : WscBlock) : Reading ⊕ WscBlock :=
  Tlv.walk (readEffect C spec b.lastRx) (Reading.start spec b) (attrsOf b.lastRx)

end

section

variable {C : WscCrypto} {spec : MsgSpec} {b : WscBlock}

theorem readMessage_safe : Safe (readMessage C spec b) ↔ MessageFits C spec b := by
  rw [readMessage, Tlv.loop_eq_run]
  exact (readAttr_bounded C spec b.lastRx).safe_run

theorem readMessage_eq {r : Reading ⊕ WscBlock} (h : readMessage C spec b = .ok r) :
    r = messageStored C spec b := by
  rw [readMessage, Tlv.loop_eq_run] at h
  exact (readAttr_bounded C spec b.lastRx).run_eq h

/-- **What a handler comes to**, if its message fits. -/
theorem readThen_eq_ok {finish : Reading → Checked (WscBlock × Nat)} {r : WscBlock × Nat} :
    readThen C spec b finish = .ok r ↔ MessageFits C spec b ∧
      ((∃ s, messageStored C spec b = .inl s ∧ finish s = .ok r) ∨
        ∃ blk, messageStored C spec b = .inr blk ∧ r = (blk, wscErrorSetupLocked)) := by
  unfold readThen
  constructor
  · intro h
    cases hread : readMessage C spec b with
    | error e =>
      rw [hread] at h
      exact nomatch h
    | ok read =>
      rw [hread, Checked.ok_bind] at h
      have hstored := readMessage_eq hread
      refine ⟨readMessage_safe.1 ⟨read, hread⟩, ?_⟩
      cases read with
      | inl s => exact .inl ⟨s, hstored.symm, h⟩
      | inr blk => exact .inr ⟨blk, hstored.symm, (Except.ok.inj h).symm⟩
  · rintro ⟨hfits, h⟩
    obtain ⟨read, hread⟩ := readMessage_safe.2 hfits
    rw [hread, Checked.ok_bind]
    rw [← readMessage_eq hread] at h
    rcases h with ⟨s, rfl, h⟩ | ⟨blk, rfl, rfl⟩
    · exact h
    · rfl

theorem readThen_safe {finish : Reading → Checked (WscBlock × Nat)} :
    Safe (readThen C spec b finish) ↔ MessageFits C spec b ∧
      ∀ s, messageStored C spec b = .inl s → Safe (finish s) := by
  constructor
  · rintro ⟨r, hr⟩
    obtain ⟨hfits, h⟩ := readThen_eq_ok.1 hr
    refine ⟨hfits, fun s hs => ?_⟩
    rcases h with ⟨s', hs', h⟩ | ⟨blk, hblk, -⟩
    · rw [hs] at hs'
      cases hs'
      exact ⟨r, h⟩
    · rw [hs] at hblk
      exact nomatch hblk
  · rintro ⟨hfits, h⟩
    cases hstored : messageStored C spec b with
    | inl s =>
      obtain ⟨r, hr⟩ := h s hstored
      exact ⟨r, readThen_eq_ok.2 ⟨hfits, .inl ⟨s, hstored, hr⟩⟩⟩
    | inr blk => exact ⟨_, readThen_eq_ok.2 ⟨hfits, .inr ⟨blk, hstored, rfl⟩⟩⟩

end

/-! ## 6. What reading leaves alone -/

/-- What no attribute changes: the two messages, and how the driver is configured. -/
structure WscBlock.Same (b b' : WscBlock) : Prop where
  lastTx : b'.lastTx = b.lastTx
  lastRx : b'.lastRx = b.lastRx
  bCheckMultiByte : b'.bCheckMultiByte = b.bCheckMultiByte
  bEnableWpsV2 : b'.bEnableWpsV2 = b.bEnableWpsV2
  staMode : b'.staMode = b.staMode

theorem WscBlock.Same.refl (b : WscBlock) : b.Same b := ⟨rfl, rfl, rfl, rfl, rfl⟩

theorem WscBlock.Same.trans {b₁ b₂ b₃ : WscBlock} (h : b₁.Same b₂) (h' : b₂.Same b₃) : b₁.Same b₃ :=
  ⟨h'.lastTx.trans h.lastTx, h'.lastRx.trans h.lastRx, h'.bCheckMultiByte.trans h.bCheckMultiByte,
    h'.bEnableWpsV2.trans h.bEnableWpsV2, h'.staMode.trans h.staMode⟩

section

variable {C : WscCrypto} {spec : MsgSpec} {msg : List UInt8} {s s' : Reading} {a : Attr} {act : Act}

theorem Reading.storeSettings_same (capacity : Nat) (m7 : WscProfile) :
    s.blk.Same (s.storeSettings C msg a capacity m7).1.blk := by
  unfold storeSettings
  split
  · exact .refl _
  · exact ⟨rfl, rfl, rfl, rfl, rfl⟩

theorem Reading.effect_same {counts : Bool} (h : s.effect C msg a act = .inl (s', counts)) :
    s.blk.Same s'.blk := by
  cases act with
  | tick | peek | compare f =>
    cases h
    exact .refl _
  | store f n | storeBe f | copy fs | devicePwdId | scState | authenticator =>
    cases h
    exact ⟨rfl, rfl, rfl, rfl, rfl⟩
  | version2 =>
    rw [effect] at h
    split at h
    · split at h
      · cases h
        exact .refl _
      · cases h
        exact ⟨rfl, rfl, rfl, rfl, rfl⟩
    · cases h
      exact .refl _
  | settings | m7Settings =>
    have hs' : _ = s' := congrArg Prod.fst (Sum.inl.inj h)
    rw [← hs']
    exact storeSettings_same _ _
  | credentials =>
    rw [effect, storeCredentials] at h
    split at h
    · cases h
      exact .refl _
    · dsimp only at h
      split at h
      · cases h
        exact ⟨rfl, rfl, rfl, rfl, rfl⟩
      · cases h

/-- A message is given up because of its credentials. -/
theorem Reading.effect_gives_up {blk : WscBlock} (h : s.effect C msg a act = .inr blk) :
    act = .credentials ∧ 16 < a.len ∧ a.len ≤ 1024 := by
  cases act with
  | credentials =>
    refine ⟨rfl, ?_⟩
    rw [effect, storeCredentials] at h
    split at h
    · cases h
    · omega
  | version2 =>
    rw [effect] at h
    split at h
    · split at h
      · cases h
      · cases h
    · cases h
  | _ => cases h

theorem readEffect_same (h : readEffect C spec msg s a = .inl s') : s.blk.Same s'.blk := by
  unfold readEffect at h
  cases hact : spec.acts.lookup a.type with
  | none =>
    rw [hact] at h
    cases h
    exact ⟨rfl, rfl, rfl, rfl, rfl⟩
  | some act =>
    rw [hact] at h
    dsimp only at h
    cases heffect : s.effect C msg a act with
    | inl next =>
      obtain ⟨next, counts⟩ := next
      rw [heffect] at h
      cases h
      obtain ⟨h₁, h₂, h₃, h₄, h₅⟩ := Reading.effect_same heffect
      exact ⟨h₁, h₂, h₃, h₄, h₅⟩
    | inr blk =>
      rw [heffect] at h
      exact nomatch h

theorem messageStored_same {b : WscBlock} (hfits : MessageFits C spec b)
    (h : messageStored C spec b = .inl s) : b.Same s.blk :=
  Tlv.walk_inl (P := fun s => b.Same s.blk)
    (fun _ _ _ _ _ hs hnext => hs.trans (readEffect_same hnext)) (.refl b) hfits h

/-- A message that is given up has Encrypted Settings. -/
theorem messageStored_gives_up {b blk : WscBlock} (hfits : MessageFits C spec b)
    (h : messageStored C spec b = .inr blk) : 12 ≤ b.lastRx.length := by
  obtain ⟨s, a, -, hbound, -, heffect⟩ := Tlv.walk_inr (P := fun _ => True)
    (fun _ _ _ _ _ _ _ => trivial) trivial hfits h
  unfold readEffect at heffect
  unfold readBound at hbound
  cases hact : spec.acts.lookup a.type with
  | none =>
    rw [hact] at heffect
    exact nomatch heffect
  | some act =>
    rw [hact] at heffect hbound
    dsimp only at heffect hbound
    cases hnext : s.effect C b.lastRx a act with
    | inl next =>
      rw [hnext] at heffect
      exact nomatch heffect
    | inr blk' =>
      obtain ⟨rfl, hmin, hmax⟩ := Reading.effect_gives_up hnext
      have hinside : a.off + a.len ≤ b.lastRx.length := (hbound ⟨hmin, hmax⟩).1
      omega

end

/-! ## 7. Messages of less than twelve octets -/

/-- The actions of M4 and M6. -/
def Act.plain : Act → Bool
  | .peek | .compare _ | .copy _ | .settings | .authenticator => true
  | _ => false

/-- A copy of an attribute. -/
def copied (spec : MsgSpec) (msg : List UInt8) (r : Regs) (a : Attr) : Regs :=
  match spec.acts.lookup a.type with
  | some (.copy fs) => fs.foldl (fun r f => r.put f (a.value msg)) r
  | _ => r

/-- The copies of a message. -/
def copiesStored (spec : MsgSpec) (msg : List UInt8) (r : Regs) : Regs :=
  (attrsOf msg).foldl (copied spec msg) r

/-- A commitment is opened. -/
def Opens (C : WscCrypto) (r : Regs) (hash nonce psk : Field) : Prop :=
  (r hash).toList = (commitment C r nonce psk).toList

instance (C : WscCrypto) (r : Regs) (hash nonce psk : Field) : Decidable (Opens C r hash nonce psk) :=
  inferInstanceAs (Decidable (_ = _))

section

variable {C : WscCrypto} {spec : MsgSpec}

/-- A message that is as short as that has no Encrypted Settings, only attributes that are copied. -/
theorem short_stored {b : WscBlock} {s : Reading} (hplain : ∀ p ∈ spec.acts, p.2.plain = true)
    (hafter : spec.after = id) (hlen : b.lastRx.length < 12) (hfits : MessageFits C spec b)
    (h : messageStored C spec b = .inl s) : s.blk.regs = copiesStored spec b.lastRx b.regs := by
  refine Tlv.walk_foldl (v := fun s : Reading => s.blk.regs) ?_ hfits h
  intro s a s' _ hbound hnext
  unfold readBound at hbound
  unfold readEffect at hnext
  unfold copied
  cases hact : spec.acts.lookup a.type with
  | none =>
    rw [hact] at hnext
    cases hnext
    exact congrFun hafter _
  | some act =>
    rw [hact] at hnext hbound
    dsimp only at hnext hbound ⊢
    obtain ⟨l₁, l₂, hmem, -⟩ := List.lookup_eq_some_iff.1 hact
    have hact' : act.plain = true := hplain (a.type, act) (by rw [hmem]; simp)
    have htick : ∀ (s : Reading) (counts : Bool), (s.tick spec a counts).blk.regs = s.blk.regs :=
      fun s counts => congrFun hafter _
    cases act with
    | peek | compare f | authenticator | copy fs =>
      cases hnext
      exact htick _ _
    | settings =>
      have hskip : a.len ≤ 16 ∨ 512 < a.len := by
        by_contra hlong
        have hinside : a.off + a.len ≤ b.lastRx.length := (hbound (by omega)).1
        omega
      rw [Reading.effect, Reading.storeSettings, if_pos hskip] at hnext
      cases hnext
      exact htick _ _
    | _ => exact nomatch hact'

end

/-! ## 8. The handlers -/

/-- **When a message is read in bounds**: its attributes fit, and it is as long as the authenticator
at its end where that is taken off. -/
def InBounds (C : WscCrypto) (env : Surroundings) (b : WscBlock) (msg : List UInt8) :
    Message → Prop
  | .m1 => MessageFits C m1Spec (b.receiveM1 C msg env.random)
  | .m2 => MessageFits C m2Spec (b.receiveM2 msg) ∧ 12 ≤ msg.length
  | .m2D => MessageFits C m2DSpec (b.receive msg)
  | .m3 => MessageFits C m3Spec (b.receive msg) ∧ 12 ≤ msg.length
  | .m4 => env.memory → MessageFits C m4Spec (b.receive msg) ∧
      (msg.length < 12 → ¬ Opens C (copiesStored m4Spec msg b.regs) .rHash1 .rs1 .psk1)
  | .m5 => env.memory → MessageFits C m5Spec (b.receive msg) ∧ 12 ≤ msg.length
  | .m6 => env.memory → MessageFits C m6Spec (b.receive msg) ∧
      (msg.length < 12 → ¬ Opens C (copiesStored m6Spec msg b.regs) .rHash2 .rs2 .psk2)
  | .m7 => env.memory → MessageFits C m7Spec (b.receive msg) ∧ 12 ≤ msg.length
  | .m8 => env.memory → MessageFits C m8Spec (b.receive msg) ∧ 12 ≤ msg.length

section

variable {C : WscCrypto} {spec : MsgSpec} {b : WscBlock} {finish : Reading → Checked (WscBlock × Nat)}

/-- A handler that computes the length in the end. -/
theorem readThen_safe_of_sub (h : ∀ s, Safe (finish s) ↔ 12 ≤ s.blk.lastRx.length) :
    Safe (readThen C spec b finish) ↔ MessageFits C spec b ∧ 12 ≤ b.lastRx.length := by
  rw [readThen_safe]
  refine and_congr_right fun hfits => ?_
  cases hstored : messageStored C spec b with
  | inl s =>
    rw [← (messageStored_same hfits hstored).lastRx, ← h]
    constructor
    · exact fun hs => hs s rfl
    · rintro hs _ ⟨⟩
      exact hs
  | inr blk =>
    have hlen := messageStored_gives_up hfits hstored
    exact ⟨fun _ => hlen, fun _ _ hs => (nomatch hs)⟩

/-- A handler that checks a commitment first. -/
theorem readThen_safe_of_opens {hash nonce psk : Field}
    (hplain : ∀ p ∈ spec.acts, p.2.plain = true) (hafter : spec.after = id)
    (h : ∀ s, Safe (finish s) ↔ (Opens C s.blk.regs hash nonce psk → 12 ≤ s.blk.lastRx.length)) :
    Safe (readThen C spec b finish) ↔ MessageFits C spec b ∧ (b.lastRx.length < 12 →
      ¬ Opens C (copiesStored spec b.lastRx b.regs) hash nonce psk) := by
  rw [readThen_safe]
  refine and_congr_right fun hfits => ?_
  cases hstored : messageStored C spec b with
  | inl s =>
    have hlast := (messageStored_same hfits hstored).lastRx
    constructor
    · intro hs hshort hopens
      rw [← short_stored hplain hafter hshort hfits hstored] at hopens
      have hlen := (h s).1 (hs s rfl) hopens
      rw [hlast] at hlen
      omega
    · rintro hs _ ⟨⟩
      refine (h s).2 fun hopens => ?_
      by_contra hshort
      rw [hlast, Nat.not_le] at hshort
      rw [short_stored hplain hafter hshort hfits hstored] at hopens
      exact hs hshort hopens
  | inr blk =>
    have hlen := messageStored_gives_up hfits hstored
    exact ⟨fun _ hshort => absurd hshort (by omega), fun _ _ hs => (nomatch hs)⟩

/-- The length is computed, and then nothing is stopped. -/
theorem sub_safe_of {α : Type} {n : Nat} {f : Nat → Checked α} (h : ∀ k, Safe (f k)) :
    Safe (sub n 12 >>= f) ↔ 12 ≤ n := by
  rw [safe_bind]
  constructor
  · rintro ⟨k, hk, -⟩
    exact Checked.safe_sub.1 ⟨k, hk⟩
  · intro hn
    exact ⟨n - 12, Checked.sub_ok hn, h _⟩

/-- A handler that is given no memory returns at once. -/
theorem memory_safe {memory : Bool} {x : Checked (WscBlock × Nat)} {r : WscBlock × Nat} :
    Safe (if memory then x else .ok r) ↔ (memory → Safe x) := by
  cases memory with
  | false => exact ⟨fun _ h => (nomatch h), fun _ => Checked.safe_ok _⟩
  | true => exact ⟨fun h _ => h, fun h => h rfl⟩

end

/-- **A message is read in bounds** exactly if it fits. -/
theorem processMessage_safe {C : WscCrypto} {env : Surroundings} {b : WscBlock} {msg : List UInt8}
    (m : Message) : Safe (processMessage C env b msg m) ↔ InBounds C env b msg m := by
  have hsub : ∀ {s : Reading} {f : Nat → WscBlock × Nat},
      Safe (sub s.blk.lastRx.length 12 >>= fun n => .ok (f n)) ↔ 12 ≤ s.blk.lastRx.length :=
    sub_safe_of fun _ => Checked.safe_ok _
  have hopens : ∀ {s : Reading} {hash nonce psk : Field} {f : Nat → WscBlock × Nat}
      {r : WscBlock × Nat},
      Safe (if (s.blk.regs hash).toList = (commitment C s.blk.regs nonce psk).toList then
          sub s.blk.lastRx.length 12 >>= fun n => .ok (f n)
        else .ok r) ↔ (Opens C s.blk.regs hash nonce psk → 12 ≤ s.blk.lastRx.length) := by
    intro s hash nonce psk f r
    split
    · rename_i heq
      rw [hsub]
      exact ⟨fun h _ => h, fun h => h heq⟩
    · rename_i hne
      exact ⟨fun _ h => absurd h hne, fun _ => Checked.safe_ok _⟩
  cases m with
  | m1 => exact readThen_safe.trans (and_iff_left fun _ _ => Checked.safe_ok _)
  | m2D => exact readThen_safe.trans (and_iff_left fun _ _ => Checked.safe_ok _)
  | m2 => exact readThen_safe_of_sub fun s => hsub
  | m3 => exact readThen_safe_of_sub fun s => hsub
  | m4 =>
    refine memory_safe.trans (forall_congr' fun _ => ?_)
    exact readThen_safe_of_opens (by decide) rfl fun s => hopens
  | m5 =>
    refine memory_safe.trans (forall_congr' fun _ => readThen_safe_of_sub fun s => ?_)
    refine sub_safe_of fun n => ?_
    split
    · exact Checked.safe_ok _
    · exact Checked.safe_ok _
  | m6 =>
    refine memory_safe.trans (forall_congr' fun _ => ?_)
    exact readThen_safe_of_opens (by decide) rfl fun s => hopens
  | m7 => exact memory_safe.trans (forall_congr' fun _ => readThen_safe_of_sub fun s => hsub)
  | m8 => exact memory_safe.trans (forall_congr' fun _ => readThen_safe_of_sub fun s => hsub)

/-- **When the messages are read in bounds**, the settings and the credentials that are deciphered
in them among them, whatever has been deciphered. -/
theorem messages_safe_iff (C : WscCrypto) :
    (∀ env b msg m, Safe (processMessage C env b msg m) ↔ InBounds C env b msg m) ∧
      (∀ plain s, Safe (wscParseEncrSettings plain s) ↔ SettingsBound plain) ∧
      ∀ bCheckMultiByte bEnableWpsV2 plain,
        Safe (wscProcessCredential bCheckMultiByte bEnableWpsV2 plain) ↔
          CredentialsBound bCheckMultiByte bEnableWpsV2 plain :=
  ⟨fun _ _ _ m => processMessage_safe m, fun _ _ => wscParseEncrSettings_safe,
    fun _ _ _ => wscProcessCredential_safe⟩

namespace Example

/-- Functions of no use. -/
def noCrypto : WscCrypto where
  hmacSha256 _ _ := .zero 32
  sha256 _ := .zero 32
  dhPublicKey _ _ := .zero 192
  dhSecretKey _ _ _ := .zero 192
  aesDecrypt _ _ := .zero 16

/-- A registrar that has sent nothing. -/
def freshBlock : WscBlock where
  regs f := .zero f.size
  lastTx := []
  lastRx := []
  wscProfile := .zero
  wscM7Profile := .zero
  bConfiguredAP := false
  bCheckMultiByte := false
  bEnableWpsV2 := true
  staMode := true

def surroundings : Surroundings where
  random := .zero 192
  memory := true

/-- An M3 with an E-Hash1 of 33 octets, and nothing else. -/
def longHash : List UInt8 := [0x10, 0x14, 0, 33] ++ List.replicate 33 0

/-- **An attribute is copied over the end of its field.** -/
theorem not_safe_longHash : ¬ Safe (processMessage noCrypto surroundings freshBlock longHash .m3) := by
  rw [processMessage_safe]
  rintro ⟨hfits, -⟩
  have hattrs : attrsOf longHash = [{ type := wscIdEHash1, off := 4, len := 33 }] := by
    rw [attrsOf, Tlv.attrs, if_pos (by decide), Tlv.attrs, if_neg (by decide)]
    rfl
  have hbound : readBound noCrypto m3Spec longHash
      (Reading.start m3Spec (freshBlock.receive longHash))
      { type := wscIdEHash1, off := 4, len := 33 } := by
    unfold MessageFits WscBlock.receive at hfits
    dsimp only at hfits
    rw [hattrs] at hfits
    exact hfits.1
  have hlen : 33 ≤ Field.eHash1.size := (hbound .eHash1 List.mem_cons_self).2
  exact absurd hlen (by decide)

end Example

end Mt7601.Wsc
