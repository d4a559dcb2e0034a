/-
# When the check of an RSN element is exact

What an element lists (`EidStruct.pairwise`, `EidStruct.akms`: the suites its counts announce, as
far as they lie inside it) and what the access point offers say which elements are acceptable
(`Acceptable`), and which cipher and mode an accepted one stands for (`Recorded`). `Validates` says
that the check of an element reads only what belongs to the two elements, and accepts it exactly
when it is acceptable.

The counts of the peer are not compared with the length of its element, the offsets of one version
are used on an own element of the other, and the length is an octet: `validates_iff` gives the
elements on which none of this shows.
-/
import Mathlib.Data.List.GetD
import Mt7601.Ap.RsnIe

namespace Mt7601.Ap

open Wpa (AuthMode WepStatus MacTableEntry)

/-! ## 1. What an element lists -/

/-- The suites from an offset on, as many as announced, as far as they lie inside. -/
def suitesFrom (l : List UInt8) : Nat → Nat → List Suite
  | 0, _ => []
  | count + 1, off =>
    if off + 4 ≤ l.length then suiteAt l off :: suitesFrom l count (off + 4) else []

namespace EidStruct

/-- The number of pairwise suites it announces. -/
def pairwiseCount (ie : EidStruct) (v : WpaVersion) : Nat := u16 ie.octet v.ucount

/-- The offset behind the pairwise suites, where it announces the number of AKM suites. -/
def acount (ie : EidStruct) (v : WpaVersion) : Nat := v.ucast + 4 * ie.pairwiseCount v

def akmCount (ie : EidStruct) (v : WpaVersion) : Nat := u16 ie.octet (ie.acount v)

/-- The pairwise suites it lists. -/
def pairwise (ie : EidStruct) (v : WpaVersion) : List Suite :=
  if v.ucast ≤ ie.len then suitesFrom ie.octet (ie.pairwiseCount v) v.ucast else []

/-- The AKM suites it lists. -/
def akms (ie : EidStruct) (v : WpaVersion) : List Suite :=
  if ie.acount v + 2 ≤ ie.len then suitesFrom ie.octet (ie.akmCount v) (ie.acount v + 2) else []

end EidStruct

/-- The versions a BSS uses. -/
def ApSecurity.uses (ap : ApSecurity) (v : WpaVersion) : Bool :=
  ap.mixed || v == ap.primary

/-- An element of a version in use, with the group suite of the BSS, a pairwise suite it offers and
an AKM suite it offers. -/
def Acceptable (ap : ApSecurity) (ie : EidStruct) : Prop :=
  ∃ v, ie.eid = v.eid ∧ ap.uses v ∧
    v.mcast + 4 ≤ ie.len ∧ suiteAt ie.octet v.mcast = ap.groupSuite v ∧
    (∃ suite ∈ ie.pairwise v, suite ∈ (ap.pairwise v).map Prod.fst) ∧
    ap.akm v ∈ ie.akms v

/-- The entry holds the cipher of a pairwise suite both sides list, and the mode of the version. -/
def Recorded (ap : ApSecurity) (ie : EidStruct) (entry : MacTableEntry) : Prop :=
  ∃ v, ie.eid = v.eid ∧ ap.uses v ∧ entry.authMode = ap.authModeFor v ∧
    ∃ suite ∈ ie.pairwise v, (suite, entry.wepStatus) ∈ ap.pairwise v

/-- **The check is exact on an element**: it stays inside, it accepts what is acceptable and nothing
else, and what it accepts it records. -/
def Validates (ap : ApSecurity) (entry : MacTableEntry) (ie : EidStruct) : Prop :=
  ∃ code entry', apValidateRsnIe ap entry ie ie.rsnIeLen = .ok (code, entry') ∧
    (code = .success ↔ Acceptable ap ie) ∧ (code = .success → Recorded ap ie entry')

/-! ## 2. The condition -/

/-- The own octets a group suite of the version is compared with. In an own element of the other
version they are something else. -/
def ApSecurity.comparedGroup (ap : ApSecurity) (v : WpaVersion) : Suite :=
  suiteAt (ap.rsnIe v) v.mcast

/-- The own octets pairwise suites of the version are compared with, and what each stands for. -/
def ApSecurity.comparedPairwise (ap : ApSecurity) (v : WpaVersion) : List (Suite × WepStatus) :=
  if ap.wepStatus = .encryption4Enabled then
    if ap.tkipOn v then
      (suiteAt (ap.rsnIe v) v.ucast, .encryption2Enabled) ::
        if ap.aesOn v then [(suiteAt (ap.rsnIe v) (v.ucast + 4), .encryption3Enabled)] else []
    else [(suiteAt (ap.rsnIe v) v.ucast, .encryption3Enabled)]
  else [(suiteAt (ap.rsnIe v) v.ucast, ap.wepStatus)]

/-- The lists of an element are inside it as far as the check follows them: the pairwise suites, up
to one that compares equal; behind such a one the AKM count; and the AKM suites, which are compared
only with an own element of their version, up to one that is the own one. -/
def ListsInside (ap : ApSecurity) (ie : EidStruct) (v : WpaVersion) : Prop :=
  if ∃ suite ∈ ie.pairwise v, suite ∈ (ap.comparedPairwise v).map Prod.fst then
    ie.acount v + 2 ≤ ie.len ∧
      (ie.akmCount v ≠ 0 → ap.uses v ∧
        (ap.akm v ∈ ie.akms v ∨ ie.acount v + 2 + 4 * ie.akmCount v ≤ ie.len))
  else ie.acount v ≤ ie.len

/-- The check follows an element of some version inside it. -/
def FollowedInside (ap : ApSecurity) (ie : EidStruct) : Prop :=
  ∀ v, ie.eid = v.eid → 6 ≤ ie.len →
    v.mcast + 4 ≤ ie.len ∧
      (suiteAt ie.octet v.mcast = ap.comparedGroup v → 16 ≤ ie.len → ListsInside ap ie v)

/-- Up to 253 octets the element must be followed inside. The length of one with 254 becomes 0, and
it is taken for a missing one; that of one with 255 becomes 1, and it is refused. -/
def ExactOn (ap : ApSecurity) (entry : MacTableEntry) (ie : EidStruct) : Prop :=
  (ie.len ≤ 253 ∧ FollowedInside ap ie) ∨
    (ie.len = 254 ∧ Acceptable ap ie ∧ Recorded ap ie entry) ∨
    (ie.len = 255 ∧ ¬ Acceptable ap ie)

/-! ## 3. The own elements -/

theorem u16_append {front : List UInt8} {x y : UInt8} {rest : List UInt8} {n : Nat}
    (h : front.length = n) : u16 (front ++ x :: y :: rest) n = x.toNat + 256 * y.toNat := by
  subst h
  unfold u16
  rw [List.getD_append_right _ _ _ _ (Nat.le_refl _),
    List.getD_append_right _ _ _ _ (Nat.le_add_right _ _), Nat.sub_self, Nat.add_sub_cancel_left]
  rfl

theorem suiteAt_append {front suite rest : List UInt8} {n : Nat} (h : front.length = n)
    (hsuite : suite.length = 4) : suiteAt (front ++ (suite ++ rest)) n = suite := by
  subst h
  unfold suiteAt
  rw [List.drop_left, ← hsuite, List.take_left]

namespace ApSecurity

variable (ap : ApSecurity) (v : WpaVersion)

theorem length_groupSuite : (ap.groupSuite v).length = 4 := by
  unfold groupSuite
  cases v <;> split <;> rfl

theorem length_akm : (ap.akm v).length = 4 := by
  unfold akm
  cases v <;> split <;> rfl

/-- One suite, or TKIP and CCMP. -/
theorem pairwise_cases :
    (∃ c w, ap.pairwise v = [(v.oui ++ [c], w)] ∧ (c = 2 ∨ c = 4)) ∨
      ap.pairwise v = [(v.tkip, .encryption2Enabled), (v.ccmp, .encryption3Enabled)] := by
  unfold pairwise
  split
  · split
    · split
      · exact .inr rfl
      · exact .inl ⟨2, _, rfl, .inl rfl⟩
    · exact .inl ⟨4, _, rfl, .inr rfl⟩
  · split
    · exact .inl ⟨2, _, rfl, .inl rfl⟩
    · exact .inl ⟨4, _, rfl, .inr rfl⟩

theorem length_pairwise : (ap.pairwise v).length = 1 ∨ (ap.pairwise v).length = 2 := by
  rcases ap.pairwise_cases v with ⟨c, w, h, -⟩ | h <;> rw [h]
  · exact .inl rfl
  · exact .inr rfl

/-- The own element from the first pairwise suite on is long enough for two. -/
theorem length_flatMap_pairwise :
    ((ap.pairwise v).flatMap Prod.fst).length = 4 * (ap.pairwise v).length := by
  rcases ap.pairwise_cases v with ⟨c, w, h, -⟩ | h <;> rw [h] <;> cases v <;> rfl

theorem length_elementFor : (ap.elementFor v).length =
    v.ucast + 4 * (ap.pairwise v).length + 6 + (ap.rtmpMakeRsnIeCap v).length := by
  unfold elementFor rtmpMakeRsnIeCipher rtmpMakeRsnIeAkm
  simp only [List.length_append, List.length_cons, List.length_nil, length_groupSuite, length_akm,
    length_flatMap_pairwise]
  unfold WpaVersion.ucast WpaVersion.mcast
  omega

/-- The number of pairwise suites is where an element of its version has it. -/
theorem u16_ucount : u16 (ap.elementFor v) v.ucount = (ap.pairwise v).length := by
  unfold elementFor rtmpMakeRsnIeCipher
  simp only [List.append_assoc, List.cons_append, List.nil_append]
  rw [← List.append_assoc, u16_append]
  · rcases ap.length_pairwise v with h | h <;> rw [h] <;> rfl
  · rw [List.length_append, length_groupSuite]
    rfl

theorem suiteAt_mcast : suiteAt (ap.elementFor v) v.mcast = ap.groupSuite v := by
  unfold elementFor rtmpMakeRsnIeCipher
  simp only [List.append_assoc]
  exact suiteAt_append rfl (ap.length_groupSuite v)

/-- What stands in front of the AKM count. -/
theorem length_rtmpMakeRsnIeCipher :
    (ap.rtmpMakeRsnIeCipher v).length = v.ucast + 4 * (ap.pairwise v).length := by
  unfold rtmpMakeRsnIeCipher
  simp only [List.length_append, List.length_cons, List.length_nil, length_groupSuite,
    length_flatMap_pairwise]
  unfold WpaVersion.ucast WpaVersion.mcast
  omega

theorem u16_acount : u16 (ap.elementFor v) (v.ucast + 4 * (ap.pairwise v).length) = 1 := by
  unfold elementFor rtmpMakeRsnIeAkm
  simp only [List.append_assoc, List.cons_append, List.nil_append]
  exact u16_append (ap.length_rtmpMakeRsnIeCipher v)

theorem suiteAt_akm :
    suiteAt (ap.elementFor v) (v.ucast + 4 * (ap.pairwise v).length + 2) = ap.akm v := by
  unfold elementFor rtmpMakeRsnIeAkm
  rw [← List.append_assoc, List.append_assoc]
  refine suiteAt_append ?_ (ap.length_akm v)
  rw [List.length_append, length_rtmpMakeRsnIeCipher]
  rfl

/-- The suites it offers are at the offsets the check looks at. -/
theorem suiteAt_ucast (done : List (Suite × WepStatus)) {rest : List (Suite × WepStatus)}
    {suite : Suite} {w : WepStatus} (h : ap.pairwise v = done ++ (suite, w) :: rest)
    (hlen : suite.length = 4) {n : Nat}
    (hn : (done.flatMap Prod.fst).length = n) :
    suiteAt (ap.elementFor v) (v.ucast + n) = suite := by
  unfold elementFor rtmpMakeRsnIeCipher
  rw [h, List.flatMap_append, List.flatMap_cons]
  simp only [← List.append_assoc]
  rw [List.append_assoc _ (ap.rtmpMakeRsnIeAkm v), List.append_assoc _ (rest.flatMap Prod.fst),
    List.append_assoc _ suite]
  refine suiteAt_append ?_ hlen
  simp only [List.length_append, List.length_cons, List.length_nil, length_groupSuite, hn]
  unfold WpaVersion.ucast WpaVersion.mcast
  omega

/-- An element of its version is compared with the suites it offers. -/
theorem comparedPairwise_own (hown : ap.ownVersion v = v) :
    ap.comparedPairwise v = ap.pairwise v := by
  have hie : ap.rsnIe v = ap.elementFor v := by
    unfold rsnIe
    rw [hown]
  have hfirst : ∀ suite w rest, ap.pairwise v = (suite, w) :: rest → suite.length = 4 →
      suiteAt (ap.elementFor v) v.ucast = suite := by
    intro suite w rest h hlen
    exact ap.suiteAt_ucast v [] h hlen rfl
  have htkip4 : v.tkip.length = 4 := by cases v <;> rfl
  have hccmp4 : v.ccmp.length = 4 := by cases v <;> rfl
  unfold comparedPairwise
  rw [hie]
  by_cases hmix : ap.wepStatus = .encryption4Enabled
  · by_cases htkip : ap.tkipOn v = true
    · by_cases haes : ap.aesOn v = true
      · have hpair : ap.pairwise v =
            [(v.tkip, .encryption2Enabled), (v.ccmp, .encryption3Enabled)] := by
          unfold pairwise
          rw [if_pos hmix, if_pos htkip, if_pos haes]
        have hsecond := ap.suiteAt_ucast v [(v.tkip, .encryption2Enabled)] hpair hccmp4
          (n := 4) (by rw [List.flatMap_cons, List.flatMap_nil, List.append_nil, htkip4])
        rw [if_pos hmix, if_pos htkip, if_pos haes, hfirst _ _ _ hpair htkip4, hsecond, hpair]
      · have hpair : ap.pairwise v = [(v.tkip, .encryption2Enabled)] := by
          unfold pairwise
          rw [if_pos hmix, if_pos htkip, if_neg haes]
        rw [if_pos hmix, if_pos htkip, if_neg haes, hfirst _ _ _ hpair htkip4, hpair]
    · have hpair : ap.pairwise v = [(v.ccmp, .encryption3Enabled)] := by
        unfold pairwise
        rw [if_pos hmix, if_neg htkip]
      rw [if_pos hmix, if_neg htkip, hfirst _ _ _ hpair hccmp4, hpair]
  · rw [if_neg hmix]
    rcases ap.isCipher with hcipher | hcipher | hcipher
    · have hpair : ap.pairwise v = [(v.tkip, .encryption2Enabled)] := by
        unfold pairwise
        rw [if_neg hmix, if_pos hcipher]
      rw [hfirst _ _ _ hpair htkip4, hpair, hcipher]
    · have hpair : ap.pairwise v = [(v.ccmp, .encryption3Enabled)] := by
        unfold pairwise
        rw [if_neg hmix, if_neg (by rw [hcipher]; decide)]
      rw [hfirst _ _ _ hpair hccmp4, hpair, hcipher]
    · exact absurd hcipher hmix

theorem comparedGroup_own (hown : ap.ownVersion v = v) : ap.comparedGroup v = ap.groupSuite v := by
  unfold comparedGroup rsnIe
  rw [hown]
  exact ap.suiteAt_mcast v

/-- The versions a BSS uses are those it has an element for. -/
theorem ownVersion_eq_iff : ap.ownVersion v = v ↔ ap.uses v = true := by
  have hmode := ap.isWpa
  unfold ownVersion uses primary mixed
  revert hmode
  cases ap.authMode <;> cases v <;> decide

/-- Every read of the own element in front of the AKM suites is inside it. -/
theorem length_rsnIe : v.ucast + 8 ≤ (ap.rsnIe v).length := by
  unfold rsnIe
  rw [length_elementFor]
  have hlen := ap.length_pairwise (ap.ownVersion v)
  revert hlen
  cases v <;> cases ap.ownVersion _ <;> intro hlen <;>
    simp only [rtmpMakeRsnIeCap, WpaVersion.ucast, WpaVersion.mcast, WpaVersion.front,
      List.length_cons, List.length_nil] <;> omega

end ApSecurity

/-! ## 4. What each check comes to -/

theorem readSuite_ok {l : List UInt8} {off : Nat} (h : off + 4 ≤ l.length) :
    readSuite l off = .ok (suiteAt l off) := by
  unfold readSuite
  rw [Checked.access_ok h]
  rfl

theorem readSuite_error {l : List UInt8} {off : Nat} (h : ¬ off + 4 ≤ l.length) :
    readSuite l off = .error .outside := by
  unfold readSuite
  rw [Checked.access_error (Nat.lt_of_not_le h)]
  rfl

theorem readU16_ok {l : List UInt8} {off : Nat} (h : off + 2 ≤ l.length) :
    readU16 l off = .ok (u16 l off) := by
  unfold readU16
  rw [Checked.access_ok h]
  rfl

theorem readU16_error {l : List UInt8} {off : Nat} (h : ¬ off + 2 ≤ l.length) :
    readU16 l off = .error .outside := by
  unfold readU16
  rw [Checked.access_error (Nat.lt_of_not_le h)]
  rfl

section

variable {ap : ApSecurity} {ie : EidStruct} {v : WpaVersion}

/-- The suites of an element, in a list of pairs: the first that compares equal. -/
def firstMatch (own : List (Suite × WepStatus)) (sta : Suite) : Option WepStatus :=
  (own.find? fun o => o.1 = sta).map Prod.snd

theorem firstMatch_eq_some {own : List (Suite × WepStatus)} {sta : Suite} {w : WepStatus}
    (h : firstMatch own sta = some w) : (sta, w) ∈ own := by
  unfold firstMatch at h
  obtain ⟨o, hfind, rfl⟩ := Option.map_eq_some_iff.mp h
  have hsuite := List.find?_some hfind
  rw [decide_eq_true_eq] at hsuite
  rw [← hsuite]
  exact List.mem_of_find?_eq_some hfind

theorem firstMatch_eq_none {own : List (Suite × WepStatus)} {sta : Suite} :
    firstMatch own sta = none ↔ sta ∉ own.map Prod.fst := by
  unfold firstMatch
  rw [Option.map_eq_none_iff, List.find?_eq_none]
  constructor
  · intro h hmem
    obtain ⟨o, ho, rfl⟩ := List.mem_map.mp hmem
    exact h o ho (decide_eq_true rfl)
  · intro h o ho heq
    exact h (List.mem_map.mpr ⟨o, ho, of_decide_eq_true heq⟩)

@[simp] theorem firstMatch_nil (sta : Suite) : firstMatch [] sta = none := rfl

@[simp] theorem firstMatch_cons (suite : Suite) (w : WepStatus) (own : List (Suite × WepStatus))
    (sta : Suite) : firstMatch ((suite, w) :: own) sta =
      if sta = suite then some w else firstMatch own sta := by
  unfold firstMatch
  rw [List.find?_cons]
  by_cases h : sta = suite
  · rw [if_pos h, decide_eq_true h.symm]
    rfl
  · rw [if_neg h, decide_eq_false (Ne.symm h)]

/-- A pairwise suite is looked up in the suites compared. -/
theorem matchUcast_eq (sta : Suite) :
    matchUcast ap v sta = .ok (firstMatch (ap.comparedPairwise v) sta) := by
  have hlen := ap.length_rsnIe v
  unfold matchUcast ApSecurity.comparedPairwise
  rw [readSuite_ok (by omega), readSuite_ok (by omega)]
  simp only [Checked.ok_bind]
  by_cases hmix : ap.wepStatus = .encryption4Enabled
  · by_cases htkip : ap.tkipOn v = true
    · by_cases haes : ap.aesOn v = true
      · simp only [if_pos hmix, if_pos htkip, if_pos haes, firstMatch_cons, firstMatch_nil]
        split <;> rfl
      · simp only [if_pos hmix, if_pos htkip, if_neg haes, firstMatch_cons, firstMatch_nil]
        split <;> rfl
    · simp only [if_pos hmix, if_neg htkip, firstMatch_cons, firstMatch_nil]
      rfl
  · simp only [if_neg hmix, firstMatch_cons, firstMatch_nil]
    rfl

/-- The loop over the pairwise suites finds the first inside that compares equal; without one it
must not leave the element. -/
theorem ucastLoop_eq {octet : List UInt8} (count : Nat) {off : Nat} (hoff : off ≤ octet.length) :
    ucastLoop ap v octet count off =
      match (suitesFrom octet count off).findSome? (firstMatch (ap.comparedPairwise v)) with
      | some w => .ok (some w)
      | none => if off + 4 * count ≤ octet.length then .ok none else .error .outside := by
  induction count generalizing off with
  | zero =>
    rw [if_pos (by omega)]
    rfl
  | succ count ih =>
    rw [ucastLoop, suitesFrom]
    by_cases hin : off + 4 ≤ octet.length
    · rw [readSuite_ok hin, if_pos hin, List.findSome?_cons, Checked.ok_bind, matchUcast_eq,
        Checked.ok_bind]
      cases firstMatch (ap.comparedPairwise v) (suiteAt octet off) with
      | some w => rfl
      | none =>
        dsimp only
        rw [ih hin]
        have harith : off + 4 + 4 * count = off + 4 * (count + 1) := by omega
        rw [harith]
    · rw [readSuite_error hin, if_neg hin, List.findSome?_nil]
      dsimp only
      rw [if_neg (by omega)]
      rfl

/-- In an element of its own version the comparison of an AKM suite is with the one offered. -/
theorem rtmpCheckAkm_own {octet : List UInt8} {off : Nat} (huses : ap.uses v = true) :
    rtmpCheckAkm octet off (ap.rsnIe v) v =
      if off + 4 ≤ octet.length then .ok (decide (suiteAt octet off = ap.akm v))
      else .error .outside := by
  have hie : ap.rsnIe v = ap.elementFor v := by
    unfold ApSecurity.rsnIe
    rw [(ap.ownVersion_eq_iff v).mpr huses]
  have hlen := ap.length_elementFor v
  have hucount : v.ucount + 2 = v.ucast := by cases v <;> rfl
  unfold rtmpCheckAkm
  rw [hie, readU16_ok (by omega), Checked.ok_bind, ap.u16_ucount, readU16_ok (by omega),
    Checked.ok_bind, ap.u16_acount, akmLoop]
  by_cases hin : off + 4 ≤ octet.length
  · rw [readSuite_ok hin, if_pos hin, Checked.ok_bind, readSuite_ok (by omega), Checked.ok_bind,
      ap.suiteAt_akm]
    split
    · rename_i heq
      rw [decide_eq_true heq]
      rfl
    · rename_i hne
      rw [decide_eq_false hne]
      rfl
  · rw [readSuite_error hin, if_neg hin]
    rfl

/-- The third and fourth octet of its first pairwise suite stand at offset 10 of a WPA2 element,
where one for WPA has the number of them. -/
theorem elementFor_wpa2 (ap : ApSecurity) : ∃ front c rest,
    ap.elementFor .wpa2 = front ++ 0xac :: c :: rest ∧ front.length = 10 := by
  have hfirst : ∃ c rest, (ap.pairwise .wpa2).flatMap Prod.fst = 0x00 :: 0x0f :: 0xac :: c :: rest := by
    rcases ap.pairwise_cases .wpa2 with ⟨c, w, h, -⟩ | h <;> rw [h] <;> exact ⟨_, _, rfl⟩
  obtain ⟨c, rest, hpair⟩ := hfirst
  refine ⟨[1, 0] ++ ap.groupSuite .wpa2 ++ [UInt8.ofNat (ap.pairwise .wpa2).length, 0, 0x00, 0x0f],
    c, rest ++ ap.rtmpMakeRsnIeAkm .wpa2 ++ ap.rtmpMakeRsnIeCap .wpa2, ?_, ?_⟩
  · unfold ApSecurity.elementFor ApSecurity.rtmpMakeRsnIeCipher
    rw [hpair]
    simp [WpaVersion.front]
  · simp [ap.length_groupSuite]

/-- The first two octets of its group suite stand at offset 6 of a WPA element, where one for WPA2
has the number of pairwise suites. -/
theorem elementFor_wpa (ap : ApSecurity) : ∃ front rest,
    ap.elementFor .wpa = front ++ 0x00 :: 0x50 :: rest ∧ front.length = 6 := by
  have hgroup : ∃ rest, ap.groupSuite .wpa = 0x00 :: 0x50 :: rest := by
    unfold ApSecurity.groupSuite
    split <;> exact ⟨_, rfl⟩
  obtain ⟨rest, hgroup⟩ := hgroup
  refine ⟨WpaVersion.wpa.front, rest ++ [UInt8.ofNat (ap.pairwise .wpa).length, 0] ++
    (ap.pairwise .wpa).flatMap Prod.fst ++ ap.rtmpMakeRsnIeAkm .wpa ++ ap.rtmpMakeRsnIeCap .wpa,
    ?_, rfl⟩
  unfold ApSecurity.elementFor ApSecurity.rtmpMakeRsnIeCipher
  rw [hgroup]
  simp

/-- Read at the place the number of pairwise suites has in the other version, an own element
announces hundreds of them. -/
theorem u16_ucount_foreign (hforeign : ap.uses v = false) : 100 ≤ u16 (ap.rsnIe v) v.ucount := by
  have hne : ap.ownVersion v ≠ v := by
    rw [Ne, ap.ownVersion_eq_iff, hforeign]
    decide
  unfold ApSecurity.rsnIe
  cases v with
  | wpa =>
    have hown : ap.ownVersion .wpa = .wpa2 := by
      cases h : ap.ownVersion .wpa with
      | wpa => exact absurd h hne
      | wpa2 => rfl
    obtain ⟨front, c, rest, heq, hlen⟩ := elementFor_wpa2 ap
    rw [hown, heq]
    have hread : u16 (front ++ 0xac :: c :: rest) 10 = _ := u16_append hlen
    have hac : (0xac : UInt8).toNat = 172 := rfl
    change 100 ≤ u16 _ 10
    omega
  | wpa2 =>
    have hown : ap.ownVersion .wpa2 = .wpa := by
      cases h : ap.ownVersion .wpa2 with
      | wpa => rfl
      | wpa2 => exact absurd h hne
    obtain ⟨front, rest, heq, hlen⟩ := elementFor_wpa ap
    rw [hown, heq]
    have hread : u16 (front ++ 0x00 :: 0x50 :: rest) 6 = _ := u16_append hlen
    have h50 : (0x50 : UInt8).toNat = 80 := rfl
    change 100 ≤ u16 _ 6
    omega

/-- Behind so many suites there is nothing left of an own element. -/
theorem rtmpCheckAkm_foreign {octet : List UInt8} {off : Nat} (hforeign : ap.uses v = false) :
    rtmpCheckAkm octet off (ap.rsnIe v) v = .error .outside := by
  have hmany := u16_ucount_foreign hforeign
  have hlong := ap.length_rsnIe v
  have hucount : v.ucount + 2 = v.ucast := by cases v <;> rfl
  have hshort : (ap.rsnIe v).length ≤ 30 := by
    unfold ApSecurity.rsnIe
    rw [ApSecurity.length_elementFor]
    have hpair := ap.length_pairwise (ap.ownVersion v)
    revert hpair
    cases ap.ownVersion v <;> intro hpair <;>
      simp only [ApSecurity.rtmpMakeRsnIeCap, WpaVersion.ucast, WpaVersion.mcast, WpaVersion.front,
        List.length_cons, List.length_nil] <;> omega
  unfold rtmpCheckAkm
  rw [readU16_ok (by omega), Checked.ok_bind, readU16_error (by omega)]
  rfl

/-- The loop over the AKM suites of an element of a version in use. -/
theorem authLoop_own {octet : List UInt8} (huses : ap.uses v = true) (count : Nat) {off : Nat}
    (hoff : off ≤ octet.length) :
    authLoop ap v octet count off =
      if ap.akm v ∈ suitesFrom octet count off then .ok true
      else if off + 4 * count ≤ octet.length then .ok false else .error .outside := by
  induction count generalizing off with
  | zero =>
    rw [if_neg (by simp [suitesFrom]), if_pos (by omega)]
    rfl
  | succ count ih =>
    rw [authLoop, suitesFrom, rtmpCheckAkm_own huses]
    by_cases hin : off + 4 ≤ octet.length
    · rw [if_pos hin, if_pos hin, Checked.ok_bind]
      by_cases heq : suiteAt octet off = ap.akm v
      · rw [decide_eq_true heq, if_pos rfl, if_pos (by rw [heq]; exact List.mem_cons_self)]
        rfl
      · have hmem : ap.akm v ∈ suiteAt octet off :: suitesFrom octet count (off + 4) ↔
            ap.akm v ∈ suitesFrom octet count (off + 4) := by
          rw [List.mem_cons]
          exact or_iff_right (Ne.symm heq)
        rw [decide_eq_false heq, if_neg (by decide), ih hin]
        simp only [hmem]
        have harith : off + 4 + 4 * count = off + 4 * (count + 1) := by omega
        rw [harith]
    · rw [if_neg hin, if_neg hin, if_neg (by simp), if_neg (by omega)]
      rfl

/-- An AKM suite of the other version takes the check out of the own element. -/
theorem authLoop_foreign {octet : List UInt8} (hforeign : ap.uses v = false) {count : Nat}
    (hcount : count ≠ 0) {off : Nat} : authLoop ap v octet count off = .error .outside := by
  obtain ⟨count, rfl⟩ := Nat.exists_eq_succ_of_ne_zero hcount
  rw [authLoop, rtmpCheckAkm_foreign hforeign]
  rfl

/-! ## 5. The element as a whole -/

theorem WpaVersion.ofEid_eq_some {eid : UInt8} :
    WpaVersion.ofEid eid = some v ↔ eid = v.eid := by
  unfold WpaVersion.ofEid
  cases v with
  | wpa =>
    constructor
    · intro h
      by_contra hne
      rw [if_neg hne] at h
      split at h <;> exact nomatch h
    · intro h
      rw [if_pos h]
  | wpa2 =>
    constructor
    · intro h
      split at h
      · exact nomatch h
      · split at h
        · assumption
        · exact nomatch h
    · rintro rfl
      rfl

theorem WpaVersion.ofEid_eq_none {eid : UInt8} :
    WpaVersion.ofEid eid = none ↔ ∀ v : WpaVersion, eid ≠ v.eid := by
  constructor
  · intro h v hv
    rw [ofEid_eq_some.mpr hv] at h
    exact nomatch h
  · intro h
    cases hv : ofEid eid with
    | none => rfl
    | some v => exact absurd (ofEid_eq_some.mp hv) (h v)

theorem WpaVersion.eid_injective {v v' : WpaVersion} (h : v.eid = v'.eid) : v = v' := by
  have h' := ofEid_eq_some.mpr h
  rw [ofEid_eq_some.mpr rfl] at h'
  exact Option.some.inj h'

/-- `RTMPCheckUcast` on an element that is long enough for it. -/
theorem rtmpCheckUcast_eq {entry : MacTableEntry} (hv : ie.eid = v.eid) (h16 : 16 ≤ ie.len) :
    rtmpCheckUcast ap ie entry =
      match (ie.pairwise v).findSome? (firstMatch (ap.comparedPairwise v)) with
      | some w => .ok (true, { entry with wepStatus := w })
      | none =>
        if ie.acount v ≤ ie.len then .ok (false, { entry with wepStatus := ap.wepStatus })
        else .error .outside := by
  have hucount : v.ucount + 2 = v.ucast := by cases v <;> rfl
  have hucast : v.ucast ≤ 12 := by cases v <;> decide
  unfold EidStruct.len at h16
  unfold rtmpCheckUcast EidStruct.pairwise EidStruct.acount EidStruct.pairwiseCount EidStruct.len
  rw [WpaVersion.ofEid_eq_some.mpr hv, if_neg (by omega), if_pos (by omega)]
  dsimp only
  rw [readU16_ok (by omega), Checked.ok_bind, ucastLoop_eq _ (by omega)]
  split
  · rfl
  · split <;> rfl

/-- `RTMPCheckAUTH` on an element that is long enough for it. -/
theorem rtmpCheckAuth_eq (hv : ie.eid = v.eid) (h16 : 16 ≤ ie.len) :
    rtmpCheckAuth ap ie =
      if ie.acount v + 2 ≤ ie.len then
        authLoop ap v ie.octet (ie.akmCount v) (ie.acount v + 2)
      else .error .outside := by
  have hucount : v.ucount + 2 = v.ucast := by cases v <;> rfl
  have hucast : v.ucast ≤ 12 := by cases v <;> decide
  unfold EidStruct.len at h16
  unfold rtmpCheckAuth EidStruct.akmCount EidStruct.acount EidStruct.pairwiseCount EidStruct.len
  rw [WpaVersion.ofEid_eq_some.mpr hv, if_neg (by omega)]
  dsimp only
  rw [readU16_ok (by omega), Checked.ok_bind]
  by_cases hin : v.ucast + 4 * u16 ie.octet v.ucount + 2 ≤ ie.octet.1.length
  · rw [readU16_ok hin, if_pos hin]
    rfl
  · rw [readU16_error hin, if_neg hin]
    rfl

/-- What the three checks make of an element whose length fits. -/
theorem apValidateRsnIe_eq {entry : MacTableEntry} (hfit : ie.len ≤ 253) :
    apValidateRsnIe ap entry ie ie.rsnIeLen = (do
      let (group, entry) ← rtmpCheckMcast ap ie entry
      if !group then return (.invalidGroupCipher, entry)
      else
        let (pairwise, entry) ← rtmpCheckUcast ap ie entry
        if !pairwise then return (.invalidPairwiseCipher, entry)
        else
          let akm ← rtmpCheckAuth ap ie
          return (if akm then .success else .invalidAkmp, entry)) := by
  have hlen : ie.rsnIeLen.toNat = ie.len + 2 := by
    unfold EidStruct.rsnIeLen
    rw [UInt8.toNat_ofNat']
    omega
  have hne : ie.rsnIeLen ≠ 0 := by
    intro h0
    rw [h0] at hlen
    exact absurd hlen (by simp)
  unfold apValidateRsnIe
  rw [if_neg hne, if_neg (by rw [hlen]; simp)]

/-- Acceptability of an element of a known version. -/
theorem acceptable_iff (hv : ie.eid = v.eid) :
    Acceptable ap ie ↔ ap.uses v = true ∧ v.mcast + 4 ≤ ie.len ∧
      suiteAt ie.octet v.mcast = ap.groupSuite v ∧
      (∃ suite ∈ ie.pairwise v, suite ∈ (ap.pairwise v).map Prod.fst) ∧
      ap.akm v ∈ ie.akms v := by
  constructor
  · rintro ⟨v', hv', h⟩
    rw [WpaVersion.eid_injective (hv.symm.trans hv')]
    exact h
  · intro h
    exact ⟨v, hv, h⟩

/-- An element that lists a pairwise and an AKM suite is long enough for every check. -/
theorem length_of_akm_mem {suite : Suite} (hpair : ∃ suite, suite ∈ ie.pairwise v)
    (hakm : suite ∈ ie.akms v) : 16 ≤ ie.len := by
  obtain ⟨s, hs⟩ := hpair
  unfold EidStruct.pairwise at hs
  unfold EidStruct.akms at hakm
  split at hs
  · split at hakm
    · rename_i h h'
      have hcount : ie.pairwiseCount v ≠ 0 := by
        intro h0
        rw [h0] at hs
        exact absurd hs (by simp [suitesFrom])
      have hacount : ie.akmCount v ≠ 0 := by
        intro h0
        rw [h0] at hakm
        exact absurd hakm (by simp [suitesFrom])
      obtain ⟨count, hc⟩ := Nat.exists_eq_succ_of_ne_zero hacount
      rw [hc, suitesFrom] at hakm
      split at hakm
      · rename_i hin
        have hucast : 8 ≤ v.ucast := by cases v <;> decide
        unfold EidStruct.acount at hin
        unfold EidStruct.len
        omega
      · exact nomatch hakm
    · exact nomatch hakm
  · exact nomatch hs

/-! ## 6. The condition is the right one -/

/-- What `Validates` asks of an outcome. -/
def ExactOutcome (ap : ApSecurity) (ie : EidStruct) (r : Checked (AssocStatus × MacTableEntry)) :
    Prop :=
  ∃ code entry, r = .ok (code, entry) ∧ (code = .success ↔ Acceptable ap ie) ∧
    (code = .success → Recorded ap ie entry)

theorem not_exactOutcome_error {f : Checked.Fault} : ¬ ExactOutcome ap ie (.error f) := by
  rintro ⟨code, entry, h, -⟩
  exact nomatch h

theorem exactOutcome_refused {code : AssocStatus} {entry : MacTableEntry} (hcode : code ≠ .success) :
    ExactOutcome ap ie (.ok (code, entry)) ↔ ¬ Acceptable ap ie := by
  constructor
  · rintro ⟨code', entry', h, hiff, -⟩ hacc
    cases h
    exact hcode (hiff.mpr hacc)
  · intro hno
    exact ⟨code, entry, rfl, ⟨fun h => absurd h hcode, fun h => absurd h hno⟩,
      fun h => absurd h hcode⟩

theorem exactOutcome_success {entry : MacTableEntry} :
    ExactOutcome ap ie (.ok (.success, entry)) ↔ Acceptable ap ie ∧ Recorded ap ie entry := by
  constructor
  · rintro ⟨code', entry', h, hiff, hrec⟩
    cases h
    exact ⟨hiff.mp rfl, hrec rfl⟩
  · rintro ⟨hacc, hrec⟩
    exact ⟨.success, entry, rfl, ⟨fun _ => hacc, fun _ => rfl⟩, fun _ => hrec⟩

/-- The AKM part: behind a pairwise suite that compared equal. -/
theorem exactOutcome_auth (entry : MacTableEntry) {suite : Suite} (hv : ie.eid = v.eid)
    (h16 : 16 ≤ ie.len) (hgroup : suiteAt ie.octet v.mcast = ap.comparedGroup v)
    (hmode : entry.authMode = ap.authModeFor v) (hmem : suite ∈ ie.pairwise v)
    (hsuite : (suite, entry.wepStatus) ∈ ap.comparedPairwise v) :
    ExactOutcome ap ie (do
      let akm ← rtmpCheckAuth ap ie
      return (if akm then .success else .invalidAkmp, entry)) ↔
    ie.acount v + 2 ≤ ie.len ∧ (ie.akmCount v ≠ 0 → ap.uses v = true ∧
      (ap.akm v ∈ ie.akms v ∨ ie.acount v + 2 + 4 * ie.akmCount v ≤ ie.len)) := by
  have hakmp : AssocStatus.invalidAkmp ≠ .success := by decide
  rw [rtmpCheckAuth_eq hv h16]
  by_cases hin : ie.acount v + 2 ≤ ie.len
  swap
  · rw [if_neg hin]
    exact ⟨fun h => absurd h not_exactOutcome_error, fun h => absurd h.1 hin⟩
  rw [if_pos hin]
  have hakms : ie.akms v = suitesFrom ie.octet (ie.akmCount v) (ie.acount v + 2) := by
    unfold EidStruct.akms
    rw [if_pos hin]
  by_cases hcount : ie.akmCount v = 0
  · -- no AKM suite: refused, and nothing to accept it for
    rw [hcount, authLoop]
    have hno : ¬ Acceptable ap ie := by
      rw [acceptable_iff hv, hakms, hcount]
      rintro ⟨-, -, -, -, hakm⟩
      exact nomatch hakm
    exact ⟨fun _ => ⟨hin, fun h => absurd rfl h⟩, fun _ => (exactOutcome_refused hakmp).mpr hno⟩
  by_cases huses : ap.uses v = true
  swap
  · rw [Bool.not_eq_true] at huses
    rw [authLoop_foreign huses hcount]
    refine ⟨fun h => absurd h not_exactOutcome_error, fun h => ?_⟩
    rw [huses] at h
    exact absurd (h.2 hcount).1 (by decide)
  have hown := (ap.ownVersion_eq_iff v).mpr huses
  rw [authLoop_own huses _ hin, ← hakms]
  by_cases hakm : ap.akm v ∈ ie.akms v
  · rw [if_pos hakm]
    rw [ap.comparedPairwise_own v hown] at hsuite
    rw [ap.comparedGroup_own v hown] at hgroup
    have hmcast : v.mcast + 4 ≤ ie.len := by cases v <;> exact Nat.le_trans (by decide) h16
    have hacc : Acceptable ap ie := (acceptable_iff hv).mpr
      ⟨huses, hmcast, hgroup, ⟨suite, hmem, List.mem_map_of_mem hsuite⟩, hakm⟩
    have hrec : Recorded ap ie entry := ⟨v, hv, huses, hmode, suite, hmem, hsuite⟩
    exact ⟨fun _ => ⟨hin, fun _ => ⟨huses, .inl hakm⟩⟩,
      fun _ => exactOutcome_success.mpr ⟨hacc, hrec⟩⟩
  · rw [if_neg hakm]
    have hno : ¬ Acceptable ap ie := fun h => hakm ((acceptable_iff hv).mp h).2.2.2.2
    by_cases hall : ie.acount v + 2 + 4 * ie.akmCount v ≤ ie.octet.1.length
    · rw [if_pos hall]
      exact ⟨fun _ => ⟨hin, fun _ => ⟨huses, .inr hall⟩⟩,
        fun _ => (exactOutcome_refused hakmp).mpr hno⟩
    · rw [if_neg hall]
      refine ⟨fun h => absurd h not_exactOutcome_error, fun h => ?_⟩
      rcases (h.2 hcount).2 with hmem | hle
      · exact absurd hmem hakm
      · exact absurd hle hall

/-- The lists: behind a group suite that compared equal. -/
theorem exactOutcome_lists (entry : MacTableEntry) (hv : ie.eid = v.eid) (h16 : 16 ≤ ie.len)
    (hgroup : suiteAt ie.octet v.mcast = ap.comparedGroup v)
    (hmode : entry.authMode = ap.authModeFor v) :
    ExactOutcome ap ie (do
      let (pairwise, entry) ← rtmpCheckUcast ap ie entry
      if !pairwise then return (.invalidPairwiseCipher, entry)
      else
        let akm ← rtmpCheckAuth ap ie
        return (if akm then .success else .invalidAkmp, entry)) ↔ ListsInside ap ie v := by
  have hcipher : AssocStatus.invalidPairwiseCipher ≠ .success := by decide
  rw [rtmpCheckUcast_eq hv h16]
  unfold ListsInside
  cases hfind : (ie.pairwise v).findSome? (firstMatch (ap.comparedPairwise v)) with
  | some w =>
    obtain ⟨suite, hmem, hmatch⟩ := List.exists_of_findSome?_eq_some hfind
    have hsuite := firstMatch_eq_some hmatch
    dsimp only
    rw [if_pos ⟨suite, hmem, List.mem_map_of_mem hsuite⟩]
    exact exactOutcome_auth { entry with wepStatus := w } hv h16 hgroup hmode hmem hsuite
  | none =>
    have hnone : ¬ ∃ suite ∈ ie.pairwise v, suite ∈ (ap.comparedPairwise v).map Prod.fst := by
      rintro ⟨suite, hmem, hsuite⟩
      exact firstMatch_eq_none.mp (List.findSome?_eq_none_iff.mp hfind suite hmem) hsuite
    rw [if_neg hnone]
    dsimp only
    by_cases hin : ie.acount v ≤ ie.len
    · rw [if_pos hin]
      have hno : ¬ Acceptable ap ie := by
        intro hacc
        obtain ⟨huses, -, -, hpair, -⟩ := (acceptable_iff hv).mp hacc
        rw [← ap.comparedPairwise_own v ((ap.ownVersion_eq_iff v).mpr huses)] at hpair
        exact hnone hpair
      exact ⟨fun _ => hin, fun _ => (exactOutcome_refused hcipher).mpr hno⟩
    · rw [if_neg hin]
      exact ⟨fun h => absurd h not_exactOutcome_error, fun h => absurd h hin⟩

/-- The element from the start: an element of a known version. -/
theorem exactOutcome_version {entry : MacTableEntry} (hv : ie.eid = v.eid) (hfit : ie.len ≤ 253) :
    ExactOutcome ap ie (apValidateRsnIe ap entry ie ie.rsnIeLen) ↔
      (6 ≤ ie.len → v.mcast + 4 ≤ ie.len ∧
        (suiteAt ie.octet v.mcast = ap.comparedGroup v → 16 ≤ ie.len → ListsInside ap ie v)) := by
  have hgroup : AssocStatus.invalidGroupCipher ≠ .success := by decide
  have hcipher : AssocStatus.invalidPairwiseCipher ≠ .success := by decide
  have hown : v.mcast + 4 ≤ (ap.rsnIe v).length := by
    have h := ap.length_rsnIe v
    unfold WpaVersion.ucast at h
    omega
  rw [apValidateRsnIe_eq hfit, rtmpCheckMcast]
  by_cases h6 : 6 ≤ ie.len
  swap
  · -- too short for a group suite
    rw [if_neg h6]
    have hno : ¬ Acceptable ap ie := by
      intro hacc
      have hin := ((acceptable_iff hv).mp hacc).2.1
      exact h6 (Nat.le_trans (by cases v <;> decide) hin)
    exact ⟨fun _ h => absurd h h6, fun _ => (exactOutcome_refused hgroup).mpr hno⟩
  rw [if_pos h6, WpaVersion.ofEid_eq_some.mpr hv]
  dsimp only
  unfold sameMcast
  by_cases hin : v.mcast + 4 ≤ ie.len
  swap
  · rw [readSuite_error hin]
    exact ⟨fun h => absurd h not_exactOutcome_error, fun h => absurd (h h6).1 hin⟩
  rw [readSuite_ok hin, Checked.ok_bind, readSuite_ok hown, Checked.ok_bind]
  by_cases heq : suiteAt ie.octet v.mcast = ap.comparedGroup v
  swap
  · have hne : (suiteAt ie.octet v.mcast = suiteAt (ap.rsnIe v) v.mcast) ↔ False :=
      iff_false_intro heq
    have hno : ¬ Acceptable ap ie := by
      intro hacc
      obtain ⟨huses, -, hsuite, -⟩ := (acceptable_iff hv).mp hacc
      rw [← ap.comparedGroup_own v ((ap.ownVersion_eq_iff v).mpr huses)] at hsuite
      exact heq hsuite
    simp only [hne, decide_false]
    exact ⟨fun _ _ => ⟨hin, fun h => absurd h heq⟩,
      fun _ => (exactOutcome_refused hgroup).mpr hno⟩
  have hsame : (suiteAt ie.octet v.mcast = suiteAt (ap.rsnIe v) v.mcast) ↔ True :=
    iff_true_intro heq
  simp only [hsame, decide_true]
  by_cases h16 : 16 ≤ ie.len
  · have hlists := exactOutcome_lists
      { entry with authMode := ap.authModeFor v } hv h16 heq rfl
    exact hlists.trans ⟨fun h _ => ⟨hin, fun _ _ => h⟩, fun h => (h h6).2 heq h16⟩
  · have hno : ¬ Acceptable ap ie := by
      intro hacc
      obtain ⟨-, -, -, ⟨suite, hmem, -⟩, hakm⟩ := (acceptable_iff hv).mp hacc
      exact h16 (length_of_akm_mem ⟨suite, hmem⟩ hakm)
    unfold rtmpCheckUcast
    simp only [pure_bind, Bool.not_true, Bool.false_eq_true, if_false]
    rw [if_pos (Nat.lt_of_not_le h16)]
    exact ⟨fun _ _ => ⟨hin, fun _ h => absurd h h16⟩,
      fun _ => (exactOutcome_refused hcipher).mpr hno⟩

end

/-- **When the check is exact.** -/
theorem validates_iff (ap : ApSecurity) (entry : MacTableEntry) (ie : EidStruct) :
    Validates ap entry ie ↔ ExactOn ap entry ie := by
  have hlen : ie.len ≤ 255 := ie.octet.2
  have hunspec : AssocStatus.unspecifyFail ≠ .success := by decide
  change ExactOutcome ap ie _ ↔ _
  unfold ExactOn
  by_cases hfit : ie.len ≤ 253
  · have hrest : (ie.len = 254 ∧ Acceptable ap ie ∧ Recorded ap ie entry) ∨
        (ie.len = 255 ∧ ¬ Acceptable ap ie) ↔ False := by
      refine iff_false_intro ?_
      rintro (⟨h, -⟩ | ⟨h, -⟩) <;> omega
    rw [hrest, or_false]
    cases hv : WpaVersion.ofEid ie.eid with
    | none =>
      have hnone := WpaVersion.ofEid_eq_none.mp hv
      have hgroup : AssocStatus.invalidGroupCipher ≠ .success := by decide
      have hno : ¬ Acceptable ap ie := by
        rintro ⟨v, h, -⟩
        exact hnone v h
      rw [apValidateRsnIe_eq hfit, rtmpCheckMcast, hv]
      refine ⟨fun _ => ⟨hfit, fun v h => absurd h (hnone v)⟩, fun _ => ?_⟩
      split <;> exact (exactOutcome_refused hgroup).mpr hno
    | some v =>
      have heid := WpaVersion.ofEid_eq_some.mp hv
      rw [exactOutcome_version heid hfit]
      constructor
      · intro h
        refine ⟨hfit, fun v' h' => ?_⟩
        rw [WpaVersion.eid_injective (h'.symm.trans heid)]
        exact h
      · intro h
        exact h.2 v heid
  · rcases Nat.lt_or_ge ie.len 255 with hlt | hge
    · have h254 : ie.len = 254 := by omega
      have hzero : ie.rsnIeLen = 0 := by
        unfold EidStruct.rsnIeLen
        rw [h254]
        rfl
      unfold apValidateRsnIe
      rw [if_pos hzero]
      refine exactOutcome_success.trans ⟨fun h => .inr (.inl ⟨h254, h⟩), ?_⟩
      rintro (⟨h, -⟩ | ⟨-, h⟩ | ⟨h, -⟩)
      · omega
      · exact h
      · omega
    · have h255 : ie.len = 255 := by omega
      have hone : ie.rsnIeLen = 1 := by
        unfold EidStruct.rsnIeLen
        rw [h255]
        rfl
      unfold apValidateRsnIe
      rw [hone, if_neg (by decide), if_pos (by rw [h255]; decide)]
      refine (exactOutcome_refused hunspec).trans ⟨fun h => .inr (.inr ⟨h255, h⟩), ?_⟩
      rintro (⟨h, -⟩ | ⟨h, -⟩ | ⟨-, h⟩)
      · omega
      · omega
      · exact h

/-! ## 7. What the check writes -/

/-- `AuthMode` behind `RTMPCheckMcast`. -/
def ApSecurity.modeWritten (ap : ApSecurity) (ie : EidStruct) : AuthMode :=
  match WpaVersion.ofEid ie.eid with
  | some v => if 6 ≤ ie.len then ap.authModeFor v else ap.authMode
  | none => ap.authMode

/-- The group suite is there and compares equal. -/
def ApSecurity.groupPasses (ap : ApSecurity) (ie : EidStruct) : Bool :=
  match WpaVersion.ofEid ie.eid with
  | some v => 6 ≤ ie.len ∧ suiteAt ie.octet v.mcast = ap.comparedGroup v
  | none => false

/-- `WepStatus` behind `RTMPCheckUcast`: the cipher of the first pairwise suite inside the element
that compares equal, or that of the BSS. -/
def ApSecurity.cipherWritten (ap : ApSecurity) (ie : EidStruct) : WepStatus :=
  match WpaVersion.ofEid ie.eid with
  | some v =>
    if 16 ≤ ie.len then
      ((ie.pairwise v).findSome? (firstMatch (ap.comparedPairwise v))).getD ap.wepStatus
    else ap.wepStatus
  | none => ap.wepStatus

theorem rtmpCheckMcast_writes {ap : ApSecurity} {ie : EidStruct} {entry checked : MacTableEntry}
    {passed : Bool} (h : rtmpCheckMcast ap ie entry = .ok (passed, checked)) :
    passed = ap.groupPasses ie ∧ checked = { entry with authMode := ap.modeWritten ie } := by
  unfold rtmpCheckMcast at h
  unfold ApSecurity.groupPasses ApSecurity.modeWritten
  by_cases h6 : 6 ≤ ie.len
  · rw [if_pos h6] at h
    cases hv : WpaVersion.ofEid ie.eid with
    | none =>
      rw [hv] at h
      cases h
      exact ⟨rfl, rfl⟩
    | some v =>
      rw [hv] at h
      have hown : v.mcast + 4 ≤ (ap.rsnIe v).length := by
        have hlen := ap.length_rsnIe v
        unfold WpaVersion.ucast at hlen
        omega
      dsimp only at h ⊢
      unfold sameMcast at h
      by_cases hin : v.mcast + 4 ≤ ie.len
      · rw [readSuite_ok hin, Checked.ok_bind, readSuite_ok hown, Checked.ok_bind] at h
        cases h
        refine ⟨decide_eq_decide.mpr ⟨fun heq => ⟨h6, heq⟩, fun heq => heq.2⟩, ?_⟩
        rw [if_pos h6]
      · rw [readSuite_error hin] at h
        exact nomatch h
  · rw [if_neg h6] at h
    cases h
    cases WpaVersion.ofEid ie.eid with
    | none => exact ⟨rfl, rfl⟩
    | some v =>
      dsimp only
      rw [if_neg h6, decide_eq_false (fun hno => h6 hno.1)]
      exact ⟨rfl, rfl⟩

theorem rtmpCheckUcast_writes {ap : ApSecurity} {ie : EidStruct} {entry checked : MacTableEntry}
    {passed : Bool} (h : rtmpCheckUcast ap ie entry = .ok (passed, checked)) :
    checked = { entry with wepStatus := ap.cipherWritten ie } := by
  unfold ApSecurity.cipherWritten
  by_cases h16 : 16 ≤ ie.len
  · cases hv : WpaVersion.ofEid ie.eid with
    | none =>
      unfold rtmpCheckUcast at h
      rw [if_neg (Nat.not_lt.mpr h16), hv] at h
      cases h
      rfl
    | some v =>
      rw [rtmpCheckUcast_eq (WpaVersion.ofEid_eq_some.mp hv) h16] at h
      dsimp only
      rw [if_pos h16]
      split at h
      · rename_i hfind
        cases h
        rw [hfind]
        rfl
      · rename_i hfind
        rw [hfind]
        split at h
        · cases h
          rfl
        · exact nomatch h
  · unfold rtmpCheckUcast at h
    rw [if_pos (Nat.lt_of_not_le h16)] at h
    cases h
    split
    · rw [if_neg h16]
    · rfl

/-- **What the check writes**, wherever it ends: the mode, and behind the group suite the cipher. -/
theorem apValidateRsnIe_writes {ap : ApSecurity} {ie : EidStruct} {entry checked : MacTableEntry}
    {code : AssocStatus} {rsnIeLen : UInt8} (hlen : rsnIeLen ≠ 0)
    (hfit : ie.len + 2 = rsnIeLen.toNat)
    (h : apValidateRsnIe ap entry ie rsnIeLen = .ok (code, checked)) :
    (code = .success → ap.groupPasses ie = true) ∧
      checked = { entry with
        authMode := ap.modeWritten ie
        wepStatus := if ap.groupPasses ie then ap.cipherWritten ie else entry.wepStatus } := by
  unfold apValidateRsnIe at h
  rw [if_neg hlen, if_neg (by rw [hfit]; simp)] at h
  cases hm : rtmpCheckMcast ap ie entry with
  | error f =>
    rw [hm] at h
    exact nomatch h
  | ok r =>
    obtain ⟨group, entry₁⟩ := r
    obtain ⟨hpassed, hentry⟩ := rtmpCheckMcast_writes hm
    rw [hm, Checked.ok_bind] at h
    dsimp only at h
    by_cases hgroup : group = true
    · rw [hgroup] at h
      rw [← hpassed, hgroup]
      refine ⟨fun _ => rfl, ?_⟩
      cases hu : rtmpCheckUcast ap ie entry₁ with
      | error f =>
        rw [hu] at h
        exact nomatch h
      | ok r =>
        obtain ⟨pairwise, entry₂⟩ := r
        have hentry₂ := rtmpCheckUcast_writes hu
        have hend : checked = entry₂ := by
          simp only [hu, Checked.ok_bind, Bool.not_true, Bool.false_eq_true, if_false] at h
          split at h
          · cases h
            rfl
          · cases ha : rtmpCheckAuth ap ie with
            | error f =>
              rw [ha] at h
              exact nomatch h
            | ok akm =>
              rw [ha] at h
              cases h
              rfl
        rw [hend, hentry₂, hentry, if_pos rfl]
    · rw [Bool.not_eq_true] at hgroup
      rw [hgroup] at h
      rw [← hpassed, hgroup, if_neg (by decide)]
      cases h
      refine ⟨fun h => ?_, hentry⟩
      exact nomatch h

/-- A check that accepts an element leaves the mode of its version. -/
theorem authMode_of_success {ap : ApSecurity} {ie : EidStruct} {entry checked : MacTableEntry}
    {rsnIeLen : UInt8} (hlen : rsnIeLen ≠ 0)
    (h : apValidateRsnIe ap entry ie rsnIeLen = .ok (.success, checked)) :
    ∃ v, checked.authMode = ap.authModeFor v := by
  by_cases hfit : ie.len + 2 = rsnIeLen.toNat
  · obtain ⟨hgroup, hchecked⟩ := apValidateRsnIe_writes hlen hfit h
    have hpass := hgroup rfl
    unfold ApSecurity.groupPasses at hpass
    unfold ApSecurity.modeWritten at hchecked
    cases hv : WpaVersion.ofEid ie.eid with
    | none =>
      rw [hv] at hpass
      exact nomatch hpass
    | some v =>
      rw [hv] at hpass hchecked
      have h6 : 6 ≤ ie.len := (of_decide_eq_true hpass).1
      refine ⟨v, ?_⟩
      rw [hchecked]
      exact if_pos h6
  · unfold apValidateRsnIe at h
    rw [if_neg hlen, if_pos hfit] at h
    exact nomatch h

namespace Example

/-- WPA2-PSK with AES. -/
def wpa2Psk : ApSecurity where
  authMode := .wpa2Psk
  wepStatus := .encryption3Enabled
  wpaMixPairCipher := 0
  preAuth := false
  isWpa := rfl
  isCipher := .inr (.inl rfl)

/-- Eighteen octets, with the group suite of the access point and 256 pairwise suites, none of them
its own. -/
def manySuites : EidStruct where
  eid := 48
  octet := ⟨[1, 0, 0x00, 0x0f, 0xac, 4, 0, 1, 0x00, 0x0f, 0xac, 2, 0x00, 0x0f, 0xac, 2, 0, 0], by
    decide⟩

end Example

/-- The check runs past the end of an element that announces more suites than it has. -/
theorem not_validates_manySuites : ¬ Validates Example.wpa2Psk {} Example.manySuites := by
  rintro ⟨code, entry, h, -⟩
  have hrun : apValidateRsnIe Example.wpa2Psk {} Example.manySuites Example.manySuites.rsnIeLen =
      .error .outside := by rfl
  rw [hrun] at h
  exact nomatch h

end Mt7601.Ap
