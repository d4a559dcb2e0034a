/-
# The order in which suites are listed

What `BssCipherParse` derives from one WPA or RSN element, whatever suites it lists and whatever
other elements stand around it. The pairwise ciphers should be the strongest and the second
strongest one that is listed, and the authentication modes should depend on the set of the AKM suites
only. The two loops remember one suite and overwrite the other, so that the last suite decides more
than it should: `suites_iff` says for which lists that makes no difference.
-/
import Mt7601.Mlme.CipherReads

namespace Mt7601.Mlme.SuiteOrder

open CountedList CipherReads

/-! ## 1. Elements -/

/-- A suite selector. -/
structure Selector where
  oui : List UInt8
  type : UInt8
  length_oui : oui.length = 3
  deriving DecidableEq

def Selector.octets (s : Selector) : List UInt8 := s.oui ++ [s.type]

@[simp] theorem Selector.length_octets (s : Selector) : s.octets.length = 4 := by
  rw [octets, List.length_append, s.length_oui]
  rfl

/-- The two elements with suites. -/
inductive Kind
  | wpa
  | rsn
  deriving DecidableEq

def Kind.eid : Kind → UInt8
  | .wpa => ieWpa
  | .rsn => ieRsn

/-- What stands in front of the suites: the OUI of WPA, and the version. -/
def Kind.head : Kind → List UInt8
  | .wpa => wpaOui ++ [1, 0]
  | .rsn => [1, 0]

/-- The suites, and what follows them: the capabilities, if any, and what else there is. -/
structure SuiteLists where
  group : Selector
  pairs : List Selector
  akms : List Selector
  rest : List UInt8

/-- The body of an element. -/
def SuiteLists.body (s : SuiteLists) (kind : Kind) : List UInt8 :=
  kind.head ++ s.group.octets ++ le16 s.pairs.length ++ s.pairs.flatMap Selector.octets ++
    le16 s.akms.length ++ s.akms.flatMap Selector.octets ++ s.rest

/-- A well-formed WPA or RSN element: its length fits the length octet. -/
structure SuiteElement extends SuiteLists where
  kind : Kind
  fits : (toSuiteLists.body kind).length ≤ 255

def SuiteElement.octets (e : SuiteElement) : List UInt8 :=
  [e.kind.eid, UInt8.ofNat (e.toSuiteLists.body e.kind).length] ++ e.toSuiteLists.body e.kind

/-- The same element with other AKM suites. -/
def SuiteElement.withAkms (e : SuiteElement) (akms : List Selector)
    (fits : (({ e.toSuiteLists with akms := akms } : SuiteLists).body e.kind).length ≤ 255) :
    SuiteElement :=
  { toSuiteLists := { e.toSuiteLists with akms := akms }, kind := e.kind, fits := fits }

/-- Any other element; one of the vendors' that is none of WPA has room for an OUI and a type. -/
structure OtherElement where
  eid : UInt8
  body : List UInt8
  fits : body.length ≤ 255
  not_rsn : eid ≠ ieRsn
  not_wpa : eid = ieWpa → 4 ≤ body.length ∧ body.take 4 ≠ wpaOui

def OtherElement.octets (o : OtherElement) : List UInt8 :=
  [o.eid, UInt8.ofNat o.body.length] ++ o.body

/-- An entry of the scan table with these elements. -/
def withElements (pBss : BssEntry) (front : List OtherElement) (e : SuiteElement)
    (back : List OtherElement) : BssEntry :=
  let octets := front.flatMap OtherElement.octets ++ e.octets ++ back.flatMap OtherElement.octets
  { pBss with varIEs := octets, varIELen := octets.length }

/-! ## 2. What is in memory -/

/-- Octets stand at an offset. -/
def Holds (mem : Nat → UInt8) (off : Nat) (l : List UInt8) : Prop :=
  ∀ k < l.length, mem (off + k) = l.getD k 0

section

variable {mem : Nat → UInt8} {off : Nat}

theorem holds_append {l m : List UInt8} :
    Holds mem off (l ++ m) ↔ Holds mem off l ∧ Holds mem (off + l.length) m := by
  unfold Holds
  simp only [List.length_append, List.getD_eq_getElem?_getD]
  constructor
  · intro h
    refine ⟨fun k hk => ?_, fun k hk => ?_⟩
    · rw [h k (by omega), List.getElem?_append_left hk]
    · rw [Nat.add_assoc, h (l.length + k) (by omega), List.getElem?_append_right (by omega),
        Nat.add_sub_cancel_left]
  · rintro ⟨hl, hm⟩ k hk
    by_cases hkl : k < l.length
    · rw [hl k hkl, List.getElem?_append_left hkl]
    · have hrest := hm (k - l.length) (by omega)
      rw [show off + l.length + (k - l.length) = off + k by omega] at hrest
      rw [hrest, List.getElem?_append_right (by omega)]

theorem holds_cons {b : UInt8} {l : List UInt8} :
    Holds mem off (b :: l) ↔ mem off = b ∧ Holds mem (off + 1) l := by
  rw [← List.singleton_append, holds_append]
  refine and_congr_left fun _ => ⟨fun h => h 0 Nat.one_pos, fun h k hk => ?_⟩
  rw [List.length_singleton] at hk
  rw [show k = 0 by omega]
  exact h

theorem octetsAt_of_holds {l : List UInt8} (h : Holds mem off l) (l' : List UInt8)
    (hlen : l'.length = l.length) : octetsAt mem off l' = true ↔ l = l' := by
  rw [octetsAt_eq_true]
  constructor
  · intro hall
    refine Mem.eq_of_getD hlen.symm fun k hk => ?_
    rw [← hall k hk]
    exact (h k (hlen ▸ hk)).symm
  · rintro rfl
    exact h

theorem leWord_of_holds {n : Nat} (h : Holds mem off (le16 n)) (hn : n < 65536) :
    leWord mem off = n := by
  have hlow : mem off = UInt8.ofNat n := h 0 Nat.zero_lt_two
  have hhigh : mem (off + 1) = UInt8.ofNat (n / 256) := h 1 Nat.one_lt_two
  rw [leWord, hlow, hhigh, UInt8.toNat_ofNat', UInt8.toNat_ofNat']
  omega

theorem Selector.holds_octets (s : Selector) :
    Holds mem off s.octets ↔ Holds mem off s.oui ∧ mem (off + 3) = s.type := by
  rw [octets, holds_append, s.length_oui, holds_cons]
  exact and_congr_right fun _ => ⟨fun h => h.1, fun h => ⟨h, fun k hk => absurd hk (Nat.not_lt_zero k)⟩⟩

/-- The loop over the pairwise ciphers is a fold over the list. -/
theorem addPairCiphers_of_holds (suite : CipherSuite) {l : List Selector}
    (h : Holds mem off (l.flatMap Selector.octets)) :
    suite.addPairCiphers mem off l.length =
      (l.map fun s => s.type).foldl CipherSuite.addPairCipher suite := by
  induction l generalizing suite off with
  | nil => rfl
  | cons s l ih =>
    rw [List.flatMap_cons, holds_append, Selector.holds_octets, s.length_octets] at h
    rw [List.length_cons, addPairCiphers_succ, h.1.2, ih _ h.2]
    rfl

/-- The loop over the AKM suites is a fold over those in front of the first of another OUI. -/
theorem addAkms_of_holds (c : Ciphers) {l : List Selector}
    (h : Holds mem off (l.flatMap Selector.octets)) :
    (c.addAkms mem l.length off).1 =
      ((l.takeWhile fun s => s.oui = rsnOui).map fun s => akmMode false s.type).foldl
        Ciphers.addAuthMode c := by
  induction l generalizing c off with
  | nil => rfl
  | cons s l ih =>
    rw [List.flatMap_cons, holds_append, Selector.holds_octets, s.length_octets] at h
    have houi := octetsAt_of_holds h.1.1 rsnOui s.length_oui.symm
    rw [List.length_cons, Ciphers.addAkms, List.takeWhile_cons]
    by_cases hs : s.oui = rsnOui
    · rw [if_pos (houi.mpr hs), if_pos (decide_eq_true hs), List.map_cons, List.foldl_cons,
        ← ih _ h.2, ← h.1.2]
      rfl
    · rw [if_neg fun hno => hs (houi.mp hno), if_neg (by simpa using hs)]
      rfl

/-! ## 3. The loop over the elements -/

/-- Another element may be one of SES, and leaves the rest. -/
theorem parseElement_other (c : Ciphers) (bssType : UInt8) (o : OtherElement)
    (h : Holds mem off o.octets) : ∃ b, parseElement c bssType mem off = c.orSes b := by
  rw [OtherElement.octets, List.cons_append, holds_cons, List.cons_append, holds_cons,
    List.nil_append] at h
  obtain ⟨heid, -, hbody⟩ := h
  have hkeep : c = c.orSes false := by
    rw [Ciphers.orSes, Bool.or_false]
  rw [parseElement, heid]
  by_cases hwpa : o.eid = ieWpa
  · rw [if_pos hwpa, Ciphers.parseWpa]
    split
    · exact ⟨true, by rw [Ciphers.orSes, Bool.or_true]⟩
    · obtain ⟨hlen, houi⟩ := o.not_wpa hwpa
      have hfront : Holds mem (off + 1 + 1) (o.body.take 4) := by
        rw [← List.take_append_drop 4 o.body, holds_append] at hbody
        exact hbody.1
      have hno : ¬ octetsAt mem (off + 2) wpaOui = true := by
        rw [octetsAt_of_holds hfront wpaOui (by rw [List.length_take, min_eq_left hlen]; rfl)]
        exact houi
      rw [if_pos (by rw [Bool.not_eq_true', Bool.eq_false_iff]; exact hno)]
      exact ⟨false, hkeep⟩
  · rw [if_neg hwpa, if_neg o.not_rsn]
    exact ⟨false, hkeep⟩

theorem parseElement_orSes (c : Ciphers) (b : Bool) (bssType : UInt8) :
    parseElement (c.orSes b) bssType mem off = (parseElement c bssType mem off).orSes b := by
  unfold parseElement
  split_ifs
  · exact parseWpa_orSes c b bssType mem off
  · exact parseRsn_orSes c b bssType mem off
  · rfl

theorem length_body_lt {n : Nat} (h : n ≤ 255) : (UInt8.ofNat n).toNat = n := by
  rw [UInt8.toNat_ofNat']
  omega

theorem parseElements_step (bssType : UInt8) {n passes len : Nat} (c : Ciphers) (hoff : off < n)
    (hpasses : n ≤ off + passes) (hlen : mem (off + 1) = UInt8.ofNat len) (hfits : len ≤ 255) :
    ∃ passes', n ≤ off + (2 + len) + passes' ∧
      c.parseElements bssType mem n passes off =
        (parseElement c bssType mem off).parseElements bssType mem n passes' (off + (2 + len)) := by
  obtain ⟨passes', rfl⟩ : ∃ p, passes = p + 1 := ⟨passes - 1, by omega⟩
  refine ⟨passes', by omega, ?_⟩
  rw [Ciphers.parseElements, if_pos hoff]
  dsimp only
  rw [hlen, length_body_lt hfits, show off + len + 2 = off + (2 + len) by omega]
  rfl

/-- The loop over other elements. -/
theorem parseElements_others (bssType : UInt8) {n passes : Nat} (c : Ciphers)
    (others : List OtherElement) (h : Holds mem off (others.flatMap OtherElement.octets))
    (hoff : off + (others.flatMap OtherElement.octets).length ≤ n) (hpasses : n ≤ off + passes) :
    ∃ b passes', n ≤ off + (others.flatMap OtherElement.octets).length + passes' ∧
      c.parseElements bssType mem n passes off =
        (c.orSes b).parseElements bssType mem n passes'
          (off + (others.flatMap OtherElement.octets).length) := by
  induction others generalizing c off passes with
  | nil =>
    refine ⟨false, passes, hpasses, ?_⟩
    rw [Ciphers.orSes, Bool.or_false]
    rfl
  | cons o others ih =>
    rw [List.flatMap_cons, holds_append] at h
    rw [List.flatMap_cons, List.length_append] at hoff ⊢
    have hsize : o.octets.length = 2 + o.body.length := by
      rw [OtherElement.octets, List.length_append]
      rfl
    have hlen : mem (off + 1) = UInt8.ofNat o.body.length :=
      h.1 1 (by omega)
    obtain ⟨p, hp, hstep⟩ := parseElements_step bssType c (by omega) hpasses hlen o.fits
    obtain ⟨b, hb⟩ := parseElement_other c bssType o h.1
    rw [← hsize] at hp hstep
    obtain ⟨b', p', hp', hrest⟩ := ih (c.orSes b) h.2 (by omega) hp
    refine ⟨b || b', p', by omega, ?_⟩
    rw [hstep, hb, hrest, Nat.add_assoc]
    unfold Ciphers.orSes
    rw [Bool.or_assoc]

/-- **What is derived from one element among others**: `bSES` apart, what the element alone comes
to. -/
theorem bssCipherParse_withElements (behind : List UInt8) (pBss : BssEntry)
    (front back : List OtherElement) (e : SuiteElement) :
    ∃ (mem : Nat → UInt8) (off : Nat) (b : Bool), Holds mem off e.octets ∧
      (bssCipherParse behind (withElements pBss front e back)).ciphers =
        (parseElement (.init pBss.ciphers.bSES pBss.privacy) pBss.bssType mem off).orSes b := by
  generalize hx : withElements pBss front e back = x
  have hvies : x.varIEs = front.flatMap OtherElement.octets ++ e.octets ++
      back.flatMap OtherElement.octets := by rw [← hx]; rfl
  have hlength : x.varIELen = x.varIEs.length := by rw [← hx]; rfl
  have htype : x.bssType = pBss.bssType := by rw [← hx]; rfl
  have hinit : Ciphers.init x.ciphers.bSES x.privacy = .init pBss.ciphers.bSES pBss.privacy := by
    rw [← hx]; rfl
  have hall : Holds (x.vieMem behind) 0 x.varIEs := by
    intro k hk
    rw [Nat.zero_add, BssEntry.vieMem, List.getD_eq_getElem?_getD, List.getD_eq_getElem?_getD,
      List.getElem?_append_left hk]
  rw [hvies, holds_append, holds_append, Nat.zero_add, Nat.zero_add] at hall
  obtain ⟨⟨hfront, he⟩, hback⟩ := hall
  have hsize : e.octets.length = 2 + (e.toSuiteLists.body e.kind).length := by
    rw [SuiteElement.octets, List.length_append]
    rfl
  have hn : x.varIELen = (front.flatMap OtherElement.octets).length + e.octets.length +
      (back.flatMap OtherElement.octets).length := by
    rw [hlength, hvies, List.length_append, List.length_append]
  unfold bssCipherParse
  dsimp only
  rw [htype, hinit]
  set c := Ciphers.init pBss.ciphers.bSES pBss.privacy
  obtain ⟨b₁, p₁, hp₁, hfirst⟩ := parseElements_others pBss.bssType c front hfront
    (show 0 + _ ≤ x.varIELen by omega) (show x.varIELen ≤ 0 + x.varIELen by omega)
  rw [Nat.zero_add] at hfirst hp₁
  have hlen := he 1 (by omega)
  obtain ⟨p₂, hp₂, hsecond⟩ := parseElements_step pBss.bssType (c.orSes b₁)
    (show (front.flatMap OtherElement.octets).length < x.varIELen by omega) hp₁ hlen e.fits
  rw [← hsize] at hp₂ hsecond
  rw [List.length_append] at hback
  obtain ⟨b₂, p₃, hp₃, hthird⟩ := parseElements_others (n := x.varIELen) pBss.bssType
    (parseElement (c.orSes b₁) pBss.bssType (x.vieMem behind)
      (front.flatMap OtherElement.octets).length) back hback (by omega) hp₂
  have hend : ∀ c : Ciphers, c.parseElements pBss.bssType (x.vieMem behind) x.varIELen p₃
      x.varIELen = c := by
    intro c
    cases p₃ with
    | zero => rfl
    | succ p => rw [Ciphers.parseElements, if_neg (Nat.lt_irrefl _)]
  refine ⟨x.vieMem behind, (front.flatMap OtherElement.octets).length, b₁ || b₂, he, ?_⟩
  rw [hfirst, hsecond, hthird, ← hn, hend, parseElement_orSes]
  unfold Ciphers.orSes
  rw [Bool.or_assoc]

/-! ## 4. The element -/

@[simp] theorem length_flatMap_octets (l : List Selector) :
    (l.flatMap Selector.octets).length = 4 * l.length := by
  induction l with
  | nil => rfl
  | cons s l ih =>
    rw [List.flatMap_cons, List.length_append, s.length_octets, ih, List.length_cons]
    omega

theorem SuiteLists.length_body (s : SuiteLists) (kind : Kind) :
    (s.body kind).length =
      kind.head.length + 8 + 4 * s.pairs.length + 4 * s.akms.length + s.rest.length := by
  have hle16 : ∀ n, (le16 n).length = 2 := fun n => rfl
  simp only [body, List.length_append, Selector.length_octets, length_flatMap_octets, hle16]
  omega

/-- The parts of an element, each at its offset. -/
structure HoldsLists (mem : Nat → UInt8) (off : Nat) (s : SuiteLists) : Prop where
  group : Holds mem off s.group.oui ∧ mem (off + 3) = s.group.type
  pairCount : leWord mem (off + 4) = s.pairs.length
  pairs : Holds mem (off + 6) (s.pairs.flatMap Selector.octets)
  akmCount : leWord mem (off + 6 + 4 * s.pairs.length) = s.akms.length
  akms : Holds mem (off + 6 + 4 * s.pairs.length + 2) (s.akms.flatMap Selector.octets)

theorem SuiteElement.holds (e : SuiteElement) (h : Holds mem off e.octets) :
    mem off = e.kind.eid ∧ Holds mem (off + 2) e.kind.head ∧
      HoldsLists mem (off + 2 + e.kind.head.length) e.toSuiteLists := by
  have hfits := e.fits
  rw [e.toSuiteLists.length_body] at hfits
  have hle16 : ∀ n, (le16 n).length = 2 := fun n => rfl
  rw [octets, SuiteLists.body, List.cons_append, holds_cons, List.cons_append, holds_cons,
    List.nil_append, holds_append, holds_append, holds_append, holds_append, holds_append,
    holds_append] at h
  simp only [List.length_append, Selector.length_octets, length_flatMap_octets, hle16,
    ← Nat.add_assoc] at h
  obtain ⟨heid, -, ⟨⟨⟨⟨⟨hhead, hgroup⟩, hn⟩, hpairs⟩, hm⟩, hakms⟩, -⟩ := h
  refine ⟨heid, hhead, (Selector.holds_octets _).mp hgroup, leWord_of_holds hn (by omega), ?_,
    ?_, ?_⟩
  · convert hpairs using 1
  · refine leWord_of_holds ?_ (by omega)
    convert hm using 1
  · convert hakms using 1

/-- The pairwise ciphers that an element lists. -/
def SuiteLists.addPairs (s : SuiteLists) (suite : CipherSuite) : CipherSuite :=
  (s.pairs.map fun p => p.type).foldl CipherSuite.addPairCipher
    { suite with groupCipher := groupCipherOf s.group.type suite.groupCipher }

/-- **A WPA element**: its pairwise ciphers, and the type of its first AKM suite. -/
theorem parseElement_wpa (c : Ciphers) (bssType : UInt8) (e : SuiteElement) (hkind : e.kind = .wpa)
    (h : Holds mem off e.octets) :
    ∃ akm, (∀ s l, e.akms = s :: l → akm = s.type) ∧
      parseElement c bssType mem off =
        endWpa { c with wpa := e.addPairs c.wpa } bssType akm := by
  obtain ⟨heid, hhead, hgroup, hn, hpairs, hm, hakms⟩ := e.holds h
  rw [hkind] at heid hhead hgroup hn hpairs hm hakms
  change Holds mem (off + 2) (wpaOui ++ [1, 0]) at hhead
  rw [holds_append] at hhead
  have houi : octetsAt mem (off + 2) wpaOui = true := (octetsAt_of_holds hhead.1 _ rfl).mpr rfl
  have hses : ¬ octetsAt mem (off + 2) sesOui = true := by
    have hfront : Holds mem (off + 2) [0x00, 0x50, 0xf2] :=
      (holds_append (l := [0x00, 0x50, 0xf2]) (m := [1])).mp hhead.1 |>.1
    rw [octetsAt_of_holds hfront sesOui rfl]
    decide
  have hgroup' : mem (off + 11) = e.group.type := hgroup.2
  have hn' : leWord mem (off + 12) = e.pairs.length := hn
  have hpairs' : Holds mem (off + 14) (e.pairs.flatMap Selector.octets) := hpairs
  refine ⟨mem (off + 14 + 4 * e.pairs.length + 5), fun s l hs => ?_, ?_⟩
  · rw [hs, List.flatMap_cons, holds_append, Selector.holds_octets] at hakms
    exact hakms.1.2
  · rw [parseElement, heid]
    change Ciphers.parseWpa c bssType mem off = _
    rw [Ciphers.parseWpa, if_neg, if_neg, hn', hgroup']
    · dsimp only
      rw [addPairCiphers_of_holds _ hpairs']
      rfl
    · rw [houi]
      decide
    · rw [Bool.and_eq_true]
      exact fun hno => hses hno.1

/-- **An RSN element**: its pairwise ciphers, and its AKM suites up to the first of another OUI. With
another OUI of the group suite it is left out. -/
theorem parseElement_rsn (c : Ciphers) (bssType : UInt8) (e : SuiteElement) (hkind : e.kind = .rsn)
    (h : Holds mem off e.octets) :
    ∃ rsnCapability, parseElement c bssType mem off =
      if e.group.oui = rsnOui then
        endRsn (((e.akms.takeWhile fun s => s.oui = rsnOui).map fun s =>
          akmMode false s.type).foldl Ciphers.addAuthMode { c with wpa2 := e.addPairs c.wpa2 })
          bssType rsnCapability
      else c := by
  obtain ⟨heid, hhead, hgroup, hn, hpairs, hm, hakms⟩ := e.holds h
  rw [hkind] at heid hhead hgroup hn hpairs hm hakms
  have hversion : leWord mem (off + 2) = 1 := leWord_of_holds (n := 1) hhead (by decide)
  have hgroup' : mem (off + 7) = e.group.type := hgroup.2
  have houi := octetsAt_of_holds (show Holds mem (off + 4) _ from hgroup.1) rsnOui e.group.length_oui.symm
  have hn' : leWord mem (off + 8) = e.pairs.length := hn
  have hpairs' : Holds mem (off + 10) (e.pairs.flatMap Selector.octets) := hpairs
  have hm' : leWord mem (off + 10 + 4 * e.pairs.length) = e.akms.length := hm
  have hakms' : Holds mem (off + 10 + 4 * e.pairs.length + 2)
      (e.akms.flatMap Selector.octets) := hakms
  have hparse : parseElement c bssType mem off = c.parseRsn bssType mem off := by
    rw [parseElement, heid]
    rfl
  rw [hparse]
  by_cases hg : e.group.oui = rsnOui
  · simp only [if_pos hg]
    refine ⟨leWord mem (Ciphers.addAkms mem e.akms.length { c with wpa2 := e.addPairs c.wpa2 }
      (off + 10 + 4 * e.pairs.length + 2)).2, ?_⟩
    rw [parseRsn_eq c bssType hversion (houi.mpr hg), hn']
    dsimp only
    rw [hm', addPairCiphers_of_holds _ hpairs', hgroup', ← addAkms_of_holds _ hakms']
    rfl
  · simp only [if_neg hg]
    refine ⟨0, ?_⟩
    rw [Ciphers.parseRsn, if_neg (not_not_intro hversion), if_pos]
    rw [Bool.not_eq_true', Bool.eq_false_iff]
    exact fun hno => hg (houi.mp hno)

end

/-! ## 5. Pairwise ciphers -/

section

open WepStatus

/-- The supported ciphers of a list, the strongest one first. -/
def supported (l : List WepStatus) : List WepStatus :=
  [encryption3Enabled, encryption2Enabled, encryption1Enabled].filter (· ∈ l)

def strongest (l : List WepStatus) : WepStatus := (supported l).getD 0 wepDisabled
def secondStrongest (l : List WepStatus) : WepStatus := (supported l).getD 1 wepDisabled

/-- The pairwise ciphers that are listed. -/
def SuiteLists.ciphers (s : SuiteLists) : List WepStatus := s.pairs.map fun p => pairCipherOf p.type

/-- What `PairCipher` comes to. WEP has a lower number than none, and is never kept. -/
def keptCipher (l : List WepStatus) : WepStatus :=
  if encryption3Enabled ∈ l then encryption3Enabled
  else if encryption2Enabled ∈ l then encryption2Enabled
  else wepDisabled

/-- What `PairCipherAux` comes to: the lower one of the last cipher and what was kept in front. -/
def lastCipher (l : List WepStatus) : WepStatus :=
  match l.getLast? with
  | none => wepDisabled
  | some last => if last > keptCipher l.dropLast then keptCipher l.dropLast else last

theorem pairCipherOf_cases (type : UInt8) :
    pairCipherOf type = encryption3Enabled ∨ pairCipherOf type = encryption2Enabled ∨
      pairCipherOf type = encryption1Enabled ∨ pairCipherOf type = wepDisabled := by
  unfold pairCipherOf
  split_ifs <;> simp

/-- **What the loop over the pairwise ciphers comes to.** -/
theorem foldl_addPairCipher (types : List UInt8) (suite : CipherSuite)
    (hpair : suite.pairCipher = wepDisabled) (haux : suite.pairCipherAux = wepDisabled) :
    types.foldl CipherSuite.addPairCipher suite =
      { suite with
        pairCipher := keptCipher (types.map pairCipherOf)
        pairCipherAux := lastCipher (types.map pairCipherOf) } := by
  induction types using List.reverseRecOn with
  | nil =>
    obtain ⟨pair, aux, _, _, _⟩ := suite
    cases hpair
    cases haux
    rfl
  | append_singleton types type ih =>
    have hlast : lastCipher ((types ++ [type]).map pairCipherOf) =
        if pairCipherOf type > keptCipher (types.map pairCipherOf)
        then keptCipher (types.map pairCipherOf) else pairCipherOf type := by
      rw [lastCipher, List.map_append, List.map_singleton, List.getLast?_concat,
        List.dropLast_concat]
    have hkept : keptCipher ((types ++ [type]).map pairCipherOf) =
        if pairCipherOf type > keptCipher (types.map pairCipherOf)
        then pairCipherOf type else keptCipher (types.map pairCipherOf) := by
      unfold keptCipher
      simp only [List.map_append, List.map_singleton, List.mem_append, List.mem_singleton]
      rcases pairCipherOf_cases type with h | h | h | h <;> rw [h] <;>
        by_cases h3 : encryption3Enabled ∈ types.map pairCipherOf <;>
        by_cases h2 : encryption2Enabled ∈ types.map pairCipherOf <;>
        simp [h3, h2] <;> decide
    rw [List.foldl_concat, ih, hlast, hkept]
    unfold CipherSuite.addPairCipher
    dsimp only
    split_ifs <;> rfl

/-- The kept cipher is the strongest one. -/
def PairFine (l : List WepStatus) : Prop :=
  encryption3Enabled ∈ l ∨ encryption2Enabled ∈ l ∨ encryption1Enabled ∉ l

/-- The last cipher is the second strongest one of those in front and itself. -/
def AuxFine (l : List WepStatus) : Prop :=
  match l.getLast? with
  | none => True
  | some last =>
    let front := l.dropLast
    if last = encryption3Enabled then
      encryption3Enabled ∉ front ∧ (encryption2Enabled ∈ front ∨ encryption1Enabled ∉ front)
    else if last = encryption2Enabled then
      encryption3Enabled ∈ front ∨ encryption2Enabled ∉ front ∧ encryption1Enabled ∉ front
    else if last = encryption1Enabled then
      (encryption3Enabled ∈ front ↔ encryption2Enabled ∉ front)
    else
      ¬ (encryption3Enabled ∈ front ∧ encryption2Enabled ∈ front) ∧ (encryption1Enabled ∈ front →
        encryption3Enabled ∉ front ∧ encryption2Enabled ∉ front)

/-- The loop ends with no second cipher. -/
def NoAux (l : List WepStatus) : Prop :=
  match l.getLast? with
  | none => True
  | some last => last = wepDisabled ∨ last ≠ encryption1Enabled ∧
      encryption3Enabled ∉ l.dropLast ∧ encryption2Enabled ∉ l.dropLast

theorem keptCipher_eq_strongest (l : List WepStatus) : keptCipher l = strongest l ↔ PairFine l := by
  have hwep : wepDisabled ≠ encryption1Enabled := by decide
  unfold keptCipher strongest supported PairFine
  by_cases h3 : encryption3Enabled ∈ l <;> by_cases h2 : encryption2Enabled ∈ l <;>
    by_cases h1 : encryption1Enabled ∈ l <;> simp [h3, h2, h1, hwep]

theorem strongest_eq (l : List WepStatus) :
    strongest l =
      if encryption3Enabled ∈ l then encryption3Enabled
      else if encryption2Enabled ∈ l then encryption2Enabled
      else if encryption1Enabled ∈ l then encryption1Enabled
      else wepDisabled := by
  unfold strongest supported
  by_cases h3 : encryption3Enabled ∈ l <;> by_cases h2 : encryption2Enabled ∈ l <;>
    by_cases h1 : encryption1Enabled ∈ l <;> simp [h3, h2, h1]

theorem secondStrongest_eq (l : List WepStatus) :
    secondStrongest l =
      if encryption3Enabled ∈ l then
        if encryption2Enabled ∈ l then encryption2Enabled
        else if encryption1Enabled ∈ l then encryption1Enabled
        else wepDisabled
      else if encryption2Enabled ∈ l ∧ encryption1Enabled ∈ l then encryption1Enabled
      else wepDisabled := by
  unfold secondStrongest supported
  by_cases h3 : encryption3Enabled ∈ l <;> by_cases h2 : encryption2Enabled ∈ l <;>
    by_cases h1 : encryption1Enabled ∈ l <;> simp [h3, h2, h1]

section

variable {l : List WepStatus} (h : ∀ c ∈ l, c = encryption3Enabled ∨ c = encryption2Enabled ∨
  c = encryption1Enabled ∨ c = wepDisabled)

include h

/-- The second cipher, by the last one listed. -/
theorem lastCipher_eq_second : lastCipher l = secondStrongest l ↔ AuxFine l := by
  rcases List.eq_nil_or_concat l with rfl | ⟨front, last, rfl⟩
  · exact iff_of_true rfl trivial
  · rw [List.concat_eq_append] at h ⊢
    rw [secondStrongest_eq]
    unfold lastCipher AuxFine keptCipher
    rw [List.getLast?_concat, List.dropLast_concat]
    have hlast := h last (by simp)
    simp only [encryption3Enabled, encryption2Enabled, encryption1Enabled, wepDisabled] at hlast ⊢
    rcases hlast with rfl | rfl | rfl | rfl
    all_goals
      by_cases h3 : 6 ∈ front <;> by_cases h2 : 4 ∈ front <;> by_cases h1 : 0 ∈ front <;>
        simp [h3, h2, h1]

theorem lastCipher_eq_none : lastCipher l = wepDisabled ↔ NoAux l := by
  rcases List.eq_nil_or_concat l with rfl | ⟨front, last, rfl⟩
  · exact iff_of_true rfl trivial
  · rw [List.concat_eq_append] at h ⊢
    unfold lastCipher NoAux keptCipher
    rw [List.getLast?_concat, List.dropLast_concat]
    have hlast := h last (by simp)
    simp only [encryption3Enabled, encryption2Enabled, encryption1Enabled, wepDisabled] at hlast ⊢
    rcases hlast with rfl | rfl | rfl | rfl
    all_goals
      by_cases h3 : 6 ∈ front <;> by_cases h2 : 4 ∈ front <;> simp [h3, h2]

theorem none_eq_strongest : wepDisabled = strongest l ∧ wepDisabled = secondStrongest l ↔
    ∀ c ∈ l, c = wepDisabled := by
  constructor
  · rintro ⟨hfirst, -⟩ c hc
    rw [strongest_eq] at hfirst
    split_ifs at hfirst with h3 h2 h1
    · exact absurd hfirst (by decide)
    · exact absurd hfirst (by decide)
    · exact absurd hfirst (by decide)
    · rcases h c hc with rfl | rfl | rfl | rfl
      · exact absurd hc h3
      · exact absurd hc h2
      · exact absurd hc h1
      · rfl
  · intro hall
    have hno : ∀ c, c ≠ wepDisabled → c ∉ l := fun c hc hmem => hc (hall c hmem)
    have h3 := hno encryption3Enabled (by decide)
    have h2 := hno encryption2Enabled (by decide)
    have h1 := hno encryption1Enabled (by decide)
    rw [strongest_eq, secondStrongest_eq]
    simp [h3, h2, h1]

end

end

/-- What is derived for the suites of an element. -/
def SuiteElement.derived (e : SuiteElement) (c : Ciphers) : CipherSuite :=
  match e.kind with
  | .wpa => c.wpa
  | .rsn => c.wpa2

/-- **The pairwise ciphers are the two strongest ones listed.** -/
def PairsRight (e : SuiteElement) (c : Ciphers) : Prop :=
  (e.derived c).pairCipher = strongest e.ciphers ∧
    (e.derived c).pairCipherAux = secondStrongest e.ciphers

/-- The lists for which they are. In an ad-hoc network the group cipher of a WPA element stands in for
a second one that is missing, and an RSN element with a group suite of another OUI is left out. -/
def PairsFine (bssType : UInt8) (e : SuiteElement) : Prop :=
  match e.kind with
  | .wpa => PairFine e.ciphers ∧
      (bssType = bssAdhoc ∧ NoAux e.ciphers →
        groupCipherOf e.group.type WepStatus.wepDisabled = secondStrongest e.ciphers) ∧
      (¬ (bssType = bssAdhoc ∧ NoAux e.ciphers) → AuxFine e.ciphers)
  | .rsn =>
      (e.group.oui = rsnOui → PairFine e.ciphers ∧ AuxFine e.ciphers) ∧
      (e.group.oui ≠ rsnOui → ∀ c ∈ e.ciphers, c = WepStatus.wepDisabled)

theorem SuiteLists.ciphers_cases (s : SuiteLists) {c : WepStatus} (hc : c ∈ s.ciphers) :
    c = WepStatus.encryption3Enabled ∨ c = WepStatus.encryption2Enabled ∨
      c = WepStatus.encryption1Enabled ∨ c = WepStatus.wepDisabled := by
  obtain ⟨p, -, rfl⟩ := List.mem_map.mp hc
  exact pairCipherOf_cases p.type

theorem SuiteLists.addPairs_eq (s : SuiteLists) (suite : CipherSuite)
    (hpair : suite.pairCipher = WepStatus.wepDisabled)
    (haux : suite.pairCipherAux = WepStatus.wepDisabled) :
    s.addPairs suite =
      { suite with
        groupCipher := groupCipherOf s.group.type suite.groupCipher
        pairCipher := keptCipher s.ciphers
        pairCipherAux := lastCipher s.ciphers } := by
  have hfold := foldl_addPairCipher (s.pairs.map fun p => p.type)
    { suite with groupCipher := groupCipherOf s.group.type suite.groupCipher } hpair haux
  rw [List.map_map] at hfold
  exact hfold

theorem addAuthMode_wpa (c : Ciphers) (mode : AuthenticationMode) :
    (c.addAuthMode mode).wpa = c.wpa := by
  unfold Ciphers.addAuthMode
  split_ifs <;> rfl

theorem addAuthMode_wpa2 (c : Ciphers) (mode : AuthenticationMode) :
    (c.addAuthMode mode).wpa2 = c.wpa2 := by
  unfold Ciphers.addAuthMode
  split_ifs <;> rfl

theorem foldl_addAuthMode_wpa2 (c : Ciphers) (modes : List AuthenticationMode) :
    (modes.foldl Ciphers.addAuthMode c).wpa2 = c.wpa2 := by
  induction modes generalizing c with
  | nil => rfl
  | cons mode modes ih => rw [List.foldl_cons, ih, addAuthMode_wpa2]

theorem checkMixMode_pairs (suite : CipherSuite) :
    suite.checkMixMode.pairCipher = suite.pairCipher ∧
      suite.checkMixMode.pairCipherAux = suite.pairCipherAux := by
  unfold CipherSuite.checkMixMode
  split_ifs <;> exact ⟨rfl, rfl⟩

/-- The ciphers of a WPA element, with the patch for an ad-hoc network. -/
theorem endWpa_pairs (c : Ciphers) (bssType akm : UInt8) :
    (endWpa c bssType akm).wpa.pairCipher = c.wpa.pairCipher ∧
      (endWpa c bssType akm).wpa.pairCipherAux =
        if bssType = bssAdhoc ∧ c.wpa.pairCipherAux = WepStatus.wepDisabled
        then c.wpa.groupCipher else c.wpa.pairCipherAux := by
  have hadd : ∀ c' : Ciphers, c'.wpa = c.wpa →
      (if bssType = bssAdhoc then c'.wpa.patchAux else c'.wpa).pairCipher = c.wpa.pairCipher ∧
        (if bssType = bssAdhoc then c'.wpa.patchAux else c'.wpa).pairCipherAux =
          if bssType = bssAdhoc ∧ c.wpa.pairCipherAux = WepStatus.wepDisabled
          then c.wpa.groupCipher else c.wpa.pairCipherAux := by
    intro c' hc
    rw [hc]
    unfold CipherSuite.patchAux
    by_cases hb : bssType = bssAdhoc <;>
      by_cases haux : c.wpa.pairCipherAux = WepStatus.wepDisabled <;> simp [hb, haux]
  generalize hc' : (if akm = 1 then c.addAuthMode AuthenticationMode.wpa
    else if akm = 2 then c.addAuthMode AuthenticationMode.wpaPsk else c) = c'
  have hwpa : c'.wpa = c.wpa := by
    rw [← hc']
    split_ifs
    · exact addAuthMode_wpa c _
    · exact addAuthMode_wpa c _
    · rfl
  have hend : (endWpa c bssType akm).wpa =
      (if bssType = bssAdhoc then c'.wpa.patchAux else c'.wpa).checkMixMode := by
    unfold endWpa
    rw [hc']
    dsimp only
    split_ifs <;> rfl
  obtain ⟨hpair, haux⟩ := checkMixMode_pairs
    (if bssType = bssAdhoc then c'.wpa.patchAux else c'.wpa)
  rw [hend, hpair, haux]
  exact hadd c' hwpa

theorem endRsn_wpa2 (c : Ciphers) (bssType : UInt8) (rsnCapability : Nat) :
    (endRsn c bssType rsnCapability).wpa2.pairCipher = c.wpa2.pairCipher ∧
      (endRsn c bssType rsnCapability).wpa2.pairCipherAux = c.wpa2.pairCipherAux := by
  have h : (endRsn c bssType rsnCapability).wpa2 =
      ({ c.wpa2 with rsnCapability := rsnCapability } : CipherSuite).checkMixMode := by
    unfold endRsn
    dsimp only
    split_ifs <;> rfl
  rw [h]
  exact checkMixMode_pairs _

theorem pairsRight_iff {mem : Nat → UInt8} {off : Nat} (bSES privacy b : Bool) (bssType : UInt8)
    (e : SuiteElement) (h : Holds mem off e.octets) :
    PairsRight e ((parseElement (.init bSES privacy) bssType mem off).orSes b) ↔
      PairsFine bssType e := by
  have hcases : ∀ c ∈ e.ciphers, _ := fun c hc => e.ciphers_cases hc
  have hsecond := lastCipher_eq_second hcases
  have hkept := keptCipher_eq_strongest e.ciphers
  unfold PairsRight PairsFine SuiteElement.derived
  cases hkind : e.kind with
  | wpa =>
    obtain ⟨akm, -, hparse⟩ := parseElement_wpa (.init bSES privacy) bssType e hkind h
    obtain ⟨hpair, haux⟩ := endWpa_pairs
      { Ciphers.init bSES privacy with wpa := e.addPairs (Ciphers.init bSES privacy).wpa } bssType akm
    rw [← hparse, e.addPairs_eq _ rfl rfl] at hpair haux
    dsimp only at hpair haux
    have hnone := lastCipher_eq_none hcases
    change (parseElement _ bssType mem off).wpa.pairCipher = _ ∧
      (parseElement _ bssType mem off).wpa.pairCipherAux = _ ↔ _
    rw [hpair, hkept, haux]
    refine and_congr_right fun _ => ?_
    by_cases hpatch : bssType = bssAdhoc ∧ NoAux e.ciphers
    · rw [if_pos ⟨hpatch.1, hnone.mpr hpatch.2⟩]
      exact ⟨fun hg => ⟨fun _ => hg, fun hno => absurd hpatch hno⟩, fun hg => hg.1 hpatch⟩
    · rw [if_neg fun hp => hpatch ⟨hp.1, hnone.mp hp.2⟩, hsecond]
      exact ⟨fun hf => ⟨fun hp => absurd hp hpatch, fun _ => hf⟩, fun hf => hf.2 hpatch⟩
  | rsn =>
    obtain ⟨rsnCapability, hparse⟩ :=
      parseElement_rsn (.init bSES privacy) bssType e hkind h
    change (parseElement _ bssType mem off).wpa2.pairCipher = _ ∧
      (parseElement _ bssType mem off).wpa2.pairCipherAux = _ ↔ _
    rw [hparse]
    by_cases hg : e.group.oui = rsnOui
    · rw [if_pos hg, (endRsn_wpa2 ..).1, (endRsn_wpa2 ..).2, foldl_addAuthMode_wpa2,
        e.addPairs_eq _ rfl rfl]
      dsimp only
      rw [hkept, hsecond]
      exact ⟨fun hf => ⟨fun _ => hf, fun hno => absurd hg hno⟩, fun hf => hf.1 hg⟩
    · rw [if_neg hg]
      change (WepStatus.wepDisabled = _ ∧ WepStatus.wepDisabled = _) ↔ _
      rw [none_eq_strongest hcases]
      exact ⟨fun hf => ⟨fun hp => absurd hp hg, fun _ => hf⟩, fun hf => hf.2 hg⟩

/-! ## 6. Authentication modes -/

section

open AuthenticationMode

/-- The mode of the first AKM suite of a WPA element, the only one looked at. -/
def wpaMode (type : UInt8) : AuthenticationMode :=
  if type = 1 then wpa else if type = 2 then wpaPsk else open'

/-- What the modes of a list come to: the first one, and the last one behind it. -/
def listedModes : List AuthenticationMode → AuthenticationMode × AuthenticationMode
  | [] => (open', open')
  | mode :: modes => (mode, modes.getLast?.getD open')

def modes (c : Ciphers) : AuthenticationMode × AuthenticationMode := (c.authMode, c.authModeAux)

theorem endWpa_modes (c : Ciphers) (bssType akm : UInt8) (h : modes c = (open', open')) :
    modes (endWpa c bssType akm) =
      if bssType = bssAdhoc then (wpaNone, wpaNone) else (wpaMode akm, open') := by
  have hmode : c.authMode = open' := congrArg Prod.fst h
  have haux : c.authModeAux = open' := congrArg Prod.snd h
  have hadd : ∀ mode, modes (c.addAuthMode mode) = (mode, open') := by
    intro mode
    rw [Ciphers.addAuthMode, if_pos hmode]
    exact Prod.ext rfl haux
  generalize hc' : (if akm = 1 then c.addAuthMode wpa
    else if akm = 2 then c.addAuthMode wpaPsk else c) = c'
  have hmodes : modes c' = (wpaMode akm, open') := by
    rw [← hc', wpaMode]
    split_ifs
    · exact hadd wpa
    · exact hadd wpaPsk
    · exact h
  rw [← hmodes]
  unfold endWpa
  rw [hc']
  dsimp only
  split_ifs <;> rfl

theorem endRsn_modes (c : Ciphers) (bssType : UInt8) (rsnCapability : Nat) :
    modes (endRsn c bssType rsnCapability) = modes c := by
  unfold endRsn
  dsimp only
  split_ifs <;> rfl

/-- Where there is a mode already, the last one of a list is left. -/
theorem foldl_addAuthMode_aux (c : Ciphers) (l : List AuthenticationMode)
    (h : c.authMode ≠ open') :
    modes (l.foldl Ciphers.addAuthMode c) = (c.authMode, l.getLast?.getD c.authModeAux) := by
  induction l generalizing c with
  | nil => rfl
  | cons mode l ih =>
    rw [List.foldl_cons, Ciphers.addAuthMode, if_neg h, ih]
    · cases l with
      | nil => rfl
      | cons mode' l => rw [List.getLast?_cons_cons, List.getLast?_eq_some_getLast (by simp)]; rfl
    · exact h

theorem foldl_addAuthMode_modes (c : Ciphers) (l : List AuthenticationMode)
    (hl : ∀ mode ∈ l, mode ≠ open') (h : modes c = (open', open')) :
    modes (l.foldl Ciphers.addAuthMode c) = listedModes l := by
  have hmode : c.authMode = open' := congrArg Prod.fst h
  have haux : c.authModeAux = open' := congrArg Prod.snd h
  cases l with
  | nil => exact h
  | cons mode l =>
    rw [List.foldl_cons, Ciphers.addAuthMode, if_pos hmode,
      foldl_addAuthMode_aux _ _ (hl mode (List.mem_cons_self ..))]
    change (mode, l.getLast?.getD c.authModeAux) = _
    rw [haux]
    rfl

theorem akmMode_ne_open (type : UInt8) : akmMode false type ≠ open' := by
  unfold akmMode
  split_ifs <;> decide

/-- The modes that the AKM suites of an RSN element stand for, up to the first of another OUI. -/
def rsnModes (akms : List Selector) : List AuthenticationMode :=
  (akms.takeWhile fun s => s.oui = rsnOui).map fun s => akmMode false s.type

/-- The modes that `BssCipherParse` derives. -/
def derivedModes (behind : List UInt8) (pBss : BssEntry) (front : List OtherElement)
    (e : SuiteElement) (back : List OtherElement) : AuthenticationMode × AuthenticationMode :=
  modes (bssCipherParse behind (withElements pBss front e back)).ciphers

section

variable (behind : List UInt8) (pBss : BssEntry) (front back : List OtherElement) {e : SuiteElement}

theorem derivedModes_wpa_adhoc (hkind : e.kind = .wpa) (hadhoc : pBss.bssType = bssAdhoc) :
    derivedModes behind pBss front e back = (wpaNone, wpaNone) := by
  obtain ⟨mem, off, b, h, hresult⟩ := bssCipherParse_withElements behind pBss front back e
  obtain ⟨akm, -, hparse⟩ := parseElement_wpa (.init pBss.ciphers.bSES pBss.privacy)
    pBss.bssType e hkind h
  rw [derivedModes, hresult, hparse]
  exact (endWpa_modes _ _ _ rfl).trans (if_pos hadhoc)

/-- A WPA element: the mode of the first AKM suite. -/
theorem derivedModes_wpa (hkind : e.kind = .wpa) (hadhoc : pBss.bssType ≠ bssAdhoc) {s : Selector}
    {l : List Selector} (hakms : e.akms = s :: l) :
    derivedModes behind pBss front e back = (wpaMode s.type, open') := by
  obtain ⟨mem, off, b, h, hresult⟩ := bssCipherParse_withElements behind pBss front back e
  obtain ⟨akm, hakm, hparse⟩ := parseElement_wpa (.init pBss.ciphers.bSES pBss.privacy)
    pBss.bssType e hkind h
  rw [derivedModes, hresult, hparse, ← hakm s l hakms]
  exact (endWpa_modes _ _ _ rfl).trans (if_neg hadhoc)

/-- An RSN element: the first and the last mode in front of another OUI. -/
theorem derivedModes_rsn (hkind : e.kind = .rsn) :
    derivedModes behind pBss front e back =
      if e.group.oui = rsnOui then listedModes (rsnModes e.akms) else (open', open') := by
  obtain ⟨mem, off, b, h, hresult⟩ := bssCipherParse_withElements behind pBss front back e
  obtain ⟨rsnCapability, hparse⟩ := parseElement_rsn (.init pBss.ciphers.bSES pBss.privacy)
    pBss.bssType e hkind h
  rw [derivedModes, hresult, hparse]
  split
  · refine (endRsn_modes _ _ rsnCapability).trans (foldl_addAuthMode_modes _ _ ?_ rfl)
    intro mode hmode
    obtain ⟨s, -, rfl⟩ := List.mem_map.mp hmode
    exact akmMode_ne_open s.type
  · rfl

end

/-- **The modes depend on the set of the AKM suites only**: with the same suites in another order, or
with repetitions, they are the same. -/
def ModesBySet (behind : List UInt8) (pBss : BssEntry) (front : List OtherElement)
    (e : SuiteElement) (back : List OtherElement) : Prop :=
  ∀ akms fits, (∀ s, s ∈ akms ↔ s ∈ e.akms) →
    derivedModes behind pBss front (e.withAkms akms fits) back =
      derivedModes behind pBss front e back

/-- The elements for which they do. -/
def ModesFine (bssType : UInt8) (e : SuiteElement) : Prop :=
  match e.kind with
  | .wpa => bssType = bssAdhoc ∨ ∀ s ∈ e.akms, ∀ s' ∈ e.akms, wpaMode s.type = wpaMode s'.type
  | .rsn => e.group.oui ≠ rsnOui ∨ (∀ s ∈ e.akms, s.oui ≠ rsnOui) ∨
      ((∀ s ∈ e.akms, s.oui = rsnOui ∧ 2 < s.type) ∧ ∃ s ∈ e.akms, ∃ s' ∈ e.akms, s ≠ s') ∨
      ∃ s, e.akms = [s] ∧ s.oui = rsnOui ∧ 255 < (e.toSuiteLists.body e.kind).length + 4

/-- Any AKM suite can be listed first. -/
theorem SuiteElement.exists_first (e : SuiteElement) {s : Selector} (hs : s ∈ e.akms) :
    ∃ fits, ∀ t, t ∈ (e.withAkms (s :: e.akms.erase s) fits).akms ↔ t ∈ e.akms := by
  have hperm := List.perm_cons_erase hs
  have hfits := e.fits
  rw [SuiteLists.length_body, hperm.length_eq] at hfits
  refine ⟨?_, fun t => hperm.symm.mem_iff⟩
  rw [SuiteLists.length_body]
  exact hfits

theorem rsnModes_none {l : List Selector} (h : ∀ s ∈ l, s.oui ≠ rsnOui) : rsnModes l = [] := by
  cases l with
  | nil => rfl
  | cons s l =>
    rw [rsnModes, List.takeWhile_cons_of_neg (by simpa using h s (List.mem_cons_self ..))]
    rfl

theorem rsnModes_cons {s : Selector} (h : s.oui = rsnOui) (l : List Selector) :
    rsnModes (s :: l) = akmMode false s.type :: rsnModes l := by
  rw [rsnModes, List.takeWhile_cons, if_pos (decide_eq_true h)]
  rfl

theorem rsnModes_all {l : List Selector} (h : ∀ s ∈ l, s.oui = rsnOui) :
    rsnModes l = l.map fun s => akmMode false s.type := by
  induction l with
  | nil => rfl
  | cons s l ih =>
    rw [List.forall_mem_cons] at h
    rw [rsnModes_cons h.1, ih h.2, List.map_cons]

theorem akmMode_max {type : UInt8} (h : 2 < type) : akmMode false type = AuthenticationMode.max := by
  rw [UInt8.lt_iff_toNat_lt] at h
  have hne : ∀ t : UInt8, t.toNat ≤ 2 → type ≠ t := by
    rintro t ht rfl
    exact absurd ht (Nat.not_le.mpr h)
  rw [akmMode, if_neg (hne 0 (by decide)), if_neg (hne 1 (by decide)), if_neg (hne 2 (by decide))]
  rfl

/-- A type that is known is told by its mode. -/
theorem eq_of_akmMode_eq {t u : UInt8} (ht : ¬ 2 < t) (h : akmMode false u = akmMode false t) :
    u = t := by
  rw [UInt8.lt_iff_toNat_lt, Nat.not_lt] at ht
  have hcases : t = 0 ∨ t = 1 ∨ t = 2 := by
    have h3 : (2 : UInt8).toNat = 2 := rfl
    rcases (by omega : t.toNat = 0 ∨ t.toNat = 1 ∨ t.toNat = 2) with h0 | h1 | h2
    · exact Or.inl (UInt8.toNat_inj.mp h0)
    · exact Or.inr (Or.inl (UInt8.toNat_inj.mp h1))
    · exact Or.inr (Or.inr (UInt8.toNat_inj.mp h2))
  have hcasesU : u = 0 ∨ u = 1 ∨ u = 2 ∨ akmMode false u = AuthenticationMode.max := by
    by_cases h0 : u = 0
    · exact Or.inl h0
    by_cases h1 : u = 1
    · exact Or.inr (Or.inl h1)
    by_cases h2 : u = 2
    · exact Or.inr (Or.inr (Or.inl h2))
    rw [akmMode, if_neg h0, if_neg h1, if_neg h2]
    exact Or.inr (Or.inr (Or.inr rfl))
  rcases hcases with rfl | rfl | rfl <;> rcases hcasesU with rfl | rfl | rfl | hmax <;>
    first
      | rfl
      | exact absurd h (by decide)
      | (rw [hmax] at h; exact absurd h (by decide))

/-- In a WPA element all suites must stand for one mode. -/
theorem modesBySet_wpa (behind : List UInt8) (pBss : BssEntry) (front back : List OtherElement)
    {e : SuiteElement} (hkind : e.kind = .wpa) :
    ModesBySet behind pBss front e back ↔
      (pBss.bssType = bssAdhoc ∨ ∀ s ∈ e.akms, ∀ s' ∈ e.akms, wpaMode s.type = wpaMode s'.type) := by
  by_cases hadhoc : pBss.bssType = bssAdhoc
  · refine iff_of_true (fun akms fits _ => ?_) (Or.inl hadhoc)
    rw [derivedModes_wpa_adhoc behind pBss front back hkind hadhoc,
      derivedModes_wpa_adhoc behind pBss front back (e := e.withAkms akms fits) hkind hadhoc]
  · constructor
    · intro h
      refine Or.inr fun s hs s' hs' => ?_
      obtain ⟨fits, hmem⟩ := e.exists_first hs
      obtain ⟨fits', hmem'⟩ := e.exists_first hs'
      have hfirst := (h _ fits hmem).trans (h _ fits' hmem').symm
      rw [derivedModes_wpa behind pBss front back (e := e.withAkms _ fits) hkind hadhoc rfl,
        derivedModes_wpa behind pBss front back (e := e.withAkms _ fits') hkind hadhoc rfl] at hfirst
      exact congrArg Prod.fst hfirst
    · intro hall akms fits hmem
      have hall := hall.resolve_left hadhoc
      cases hakms : e.akms with
      | nil =>
        rw [hakms] at hmem
        obtain rfl : akms = e.akms := by
          rw [hakms]
          exact List.eq_nil_iff_forall_not_mem.mpr fun s hs => nomatch (hmem s).mp hs
        rfl
      | cons s l =>
        cases akms with
        | nil => exact nomatch (hmem s).mpr (by rw [hakms]; exact List.mem_cons_self ..)
        | cons t l' =>
          rw [derivedModes_wpa behind pBss front back hkind hadhoc hakms,
            derivedModes_wpa behind pBss front back (e := e.withAkms _ fits) hkind hadhoc rfl,
            hall t ((hmem t).mp (List.mem_cons_self ..)) s (by rw [hakms]; exact List.mem_cons_self ..)]

/-- The length of the body with another list of AKM suites. -/
theorem length_body_withAkms (e : SuiteElement) (akms : List Selector) :
    (({ e.toSuiteLists with akms := akms } : SuiteLists).body e.kind).length + 4 * e.akms.length =
      (e.toSuiteLists.body e.kind).length + 4 * akms.length := by
  rw [SuiteLists.length_body, SuiteLists.length_body]
  dsimp only
  omega

/-- In an RSN element the first suite, the last one and the first one of another OUI decide. -/
theorem modesBySet_rsn (behind : List UInt8) (pBss : BssEntry) (front back : List OtherElement)
    {e : SuiteElement} (hkind : e.kind = .rsn) (hgroup : e.group.oui = rsnOui) :
    ModesBySet behind pBss front e back ↔
      (∀ s ∈ e.akms, s.oui ≠ rsnOui) ∨
      ((∀ s ∈ e.akms, s.oui = rsnOui ∧ 2 < s.type) ∧ ∃ s ∈ e.akms, ∃ s' ∈ e.akms, s ≠ s') ∨
      ∃ s, e.akms = [s] ∧ s.oui = rsnOui ∧ 255 < (e.toSuiteLists.body e.kind).length + 4 := by
  have hself : derivedModes behind pBss front e back = listedModes (rsnModes e.akms) := by
    rw [derivedModes_rsn behind pBss front back hkind, if_pos hgroup]
  have hother : ∀ akms fits, derivedModes behind pBss front (e.withAkms akms fits) back =
      listedModes (rsnModes akms) := by
    intro akms fits
    rw [derivedModes_rsn behind pBss front back (e := e.withAkms akms fits) hkind]
    exact if_pos hgroup
  have hbyset : ModesBySet behind pBss front e back ↔
      ∀ akms, (({ e.toSuiteLists with akms := akms } : SuiteLists).body e.kind).length ≤ 255 →
        (∀ s, s ∈ akms ↔ s ∈ e.akms) →
        listedModes (rsnModes akms) = listedModes (rsnModes e.akms) := by
    refine forall₂_congr fun akms fits => ?_
    rw [hself, hother akms fits]
  rw [hbyset]
  constructor
  · intro h
    -- any suite can be the first one
    have hfirst : ∀ s ∈ e.akms, ∃ l, listedModes (rsnModes (s :: l)) =
        listedModes (rsnModes e.akms) := by
      intro s hs
      obtain ⟨fits, hmem⟩ := e.exists_first hs
      exact ⟨_, h _ fits hmem⟩
    by_cases hnone : ∀ s ∈ e.akms, s.oui ≠ rsnOui
    · exact Or.inl hnone
    obtain ⟨r, hr, hroui⟩ : ∃ r ∈ e.akms, r.oui = rsnOui := by
      by_contra hno
      exact hnone fun s hs hsoui => hno ⟨s, hs, hsoui⟩
    obtain ⟨lr, hlr⟩ := hfirst r hr
    rw [rsnModes_cons hroui] at hlr
    have hall : ∀ s ∈ e.akms, s.oui = rsnOui := by
      intro s hs
      by_contra hsoui
      obtain ⟨l, hl⟩ := hfirst s hs
      have hstop : rsnModes (s :: l) = [] := by
        rw [rsnModes, List.takeWhile_cons, if_neg (by simpa using hsoui)]
        rfl
      rw [hstop, ← hlr] at hl
      exact akmMode_ne_open r.type (congrArg Prod.fst hl).symm
    have hmodes : ∀ s ∈ e.akms, akmMode false s.type = akmMode false r.type := by
      intro s hs
      obtain ⟨l, hl⟩ := hfirst s hs
      rw [rsnModes_cons (hall s hs), ← hlr] at hl
      exact congrArg Prod.fst hl
    right
    by_cases hone : ∀ s ∈ e.akms, s = r
    · right
      have hmap := rsnModes_all hall
      cases hakms : e.akms with
      | nil =>
        rw [hakms] at hr
        exact nomatch hr
      | cons s l =>
        have hs : s = r := hone s (by rw [hakms]; exact List.mem_cons_self ..)
        have hlength := length_body_withAkms e
        rw [hakms] at hlength hmap
        cases l with
        | nil =>
          refine ⟨r, by rw [hs], hroui, ?_⟩
          by_contra hfits
          have hsize := hlength [r, r]
          rw [List.length_singleton, List.length_cons, List.length_singleton] at hsize
          have htwice := h [r, r] (by omega) fun t => by rw [hakms, hs]; simp
          rw [hakms, hmap, hs, rsnModes_cons hroui, rsnModes_cons hroui] at htwice
          exact akmMode_ne_open r.type (congrArg Prod.snd htwice)
        | cons t l =>
          have hsize := hlength [r]
          have hfits := e.fits
          rw [List.length_singleton, List.length_cons, List.length_cons] at hsize
          have honce := h [r] (by omega) fun u => by
            rw [List.mem_singleton]
            exact ⟨fun hu => hu ▸ hr, hone u⟩
          rw [hakms, hmap, rsnModes_cons hroui, List.map_cons] at honce
          have hlast : open' = (((t :: l).map fun s => akmMode false s.type).getLast?).getD open' :=
            congrArg Prod.snd honce
          rw [List.getLast?_eq_some_getLast (by simp), Option.getD_some] at hlast
          obtain ⟨u, -, hu⟩ := List.mem_map.mp (List.getLast_mem
            (l := (t :: l).map fun s => akmMode false s.type) (by simp))
          exact absurd (hlast.trans hu.symm).symm (akmMode_ne_open u.type)
    · left
      obtain ⟨t, ht, htr⟩ : ∃ t ∈ e.akms, t ≠ r := by
        by_contra hno
        exact hone fun s hs => by
          by_contra hsr
          exact hno ⟨s, hs, hsr⟩
      refine ⟨fun s hs => ⟨hall s hs, ?_⟩, t, ht, r, hr, htr⟩
      by_contra htype
      have hsame : ∀ u ∈ e.akms, u.type = s.type := fun u hu =>
        eq_of_akmMode_eq htype ((hmodes u hu).trans (hmodes s hs).symm)
      refine htr ?_
      obtain ⟨toui, ttype, tlen⟩ := t
      obtain ⟨roui, rtype, rlen⟩ := r
      obtain rfl : toui = roui := (hall _ ht).trans hroui.symm
      obtain rfl : ttype = rtype := (hsame _ ht).trans (hsame _ hr).symm
      rfl
  · rintro (hnone | ⟨hmax, s, hs, s', hs', hne⟩ | ⟨s, hakms, -, hfull⟩) akms fits hmem
    · rw [rsnModes_none hnone, rsnModes_none fun s hs => hnone s ((hmem s).mp hs)]
    · -- at least two suites, each of an unknown type
      have hunknown : ∀ l : List Selector, (∀ t, t ∈ l ↔ t ∈ e.akms) →
          listedModes (rsnModes l) = (AuthenticationMode.max, AuthenticationMode.max) := by
        intro l hl
        have hmaxes : rsnModes l = l.map fun _ => AuthenticationMode.max := by
          rw [rsnModes_all fun t ht => (hmax t ((hl t).mp ht)).1]
          exact List.map_congr_left fun t ht => akmMode_max (hmax t ((hl t).mp ht)).2
        rw [hmaxes, List.map_const']
        match l, (hl s).mpr hs, (hl s').mpr hs' with
        | [t], hst, hst' =>
          exact absurd ((List.mem_singleton.mp hst).trans (List.mem_singleton.mp hst').symm) hne
        | t :: u :: l, _, _ =>
          rw [List.length_cons, List.replicate_succ, listedModes, List.length_cons,
            List.getLast?_replicate]
          rfl
      rw [hunknown akms hmem, hunknown e.akms fun t => Iff.rfl]
    · have hsize := length_body_withAkms e akms
      rw [hakms, List.length_singleton] at hsize
      match akms, hsize, fits, hmem with
      | [], _, _, hmem => exact nomatch (hmem s).mpr (by rw [hakms]; exact List.mem_singleton_self s)
      | [t], _, _, hmem =>
        have ht := (hmem t).mp (List.mem_singleton_self t)
        rw [hakms, List.mem_singleton] at ht
        rw [hakms, ht]
      | t :: u :: l, hsize, fits, _ =>
        rw [List.length_cons, List.length_cons] at hsize
        omega

end

/-- **What `BssCipherParse` derives from an element**, whatever stands around it: the pairwise
ciphers are the two strongest ones listed, and the modes depend on the set of the AKM suites only,
exactly for these lists. -/
theorem suites_iff (behind : List UInt8) (pBss : BssEntry) (front back : List OtherElement)
    (e : SuiteElement) :
    (PairsRight e (bssCipherParse behind (withElements pBss front e back)).ciphers ∧
        ModesBySet behind pBss front e back) ↔
      PairsFine pBss.bssType e ∧ ModesFine pBss.bssType e := by
  refine and_congr ?_ ?_
  · obtain ⟨mem, off, b, h, hresult⟩ := bssCipherParse_withElements behind pBss front back e
    rw [hresult]
    exact pairsRight_iff _ _ b _ e h
  · unfold ModesFine
    cases hkind : e.kind with
    | wpa => exact modesBySet_wpa behind pBss front back hkind
    | rsn =>
      by_cases hgroup : e.group.oui = rsnOui
      · rw [modesBySet_rsn behind pBss front back hkind hgroup, hkind]
        exact ⟨Or.inr, fun h => h.resolve_left fun hno => hno hgroup⟩
      · refine iff_of_true (fun akms fits _ => ?_) (Or.inl hgroup)
        rw [derivedModes_rsn behind pBss front back hkind,
          derivedModes_rsn behind pBss front back (e := e.withAkms akms fits) hkind, if_neg hgroup]
        exact if_neg hgroup

namespace Example

def rsnSuite (type : UInt8) : Selector := ⟨rsnOui, type, rfl⟩

/-- AES, TKIP, and AES once more, with the AKM suites of a PSK and of 802.1X. -/
def repeatedAes : SuiteElement where
  group := rsnSuite 2
  pairs := [rsnSuite 4, rsnSuite 2, rsnSuite 4]
  akms := [rsnSuite 2, rsnSuite 1]
  rest := [0, 0]
  kind := .rsn
  fits := by decide

end Example

open Mt7601.Mlme.SuiteOrder.Example in
/-- AES is the second cipher as well, and with the AKM suites the other way round the modes are. -/
theorem not_suites_repeatedAes :
    ¬ PairsRight repeatedAes
        (bssCipherParse [] (withElements { bssType := bssInfra } [] repeatedAes [])).ciphers ∧
      ¬ ModesBySet [] { bssType := bssInfra } [] repeatedAes [] := by
  constructor
  · intro h
    exact absurd h.2 (by decide)
  · intro h
    have hswap := h [rsnSuite 1, rsnSuite 2] (by decide) fun s => by
      change s ∈ [rsnSuite 1, rsnSuite 2] ↔ s ∈ [rsnSuite 2, rsnSuite 1]
      rw [List.mem_pair, List.mem_pair, or_comm]
    exact absurd hswap (by decide)

end Mt7601.Mlme.SuiteOrder
