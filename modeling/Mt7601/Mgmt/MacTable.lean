/-
# The MAC table

`MacTableLookup`, `MacTableInsertEntry`, `MacTableDeleteEntry` and `MacTableReset` of
`mgmt/mgmt_entrytb.c`: a table of entries, a hash of their addresses into chains, and the counts. The
four functions are read in two builds, the access point with its AP client interfaces and the station
with its direct links; the entries carry what these functions decide by (the role, the address, the
index of the interface, the link).

This module says what one call does. Whatever the calls, the chains, the size and the lookups stay in
order (`Ordered`).
-/
import Mt7601.Lib.Octets
import Mt7601.Lib.Chain
import Mathlib.Data.Fintype.Basic

namespace Mt7601.Mgmt

/-! ## 1. The table -/

/-- `MAX_LEN_OF_MAC_TABLE` -/
abbrev maxLenOfMacTable : Nat := 32
/-- `HW_BEACON_MAX_NUM` -/
def hwBeaconMaxNum : UInt8 := 16
/-- `MAIN_MBSSID` -/
def mainMbssid : UInt8 := 0
/-- `MIN_NET_DEVICE_FOR_WDS` -/
def minNetDeviceForWds : UInt8 := 0x10
/-- `MIN_NET_DEVICE_FOR_APCLI` -/
def minNetDeviceForApcli : UInt8 := 0x20
/-- `MIN_NET_DEVICE_FOR_MESH` -/
def minNetDeviceForMesh : UInt8 := 0x30
/-- `MIN_NET_DEVICE_FOR_DLS` -/
def minNetDeviceForDls : UInt8 := 0x40
/-- `MIN_NET_DEVICE_FOR_TDLS` -/
def minNetDeviceForTdls : UInt8 := 0x50

/-- The number of an entry. -/
abbrev Wcid := Fin maxLenOfMacTable

/-- `EntryType` -/
inductive EntryType where
  | none | client | wds | apcli | mesh | dls | tdls
  deriving DecidableEq

/-- `OPMODE_STA` and `OPMODE_AP`: which of the two builds it is. -/
inductive OpMode where
  | sta | ap
  deriving DecidableEq

/-- `MAC_TABLE_ENTRY` -/
structure MacTableEntry where
  entryType : EntryType := .none
  addr : Octets 6 := .zero 6
  apidx : UInt8 := 0
  pNext : Option Wcid := none

/-- `MAC_TABLE`, and the counts of clients in `ApCfg` that are kept with it. -/
structure MacTab where
  content : Wcid → MacTableEntry := fun _ => {}
  hash : UInt8 → Option Wcid := fun _ => none
  size : UInt16 := 0
  staCount : UInt8 → UInt8 := fun _ => 0
  entryClientCount : UInt8 := 0

/-- What the functions read of the configuration: whether the station's BSS is an infrastructure,
`ApCfg.BssidNum`, `MAX_MBSSID_NUM` and `MaxStaNum` of each BSS. -/
structure Settings where
  bssInfra : Bool
  bssidNum : UInt8
  maxMbssidNum : UInt8
  maxStaNum : UInt8 → UInt8

namespace MacTab

/-- `!IS_ENTRY_NONE` -/
def Valid (s : MacTab) (i : Wcid) : Prop := (s.content i).entryType ≠ .none

instance (s : MacTab) : DecidablePred s.Valid := fun _ => inferInstanceAs (Decidable (_ ≠ _))

def next (s : MacTab) (i : Wcid) : Option Wcid := (s.content i).pNext

def setEntry (s : MacTab) (i : Wcid) (e : MacTableEntry) : MacTab :=
  { s with content := Function.update s.content i e }

/-- The table with other heads of the chains and other links. -/
def relink (s : MacTab) (p : (UInt8 → Option Wcid) × (Wcid → Option Wcid)) : MacTab :=
  { s with hash := p.1, content := fun i => { s.content i with pNext := p.2 i } }

/-- `StaCount++`, `EntryClientCount++` -/
def countIn (s : MacTab) (apidx : UInt8) : MacTab :=
  { s with
    staCount := Function.update s.staCount apidx (s.staCount apidx + 1)
    entryClientCount := s.entryClientCount + 1 }

/-- `StaCount--`, `EntryClientCount--` -/
def countOut (s : MacTab) (apidx : UInt8) : MacTab :=
  { s with
    staCount := Function.update s.staCount apidx (s.staCount apidx - 1)
    entryClientCount := s.entryClientCount - 1 }

end MacTab

/-- `MAC_ADDR_HASH_INDEX` -/
def macAddrHashIndex (addr : Octets 6) : UInt8 :=
  addr.get 0 ^^^ addr.get 1 ^^^ addr.get 2 ^^^ addr.get 3 ^^^ addr.get 4 ^^^ addr.get 5

/-! ## 2. The functions

A loop over a chain is given as many turns as there are entries; `none` would be a loop that is not
through by then. -/

/-- `MacTableLookup` -/
def macTableLookup (s : MacTab) (addr : Octets 6) : Option (Option Wcid) :=
  (Chain.walk s.next (fun i => decide (¬ s.Valid i ∨ (s.content i).addr = addr)) maxLenOfMacTable
    none (s.hash (macAddrHashIndex addr))).map Prod.snd

/-- The role that the interface `apidx` gives an entry. -/
def entryRole (op : OpMode) (apidx : UInt8) : EntryType :=
  match op with
  | .sta =>
    if minNetDeviceForTdls ≤ apidx then .tdls
    else if minNetDeviceForDls ≤ apidx then .dls
    else .client
  | .ap => if minNetDeviceForApcli ≤ apidx then .apcli else .client

/-- `pEntry->apidx` -/
def entryApidx (role : EntryType) (apidx : UInt8) : UInt8 :=
  match role with
  | .mesh => apidx - minNetDeviceForMesh
  | .apcli => apidx - minNetDeviceForApcli
  | .wds => apidx - minNetDeviceForWds
  | .dls => apidx - minNetDeviceForDls
  | .tdls => apidx - minNetDeviceForTdls
  | .none | .client => apidx

/-- `MBSS_MR_APIDX_SANITY_CHECK` -/
def mbssMrApidxSanityCheck (cfg : Settings) (apidx : UInt8) : UInt8 :=
  if cfg.maxMbssidNum ≤ apidx ∨ hwBeaconMaxNum ≤ apidx then mainMbssid else apidx

/-- "The connection table is full in ra%d." -/
def connectionTableFull (cfg : Settings) (s : MacTab) (apidx : UInt8) : Bool :=
  apidx < cfg.bssidNum && apidx < cfg.maxMbssidNum && apidx < hwBeaconMaxNum &&
    cfg.maxStaNum apidx != 0 && decide (cfg.maxStaNum apidx ≤ s.staCount apidx)

/-- `FirstWcid` -/
def firstWcid (op : OpMode) (cfg : Settings) : Nat :=
  if op = .sta ∧ cfg.bssInfra then 2 else 1

/-- "pick up the first available vacancy" -/
def firstVacancy (op : OpMode) (cfg : Settings) (s : MacTab) : Option Wcid :=
  (List.finRange maxLenOfMacTable).find? fun i =>
    decide (firstWcid op cfg ≤ i.val ∧ ¬ s.Valid i)

/-- "add this MAC entry into HASH table" -/
def linkEntry (s : MacTab) (i : Wcid) (hashIdx : UInt8) : Option MacTab :=
  (Chain.append maxLenOfMacTable s.hash s.next hashIdx i).map s.relink

/-- `MacTableInsertEntry` -/
def macTableInsertEntry (op : OpMode) (cfg : Settings) (s : MacTab) (addr : Octets 6)
    (apidx : UInt8) : Option (MacTab × Option Wcid) :=
  if maxLenOfMacTable ≤ s.size.toNat then some (s, none)
  else
    match firstVacancy op cfg s with
    | none => some (s, none)
    | some i =>
      let role := entryRole op apidx
      let cleared := s.setEntry i {}
      if op = .ap ∧ role = .client ∧ connectionTableFull cfg cleared apidx then some (cleared, none)
      else
        let entry : MacTableEntry :=
          { entryType := role, addr := addr, apidx := entryApidx role apidx, pNext := none }
        let entered : MacTab := { cleared.setEntry i entry with size := s.size + 1 }
        let counted : MacTab :=
          if op = .ap ∧ role = .client then entered.countIn (mbssMrApidxSanityCheck cfg apidx)
          else entered
        (linkEntry counted i (macAddrHashIndex addr)).map fun linked => (linked, some i)

/-- "update Hash list" -/
def unlinkEntry (s : MacTab) (i : Wcid) (hashIdx : UInt8) : Option MacTab := do
  let (prev, probe) ← Chain.walk s.next (fun j => decide (j = i)) maxLenOfMacTable none
    (s.hash hashIdx)
  match probe with
  | none => pure s
  | some _ => pure (s.relink (Chain.cut s.hash s.next hashIdx prev i))

/-- `MacTableDeleteEntry` -/
def macTableDeleteEntry (op : OpMode) (s : MacTab) (wcid : UInt16) (addr : Octets 6) :
    Option MacTab :=
  if h : wcid.toNat < maxLenOfMacTable then
    let i : Wcid := ⟨wcid.toNat, h⟩
    let entry := s.content i
    if s.Valid i ∧ entry.addr = addr then do
      let counted := if op = .ap ∧ entry.entryType = .client then s.countOut entry.apidx else s
      let unlinked ← unlinkEntry counted i (macAddrHashIndex addr)
      pure { unlinked.setEntry i { unlinked.content i with addr := .zero 6, entryType := .none } with
        size := unlinked.size - 1 }
    else some s
  else some s

/-- The loop of `MacTableReset`, and whether it comes to its end: `stops` says for which entries
the client is associated and there is no memory for the frame that tells it. -/
def macTableResetLoop (op : OpMode) (stops : Wcid → Bool) : List Wcid → MacTab →
    Option (MacTab × Bool)
  | [], s => some (s, true)
  | i :: rest, s =>
    if op = .ap ∧ (s.content i).entryType = .client ∧ stops i then some (s, false)
    else do
      let deleted ← macTableDeleteEntry op s (UInt16.ofNat i.val) (s.content i).addr
      macTableResetLoop op stops rest deleted

/-- `MacTableReset` -/
def macTableReset (op : OpMode) (cfg : Settings) (s : MacTab) (stops : Wcid → Bool) :
    Option MacTab := do
  let (emptied, done) ← macTableResetLoop op stops (List.finRange maxLenOfMacTable).tail s
  if done ∧ op = .ap then
    pure { emptied with
      staCount := fun apidx => if apidx < cfg.bssidNum then 0 else emptied.staCount apidx
      size := 0 }
  else pure emptied

/-! ## 3. Linking and unlinking -/

namespace MacTab

/-- The chain an entry belongs to. -/
def bucket (s : MacTab) (i : Wcid) : UInt8 := macAddrHashIndex (s.content i).addr

/-- The number of valid client entries of an MBSS. -/
def clients (s : MacTab) (apidx : UInt8) : Nat :=
  (Finset.univ.filter fun i =>
    (s.content i).entryType = .client ∧ (s.content i).apidx = apidx).card

/-- `s'` is `s` but for the links. -/
structure Relinked (s s' : MacTab) : Prop where
  content : ∀ i, s'.content i = { s.content i with pNext := s'.next i }
  size : s'.size = s.size
  staCount : s'.staCount = s.staCount

variable {s s' : MacTab} {i k : Wcid}

theorem Relinked.entryType (h : Relinked s s') (i : Wcid) :
    (s'.content i).entryType = (s.content i).entryType := by rw [h.content i]

theorem Relinked.addr (h : Relinked s s') (i : Wcid) :
    (s'.content i).addr = (s.content i).addr := by rw [h.content i]

theorem Relinked.apidx (h : Relinked s s') (i : Wcid) :
    (s'.content i).apidx = (s.content i).apidx := by rw [h.content i]

theorem Relinked.bucket (h : Relinked s s') (i : Wcid) : s'.bucket i = s.bucket i := by
  rw [MacTab.bucket, h.addr i, MacTab.bucket]

@[simp] theorem content_setEntry_self (e : MacTableEntry) : (s.setEntry i e).content i = e :=
  Function.update_self ..

theorem content_setEntry_of_ne (e : MacTableEntry) (h : k ≠ i) :
    (s.setEntry i e).content k = s.content k :=
  Function.update_of_ne h ..

theorem relinked_relink (s : MacTab) (p : (UInt8 → Option Wcid) × (Wcid → Option Wcid)) :
    Relinked s (s.relink p) := ⟨fun _ => rfl, rfl, rfl⟩

end MacTab

open MacTab

section

variable {s : MacTab} {i : Wcid} {b : UInt8} {valid valid' : Wcid → Prop} {bucket bucket' : Wcid → UInt8}

/-- There are turns enough for every chain. -/
theorem length_le_of_linked {next : Wcid → Option Wcid} {p : Option Wcid} {l : List Wcid}
    (h : Chain.Linked next p l) : l.length ≤ maxLenOfMacTable :=
  h.length_le.trans_eq (Fintype.card_fin maxLenOfMacTable)

/-- **Linking an entry puts it at the end of its chain.** -/
theorem linkEntry_hashed (h : Chain.Hashed s.hash s.next valid bucket) (hnew : ¬ valid i)
    (hend : s.next i = none) (hown : bucket' i = b) (hvalid : ∀ k, valid' k ↔ valid k ∨ k = i)
    (hbucket : ∀ k, valid k → bucket' k = bucket k) :
    ∃ s', linkEntry s i b = some s' ∧ Chain.Hashed s'.hash s'.next valid' bucket' ∧
      Relinked s s' := by
  have hfuel : Fintype.card Wcid ≤ maxLenOfMacTable := (Fintype.card_fin maxLenOfMacTable).le
  obtain ⟨p, hp, hlinked⟩ := h.append hfuel hnew hend hown hvalid hbucket
  exact ⟨s.relink p, congrArg (Option.map s.relink) hp, hlinked, relinked_relink s p⟩

/-- **Unlinking a valid entry takes it out of its chain.** -/
theorem unlinkEntry_hashed (h : Chain.Hashed s.hash s.next valid bucket) (hi : valid i) :
    ∃ s', unlinkEntry s i (bucket i) = some s' ∧
      Chain.Hashed s'.hash s'.next (fun k => valid k ∧ k ≠ i) bucket ∧ Relinked s s' := by
  obtain ⟨l, hl, hmem⟩ := h (bucket i)
  obtain ⟨a, r, rfl⟩ := List.append_of_mem ((hmem i).mpr ⟨hi, rfl⟩)
  have hpass : ∀ j ∈ a, decide (j = i) = false := by
    intro j hj
    rw [decide_eq_false_iff_not]
    rintro rfl
    exact Chain.not_mem_of_nodup_middle hl.nodup (List.mem_append_left r hj)
  have hwalk : Chain.walk s.next (fun j => decide (j = i)) maxLenOfMacTable none
      (s.hash (bucket i)) = some (a.getLast?.or none, some i) :=
    hl.walk_stop (length_le_of_linked hl) hpass (decide_eq_true rfl)
  rw [Option.or_none] at hwalk
  refine ⟨_, ?_, (h.cut hl).1, relinked_relink s _⟩
  rw [unlinkEntry, hwalk]
  rfl

end

/-! ## 4. What a call does to a table in order -/

/-- **The chains and the size are those of the valid entries**, and entry 0 is not used. -/
structure Ordered (s : MacTab) : Prop where
  chained : Chain.Hashed s.hash s.next s.Valid s.bucket
  size : s.size.toNat = (Finset.univ.filter s.Valid).card
  first : ¬ s.Valid 0

theorem ordered_empty : Ordered {} where
  chained := Chain.hashed_empty (fun _ => rfl) fun _ h => h rfl
  size := by decide
  first := fun h => h rfl

/-- **The lookup finds the address exactly where it is valid.** -/
theorem Ordered.lookup {s : MacTab} (h : Ordered s) (addr : Octets 6) :
    ∃ r, macTableLookup s addr = some r ∧
      (∀ i, r = some i → s.Valid i ∧ (s.content i).addr = addr) ∧
      (r = none → ∀ i, s.Valid i → (s.content i).addr ≠ addr) := by
  obtain ⟨l, hl, hmem⟩ := h.chained (macAddrHashIndex addr)
  let halt : Wcid → Bool := fun i => decide (¬ s.Valid i ∨ (s.content i).addr = addr)
  obtain ⟨q, hwalk⟩ : ∃ q, Chain.walk s.next halt maxLenOfMacTable none
      (s.hash (macAddrHashIndex addr)) = some (q, l.find? halt) :=
    hl.walk_eq (length_le_of_linked hl)
  refine ⟨l.find? halt, ?_, fun i hfind => ?_, fun hfind i hi haddr => ?_⟩
  · rw [macTableLookup, hwalk]
    rfl
  · have hvalid := ((hmem i).mp (List.mem_of_find?_eq_some hfind)).1
    have hstop : halt i = true := List.find?_some hfind
    exact ⟨hvalid, (of_decide_eq_true hstop).resolve_left fun hno => hno hvalid⟩
  · have hin : i ∈ l := by
      refine (hmem i).mpr ⟨hi, ?_⟩
      rw [MacTab.bucket, haddr]
    have hpass := List.find?_eq_none.mp hfind i hin
    exact hpass (decide_eq_true (.inr haddr))

theorem Ordered.card_lt {s : MacTab} (h : Ordered s) :
    (Finset.univ.filter s.Valid).card < maxLenOfMacTable := by
  have hlt : (Finset.univ.filter s.Valid).card < (Finset.univ : Finset Wcid).card := by
    refine Finset.card_lt_card ⟨Finset.filter_subset .., fun hall => ?_⟩
    exact h.first (Finset.mem_filter.mp (hall (Finset.mem_univ 0))).2
  exact hlt.trans_eq (Finset.card_fin maxLenOfMacTable)

/-- What an insertion did that found entry `i` for the address. -/
structure Inserted (op : OpMode) (cfg : Settings) (s : MacTab) (addr : Octets 6) (apidx : UInt8)
    (i : Wcid) (s' : MacTab) : Prop where
  vacancy : firstVacancy op cfg s = some i
  vacant : ¬ s.Valid i
  role : (s'.content i).entryType = entryRole op apidx
  address : (s'.content i).addr = addr
  index : (s'.content i).apidx = entryApidx (entryRole op apidx) apidx
  other : ∀ k ≠ i, (s'.content k).entryType = (s.content k).entryType ∧
    (s'.content k).addr = (s.content k).addr ∧ (s'.content k).apidx = (s.content k).apidx
  staCount : s'.staCount =
    if op = .ap ∧ entryRole op apidx = .client then
      (s.countIn (mbssMrApidxSanityCheck cfg apidx)).staCount
    else s.staCount

/-- What an insertion did that returns no entry. -/
structure Refused (op : OpMode) (cfg : Settings) (s : MacTab) (apidx : UInt8) (s' : MacTab) :
    Prop where
  entryType : ∀ k, (s'.content k).entryType = (s.content k).entryType
  kept : ∀ k, s.Valid k → s'.content k = s.content k
  staCount : s'.staCount = s.staCount
  full : firstVacancy op cfg s = none ∨ apidx < cfg.maxMbssidNum ∧ apidx < hwBeaconMaxNum

theorem entryRole_ne_none (op : OpMode) (apidx : UInt8) : entryRole op apidx ≠ .none := by
  unfold entryRole
  cases op <;> dsimp only <;> split_ifs <;> nofun

theorem firstVacancy_eq_some {op : OpMode} {cfg : Settings} {s : MacTab} {i : Wcid}
    (h : firstVacancy op cfg s = some i) : ¬ s.Valid i ∧ i ≠ 0 := by
  have hpick : decide (firstWcid op cfg ≤ i.val ∧ ¬ s.Valid i) = true :=
    List.find?_some (p := fun i : Wcid => decide (firstWcid op cfg ≤ i.val ∧ ¬ s.Valid i)) h
  obtain ⟨hfirst, hvacant⟩ := of_decide_eq_true hpick
  refine ⟨hvacant, ?_⟩
  rintro rfl
  unfold firstWcid at hfirst
  split at hfirst
  · exact absurd hfirst (by decide)
  · exact absurd hfirst (by decide)

/-- An entry is put where none was, and linked. -/
theorem Ordered.link {s s₁ : MacTab} {i : Wcid} {b : UInt8} (h : Ordered s) (hvacant : ¬ s.Valid i)
    (hfirst : i ≠ 0) (hhash : s₁.hash = s.hash) (hvalid : s₁.Valid i) (hown : s₁.bucket i = b)
    (hend : s₁.next i = none) (hother : ∀ k ≠ i, s₁.content k = s.content k)
    (hsize : s₁.size = s.size + 1) :
    ∃ s', linkEntry s₁ i b = some s' ∧ Ordered s' ∧ Relinked s₁ s' := by
  have hne : ∀ k, s.Valid k → k ≠ i := by
    rintro k hk rfl
    exact hvacant hk
  have hgrow : ∀ k, s₁.Valid k ↔ s.Valid k ∨ k = i := by
    intro k
    by_cases hk : k = i
    · rw [hk]
      exact iff_of_true hvalid (.inr rfl)
    · unfold MacTab.Valid
      rw [hother k hk]
      exact ⟨.inl, fun hv => hv.resolve_right hk⟩
  have hold : Chain.Hashed s₁.hash s₁.next s.Valid s.bucket := by
    rw [hhash]
    refine h.chained.congr (fun _ => rfl) (fun _ => Iff.rfl) (fun k hk => ?_) fun _ _ => rfl
    rw [MacTab.next, hother k (hne k hk), MacTab.next]
  obtain ⟨s', hlink, hchained, hsame⟩ := linkEntry_hashed hold hvacant hend hown hgrow fun k hk => by
    rw [MacTab.bucket, hother k (hne k hk), MacTab.bucket]
  have hiff : ∀ k, s'.Valid k ↔ s₁.Valid k := fun k => by
    unfold MacTab.Valid
    rw [hsame.entryType k]
  refine ⟨s', hlink, ⟨?_, ?_, ?_⟩, hsame⟩
  · exact hchained.congr (fun _ => rfl) hiff (fun _ _ => rfl) fun k _ => hsame.bucket k
  · have hcard : (Finset.univ.filter s'.Valid).card = (Finset.univ.filter s.Valid).card + 1 :=
      Chain.card_link hvacant fun k => (hiff k).trans (hgrow k)
    have hroom := h.card_lt
    have hnow := h.size
    rw [hsame.size, hsize, hcard, UInt16.toNat_add, UInt16.toNat_one]
    unfold maxLenOfMacTable at hroom
    omega
  · rw [hiff, hgrow]
    rintro (hv | rfl)
    · exact h.first hv
    · exact hfirst rfl

/-- **An insertion keeps the table in order**, and puts the address in or leaves the entries as they
are. -/
theorem Ordered.insert {s : MacTab} (h : Ordered s) (op : OpMode) (cfg : Settings)
    (addr : Octets 6) (apidx : UInt8) :
    ∃ s', Ordered s' ∧
      ((∃ i, macTableInsertEntry op cfg s addr apidx = some (s', some i) ∧
          Inserted op cfg s addr apidx i s') ∨
        macTableInsertEntry op cfg s addr apidx = some (s', none) ∧ Refused op cfg s apidx s') := by
  have hroom : ¬ maxLenOfMacTable ≤ s.size.toNat := by
    rw [h.size]
    exact Nat.not_le.mpr h.card_lt
  cases hfind : firstVacancy op cfg s with
  | none =>
    refine ⟨s, h, .inr ⟨?_, ⟨fun _ => rfl, fun _ _ => rfl, rfl, .inl hfind⟩⟩⟩
    rw [macTableInsertEntry, if_neg hroom, hfind]
  | some i =>
    obtain ⟨hvacant, hfirst⟩ := firstVacancy_eq_some hfind
    have hnone : (s.content i).entryType = .none := not_not.mp hvacant
    by_cases hfull : op = .ap ∧ entryRole op apidx = .client ∧
        connectionTableFull cfg (s.setEntry i {}) apidx = true
    · have htype : ∀ k, ((s.setEntry i {}).content k).entryType = (s.content k).entryType := by
        intro k
        by_cases hk : k = i
        · rw [hk, content_setEntry_self, hnone]
        · rw [content_setEntry_of_ne _ hk]
      have hkept : ∀ k, s.Valid k → (s.setEntry i {}).content k = s.content k := by
        intro k hk
        refine content_setEntry_of_ne _ ?_
        rintro rfl
        exact hvacant hk
      have hiff : ∀ k, (s.setEntry i {}).Valid k ↔ s.Valid k := fun k => by
        unfold MacTab.Valid
        rw [htype k]
      refine ⟨s.setEntry i {}, ⟨?_, ?_, ?_⟩, .inr ⟨?_, ⟨htype, hkept, rfl, .inr ?_⟩⟩⟩
      · refine h.chained.congr (fun _ => rfl) hiff (fun k hk => ?_) fun k hk => ?_
        · rw [MacTab.next, hkept k hk, MacTab.next]
        · rw [MacTab.bucket, hkept k hk, MacTab.bucket]
      · have hcard := h.size
        rw [← Finset.filter_congr fun k _ => hiff k] at hcard
        exact hcard
      · rw [hiff]
        exact h.first
      · rw [macTableInsertEntry, if_neg hroom, hfind]
        exact if_pos hfull
      · have hin := hfull.2.2
        unfold connectionTableFull at hin
        simp only [Bool.and_eq_true, decide_eq_true_eq] at hin
        exact ⟨hin.1.1.1.2, hin.1.1.2⟩
    · let entry : MacTableEntry :=
        ⟨entryRole op apidx, addr, entryApidx (entryRole op apidx) apidx, none⟩
      let entered : MacTab := { (s.setEntry i {}).setEntry i entry with size := s.size + 1 }
      let counted : MacTab :=
        if op = .ap ∧ entryRole op apidx = .client then
          entered.countIn (mbssMrApidxSanityCheck cfg apidx)
        else entered
      have hframe : counted.content = entered.content ∧ counted.hash = s.hash ∧
          counted.size = s.size + 1 ∧ counted.staCount =
            if op = .ap ∧ entryRole op apidx = .client then
              (s.countIn (mbssMrApidxSanityCheck cfg apidx)).staCount
            else s.staCount := by
        by_cases hcount : op = .ap ∧ entryRole op apidx = .client
        · have hcounted : counted = entered.countIn (mbssMrApidxSanityCheck cfg apidx) :=
            if_pos hcount
          rw [hcounted, if_pos hcount]
          exact ⟨rfl, rfl, rfl, rfl⟩
        · have hcounted : counted = entered := if_neg hcount
          rw [hcounted, if_neg hcount]
          exact ⟨rfl, rfl, rfl, rfl⟩
      have hself : counted.content i = entry := by
        rw [hframe.1]
        exact content_setEntry_self entry
      have hother : ∀ k ≠ i, counted.content k = s.content k := by
        intro k hk
        rw [hframe.1]
        exact (content_setEntry_of_ne entry hk).trans (content_setEntry_of_ne {} hk)
      obtain ⟨s', hlink, hordered, hsame⟩ := h.link hvacant hfirst hframe.2.1
        (by unfold MacTab.Valid; rw [hself]; exact entryRole_ne_none op apidx)
        (by rw [MacTab.bucket, hself]) (by rw [MacTab.next, hself]) hother hframe.2.2.1
      refine ⟨s', hordered, .inl ⟨i, ?_, ?_⟩⟩
      · rw [macTableInsertEntry, if_neg hroom, hfind]
        dsimp only
        rw [if_neg hfull]
        exact congrArg (Option.map fun linked => (linked, some i)) hlink
      · refine ⟨hfind, hvacant, ?_, ?_, ?_, fun k hk => ?_, ?_⟩
        · rw [hsame.entryType i, hself]
        · rw [hsame.addr i, hself]
        · rw [hsame.apidx i, hself]
        · rw [hsame.entryType k, hsame.addr k, hsame.apidx k, hother k hk]
          exact ⟨rfl, rfl, rfl⟩
        · rw [hsame.staCount]
          exact hframe.2.2.2

/-- What a deletion did that found the address at entry `i`. -/
structure Deleted (op : OpMode) (s : MacTab) (i : Wcid) (s' : MacTab) : Prop where
  valid : s.Valid i
  entryType : (s'.content i).entryType = .none
  other : ∀ k ≠ i, (s'.content k).entryType = (s.content k).entryType ∧
    (s'.content k).addr = (s.content k).addr ∧ (s'.content k).apidx = (s.content k).apidx
  staCount : s'.staCount =
    if op = .ap ∧ (s.content i).entryType = .client then
      (s.countOut (s.content i).apidx).staCount
    else s.staCount

/-- **A deletion keeps the table in order**, and takes the address out or does nothing. -/
theorem Ordered.delete {s : MacTab} (h : Ordered s) (op : OpMode) (wcid : UInt16)
    (addr : Octets 6) :
    ∃ s', macTableDeleteEntry op s wcid addr = some s' ∧ Ordered s' ∧
      ((∃ i : Wcid, i.val = wcid.toNat ∧ Deleted op s i s') ∨
        s' = s ∧ ∀ i : Wcid, i.val = wcid.toNat → ¬ (s.Valid i ∧ (s.content i).addr = addr)) := by
  by_cases hlt : wcid.toNat < maxLenOfMacTable
  swap
  · refine ⟨s, ?_, h, .inr ⟨rfl, fun i hi => absurd (hi ▸ i.isLt) hlt⟩⟩
    rw [macTableDeleteEntry, dif_neg hlt]
  · obtain ⟨i, hi⟩ : ∃ i : Wcid, i = ⟨wcid.toNat, hlt⟩ := ⟨_, rfl⟩
    have hval : i.val = wcid.toNat := by rw [hi]
    by_cases hfound : s.Valid i ∧ (s.content i).addr = addr
    swap
    · refine ⟨s, ?_, h, .inr ⟨rfl, fun j hj => ?_⟩⟩
      · rw [macTableDeleteEntry, dif_pos hlt, ← hi]
        exact if_neg hfound
      · rw [Fin.ext (hj.trans hval.symm)]
        exact hfound
    · obtain ⟨hvalid, haddr⟩ := hfound
      let counted : MacTab :=
        if op = .ap ∧ (s.content i).entryType = .client then s.countOut (s.content i).apidx else s
      have hframe : counted.content = s.content ∧ counted.hash = s.hash ∧
          counted.size = s.size ∧ counted.staCount =
            if op = .ap ∧ (s.content i).entryType = .client then
              (s.countOut (s.content i).apidx).staCount
            else s.staCount := by
        by_cases hcount : op = .ap ∧ (s.content i).entryType = .client
        · have hcounted : counted = s.countOut (s.content i).apidx := if_pos hcount
          rw [hcounted, if_pos hcount]
          exact ⟨rfl, rfl, rfl, rfl⟩
        · have hcounted : counted = s := if_neg hcount
          rw [hcounted, if_neg hcount]
          exact ⟨rfl, rfl, rfl, rfl⟩
      have hold : Chain.Hashed counted.hash counted.next s.Valid s.bucket := by
        rw [hframe.2.1]
        refine h.chained.congr (fun _ => rfl) (fun _ => Iff.rfl) (fun k _ => ?_) fun _ _ => rfl
        rw [MacTab.next, hframe.1, MacTab.next]
      obtain ⟨u, hunlink, hchained, hsame⟩ := unlinkEntry_hashed hold hvalid
      let gone : MacTableEntry := { u.content i with addr := .zero 6, entryType := .none }
      let s' : MacTab := { u.setEntry i gone with size := u.size - 1 }
      have hself : s'.content i = gone := content_setEntry_self gone
      have hother : ∀ k ≠ i, s'.content k = u.content k := fun k hk => content_setEntry_of_ne gone hk
      have hsame' : ∀ k, (u.content k).entryType = (s.content k).entryType ∧
          (u.content k).addr = (s.content k).addr ∧ (u.content k).apidx = (s.content k).apidx := by
        intro k
        rw [hsame.entryType k, hsame.addr k, hsame.apidx k, hframe.1]
        exact ⟨rfl, rfl, rfl⟩
      have hiff : ∀ k, s'.Valid k ↔ s.Valid k ∧ k ≠ i := by
        intro k
        unfold MacTab.Valid
        by_cases hk : k = i
        · rw [hk, hself]
          exact iff_of_false (fun hne => hne rfl) fun hne => hne.2 rfl
        · rw [hother k hk, (hsame' k).1]
          exact ⟨fun hv => ⟨hv, hk⟩, fun hv => hv.1⟩
      have hrun : macTableDeleteEntry op s wcid addr = some s' := by
        rw [MacTab.bucket, haddr] at hunlink
        rw [macTableDeleteEntry, dif_pos hlt, ← hi]
        dsimp only
        rw [if_pos ⟨hvalid, haddr⟩]
        exact congrArg (fun o : Option MacTab => o >>= fun u => some
          { u.setEntry i { u.content i with addr := .zero 6, entryType := .none } with
            size := u.size - 1 }) hunlink
      refine ⟨s', hrun, ⟨?_, ?_, ?_⟩, .inl ⟨i, hval, ⟨hvalid, ?_, fun k hk => ?_, ?_⟩⟩⟩
      · refine hchained.congr (fun _ => rfl) hiff (fun k hk => ?_) fun k hk => ?_
        · rw [MacTab.next, hother k hk.2, MacTab.next]
        · rw [MacTab.bucket, hother k hk.2, (hsame' k).2.1, MacTab.bucket]
      · have hcard := Chain.card_unlink hvalid hiff
        have hnow := h.size
        have hsize : s'.size = s.size - 1 := by
          change u.size - 1 = _
          rw [hsame.size, hframe.2.2.1]
        have hroom := h.card_lt
        unfold maxLenOfMacTable at hroom
        have hle : (1 : UInt16) ≤ s.size := by
          rw [UInt16.le_iff_toNat_le, UInt16.toNat_one]
          omega
        rw [hsize, UInt16.toNat_sub_of_le _ _ hle, UInt16.toNat_one]
        omega
      · exact fun hv => h.first ((hiff 0).mp hv).1
      · rw [hself]
      · rw [hother k hk]
        exact hsame' k
      · change u.staCount = _
        rw [hsame.staCount]
        exact hframe.2.2.2

end Mt7601.Mgmt
