/-
# The PMKID cache of an access point

`RTMPAddPMKIDCache`, `RTMPSearchPMKIDCache`, `RTMPDeletePMKIDCache` and `RTMPMaintainPMKIDCache` of
`ap/ap_wpa.c`, on the eight places of one BSS.

A station has one place at most, and a search finds what was added last for it (`search_lastAdded`).
A full cache does not give up its oldest entry: the scan keeps the *largest* time stamp, and zero also
says that nothing has been chosen yet. `pmkidRuns_iff` has the runs in which the right entry goes.
-/
import Mt7601.Igmp.FilterTable
import Mt7601.Lib.Run
import Mt7601.Wpa.Handlers

namespace Mt7601.Wpa

open Igmp (timeAfter)

/-! ## 1. The code -/

/-- `PMKIDCache` of `MULTISSID_STRUCT`. -/
abbrev PmkidCache := List.Vector ApBssidInfo 8

/-- `RTMPDeletePMKIDCache` -/
def rtmpDeletePmkidCache (cache : PmkidCache) (i : Fin 8) : PmkidCache :=
  if (cache.get i).valid then cache.set i { cache.get i with valid := false } else cache

/-- The turn of `RTMPMaintainPMKIDCache` at a place; `now` has what the clock shows at each. -/
def maintainEntry (period : UInt64) (now : Fin 8 → UInt64) (cache : PmkidCache) (i : Fin 8) :
    PmkidCache :=
  if (cache.get i).valid ∧ timeAfter (now i) ((cache.get i).refreshTime + period) then
    rtmpDeletePmkidCache cache i
  else cache

/-- `RTMPMaintainPMKIDCache`, where `PMKCachePeriod` is `period`. -/
def rtmpMaintainPmkidCache (period : UInt64) (now : Fin 8 → UInt64) (cache : PmkidCache) :
    PmkidCache :=
  (List.finRange 8).foldl (maintainEntry period now) cache

/-- One call. -/
inductive PmkidOp where
  | add (now : UInt64) (addr : MacAddr) (pmkid : Octets 16) (pmk : Octets 32)
  | search (addr : MacAddr)
  | delete (i : Fin 8)
  | maintain (period : UInt64) (now : Fin 8 → UInt64)

def pmkidStep (cache : PmkidCache) : PmkidOp → PmkidCache
  | .add now addr pmkid pmk => rtmpAddPmkidCache cache now addr pmkid pmk
  | .search _ => cache
  | .delete i => rtmpDeletePmkidCache cache i
  | .maintain period now => rtmpMaintainPmkidCache period now cache

/-- The cache when the driver comes up. -/
def emptyPmkidCache : PmkidCache := .replicate 8 ⟨false, .zero 6, 0, .zero 16, .zero 32⟩

/-! ## 2. What is to hold -/

section

variable (cache : PmkidCache)

/-- A place holds an entry of the station. -/
def Holds (i : Fin 8) (addr : MacAddr) : Prop :=
  (cache.get i).valid = true ∧ (cache.get i).mac = addr

instance (i : Fin 8) (addr : MacAddr) : Decidable (Holds cache i addr) :=
  inferInstanceAs (Decidable (_ ∧ _))

/-- The keys at a place. -/
def keysAt (i : Fin 8) : Octets 16 × Octets 32 := ((cache.get i).pmkid, (cache.get i).pmk)

/-- **No station has two entries.** -/
def OneEach : Prop := ∀ i j addr, Holds cache i addr → Holds cache j addr → i = j

/-- A station that is not in the cache finds no free place. -/
def FullFor (addr : MacAddr) : Prop :=
  ∀ i, (cache.get i).valid = true ∧ (cache.get i).mac ≠ addr

/-- The entry of a place is in `cache'` no more. -/
def Gone (cache' : PmkidCache) (i : Fin 8) : Prop :=
  (cache.get i).valid = true ∧ ∀ j, ¬ Holds cache' j (cache.get i).mac

instance (cache' : PmkidCache) (i : Fin 8) : Decidable (Gone cache cache' i) :=
  inferInstanceAs (Decidable (_ ∧ _))

/-- When a call may end an entry. -/
def PmkidOp.MayEnd (i : Fin 8) : PmkidOp → Prop
  | .add _ addr _ _ =>
    FullFor cache addr ∧ ∀ j, (cache.get i).refreshTime ≤ (cache.get j).refreshTime
  | .search _ => False
  | .delete j => i = j
  | .maintain period now => period < now i - (cache.get i).refreshTime

/-- **The law of one call.** -/
structure PmkidLawful (op : PmkidOp) : Prop where
  oneEach : OneEach (pmkidStep cache op)
  found : ∀ now addr pmkid pmk, op = .add now addr pmkid pmk →
    ∃ i, rtmpSearchPmkidCache (pmkidStep cache op) addr = some i ∧
      keysAt (pmkidStep cache op) i = (pmkid, pmk)
  ended : ∀ i, Gone cache (pmkidStep cache op) i → op.MayEnd cache i
  evictsOne : ∀ now addr pmkid pmk, op = .add now addr pmkid pmk →
    ∀ i j, Gone cache (pmkidStep cache op) i → Gone cache (pmkidStep cache op) j → i = j

/-- **The condition.** A station that comes to a full cache finds all entries refreshed at one time,
or the first two at time zero; and the period ends less than half the clock's range ahead. -/
def PmkidOp.Fits : PmkidOp → Prop
  | .add _ addr _ _ => FullFor cache addr →
    (∀ i j, (cache.get i).refreshTime = (cache.get j).refreshTime) ∨
      (cache.get 0).refreshTime = 0 ∧ (cache.get 1).refreshTime = 0
  | .search _ | .delete _ => True
  | .maintain period now => ∀ i, (cache.get i).valid = true →
    period.toNat < (now i - (cache.get i).refreshTime).toNat + 2 ^ 63

end

/-! ## 3. Searching -/

section

variable {cache : PmkidCache} {addr : MacAddr} {i : Fin 8}

theorem holds_of_search (h : rtmpSearchPmkidCache cache addr = some i) : Holds cache i addr := by
  have hfound := List.find?_some h
  exact of_decide_eq_true hfound

theorem search_eq_none :
    rtmpSearchPmkidCache cache addr = none ↔ ∀ j, ¬ Holds cache j addr := by
  unfold rtmpSearchPmkidCache Holds
  simp

/-- **A search finds the one entry there is.** -/
theorem search_eq_some (hone : OneEach cache) :
    rtmpSearchPmkidCache cache addr = some i ↔ Holds cache i addr := by
  refine ⟨holds_of_search, fun hi => ?_⟩
  rcases hsearch : rtmpSearchPmkidCache cache addr with _ | j
  · exact absurd hi (search_eq_none.mp hsearch i)
  · rw [hone j i addr (holds_of_search hsearch) hi]

end

/-! ## 4. Adding -/

/-- The place `RTMPAddPMKIDCache` writes. -/
def addPlace (cache : PmkidCache) (addr : MacAddr) : Fin 8 :=
  (rtmpSearchPmkidCache cache addr).getD
    (((List.finRange 8).find? fun i => !(cache.get i).valid).getD (evictedPmkid cache))

section

variable {cache : PmkidCache} {now : UInt64} {addr : MacAddr} {pmkid : Octets 16} {pmk : Octets 32}

/-- **All that is written is one place**, and all of it is new. -/
theorem rtmpAddPmkidCache_eq :
    rtmpAddPmkidCache cache now addr pmkid pmk =
      cache.set (addPlace cache addr) ⟨true, addr, now, pmkid, pmk⟩ := by
  unfold rtmpAddPmkidCache addPlace
  cases hsearch : rtmpSearchPmkidCache cache addr with
  | none => rfl
  | some i =>
    obtain ⟨hvalid, hmac⟩ := holds_of_search hsearch
    simp [← hvalid, ← hmac]

/-- The place belongs to the station, or is free, or the cache is full. -/
theorem addPlace_cases (cache : PmkidCache) (addr : MacAddr) :
    Holds cache (addPlace cache addr) addr ∨
      (∀ j, ¬ Holds cache j addr) ∧ ((cache.get (addPlace cache addr)).valid = false ∨
        FullFor cache addr ∧ addPlace cache addr = evictedPmkid cache) := by
  unfold addPlace
  cases hsearch : rtmpSearchPmkidCache cache addr with
  | some i => exact .inl (holds_of_search hsearch)
  | none =>
    have hnot := search_eq_none.mp hsearch
    refine .inr ⟨hnot, ?_⟩
    cases hfree : (List.finRange 8).find? fun i => !(cache.get i).valid with
    | some i => exact .inl (by simpa using List.find?_some hfree)
    | none =>
      have hvalid : ∀ i, (cache.get i).valid = true := by simpa using hfree
      exact .inr ⟨fun i => ⟨hvalid i, fun hmac => hnot i ⟨hvalid i, hmac⟩⟩, rfl⟩

theorem holds_add {j : Fin 8} {a : MacAddr} :
    Holds (rtmpAddPmkidCache cache now addr pmkid pmk) j a ↔
      if j = addPlace cache addr then a = addr else Holds cache j a := by
  rw [rtmpAddPmkidCache_eq]
  unfold Holds
  by_cases hj : j = addPlace cache addr
  · rw [if_pos hj, hj, List.Vector.get_set_same]
    simp [eq_comm]
  · rw [if_neg hj, List.Vector.get_set_of_ne (Ne.symm hj)]

/-- An old entry of the station can only be the one that is overwritten. -/
theorem not_holds_of_ne (hone : OneEach cache) {j : Fin 8} (hj : j ≠ addPlace cache addr) :
    ¬ Holds cache j addr := by
  intro hheld
  rcases addPlace_cases cache addr with hplace | ⟨hnot, -⟩
  · exact hj (hone j _ addr hheld hplace)
  · exact hnot j hheld

/-- **Adding keeps the entries apart.** -/
theorem oneEach_add (hone : OneEach cache) :
    OneEach (rtmpAddPmkidCache cache now addr pmkid pmk) := by
  intro i j a hi hj
  rw [holds_add] at hi hj
  split_ifs at hi hj with hip hjp hjp
  · rw [hip, hjp]
  · exact absurd (hi ▸ hj) (not_holds_of_ne hone hjp)
  · exact absurd (hj ▸ hi) (not_holds_of_ne hone hip)
  · exact hone i j a hi hj

/-- **Only a full cache gives an entry up**, and only the one the scan chose. -/
theorem gone_add_iff (hone : OneEach cache) {i : Fin 8} :
    Gone cache (rtmpAddPmkidCache cache now addr pmkid pmk) i ↔
      FullFor cache addr ∧ i = evictedPmkid cache := by
  constructor
  · rintro ⟨hvalid, hgone⟩
    have hplace : i = addPlace cache addr := by
      by_contra hne
      exact hgone i (holds_add.mpr (by rw [if_neg hne]; exact ⟨hvalid, rfl⟩))
    have hmac : (cache.get i).mac ≠ addr := by
      intro hmac
      exact hgone i (holds_add.mpr (by rw [if_pos hplace, hmac]))
    rcases addPlace_cases cache addr with hheld | ⟨-, hfree | ⟨hfull, hevicted⟩⟩
    · exact absurd (hplace ▸ hheld.2) hmac
    · rw [← hplace, hvalid] at hfree
      exact absurd hfree nofun
    · exact ⟨hfull, hplace.trans hevicted⟩
  · rintro ⟨hfull, hevicted⟩
    have hplace : addPlace cache addr = i := by
      rcases addPlace_cases cache addr with hheld | ⟨-, hfree | ⟨-, hplace⟩⟩
      · exact absurd hheld.2 (hfull _).2
      · rw [(hfull _).1] at hfree
        exact absurd hfree nofun
      · exact hplace.trans hevicted.symm
    refine ⟨(hfull i).1, fun j hj => ?_⟩
    rw [holds_add, hplace] at hj
    split_ifs at hj with hji
    · exact (hfull i).2 hj
    · exact hji (hone j i _ hj ⟨(hfull i).1, rfl⟩)

end

/-! ### What the scan of a full cache chooses -/

/-- The step of the scan. -/
def evictScan (cache : PmkidCache) (st : UInt64 × Fin 8) (i : Fin 8) : UInt64 × Fin 8 :=
  if (st.1 = 0 ∧ st.2 = 0) ∨ (st.1 ≠ 0 ∧ st.1 < (cache.get i).refreshTime) then
    ((cache.get i).refreshTime, i)
  else st

section

variable {cache : PmkidCache}

/-- Once a time stamp other than zero is held, the scan is a search for the largest. -/
theorem evictScan_max (l : List (Fin 8)) (st : UInt64 × Fin 8) (hne : st.1 ≠ 0)
    (hst : st.1 = (cache.get st.2).refreshTime) :
    st.1 ≤ (cache.get (l.foldl (evictScan cache) st).2).refreshTime ∧
      ∀ i ∈ l, (cache.get i).refreshTime ≤
        (cache.get (l.foldl (evictScan cache) st).2).refreshTime := by
  induction l generalizing st with
  | nil => exact ⟨hst ▸ UInt64.le_refl _, nofun⟩
  | cons i l ih =>
    have hscan : evictScan cache st i =
        if st.1 < (cache.get i).refreshTime then ((cache.get i).refreshTime, i) else st := by
      simp [evictScan, hne]
    rw [List.foldl_cons, hscan, List.forall_mem_cons]
    by_cases hlt : st.1 < (cache.get i).refreshTime
    · rw [if_pos hlt]
      have hpos : (cache.get i).refreshTime ≠ 0 := by
        intro hzero
        rw [hzero] at hlt
        exact UInt64.not_lt.mpr UInt64.zero_le hlt
      obtain ⟨hle, hall⟩ := ih ((cache.get i).refreshTime, i) hpos rfl
      exact ⟨UInt64.le_trans (UInt64.le_of_lt hlt) hle, hle, hall⟩
    · rw [if_neg hlt]
      obtain ⟨hle, hall⟩ := ih st hne hst
      exact ⟨hle, UInt64.le_trans (UInt64.not_lt.mp hlt) hle, hall⟩

/-- Zero at a place other than the first stays. -/
theorem evictScan_zero {l : List (Fin 8)} : l.foldl (evictScan cache) (0, 1) = (0, 1) := by
  induction l with
  | nil => rfl
  | cons i l ih => simpa [evictScan] using ih

/-- The scan starts with the first place, whatever its time stamp. -/
theorem evictScan_start {i : Fin 8} : evictScan cache (0, 0) i = ((cache.get i).refreshTime, i) :=
  if_pos (.inl ⟨rfl, rfl⟩)

theorem evictedPmkid_eq :
    evictedPmkid cache = ((List.finRange 8).foldl (evictScan cache) (0, 0)).2 := rfl

/-- **The oldest goes** only from a cache of entries of one age, or when the first two time stamps are
zero. -/
theorem evictedPmkid_oldest_iff :
    (∀ j, (cache.get (evictedPmkid cache)).refreshTime ≤ (cache.get j).refreshTime) ↔
      (∀ i j, (cache.get i).refreshTime = (cache.get j).refreshTime) ∨
        (cache.get 0).refreshTime = 0 ∧ (cache.get 1).refreshTime = 0 := by
  obtain ⟨rest, hplaces⟩ : ∃ rest, List.finRange 8 = 0 :: 1 :: rest := ⟨_, rfl⟩
  have hcover : ∀ j, j = 0 ∨ j ∈ 1 :: rest := by
    intro j
    rw [← List.mem_cons, ← hplaces]
    exact List.mem_finRange j
  rw [evictedPmkid_eq, hplaces, List.foldl_cons, evictScan_start]
  by_cases h0 : (cache.get 0).refreshTime = 0
  · rw [h0, List.foldl_cons, evictScan_start]
    by_cases h1 : (cache.get 1).refreshTime = 0
    · rw [h1, evictScan_zero, h1]
      exact ⟨fun _ => .inr ⟨rfl, rfl⟩, fun _ j => UInt64.zero_le⟩
    · -- the first entry is older than what is chosen
      obtain ⟨hle, -⟩ := evictScan_max rest ((cache.get 1).refreshTime, 1) h1 rfl
      constructor
      · intro hall
        have hzero := UInt64.le_trans hle (hall 0)
        rw [h0] at hzero
        exact absurd (UInt64.le_antisymm hzero UInt64.zero_le) h1
      · rintro (hsame | ⟨-, h1'⟩)
        · exact absurd ((hsame 1 0).trans h0) h1
        · exact absurd h1' h1
  · obtain ⟨hle, hrest⟩ := evictScan_max (1 :: rest) ((cache.get 0).refreshTime, 0) h0 rfl
    generalize (List.foldl (evictScan cache) ((cache.get 0).refreshTime, 0) (1 :: rest)).2 = out
      at hle hrest ⊢
    have hlargest : ∀ k, (cache.get k).refreshTime ≤ (cache.get out).refreshTime := by
      intro k
      rcases hcover k with rfl | hk
      · exact hle
      · exact hrest k hk
    constructor
    · intro hall
      have hsame : ∀ k, (cache.get k).refreshTime = (cache.get out).refreshTime := fun k =>
        UInt64.le_antisymm (hlargest k) (hall k)
      exact .inl fun i j => (hsame i).trans (hsame j).symm
    · rintro (hsame | ⟨h0', -⟩)
      · intro j
        rw [hsame j out]
        exact UInt64.le_refl _
      · exact absurd h0' h0

end

/-! ## 5. Deleting and ageing -/

section

variable {cache : PmkidCache}

theorem get_delete (i j : Fin 8) :
    (rtmpDeletePmkidCache cache i).get j =
      if j = i then { cache.get j with valid := false } else cache.get j := by
  unfold rtmpDeletePmkidCache
  by_cases hj : j = i
  · subst hj
    rw [if_pos rfl]
    cases hvalid : (cache.get j).valid with
    | true => rw [if_pos rfl, List.Vector.get_set_same]
    | false =>
      rw [if_neg nofun]
      cases hentry : cache.get j
      simp_all
  · rw [if_neg hj]
    split_ifs
    · exact List.Vector.get_set_of_ne (Ne.symm hj) _
    · rfl

/-- What ageing ends. -/
def Aged (cache : PmkidCache) (period : UInt64) (now : Fin 8 → UInt64) (i : Fin 8) : Prop :=
  (cache.get i).valid = true ∧ timeAfter (now i) ((cache.get i).refreshTime + period) = true

instance (period : UInt64) (now : Fin 8 → UInt64) (i : Fin 8) :
    Decidable (Aged cache period now i) := inferInstanceAs (Decidable (_ ∧ _))

theorem get_maintain_foldl {period : UInt64} {now : Fin 8 → UInt64} {l : List (Fin 8)}
    (hl : l.Nodup) (j : Fin 8) :
    (l.foldl (maintainEntry period now) cache).get j =
      if j ∈ l ∧ Aged cache period now j then { cache.get j with valid := false }
      else cache.get j := by
  induction l generalizing cache with
  | nil => simp
  | cons i l ih =>
    obtain ⟨hi, hl⟩ := List.nodup_cons.mp hl
    have hturn : (maintainEntry period now cache i).get j =
        if j = i ∧ Aged cache period now i then { cache.get j with valid := false }
        else cache.get j := by
      unfold maintainEntry Aged
      split_ifs <;> simp_all [get_delete]
    rw [List.foldl_cons, ih hl]
    by_cases hj : j = i
    · subst hj
      simp [hi, hturn]
    · have hsame : (maintainEntry period now cache i).get j = cache.get j := by simp [hturn, hj]
      simp [Aged, hsame, hj]

theorem get_maintain (period : UInt64) (now : Fin 8 → UInt64) (j : Fin 8) :
    (rtmpMaintainPmkidCache period now cache).get j =
      if Aged cache period now j then { cache.get j with valid := false } else cache.get j := by
  unfold rtmpMaintainPmkidCache
  rw [get_maintain_foldl (List.nodup_finRange 8)]
  simp

end

/-! ## 6. One call -/

section

variable {cache : PmkidCache}

/-- Entries that only lose their mark stay apart. -/
theorem oneEach_of_marks {cache' : PmkidCache} (hone : OneEach cache)
    (hkept : ∀ j a, Holds cache' j a → Holds cache j a) : OneEach cache' :=
  fun i j a hi hj => hone i j a (hkept i a hi) (hkept j a hj)

theorem holds_of_delete {i j : Fin 8} {a : MacAddr}
    (h : Holds (rtmpDeletePmkidCache cache i) j a) : j ≠ i ∧ Holds cache j a := by
  unfold Holds at h ⊢
  rw [get_delete] at h
  split_ifs at h with hj
  · exact absurd h.1 nofun
  · exact ⟨hj, h⟩

theorem holds_maintain {period : UInt64} {now : Fin 8 → UInt64} {j : Fin 8} {a : MacAddr} :
    Holds (rtmpMaintainPmkidCache period now cache) j a ↔
      Holds cache j a ∧ ¬ Aged cache period now j := by
  unfold Holds
  rw [get_maintain]
  by_cases haged : Aged cache period now j
  · simp [haged]
  · simp [haged]

/-- **Every call keeps the entries apart.** -/
theorem oneEach_step (hone : OneEach cache) (op : PmkidOp) : OneEach (pmkidStep cache op) := by
  cases op with
  | add now addr pmkid pmk => exact oneEach_add hone
  | search addr => exact hone
  | delete i => exact oneEach_of_marks hone fun j a hj => (holds_of_delete hj).2
  | maintain period now => exact oneEach_of_marks hone fun j a hj => (holds_maintain.mp hj).1

/-- What is added is found. -/
theorem search_add (hone : OneEach cache) {now : UInt64} {addr : MacAddr} {pmkid : Octets 16}
    {pmk : Octets 32} :
    rtmpSearchPmkidCache (rtmpAddPmkidCache cache now addr pmkid pmk) addr =
      some (addPlace cache addr) :=
  (search_eq_some (oneEach_add hone)).mpr (holds_add.mpr (by rw [if_pos rfl]))

theorem gone_delete {i j : Fin 8} (h : Gone cache (rtmpDeletePmkidCache cache i) j) : j = i := by
  by_contra hne
  refine h.2 j ?_
  unfold Holds
  rw [get_delete, if_neg hne]
  exact ⟨h.1, rfl⟩

theorem gone_maintain_iff (hone : OneEach cache) {period : UInt64} {now : Fin 8 → UInt64}
    {i : Fin 8} :
    Gone cache (rtmpMaintainPmkidCache period now cache) i ↔ Aged cache period now i := by
  constructor
  · rintro ⟨hvalid, hgone⟩
    by_contra haged
    exact hgone i (holds_maintain.mpr ⟨⟨hvalid, rfl⟩, haged⟩)
  · intro haged
    refine ⟨haged.1, fun j hj => ?_⟩
    obtain ⟨hheld, hnot⟩ := holds_maintain.mp hj
    rw [hone j i _ hheld ⟨haged.1, rfl⟩] at hnot
    exact hnot haged

/-- **The clock test** ends what is older than the period, if that is not too long. -/
theorem timeAfter_sound_iff {period now refresh : UInt64} :
    (timeAfter now (refresh + period) = true → period < now - refresh) ↔
      period.toNat < (now - refresh).toNat + 2 ^ 63 := by
  have hdiff : refresh + period - now = period - (now - refresh) := by grind
  have hperiod := period.toNat_lt
  have hage := (now - refresh).toNat_lt
  unfold timeAfter
  rw [decide_eq_true_iff, hdiff, UInt64.le_iff_toNat_le, UInt64.lt_iff_toNat_lt, UInt64.toNat_sub]
  generalize (now - refresh).toNat = age at hage ⊢
  generalize period.toNat = p at hperiod ⊢
  change (2 ^ 63 ≤ (2 ^ 64 - age + p) % 2 ^ 64 → _) ↔ _
  rcases Nat.lt_or_ge p age with hlt | hge
  · exact ⟨fun _ => by omega, fun _ _ => hlt⟩
  · have hmod : (2 ^ 64 - age + p) % 2 ^ 64 = p - age := by
      rw [show 2 ^ 64 - age + p = (p - age) + 2 ^ 64 by omega, Nat.add_mod_right,
        Nat.mod_eq_of_lt (by omega)]
    rw [hmod]
    exact ⟨fun h => by omega, fun h h' => by omega⟩

/-- **One call is lawful exactly when it meets the condition.** -/
theorem pmkidLawful_iff (hone : OneEach cache) (op : PmkidOp) :
    PmkidLawful cache op ↔ op.Fits cache := by
  cases op with
  | search addr =>
    refine ⟨fun _ => trivial, fun _ => ⟨hone, nofun, fun i hi => ?_, nofun⟩⟩
    exact absurd ⟨hi.1, rfl⟩ (hi.2 i)
  | delete j =>
    exact ⟨fun _ => trivial,
      fun _ => ⟨oneEach_step hone (.delete j), nofun, fun i => gone_delete, nofun⟩⟩
  | maintain period now =>
    have hgone : ∀ i, Gone cache (rtmpMaintainPmkidCache period now cache) i ↔ _ := fun i =>
      gone_maintain_iff hone
    constructor
    · intro hlaw i hvalid
      exact timeAfter_sound_iff.mp fun hafter => hlaw.ended i ((hgone i).mpr ⟨hvalid, hafter⟩)
    · intro hfits
      refine ⟨oneEach_step hone (.maintain period now), nofun, fun i hi => ?_, nofun⟩
      have haged := (hgone i).mp hi
      exact timeAfter_sound_iff.mpr (hfits i haged.1) haged.2
  | add now addr pmkid pmk =>
    have hgone : ∀ i, Gone cache (rtmpAddPmkidCache cache now addr pmkid pmk) i ↔ _ := fun i =>
      gone_add_iff hone
    constructor
    · intro hlaw hfull
      exact evictedPmkid_oldest_iff.mp (hlaw.ended _ ((hgone _).mpr ⟨hfull, rfl⟩)).2
    · intro hfits
      refine ⟨oneEach_add hone, ?_, fun i hi => ?_, ?_⟩
      · rintro _ _ _ _ ⟨⟩
        refine ⟨_, search_add hone, ?_⟩
        simp [keysAt, pmkidStep, rtmpAddPmkidCache_eq, List.Vector.get_set_same]
      · obtain ⟨hfull, hi⟩ := (hgone i).mp hi
        refine ⟨hfull, ?_⟩
        rw [hi]
        exact evictedPmkid_oldest_iff.mpr (hfits hfull)
      · intro _ _ _ _ _ i j hi hj
        exact ((hgone i).mp hi).2.trans ((hgone j).mp hj).2.symm

end

/-! ## 7. Runs -/

theorem not_holds_empty {i : Fin 8} {a : MacAddr} : ¬ Holds emptyPmkidCache i a := by
  unfold Holds emptyPmkidCache
  rw [List.Vector.get_replicate]
  exact fun h => absurd h.1 nofun

theorem oneEach_empty : OneEach emptyPmkidCache := fun _ _ _ hi => absurd hi not_holds_empty

/-- **The runs whose calls are all lawful.** -/
theorem pmkidRuns_iff (ops : List PmkidOp) :
    Run.StepsMeet pmkidStep PmkidLawful emptyPmkidCache ops ↔
      Run.StepsMeet pmkidStep (fun cache op => op.Fits cache) emptyPmkidCache ops :=
  Run.stepsMeet_iff OneEach (fun _ op hone => pmkidLawful_iff hone op)
    (fun _ _ _ hlaw => hlaw.oneEach) oneEach_empty

namespace Example

/-- Nine stations, the first one's address ending in 1, each refreshed a tick after the one before. -/
def nineStations : List PmkidOp :=
  (List.range 9).map fun k =>
    .add (.ofNat (k + 1)) ⟨[2, 0, 0, 0, 0, .ofNat (k + 1)], rfl⟩ (.zero 16) (.zero 32)

end Example

/-- The ninth station takes the place of the eighth, which was the last to be refreshed. -/
theorem not_lawful_nineStations :
    ¬ Run.StepsMeet pmkidStep PmkidLawful emptyPmkidCache Example.nineStations := by
  intro hlaw
  rw [← List.take_append_drop 8 Example.nineStations, Run.stepsMeet_append] at hlaw
  have hgone : Gone (Run.final pmkidStep emptyPmkidCache (Example.nineStations.take 8))
      (Run.final pmkidStep emptyPmkidCache Example.nineStations) 7 := by decide +kernel
  have holdest := (hlaw.2.1.ended 7 hgone).2 0
  exact absurd holdest (by decide +kernel)

/-! ### What the cache hands out -/

/-- What a call adds for a station. -/
def PmkidOp.keysFor (addr : MacAddr) : PmkidOp → Option (Octets 16 × Octets 32)
  | .add _ a pmkid pmk => if a = addr then some (pmkid, pmk) else none
  | .search _ | .delete _ | .maintain _ _ => none

/-- The keys of the last addition for a station. -/
def lastAdded (addr : MacAddr) (ops : List PmkidOp) : Option (Octets 16 × Octets 32) :=
  ops.foldl (fun keys op => (op.keysFor addr).or keys) none

/-- **A search hands out the keys added last for its station**, if it hands out any. -/
def HandsOutLast (ops : List PmkidOp) : Prop :=
  ∀ addr i, rtmpSearchPmkidCache (Run.final pmkidStep emptyPmkidCache ops) addr = some i →
    lastAdded addr ops = some (keysAt (Run.final pmkidStep emptyPmkidCache ops) i)

/-- An entry is what the call adds, or was there before with the same keys. -/
theorem keys_step {cache : PmkidCache} (hone : OneEach cache) {op : PmkidOp} {addr : MacAddr}
    {i : Fin 8} (h : Holds (pmkidStep cache op) i addr) :
    op.keysFor addr = some (keysAt (pmkidStep cache op) i) ∨
      op.keysFor addr = none ∧ Holds cache i addr ∧
        keysAt (pmkidStep cache op) i = keysAt cache i := by
  unfold keysAt
  cases op with
  | search a => exact .inr ⟨rfl, h, rfl⟩
  | delete j =>
    obtain ⟨hne, hheld⟩ := holds_of_delete h
    simp [PmkidOp.keysFor, pmkidStep, get_delete, hne, hheld]
  | maintain period now =>
    obtain ⟨hheld, hnot⟩ := holds_maintain.mp h
    simp [PmkidOp.keysFor, pmkidStep, get_maintain, hnot, hheld]
  | add now a pmkid pmk =>
    have hplace := holds_add.mp h
    simp only [pmkidStep, rtmpAddPmkidCache_eq, PmkidOp.keysFor]
    by_cases hi : i = addPlace cache a
    · rw [if_pos hi] at hplace
      simp [hi, hplace, List.Vector.get_set_same]
    · rw [if_neg hi] at hplace
      have ha : a ≠ addr := by
        rintro rfl
        exact not_holds_of_ne hone hi hplace
      rw [List.Vector.get_set_of_ne (Ne.symm hi)]
      simp [ha, hplace]

/-- What the cache holds, and what has been added. -/
structure KeyBook (done : List PmkidOp) (cache : PmkidCache) : Prop where
  oneEach : OneEach cache
  keys : ∀ addr i, Holds cache i addr → lastAdded addr done = some (keysAt cache i)

theorem keyBook_step {done : List PmkidOp} {cache : PmkidCache} {op : PmkidOp}
    (h : KeyBook done cache) : KeyBook (done ++ [op]) (pmkidStep cache op) := by
  refine ⟨oneEach_step h.oneEach op, fun addr i hi => ?_⟩
  have hlast : lastAdded addr (done ++ [op]) = (op.keysFor addr).or (lastAdded addr done) := by
    simp [lastAdded]
  rcases keys_step h.oneEach hi with hnew | ⟨hnone, hheld, hsame⟩
  · rw [hlast, hnew, Option.some_or]
  · rw [hlast, hnone, hsame, Option.none_or, h.keys addr i hheld]

/-- **No run makes the cache hand out the keys of another station, or old ones.** -/
theorem search_lastAdded (ops : List PmkidOp) : HandsOutLast ops := by
  have hany : Run.StepsMeet pmkidStep (fun _ _ => True) emptyPmkidCache ops :=
    Run.stepsMeet_forall.mpr fun _ _ => trivial
  have hempty : KeyBook [] emptyPmkidCache :=
    ⟨oneEach_empty, fun _ _ hi => absurd hi not_holds_empty⟩
  have hrun := Run.invariant_history KeyBook (fun _ _ _ hbook _ => keyBook_step hbook) hempty hany
  exact fun addr i hi => hrun.keys addr i (holds_of_search hi)

end Mt7601.Wpa
