/-
# Runs of the MAC table

Any sequence of insertions, deletions and resets from the empty table. The chains, the size and the
lookups are in order after every one of them (`exists_ordered_run`). The counts of clients are not:
`MacTableInsertEntry` writes `pEntry->apidx` before `MBSS_MR_APIDX_SANITY_CHECK` puts an index that
names no MBSS right, so the client is counted in the main BSS and entered, and later counted out,
under the index it came with. An insertion that does so, and only such a one, makes `StaCount` wrong
(`inOrder_iff`).
-/
import Mt7601.Mgmt.MacTable
import Mt7601.Lib.Run

namespace Mt7601.Mgmt

open MacTab

/-! ## 1. The counts -/

/-- **`StaCount` of each MBSS is the number of its valid clients.** -/
def Counted (op : OpMode) (s : MacTab) : Prop :=
  op = .ap → ∀ apidx < hwBeaconMaxNum, (s.staCount apidx).toNat = s.clients apidx

section

variable {op : OpMode} {cfg : Settings} {s s' : MacTab} {addr : Octets 6} {apidx b : UInt8}
variable {i : Wcid}

theorem clients_congr (h : ∀ k, (s'.content k).entryType = .client ∧ (s'.content k).apidx = b ↔
    (s.content k).entryType = .client ∧ (s.content k).apidx = b) : s'.clients b = s.clients b := by
  unfold MacTab.clients
  rw [Finset.filter_congr fun k _ => h k]

theorem clients_le (s : MacTab) (b : UInt8) : s.clients b ≤ maxLenOfMacTable :=
  (Finset.card_le_univ _).trans_eq (Fintype.card_fin maxLenOfMacTable)

theorem Refused.clients_eq (h : Refused op cfg s apidx s') (b : UInt8) :
    s'.clients b = s.clients b := by
  refine clients_congr fun k => ?_
  rw [h.entryType k]
  refine and_congr_right fun hclient => ?_
  have hvalid : s.Valid k := by
    unfold MacTab.Valid
    rw [hclient]
    exact (by decide)
  rw [h.kept k hvalid]

theorem Refused.counted (h : Refused op cfg s apidx s') (hc : Counted op s) : Counted op s' := by
  intro hop b hb
  rw [h.staCount, h.clients_eq b]
  exact hc hop b hb

/-- The new entry counts if it is a client of the MBSS. -/
theorem Inserted.clients_eq (h : Inserted op cfg s addr apidx i s') (b : UInt8) :
    s'.clients b = s.clients b + if entryRole op apidx = .client ∧ apidx = b then 1 else 0 := by
  have hnone : (s.content i).entryType = .none := not_not.mp h.vacant
  have hold : ¬ ((s.content i).entryType = .client ∧ (s.content i).apidx = b) := by
    rw [hnone]
    exact fun hc => nomatch hc.1
  have hself : (s'.content i).entryType = .client ∧ (s'.content i).apidx = b ↔
      entryRole op apidx = .client ∧ apidx = b := by
    rw [h.role, h.index]
    refine and_congr_right fun hrole => ?_
    rw [hrole]
    rfl
  have hrest : ∀ k ≠ i, (s'.content k).entryType = .client ∧ (s'.content k).apidx = b ↔
      (s.content k).entryType = .client ∧ (s.content k).apidx = b := by
    intro k hk
    obtain ⟨htype, -, hindex⟩ := h.other k hk
    rw [htype, hindex]
  by_cases hin : entryRole op apidx = .client ∧ apidx = b
  · rw [if_pos hin]
    refine Chain.card_link hold fun k => ?_
    by_cases hk : k = i
    · rw [hk]
      exact iff_of_true (hself.mpr hin) (.inr rfl)
    · rw [hrest k hk]
      exact ⟨.inl, fun hv => hv.resolve_right hk⟩
  · rw [if_neg hin, Nat.add_zero]
    refine clients_congr fun k => ?_
    by_cases hk : k = i
    · rw [hk]
      exact iff_of_false (fun hv => hin (hself.mp hv)) hold
    · exact hrest k hk

/-- **An insertion counts right if the index it counts under is the one it enters.** -/
theorem Inserted.counted (h : Inserted op cfg s addr apidx i s') (hc : Counted op s)
    (hown : op = .ap → entryRole op apidx = .client →
      mbssMrApidxSanityCheck cfg apidx = apidx) : Counted op s' := by
  intro hop b hb
  rw [h.staCount, h.clients_eq b, ← hc hop b hb]
  by_cases hrole : entryRole op apidx = .client
  · rw [if_pos ⟨hop, hrole⟩, hown hop hrole]
    by_cases hab : apidx = b
    · have hle := clients_le s b
      rw [← hc hop b hb] at hle
      rw [if_pos ⟨hrole, hab⟩, hab, MacTab.countIn]
      dsimp only
      rw [Function.update_self, UInt8.toNat_add, UInt8.toNat_one]
      unfold maxLenOfMacTable at hle
      omega
    · rw [if_neg fun hin => hab hin.2, MacTab.countIn, Nat.add_zero]
      dsimp only
      rw [Function.update_of_ne (Ne.symm hab)]
  · rw [if_neg fun hin => hrole hin.2, if_neg fun hin => hrole hin.1, Nat.add_zero]

/-- **An insertion that counts under another index counts wrong.** -/
theorem Inserted.not_counted (h : Inserted op cfg s addr apidx i s') (hc : Counted op s)
    (hop : op = .ap) (hrole : entryRole op apidx = .client)
    (hother : mbssMrApidxSanityCheck cfg apidx ≠ apidx) : ¬ Counted op s' := by
  intro hc'
  have hmain : mbssMrApidxSanityCheck cfg apidx = mainMbssid := by
    unfold mbssMrApidxSanityCheck at hother ⊢
    split_ifs at hother ⊢ with hbad
    · rfl
    · exact absurd rfl hother
  rw [hmain] at hother
  have hmainLt : mainMbssid < hwBeaconMaxNum := by decide
  have hnow := hc' hop mainMbssid hmainLt
  have hbefore := hc hop mainMbssid hmainLt
  have hle := clients_le s mainMbssid
  rw [h.staCount, if_pos ⟨hop, hrole⟩, hmain, MacTab.countIn, h.clients_eq,
    if_neg fun hin => hother hin.2.symm] at hnow
  dsimp only at hnow
  rw [Function.update_self, UInt8.toNat_add, UInt8.toNat_one] at hnow
  unfold maxLenOfMacTable at hle
  omega

/-- A client that is deleted is counted out under the index it was entered with. -/
theorem Deleted.counted (h : Deleted op s i s') (hc : Counted op s) : Counted op s' := by
  intro hop b hb
  have hrest : ∀ k, (s'.content k).entryType = .client ∧ (s'.content k).apidx = b ↔
      ((s.content k).entryType = .client ∧ (s.content k).apidx = b) ∧ k ≠ i := by
    intro k
    by_cases hk : k = i
    · rw [hk, h.entryType]
      exact iff_of_false (fun hv => nomatch hv.1) fun hv => hv.2 rfl
    · obtain ⟨htype, -, hindex⟩ := h.other k hk
      rw [htype, hindex]
      exact ⟨fun hv => ⟨hv, hk⟩, fun hv => hv.1⟩
  have hbefore := hc hop b hb
  have hsame (hout : ¬ ((s.content i).entryType = .client ∧ (s.content i).apidx = b)) :
      s'.clients b = s.clients b := by
    refine clients_congr fun k => (hrest k).trans ⟨fun hv => hv.1, fun hv => ⟨hv, ?_⟩⟩
    rintro rfl
    exact hout hv
  rw [h.staCount]
  by_cases hclient : (s.content i).entryType = .client
  · rw [if_pos ⟨hop, hclient⟩, MacTab.countOut]
    dsimp only
    by_cases hb' : (s.content i).apidx = b
    · have hcard : s.clients b = s'.clients b + 1 := Chain.card_unlink ⟨hclient, hb'⟩ hrest
      have hle : (1 : UInt8) ≤ s.staCount b := by
        rw [UInt8.le_iff_toNat_le, UInt8.toNat_one]
        omega
      rw [hb', Function.update_self, UInt8.toNat_sub_of_le _ _ hle, UInt8.toNat_one]
      omega
    · rw [Function.update_of_ne (Ne.symm hb'), hsame fun hv => hb' hv.2, hbefore]
  · rw [if_neg fun hin => hclient hin.2, hsame fun hv => hclient hv.1, hbefore]

end

/-! ## 2. The reset -/

/-- **Each turn of the reset's loop is a deletion**, and the turns it comes through leave nothing of
what they visit. -/
theorem Ordered.resetLoop (op : OpMode) (stops : Wcid → Bool) (visits : List Wcid) {s : MacTab}
    (h : Ordered s) :
    ∃ s' done, macTableResetLoop op stops visits s = some (s', done) ∧ Ordered s' ∧
      (Counted op s → Counted op s') ∧
      (done = true → ∀ k, s'.Valid k → s.Valid k ∧ k ∉ visits) := by
  induction visits generalizing s with
  | nil => exact ⟨s, true, rfl, h, id, fun _ k hk => ⟨hk, List.not_mem_nil⟩⟩
  | cons i visits ih =>
    rw [macTableResetLoop]
    by_cases hstop : op = .ap ∧ (s.content i).entryType = .client ∧ stops i = true
    · rw [if_pos hstop]
      exact ⟨s, false, rfl, h, id, fun hdone => nomatch hdone⟩
    · rw [if_neg hstop]
      have hval : (UInt16.ofNat i.val).toNat = i.val := by
        rw [UInt16.toNat_ofNat']
        exact Nat.mod_eq_of_lt (i.isLt.trans (by decide))
      obtain ⟨t, hrun, hordered, heffect⟩ := h.delete op (UInt16.ofNat i.val) (s.content i).addr
      obtain ⟨s', done, hloop, hkeep, hcount, hgone⟩ := ih hordered
      have hturn : (Counted op s → Counted op t) ∧ ∀ k, t.Valid k → s.Valid k ∧ k ≠ i := by
        rcases heffect with ⟨j, hj, hdel⟩ | ⟨rfl, hno⟩
        · have hij : j = i := Fin.ext (hj.trans hval)
          rw [hij] at hdel
          refine ⟨hdel.counted, fun k hk => ?_⟩
          have hne : k ≠ i := by
            rintro rfl
            exact hk hdel.entryType
          refine ⟨?_, hne⟩
          unfold MacTab.Valid at hk ⊢
          rwa [(hdel.other k hne).1] at hk
        · refine ⟨id, fun k hk => ⟨hk, ?_⟩⟩
          rintro rfl
          exact hno k hval.symm ⟨hk, rfl⟩
      refine ⟨s', done, ?_, hkeep, fun hc => hcount (hturn.1 hc), fun hdone k hk => ?_⟩
      · rw [hrun]
        exact hloop
      · obtain ⟨hvalid, hout⟩ := hgone hdone k hk
        obtain ⟨hold, hne⟩ := hturn.2 k hvalid
        refine ⟨hold, fun hmem => ?_⟩
        rcases List.mem_cons.mp hmem with heq | hin
        · exact hne heq
        · exact hout hin

/-- **A reset keeps the table in order, and the counts right.** -/
theorem Ordered.reset {s : MacTab} (h : Ordered s) (op : OpMode) (cfg : Settings)
    (stops : Wcid → Bool) :
    ∃ s', macTableReset op cfg s stops = some s' ∧ Ordered s' ∧
      (Counted op s → Counted op s') := by
  obtain ⟨t, done, hloop, hordered, hcount, hgone⟩ :=
    h.resetLoop op stops (List.finRange maxLenOfMacTable).tail
  rw [macTableReset, hloop]
  dsimp only [Option.bind_eq_bind, Option.bind_some]
  by_cases hdone : done = true ∧ op = .ap
  swap
  · rw [if_neg hdone]
    exact ⟨t, rfl, hordered, hcount⟩
  · have hnone : ∀ k, ¬ t.Valid k := by
      intro k hk
      obtain ⟨-, hout⟩ := hgone hdone.1 k hk
      have hmem : ∀ k : Wcid, k ≠ 0 → k ∈ (List.finRange maxLenOfMacTable).tail := by decide
      have hk0 : k = 0 := by
        by_contra hne
        exact hout (hmem k hne)
      rw [hk0] at hk
      exact hordered.first hk
    rw [if_pos hdone]
    refine ⟨_, rfl, ?_, fun hc hop b hb => ?_⟩
    · refine ⟨hordered.chained, ?_, hordered.first⟩
      have hempty : Finset.univ.filter t.Valid = ∅ := Finset.filter_eq_empty_iff.mpr fun k _ => hnone k
      have hcard : (Finset.univ.filter t.Valid).card = 0 := by rw [hempty, Finset.card_empty]
      exact hcard.symm
    · have hclients : t.clients b = 0 := by
        refine Finset.card_eq_zero.mpr (Finset.filter_eq_empty_iff.mpr fun k _ hclient => ?_)
        refine hnone k ?_
        unfold MacTab.Valid
        rw [hclient.1]
        exact (by decide)
      have hcount : (t.staCount b).toNat = t.clients b := hcount hc hop b hb
      change (if b < cfg.bssidNum then 0 else t.staCount b).toNat = t.clients b
      split
      · exact hclients.symm
      · exact hcount

/-! ## 3. Runs -/

/-- The calls. -/
inductive MacCall where
  | insert (cfg : Settings) (addr : Octets 6) (apidx : UInt8)
  | delete (wcid : UInt16) (addr : Octets 6)
  | reset (cfg : Settings) (stops : Wcid → Bool)

/-- One call. `none` is a loop that has not come to its end. -/
def macStep (op : OpMode) : Option MacTab → MacCall → Option MacTab
  | none, _ => none
  | some s, .insert cfg addr apidx => (macTableInsertEntry op cfg s addr apidx).map Prod.fst
  | some s, .delete wcid addr => macTableDeleteEntry op s wcid addr
  | some s, .reset cfg stops => macTableReset op cfg s stops

/-- The table `s` that the calls before have left, if they all returned. -/
def Holds (good : MacTab → Prop) (o : Option MacTab) : Prop := ∃ s, o = some s ∧ good s

/-- **Everything that is to be in order.** -/
structure InOrder (op : OpMode) (s : MacTab) : Prop where
  chains : ∀ b, ∃ l, Chain.Linked s.next (s.hash b) l ∧ l.Nodup ∧
    ∀ i, i ∈ l ↔ s.Valid i ∧ macAddrHashIndex (s.content i).addr = b
  size : s.size.toNat = (Finset.univ.filter s.Valid).card
  lookup : ∀ addr, ∃ r, macTableLookup s addr = some r ∧
    (∀ i, r = some i → s.Valid i ∧ (s.content i).addr = addr) ∧
    (r = none → ∀ i, s.Valid i → (s.content i).addr ≠ addr)
  staCount : op = .ap → ∀ apidx < hwBeaconMaxNum, (s.staCount apidx).toNat = s.clients apidx

/-- The call counts the client it enters under the index it enters: the interface is not one of a
client of the access point, its index names an MBSS, or no entry is free. -/
def CountsUnderItsIndex (op : OpMode) : Option MacTab → MacCall → Prop
  | some s, .insert cfg _ apidx =>
    op = .ap → entryRole op apidx = .client →
      mbssMrApidxSanityCheck cfg apidx = apidx ∨ firstVacancy op cfg s = none
  | _, _ => True

variable {op : OpMode} {s : MacTab}

theorem Ordered.inOrder (h : Ordered s) (hc : Counted op s) : InOrder op s where
  chains := by
    intro b
    obtain ⟨l, hl, hmem⟩ := h.chained b
    exact ⟨l, hl, hl.nodup, hmem⟩
  size := h.size
  lookup := h.lookup
  staCount := hc

/-- **A call keeps the table in order.** -/
theorem Ordered.step (h : Ordered s) (op : OpMode) (call : MacCall) :
    Holds Ordered (macStep op (some s) call) := by
  cases call with
  | insert cfg addr apidx =>
    obtain ⟨s', hordered, ⟨i, hrun, -⟩ | ⟨hrun, -⟩⟩ := h.insert op cfg addr apidx
    · exact ⟨s', congrArg (Option.map Prod.fst) hrun, hordered⟩
    · exact ⟨s', congrArg (Option.map Prod.fst) hrun, hordered⟩
  | delete wcid addr =>
    obtain ⟨s', hrun, hordered, -⟩ := h.delete op wcid addr
    exact ⟨s', hrun, hordered⟩
  | reset cfg stops =>
    obtain ⟨s', hrun, hordered, -⟩ := h.reset op cfg stops
    exact ⟨s', hrun, hordered⟩

/-- **Every call returns, and the chains, the size and the lookups are in order after it**, whatever
the calls. -/
theorem exists_ordered_run (op : OpMode) (calls : List MacCall) :
    Holds Ordered (Run.final (macStep op) (some {}) calls) := by
  refine Run.invariant_always (Holds Ordered) ?_ ⟨_, rfl, ordered_empty⟩
  rintro _ call ⟨s, rfl, h⟩
  exact h.step op call

theorem holds_counted_step (call : MacCall) (h : Ordered s) (hc : Counted op s)
    (hok : CountsUnderItsIndex op (some s) call) :
    Holds (fun s => Ordered s ∧ Counted op s) (macStep op (some s) call) := by
  cases call with
  | insert cfg addr apidx =>
    obtain ⟨s', hordered, ⟨i, hrun, hin⟩ | ⟨hrun, hout⟩⟩ := h.insert op cfg addr apidx
    · refine ⟨s', congrArg (Option.map Prod.fst) hrun, hordered, hin.counted hc ?_⟩
      intro hop hrole
      refine (hok hop hrole).resolve_right fun hnone => ?_
      rw [hin.vacancy] at hnone
      exact nomatch hnone
    · exact ⟨s', congrArg (Option.map Prod.fst) hrun, hordered, hout.counted hc⟩
  | delete wcid addr =>
    obtain ⟨s', hrun, hordered, ⟨i, -, hdel⟩ | ⟨rfl, -⟩⟩ := h.delete op wcid addr
    · exact ⟨s', hrun, hordered, hdel.counted hc⟩
    · exact ⟨s', hrun, hordered, hc⟩
  | reset cfg stops =>
    obtain ⟨s', hrun, hordered, hkeep⟩ := h.reset op cfg stops
    exact ⟨s', hrun, hordered, hkeep hc⟩

theorem not_holds_step (call : MacCall) (h : Ordered s) (hc : Counted op s)
    (hno : ¬ CountsUnderItsIndex op (some s) call) :
    ¬ Holds (InOrder op) (macStep op (some s) call) := by
  cases call with
  | insert cfg addr apidx =>
    obtain ⟨hop, hrole, hbad⟩ : op = .ap ∧ entryRole op apidx = .client ∧
        ¬ (mbssMrApidxSanityCheck cfg apidx = apidx ∨ firstVacancy op cfg s = none) := by
      unfold CountsUnderItsIndex at hno
      rw [Classical.not_imp, Classical.not_imp] at hno
      exact hno
    rw [not_or] at hbad
    rintro ⟨t, ht, hgood⟩
    obtain ⟨s', -, ⟨i, hrun, hin⟩ | ⟨hrun, hout⟩⟩ := h.insert op cfg addr apidx
    · have hst : t = s' := Option.some.inj (ht.symm.trans (congrArg (Option.map Prod.fst) hrun))
      rw [hst] at hgood
      exact hin.not_counted hc hop hrole hbad.1 hgood.staCount
    · rcases hout.full with hnone | ⟨hmax, hhw⟩
      · exact hbad.2 hnone
      · refine hbad.1 (if_neg ?_)
        rw [not_or, UInt8.not_le, UInt8.not_le]
        exact ⟨hmax, hhw⟩
  | delete wcid addr => exact absurd trivial hno
  | reset cfg stops => exact absurd trivial hno

/-- **All is in order in every state of a run exactly if no insertion of a client by the access point
counts it under another index than it enters.** -/
theorem inOrder_iff (op : OpMode) (calls : List MacCall) :
    (∀ done rest, calls = done ++ rest →
        Holds (InOrder op) (Run.final (macStep op) (some {}) done)) ↔
      Run.StepsMeet (macStep op) (CountsUnderItsIndex op) (some {}) calls := by
  refine Run.always_iff (Holds fun s => Ordered s ∧ Counted op s) (Holds (InOrder op)) ?_ ?_ ?_ ?_
  · rintro _ ⟨s, rfl, h, hc⟩
    exact ⟨s, rfl, h.inOrder hc⟩
  · rintro _ call ⟨s, rfl, h, hc⟩ hok
    exact holds_counted_step call h hc hok
  · rintro _ call ⟨s, rfl, h, hc⟩ hno
    exact not_holds_step call h hc hno
  · refine ⟨_, rfl, ordered_empty, fun _ b _ => ?_⟩
    have hnone : MacTab.clients {} b = 0 :=
      Finset.card_eq_zero.mpr (Finset.filter_eq_empty_iff.mpr fun k _ hk => nomatch hk.1)
    rw [hnone]
    rfl

namespace Example

/-- An access point with one BSS. -/
def oneBss : Settings where
  bssInfra := true
  bssidNum := 1
  maxMbssidNum := 1
  maxStaNum := fun _ => 0

def visitor : Octets 6 := ⟨[0, 0x0c, 0x43, 1, 2, 3], rfl⟩

/-- **The exception happens**: a client is entered for the interface `9`, and leaves. The main BSS
counts a client that it never had, and the table is empty. -/
theorem not_inOrder_ninth :
    ¬ ∀ (op : OpMode) (calls : List MacCall),
      Holds (InOrder op) (Run.final (macStep op) (some {}) calls) := by
  intro hall
  obtain ⟨s, hrun, hgood⟩ := hall .ap [.insert oneBss visitor 9, .delete 1 visitor]
  have hstate : (Run.final (macStep .ap) (some {})
      [.insert oneBss visitor 9, .delete 1 visitor]).map
      (fun s => (s.size, s.staCount mainMbssid, s.clients mainMbssid)) = some (0, 1, 0) := by
    decide +kernel
  rw [hrun] at hstate
  have hvals := Option.some.inj hstate
  simp only [Prod.mk.injEq] at hvals
  have hcount := hgood.staCount rfl mainMbssid (by decide)
  rw [hvals.2.1, hvals.2.2] at hcount
  exact absurd hcount (by decide)

end Example

end Mt7601.Mgmt
