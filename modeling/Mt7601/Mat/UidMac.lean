/-
# The table of the PPPoE discovery stage

`UidMacTableUpdate` and `UidMacTableLookUp` of `common/cmm_mat_pppoe.c`: which station stands behind
a Host-Uniq or an AC-Cookie. The entries are chained by a hash of the octets that name a station; an
entry that the driver named itself (`uIDAddByUs`) carries a MAC address as its name.

Every entry sits in the chain of its name, and no operation can put it elsewhere: that is a field of
the table (`placed`). So whoever looks a whole name up finds an entry of that name if there is one
(`lookUp_isSome`), though not necessarily the one that was meant.
-/
import Mt7601.Lib.Octets
import Mt7601.Ba.Defs

namespace Mt7601.Mat

open Ba (Ulong OsHz rtmpTimeAfter)

/-! ## 1. Names and their chains -/

abbrev Mac := Octets 6

structure UidMacMappingEntry where
  isServer : Bool
  /-- The tag has been added by the driver. -/
  uIDAddByUs : Bool
  uIDStr : Octets 6
  macAddr : Mac
  lastTime : Ulong

/-- `hashVal`: all octets together. -/
def hashVal (uid : List UInt8) : UInt8 := uid.foldl (· ^^^ ·) 0

def hashIdx (uid : List UInt8) : Fin 64 := ⟨(hashVal uid).toNat % 64, Nat.mod_lt _ (by decide)⟩

theorem foldl_xor (l : List UInt8) (a : UInt8) : l.foldl (· ^^^ ·) a = a ^^^ hashVal l := by
  induction l generalizing a with
  | nil => simp [hashVal]
  | cons b l ih =>
    rw [hashVal, List.foldl_cons, List.foldl_cons, ih, ih, UInt8.zero_xor, UInt8.xor_assoc]

theorem hashVal_append (l m : List UInt8) : hashVal (l ++ m) = hashVal l ^^^ hashVal m := by
  rw [hashVal, List.foldl_append, foldl_xor]
  rfl

theorem hashVal_replicate (n : Nat) : hashVal (List.replicate n 0) = 0 := by
  induction n with
  | zero => rfl
  | succ n ih => simpa [hashVal, List.replicate_succ] using ih

/-- From the end to the front, as the look-up goes. -/
theorem hashVal_reverse (l : List UInt8) : hashVal l.reverse = hashVal l := by
  induction l with
  | nil => rfl
  | cons b l ih =>
    rw [List.reverse_cons, hashVal_append, ih, UInt8.xor_comm, ← hashVal_append,
      List.singleton_append]

theorem hashIdx_reverse (uid : List UInt8) : hashIdx uid.reverse = hashIdx uid :=
  Fin.ext (by simp only [hashIdx, hashVal_reverse])

/-- A name shorter than six octets is kept with zeros behind it, which do not count. -/
theorem hashIdx_ofList {uid : List UInt8} (h : uid.length ≤ 6) :
    hashIdx (Octets.ofList 6 uid).toList = hashIdx uid := by
  have hval : hashVal (uid.takeD 6 0) = hashVal uid := by
    rw [Octets.takeD_of_length_le h, hashVal_append, hashVal_replicate, UInt8.xor_zero]
  unfold hashIdx
  simp only [Octets.toList_ofList, hval]

/-! ## 2. The table -/

structure UidMacMappingTable where
  valid : Bool
  uidHash : Fin 64 → List UidMacMappingEntry
  placed : ∀ i, ∀ e ∈ uidHash i, hashIdx e.uIDStr.toList = i

namespace UidMacMappingTable

/-- The table with another chain. -/
def setChain (tb : UidMacMappingTable) (i : Fin 64) (chain : List UidMacMappingEntry)
    (h : ∀ e ∈ chain, hashIdx e.uIDStr.toList = i) : UidMacMappingTable where
  valid := tb.valid
  uidHash := Function.update tb.uidHash i chain
  placed j e he := by
    by_cases hj : j = i
    · subst hj
      rw [Function.update_self] at he
      exact h e he
    · rw [Function.update_of_ne hj] at he
      exact tb.placed j e he

end UidMacMappingTable

/-! ## 3. `UidMacTableUpdate` -/

section

variable (hit aged : UidMacMappingEntry → Bool)
  (refresh : UidMacMappingEntry → UidMacMappingEntry)

/-- The loop over a chain, behind its first entry: an aged entry is taken out, and the search ends
at a hit. -/
def searchTail : List UidMacMappingEntry → List UidMacMappingEntry × Option UidMacMappingEntry
  | [] => ([], none)
  | e :: es =>
    if hit e then (refresh e :: es, some (refresh e))
    else if aged e then searchTail es
    else (e :: (searchTail es).1, (searchTail es).2)

/-- The loop from the first entry on. With that one taken out the next is not looked at. -/
def searchChain : List UidMacMappingEntry → List UidMacMappingEntry × Option UidMacMappingEntry
  | [] => ([], none)
  | e :: es =>
    if hit e then (refresh e :: es, some (refresh e))
    else if aged e then
      (es.take 1 ++ (searchTail hit aged refresh (es.drop 1)).1,
        (searchTail hit aged refresh (es.drop 1)).2)
    else (e :: (searchTail hit aged refresh es).1, (searchTail hit aged refresh es).2)

/-- What the search leaves and what it finds are entries of the chain, as they were or refreshed. -/
theorem searchTail_from {P : UidMacMappingEntry → Prop} (hrefresh : ∀ e, P e → P (refresh e)) :
    ∀ {chain : List UidMacMappingEntry}, (∀ e ∈ chain, P e) →
      ∀ e ∈ (searchTail hit aged refresh chain).1, P e := by
  intro chain
  induction chain with
  | nil =>
    intro _ e he
    exact absurd he (List.not_mem_nil)
  | cons e es ih =>
    intro hall e' he'
    obtain ⟨he, hes⟩ := List.forall_mem_cons.1 hall
    rw [searchTail] at he'
    split at he'
    · rcases List.mem_cons.1 he' with rfl | he'
      · exact hrefresh e he
      · exact hes e' he'
    · split at he'
      · exact ih hes e' he'
      · rcases List.mem_cons.1 he' with rfl | he'
        · exact he
        · exact ih hes e' he'

theorem searchChain_from {P : UidMacMappingEntry → Prop} (hrefresh : ∀ e, P e → P (refresh e))
    {chain : List UidMacMappingEntry} (hall : ∀ e ∈ chain, P e) :
    ∀ e ∈ (searchChain hit aged refresh chain).1, P e := by
  intro e' he'
  obtain _ | ⟨e, es⟩ := chain
  · exact absurd he' (List.not_mem_nil)
  · obtain ⟨he, hes⟩ := List.forall_mem_cons.1 hall
    rw [searchChain] at he'
    split at he'
    · rcases List.mem_cons.1 he' with rfl | he'
      · exact hrefresh e he
      · exact hes e' he'
    · split at he'
      · rcases List.mem_append.1 he' with he' | he'
        · exact hes e' (List.mem_of_mem_take he')
        · exact searchTail_from hit aged refresh hrefresh (fun e he => hes e (List.mem_of_mem_drop he)) e' he'
      · rcases List.mem_cons.1 he' with rfl | he'
        · exact he
        · exact searchTail_from hit aged refresh hrefresh hes e' he'

variable {hit aged refresh}

end

/-- What `UidMacTableUpdate` is called with, and what it meets: the clock, and whether there is
memory for another entry. `pTagInfo` is the content of the tag, cut to six octets. -/
structure UidUpdate where
  pInMac : Mac
  pOutMac : Mac
  pTagInfo : Option (List UInt8)
  short : ∀ tag ∈ pTagInfo, tag.length ≤ 6
  isServer : Bool
  now : Ulong
  hz : OsHz
  memory : Bool

namespace UidUpdate

variable (u : UidUpdate)

/-- `pUIDStr`: the tag, or the address of the station for a client and of its peer for a server. -/
def pUIDStr : List UInt8 :=
  match u.pTagInfo with
  | some tag => tag
  | none => (if u.isServer then u.pOutMac else u.pInMac).toList

theorem length_pUIDStr : u.pUIDStr.length ≤ 6 := by
  unfold pUIDStr
  split
  · rename_i tag htag
    exact u.short tag htag
  · simp

def hit (e : UidMacMappingEntry) : Bool :=
  e.uIDStr.toList.take u.pUIDStr.length = u.pUIDStr ∧ e.macAddr = u.pInMac

/-- `MAT_TB_ENTRY_AGEOUT_TIME` has passed. -/
def aged (e : UidMacMappingEntry) : Bool :=
  rtmpTimeAfter u.now (e.lastTime + BitVec.ofNat 64 (5 * 60 * u.hz.val))

def refresh (e : UidMacMappingEntry) : UidMacMappingEntry :=
  { e with isServer := u.isServer, uIDAddByUs := u.pTagInfo.isNone, lastTime := u.now }

/-- `pNewEntry` -/
def newEntry : UidMacMappingEntry where
  isServer := u.isServer
  uIDAddByUs := u.pTagInfo.isNone
  uIDStr := Octets.ofList 6 u.pUIDStr
  macAddr := u.pInMac
  lastTime := u.now

/-- The chain, once it has been searched and perhaps added to, and `pEntry`. -/
def chainUpdate (chain : List UidMacMappingEntry) :
    List UidMacMappingEntry × Option UidMacMappingEntry :=
  let searched := searchChain u.hit u.aged u.refresh chain
  match searched.2 with
  | some e => (searched.1, some e)
  | none =>
    if u.memory then (u.newEntry :: searched.1, some u.newEntry) else (searched.1, none)

theorem chainUpdate_placed {chain : List UidMacMappingEntry}
    (h : ∀ e ∈ chain, hashIdx e.uIDStr.toList = hashIdx u.pUIDStr) :
    ∀ e ∈ (u.chainUpdate chain).1, hashIdx e.uIDStr.toList = hashIdx u.pUIDStr := by
  have hsearched : ∀ e ∈ (searchChain u.hit u.aged u.refresh chain).1,
      hashIdx e.uIDStr.toList = hashIdx u.pUIDStr :=
    searchChain_from u.hit u.aged u.refresh (fun _ he => he) h
  unfold chainUpdate
  dsimp only
  split
  · exact hsearched
  · split
    · intro e he
      rcases List.mem_cons.1 he with rfl | he
      · exact hashIdx_ofList u.length_pUIDStr
      · exact hsearched e he
    · exact hsearched

end UidUpdate

namespace UidMacMappingTable

variable (tb : UidMacMappingTable)

/-- `UidMacTableUpdate` -/
def uidMacTableUpdate (u : UidUpdate) : UidMacMappingTable × Option UidMacMappingEntry :=
  if tb.valid then
    let i := hashIdx u.pUIDStr
    (tb.setChain i (u.chainUpdate (tb.uidHash i)).1 (u.chainUpdate_placed (tb.placed i)),
      (u.chainUpdate (tb.uidHash i)).2)
  else (tb, none)

/-- There is an entry to be had: the station's own, or memory for one. -/
def CanRecord (u : UidUpdate) : Prop :=
  tb.valid ∧
    (u.memory ∨
      (searchChain u.hit u.aged u.refresh (tb.uidHash (hashIdx u.pUIDStr))).2.isSome)

theorem uidMacTableUpdate_isSome (u : UidUpdate) :
    (tb.uidMacTableUpdate u).2.isSome ↔ tb.CanRecord u := by
  unfold uidMacTableUpdate CanRecord UidUpdate.chainUpdate
  split
  · rename_i hvalid
    dsimp only
    split
    · rename_i hfound
      simp [hvalid, hfound]
    · rename_i hfound
      split
      · rename_i hmemory
        simp [hvalid, hmemory]
      · rename_i hmemory
        simp [hmemory, hfound]
  · rename_i hvalid
    simp [hvalid]

/-! ## 4. `UidMacTableLookUp` -/

/-- The loop: the first entry whose name begins with the tag, which is then as good as new. -/
def lookUpChain (tag : List UInt8) (now : Ulong) :
    List UidMacMappingEntry → List UidMacMappingEntry × Option UidMacMappingEntry
  | [] => ([], none)
  | e :: es =>
    if e.uIDStr.toList.take tag.length = tag then
      ({ e with lastTime := now } :: es, some { e with lastTime := now })
    else (e :: (lookUpChain tag now es).1, (lookUpChain tag now es).2)

/-- The entry that the loop stops at. -/
def hitOf (tag : List UInt8) : Option UidMacMappingEntry :=
  if tb.valid then
    (tb.uidHash (hashIdx tag.reverse)).find? fun e => e.uIDStr.toList.take tag.length = tag
  else none

theorem lookUpChain_placed {tag : List UInt8} {now : Ulong} {i : Fin 64} :
    ∀ {chain : List UidMacMappingEntry}, (∀ e ∈ chain, hashIdx e.uIDStr.toList = i) →
      ∀ e ∈ (lookUpChain tag now chain).1, hashIdx e.uIDStr.toList = i := by
  intro chain
  induction chain with
  | nil =>
    intro _ e he
    exact absurd he List.not_mem_nil
  | cons e es ih =>
    intro hall e' he'
    obtain ⟨he, hes⟩ := List.forall_mem_cons.1 hall
    rw [lookUpChain] at he'
    split at he'
    · rcases List.mem_cons.1 he' with rfl | he'
      · exact he
      · exact hes e' he'
    · rcases List.mem_cons.1 he' with rfl | he'
      · exact he
      · exact ih hes e' he'

theorem lookUpChain_found (tag : List UInt8) (now : Ulong) (chain : List UidMacMappingEntry) :
    (lookUpChain tag now chain).2 =
      (chain.find? fun e => e.uIDStr.toList.take tag.length = tag).map
        fun e => { e with lastTime := now } := by
  induction chain with
  | nil => rfl
  | cons e es ih =>
    rw [lookUpChain]
    split
    · rename_i hhit
      rw [List.find?_cons_of_pos (by simpa using hhit)]
      rfl
    · rename_i hhit
      rw [List.find?_cons_of_neg (by simpa using hhit), ih]

/-- `UidMacTableLookUp` -/
def uidMacTableLookUp (tag : List UInt8) (now : Ulong) :
    UidMacMappingTable × Option UidMacMappingEntry :=
  if tb.valid then
    let i := hashIdx tag.reverse
    (tb.setChain i (lookUpChain tag now (tb.uidHash i)).1 (lookUpChain_placed (tb.placed i)),
      (lookUpChain tag now (tb.uidHash i)).2)
  else (tb, none)

theorem uidMacTableLookUp_found (tag : List UInt8) (now : Ulong) :
    (tb.uidMacTableLookUp tag now).2 =
      (tb.hitOf tag).map fun e => { e with lastTime := now } := by
  unfold uidMacTableLookUp hitOf
  split
  · exact lookUpChain_found tag now _
  · rfl

/-- **A whole name that the table has is found**, at this entry or at one in front of it. -/
theorem hitOf_isSome {e : UidMacMappingEntry} {i : Fin 64} (hvalid : tb.valid)
    (he : e ∈ tb.uidHash i) : ∃ e', tb.hitOf e.uIDStr.toList = some e' ∧ e'.uIDStr = e.uIDStr := by
  have hi : hashIdx e.uIDStr.toList.reverse = i := by
    rw [hashIdx_reverse]
    exact tb.placed i e he
  rw [hitOf, if_pos hvalid, hi]
  have hsome : ((tb.uidHash i).find? fun e' =>
      e'.uIDStr.toList.take e.uIDStr.toList.length = e.uIDStr.toList).isSome := by
    rw [List.find?_isSome]
    exact ⟨e, he, by simp⟩
  obtain ⟨e', he'⟩ := Option.isSome_iff_exists.1 hsome
  refine ⟨e', he', Octets.toList_injective ?_⟩
  have hpred := List.find?_some he'
  simp only [List.Vector.toList_length, decide_eq_true_eq] at hpred
  rw [List.take_of_length_le (by simp)] at hpred
  exact hpred

end UidMacMappingTable

end Mt7601.Mat
