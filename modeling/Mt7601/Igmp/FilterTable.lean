/-
# The multicast filter table

`MulticastFilterTableInit`, `-InsertEntry`, `-DeleteEntry` and `-Lookup` of `common/igmp_snoop.c`,
the functions for the members of a group and `IgmpGroupDelMembers`. A group is an entry of the
table, hashed by its address into a chain, and found by address and device; its members are entries
of a pool that all groups share. Entries are let go of when the last member leaves, when a lookup or
an insertion passes one that is too old, or by command.

A loop over linked entries is given as many turns as there are entries; `none` is a loop that is not
through by then, or a null pointer that is followed.
-/
import Mt7601.Igmp.LinkList
import Mt7601.Lib.Octets

namespace Mt7601.Igmp

/-! ## 1. The table -/

/-- `MAX_LEN_OF_MULTICAST_FILTER_TABLE` -/
abbrev maxLenOfMulticastFilterTable : Nat := 64
/-- `FREE_MEMBER_POOL_SIZE` -/
abbrev freeMemberPoolSize : Nat := 64

abbrev GroupIdx := Fin maxLenOfMulticastFilterTable
abbrev MemberIdx := Fin freeMemberPoolSize
/-- `PNET_DEV` -/
abbrev NetDev := Nat

/-- `MulticastFilterEntryType` -/
inductive FilterEntryType where
  | static | dynamic
  deriving DecidableEq

/-- `MULTICAST_FILTER_TABLE_ENTRY` -/
structure FilterEntry where
  valid : Bool := false
  type : FilterEntryType := .static
  lastTime : UInt32 := 0
  netDev : NetDev := 0
  addr : Octets 6 := .zero 6
  memberList : ListHeader MemberIdx := {}
  pNext : Option GroupIdx := none

/-- `MULTICAST_FILTER_TABLE`. `memberNext` and `memberAddr` are the two fields of the entries of
`freeMemberPool`. -/
structure FilterTable where
  size : UInt8 := 0
  hash : UInt8 → Option GroupIdx := fun _ => none
  content : GroupIdx → FilterEntry := fun _ => {}
  memberNext : MemberIdx → Option MemberIdx := fun _ => none
  memberAddr : MemberIdx → Octets 6 := fun _ => .zero 6
  freeEntryList : ListHeader MemberIdx := {}

/-- `MULTICAST_ADDR_HASH_INDEX` -/
def multicastAddrHashIndex (addr : Octets 6) : UInt8 :=
  (addr.get 0 ^^^ addr.get 1 ^^^ addr.get 2 ^^^ addr.get 3 ^^^ addr.get 4 ^^^ addr.get 5) &&&
    UInt8.ofNat (maxLenOfMulticastFilterTable * 2 - 1)

/-- The readings of the clock during a call: by `MulticastFilterTableLookup` and by the loop of the
insertion when they are at an entry, and when a new entry is filled in. -/
structure Readings where
  lookup : GroupIdx → UInt64
  scan : GroupIdx → UInt64
  entered : UInt64

/-- `IGMPMAC_TB_ENTRY_AGEOUT_TIME`, where `OS_HZ` is `hz`. -/
def ageoutTime (hz : UInt32) : UInt32 := 120 * hz

/-- `RTMP_TIME_AFTER` -/
def timeAfter (a b : UInt64) : Bool := decide (0x8000000000000000 ≤ b - a)

namespace FilterTable

def next (s : FilterTable) (i : GroupIdx) : Option GroupIdx := (s.content i).pNext

def setEntry (s : FilterTable) (i : GroupIdx) (e : FilterEntry) : FilterTable :=
  { s with content := Function.update s.content i e }

/-- The table with other heads of the chains and other links. -/
def relink (s : FilterTable) (p : (UInt8 → Option GroupIdx) × (GroupIdx → Option GroupIdx)) :
    FilterTable :=
  { s with hash := p.1, content := fun i => { s.content i with pNext := p.2 i } }

/-- The member list of group `i` is `list`, and the links of the pool are `next`. -/
def setMembers (s : FilterTable) (i : GroupIdx)
    (p : ListHeader MemberIdx × (MemberIdx → Option MemberIdx)) : FilterTable :=
  { s.setEntry i { s.content i with memberList := p.1 } with memberNext := p.2 }

end FilterTable

/-- What the functions compare a group by. -/
def isGroup (s : FilterTable) (dev : NetDev) (addr : Octets 6) (i : GroupIdx) : Bool :=
  decide ((s.content i).netDev = dev ∧ (s.content i).addr = addr)

/-! ## 2. Members -/

/-- `FreeGrpMemberEntry` -/
def freeGrpMemberEntry (s : FilterTable) (m : MemberIdx) : FilterTable :=
  let p := insertTailList s.freeEntryList s.memberNext m
  { s with freeEntryList := p.1, memberNext := p.2 }

/-- `initFreeEntryList` -/
def initFreeEntryList (s : FilterTable) : FilterTable :=
  (List.finRange freeMemberPoolSize).foldl freeGrpMemberEntry s

/-- `MulticastFilterTableInit` -/
def multicastFilterTableInit : FilterTable := initFreeEntryList {}

/-- `AllocaGrpMemberEntry` -/
def allocaGrpMemberEntry (s : FilterTable) : Option MemberIdx × FilterTable :=
  let p := removeHeadList s.freeEntryList s.memberNext
  (p.1, { s with freeEntryList := p.2 })

/-- `InsertIgmpMember`, on the list of group `i`. -/
def insertIgmpMember (s : FilterTable) (i : GroupIdx) (memberAddr : Octets 6) : FilterTable :=
  match allocaGrpMemberEntry s with
  | (none, s) => s
  | (some m, s) =>
    let filled : FilterTable :=
      { s with
        memberNext := Function.update s.memberNext m none
        memberAddr := Function.update s.memberAddr m memberAddr }
    filled.setMembers i (insertTailList (filled.content i).memberList filled.memberNext m)

/-- `DeleteIgmpMember`, on the list of group `i`. -/
def deleteIgmpMember (s : FilterTable) (i : GroupIdx) (memberAddr : Octets 6) :
    Option FilterTable := do
  let list := (s.content i).memberList
  let (_, cur) ← Chain.walk s.memberNext (fun m => decide (s.memberAddr m = memberAddr))
    freeMemberPoolSize none list.pHead
  match cur with
  | none => pure s
  | some m =>
    let deleted ← delEntryList freeMemberPoolSize list s.memberNext m
    pure (freeGrpMemberEntry (s.setMembers i deleted) m)

/-- The loop of `DeleteIgmpMemberList`. -/
def deleteIgmpMemberLoop (i : GroupIdx) : Nat → Option MemberIdx → FilterTable → Option FilterTable
  | _, none, s => some s
  | 0, some _, _ => none
  | fuel + 1, some m, s => do
    let deleted ← delEntryList freeMemberPoolSize (s.content i).memberList s.memberNext m
    let unlinked := s.setMembers i deleted
    -- the link is read behind `delEntryList`, which leaves it, and before the entry is free
    deleteIgmpMemberLoop i fuel (unlinked.memberNext m) (freeGrpMemberEntry unlinked m)

/-- `DeleteIgmpMemberList`, on the list of group `i`. -/
def deleteIgmpMemberList (s : FilterTable) (i : GroupIdx) : Option FilterTable :=
  match (s.content i).memberList.pHead with
  | none => some s
  | some head => do
    let emptied ← deleteIgmpMemberLoop i freeMemberPoolSize (some head) s
    pure (emptied.setMembers i (initList, emptied.memberNext))

/-- `IgmpMemberCnt` -/
def igmpMemberCnt (s : FilterTable) (i : GroupIdx) : UInt8 := (s.content i).memberList.size

/-! ## 3. Groups -/

/-- Group `i` is taken out of chain `hashIdx`, when `prev` is the entry before it. -/
def unlinkGroup (s : FilterTable) (hashIdx : UInt8) (prev : Option GroupIdx) (i : GroupIdx) :
    Option FilterTable :=
  if s.hash hashIdx = some i then some (s.relink (Chain.cut s.hash s.next hashIdx none i))
  else prev.map fun j => s.relink (Chain.cut s.hash s.next hashIdx (some j) i)

/-- How `-Lookup` and `-DeleteEntry` let go of a group. -/
def removeGroup (s : FilterTable) (hashIdx : UInt8) (prev : Option GroupIdx) (i : GroupIdx) :
    Option FilterTable := do
  let unlinked ← unlinkGroup s hashIdx prev i
  let emptied ← deleteIgmpMemberList unlinked i
  pure { emptied.setEntry i {} with size := emptied.size - 1 }

/-- `DeleteIgmpMember`, if there is an address. -/
def leaveGroup (s : FilterTable) (i : GroupIdx) : Option (Octets 6) → Option FilterTable
  | some memberAddr => deleteIgmpMember s i memberAddr
  | none => some s

/-- `MulticastFilterTableDeleteEntry` -/
def multicastFilterTableDeleteEntry (s : FilterTable) (grpId : Octets 6)
    (memberAddr : Option (Octets 6)) (dev : NetDev) : Option FilterTable := do
  let hashIdx := multicastAddrHashIndex grpId
  let (prev, found) ← Chain.walk s.next
    (fun i => decide (¬ (s.content i).valid ∨ isGroup s dev grpId i)) maxLenOfMulticastFilterTable
    (s.hash hashIdx) (s.hash hashIdx)
  match found with
  | none => pure s
  | some i =>
    let left ← leaveGroup s i memberAddr
    if memberAddr.isSome ∧ 0 < igmpMemberCnt left i then pure left
    else removeGroup left hashIdx prev i

/-- The loop of `MulticastFilterTableLookup`. -/
def lookupLoop (hz : UInt32) (now : GroupIdx → UInt64) (addr : Octets 6) (dev : NetDev) :
    Nat → Option GroupIdx → Option GroupIdx → FilterTable → Option (FilterTable × Option GroupIdx)
  | _, _, none, s => some (s, none)
  | 0, _, some _, _ => none
  | fuel + 1, prev, some i, s =>
    let entry := s.content i
    if ¬ entry.valid then some (s, some i)
    else if isGroup s dev addr i then
      some (s.setEntry i { entry with lastTime := (now i).toUInt32 }, some i)
    else if entry.type = .dynamic ∧
        timeAfter (now i) (entry.lastTime + ageoutTime hz).toUInt64 then
      -- "Remove the aged entry": at the head of the chain `pPrev` is moved on with it
      let prev' := if s.hash (multicastAddrHashIndex addr) = some i then entry.pNext else prev
      (removeGroup s (multicastAddrHashIndex addr) prev i).bind
        (lookupLoop hz now addr dev fuel prev' entry.pNext)
    else lookupLoop hz now addr dev fuel (some i) entry.pNext s

/-- `MulticastFilterTableLookup` -/
def multicastFilterTableLookup (hz : UInt32) (now : GroupIdx → UInt64) (s : FilterTable)
    (addr : Octets 6) (dev : NetDev) : Option (FilterTable × Option GroupIdx) :=
  let head := s.hash (multicastAddrHashIndex addr)
  lookupLoop hz now addr dev maxLenOfMulticastFilterTable head head s

/-- "the multicast entry already exist": whether the member is in its list. -/
def isMember (s : FilterTable) (i : GroupIdx) (memberAddr : Octets 6) : Option Bool :=
  (Chain.walk s.memberNext (fun m => decide (s.memberAddr m = memberAddr)) freeMemberPoolSize none
    (s.content i).memberList.pHead).map fun p => p.2.isSome

/-- An entry that the insertion takes: one that is not valid, or one that is too old. -/
def isVacant (hz : UInt32) (now : GroupIdx → UInt64) (s : FilterTable) (i : GroupIdx) : Bool :=
  let entry := s.content i
  !entry.valid || decide (entry.type = .dynamic ∧
    (ageoutTime hz).toUInt64 < now i - entry.lastTime.toUInt64)

/-- How the insertion lets go of an entry that is too old: it takes out of the chain what has its
device and address. -/
def removeAged (s : FilterTable) (i : GroupIdx) : Option FilterTable := do
  let entry := s.content i
  let hashIdx := multicastAddrHashIndex entry.addr
  let head ← s.hash hashIdx
  let (prev, found) ← Chain.walk s.next (isGroup s entry.netDev entry.addr)
    maxLenOfMulticastFilterTable none (some head)
  let unlinked : FilterTable :=
    match found with
    | some j => { s.relink (Chain.cut s.hash s.next hashIdx prev j) with size := s.size - 1 }
    | none => s
  deleteIgmpMemberList (unlinked.setEntry i { unlinked.content i with valid := false }) i

/-- Entry `i`, which `isVacant` holds of, when it is not valid any more. -/
def vacate (s : FilterTable) (i : GroupIdx) : Option FilterTable :=
  if (s.content i).valid then removeAged s i else some s

/-- "add this MAC entry into HASH table" -/
def linkGroup (s : FilterTable) (i : GroupIdx) (hashIdx : UInt8) : Option FilterTable :=
  (Chain.append maxLenOfMulticastFilterTable s.hash s.next hashIdx i).map s.relink

/-- `InsertIgmpMember`, if there is an address. -/
def joinGroup (s : FilterTable) (i : GroupIdx) : Option (Octets 6) → FilterTable
  | some memberAddr => insertIgmpMember s i memberAddr
  | none => s

/-- The new entry `i`, which is vacant by now. -/
def enterGroup (s : FilterTable) (i : GroupIdx) (grpId : Octets 6)
    (memberAddr : Option (Octets 6)) (dev : NetDev) (type : FilterEntryType) (now : UInt64) :
    FilterTable :=
  let entry : FilterEntry :=
    { valid := true
      type := type
      lastTime := now.toUInt32
      netDev := dev
      addr := grpId
      memberList := initList
      pNext := none }
  let filled := joinGroup (s.setEntry i entry) i memberAddr
  { filled with size := filled.size + 1 }

/-- `MulticastFilterTableInsertEntry` for a group that the table has not got. -/
def insertGroup (hz : UInt32) (clock : Readings) (s : FilterTable) (grpId : Octets 6)
    (memberAddr : Option (Octets 6)) (dev : NetDev) (type : FilterEntryType) :
    Option FilterTable :=
  match (List.finRange maxLenOfMulticastFilterTable).find? (isVacant hz clock.scan s) with
  | some i => do
    let vacant ← vacate s i
    linkGroup (enterGroup vacant i grpId memberAddr dev type clock.entered) i
      (multicastAddrHashIndex grpId)
  -- the loop ends with `pEntry` at the last entry
  | none => linkGroup s (Fin.last _) (multicastAddrHashIndex grpId)

/-- `MulticastFilterTableInsertEntry`, and what it returns. -/
def multicastFilterTableInsertEntry (hz : UInt32) (clock : Readings) (s : FilterTable)
    (grpId : Octets 6) (memberAddr : Option (Octets 6)) (dev : NetDev) (type : FilterEntryType) :
    Option (FilterTable × Bool) :=
  if maxLenOfMulticastFilterTable ≤ s.size.toNat then some (s, false)
  else do
    let (looked, found) ← multicastFilterTableLookup hz clock.lookup s grpId dev
    match found, memberAddr with
    | some _, none => pure (looked, false)
    | some i, some memberAddr =>
      if ← isMember looked i memberAddr then pure (looked, false)
      else pure (insertIgmpMember looked i memberAddr, true)
    | none, _ =>
      let inserted ← insertGroup hz clock looked grpId memberAddr dev type
      pure (inserted, true)

/-- One turn of `IgmpGroupDelMembers`. -/
def groupDelMember (memberAddr : Option (Octets 6)) (dev : NetDev) (s : FilterTable)
    (i : GroupIdx) : Option FilterTable :=
  if (s.content i).valid then do
    let left ← leaveGroup s i memberAddr
    if (left.content i).type = .dynamic ∧ igmpMemberCnt left i = 0 then
      multicastFilterTableDeleteEntry left (left.content i).addr memberAddr dev
    else pure left
  else some s

/-- `IgmpGroupDelMembers` -/
def igmpGroupDelMembers (s : FilterTable) (memberAddr : Option (Octets 6)) (dev : NetDev) :
    Option FilterTable :=
  (List.finRange maxLenOfMulticastFilterTable).foldlM (groupDelMember memberAddr dev) s

end Mt7601.Igmp
