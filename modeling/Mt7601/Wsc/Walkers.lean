/-
# The walkers along WSC attributes

The functions of the driver that look for one attribute on their own: the type of a message
(`WscRxMsgType`), its nonce (`WscCheckNonce`), the error of a NACK (`WscGetConfigErrFromNack`), the
password id of a probe request (`WscCheckPeerDPID`) and of an access point's element
(`WscCheckWpsIeFromWpsAP`), an attribute by its tag (`WscGetDataFromPeerByTag`), and an item of a
vendor extension (`WscParseV2SubItem`).

Six of them are one walk under a counter; its type differs. `walkers_iff` is when each is safe and
finds the first attribute of its type: when the octets it is given are laid out for its walk, and,
for the two that go on behind an attribute of the type, when the first one decides. Where the
counter is unsigned, an attribute longer than what is left wraps it, and none of the walks has a
bound but its counter: `not_rxMsgTypeMeets_longVersion`.
-/
import Mt7601.Lib.TlvWalk
import Mt7601.Mlme.Queue
import Mt7601.Wsc.MessageBounds

namespace Mt7601.Wsc

open Checked (access Safe)
open Tlv

/-! ## 1. The functions -/

/-- `Msg` of an element of the queue. -/
structure ElemMsg where
  octets : List UInt8
  room : octets.length ≤ Mlme.mgmtDmaBufferSize

/-- A `USHORT` that must be more than a header. -/
def ushortCounter : Counter := ⟨4, 0⟩

/-- A `SHORT` that must be positive. -/
def shortCounter : Counter := ⟨0, -2 ^ 15⟩

/-- An `INT` that must be positive. -/
def intCounter : Counter := ⟨0, -2 ^ 31⟩

/-- Octet by octet, up to the first that differs. -/
def equalMemory : List UInt8 → List UInt8 → Nat → Checked Bool
  | _, _, 0 => .ok true
  | a :: as, b :: bs, n + 1 => if a = b then equalMemory as bs n else .ok false
  | _, _, _ + 1 => .error .outside

/-- Compares with one name after the other, of each so many octets, for what the first equal one
stands for. -/
def firstEqual (msg : List UInt8) : List (List UInt8 × Nat × UInt8) → Checked (Option UInt8)
  | [] => .ok none
  | (name, n, r) :: names =>
    equalMemory name msg n >>= fun equal =>
      if equal then .ok (some r) else firstEqual msg names

/-- A visit that ends the walk at the first attribute of a type, and reads so much of it. -/
def findVisit {ρ : Type} (data : List UInt8) (t n : Nat) (found : Attr → ρ) (_ : Unit) (a : Attr) :
    Checked (Unit ⊕ ρ) :=
  if a.type = t then access data.length a.off n >>= fun _ => .ok (.inr (found a))
  else .ok (.inl ())

def wscMsgEapRegRspId : UInt8 := 0x22
def wscMsgEapEnrRspId : UInt8 := 0x23
def wscMsgEapReqId : UInt8 := 0x25
def wscMsgEapReqStart : UInt8 := 0x26
def wscMsgEapFail : UInt8 := 0x27
def wscMsgEapFragAck : UInt8 := 0x28
def wscMsgUnknown : UInt8 := 0xff

/-- `WFA`. -/
def wfa : List UInt8 := [87, 70, 65]

/-- `WFA-SimpleConfig-Registrar` and `WFA-SimpleConfig-Enrollee`, without their terminators. -/
def identityNames : List (List UInt8 × Nat × UInt8) :=
  [([87, 70, 65, 45, 83, 105, 109, 112, 108, 101, 67, 111, 110, 102, 105, 103, 45, 82, 101, 103, 105,
      115, 116, 114, 97, 114], 26, wscMsgEapRegRspId),
    ([87, 70, 65, 45, 83, 105, 109, 112, 108, 101, 67, 111, 110, 102, 105, 103, 45, 69, 110, 114, 111,
      108, 108, 101, 101], 25, wscMsgEapEnrRspId)]

/-- `hello`, `EAP_FAIL`, `WSC_START` and `WSC_FRAG_ACK`, with their terminators, as long as the
message is. -/
def messageNames (msgLen : Nat) : List (List UInt8 × Nat × UInt8) :=
  [([104, 101, 108, 108, 111, 0], msgLen, wscMsgEapReqId),
    ([69, 65, 80, 95, 70, 65, 73, 76, 0], msgLen, wscMsgEapFail),
    ([87, 83, 67, 95, 83, 84, 65, 82, 84, 0], msgLen, wscMsgEapReqStart),
    ([87, 83, 67, 95, 70, 82, 65, 71, 95, 65, 67, 75, 0], msgLen, wscMsgEapFragAck)]

/-- The type by a name, if it is decided by that: always for what begins with `WFA`. -/
def wscRxName (msg : List UInt8) (msgLen : Nat) : Checked (Option UInt8) :=
  equalMemory wfa msg 3 >>= fun isWfa =>
    if isWfa then firstEqual msg identityNames >>= fun r => .ok (some (r.getD wscMsgUnknown))
    else firstEqual msg (messageNames msgLen)

/-- Otherwise it is in the attributes, the first of which is the version. -/
def wscRxAttr (msg : List UInt8) (msgLen : Nat) : Checked UInt8 :=
  access msg.length 0 2 >>= fun _ =>
    if word msg 0 = wscIdVersion then
      counted ushortCounter (findVisit msg wscIdMsgType 1 fun a => msg.getD a.off 0) msg () 0
          (msgLen % 2 ^ 16 : Nat) >>= fun r =>
        .ok (r.elim (fun _ => wscMsgUnknown) id)
    else .ok wscMsgUnknown

def wscRxMsgType (msg : ElemMsg) (msgLen : Nat) : Checked UInt8 :=
  wscRxName msg.octets msgLen >>= fun r =>
    match r with
    | some t => .ok t
    | none => wscRxAttr msg.octets msgLen

/-- The nonce asked for. -/
def nonceId (bFlag : Bool) : Nat := if bFlag then wscIdRegistrarNonce else wscIdEnrolleeNonce

/-- A nonce that is the own one or zero ends the walk. -/
def nonceVisit (selfNonce : Octets 16) (data : List UInt8) (wscId : Nat) (_ : Unit) (a : Attr) :
    Checked (Unit ⊕ Bool) :=
  if a.type = wscId then
    equalMemory selfNonce.toList (data.drop a.off) 16 >>= fun equal =>
      if equal then .ok (.inr true)
      else
        equalMemory (data.drop a.off) (List.replicate 16 0) 16 >>= fun zero =>
          if zero then .ok (.inr true) else .ok (.inl ())
  else .ok (.inl ())

def wscCheckNonce (selfNonce : Octets 16) (msg : ElemMsg) (msgLen : Nat) (bFlag : Bool) :
    Checked Bool :=
  counted ushortCounter (nonceVisit selfNonce msg.octets (nonceId bFlag)) msg.octets () 0
      (msgLen % 2 ^ 16 : Nat) >>= fun r =>
    .ok (r.elim (fun _ => false) id)

/-- The error, or nothing when the attribute is missing. -/
def wscGetConfigErrFromNack (msg : ElemMsg) (msgLen : Nat) : Checked (Option Nat) :=
  counted ushortCounter (findVisit msg.octets wscIdConfigError 2 fun a => word msg.octets a.off)
      msg.octets () 0 (msgLen % 2 ^ 16 : Nat) >>= fun r =>
    .ok (r.elim (fun _ => none) some)

def devPassIdPin : Nat := 0

def devPassIdPbc : Nat := 4

/-- What a password id leads to. -/
inductive DpidAct
  /-- the station is in the table of PBC probes from now on -/
  | pbcFromSta
  /-- it is in the list of peers of a BSS -/
  | insertPeer (apIdx : Nat)
  | nothing
  deriving DecidableEq

/-- A BSS of the access point: its address, and of its control block what is looked at. -/
structure ApBss where
  bssid : Octets 6
  bWscTrigger : Bool
  pbcMode : Bool

/-- What is done about a password id: for a PIN, the BSS the request is for takes the station in,
unless it was triggered to do PBC. `mbssid` is empty on a station. -/
def dpidAct (mbssid : List ApBss) (addr1 : Octets 6) (devicePasswordId : Nat) : DpidAct :=
  if devicePasswordId = devPassIdPbc then .pbcFromSta
  else if devicePasswordId = devPassIdPin then
    match mbssid.findIdx? (·.bssid = addr1) with
    | none => .nothing
    | some apIdx =>
      match mbssid[apIdx]? with
      | none => .nothing
      | some bss => if !bss.bWscTrigger || !bss.pbcMode then .insertPeer apIdx else .nothing
  else .nothing

def wscCheckPeerDPID (mbssid : List ApBss) (addr1 : Octets 6) (eid_data : List UInt8)
    (eid_len : Int) : Checked DpidAct :=
  counted intCounter
      (findVisit eid_data wscIdDevicePwdId 2 fun a => dpidAct mbssid addr1 (word eid_data a.off))
      eid_data () 4 (eid_len - 4) >>= fun r =>
    .ok (r.elim (fun _ => .nothing) id)

/-- `WPS_OUI`. -/
def wpsOui : List UInt8 := [0x00, 0x50, 0xf2, 0x04]

/-- The password id kept behind one that was found. -/
def keptDpid (dpid found : Nat) : Nat :=
  if found = devPassIdPin then devPassIdPin
  else if found = devPassIdPbc then devPassIdPbc
  else dpid

/-- Each password id is looked at; the walk goes on behind it. -/
def dpidVisit (data : List UInt8) (dpid : Nat) (a : Attr) : Checked (Nat ⊕ Empty) :=
  if a.type = wscIdDevicePwdId then
    access data.length a.off 2 >>= fun _ => .ok (.inl (keptDpid dpid (word data a.off)))
  else .ok (.inl dpid)

/-- `octets` are those behind the element's length; the result is the password id kept. -/
def wscCheckWpsIeFromWpsAP (octets : List UInt8) (len : UInt8) (dpid : Nat) : Checked Nat :=
  equalMemory octets wpsOui 4 >>= fun isWps =>
    if isWps then
      counted shortCounter (dpidVisit octets) octets dpid 4 ((len.toNat : Int) - 4) >>= fun r =>
        .ok (r.elim id fun e => nomatch e)
    else .ok dpid

/-- A tagged attribute is copied to a destination of `room` octets, as long as it is. -/
def tagVisit (data : List UInt8) (tag room : Nat) (_ : Unit) (a : Attr) :
    Checked (Unit ⊕ List UInt8) :=
  if a.type = tag then
    access data.length a.off a.len >>= fun _ =>
      access room 0 a.len >>= fun _ => .ok (.inr (a.value data))
  else .ok (.inl ())

/-- What is copied, or nothing for `FALSE`. -/
def wscGetDataFromPeerByTag (pIeData : List UInt8) (ieDataLen : Int) (wscTag room : Nat) :
    Checked (Option (List UInt8)) :=
  counted intCounter (tagVisit pIeData wscTag room) pIeData () 0 ieDataLen >>= fun r =>
    .ok (r.elim (fun _ => none) some)

/-! ## 2. What they are for -/

/-- The attributes of a type have the octets that are read of it. -/
def Sized (t n : Nat) (items : List Item) : Prop := ∀ i ∈ items, i.type = t → n ≤ i.value.length

/-- The first attribute of a type. -/
def firstOf (t : Nat) (items : List Item) : Option Item := items.find? (·.type = t)

/-- Safe whatever the octets are, and on a row of attributes of a shape what is asked for. -/
def Finds {τ : Type} (run : Checked τ) (data : List UInt8) (off : Nat) (left : Int)
    (shape : List Item → Prop) (verdict : List Item → τ) : Prop :=
  Safe run ∧ ∀ items, RowAt data off left items → shape items → run = .ok (verdict items)

/-- The type of a message whose attributes begin with the version. -/
def RxMsgTypeMeets (msg : ElemMsg) (msgLen : Nat) : Prop :=
  Finds (wscRxMsgType msg msgLen) msg.octets 0 msgLen
    (fun items => Sized wscIdMsgType 1 items ∧ items.head?.map Item.type = some wscIdVersion)
    fun items => ((firstOf wscIdMsgType items).map fun i => i.value.headD 0).getD wscMsgUnknown

/-- The own nonce, or zero. -/
def nonceOk (selfNonce : Octets 16) (nonce : List UInt8) : Bool :=
  nonce = selfNonce.toList || nonce = List.replicate 16 0

def CheckNonceMeets (selfNonce : Octets 16) (msg : ElemMsg) (msgLen : Nat) (bFlag : Bool) : Prop :=
  Finds (wscCheckNonce selfNonce msg msgLen bFlag) msg.octets 0 msgLen (Sized (nonceId bFlag) 16)
    fun items => (firstOf (nonceId bFlag) items).any fun i => nonceOk selfNonce (i.value.take 16)

def ConfigErrMeets (msg : ElemMsg) (msgLen : Nat) : Prop :=
  Finds (wscGetConfigErrFromNack msg msgLen) msg.octets 0 msgLen (Sized wscIdConfigError 2)
    fun items => (firstOf wscIdConfigError items).map fun i => beVal (i.value.take 2)

def PeerDpidMeets (mbssid : List ApBss) (addr1 : Octets 6) (eid_data : List UInt8)
    (eid_len : Int) : Prop :=
  Finds (wscCheckPeerDPID mbssid addr1 eid_data eid_len) eid_data 4 (eid_len - 4)
    (Sized wscIdDevicePwdId 2)
    fun items => ((firstOf wscIdDevicePwdId items).map fun i =>
      dpidAct mbssid addr1 (beVal (i.value.take 2))).getD .nothing

def WpsIeMeets (octets : List UInt8) (len : UInt8) (dpid : Nat) : Prop :=
  Finds (wscCheckWpsIeFromWpsAP octets len dpid) octets 4 ((len.toNat : Int) - 4)
    (fun items => Sized wscIdDevicePwdId 2 items ∧ octets.take 4 = wpsOui)
    fun items => ((firstOf wscIdDevicePwdId items).map fun i =>
      keptDpid dpid (beVal (i.value.take 2))).getD dpid

/-- What is copied is no more than the destination has room for. -/
def PeerByTagMeets (pIeData : List UInt8) (ieDataLen : Int) (wscTag room : Nat) : Prop :=
  Finds (wscGetDataFromPeerByTag pIeData ieDataLen wscTag room) pIeData 0 ieDataLen
    (fun _ => True) fun items => (firstOf wscTag items).map Item.value

/-! ## 3. Comparing -/

section

variable {as bs : List UInt8} {n : Nat}

theorem equalMemory_zero : equalMemory as bs 0 = .ok true := by
  cases as <;> cases bs <;> rfl

/-- So many octets of both are there, or they differ before one ends. -/
def Comparable (as bs : List UInt8) (n : Nat) : Prop :=
  n ≤ as.length ∧ n ≤ bs.length ∨ ¬ as <+: bs ∧ ¬ bs <+: as

theorem equalMemory_safe : Safe (equalMemory as bs n) ↔ Comparable as bs n := by
  induction n generalizing as bs with
  | zero =>
    rw [equalMemory_zero]
    exact iff_of_true (Checked.safe_ok _) (.inl ⟨Nat.zero_le _, Nat.zero_le _⟩)
  | succ n ih =>
    cases as with
    | nil =>
      refine iff_of_false (Checked.not_safe_error _) ?_
      rintro (⟨h, -⟩ | ⟨h, -⟩)
      · exact absurd h (Nat.not_succ_le_zero n)
      · exact h List.nil_prefix
    | cons a as =>
      cases bs with
      | nil =>
        refine iff_of_false (Checked.not_safe_error _) ?_
        rintro (⟨-, h⟩ | ⟨-, h⟩)
        · exact absurd h (Nat.not_succ_le_zero n)
        · exact h List.nil_prefix
      | cons b bs =>
        rw [equalMemory, Comparable, List.cons_prefix_cons, List.cons_prefix_cons]
        by_cases hab : a = b
        · subst hab
          simpa [Comparable] using ih
        · rw [if_neg hab]
          exact iff_of_true (Checked.safe_ok _)
            (.inr ⟨fun h => hab h.1, fun h => hab h.1.symm⟩)

theorem equalMemory_eq {r : Bool} (h : equalMemory as bs n = .ok r) :
    r = decide (as.take n = bs.take n) := by
  induction n generalizing as bs with
  | zero =>
    rw [equalMemory_zero] at h
    cases h
    simp
  | succ n ih =>
    cases as with
    | nil => cases h
    | cons a as =>
      cases bs with
      | nil => cases h
      | cons b bs =>
        rw [equalMemory] at h
        by_cases hab : a = b
        · rw [if_pos hab] at h
          rw [ih h]
          simp [hab]
        · rw [if_neg hab] at h
          cases h
          simp [hab]

/-- Octets that can be compared compare as they are. -/
theorem equalMemory_of_comparable (h : Comparable as bs n) :
    equalMemory as bs n = .ok (decide (as.take n = bs.take n)) := by
  obtain ⟨r, hr⟩ := equalMemory_safe.mpr h
  rw [hr, equalMemory_eq hr]

end

/-! ## 4. Visits -/

section

variable {ρ : Type} {data : List UInt8} {t n : Nat} {found : Attr → ρ}

def findBound (data : List UInt8) (t n : Nat) (_ : Unit) (a : Attr) : Prop :=
  a.type = t → a.Has data n

def findEffect (t : Nat) (found : Attr → ρ) (_ : Unit) (a : Attr) : Unit ⊕ ρ :=
  if a.type = t then .inr (found a) else .inl ()

theorem findVisit_bounded :
    Bounded (findVisit data t n found) (findBound data t n) (findEffect t found) where
  safe s a := by
    rw [findVisit, findBound]
    by_cases ht : a.type = t
    · rw [if_pos ht, access_bind_safe]
      exact ⟨fun h _ => h.1, fun h => ⟨h ht, Checked.safe_ok _⟩⟩
    · rw [if_neg ht]
      exact iff_of_true (Checked.safe_ok _) fun h => absurd h ht
  eq := by
    intro s a r h
    rw [findVisit] at h
    by_cases ht : a.type = t
    · rw [if_pos ht] at h
      obtain ⟨-, h⟩ := Checked.access_bind_eq_ok.mp h
      cases h
      exact (if_pos ht).symm
    · rw [if_neg ht] at h
      cases h
      exact (if_neg ht).symm

/-- What is found is what the item holds. -/
def Found (data : List UInt8) (t n : Nat) (found : Attr → ρ) (itemFound : Item → ρ) : Prop :=
  ∀ (i : Item) (off : Nat), i.type = t → n ≤ i.value.length → (i.at off).value data = i.value →
    found (i.at off) = itemFound i

def findItem (t : Nat) (itemFound : Item → ρ) (_ : Unit) (i : Item) : Unit ⊕ ρ :=
  if i.type = t then .inr (itemFound i) else .inl ()

/-- Looking for a type along items, a walk comes to the first item of it. -/
theorem itemWalk_findItem {itemFound : Item → ρ} (items : List Item) :
    itemWalk (findItem t itemFound) () items =
      ((firstOf t items).map fun i => .inr (itemFound i)).getD (.inl ()) := by
  refine Eq.trans (itemWalk_first () fun _ _ _ => rfl) ?_
  rw [firstOf]
  cases items.find? (·.type = t) <;> rfl

theorem reads_findItem {itemFound : Item → ρ} {i : Item}
    (hfound : ∀ off, i.type = t → (i.at off).value data = i.value →
      found (i.at off) = itemFound i) :
    Reads data (findEffect t found) (findItem t itemFound) i := by
  intro s off hvalue _
  rw [findEffect, findItem]
  by_cases ht : i.type = t
  · have ht' : (i.at off).type = t := ht
    rw [if_pos ht', if_pos ht, hfound off ht hvalue]
  · have ht' : (i.at off).type ≠ t := ht
    rw [if_neg ht', if_neg ht]

/-- A walk that looks for a type, and what is made of it. -/
theorem find_meets {τ : Type} {c : Counter} {itemFound : Item → ρ} {f : Unit ⊕ ρ → τ} {off : Nat}
    {left : Int} {items : List Item} (hfound : Found data t n found itemFound)
    (hguard : c.guard ≤ 4) (hn : 0 < n)
    (hlaid : Laid c (findBound data t n) (findEffect t found) data () off left)
    (hrow : RowAt data off left items) (hsized : Sized t n items) :
    (counted c (findVisit data t n found) data () off left >>= fun r => .ok (f r)) =
      .ok (((firstOf t items).map fun i => f (.inr (itemFound i))).getD (f (.inl ()))) := by
  have hreads : ∀ i ∈ items, Reads data (findEffect t found) (findItem t itemFound) i :=
    fun i hi => reads_findItem fun off' ht hvalue => hfound i off' ht (hsized i hi ht) hvalue
  have hempty : ∀ i ∈ items, i.value = [] → ∀ s, findItem t itemFound s i = .inl s := by
    intro i hi hnil s
    refine if_neg fun ht => ?_
    have hle := hsized i hi ht
    rw [hnil] at hle
    exact absurd hle (Nat.not_le.mpr hn)
  rw [findVisit_bounded.counted_row hguard hlaid hrow hreads fun _ => hempty, itemWalk_findItem]
  cases firstOf t items <;> rfl

/-- A row of a message of the queue is shorter than its counter goes. -/
theorem rowAt_ushort {msg : ElemMsg} {msgLen : Nat} {items : List Item}
    (h : RowAt msg.octets 0 msgLen items) : RowAt msg.octets 0 (msgLen % 2 ^ 16 : Nat) items := by
  obtain ⟨⟨rest, hdrop⟩, hleft⟩ := h
  have hlen := congrArg List.length hdrop
  rw [List.length_drop, List.length_append] at hlen
  have hroom : msg.octets.length ≤ 1600 := msg.room
  have hmod : msgLen % 2 ^ 16 = msgLen := Nat.mod_eq_of_lt (by omega)
  rw [hmod]
  exact ⟨⟨rest, hdrop⟩, hleft⟩

/-- The first octets of an item's value are those of the buffer. -/
theorem read_of_value {i : Item} {off : Nat} (hn : n ≤ i.value.length)
    (hvalue : (i.at off).value data = i.value) :
    (data.drop (i.at off).off).take n = i.value.take n := by
  have hlen : (i.at off).len = i.value.length := rfl
  rw [Attr.value, hlen] at hvalue
  rw [← hvalue, List.take_take, Nat.min_eq_left hn]

theorem getD_of_value {i : Item} {off : Nat} (hn : 1 ≤ i.value.length)
    (hvalue : (i.at off).value data = i.value) :
    data.getD (i.at off).off 0 = i.value.headD 0 := by
  have hread := congrArg List.head? (read_of_value hn hvalue)
  rw [List.head?_take, List.head?_take, if_neg Nat.one_ne_zero, if_neg Nat.one_ne_zero,
    List.head?_drop] at hread
  rw [List.getD_eq_getElem?_getD, hread, List.headD_eq_head?_getD]

theorem word_of_value {i : Item} {off : Nat} (hn : 2 ≤ i.value.length)
    (hvalue : (i.at off).value data = i.value) :
    word data (i.at off).off = beVal (i.value.take 2) := by
  have hread := read_of_value hn hvalue
  have hlen := congrArg List.length hread
  rw [List.length_take, List.length_take, List.length_drop] at hlen
  rw [word, Mem.read, List.takeD_eq_take _ (by rw [List.length_drop]; omega), hread]

end

/-! ## 5. The error of a NACK, the password id of a request -/

section

variable {msg : ElemMsg} {msgLen : Nat}

def ConfigErrFits (msg : ElemMsg) (msgLen : Nat) : Prop :=
  Laid ushortCounter (findBound msg.octets wscIdConfigError 2)
    (findEffect wscIdConfigError fun a => word msg.octets a.off) msg.octets () 0
    (msgLen % 2 ^ 16 : Nat)

theorem configErr_iff : ConfigErrMeets msg msgLen ↔ ConfigErrFits msg msgLen := by
  constructor
  · intro h
    exact findVisit_bounded.safe_map.mp h.1
  · intro hlaid
    refine ⟨findVisit_bounded.safe_map.mpr hlaid, ?_⟩
    intro items hrow hsized
    have hfound : Found msg.octets wscIdConfigError 2 (fun a => word msg.octets a.off)
        fun i => beVal (i.value.take 2) :=
      fun i off _ hn hvalue => word_of_value hn hvalue
    rw [wscGetConfigErrFromNack,
      find_meets hfound (by decide) (by decide) hlaid (rowAt_ushort hrow) hsized]
    dsimp only
    cases firstOf wscIdConfigError items <;> rfl

variable {mbssid : List ApBss} {addr1 : Octets 6} {eid_data : List UInt8} {eid_len : Int}

def PeerDpidFits (mbssid : List ApBss) (addr1 : Octets 6) (eid_data : List UInt8)
    (eid_len : Int) : Prop :=
  Laid intCounter (findBound eid_data wscIdDevicePwdId 2)
    (findEffect wscIdDevicePwdId fun a => dpidAct mbssid addr1 (word eid_data a.off)) eid_data () 4
    (eid_len - 4)

theorem peerDpid_iff :
    PeerDpidMeets mbssid addr1 eid_data eid_len ↔ PeerDpidFits mbssid addr1 eid_data eid_len := by
  constructor
  · intro h
    exact findVisit_bounded.safe_map.mp h.1
  · intro hlaid
    refine ⟨findVisit_bounded.safe_map.mpr hlaid, ?_⟩
    intro items hrow hsized
    have hfound : Found eid_data wscIdDevicePwdId 2
        (fun a => dpidAct mbssid addr1 (word eid_data a.off))
        fun i => dpidAct mbssid addr1 (beVal (i.value.take 2)) :=
      fun i off _ hn hvalue => congrArg (dpidAct mbssid addr1) (word_of_value hn hvalue)
    rw [wscCheckPeerDPID, find_meets hfound (by decide) (by decide) hlaid hrow hsized]
    dsimp only
    cases firstOf wscIdDevicePwdId items <;> rfl

end

/-! ## 6. The type of a message -/

section

variable {msg : List UInt8} {msgLen : Nat} {names : List (List UInt8 × Nat × UInt8)}

/-- Each name can be compared with, up to the one that is equal. -/
def NamesFit (msg : List UInt8) : List (List UInt8 × Nat × UInt8) → Prop
  | [] => True
  | (name, n, _) :: names =>
    Comparable name msg n ∧ (name.take n ≠ msg.take n → NamesFit msg names)

/-- What the first equal name stands for. -/
def nameOf (msg : List UInt8) : List (List UInt8 × Nat × UInt8) → Option UInt8
  | [] => none
  | (name, n, r) :: names => if name.take n = msg.take n then some r else nameOf msg names

theorem firstEqual_safe : Safe (firstEqual msg names) ↔ NamesFit msg names := by
  induction names with
  | nil => exact iff_of_true (Checked.safe_ok _) trivial
  | cons name names ih =>
    obtain ⟨name, n, r⟩ := name
    rw [firstEqual, NamesFit, Checked.safe_bind]
    constructor
    · rintro ⟨equal, hequal, h⟩
      have hfit := equalMemory_safe.mp ⟨equal, hequal⟩
      refine ⟨hfit, fun hne => ?_⟩
      rw [equalMemory_eq hequal, decide_eq_false hne] at h
      exact ih.mp h
    · rintro ⟨hfit, h⟩
      refine ⟨_, equalMemory_of_comparable hfit, ?_⟩
      by_cases heq : name.take n = msg.take n
      · rw [decide_eq_true heq]
        exact Checked.safe_ok _
      · rw [decide_eq_false heq]
        exact ih.mpr (h heq)

theorem firstEqual_of_fit (h : NamesFit msg names) :
    firstEqual msg names = .ok (nameOf msg names) := by
  induction names with
  | nil => rfl
  | cons name names ih =>
    obtain ⟨name, n, r⟩ := name
    rw [firstEqual, nameOf, equalMemory_of_comparable h.1, Checked.ok_bind]
    by_cases heq : name.take n = msg.take n
    · rw [decide_eq_true heq, if_pos heq]
      rfl
    · rw [decide_eq_false heq, if_neg heq]
      exact ih (h.2 heq)

/-- What can be compared of a message for its names. -/
def RxNameFits (msg : List UInt8) (msgLen : Nat) : Prop :=
  Comparable wfa msg 3 ∧
    (wfa = msg.take 3 → NamesFit msg identityNames) ∧
    (wfa ≠ msg.take 3 → NamesFit msg (messageNames msgLen))

/-- The type by a name. -/
def rxNameOf (msg : List UInt8) (msgLen : Nat) : Option UInt8 :=
  if wfa = msg.take 3 then some ((nameOf msg identityNames).getD wscMsgUnknown)
  else nameOf msg (messageNames msgLen)

theorem wscRxName_eq (h : Comparable wfa msg 3) :
    wscRxName msg msgLen =
      if wfa = msg.take 3 then
        firstEqual msg identityNames >>= fun r => .ok (some (r.getD wscMsgUnknown))
      else firstEqual msg (messageNames msgLen) := by
  have htake : wfa.take 3 = wfa := rfl
  rw [wscRxName, equalMemory_of_comparable h, Checked.ok_bind, htake]
  by_cases hw : wfa = msg.take 3
  · rw [decide_eq_true hw, if_pos hw, if_pos rfl]
  · rw [decide_eq_false hw, if_neg hw, if_neg (by decide)]

theorem wscRxName_safe : Safe (wscRxName msg msgLen) ↔ RxNameFits msg msgLen := by
  by_cases hwfa : Comparable wfa msg 3
  · rw [wscRxName_eq hwfa, RxNameFits, and_iff_right hwfa]
    by_cases hw : wfa = msg.take 3
    · rw [if_pos hw, Checked.safe_bind]
      constructor
      · rintro ⟨r, hr, -⟩
        exact ⟨fun _ => firstEqual_safe.mp ⟨r, hr⟩, fun hne => absurd hw hne⟩
      · rintro ⟨h, -⟩
        obtain ⟨r, hr⟩ := firstEqual_safe.mpr (h hw)
        exact ⟨r, hr, Checked.safe_ok _⟩
    · rw [if_neg hw, firstEqual_safe]
      exact ⟨fun h => ⟨fun he => absurd he hw, fun _ => h⟩, fun h => h.2 hw⟩
  · refine iff_of_false ?_ fun h => hwfa h.1
    intro h
    obtain ⟨equal, hequal, -⟩ := Checked.safe_bind.mp h
    exact hwfa (equalMemory_safe.mp ⟨equal, hequal⟩)

theorem wscRxName_of_fits (h : RxNameFits msg msgLen) :
    wscRxName msg msgLen = .ok (rxNameOf msg msgLen) := by
  rw [wscRxName_eq h.1, rxNameOf]
  by_cases hw : wfa = msg.take 3
  · rw [if_pos hw, if_pos hw, firstEqual_of_fit (h.2.1 hw), Checked.ok_bind]
  · rw [if_neg hw, if_neg hw, firstEqual_of_fit (h.2.2 hw)]

/-- A message: it can be compared with the names, and where none decides its type its first two
octets are there, and behind a version its attributes are laid out for the walk. -/
def RxFits (msg : List UInt8) (msgLen : Nat) : Prop :=
  RxNameFits msg msgLen ∧
    (rxNameOf msg msgLen = none → 2 ≤ msg.length ∧
      (word msg 0 = wscIdVersion →
        Laid ushortCounter (findBound msg wscIdMsgType 1)
          (findEffect wscIdMsgType fun a => msg.getD a.off 0) msg () 0 (msgLen % 2 ^ 16 : Nat)))

theorem wscRxAttr_safe :
    Safe (wscRxAttr msg msgLen) ↔ 2 ≤ msg.length ∧
      (word msg 0 = wscIdVersion →
        Laid ushortCounter (findBound msg wscIdMsgType 1)
          (findEffect wscIdMsgType fun a => msg.getD a.off 0) msg () 0
          (msgLen % 2 ^ 16 : Nat)) := by
  rw [wscRxAttr, access_bind_safe, Nat.zero_add]
  refine and_congr_right fun _ => ?_
  by_cases hv : word msg 0 = wscIdVersion
  · rw [if_pos hv, findVisit_bounded.safe_map]
    exact ⟨fun h _ => h, fun h => h hv⟩
  · rw [if_neg hv]
    exact iff_of_true (Checked.safe_ok _) fun h => absurd h hv

theorem wscRxMsgType_safe {msg : ElemMsg} :
    Safe (wscRxMsgType msg msgLen) ↔ RxFits msg.octets msgLen := by
  by_cases hname : RxNameFits msg.octets msgLen
  · rw [wscRxMsgType, wscRxName_of_fits hname, Checked.ok_bind, RxFits, and_iff_right hname]
    cases rxNameOf msg.octets msgLen with
    | some t => exact iff_of_true (Checked.safe_ok _) fun h => (nomatch h)
    | none =>
      dsimp only
      rw [wscRxAttr_safe]
      exact ⟨fun h _ => h, fun h => h rfl⟩
  · refine iff_of_false ?_ fun h => hname h.1
    intro h
    obtain ⟨r, hr, -⟩ := Checked.safe_bind.mp h
    exact hname (wscRxName_safe.mp ⟨r, hr⟩)

/-- No name decides the type of what begins with the version. -/
theorem rxNameOf_version {msg : ElemMsg} {items : List Item}
    (hrow : RowAt msg.octets 0 msgLen items)
    (hhead : items.head?.map Item.type = some wscIdVersion) :
    rxNameOf msg.octets msgLen = none ∧ word msg.octets 0 = wscIdVersion := by
  obtain ⟨⟨rest, hdrop⟩, hleft⟩ := hrow
  cases items with
  | nil => cases hhead
  | cons i is =>
    have htype : i.type = wscIdVersion := Option.some.inj hhead
    rw [encodeAll_cons, List.append_assoc, Item.encode, List.append_assoc, htype] at hdrop
    have hmsg : ∃ behind, msg.octets = 16 :: 74 :: behind := ⟨_, hdrop⟩
    have hword : word msg.octets 0 = wscIdVersion := word_of_drop hdrop (by decide)
    have hpos : ∃ m, msgLen = m + 1 := by
      rw [encodeAll_cons, List.length_append, length_encode] at hleft
      exact ⟨msgLen - 1, by omega⟩
    refine ⟨?_, hword⟩
    obtain ⟨behind, hmsg⟩ := hmsg
    obtain ⟨m, rfl⟩ := hpos
    rw [rxNameOf, hmsg]
    simp [wfa, messageNames, nameOf]

theorem rxMsgType_iff {msg : ElemMsg} : RxMsgTypeMeets msg msgLen ↔ RxFits msg.octets msgLen := by
  constructor
  · intro h
    exact wscRxMsgType_safe.mp h.1
  · intro hfits
    refine ⟨wscRxMsgType_safe.mpr hfits, ?_⟩
    rintro items hrow ⟨hsized, hhead⟩
    obtain ⟨hnone, hversion⟩ := rxNameOf_version hrow hhead
    obtain ⟨hname, hattr⟩ := hfits
    obtain ⟨htwo, hlaid⟩ := hattr hnone
    have hfound : Found msg.octets wscIdMsgType 1 (fun a => msg.octets.getD a.off 0)
        fun i => i.value.headD 0 :=
      fun i off _ hn hvalue => getD_of_value hn hvalue
    rw [wscRxMsgType, wscRxName_of_fits hname, Checked.ok_bind, hnone]
    dsimp only
    rw [wscRxAttr, Checked.access_ok (by omega), Checked.ok_bind, if_pos hversion,
      find_meets hfound (by decide) (by decide) (hlaid hversion) (rowAt_ushort hrow) hsized]
    cases firstOf wscIdMsgType items <;> rfl

end

/-! ## 7. The nonce -/

section

variable {selfNonce : Octets 16} {data : List UInt8} {t msgLen : Nat} {bFlag : Bool}

/-- What is at a nonce can be compared with the own one, and if that is another, with zero. -/
def nonceBound (selfNonce : Octets 16) (data : List UInt8) (t : Nat) (_ : Unit) (a : Attr) : Prop :=
  a.type = t → Comparable selfNonce.toList (data.drop a.off) 16 ∧
    (selfNonce.toList ≠ (data.drop a.off).take 16 →
      Comparable (data.drop a.off) (List.replicate 16 0) 16)

def nonceEffect (selfNonce : Octets 16) (data : List UInt8) (t : Nat) (_ : Unit) (a : Attr) :
    Unit ⊕ Bool :=
  if a.type = t ∧ nonceOk selfNonce ((data.drop a.off).take 16) then .inr true else .inl ()

def nonceItem (selfNonce : Octets 16) (t : Nat) (_ : Unit) (i : Item) : Unit ⊕ Bool :=
  if i.type = t ∧ nonceOk selfNonce (i.value.take 16) then .inr true else .inl ()

theorem nonceVisit_eq {a : Attr} (ht : a.type = t) (h : nonceBound selfNonce data t () a) :
    nonceVisit selfNonce data t () a = .ok (nonceEffect selfNonce data t () a) := by
  obtain ⟨hself, hzero⟩ := h ht
  have htake : selfNonce.toList.take 16 = selfNonce.toList :=
    List.take_of_length_le selfNonce.toList_length.le
  have hreplicate : (List.replicate 16 (0 : UInt8)).take 16 = List.replicate 16 0 := rfl
  rw [nonceVisit, if_pos ht, equalMemory_of_comparable hself, Checked.ok_bind, htake, nonceEffect,
    nonceOk]
  by_cases he : selfNonce.toList = (data.drop a.off).take 16
  · rw [decide_eq_true he, if_pos rfl, if_pos ⟨ht, by rw [decide_eq_true he.symm]; rfl⟩]
  · have hne : ¬ (data.drop a.off).take 16 = selfNonce.toList := fun h => he h.symm
    rw [decide_eq_false he, if_neg (by decide), equalMemory_of_comparable (hzero he),
      Checked.ok_bind, hreplicate, decide_eq_false hne, Bool.false_or]
    by_cases hz : (data.drop a.off).take 16 = List.replicate 16 0
    · rw [decide_eq_true hz, if_pos rfl, if_pos ⟨ht, rfl⟩]
    · rw [decide_eq_false hz, if_neg (by decide), if_neg fun h => absurd h.2 (by decide)]

theorem nonceVisit_safe {a : Attr} :
    Safe (nonceVisit selfNonce data t () a) ↔ nonceBound selfNonce data t () a := by
  constructor
  · intro h ht
    rw [nonceVisit, if_pos ht, Checked.safe_bind] at h
    obtain ⟨equal, hequal, h⟩ := h
    have htake : selfNonce.toList.take 16 = selfNonce.toList :=
      List.take_of_length_le selfNonce.toList_length.le
    refine ⟨equalMemory_safe.mp ⟨equal, hequal⟩, fun hne => ?_⟩
    rw [equalMemory_eq hequal, htake, decide_eq_false hne, if_neg (by decide),
      Checked.safe_bind] at h
    obtain ⟨zero, hzero, -⟩ := h
    exact equalMemory_safe.mp ⟨zero, hzero⟩
  · intro h
    by_cases ht : a.type = t
    · exact ⟨_, nonceVisit_eq ht h⟩
    · rw [nonceVisit, if_neg ht]
      exact Checked.safe_ok _

theorem nonceVisit_bounded : Bounded (nonceVisit selfNonce data t) (nonceBound selfNonce data t)
    (nonceEffect selfNonce data t) where
  safe _ _ := nonceVisit_safe
  eq := by
    intro s a r h
    by_cases ht : a.type = t
    · have heq := nonceVisit_eq ht (nonceVisit_safe.mp ⟨r, h⟩)
      rw [h] at heq
      exact Except.ok.inj heq
    · rw [nonceVisit, if_neg ht] at h
      cases h
      exact (if_neg fun he => ht he.1).symm

/-- Along items, any nonce that is the own one or zero ends the walk. -/
theorem itemWalk_nonce (items : List Item) :
    ((itemWalk (nonceItem selfNonce t) () items).elim (fun _ => false) id) =
      items.any fun i => i.type = t && nonceOk selfNonce (i.value.take 16) := by
  induction items with
  | nil => rfl
  | cons i is ih =>
    rw [List.any_cons]
    by_cases hok : i.type = t ∧ nonceOk selfNonce (i.value.take 16) = true
    · rw [itemWalk_cons_inr (if_pos hok)]
      simp [hok.1, hok.2]
    · rw [itemWalk_cons_inl (if_neg hok), ih]
      have hfalse : (decide (i.type = t) && nonceOk selfNonce (i.value.take 16)) = false := by
        simpa using hok
      rw [hfalse, Bool.false_or]

/-- The octets are laid out for the walk, and in a row of attributes the first nonce is the own one
or zero if any is. -/
def NonceFits (selfNonce : Octets 16) (msg : ElemMsg) (msgLen : Nat) (bFlag : Bool) : Prop :=
  Laid ushortCounter (nonceBound selfNonce msg.octets (nonceId bFlag))
      (nonceEffect selfNonce msg.octets (nonceId bFlag)) msg.octets () 0 (msgLen % 2 ^ 16 : Nat) ∧
    ∀ items, RowAt msg.octets 0 msgLen items → Sized (nonceId bFlag) 16 items →
      ∀ i ∈ items, i.type = nonceId bFlag → nonceOk selfNonce (i.value.take 16) →
        ∃ j, firstOf (nonceId bFlag) items = some j ∧ nonceOk selfNonce (j.value.take 16)

theorem any_eq_first_iff {items : List Item} :
    (items.any fun i => i.type = t && nonceOk selfNonce (i.value.take 16)) =
        ((firstOf t items).any fun i => nonceOk selfNonce (i.value.take 16)) ↔
      ∀ i ∈ items, i.type = t → nonceOk selfNonce (i.value.take 16) →
        ∃ j, firstOf t items = some j ∧ nonceOk selfNonce (j.value.take 16) := by
  have hany : (items.any fun i => i.type = t && nonceOk selfNonce (i.value.take 16)) = true ↔
      ∃ i ∈ items, i.type = t ∧ nonceOk selfNonce (i.value.take 16) = true := by
    simp
  have hfirst : ((firstOf t items).any fun i => nonceOk selfNonce (i.value.take 16)) = true ↔
      ∃ j, firstOf t items = some j ∧ nonceOk selfNonce (j.value.take 16) = true := by
    cases firstOf t items <;> simp
  rw [Bool.eq_iff_iff, hany, hfirst]
  constructor
  · intro h i hi ht hok
    exact h.mp ⟨i, hi, ht, hok⟩
  · intro h
    refine ⟨fun ⟨i, hi, ht, hok⟩ => h i hi ht hok, fun ⟨j, hj, hok⟩ => ?_⟩
    exact ⟨j, List.mem_of_find?_eq_some hj, by simpa using List.find?_some hj, hok⟩

theorem checkNonce_iff {msg : ElemMsg} :
    CheckNonceMeets selfNonce msg msgLen bFlag ↔ NonceFits selfNonce msg msgLen bFlag := by
  rw [CheckNonceMeets, Finds, NonceFits, wscCheckNonce, nonceVisit_bounded.safe_map]
  refine and_congr_right fun hlaid => forall_congr' fun items => forall_congr' fun hrow =>
    forall_congr' fun hsized => ?_
  have hreads : ∀ i ∈ items, Reads msg.octets
      (nonceEffect selfNonce msg.octets (nonceId bFlag)) (nonceItem selfNonce (nonceId bFlag)) i := by
    intro i hi s off hvalue _
    have htype : (i.at off).type = i.type := rfl
    rw [nonceEffect, nonceItem, htype]
    refine if_congr (and_congr_right fun ht => ?_) rfl rfl
    rw [read_of_value (hsized i hi ht) hvalue]
  have hempty : ∀ i ∈ items, i.value = [] →
      ∀ s, nonceItem selfNonce (nonceId bFlag) s i = .inl s := by
    intro i hi hnil s
    refine if_neg fun h => ?_
    have hle := hsized i hi h.1
    rw [hnil] at hle
    exact absurd hle (by decide)
  rw [nonceVisit_bounded.counted_row (by decide) hlaid (rowAt_ushort hrow) hreads fun _ => hempty,
    itemWalk_nonce, Except.ok.injEq]
  exact any_eq_first_iff

end

/-! ## 8. The password id of an access point -/

section

variable {data octets : List UInt8} {len : UInt8} {dpid : Nat}

def dpidBound (data : List UInt8) (_ : Nat) (a : Attr) : Prop :=
  a.type = wscIdDevicePwdId → a.Has data 2

def dpidEffect (data : List UInt8) (dpid : Nat) (a : Attr) : Nat ⊕ Empty :=
  .inl (if a.type = wscIdDevicePwdId then keptDpid dpid (word data a.off) else dpid)

/-- The password id kept behind an item. -/
def keptItem (dpid : Nat) (i : Item) : Nat :=
  if i.type = wscIdDevicePwdId then keptDpid dpid (beVal (i.value.take 2)) else dpid

def dpidItem (dpid : Nat) (i : Item) : Nat ⊕ Empty := .inl (keptItem dpid i)

theorem dpidVisit_bounded : Bounded (dpidVisit data) (dpidBound data) (dpidEffect data) where
  safe s a := by
    rw [dpidVisit, dpidBound]
    by_cases ht : a.type = wscIdDevicePwdId
    · rw [if_pos ht, access_bind_safe]
      exact ⟨fun h _ => h.1, fun h => ⟨h ht, Checked.safe_ok _⟩⟩
    · rw [if_neg ht]
      exact iff_of_true (Checked.safe_ok _) fun h => absurd h ht
  eq := by
    intro s a r h
    rw [dpidVisit] at h
    rw [dpidEffect]
    by_cases ht : a.type = wscIdDevicePwdId
    · rw [if_pos ht] at h
      obtain ⟨-, h⟩ := Checked.access_bind_eq_ok.mp h
      rw [if_pos ht]
      exact (Except.ok.inj h).symm
    · rw [if_neg ht] at h
      rw [if_neg ht]
      exact (Except.ok.inj h).symm

/-- Along items, the walk keeps what each leaves. -/
theorem itemWalk_dpid (items : List Item) :
    itemWalk dpidItem dpid items = .inl (items.foldl keptItem dpid) := by
  induction items generalizing dpid with
  | nil => rfl
  | cons i is ih =>
    rw [itemWalk_cons_inl rfl]
    exact ih

/-- The element can be compared, and if it is one of WPS its attributes are laid out for the walk and
what they leave is what the first password id among them leaves. -/
def WpsIeFits (octets : List UInt8) (len : UInt8) (dpid : Nat) : Prop :=
  Comparable octets wpsOui 4 ∧
    (octets.take 4 = wpsOui →
      Laid shortCounter (dpidBound octets) (dpidEffect octets) octets dpid 4
          ((len.toNat : Int) - 4) ∧
        ∀ items, RowAt octets 4 ((len.toNat : Int) - 4) items → Sized wscIdDevicePwdId 2 items →
          items.foldl keptItem dpid =
            ((firstOf wscIdDevicePwdId items).map fun i =>
              keptDpid dpid (beVal (i.value.take 2))).getD dpid)

theorem wpsIe_iff : WpsIeMeets octets len dpid ↔ WpsIeFits octets len dpid := by
  have houi : wpsOui.take 4 = wpsOui := rfl
  by_cases hcomp : Comparable octets wpsOui 4
  · rw [WpsIeMeets, Finds, WpsIeFits, and_iff_right hcomp, wscCheckWpsIeFromWpsAP,
      equalMemory_of_comparable hcomp, Checked.ok_bind, houi]
    by_cases hwps : octets.take 4 = wpsOui
    · rw [decide_eq_true hwps, if_pos rfl, dpidVisit_bounded.safe_map,
        forall_prop_of_true hwps]
      refine and_congr_right fun hlaid => forall_congr' fun items => forall_congr' fun hrow => ?_
      have hreads : Sized wscIdDevicePwdId 2 items →
          ∀ i ∈ items, Reads octets (dpidEffect octets) dpidItem i := by
        intro hsized i hi s off hvalue _
        have htype : (i.at off).type = i.type := rfl
        rw [dpidEffect, dpidItem, keptItem, htype]
        by_cases ht : i.type = wscIdDevicePwdId
        · rw [if_pos ht, if_pos ht, word_of_value (hsized i hi ht) hvalue]
        · rw [if_neg ht, if_neg ht]
      constructor
      · intro h hsized
        have hrun := h ⟨hsized, hwps⟩
        rw [dpidVisit_bounded.counted_row (by decide) hlaid hrow (hreads hsized)
          (fun h0 => absurd rfl h0), itemWalk_dpid] at hrun
        exact Except.ok.inj hrun
      · rintro h ⟨hsized, -⟩
        rw [dpidVisit_bounded.counted_row (by decide) hlaid hrow (hreads hsized)
          (fun h0 => absurd rfl h0), itemWalk_dpid]
        exact congrArg Except.ok (h hsized)
    · rw [decide_eq_false hwps, if_neg (by decide)]
      exact iff_of_true ⟨Checked.safe_ok _, fun _ _ h => absurd h.2 hwps⟩ fun h => absurd h hwps
  · refine iff_of_false ?_ fun h => hcomp h.1
    intro h
    obtain ⟨equal, hequal, -⟩ := Checked.safe_bind.mp h.1
    exact hcomp (equalMemory_safe.mp ⟨equal, hequal⟩)

end

/-! ## 9. An attribute by its tag -/

section

variable {pIeData : List UInt8} {ieDataLen : Int} {wscTag room : Nat}

/-- The value is there, and the destination has room for it. -/
def tagBound (data : List UInt8) (tag room : Nat) (_ : Unit) (a : Attr) : Prop :=
  a.type = tag → a.Inside data ∧ a.len ≤ room

theorem tagVisit_bounded : Bounded (tagVisit pIeData wscTag room) (tagBound pIeData wscTag room)
    (findEffect wscTag fun a => a.value pIeData) where
  safe s a := by
    rw [tagVisit, tagBound]
    by_cases ht : a.type = wscTag
    · rw [if_pos ht, access_bind_safe, access_bind_safe, Nat.zero_add]
      exact ⟨fun h _ => ⟨h.1, h.2.1⟩, fun h => ⟨(h ht).1, (h ht).2, Checked.safe_ok _⟩⟩
    · rw [if_neg ht]
      exact iff_of_true (Checked.safe_ok _) fun h => absurd h ht
  eq := by
    intro s a r h
    rw [tagVisit] at h
    by_cases ht : a.type = wscTag
    · rw [if_pos ht] at h
      obtain ⟨-, h⟩ := Checked.access_bind_eq_ok.mp h
      obtain ⟨-, h⟩ := Checked.access_bind_eq_ok.mp h
      cases h
      exact (if_pos ht).symm
    · rw [if_neg ht] at h
      cases h
      exact (if_neg ht).symm

def PeerByTagFits (pIeData : List UInt8) (ieDataLen : Int) (wscTag room : Nat) : Prop :=
  Laid intCounter (tagBound pIeData wscTag room) (findEffect wscTag fun a => a.value pIeData)
    pIeData () 0 ieDataLen

theorem peerByTag_iff :
    PeerByTagMeets pIeData ieDataLen wscTag room ↔
      PeerByTagFits pIeData ieDataLen wscTag room := by
  constructor
  · intro h
    exact tagVisit_bounded.safe_map.mp h.1
  · intro hlaid
    refine ⟨tagVisit_bounded.safe_map.mpr hlaid, ?_⟩
    intro items hrow _
    have hreads : ∀ i ∈ items, Reads pIeData (findEffect wscTag fun a => a.value pIeData)
        (findItem wscTag Item.value) i :=
      fun i _ => reads_findItem fun _ _ hvalue => hvalue
    rw [wscGetDataFromPeerByTag, tagVisit_bounded.counted_row (by decide) hlaid hrow hreads
      (fun h0 => absurd rfl h0), itemWalk_findItem]
    dsimp only
    cases firstOf wscTag items <;> rfl

end

/-! ## 10. An item of a vendor extension -/

/-- An item by itself. -/
structure SubItem where
  id : UInt8
  value : List UInt8
  short : value.length < 256

def SubItem.encode (i : SubItem) : List UInt8 := i.id :: i.value.length.toUInt8 :: i.value

def encodeSubs (items : List SubItem) : List UInt8 := items.flatMap SubItem.encode

/-- Three octets of a vendor, and items that fill what is left of the extension. -/
def SubRow (data : List UInt8) (dataLen : Nat) (items : List SubItem) : Prop :=
  (∃ rest, data.drop 3 = encodeSubs items ++ rest) ∧ dataLen = 3 + (encodeSubs items).length

/-- Safe, with what is found copied to `room` octets, and on a row the first item that is looked
for. -/
def SubItemMeets (data : List UInt8) (dataLen : Nat) (subId : UInt8) (room : Nat) : Prop :=
  (Safe (wscParseV2SubItem data subId 0 dataLen 0) ∧
      ∀ v, wscParseV2SubItem data subId 0 dataLen 0 = .ok (some v) → v.length ≤ room) ∧
    ∀ items, SubRow data dataLen items →
      wscParseV2SubItem data subId 0 dataLen 0 =
        .ok ((items.find? (·.id = subId)).map SubItem.value)

section

variable {data : List UInt8} {subId : UInt8} {room dataLen : Nat}

/-- Along a row, the first item that is looked for. -/
theorem subItem_row {rest : List UInt8} :
    ∀ {items : List SubItem} {length : Nat},
      data.drop (3 + length) = encodeSubs items ++ rest →
      dataLen = 3 + length + (encodeSubs items).length →
      subItem data subId 0 dataLen length = (items.find? (·.id = subId)).map SubItem.value
  | [], length, _, hlen => by
    have hnone : ¬ length + 2 + (data.getD (0 + 3 + length + 1) 0).toNat + 3 ≤ dataLen := by
      rw [hlen, encodeSubs, List.flatMap_nil, List.length_nil]
      omega
    rw [subItem]
    by_cases hin : 0 + 3 + length + 2 ≤ data.length
    · rw [if_pos hin]
      dsimp only
      rw [if_neg hnone]
      rfl
    · rw [if_neg hin]
      rfl
  | i :: is, length, hdrop, hlen => by
    have hcons : data.drop (3 + length) =
        i.id :: i.value.length.toUInt8 :: (i.value ++ (encodeSubs is ++ rest)) := by
      rw [hdrop, encodeSubs, List.flatMap_cons, List.append_assoc]
      rfl
    have hsize := congrArg List.length hcons
    rw [List.length_drop, List.length_cons, List.length_cons, List.length_append] at hsize
    have hbehind : ∀ k, data.drop (0 + 3 + length + k) = (i.id :: i.value.length.toUInt8 ::
        (i.value ++ (encodeSubs is ++ rest))).drop k := by
      intro k
      rw [← List.drop_drop, Nat.zero_add, hcons]
    have hid : data.getD (0 + 3 + length) 0 = i.id := by
      rw [List.getD_eq_getElem?_getD, ← List.head?_drop]
      exact congrArg (fun l : List UInt8 => l.head?.getD 0) (hbehind 0)
    have hbyte : (data.getD (0 + 3 + length + 1) 0).toNat = i.value.length := by
      have hshort := i.short
      rw [List.getD_eq_getElem?_getD, ← List.head?_drop, hbehind 1]
      exact Nat.mod_eq_of_lt hshort
    have hvalue : data.drop (0 + 3 + length + 2) = i.value ++ (encodeSubs is ++ rest) := hbehind 2
    have hall : (encodeSubs (i :: is)).length = 2 + i.value.length + (encodeSubs is).length := by
      rw [encodeSubs, List.flatMap_cons, List.length_append, SubItem.encode, List.length_cons,
        List.length_cons, encodeSubs]
      omega
    rw [subItem, if_pos (by omega)]
    dsimp only
    rw [hbyte, hid, hvalue, if_pos (by omega)]
    by_cases hfound : i.id = subId
    · rw [if_pos hfound, List.find?_cons_of_pos (by simpa using hfound), List.take_left]
      rfl
    · rw [if_neg hfound, List.find?_cons_of_neg (by simpa using hfound)]
      have hrest : data.drop (3 + (length + 2 + i.value.length)) = encodeSubs is ++ rest := by
        have hoff : 3 + (length + 2 + i.value.length) = 0 + 3 + length + 2 + i.value.length := by
          omega
        rw [hoff, ← List.drop_drop, hvalue, List.drop_left]
      exact subItem_row hrest (by omega)

theorem subItem_iff :
    SubItemMeets data dataLen subId room ↔ SubItemLaid data subId room 0 dataLen 0 := by
  rw [← subItem_laid]
  constructor
  · rintro ⟨⟨hsafe, hroom⟩, -⟩
    refine ⟨hsafe, fun v hv => ?_⟩
    obtain ⟨r, hr⟩ := hsafe
    refine hroom v ?_
    rw [hr, wscParseV2SubItem_eq hr, hv]
  · rintro ⟨hsafe, hroom⟩
    refine ⟨⟨hsafe, fun v hv => hroom v (wscParseV2SubItem_eq hv).symm⟩, ?_⟩
    rintro items ⟨⟨rest, hdrop⟩, hlen⟩
    obtain ⟨r, hr⟩ := hsafe
    rw [hr, wscParseV2SubItem_eq hr]
    exact congrArg Except.ok (subItem_row hdrop hlen)

end

/-! ## 11. All of them -/

/-- **The walkers along WSC attributes**: each ends, reads inside what it is given, does not wrap its
counter, copies no more than there is room for and, on a row of attributes, finds the first of the
type asked for, exactly if what it is given is laid out for it. -/
theorem walkers_iff (msg : ElemMsg) (msgLen : Nat) (selfNonce : Octets 16) (bFlag : Bool)
    (mbssid : List ApBss) (addr1 : Octets 6) (eid_data : List UInt8) (eid_len : Int)
    (octets : List UInt8) (len : UInt8) (dpid : Nat) (pIeData : List UInt8) (ieDataLen : Int)
    (wscTag room : Nat) (data : List UInt8) (dataLen : Nat) (subId : UInt8) :
    (RxMsgTypeMeets msg msgLen ↔ RxFits msg.octets msgLen) ∧
    (CheckNonceMeets selfNonce msg msgLen bFlag ↔ NonceFits selfNonce msg msgLen bFlag) ∧
    (ConfigErrMeets msg msgLen ↔ ConfigErrFits msg msgLen) ∧
    (PeerDpidMeets mbssid addr1 eid_data eid_len ↔ PeerDpidFits mbssid addr1 eid_data eid_len) ∧
    (WpsIeMeets octets len dpid ↔ WpsIeFits octets len dpid) ∧
    (PeerByTagMeets pIeData ieDataLen wscTag room ↔ PeerByTagFits pIeData ieDataLen wscTag room) ∧
    (SubItemMeets data dataLen subId room ↔ SubItemLaid data subId room 0 dataLen 0) :=
  ⟨rxMsgType_iff, checkNonce_iff, configErr_iff, peerDpid_iff, wpsIe_iff, peerByTag_iff, subItem_iff⟩

namespace Example

/-- A version of one octet that is said to have sixteen. -/
def longVersion : ElemMsg := ⟨[0x10, 0x4A, 0x00, 0x10, 0x10], by decide⟩

end Example

/-- Five octets are left, and twenty are taken off. -/
theorem not_rxMsgTypeMeets_longVersion : ¬ RxMsgTypeMeets Example.longVersion 5 := by
  have hname : wscRxName Example.longVersion.octets 5 = .ok none := by decide
  have hattr : attrAt Example.longVersion.octets 0 = ⟨wscIdVersion, 4, 16⟩ := by decide
  have hvisit : findVisit Example.longVersion.octets wscIdMsgType 1
      (fun a => Example.longVersion.octets.getD a.off 0) () ⟨wscIdVersion, 4, 16⟩ =
        .ok (.inl ()) := by decide
  rintro ⟨⟨r, hr⟩, -⟩
  rw [wscRxMsgType, hname, Checked.ok_bind] at hr
  dsimp only at hr
  rw [wscRxAttr, Checked.access_ok (by decide), Checked.ok_bind, if_pos (by decide), counted,
    if_pos (by decide), Checked.access_ok (by decide), Checked.ok_bind, hattr, hvisit,
    Checked.ok_bind] at hr
  dsimp only at hr
  rw [if_neg (by decide), Checked.error_bind] at hr
  cases hr

end Mt7601.Wsc
