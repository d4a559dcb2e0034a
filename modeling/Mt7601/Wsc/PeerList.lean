/-
# The list of WSC peers

`WscInsertPeerEntryByMAC`, `WscMaintainPeerList`, `WscDelListEntryByMAC` and `WscClearPeerList` of
`common/wsc.c`, on the lists with a header of `include/link_list.h`. Entries are allocated and freed,
and a second `os_free_mem` of one entry stops the run.

The book (`PeerBook`) is what the list is for: the peers in the order they came in, each with its
address and the time it was last heard of. Every run of the functions follows it (`peerRun_follows`),
in every respect but one: the header counts its entries in an octet, so its `size` is their number only
up to `255` (`peerList_iff`).
-/
import Mathlib.Data.List.Find
import Mt7601.Igmp.FilterTable
import Mt7601.Lib.Run
import Mt7601.Wpa.Defs

namespace Mt7601.Wsc

open Igmp (ListHeader insertTailList removeHeadList delEntryList timeAfter IsListMod)
open Wpa (MacAddr)

/-! ## 1. The code -/

section

variable {ν : Type} [DecidableEq ν]

/-- A header, the fields of the entries, which entries are allocated, and what has been freed. -/
structure PeerState (ν : Type) where
  list : ListHeader ν := {}
  next : ν → Option ν := fun _ => none
  mac : ν → MacAddr := fun _ => .zero 6
  receiveTime : ν → UInt64 := fun _ => 0
  allocated : ν → Bool := fun _ => false
  freed : List ν := []

namespace PeerState

/-- The entry behind the last one, with its fields filled in. -/
def enter (s : PeerState ν) (entry : ν) (mac : MacAddr) (now : UInt64) : PeerState ν :=
  let linked := insertTailList s.list s.next entry
  { s with
    list := linked.1
    next := linked.2
    mac := Function.update s.mac entry mac
    receiveTime := Function.update s.receiveTime entry now
    allocated := Function.update s.allocated entry true }

/-- `os_free_mem` -/
def osFreeMem (s : PeerState ν) (entry : ν) : Option (PeerState ν) :=
  if s.allocated entry then
    some { s with allocated := Function.update s.allocated entry false, freed := s.freed ++ [entry] }
  else none

/-- `delEntryList` -/
def delEntry (fuel : Nat) (s : PeerState ν) (entry : ν) : Option (PeerState ν) := do
  let linked ← delEntryList fuel s.list s.next entry
  pure { s with list := linked.1, next := linked.2 }

end PeerState

/-- `WscFindPeerEntry` -/
def wscFindPeerEntry (fuel : Nat) (s : PeerState ν) (mac : MacAddr) : Option (Option ν) :=
  (Chain.walk s.next (fun k => decide (s.mac k = mac)) fuel none s.list.pHead).map Prod.snd

/-- `WscInsertPeerEntryByMAC`; `alloc` is what `os_alloc_mem` returns. -/
def wscInsertPeerEntryByMAC (fuel : Nat) (s : PeerState ν) (mac : MacAddr) (now : UInt64)
    (alloc : Option ν) : Option (PeerState ν) := do
  let found ← wscFindPeerEntry fuel s mac
  match found, alloc with
  | some entry, _ => pure { s with receiveTime := Function.update s.receiveTime entry now }
  | none, some entry => pure (s.enter entry mac now)
  | none, none => pure s

/-- A peer not heard of for `30 * OS_HZ` ticks, where `OS_HZ` is `hz`. -/
def peerExpired (hz now receiveTime : UInt64) : Bool := timeAfter now (receiveTime + 30 * hz)

/-- The loop of `WscMaintainPeerList`, at `pListEntry`. -/
def maintainLoop (fuel : Nat) (hz now : UInt64) :
    Nat → PeerState ν → Option ν → Option (PeerState ν)
  | _, s, none => some s
  | 0, _, some _ => none
  | passes + 1, s, some entry =>
    if peerExpired hz now (s.receiveTime entry) then do
      let tempListEntry := s.next entry
      let s ← s.delEntry fuel entry
      let s ← s.osFreeMem entry
      maintainLoop fuel hz now passes s tempListEntry
    else maintainLoop fuel hz now passes s (s.next entry)

/-- `WscMaintainPeerList` -/
def wscMaintainPeerList (fuel : Nat) (hz : UInt64) (s : PeerState ν) (now : UInt64) :
    Option (PeerState ν) :=
  maintainLoop fuel hz now fuel s s.list.pHead

/-- `WscDelListEntryByMAC` -/
def wscDelListEntryByMAC (fuel : Nat) (s : PeerState ν) (mac : MacAddr) : Option (PeerState ν) := do
  let found ← wscFindPeerEntry fuel s mac
  match found with
  | none => pure s
  | some entry =>
    let s ← s.delEntry fuel entry
    s.osFreeMem entry

/-- The loop of `WscClearPeerList`. -/
def clearLoop : Nat → PeerState ν → Option (PeerState ν)
  | passes, s =>
    match s.list.pHead with
    | none => some s
    | some entry =>
      match passes with
      | 0 => none
      | passes + 1 => do
        let s ← { s with list := (removeHeadList s.list s.next).2 }.osFreeMem entry
        clearLoop passes s

/-- One call. An entry the callers put in by `insertTailList` themselves is theirs, and comes with its
fields; `insertPeer` has what `os_alloc_mem` returns. -/
inductive PeerOp (ν : Type)
  | insertTail (entry : ν) (mac : MacAddr) (now : UInt64)
  | removeHead
  | delEntry (entry : ν)
  | insertPeer (mac : MacAddr) (now : UInt64) (alloc : Option ν)
  | maintain (now : UInt64)
  | delPeer (mac : MacAddr)
  | clear

def peerStep (fuel : Nat) (hz : UInt64) (s : PeerState ν) : PeerOp ν → Option (PeerState ν)
  | .insertTail entry mac now => some (s.enter entry mac now)
  | .removeHead => some { s with list := (removeHeadList s.list s.next).2 }
  | .delEntry entry => s.delEntry fuel entry
  | .insertPeer mac now alloc => wscInsertPeerEntryByMAC fuel s mac now alloc
  | .maintain now => wscMaintainPeerList fuel hz s now
  | .delPeer mac => wscDelListEntryByMAC fuel s mac
  | .clear => clearLoop fuel s

/-- A run from `initList` on. Its loops are given as many turns as `fuel`. -/
def peerRun (fuel : Nat) (hz : UInt64) (ops : List (PeerOp ν)) : Option (PeerState ν) :=
  ops.foldlM (peerStep fuel hz) {}

end

/-! ## 2. The book -/

/-- A peer in the list; `inserted` is the number of its insertion. -/
structure Peer (ν : Type) where
  entry : ν
  mac : MacAddr
  receiveTime : UInt64
  inserted : Nat

/-- **What the list is for**: the peers as they came in. `count` numbers the insertions; `newAddresses`
says that what the callers put in themselves never had an address that was in the list. -/
structure PeerBook (ν : Type) where
  peers : List (Peer ν) := []
  allocated : ν → Bool := fun _ => false
  freed : List ν := []
  count : Nat := 0
  newAddresses : Bool := true

section

variable {ν : Type} [DecidableEq ν]

namespace PeerBook

/-- A peer comes in. -/
def enter (b : PeerBook ν) (entry : ν) (mac : MacAddr) (now : UInt64) : PeerBook ν :=
  { b with
    peers := b.peers ++ [⟨entry, mac, now, b.count⟩]
    allocated := Function.update b.allocated entry true
    count := b.count + 1 }

/-- Peers go, and are freed. -/
def free (b : PeerBook ν) (stay gone : List (Peer ν)) : PeerBook ν :=
  { b with
    peers := stay
    allocated := fun e => b.allocated e && !(gone.map Peer.entry).contains e
    freed := b.freed ++ gone.map Peer.entry }

/-- The peer with the address has been heard of. -/
def refresh (mac : MacAddr) (now : UInt64) : List (Peer ν) → List (Peer ν)
  | [] => []
  | p :: peers =>
    if p.mac = mac then { p with receiveTime := now } :: peers else p :: refresh mac now peers

end PeerBook

/-- What a call does to the book. -/
def bookStep (hz : UInt64) (b : PeerBook ν) : PeerOp ν → PeerBook ν
  | .insertTail entry mac now =>
    { b.enter entry mac now with
      newAddresses := b.newAddresses && !(b.peers.any fun p => p.mac = mac) }
  | .removeHead => { b with peers := b.peers.tail }
  | .delEntry entry => { b with peers := b.peers.filter fun p => p.entry ≠ entry }
  | .insertPeer mac now alloc =>
    if b.peers.any fun p => p.mac = mac then { b with peers := PeerBook.refresh mac now b.peers }
    else
      match alloc with
      | some entry => b.enter entry mac now
      | none => b
  | .maintain now =>
    b.free (b.peers.filter fun p => ¬ peerExpired hz now p.receiveTime)
      (b.peers.filter fun p => peerExpired hz now p.receiveTime)
  | .delPeer mac =>
    b.free (b.peers.eraseP fun p => p.mac = mac) (b.peers.find? fun p => p.mac = mac).toList
  | .clear => b.free [] b.peers

/-- The book of a run. -/
def peerBook (hz : UInt64) (ops : List (PeerOp ν)) : PeerBook ν := Run.final (bookStep hz) {} ops

/-- The callers' and the allocator's part: an entry put in is not in the list, and memory that is
handed out is not in use. -/
def Valid (b : PeerBook ν) : PeerOp ν → Prop
  | .insertTail entry _ _ => entry ∉ b.peers.map Peer.entry
  | .insertPeer _ _ (some entry) => b.allocated entry = false
  | _ => True

/-- **There is room**: no entry comes into a list of `255`. -/
def HasRoom (b : PeerBook ν) : PeerOp ν → Prop
  | .insertTail _ _ _ => b.peers.length < 255
  | .insertPeer mac _ (some _) => (b.peers.any fun p => p.mac = mac) = true ∨ b.peers.length < 255
  | _ => True

/-- **The list is in order**, for the book: it is the chain of its peers, the tail is the last of them,
the size is their number; no address is there twice, and the head is the peer that came in first; what
was freed is what the book says. -/
structure InOrder (s : PeerState ν) (b : PeerBook ν) : Prop where
  chain : Chain.Linked s.next s.list.pHead (b.peers.map Peer.entry)
  tail : s.list.pTail = (b.peers.map Peer.entry).getLast?
  size : s.list.size.toNat = b.peers.length
  peers : ∀ p ∈ b.peers, s.mac p.entry = p.mac ∧ s.receiveTime p.entry = p.receiveTime
  addresses : b.newAddresses = true → (b.peers.map Peer.mac).Nodup
  head : ∀ p ∈ b.peers.head?, ∀ q ∈ b.peers, p.inserted ≤ q.inserted
  freed : s.freed = b.freed

/-! ## 3. One call -/

/-- **The state follows the book**, whatever the octet that counts the entries has come to. -/
structure Follows (s : PeerState ν) (b : PeerBook ν) : Prop where
  list : IsListMod s.next s.list (b.peers.map Peer.entry)
  peers : ∀ p ∈ b.peers, s.mac p.entry = p.mac ∧ s.receiveTime p.entry = p.receiveTime
  allocated : s.allocated = b.allocated
  owned : ∀ p ∈ b.peers, b.allocated p.entry = true
  freed : s.freed = b.freed

section

variable {s : PeerState ν} {b : PeerBook ν} {mac : MacAddr} {now hz : UInt64} {entry : ν}
variable {fuel : Nat} {p : Peer ν} {a r : List (Peer ν)}

omit [DecidableEq ν] in
theorem PeerBook.refresh_append (hp : p.mac = mac) (ha : ∀ q ∈ a, q.mac ≠ mac) :
    PeerBook.refresh mac now (a ++ p :: r) = a ++ { p with receiveTime := now } :: r := by
  induction a with
  | nil => exact if_pos hp
  | cons q a ih =>
    rw [List.cons_append, PeerBook.refresh, if_neg (ha q (List.mem_cons_self ..)),
      ih fun q' hq' => ha q' (List.mem_cons_of_mem _ hq'), List.cons_append]

theorem Follows.enter (h : Follows s b) (hnew : entry ∉ b.peers.map Peer.entry) :
    Follows (s.enter entry mac now) (b.enter entry mac now) := by
  have hne : ∀ p ∈ b.peers, p.entry ≠ entry := by
    rintro p hp rfl
    exact hnew (List.mem_map_of_mem hp)
  have hall : (b.enter entry mac now).peers.map Peer.entry = b.peers.map Peer.entry ++ [entry] := by
    rw [PeerBook.enter, List.map_append]
    rfl
  refine ⟨?_, fun p hp => ?_, ?_, fun p hp => ?_, h.freed⟩
  · rw [hall]
    exact h.list.insertTail hnew
  · rcases List.mem_append.mp hp with hp | hp
    · have hfields := h.peers p hp
      exact ⟨(Function.update_of_ne (hne p hp) ..).trans hfields.1,
        (Function.update_of_ne (hne p hp) ..).trans hfields.2⟩
    · rw [List.mem_singleton.mp hp]
      exact ⟨Function.update_self .., Function.update_self ..⟩
  · exact congrArg (Function.update · entry true) h.allocated
  · rcases List.mem_append.mp hp with hp | hp
    · exact (Function.update_of_ne (hne p hp) ..).trans (h.owned p hp)
    · rw [List.mem_singleton.mp hp]
      exact Function.update_self ..

omit [DecidableEq ν] in
/-- The entry found is that of the first peer with the address. -/
theorem Follows.find (h : Follows s b) (hfuel : b.peers.length ≤ fuel) :
    wscFindPeerEntry fuel s mac = some ((b.peers.find? fun p => p.mac = mac).map Peer.entry) := by
  obtain ⟨prev, hwalk⟩ := @Chain.Linked.walk_eq _ s.next (fun k => decide (s.mac k = mac)) _ none _ fuel
    h.list.linked (by rwa [List.length_map])
  have hsame : (b.peers.map Peer.entry).find? (fun k => decide (s.mac k = mac)) =
      (b.peers.find? fun p => p.mac = mac).map Peer.entry := by
    rw [List.find?_map, @List.find?_congr _ _ (fun p => decide (p.mac = mac)) b.peers]
    intro p hp
    rw [Function.comp_apply, (h.peers p hp).1]
  rw [wscFindPeerEntry, hwalk, ← hsame]
  rfl

/-- A peer that is heard of again. -/
theorem Follows.refresh (h : Follows s b) (hfind : b.peers.find? (fun p => p.mac = mac) = some p) :
    Follows { s with receiveTime := Function.update s.receiveTime p.entry now }
      { b with peers := PeerBook.refresh mac now b.peers } := by
  obtain ⟨hmac, a, r, hpeers, hpass⟩ := List.find?_eq_some_iff_append.mp hfind
  have hrefresh : PeerBook.refresh mac now b.peers = a ++ { p with receiveTime := now } :: r := by
    rw [hpeers]
    exact PeerBook.refresh_append (by simpa using hmac) (by simpa using hpass)
  have hnodup := h.list.nodup
  have hentries : (PeerBook.refresh mac now b.peers).map Peer.entry = b.peers.map Peer.entry := by
    rw [hrefresh, hpeers, List.map_append, List.map_append, List.map_cons, List.map_cons]
  rw [hpeers, List.map_append, List.map_cons] at hnodup
  have hother := Chain.not_mem_of_nodup_middle hnodup
  have hmem : ∀ q ∈ PeerBook.refresh mac now b.peers, q = { p with receiveTime := now } ∨
      q ∈ b.peers ∧ q.entry ≠ p.entry := by
    intro q hq
    rw [hrefresh, List.mem_append, List.mem_cons] at hq
    have hrest : q ∈ a ++ r → q ∈ b.peers ∧ q.entry ≠ p.entry := by
      intro hq
      refine ⟨?_, fun hqp => hother ?_⟩
      · rw [hpeers, List.mem_append, List.mem_cons]
        rcases List.mem_append.mp hq with hq | hq
        · exact .inl hq
        · exact .inr (.inr hq)
      · rw [← List.map_append, ← hqp]
        exact List.mem_map_of_mem hq
    rcases hq with hq | rfl | hq
    · exact .inr (hrest (List.mem_append_left r hq))
    · exact .inl rfl
    · exact .inr (hrest (List.mem_append_right a hq))
  have hp : p ∈ b.peers := by
    rw [hpeers]
    exact List.mem_append_right a (List.mem_cons_self ..)
  refine ⟨?_, fun q hq => ?_, h.allocated, fun q hq => ?_, h.freed⟩
  · dsimp only
    rw [hentries]
    exact h.list
  · rcases hmem q hq with rfl | ⟨hq, hne⟩
    · exact ⟨(h.peers p hp).1, Function.update_self ..⟩
    · exact ⟨(h.peers q hq).1, (Function.update_of_ne hne ..).trans (h.peers q hq).2⟩
  · rcases hmem q hq with rfl | ⟨hq, -⟩
    · exact h.owned p hp
    · exact h.owned q hq

/-- An entry of the list goes, and is not freed. -/
theorem Follows.delEntry (h : Follows s b) (hpeers : b.peers = a ++ p :: r)
    (hfuel : b.peers.length ≤ fuel) :
    ∃ s', s.delEntry fuel p.entry = some s' ∧ Follows s' { b with peers := a ++ r } := by
  have hlist := h.list
  rw [hpeers, List.map_append, List.map_cons] at hlist
  obtain ⟨list', next', hdel, hlist', -⟩ := @IsListMod.delEntry _ _ _ _ _ _ _ hlist fuel (by
    rwa [← List.map_cons, ← List.map_append, ← hpeers, List.length_map])
  have hsub : ∀ q ∈ a ++ r, q ∈ b.peers := by
    intro q hq
    rw [hpeers]
    rcases List.mem_append.mp hq with hq | hq
    · exact List.mem_append_left _ hq
    · exact List.mem_append_right _ (List.mem_cons_of_mem _ hq)
  refine ⟨{ s with list := list', next := next' }, ?_, ?_, fun q hq => h.peers q (hsub q hq),
    h.allocated, fun q hq => h.owned q (hsub q hq), h.freed⟩
  · rw [PeerState.delEntry, hdel]
    rfl
  · rw [List.map_append]
    exact hlist'

/-- An entry that has gone is freed. -/
theorem Follows.osFreeMem (h : Follows s b) (howned : b.allocated p.entry = true)
    (hgone : p.entry ∉ b.peers.map Peer.entry) :
    ∃ s', s.osFreeMem p.entry = some s' ∧ Follows s' (b.free b.peers [p]) := by
  have hne : ∀ q ∈ b.peers, q.entry ≠ p.entry := fun q hq hqp =>
    hgone (hqp ▸ List.mem_map_of_mem hq)
  have hallocated : s.allocated p.entry = true := by rw [h.allocated, howned]
  refine ⟨_, if_pos hallocated, h.list, h.peers, ?_, fun q hq => ?_, ?_⟩
  · funext e
    dsimp only [PeerBook.free, List.map_cons, List.map_nil]
    by_cases he : e = p.entry
    · rw [he, Function.update_self]
      simp
    · rw [Function.update_of_ne he, h.allocated]
      simp [he]
  · have hq' := h.owned q hq
    have hqp := hne q hq
    simp [PeerBook.free, hq', hqp]
  · rw [PeerBook.free, ← h.freed]
    rfl

/-- An entry of the list goes and is freed. -/
theorem Follows.delEntry_free (h : Follows s b) (hpeers : b.peers = a ++ p :: r)
    (hfuel : b.peers.length ≤ fuel) :
    ∃ s', (s.delEntry fuel p.entry >>= fun s => s.osFreeMem p.entry) = some s' ∧
      Follows s' (b.free (a ++ r) [p]) := by
  obtain ⟨s₁, hdel, hfollows⟩ := h.delEntry hpeers hfuel
  have hnodup := h.list.nodup
  rw [hpeers, List.map_append, List.map_cons] at hnodup
  have hgone := Chain.not_mem_of_nodup_middle hnodup
  rw [← List.map_append] at hgone
  have howned : b.allocated p.entry = true := h.owned p (by
    rw [hpeers]
    exact List.mem_append_right a (List.mem_cons_self ..))
  obtain ⟨s₂, hfree, hfollows'⟩ := hfollows.osFreeMem howned hgone
  exact ⟨s₂, Option.bind_eq_some_iff.mpr ⟨s₁, hdel, hfree⟩, hfollows'⟩

/-- Nobody goes. -/
theorem PeerBook.free_nil (b : PeerBook ν) : b.free b.peers [] = b := by
  simp [PeerBook.free]

/-- Some go, and then others. -/
theorem PeerBook.free_free (b : PeerBook ν) (l l' gone gone' : List (Peer ν)) :
    (b.free l gone).free l' gone' = b.free l' (gone ++ gone') := by
  simp [PeerBook.free, Bool.and_assoc]

/-- **The loop of `WscMaintainPeerList`**, from behind the peers `a` on. -/
theorem Follows.maintainLoop {passes : Nat} (h : Follows s b) (hpeers : b.peers = a ++ r)
    (hpasses : r.length ≤ passes) (hfuel : b.peers.length ≤ fuel) :
    ∃ s', maintainLoop fuel hz now passes s ((r.map Peer.entry).head?) = some s' ∧
      Follows s' (b.free (a ++ r.filter fun p => ¬ peerExpired hz now p.receiveTime)
        (r.filter fun p => peerExpired hz now p.receiveTime)) := by
  induction r generalizing a s b passes with
  | nil =>
    refine ⟨s, ?_, ?_⟩
    · cases passes <;> rfl
    · rw [List.filter_nil, List.filter_nil, ← hpeers, PeerBook.free_nil]
      exact h
  | cons p r ih =>
    obtain ⟨passes, rfl⟩ := Nat.exists_eq_succ_of_ne_zero (n := passes) (by
      rw [List.length_cons] at hpasses
      omega)
    rw [List.length_cons] at hpasses
    have hp : p ∈ b.peers := by
      rw [hpeers]
      exact List.mem_append_right a (List.mem_cons_self ..)
    have hnext : s.next p.entry = (r.map Peer.entry).head? := by
      have hlinked := h.list.linked
      rw [hpeers, List.map_append, List.map_cons] at hlinked
      exact hlinked.suffix.head?.symm
    rw [List.map_cons, List.head?_cons, Nat.succ_eq_add_one, Wsc.maintainLoop, (h.peers p hp).2, hnext]
    by_cases hexpired : peerExpired hz now p.receiveTime = true
    · obtain ⟨s₂, hdel, hfollows⟩ := h.delEntry_free hpeers hfuel
      obtain ⟨s₁, hdel₁, hfree⟩ := Option.bind_eq_some_iff.mp hdel
      obtain ⟨s', hloop, hfollows'⟩ := ih hfollows rfl (show r.length ≤ passes by omega) (by
        rw [hpeers, List.length_append, List.length_cons] at hfuel
        rw [PeerBook.free, List.length_append]
        omega)
      refine ⟨s', ?_, ?_⟩
      · rw [if_pos hexpired, hdel₁]
        exact Option.bind_eq_some_iff.mpr
          ⟨s₁, rfl, Option.bind_eq_some_iff.mpr ⟨s₂, hfree, hloop⟩⟩
      · have hgo : (p :: r).filter (fun p => peerExpired hz now p.receiveTime) =
            p :: r.filter fun p => peerExpired hz now p.receiveTime := List.filter_cons_of_pos hexpired
        rw [PeerBook.free_free] at hfollows'
        rw [List.filter_cons_of_neg (by simpa using hexpired), hgo]
        exact hfollows'
    · obtain ⟨s', hloop, hfollows'⟩ := ih (a := a ++ [p]) h (by
        rw [hpeers, List.append_assoc, List.singleton_append]) (show r.length ≤ passes by omega) hfuel
      refine ⟨s', ?_, ?_⟩
      · rw [if_neg hexpired]
        exact hloop
      · have hgo : (p :: r).filter (fun p => peerExpired hz now p.receiveTime) =
            r.filter fun p => peerExpired hz now p.receiveTime := List.filter_cons_of_neg hexpired
        rw [List.filter_cons_of_pos (by simpa using hexpired), hgo]
        rw [List.append_assoc, List.singleton_append] at hfollows'
        exact hfollows'

/-- **The loop of `WscClearPeerList`.** -/
theorem Follows.clearLoop {passes : Nat} (h : Follows s b) (hpasses : b.peers.length ≤ passes) :
    ∃ s', clearLoop passes s = some s' ∧ Follows s' (b.free [] b.peers) := by
  obtain ⟨peers, hpeers⟩ : ∃ peers, peers = b.peers := ⟨_, rfl⟩
  rw [← hpeers] at hpasses ⊢
  induction peers generalizing s b passes with
  | nil =>
    have hhead : s.list.pHead = none := by
      rw [h.list.pHead_eq, ← hpeers]
      rfl
    refine ⟨s, ?_, ?_⟩
    · rw [Wsc.clearLoop, hhead]
    · have hnobody := PeerBook.free_nil b
      rw [← hpeers] at hnobody
      rw [hnobody]
      exact h
  | cons p r ih =>
    obtain ⟨passes, rfl⟩ := Nat.exists_eq_succ_of_ne_zero (n := passes) (by
      rw [List.length_cons] at hpasses
      omega)
    rw [List.length_cons] at hpasses
    have hhead : s.list.pHead = some p.entry := by
      rw [h.list.pHead_eq, ← hpeers]
      rfl
    have hlist := h.list
    rw [← hpeers, List.map_cons] at hlist
    obtain ⟨list', hremove, hlist'⟩ := hlist.removeHead
    have hsub : ∀ q ∈ r, q ∈ b.peers := fun q hq => hpeers ▸ List.mem_cons_of_mem p hq
    have hgone : Follows { s with list := (removeHeadList s.list s.next).2 } { b with peers := r } := by
      rw [hremove]
      exact ⟨hlist', fun q hq => h.peers q (hsub q hq), h.allocated,
        fun q hq => h.owned q (hsub q hq), h.freed⟩
    obtain ⟨s₁, hfree, hfollows⟩ := hgone.osFreeMem (h.owned p (hpeers ▸ List.mem_cons_self ..))
      (List.nodup_cons.mp hlist.nodup).1
    obtain ⟨s', hloop, hfollows'⟩ := ih hfollows (show r.length ≤ passes by omega) rfl
    refine ⟨s', ?_, ?_⟩
    · rw [Wsc.clearLoop, hhead]
      exact Option.bind_eq_some_iff.mpr ⟨s₁, hfree, hloop⟩
    · rw [PeerBook.free_free] at hfollows'
      exact hfollows'

omit [DecidableEq ν] in
/-- An entry is in the list once. -/
theorem Follows.filter_entry [DecidableEq ν] (h : Follows s b) (hpeers : b.peers = a ++ p :: r) :
    b.peers.filter (fun q => q.entry ≠ p.entry) = a ++ r := by
  have hnodup := h.list.nodup
  rw [hpeers, List.map_append, List.map_cons] at hnodup
  have hother := Chain.not_mem_of_nodup_middle hnodup
  rw [← List.map_append] at hother
  have hstay : ∀ q ∈ a ++ r, decide (q.entry ≠ p.entry) = true := by
    intro q hq
    rw [decide_eq_true_iff]
    intro hqp
    exact hother (hqp ▸ List.mem_map_of_mem hq)
  rw [List.forall_mem_append] at hstay
  rw [hpeers, List.filter_append, List.filter_cons_of_neg (by simp), List.filter_eq_self.mpr hstay.1,
    List.filter_eq_self.mpr hstay.2]

/-! ## 4. A run -/

/-- What an insertion does to the book: the peer has been heard of again, comes in, or there was no
memory for it. -/
theorem bookStep_insertPeer (hz : UInt64) (b : PeerBook ν) (mac : MacAddr) (now : UInt64)
    (alloc : Option ν) : bookStep hz b (.insertPeer mac now alloc) =
      if b.peers.any fun p => p.mac = mac then { b with peers := PeerBook.refresh mac now b.peers }
      else alloc.elim b fun entry => b.enter entry mac now := by
  cases alloc <;> rfl

/-- A call makes the list longer by one entry at most. -/
theorem length_bookStep_le (hz : UInt64) (b : PeerBook ν) (op : PeerOp ν) :
    (bookStep hz b op).peers.length ≤ b.peers.length + 1 := by
  have hfilter : ∀ q : Peer ν → Bool, (b.peers.filter q).length ≤ b.peers.length :=
    fun q => List.length_filter_le ..
  have hrefresh : ∀ (mac : MacAddr) (now : UInt64) (l : List (Peer ν)),
      (PeerBook.refresh mac now l).length = l.length := by
    intro mac now l
    induction l with
    | nil => rfl
    | cons q l ih =>
      rw [PeerBook.refresh]
      split
      · rfl
      · rw [List.length_cons, List.length_cons, ih]
  cases op with
  | insertTail entry mac now => exact Nat.le_of_eq (by simp [bookStep, PeerBook.enter])
  | removeHead =>
    rw [bookStep, List.length_tail]
    omega
  | delEntry entry => exact Nat.le_succ_of_le (hfilter _)
  | insertPeer mac now alloc =>
    rw [bookStep_insertPeer]
    split_ifs
    · exact Nat.le_succ_of_le (Nat.le_of_eq (hrefresh ..))
    · cases alloc with
      | none => exact Nat.le_succ _
      | some entry => exact Nat.le_of_eq (by simp [PeerBook.enter])
  | maintain now => exact Nat.le_succ_of_le (hfilter _)
  | delPeer mac => exact Nat.le_succ_of_le (List.length_eraseP_le ..)
  | clear => exact Nat.zero_le _

/-- **A call** goes through, and the book is followed. -/
theorem Follows.step (h : Follows s b) {op : PeerOp ν} (hvalid : Valid b op)
    (hfuel : b.peers.length ≤ fuel) :
    ∃ s', peerStep fuel hz s op = some s' ∧ Follows s' (bookStep hz b op) := by
  have hentries : ∀ {e : ν}, b.allocated e = false → e ∉ b.peers.map Peer.entry := by
    intro e he hin
    obtain ⟨p, hp, rfl⟩ := List.mem_map.mp hin
    rw [h.owned p hp] at he
    exact nomatch he
  cases op with
  | insertTail entry mac now =>
    have henter : Follows (s.enter entry mac now) (b.enter entry mac now) := h.enter hvalid
    exact ⟨_, rfl, henter.list, henter.peers, henter.allocated, henter.owned, henter.freed⟩
  | removeHead =>
    refine ⟨_, rfl, ?_⟩
    have hlist := h.list
    rw [bookStep]
    cases hpeers : b.peers with
    | nil =>
      rw [hpeers] at hlist
      have hremove : removeHeadList s.list s.next = (none, s.list) := hlist.removeHead_nil
      rw [hremove]
      refine ⟨hlist, fun q hq => (nomatch hq), h.allocated, fun q hq => (nomatch hq), h.freed⟩
    | cons p r =>
      rw [hpeers, List.map_cons] at hlist
      obtain ⟨list', hremove, hlist'⟩ := hlist.removeHead
      have hsub : ∀ q ∈ r, q ∈ b.peers := fun q hq => hpeers ▸ List.mem_cons_of_mem p hq
      rw [hremove]
      exact ⟨hlist', fun q hq => h.peers q (hsub q hq), h.allocated,
        fun q hq => h.owned q (hsub q hq), h.freed⟩
  | delEntry entry =>
    rw [bookStep]
    by_cases hin : entry ∈ b.peers.map Peer.entry
    · obtain ⟨p, hp, rfl⟩ := List.mem_map.mp hin
      obtain ⟨a, r, hpeers⟩ := List.append_of_mem hp
      rw [h.filter_entry hpeers]
      exact h.delEntry hpeers hfuel
    · have hall : b.peers.filter (fun p => p.entry ≠ entry) = b.peers := by
        rw [List.filter_eq_self]
        intro p hp
        rw [decide_eq_true_iff]
        rintro rfl
        exact hin (List.mem_map_of_mem hp)
      have hdel : s.delEntry fuel entry = some s := by
        rw [PeerState.delEntry, h.list.delEntry_of_notMem (by rwa [List.length_map]) hin]
        rfl
      rw [hall]
      exact ⟨s, hdel, h⟩
  | insertPeer mac now alloc =>
    have hfind : wscFindPeerEntry fuel s mac = _ := h.find hfuel
    rw [bookStep_insertPeer, ← List.isSome_find?]
    cases hfound : b.peers.find? fun p => p.mac = mac with
    | some p =>
      rw [hfound] at hfind
      refine ⟨_, Option.bind_eq_some_iff.mpr ⟨_, hfind, rfl⟩, h.refresh hfound⟩
    | none =>
      rw [hfound] at hfind
      cases alloc with
      | none => exact ⟨s, Option.bind_eq_some_iff.mpr ⟨_, hfind, rfl⟩, h⟩
      | some entry =>
        exact ⟨_, Option.bind_eq_some_iff.mpr ⟨_, hfind, rfl⟩, h.enter (hentries hvalid)⟩
  | maintain now =>
    have hloop : ∃ s', Wsc.maintainLoop fuel hz now fuel s ((b.peers.map Peer.entry).head?) = some s' ∧ _ :=
      h.maintainLoop (a := []) rfl hfuel hfuel
    rw [← h.list.pHead_eq] at hloop
    exact hloop
  | delPeer mac =>
    have hfind : wscFindPeerEntry fuel s mac = _ := h.find hfuel
    rw [bookStep]
    cases hfound : b.peers.find? fun p => p.mac = mac with
    | none =>
      rw [hfound] at hfind
      have hall : b.peers.eraseP (fun p => p.mac = mac) = b.peers :=
        List.eraseP_of_forall_not (List.find?_eq_none.mp hfound)
      rw [hall, Option.toList_none, PeerBook.free_nil]
      exact ⟨s, Option.bind_eq_some_iff.mpr ⟨_, hfind, rfl⟩, h⟩
    | some p =>
      rw [hfound] at hfind
      obtain ⟨hmac, a, r, hpeers, hpass⟩ := List.find?_eq_some_iff_append.mp hfound
      have hcons : (p :: r).eraseP (fun p => p.mac = mac) = r := List.eraseP_cons_of_pos hmac
      have hrest : b.peers.eraseP (fun p => p.mac = mac) = a ++ r := by
        rw [hpeers, List.eraseP_append_right _ (by simpa using hpass), hcons]
      obtain ⟨s', hdel, hfollows⟩ := h.delEntry_free hpeers hfuel
      rw [hrest, Option.toList_some]
      exact ⟨s', Option.bind_eq_some_iff.mpr ⟨_, hfind, hdel⟩, hfollows⟩
  | clear => exact h.clearLoop hfuel

omit [DecidableEq ν] in
/-- What a refresh leaves alone. -/
theorem PeerBook.map_refresh {β : Type} (f : Peer ν → β)
    (hf : ∀ p t, f { p with receiveTime := t } = f p) (mac : MacAddr) (now : UInt64)
    (l : List (Peer ν)) : (PeerBook.refresh mac now l).map f = l.map f := by
  induction l with
  | nil => rfl
  | cons q l ih =>
    rw [PeerBook.refresh]
    split_ifs
    · rw [List.map_cons, List.map_cons, hf]
    · rw [List.map_cons, List.map_cons, ih]

/-- **A book in order**: the peers stand in the order they came in, and no address is there twice. -/
structure BookInOrder (b : PeerBook ν) : Prop where
  sorted : (b.peers.map Peer.inserted).Pairwise (· < ·)
  bound : ∀ n ∈ b.peers.map Peer.inserted, n < b.count
  addresses : b.newAddresses = true → (b.peers.map Peer.mac).Nodup

omit [DecidableEq ν] in
/-- Peers go. -/
theorem BookInOrder.sublist {b' : PeerBook ν} (h : BookInOrder b) (hpeers : b'.peers.Sublist b.peers)
    (hcount : b'.count = b.count) (hnew : b'.newAddresses = b.newAddresses) : BookInOrder b' := by
  refine ⟨h.sorted.sublist (hpeers.map _), fun n hn => ?_, fun haddr => ?_⟩
  · rw [hcount]
    exact h.bound n ((hpeers.map _).subset hn)
  · exact (h.addresses (hnew ▸ haddr)).sublist (hpeers.map _)

/-- A peer comes in. -/
theorem BookInOrder.enter (h : BookInOrder b) (hnew : b.newAddresses = true → mac ∉ b.peers.map Peer.mac) :
    BookInOrder (b.enter entry mac now) := by
  refine ⟨?_, fun n hn => ?_, fun haddr => ?_⟩
  · rw [PeerBook.enter, List.map_append, List.pairwise_append]
    refine ⟨h.sorted, List.pairwise_singleton .., fun n hn m hm => ?_⟩
    rw [List.mem_singleton.mp hm]
    exact h.bound n hn
  · rw [PeerBook.enter, List.map_append, List.mem_append] at hn
    rcases hn with hn | hn
    · exact Nat.lt_succ_of_lt (h.bound n hn)
    · rw [List.mem_singleton.mp hn]
      exact Nat.lt_succ_self _
  · rw [PeerBook.enter, List.map_append]
    refine List.nodup_append.mpr ⟨h.addresses haddr, List.nodup_singleton _, fun m hm m' hm' => ?_⟩
    rw [List.mem_singleton.mp hm']
    rintro rfl
    exact hnew haddr hm

theorem BookInOrder.step (h : BookInOrder b) (op : PeerOp ν) : BookInOrder (bookStep hz b op) := by
  have hany : ∀ {mac : MacAddr}, (b.peers.any fun p => p.mac = mac) = false →
      mac ∉ b.peers.map Peer.mac := by
    intro mac hno hin
    obtain ⟨p, hp, rfl⟩ := List.mem_map.mp hin
    rw [List.any_eq_false] at hno
    exact hno p hp (decide_eq_true rfl)
  cases op with
  | insertTail entry mac now =>
    rw [bookStep]
    obtain ⟨new, hnew⟩ : ∃ new, new = (b.newAddresses && !(b.peers.any fun p => p.mac = mac)) := ⟨_, rfl⟩
    rw [← hnew]
    have hweak : BookInOrder { b with newAddresses := new } := by
      refine ⟨h.sorted, h.bound, fun haddr => h.addresses ?_⟩
      rw [hnew, Bool.and_eq_true] at haddr
      exact haddr.1
    refine hweak.enter fun haddr => hany ?_
    rw [hnew, Bool.and_eq_true] at haddr
    simpa using haddr.2
  | removeHead => exact h.sublist (List.tail_sublist _) rfl rfl
  | delEntry entry => exact h.sublist List.filter_sublist rfl rfl
  | insertPeer mac now alloc =>
    rw [bookStep_insertPeer]
    by_cases hthere : (b.peers.any fun p => p.mac = mac) = true
    · rw [if_pos hthere]
      refine ⟨?_, fun n hn => h.bound n ?_, fun haddr => ?_⟩
      · rw [PeerBook.map_refresh _ fun _ _ => rfl]
        exact h.sorted
      · rwa [PeerBook.map_refresh _ fun _ _ => rfl] at hn
      · rw [PeerBook.map_refresh _ fun _ _ => rfl]
        exact h.addresses haddr
    · rw [if_neg hthere]
      cases alloc with
      | none => exact h
      | some entry => exact h.enter fun _ => hany (Bool.eq_false_of_not_eq_true hthere)
  | maintain now => exact h.sublist List.filter_sublist rfl rfl
  | delPeer mac => exact h.sublist List.eraseP_sublist rfl rfl
  | clear => exact h.sublist (List.nil_sublist _) rfl rfl

omit [DecidableEq ν] in
/-- **The list is in order as long as an octet counts it.** -/
theorem Follows.bookInOrder_iff (h : Follows s b) (hsound : BookInOrder b) :
    InOrder s b ↔ b.peers.length < 256 := by
  have hsize := h.list.size
  rw [List.length_map] at hsize
  constructor
  · intro hin
    have hlt := s.list.size.toNat_lt
    rw [← hin.size]
    exact hlt
  · intro hlt
    refine ⟨h.list.linked, h.list.tail, by omega, h.peers, hsound.addresses, ?_, h.freed⟩
    intro p hp q hq
    have hsorted := hsound.sorted
    cases hpeers : b.peers with
    | nil =>
      rw [hpeers] at hq
      exact nomatch hq
    | cons p' r =>
      rw [hpeers] at hp hq hsorted
      cases hp
      rcases List.mem_cons.mp hq with rfl | hq
      · exact Nat.le_refl _
      · exact Nat.le_of_lt ((List.pairwise_cons.mp hsorted).1 _ (List.mem_map_of_mem hq))

end

omit [DecidableEq ν] in
theorem follows_init : Follows ({} : PeerState ν) {} :=
  ⟨Igmp.isListMod_init, fun _ hp => (nomatch hp), rfl, fun _ hp => (nomatch hp), rfl⟩

omit [DecidableEq ν] in
theorem sound_init : BookInOrder ({} : PeerBook ν) :=
  ⟨.nil, fun _ hn => (nomatch hn), fun _ => .nil⟩

/-- **Every run goes through and follows the book**, with as many turns for each loop as there have been
calls. -/
theorem Follows.run {fuel : Nat} {hz : UInt64} {ops : List (PeerOp ν)} {s : PeerState ν}
    {b : PeerBook ν} (h : Follows s b) (hvalid : Run.StepsMeet (bookStep hz) Valid b ops)
    (hfuel : b.peers.length + ops.length ≤ fuel) :
    ∃ s', ops.foldlM (peerStep fuel hz) s = some s' ∧ Follows s' (Run.final (bookStep hz) b ops) := by
  induction ops generalizing s b with
  | nil => exact ⟨s, rfl, h⟩
  | cons op ops ih =>
    rw [List.length_cons] at hfuel
    have hlen := length_bookStep_le hz b op
    obtain ⟨s₁, hstep, hfollows⟩ : ∃ s₁, peerStep fuel hz s op = some s₁ ∧
      Follows s₁ (bookStep hz b op) := h.step hvalid.1 (by omega)
    obtain ⟨s', hrun, hfollows'⟩ := ih hfollows hvalid.2 (by omega)
    refine ⟨s', ?_, hfollows'⟩
    rw [List.foldlM_cons]
    exact Option.bind_eq_some_iff.mpr ⟨s₁, hstep, hrun⟩

/-- There is room for what comes in exactly when the book stays within what an octet counts. -/
theorem hasRoom_iff {hz : UInt64} {b : PeerBook ν} (hlt : b.peers.length < 256) (op : PeerOp ν) :
    HasRoom b op ↔ (bookStep hz b op).peers.length < 256 := by
  have henter : ∀ (entry : ν) (mac : MacAddr) (now : UInt64),
      (b.enter entry mac now).peers.length = b.peers.length + 1 := by
    intro entry mac now
    rw [PeerBook.enter, List.length_append, List.length_singleton]
  have hless : ∀ {n : Nat}, n ≤ b.peers.length → (True ↔ n < 256) :=
    fun hn => iff_of_true trivial (Nat.lt_of_le_of_lt hn hlt)
  cases op with
  | insertTail entry mac now =>
    have hlen : (bookStep hz b (.insertTail entry mac now)).peers.length = b.peers.length + 1 :=
      henter entry mac now
    rw [HasRoom, hlen]
    omega
  | removeHead => exact hless (by rw [bookStep, List.length_tail]; omega)
  | delEntry entry => exact hless (List.length_filter_le ..)
  | insertPeer mac now alloc =>
    rw [bookStep_insertPeer]
    by_cases hthere : (b.peers.any fun p => p.mac = mac) = true
    · have hlen : (PeerBook.refresh mac now b.peers).length = b.peers.length := by
        have hmap := congrArg List.length
          (PeerBook.map_refresh Peer.mac (fun _ _ => rfl) mac now b.peers)
        rwa [List.length_map, List.length_map] at hmap
      rw [if_pos hthere, hlen]
      cases alloc with
      | none => exact iff_of_true trivial hlt
      | some entry => exact iff_of_true (.inl hthere) hlt
    · rw [if_neg hthere]
      cases alloc with
      | none => exact iff_of_true trivial hlt
      | some entry =>
        rw [HasRoom, Option.elim_some, henter]
        constructor
        · intro hroom
          have := hroom.resolve_left hthere
          omega
        · intro hroom
          exact .inr (by omega)
  | maintain now => exact hless (List.length_filter_le ..)
  | delPeer mac => exact hless (List.length_eraseP_le ..)
  | clear => exact hless (Nat.zero_le _)

/-- **A run of the list of peers**: after each of its calls the list is in order, and is that of the
book. -/
def PeersMeet (hz : UInt64) (ops : List (PeerOp ν)) : Prop :=
  ∀ done rest, ops = done ++ rest →
    ∃ s, peerRun ops.length hz done = some s ∧ InOrder s (peerBook hz done)

/-- **The list of peers is in order all along a run exactly when no entry comes into a list of `255`**:
nothing but the octet that counts the entries stands in the way. -/
theorem peerList_iff (hz : UInt64) (ops : List (PeerOp ν))
    (hvalid : Run.StepsMeet (bookStep hz) Valid {} ops) :
    PeersMeet hz ops ↔ Run.StepsMeet (bookStep hz) HasRoom {} ops := by
  have hprefix : ∀ done rest, ops = done ++ rest →
      ((∃ s, peerRun ops.length hz done = some s ∧ InOrder s (peerBook hz done)) ↔
        (peerBook hz done).peers.length < 256) := by
    rintro done rest rfl
    have hvalid' := (Run.stepsMeet_append.mp hvalid).1
    have hfuel : ({} : PeerBook ν).peers.length + done.length ≤ (done ++ rest).length := by
      rw [List.length_append, List.length_nil]
      omega
    obtain ⟨s, hrun, hfollows⟩ := follows_init.run hvalid' hfuel
    have hsound : BookInOrder (peerBook hz done) :=
      Run.invariant_always BookInOrder (fun _ op hb => hb.step op) sound_init
    have hiff : InOrder s (peerBook hz done) ↔ (peerBook hz done).peers.length < 256 :=
      hfollows.bookInOrder_iff hsound
    rw [← hiff]
    constructor
    · rintro ⟨s', hrun', hin⟩
      rw [peerRun, hrun, Option.some.injEq] at hrun'
      rwa [hrun']
    · intro hin
      exact ⟨s, hrun, hin⟩
  have hstart : ({} : PeerBook ν).peers.length < 256 := Nat.zero_lt_succ 255
  have halways : (∀ done rest, ops = done ++ rest → (peerBook hz done).peers.length < 256) ↔
      Run.StepsMeet (bookStep hz) HasRoom {} ops :=
    Run.always_iff (fun b : PeerBook ν => b.peers.length < 256) (fun b => b.peers.length < 256)
      (fun _ h => h) (fun _ op h => (hasRoom_iff h op).mp) (fun _ op h => mt (hasRoom_iff h op).mpr)
      hstart
  rw [← halways]
  exact forall_congr' fun done => forall_congr' fun rest => forall_congr' fun hsplit =>
    hprefix done rest hsplit

end

namespace Example

/-- The address of peer `i`. -/
def peerMac (i : Nat) : MacAddr := Octets.ofList 6 [0, 0, 0, 0, 0, UInt8.ofNat i]

/-- `n` peers come in at one time. -/
def peersComeIn (n : Nat) : List (PeerOp Nat) :=
  (List.range n).map fun i => .insertPeer (peerMac i) 0 (some i)

end Example

theorem peerList_iff_one : PeersMeet 100 (Example.peersComeIn 1) ↔
    Run.StepsMeet (bookStep 100) HasRoom {} (Example.peersComeIn 1) :=
  peerList_iff 100 (Example.peersComeIn 1) ⟨rfl, trivial⟩

/-- The addresses are as different as the octet they end with. -/
theorem peerMac_injective {i j : Nat} (hi : i < 256) (hj : j < 256)
    (h : Example.peerMac i = Example.peerMac j) : i = j := by
  have hlist := congrArg (fun v : MacAddr => v.toList.getD 5 0) h
  have hoctet : UInt8.ofNat i = UInt8.ofNat j := hlist
  have hnat := congrArg UInt8.toNat hoctet
  rw [UInt8.toNat_ofNat', UInt8.toNat_ofNat'] at hnat
  omega

/-- The book behind `n` peers, and the calls that brought them. -/
theorem peersComeIn_book {hz : UInt64} {n : Nat} (hn : n ≤ 256) :
    Run.StepsMeet (bookStep hz) Valid {} (Example.peersComeIn n) ∧
      peerBook hz (Example.peersComeIn n) =
        { peers := (List.range n).map fun i => ⟨i, Example.peerMac i, 0, i⟩
          allocated := fun e => decide (e < n)
          count := n } := by
  induction n with
  | zero => exact ⟨trivial, rfl⟩
  | succ n ih =>
    obtain ⟨hvalid, hbook⟩ := ih (by omega)
    have hsplit : Example.peersComeIn (n + 1) =
        Example.peersComeIn n ++ [.insertPeer (Example.peerMac n) 0 (some n)] := by
      rw [Example.peersComeIn, List.range_succ, List.map_append]
      rfl
    rw [peerBook] at hbook
    rw [hsplit, Run.stepsMeet_append, peerBook, Run.final_append, hbook]
    refine ⟨⟨hvalid, decide_eq_false (Nat.lt_irrefl n), trivial⟩, ?_⟩
    have hnew : (((List.range n).map fun i => (⟨i, Example.peerMac i, 0, i⟩ : Peer Nat)).any
        fun p => p.mac = Example.peerMac n) = false := by
      rw [List.any_map, List.any_eq_false]
      intro i hi heq
      have hlt := List.mem_range.mp hi
      have := peerMac_injective (by omega) (by omega) (of_decide_eq_true heq)
      omega
    have hallocated : Function.update (fun e => decide (e < n)) n true =
        fun e => decide (e < n + 1) := by
      funext e
      by_cases he : e = n
      · rw [he, Function.update_self, decide_eq_true (Nat.lt_succ_self n)]
      · rw [Function.update_of_ne he, decide_eq_decide]
        omega
    rw [Run.final_cons, Run.final_nil, bookStep_insertPeer, hnew, if_neg Bool.false_ne_true,
      Option.elim_some, PeerBook.enter, hallocated, List.range_succ, List.map_append]
    rfl

/-- `256` peers: the size is zero again. -/
theorem not_peersMeet_256 :
    Run.StepsMeet (bookStep 100) Valid {} (Example.peersComeIn 256) ∧
      ¬ PeersMeet 100 (Example.peersComeIn 256) := by
  obtain ⟨hvalid, hbook⟩ := @peersComeIn_book 100 256 (Nat.le_refl _)
  refine ⟨hvalid, fun hmeet => ?_⟩
  obtain ⟨s, -, hin⟩ := hmeet (Example.peersComeIn 256) [] (List.append_nil _).symm
  have hsize := hin.size
  have hlt := s.list.size.toNat_lt
  rw [hbook, List.length_map, List.length_range] at hsize
  omega

end Mt7601.Wsc
