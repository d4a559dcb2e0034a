/-
# What is read in an element that was built

`P2pParseSubElmt` on an element of `InsertP2PSubelmtTlv`. Every attribute is read at the offsets it
was written at, so each output is what was put in; but of the list of the channels, which is written
in one run for each regulatory class, the parser takes the first run for the whole. The list comes
back exactly when all its channels are of one class.
-/
import Mt7601.P2p.AttributeBounds
import Mt7601.P2p.InsertAttributes

namespace Mt7601.P2p

open Checked
open KeyRuns (runsFrom sameKey)

/-! ## 1. The runs of the channel list -/

theorem write_end {mem : List UInt8} {off : Nat} (l : List UInt8) (h : off = mem.length) :
    Mem.write mem off l = mem ++ l := by
  rw [Mem.write, h, List.takeD_eq_take 0 (le_refl _), List.take_length,
    List.drop_of_length_le (by omega), List.append_nil]

/-- An octet is left out between what is there and what is written. -/
theorem write_beyond {mem : List UInt8} {off : Nat} (l : List UInt8) (h : off = mem.length + 1) :
    Mem.write mem off l = mem ++ 0 :: l := by
  have htake : mem.takeD (mem.length + 1) 0 = mem ++ [0] := by
    clear h
    induction mem with
    | nil => rfl
    | cons a mem ih =>
      rw [List.length_cons, List.takeD_succ, List.head?_cons, List.tail_cons, ih]
      rfl
  rw [Mem.write, h, htake, List.drop_of_length_le (by omega)]
  simp

/-- A run as it is written. -/
def encodeRun (run : List UInt8) : List UInt8 :=
  channelToClass (run.headD 0) :: UInt8.ofNat run.length :: run

theorem channelToClass_ne (channel : UInt8) : channelToClass channel ≠ 0xff := by
  unfold channelToClass
  split_ifs <;> decide

/-- A run is being written behind others, its number still to be filled in. -/
structure RunOpen (w : ChannelWalk) (done run : List UInt8) : Prop where
  dest : w.dest = done ++ [channelToClass (run.headD 0), 0] ++ run
  pos : w.pos.toNat = done.length + 2 + run.length
  lastRegClass : w.lastRegClass = channelToClass (run.headD 0)
  lastLenPos : w.lastLenPos = done.length + 1
  lastNum : w.lastNum = UInt8.ofNat run.length

namespace RunOpen

variable {w : ChannelWalk} {done run : List UInt8}

/-- The number goes to the place that was kept for it. -/
theorem write_lastNum (h : RunOpen w done run) (rest : List UInt8) :
    Mem.write (w.dest ++ rest) w.lastLenPos [w.lastNum] = done ++ encodeRun run ++ rest := by
  have hdest : w.dest ++ rest =
      (done ++ [channelToClass (run.headD 0)]) ++ ([0] ++ (run ++ rest)) := by
    rw [h.dest]
    simp
  have hpos : w.lastLenPos = (done ++ [channelToClass (run.headD 0)]).length := by
    rw [h.lastLenPos]
    simp
  have hwrite := Mem.write_middle _ _ hdest hpos (Eq.refl [w.lastNum].length)
  rw [hwrite, h.lastNum]
  simp [encodeRun]

theorem updateNum (h : RunOpen w done run) :
    w.updateNum.dest = done ++ encodeRun run ∧ w.updateNum.pos.toNat = w.updateNum.dest.length := by
  have hwrite := h.write_lastNum []
  rw [List.append_nil, List.append_nil] at hwrite
  refine ⟨hwrite, ?_⟩
  change w.pos.toNat = (Mem.write w.dest w.lastLenPos [w.lastNum]).length
  rw [hwrite, h.pos]
  simp [encodeRun]
  omega

/-- A channel of the class of the run. -/
theorem insert_same (h : RunOpen w done run) (hne : run ≠ []) {c : UInt8}
    (hc : channelToClass c = channelToClass (run.headD 0))
    (hroom : done.length + 2 + run.length < 255) :
    RunOpen (insertChannel w c) done (run ++ [c]) := by
  have hhead : (run ++ [c]).headD 0 = run.headD 0 := by
    cases run with
    | nil => exact absurd rfl hne
    | cons a run => rfl
  have hpos : w.pos.toNat = w.dest.length := by
    rw [h.pos, h.dest]
    simp
    omega
  have hclass : w.lastRegClass ≠ 0xff := by
    rw [h.lastRegClass]
    exact channelToClass_ne _
  have hsame : ¬ channelToClass c ≠ w.lastRegClass := by
    rw [h.lastRegClass]
    exact not_not.mpr hc
  unfold insertChannel
  dsimp only
  rw [if_neg hclass, if_neg hsame]
  constructor
  · rw [hhead]
    dsimp only
    rw [write_end [c] hpos, h.dest]
    simp
  · change (w.pos + 1).toNat = _
    rw [UInt8.toNat_add, h.pos]
    simp
    omega
  · rw [hhead]
    exact h.lastRegClass
  · exact h.lastLenPos
  · change w.lastNum + 1 = _
    rw [h.lastNum]
    simp

/-- A channel of another class ends the run and begins the next. -/
theorem insert_change (h : RunOpen w done run) {c : UInt8}
    (hc : channelToClass c ≠ channelToClass (run.headD 0))
    (hroom : done.length + 2 + run.length < 253) :
    RunOpen (insertChannel w c) (done ++ encodeRun run) [c] := by
  have hpos : w.pos.toNat = w.dest.length := by
    rw [h.pos, h.dest]
    simp
    omega
  have hclass : w.lastRegClass ≠ 0xff := by
    rw [h.lastRegClass]
    exact channelToClass_ne _
  have hother : channelToClass c ≠ w.lastRegClass := by
    rw [h.lastRegClass]
    exact hc
  have hlen : (done ++ encodeRun run).length = w.pos.toNat := by
    rw [h.pos]
    simp [encodeRun]
    omega
  have htwo : (w.pos + 2).toNat = w.pos.toNat + 2 := by
    have hlt := h.pos
    rw [UInt8.toNat_add]
    change (w.pos.toNat + 2) % 256 = _
    omega
  unfold insertChannel
  dsimp only
  rw [if_neg hclass, if_pos hother]
  constructor
  · dsimp only
    rw [write_end [channelToClass c] hpos, h.write_lastNum, write_beyond [c]]
    · simp
    · rw [htwo, List.length_append, hlen]
      rfl
  · change (w.pos + 2 + 1).toNat = _
    rw [UInt8.toNat_add, htwo, hlen]
    change (w.pos.toNat + 2 + 1) % 256 = _
    have hlt := h.pos
    simp
    omega
  · rfl
  · change w.pos.toNat + 1 = _
    rw [hlen]
  · rfl

end RunOpen

/-- **The list is written run by run.** The bound keeps the position in its octet. -/
theorem channelLoop_eq (rest : List UInt8) :
    ∀ {w : ChannelWalk} {done run : List UInt8}, RunOpen w done run → run ≠ [] →
      done.length + 2 + run.length + 3 * rest.length < 256 →
      (channelLoop (if rest = [] then w.updateNum else w) rest).dest =
          done ++ (runsFrom channelToClass (channelToClass (run.headD 0)) run rest).flatMap
            encodeRun ∧
        (channelLoop (if rest = [] then w.updateNum else w) rest).pos.toNat =
          (channelLoop (if rest = [] then w.updateNum else w) rest).dest.length := by
  induction rest with
  | nil =>
    intro w done run h hne hroom
    rw [if_pos rfl]
    have hlast := h.updateNum
    simpa [channelLoop, runsFrom] using hlast
  | cons c rest ih =>
    intro w done run h hne hroom
    rw [if_neg (List.cons_ne_nil c rest), channelLoop, runsFrom]
    rw [List.length_cons] at hroom
    by_cases hc : channelToClass c = channelToClass (run.headD 0)
    · rw [if_pos hc]
      have hstep := h.insert_same hne hc (by omega)
      have hnext := ih hstep (by simp) (by simp; omega)
      have hhead : (run ++ [c]).headD 0 = run.headD 0 := by
        cases run with
        | nil => exact absurd rfl hne
        | cons a run => rfl
      rw [hhead] at hnext
      exact hnext
    · rw [if_neg hc, List.flatMap_cons]
      have hstep := h.insert_change hc (by omega)
      have hnext := ih hstep (by simp) (by simp [encodeRun]; omega)
      rw [List.append_assoc] at hnext
      exact hnext

/-- The channels in front of the first of another class. -/
def firstRun : List UInt8 → List UInt8
  | [] => []
  | c :: rest => c :: sameKey channelToClass (channelToClass c) rest

/-- The channels are all of one class. -/
def OneClass (channels : List UInt8) : Prop :=
  ∀ c ∈ channels, ∀ d ∈ channels, channelToClass c = channelToClass d

theorem firstRun_eq_self_iff {channels : List UInt8} :
    firstRun channels = channels ↔ OneClass channels := by
  cases channels with
  | nil => exact iff_of_true rfl fun c hc => nomatch hc
  | cons c rest =>
    rw [firstRun, List.cons.injEq, KeyRuns.sameKey_eq_self_iff]
    constructor
    · rintro ⟨-, hall⟩ a ha b hb
      have hclass : ∀ d ∈ c :: rest, channelToClass d = channelToClass c :=
        List.forall_mem_cons.mpr ⟨rfl, hall⟩
      rw [hclass a ha, hclass b hb]
    · intro hone
      refine ⟨rfl, ?_⟩
      intro a ha
      exact hone a (List.mem_cons_of_mem c ha) c List.mem_cons_self

theorem firstRun_sublist (channels : List UInt8) : ∃ rest, channels = firstRun channels ++ rest := by
  cases channels with
  | nil => exact ⟨[], rfl⟩
  | cons c rest =>
    obtain ⟨tail, htail⟩ := List.takeWhile_prefix (l := rest)
      fun d => decide (channelToClass d = channelToClass c)
    exact ⟨tail, by rw [firstRun, sameKey, List.cons_append, htail]⟩

theorem insertChannel_first (c : UInt8) :
    RunOpen (insertChannel
      { dest := [], pos := 2, lastRegClass := 0xff, lastLenPos := 1, lastNum := 0 } c) [] [c] := by
  constructor <;> rfl

theorem insertP2pChannelList_cons {c : UInt8} {rest : List UInt8} (hlen : rest.length < 54) :
    insertP2pChannelList (c :: rest) =
      (runsFrom channelToClass (channelToClass c) [c] rest).flatMap encodeRun := by
  obtain ⟨hdest, hpos⟩ := channelLoop_eq rest (insertChannel_first c) (by simp)
    (by simp only [List.length_nil, List.length_cons]; omega)
  rw [insertP2pChannelList, channelLoop, hpos, Mem.read_eq_take (by omega), List.drop_zero, List.take_length, hdest]
  rfl

theorem length_flatMap_encodeRun (runs : List (List UInt8)) :
    (runs.flatMap encodeRun).length = 2 * runs.length + runs.flatten.length := by
  induction runs with
  | nil => rfl
  | cons run runs ih =>
    simp only [List.flatMap_cons, List.flatten_cons, List.length_append, List.length_cons, ih,
      encodeRun]
    omega

/-- **The list begins with its first run**, and its length stays far below that of an octet. -/
theorem insertP2pChannelList_eq {channels : List UInt8} (hlen : channels.length ≤ 54) :
    ∃ regClass rest, insertP2pChannelList channels =
        [regClass, UInt8.ofNat (firstRun channels).length] ++ firstRun channels ++ rest ∧
      (insertP2pChannelList channels).length ≤ 2 + 3 * 54 := by
  cases channels with
  | nil => exact ⟨0, [], rfl, by decide⟩
  | cons c others =>
    rw [List.length_cons] at hlen
    rw [insertP2pChannelList_cons (by omega)]
    obtain ⟨runs, hruns⟩ := KeyRuns.exists_runsFrom_eq channelToClass (channelToClass c) [c] others
    have hcount := KeyRuns.length_runsFrom channelToClass (channelToClass c) [c] others
    have hflat := KeyRuns.flatten_runsFrom channelToClass (channelToClass c) [c] others
    refine ⟨channelToClass c, runs.flatMap encodeRun, ?_, ?_⟩
    · rw [hruns]
      rfl
    · rw [length_flatMap_encodeRun, hflat]
      simp only [List.length_append, List.length_cons, List.length_nil]
      omega

/-! ## 2. An attribute in an element -/

/-- The value of an attribute stands in the element, behind its identifier and length. -/
def Holds (msg : Body) (a : Attr) (value : List UInt8) : Prop :=
  ∃ front rest, msg = front ++ ([a.eid, UInt8.ofNat value.length, 0] ++ (value ++ rest)) ∧
    a.pos = front.length

namespace Holds

variable {msg : Body} {a : Attr} {value : List UInt8}

theorem length_le (h : Holds msg a value) : a.octet value.length ≤ msg.length := by
  obtain ⟨front, rest, rfl, hpos⟩ := h
  simp [Attr.octet, hpos]
  omega

/-- What is read of it, from an octet of the value on. -/
theorem read (h : Holds msg a value) {i n : Nat} (hin : i + n ≤ value.length) :
    Mem.read msg (a.octet i) n = Mem.read value i n := by
  obtain ⟨front, rest, rfl, hpos⟩ := h
  have hsplit : value = value.take i ++ (Mem.read value i n ++ value.drop (i + n)) := by
    rw [Mem.read_eq_take hin, ← List.drop_drop, List.take_append_drop, List.take_append_drop]
  generalize UInt8.ofNat value.length = low
  refine Mem.read_middle (front ++ [a.eid, low, 0] ++ value.take i)
    (value.drop (i + n) ++ rest) ?_ ?_ (Mem.length_read _ _ _).symm
  · conv_lhs => rw [hsplit]
    simp
  · simp [Attr.octet, hpos]
    omega

theorem lenOctet (h : Holds msg a value) :
    P2p.octetAt msg (a.pos + 1) = UInt8.ofNat value.length := by
  obtain ⟨front, rest, rfl, hpos⟩ := h
  simp [P2p.octetAt, hpos, List.getD]

theorem octetAt (h : Holds msg a value) {i : Nat} (hi : i < value.length) :
    P2p.octetAt msg (a.octet i) = value.getD i 0 := by
  have hread := h.read (i := i) (n := 1) hi
  rw [Mem.read_one, Mem.read_one] at hread
  exact List.head_eq_of_cons_eq hread

theorem readOctet (h : Holds msg a value) {i : Nat} (hi : i < value.length) :
    P2p.readOctet msg (a.octet i) = .ok (value.getD i 0) := by
  have hlen := h.length_le
  unfold Attr.octet at hlen
  rw [P2p.readOctet, access_ok (by unfold Attr.octet; omega), ok_bind, h.octetAt hi]
  rfl

theorem readBe16 (h : Holds msg a value) {i : Nat} (hi : i + 2 ≤ value.length) :
    P2p.readBe16 msg (a.octet i) = .ok (be16 value i) := by
  have hlen := h.length_le
  have hnext : a.octet i + 1 = a.octet (i + 1) := rfl
  unfold Attr.octet at hlen
  rw [P2p.readBe16, access_ok (by unfold Attr.octet; omega), ok_bind, be16, hnext,
    h.octetAt (by omega), h.octetAt (by omega)]
  rfl

theorem moveMemory (h : Holds msg a value) {i n m : Nat} (hin : i + n ≤ value.length)
    (dst : Octets m) (hroom : n ≤ m) :
    P2p.moveMemory msg (a.octet i) n dst 0 =
      .ok (.ofList m (Mem.write dst.toList 0 (Mem.read value i n))) := by
  have hlen := h.length_le
  unfold Attr.octet at hlen
  rw [P2p.moveMemory, access_ok (by unfold Attr.octet; omega), ok_bind, access_ok (by omega),
    ok_bind, h.read hin]
  rfl

theorem octetTo (h : Holds msg a value) {i : Nat} (hi : i < value.length) (out : Out UInt8) :
    P2p.octetTo msg (a.octet i) out = .ok (out.map fun _ => value.getD i 0) := by
  cases out with
  | none => rfl
  | some b =>
    rw [P2p.octetTo, h.readOctet hi]
    rfl

theorem wordTo (h : Holds msg a value) {i : Nat} (hi : i + 2 ≤ value.length) (out : Out Nat) :
    P2p.wordTo msg (a.octet i) out = .ok (out.map fun _ => be16 value i) := by
  cases out with
  | none => rfl
  | some b =>
    rw [P2p.wordTo, h.readBe16 hi]
    rfl

theorem moveTo (h : Holds msg a value) {i n m : Nat} (hin : i + n ≤ value.length) (hroom : n ≤ m)
    (out : Out (Octets m)) :
    P2p.moveTo msg (a.octet i) n out =
      .ok (out.map fun dst => .ofList m (Mem.write dst.toList 0 (Mem.read value i n))) := by
  cases out with
  | none => rfl
  | some dst =>
    rw [P2p.moveTo, h.moveMemory hin dst hroom]
    rfl

end Holds

/-- A whole buffer that is written over. -/
theorem ofList_write_toList {m : Nat} (dst v : Octets m) :
    Octets.ofList m (Mem.write dst.toList 0 v.toList) = v := by
  have hwrite : Mem.write dst.toList 0 v.toList = v.toList := by
    rw [Mem.write, List.takeD_zero, List.nil_append, Nat.zero_add, v.toList_length,
      List.drop_of_length_le (by rw [dst.toList_length]), List.append_nil]
  rw [hwrite, Octets.ofList_toList]

theorem Holds.moveTo_all {msg : Body} {a : Attr} {value : List UInt8} (h : Holds msg a value)
    {i m : Nat} (hin : i + m ≤ value.length) {v : Octets m} (hv : Mem.read value i m = v.toList)
    (out : Out (Octets m)) :
    P2p.moveTo msg (a.octet i) m out = .ok (out.map fun _ => v) := by
  rw [h.moveTo hin (le_refl m), hv]
  simp only [ofList_write_toList]

/-! ## 3. What is put in -/

namespace Item

/-- The value of the attribute. -/
def value (ad : P2pSource) : Item → List UInt8
  | inviteFlag b | status b | ownerIntent b => [b]
  | cap deviceCap groupCap => [deviceCap, groupCap]
  | configTimeout timeout => timeout.toList
  | deviceId addr | groupBssid addr | interfaceAddr addr => addr.toList
  | channelList _ => ad.countryCode.toList ++ [0x04] ++ insertP2pChannelList ad.channelList.1
  | opChannel channel | listenChannel channel =>
    ad.countryCode.toList ++ [0x04, channelToClass channel, channel]
  | extListenTiming =>
    CountedList.le16 p2pExtListenPeriod ++ CountedList.le16 p2pExtListenInterval
  | deviceInfo addr =>
    addr.toList ++ be16Octets ad.configMethod.toNat ++ ad.priDeviceType.toList ++
      [UInt8.ofNat ad.secDevTypList.length] ++
      (ad.secDevTypList.map List.Vector.toList).flatten ++
      be16Octets wscIdDeviceName ++ be16Octets ad.deviceName.1.length ++ ad.deviceName.1
  | groupId addr ssid => addr.toList ++ ssid.1

/-- The outputs with the value put in, where the list of the channels is the one given. An output
that is not asked for stays so. -/
def putWith (ad : P2pSource) (channels : List UInt8) (s : SubElmt) : Item → SubElmt
  | inviteFlag flag => { s with inviteFlag := s.inviteFlag.map fun _ => flag }
  | status code => { s with statusCode := s.statusCode.map fun _ => code }
  | cap deviceCap groupCap => { s with deviceCap, groupCap }
  | deviceId addr => { s with devAddr := s.devAddr.map fun _ => addr }
  | groupBssid addr => { s with bssidAddr := s.bssidAddr.map fun _ => addr }
  | interfaceAddr addr => { s with interFAddr := s.interFAddr.map fun _ => addr }
  | ownerIntent intent => { s with intent := s.intent.map fun _ => intent }
  | channelList _ =>
    { s with
      channelList := s.channelList.map fun dst => .ofList _ (Mem.write dst.toList 0 channels) }
  | opChannel channel => { s with opChannel := s.opChannel.map fun _ => channel }
  | listenChannel channel => { s with listenChannel := s.listenChannel.map fun _ => channel }
  | deviceInfo addr =>
    { s with
      devAddr := s.devAddr.map fun _ => addr
      configMethod := s.configMethod.map fun _ => ad.configMethod.toNat
      devType := s.devType.map fun _ => ad.priDeviceType
      deviceName := s.deviceName.map fun dst =>
        .ofList 32 (Mem.write dst.toList 0 ad.deviceName.1)
      deviceNameLen :=
        if s.deviceName.isSome then
          s.deviceNameLen.map fun _ => UInt8.ofNat ad.deviceName.1.length
        else s.deviceNameLen }
  | groupId _ ssid =>
    { s with
      ssid := s.ssid.map fun dst => .ofList 32 (Mem.write dst.toList 0 ssid.1)
      ssidLen :=
        if s.ssid.isSome then s.ssidLen.map fun _ => UInt8.ofNat ssid.1.length else s.ssidLen }
  | configTimeout _ | extListenTiming => s

/-- **The value that is put in**: of the channels, all. -/
def put (ad : P2pSource) (s : SubElmt) (item : Item) : SubElmt :=
  item.putWith ad ad.channelList.1 s

theorem read_toList {n : Nat} (v : Octets n) : Mem.read v.toList 0 n = v.toList := by
  rw [Mem.read_eq_take (by rw [v.toList_length, Nat.zero_add]), List.drop_zero,
    List.take_of_length_le (by rw [v.toList_length])]

theorem length_secDevTypes (ad : P2pSource) :
    (ad.secDevTypList.map List.Vector.toList).flatten.length = 8 * ad.secDevTypList.length := by
  have hwidth : ∀ l ∈ ad.secDevTypList.map List.Vector.toList, l.length = 8 := by
    intro l hl
    obtain ⟨v, -, rfl⟩ := List.mem_map.mp hl
    exact v.toList_length
  rw [CountedList.length_flatten_of_width hwidth, List.length_map]

theorem length_deviceInfo (ad : P2pSource) (addr : Octets 6) :
    ((deviceInfo addr).value ad).length =
      17 + ad.deviceName.1.length + 4 + 8 * ad.secDevTypList.length := by
  have htypes := length_secDevTypes ad
  simp only [value, List.length_append, htypes, addr.toList_length,
    ad.priDeviceType.toList_length, be16Octets, List.length_cons, List.length_nil]
  omega

/-- What `InsertP2PSubelmtTlv` adds is the value behind identifier and length. -/
theorem insertP2pSubelmtTlv_eq (ad : P2pSource) (item : Item) :
    insertP2pSubelmtTlv ad item.subId item.buffer =
      tlv item.subId (item.value ad).length (item.value ad) := by
  cases item with
  | configTimeout timeout => simp [subId, buffer, value, insertP2pSubelmtTlv, read_toList]
  | deviceId addr => simp [subId, buffer, value, insertP2pSubelmtTlv, read_toList]
  | groupBssid addr => simp [subId, buffer, value, insertP2pSubelmtTlv, read_toList]
  | interfaceAddr addr => simp [subId, buffer, value, insertP2pSubelmtTlv, read_toList]
  | channelList c =>
    have hlen : (ad.countryCode.toList ++ [0x04] ++ insertP2pChannelList ad.channelList.1).length =
        (insertP2pChannelList ad.channelList.1).length + 3 := by
      rw [List.length_append, List.length_append, ad.countryCode.toList_length, Nat.add_comm]
      rfl
    simp only [subId, value, insertP2pSubelmtTlv, hlen]
  | deviceInfo addr =>
    rw [length_deviceInfo]
    simp only [subId, buffer, value, insertP2pSubelmtTlv, read_toList]
  | groupId addr ssid =>
    have hlen : ((groupId addr ssid).value ad).length = 6 + ssid.1.length := by
      rw [value, List.length_append, addr.toList_length]
    have hfirst : (UInt8.ofNat (6 + ssid.1.length)).toNat = 6 + ssid.1.length := by
      have hle := ssid.2.2
      rw [UInt8.toNat_ofNat']
      omega
    have hbuf : Mem.read (groupId addr ssid).buffer 0 (6 + ssid.1.length + 2) =
        (groupId addr ssid).buffer := by
      have hsize : (groupId addr ssid).buffer.length = 6 + ssid.1.length + 2 := by
        simp [buffer, addr.toList_length]
      rw [← hsize, Mem.read_eq_take (by omega), List.drop_zero, List.take_length]
    have hget : (groupId addr ssid).buffer.getD 0 0 = UInt8.ofNat (6 + ssid.1.length) := rfl
    rw [hlen]
    simp only [subId, insertP2pSubelmtTlv]
    rw [hget, hfirst, hbuf]
    simp [buffer, value, tlv]
  | opChannel c =>
    have hlen : ((opChannel c).value ad).length = 5 := by
      rw [value, List.length_append, ad.countryCode.toList_length]
      rfl
    rw [hlen]
    rfl
  | listenChannel c =>
    have hlen : ((listenChannel c).value ad).length = 5 := by
      rw [value, List.length_append, ad.countryCode.toList_length]
      rfl
    rw [hlen]
    rfl
  | _ => rfl

/-! ## 4. What the parser makes of an attribute -/

variable {msg : Body} {a : Attr} {ad : P2pSource}

/-- The list of the channels: the first run is taken for all. -/
theorem channelListAttr_item {c : UInt8} (h : Holds msg a ((channelList c).value ad)) {s : SubElmt}
    (hleft : s.channelListLeft = Fin.last maxNumOfChannels) :
    ∃ left, channelListAttr msg s a =
      .ok { (channelList c).putWith ad (firstRun ad.channelList.1) s with
        channelListLeft := left } := by
  unfold channelListAttr putWith
  cases hout : s.channelList with
  | none =>
    refine ⟨s.channelListLeft, ?_⟩
    rw [← hout]
    cases s
    cases hout
    rfl
  | some dst =>
    have hnum := ad.channelList.2
    obtain ⟨first, hfirst⟩ := firstRun_sublist ad.channelList.1
    have hcount : (firstRun ad.channelList.1).length ≤ 54 := by
      have hlen := congrArg List.length hfirst
      rw [List.length_append] at hlen
      have hmax : maxNumOfChannels = 54 := rfl
      omega
    obtain ⟨regClass, rest, hlist, -⟩ := insertP2pChannelList_eq hnum
    have hvalue : (channelList c).value ad = (ad.countryCode.toList ++ [0x04, regClass]) ++
        (UInt8.ofNat (firstRun ad.channelList.1).length ::
          (firstRun ad.channelList.1 ++ rest)) := by
      rw [value, hlist]
      simp
    have hfront : (ad.countryCode.toList ++ [0x04, regClass]).length = 4 := by
      rw [List.length_append, ad.countryCode.toList_length]
      rfl
    have hsize : 5 + (firstRun ad.channelList.1).length ≤ ((channelList c).value ad).length := by
      rw [hvalue, List.length_append, hfront]
      simp
      omega
    have hget : ((channelList c).value ad).getD 4 0 =
        UInt8.ofNat (firstRun ad.channelList.1).length := by
      rw [hvalue, List.getD_eq_getElem?_getD, List.getElem?_append_right (by omega), hfront]
      rfl
    have hn : (UInt8.ofNat (firstRun ad.channelList.1).length).toNat =
        (firstRun ad.channelList.1).length := by
      rw [UInt8.toNat_ofNat']
      omega
    have hsign : ¬ charVal (UInt8.ofNat (firstRun ad.channelList.1).length) < 0 := by
      rw [charVal_neg, hn]
      omega
    have hread : Mem.read ((channelList c).value ad) 5 (firstRun ad.channelList.1).length =
        firstRun ad.channelList.1 := by
      refine Mem.read_middle (ad.countryCode.toList ++
        [0x04, regClass, UInt8.ofNat (firstRun ad.channelList.1).length]) rest ?_ ?_ rfl
      · rw [hvalue]
        simp
      · rw [List.length_append, ad.countryCode.toList_length]
        rfl
    have hroom : (firstRun ad.channelList.1).length ≤ (s.channelListLeft : Nat) := by
      rw [hleft]
      exact hcount
    have hoff : maxNumOfChannels - (s.channelListLeft : Nat) = 0 := by
      rw [hleft]
      rfl
    refine ⟨takeChannels s.channelListLeft (firstRun ad.channelList.1).length, ?_⟩
    dsimp only
    rw [h.readOctet (by omega), ok_bind, hget, if_neg hsign, hn, if_pos hroom, hoff,
      h.moveMemory hsize dst hcount, hread]
    rfl

theorem be16_of_append (front rest : List UInt8) {l : List UInt8} {n i : Nat}
    (hl : l = front ++ (be16Octets n ++ rest)) (hi : i = front.length) (hn : n < 65536) : be16 l i = n := by
  subst hl hi
  have hhigh : octetAt (front ++ (be16Octets n ++ rest)) front.length = UInt8.ofNat (n / 256) := by
    simp [octetAt, be16Octets, List.getD]
  have hlow : octetAt (front ++ (be16Octets n ++ rest)) (front.length + 1) = UInt8.ofNat n := by
    simp [octetAt, be16Octets, List.getD]
  rw [be16, hhigh, hlow, UInt8.toNat_ofNat', UInt8.toNat_ofNat']
  omega

/-- The SSID of a group. -/
theorem groupIdAttr_item {addr : Octets 6} {ssid : { l : List UInt8 // 0 < l.length ∧ l.length ≤ 32 }}
    (h : Holds msg a ((groupId addr ssid).value ad)) (s : SubElmt) (channels : List UInt8) :
    groupIdAttr msg s a = .ok ((groupId addr ssid).putWith ad channels s) := by
  have hpos := ssid.2.1
  have hle := ssid.2.2
  have hlen : ((groupId addr ssid).value ad).length = 6 + ssid.1.length := by
    rw [value, List.length_append, addr.toList_length]
  have hoct : (P2p.octetAt msg (a.pos + 1)).toNat = 6 + ssid.1.length := by
    rw [h.lenOctet, hlen, UInt8.toNat_ofNat']
    omega
  have hread : Mem.read ((groupId addr ssid).value ad) 6 ssid.1.length = ssid.1 := by
    refine Mem.read_middle addr.toList [] ?_ addr.toList_length.symm rfl
    rw [value, List.append_nil]
  unfold groupIdAttr putWith
  dsimp only
  rw [hoct, Nat.add_sub_cancel_left]
  by_cases hout : s.ssid.isSome
  · rw [if_pos ⟨hout, by omega, by omega⟩, if_pos hout, h.moveTo (by omega) hle, hread, ok_bind]
    rfl
  · rw [if_neg fun hand => hout hand.1, if_neg hout]
    have hnone : s.ssid = none := by simpa using hout
    rw [hnone]
    cases s
    cases hnone
    rfl

/-- The name of the device, behind whatever number of secondary types the element has room for. -/
theorem deviceNameAttr_item {addr : Octets 6} (h : Holds msg a ((deviceInfo addr).value ad))
    (hroom : ((deviceInfo addr).value ad).length ≤ 255) (s : SubElmt) :
    deviceNameAttr msg s a = .ok
      { s with
        deviceName := s.deviceName.map fun dst =>
          .ofList 32 (Mem.write dst.toList 0 ad.deviceName.1)
        deviceNameLen :=
          if s.deviceName.isSome then
            s.deviceNameLen.map fun _ => UInt8.ofNat ad.deviceName.1.length
          else s.deviceNameLen } := by
  have hname := ad.deviceName.2
  have hlen := length_deviceInfo ad addr
  have htypes := length_secDevTypes ad
  -- the fixed part, the types, and the two numbers in front of the name
  have hfixed : (addr.toList ++ be16Octets ad.configMethod.toNat ++ ad.priDeviceType.toList).length =
      16 := by
    simp only [List.length_append, addr.toList_length, ad.priDeviceType.toList_length, be16Octets,
      List.length_cons, List.length_nil]
  have hfront : (addr.toList ++ be16Octets ad.configMethod.toNat ++ ad.priDeviceType.toList ++
      [UInt8.ofNat ad.secDevTypList.length] ++
      (ad.secDevTypList.map List.Vector.toList).flatten).length =
      17 + 8 * ad.secDevTypList.length := by
    rw [List.length_append, List.length_append, hfixed, htypes]
    rfl
  have hcount : ((deviceInfo addr).value ad).getD 16 0 = UInt8.ofNat ad.secDevTypList.length := by
    have hvalue : (deviceInfo addr).value ad =
        (addr.toList ++ be16Octets ad.configMethod.toNat ++ ad.priDeviceType.toList) ++
          (UInt8.ofNat ad.secDevTypList.length ::
            ((ad.secDevTypList.map List.Vector.toList).flatten ++ be16Octets wscIdDeviceName ++
              be16Octets ad.deviceName.1.length ++ ad.deviceName.1)) := by
      simp [value]
    rw [hvalue, List.getD_eq_getElem?_getD, List.getElem?_append_right (by omega), hfixed]
    rfl
  have htype : be16 ((deviceInfo addr).value ad) (17 + 8 * ad.secDevTypList.length) =
      wscIdDeviceName := by
    refine be16_of_append _ (be16Octets ad.deviceName.1.length ++ ad.deviceName.1) ?_ hfront.symm
      (by decide)
    simp [value]
  have hnameLen : be16 ((deviceInfo addr).value ad) (17 + 8 * ad.secDevTypList.length + 2) =
      ad.deviceName.1.length := by
    refine be16_of_append (addr.toList ++ be16Octets ad.configMethod.toNat ++
      ad.priDeviceType.toList ++ [UInt8.ofNat ad.secDevTypList.length] ++
      (ad.secDevTypList.map List.Vector.toList).flatten ++ be16Octets wscIdDeviceName)
      ad.deviceName.1 ?_ ?_ (by omega)
    · simp [value]
    · rw [List.length_append, hfront]
      rfl
  have hread : Mem.read ((deviceInfo addr).value ad) (21 + 8 * ad.secDevTypList.length)
      ad.deviceName.1.length = ad.deviceName.1 := by
    refine Mem.read_middle (addr.toList ++ be16Octets ad.configMethod.toNat ++
      ad.priDeviceType.toList ++ [UInt8.ofNat ad.secDevTypList.length] ++
      (ad.secDevTypList.map List.Vector.toList).flatten ++ be16Octets wscIdDeviceName ++
      be16Octets ad.deviceName.1.length) [] ?_ ?_ rfl
    · simp [value]
    · rw [List.length_append, List.length_append, hfront]
      simp only [be16Octets, List.length_cons, List.length_nil]
      omega
  have hsmall : (UInt8.ofNat ad.secDevTypList.length).toNat = ad.secDevTypList.length := by
    rw [UInt8.toNat_ofNat']
    omega
  have hchar : charVal (UInt8.ofNat ad.secDevTypList.length) = (ad.secDevTypList.length : Int) := by
    unfold charVal
    rw [hsmall, if_pos (by omega)]
  have hoff : nameOffset (UInt8.ofNat ad.secDevTypList.length) =
      17 + 8 * ad.secDevTypList.length := by
    unfold nameOffset
    rw [hchar]
    omega
  have hfrom : (a.octet 21 : Int) + (ad.secDevTypList.length : Int) * 8 =
      ((a.octet (21 + 8 * ad.secDevTypList.length) : Nat) : Int) := by
    unfold Attr.octet
    omega
  unfold deviceNameAttr
  rw [h.readOctet (by omega), ok_bind, hcount, hoff, h.readBe16 (by omega), ok_bind,
    h.readBe16 (by omega), ok_bind, htype, hnameLen, if_pos ⟨rfl, hname⟩]
  cases hout : s.deviceName with
  | none =>
    cases s
    cases hout
    rfl
  | some dst =>
    dsimp only
    rw [hchar, hfrom, moveFrom, if_pos (Int.natCast_nonneg _), Int.toNat_natCast,
      h.moveMemory (by omega) dst hname, hread]
    rfl

theorem deviceInfoAttr_item {addr : Octets 6} (h : Holds msg a ((deviceInfo addr).value ad))
    (hroom : ((deviceInfo addr).value ad).length ≤ 255) (s : SubElmt) (channels : List UInt8) :
    deviceInfoAttr msg s a = .ok ((deviceInfo addr).putWith ad channels s) := by
  have hlen := length_deviceInfo ad addr
  have haddr : Mem.read ((deviceInfo addr).value ad) 0 6 = addr.toList := by
    refine Mem.read_middle [] (be16Octets ad.configMethod.toNat ++ ad.priDeviceType.toList ++
      [UInt8.ofNat ad.secDevTypList.length] ++
      (ad.secDevTypList.map List.Vector.toList).flatten ++
      be16Octets wscIdDeviceName ++ be16Octets ad.deviceName.1.length ++ ad.deviceName.1)
      ?_ rfl addr.toList_length.symm
    simp [value]
  have hconfig : be16 ((deviceInfo addr).value ad) 6 = ad.configMethod.toNat := by
    refine be16_of_append addr.toList (ad.priDeviceType.toList ++
      [UInt8.ofNat ad.secDevTypList.length] ++
      (ad.secDevTypList.map List.Vector.toList).flatten ++
      be16Octets wscIdDeviceName ++ be16Octets ad.deviceName.1.length ++ ad.deviceName.1)
      ?_ addr.toList_length.symm ad.configMethod.toNat_lt
    simp [value]
  have htype : Mem.read ((deviceInfo addr).value ad) 8 8 = ad.priDeviceType.toList := by
    refine Mem.read_middle (addr.toList ++ be16Octets ad.configMethod.toNat)
      ([UInt8.ofNat ad.secDevTypList.length] ++
      (ad.secDevTypList.map List.Vector.toList).flatten ++
      be16Octets wscIdDeviceName ++ be16Octets ad.deviceName.1.length ++ ad.deviceName.1)
      ?_ ?_ ad.priDeviceType.toList_length.symm
    · simp [value]
    · rw [List.length_append, addr.toList_length]
      rfl
  unfold deviceInfoAttr
  rw [h.moveTo_all (by omega) haddr, ok_bind, h.wordTo (by omega), ok_bind, hconfig,
    h.moveTo_all (by omega) htype, ok_bind, deviceNameAttr_item h hroom]
  rfl

/-- **An attribute puts its value into its output**, and of the channels their first run. -/
theorem subElmtAttr_item (item : Item) (hid : a.eid = item.subId.eid)
    (h : Holds msg a (item.value ad)) (hroom : (item.value ad).length ≤ 255) (s : SubElmt)
    (hleft : item.subId = .channelList → s.channelListLeft = Fin.last maxNumOfChannels) :
    ∃ left, subElmtAttr msg s a =
        .ok { item.putWith ad (firstRun ad.channelList.1) s with channelListLeft := left } ∧
      (item.subId ≠ .channelList → left = s.channelListLeft) := by
  have hcountry := ad.countryCode.toList_length
  unfold subElmtAttr
  rw [hid, SubId.ofEid_eid]
  cases item with
  | channelList c =>
    obtain ⟨left, hattr⟩ := channelListAttr_item h (hleft rfl)
    exact ⟨left, hattr, fun hne => absurd rfl hne⟩
  | groupId addr ssid => exact
    ⟨s.channelListLeft, groupIdAttr_item h s (firstRun ad.channelList.1), fun _ => rfl⟩
  | deviceInfo addr => exact
    ⟨s.channelListLeft, deviceInfoAttr_item h hroom s (firstRun ad.channelList.1), fun _ => rfl⟩
  | inviteFlag b =>
    refine ⟨s.channelListLeft, ?_, fun _ => rfl⟩
    simp only [subId]
    rw [h.octetTo Nat.one_pos]
    rfl
  | status b =>
    refine ⟨s.channelListLeft, ?_, fun _ => rfl⟩
    simp only [subId]
    rw [h.octetTo Nat.one_pos]
    rfl
  | ownerIntent b =>
    refine ⟨s.channelListLeft, ?_, fun _ => rfl⟩
    simp only [subId]
    rw [h.octetTo Nat.one_pos]
    rfl
  | cap deviceCap groupCap =>
    refine ⟨s.channelListLeft, ?_, fun _ => rfl⟩
    simp only [subId]
    rw [h.readOctet (Nat.lt_succ_self 1), ok_bind, h.readOctet Nat.two_pos]
    rfl
  | deviceId addr =>
    have hread : Mem.read ((deviceId addr).value ad) 0 6 = addr.toList := read_toList addr
    refine ⟨s.channelListLeft, ?_, fun _ => rfl⟩
    simp only [subId]
    rw [h.moveTo_all (by rw [value, addr.toList_length]) hread]
    rfl
  | groupBssid addr =>
    have hread : Mem.read ((groupBssid addr).value ad) 0 6 = addr.toList := read_toList addr
    refine ⟨s.channelListLeft, ?_, fun _ => rfl⟩
    simp only [subId]
    rw [h.moveTo_all (by rw [value, addr.toList_length]) hread]
    rfl
  | interfaceAddr addr =>
    have hread : Mem.read ((interfaceAddr addr).value ad) 0 6 = addr.toList := read_toList addr
    refine ⟨s.channelListLeft, ?_, fun _ => rfl⟩
    simp only [subId]
    rw [h.moveTo_all (by rw [value, addr.toList_length]) hread]
    rfl
  | opChannel c =>
    have hget : ((opChannel c).value ad).getD 4 0 = c := by
      rw [value, List.getD_eq_getElem?_getD, List.getElem?_append_right (by omega), hcountry]
      rfl
    refine ⟨s.channelListLeft, ?_, fun _ => rfl⟩
    simp only [subId]
    rw [h.octetTo (by simp [value, hcountry]), hget]
    rfl
  | listenChannel c =>
    have hget : ((listenChannel c).value ad).getD 4 0 = c := by
      rw [value, List.getD_eq_getElem?_getD, List.getElem?_append_right (by omega), hcountry]
      rfl
    refine ⟨s.channelListLeft, ?_, fun _ => rfl⟩
    simp only [subId]
    rw [h.octetTo (by simp [value, hcountry]), hget]
    rfl
  | configTimeout timeout => exact ⟨s.channelListLeft, rfl, fun _ => rfl⟩
  | extListenTiming => exact ⟨s.channelListLeft, rfl, fun _ => rfl⟩

/-- What is left of the channel list is no output. -/
theorem putWith_left (ad : P2pSource) (channels : List UInt8) (s : SubElmt)
    (left : Fin (maxNumOfChannels + 1)) (item : Item) :
    item.putWith ad channels { s with channelListLeft := left } =
      { item.putWith ad channels s with channelListLeft := left } := by
  cases item <;> rfl

theorem foldl_putWith_left (ad : P2pSource) (channels : List UInt8) (items : List Item)
    (s : SubElmt) (left : Fin (maxNumOfChannels + 1)) :
    items.foldl (putWith ad channels) { s with channelListLeft := left } =
      { items.foldl (putWith ad channels) s with channelListLeft := left } := by
  induction items generalizing s with
  | nil => rfl
  | cons item items ih => rw [List.foldl_cons, putWith_left, ih, List.foldl_cons]

end Item

/-! ## 5. The element -/

variable {ad : P2pSource}

theorem attributes_cons (ad : P2pSource) (item : Item) (items : List Item) :
    attributes ad (item :: items) =
      [item.subId.eid, UInt8.ofNat (item.value ad).length, 0] ++
        (item.value ad ++ attributes ad items) := by
  rw [attributes, List.flatMap_cons, Item.insertP2pSubelmtTlv_eq, tlv, List.append_assoc]
  rfl

theorem length_attributes_cons (ad : P2pSource) (item : Item) (items : List Item) :
    (attributes ad (item :: items)).length =
      3 + (item.value ad).length + (attributes ad items).length := by
  rw [attributes_cons]
  simp
  omega

/-- The length of the next attribute, in either of the ways it is computed. -/
theorem readAttriLen_item {msg : Body} {front rest : List UInt8} {item : Item} (hi : Nat)
    (hmsg : msg = front ++ ([item.subId.eid, UInt8.ofNat (item.value ad).length, 0] ++
      (item.value ad ++ rest))) (hroom : (item.value ad).length ≤ 255) {pos : Nat}
    (hpos : pos = front.length) :
    readAttriLen msg hi pos = .ok (item.value ad).length := by
  subst hpos
  have hlen : front.length + 3 ≤ msg.length := by
    rw [hmsg]
    simp
  have hlow : octetAt msg (front.length + 1) = UInt8.ofNat (item.value ad).length := by
    rw [hmsg]
    simp [octetAt, List.getD]
  have hhigh : octetAt msg (front.length + 2) = 0 := by
    rw [hmsg]
    simp [octetAt, List.getD]
  have hsmall : (UInt8.ofNat (item.value ad).length).toNat = (item.value ad).length := by
    rw [UInt8.toNat_ofNat']
    omega
  have hzero : (0 : UInt8).toNat = 0 := rfl
  unfold readAttriLen readOctet
  rw [access_ok (by omega), ok_bind, access_ok (by omega)]
  simp only [pure, Except.pure, ok_bind, hlow, hhigh, hsmall, hzero]
  simp

section

variable {msg : Body} (handler : SubElmt → Attr → Checked (SubElmt ⊕ Empty))

/-- A turn of the loop on an attribute that was put in. -/
theorem attrLoop_item (hhandler : ∀ s a r, subElmtAttr msg s a = .ok r → handler s a = .ok (.inl r))
    {item : Item} {front rest : List UInt8} {s : SubElmt} {pos : Nat} (length total : Nat)
    (hmsg : msg = front ++ ([item.subId.eid, UInt8.ofNat (item.value ad).length, 0] ++
      (item.value ad ++ rest))) (hpos : pos = front.length)
    (htotal : length + 3 + (item.value ad).length ≤ total) (hroom : (item.value ad).length ≤ 255)
    (hleft : item.subId = .channelList → s.channelListLeft = Fin.last maxNumOfChannels) :
    ∃ left, (item.subId ≠ .channelList → left = s.channelListLeft) ∧
      attrLoop ⟨256, true⟩ msg handler total s pos length (item.value ad).length =
        if total ≤ length + 3 + (item.value ad).length then
          .ok (.inl { item.putWith ad (firstRun ad.channelList.1) s with channelListLeft := left })
        else
          (readAttriLen msg 256 (pos + 3 + (item.value ad).length) >>= fun next =>
            attrLoop ⟨256, true⟩ msg handler total
              { item.putWith ad (firstRun ad.channelList.1) s with channelListLeft := left }
              (pos + 3 + (item.value ad).length) (length + 3 + (item.value ad).length) next) := by
  have hholds : Holds msg ⟨pos, item.subId.eid, (item.value ad).length⟩ (item.value ad) :=
    ⟨front, rest, hmsg, hpos⟩
  obtain ⟨left, hattr, hkeep⟩ := Item.subElmtAttr_item item rfl hholds hroom s hleft
  have heid : readOctet msg pos = .ok item.subId.eid := by
    have hin : pos + 1 ≤ msg.length := by
      rw [hmsg, hpos]
      simp
    have hoct : octetAt msg pos = item.subId.eid := by
      rw [hmsg, hpos]
      simp [octetAt, List.getD]
    rw [readOctet, access_ok hin, ok_bind, hoct]
    rfl
  refine ⟨left, hkeep, ?_⟩
  rw [attrLoop, if_pos htotal, heid, ok_bind, hhandler _ _ _ hattr, ok_bind]
  by_cases hend : total ≤ length + 3 + (item.value ad).length
  · rw [if_pos hend]
    dsimp only
    rw [if_pos ⟨rfl, hend⟩]
    rfl
  · rw [if_neg hend]
    dsimp only
    rw [if_neg fun h => hend h.2]

/-- **The loop goes through the attributes as they were put in.** -/
theorem attrLoop_items
    (hhandler : ∀ s a r, subElmtAttr msg s a = .ok r → handler s a = .ok (.inl r))
    (item : Item) (items : List Item) :
    ∀ (front : List UInt8) (s : SubElmt) (pos length total : Nat),
      msg = front ++ attributes ad (item :: items) → pos = front.length →
      total = length + (attributes ad (item :: items)).length →
      (attributes ad (item :: items)).length ≤ 251 →
      ((item :: items).map Item.subId).Nodup →
      (.channelList ∈ (item :: items).map Item.subId →
        s.channelListLeft = Fin.last maxNumOfChannels) →
      ∃ left, attrLoop ⟨256, true⟩ msg handler total s pos length (item.value ad).length =
        .ok (.inl { (item :: items).foldl (Item.putWith ad (firstRun ad.channelList.1)) s with
          channelListLeft := left }) := by
  induction items generalizing item with
  | nil =>
    intro front s pos length total hmsg hpos htotal hroom _ hleft
    have hlen := length_attributes_cons ad item []
    have hnil : (attributes ad []).length = 0 := rfl
    rw [attributes_cons] at hmsg
    obtain ⟨left, -, hturn⟩ := attrLoop_item handler hhandler length total hmsg hpos
      (by omega) (by omega) fun hid => hleft (by rw [List.map_cons, hid]; exact List.mem_cons_self)
    refine ⟨left, ?_⟩
    rw [hturn, if_pos (by omega)]
    rfl
  | cons next items ih =>
    intro front s pos length total hmsg hpos htotal hroom hnodup hleft
    have hlen := length_attributes_cons ad item (next :: items)
    have hnext := length_attributes_cons ad next items
    have hfirst := hmsg
    rw [attributes_cons] at hfirst
    obtain ⟨left, hkeep, hturn⟩ := attrLoop_item handler hhandler length total hfirst hpos
      (by omega) (by omega)
      fun hid => hleft (by rw [List.map_cons, hid]; exact List.mem_cons_self)
    -- the rest of the element, behind this attribute
    have hsplit : msg = (front ++ [item.subId.eid, UInt8.ofNat (item.value ad).length, 0] ++
        item.value ad) ++ attributes ad (next :: items) := by
      rw [hfirst]
      simp
    have hfront : pos + 3 + (item.value ad).length =
        (front ++ [item.subId.eid, UInt8.ofNat (item.value ad).length, 0] ++
          item.value ad).length := by
      rw [hpos]
      simp
      omega
    have hread : readAttriLen msg 256 (pos + 3 + (item.value ad).length) =
        .ok (next.value ad).length := by
      rw [attributes_cons] at hsplit
      exact readAttriLen_item 256 hsplit (by omega) hfront
    have hleft' : .channelList ∈ (next :: items).map Item.subId →
        left = Fin.last maxNumOfChannels := by
      intro hmem
      have hne : item.subId ≠ .channelList := by
        intro hid
        rw [List.map_cons, hid] at hnodup
        exact (List.nodup_cons.mp hnodup).1 hmem
      rw [hkeep hne]
      exact hleft (List.mem_cons_of_mem _ hmem)
    obtain ⟨left', hrest⟩ := ih next _
      { item.putWith ad (firstRun ad.channelList.1) s with channelListLeft := left } _
      (length + 3 + (item.value ad).length) total hsplit hfront (by omega) (by omega)
      (List.nodup_cons.mp hnodup).2 hleft'
    refine ⟨left', ?_⟩
    rw [hturn, if_neg (by omega), hread, ok_bind, hrest, Item.foldl_putWith_left]
    rfl

end

theorem readEqual_ok {msg : Body} {l : List UInt8} {i : Nat} (h : i + l.length ≤ msg.length) :
    readEqual msg l i = .ok (isAt msg l i) := by
  rw [readEqual, access_ok h]
  rfl

theorem readOctet_ok {msg : Body} {i : Nat} (h : i < msg.length) :
    readOctet msg i = .ok (octetAt msg i) := by
  rw [readOctet, access_ok h]
  rfl

/-- The parser comes to the attributes, and ends behind them. -/
theorem p2pParseSubElmt_element (item : Item) (items : List Item)
    (hfits : 4 + (attributes ad (item :: items)).length ≤ 255)
    (hnodup : ((item :: items).map Item.subId).Nodup) (bBeacon : Bool) (s : SubElmt)
    (hleft : s.channelListLeft = Fin.last maxNumOfChannels) :
    ∃ left, p2pParseSubElmt (p2pElement ad (item :: items)) bBeacon s =
      .ok { (item :: items).foldl (Item.putWith ad (firstRun ad.channelList.1)) s with
        channelListLeft := left } := by
  have hcons := length_attributes_cons ad item items
  have hmsg : p2pElement ad (item :: items) =
      [ieVendorSpecific, UInt8.ofNat (4 + (attributes ad (item :: items)).length), 0x50, 0x6f, 0x9a,
        0x09] ++ attributes ad (item :: items) := rfl
  have hfirst := hmsg
  rw [attributes_cons ad item items] at hfirst
  have hsize : (p2pElement ad (item :: items)).length =
      6 + (attributes ad (item :: items)).length := by
    rw [hmsg, List.length_append, List.length_cons]
    simp
  generalize p2pElement ad (item :: items) = msg at hmsg hfirst hsize
  have hlen : (octetAt msg 1).toNat = 4 + (attributes ad (item :: items)).length := by
    have hoct : octetAt msg 1 = UInt8.ofNat (4 + (attributes ad (item :: items)).length) := by
      rw [hmsg]
      rfl
    rw [hoct, UInt8.toNat_ofNat']
    omega
  -- the OUI is where an element with one octet of length has it
  have hwps : isAt msg wpsOui 2 = false := by
    rw [hfirst]
    have hne : (0x50 : UInt8) ≠ 0x00 := by decide
    exact decide_eq_false fun h => hne (List.head_eq_of_cons_eq h)
  have hlate : isAt msg wifidirectOui 3 = false := by
    rw [hfirst]
    have hne : (0x6f : UInt8) ≠ 0x50 := by decide
    exact decide_eq_false fun h => hne (List.head_eq_of_cons_eq h)
  have hhere : isAt msg wifidirectOui 2 = true := by
    rw [hfirst]
    exact decide_eq_true rfl
  have hwpsLen : wpsOui.length = 4 := rfl
  have hwifiLen : wifidirectOui.length = 4 := rfl
  have hattri : readAttriLen msg 8 6 = .ok (item.value ad).length :=
    readAttriLen_item 8 hfirst (by omega) rfl
  have hattrs : ∃ left, subElmtAttrs msg s 6 (4 + (attributes ad (item :: items)).length) =
      .ok { (item :: items).foldl (Item.putWith ad (firstRun ad.channelList.1)) s with
        channelListLeft := left } := by
    obtain ⟨left, hloop⟩ := attrLoop_items
      (fun s a => do return .inl (← subElmtAttr msg s a)) (fun s a r hr => by rw [hr]; rfl) item items _ s 6 0 (attributes ad (item :: items)).length
      hmsg rfl (by omega) (by omega) hnodup fun _ => hleft
    refine ⟨left, ?_⟩
    rw [subElmtAttrs, sub_ok (by omega), ok_bind, hattri, ok_bind, Nat.add_sub_cancel_left]
    dsimp only
    rw [fallThrough, hloop]
    rfl
  obtain ⟨left, hattrs⟩ := hattrs
  refine ⟨left, ?_⟩
  have hie : readIeLen msg 0 = .ok (4 + (attributes ad (item :: items)).length) := by
    rw [readIeLen, readOctet_ok (by omega), ok_bind, readEqual_ok (by omega), ok_bind, hlate, hlen]
    rfl
  have helement : subElmtElement msg bBeacon s 0 =
      .ok { (item :: items).foldl (Item.putWith ad (firstRun ad.channelList.1)) s with
        channelListLeft := left } := by
    rw [subElmtElement]
    dsimp only
    rw [readEqual_ok (by omega), ok_bind, hwps, readEqual_ok (by omega), readEqual_ok (by omega)]
    simp only [ok_bind, hlate, hhere, Bool.false_eq_true, if_false, if_true, hlen]
    exact hattrs
  rw [p2pParseSubElmt, if_neg (by omega), hie, ok_bind, subElmtLoop, if_pos (by omega), helement,
    ok_bind, if_pos (by omega)]
  rfl

/-- Without an attribute the OUI is compared one octet behind the element. -/
theorem p2pParseSubElmt_nil (bBeacon : Bool) (s : SubElmt) :
    p2pParseSubElmt (p2pElement ad []) bBeacon s = .error .outside := by
  have hmsg : p2pElement ad [] = [ieVendorSpecific, 4, 0x50, 0x6f, 0x9a, 0x09] := rfl
  have hshort : ([ieVendorSpecific, 4, 0x50, 0x6f, 0x9a, 0x09] : Body).length <
      3 + wifidirectOui.length := by decide
  have hie : readIeLen (p2pElement ad []) 0 = .error .outside := by
    rw [hmsg, readIeLen, readOctet_ok (by decide), ok_bind, readEqual, access_error hshort]
    rfl
  rw [p2pParseSubElmt, if_neg (by rw [hmsg]; decide), hie]
  rfl

/-! ## 6. The list of the channels -/

/-- Only the attribute of the channels changes their output. -/
theorem Item.putWith_channelList {item : Item} (hid : item.subId ≠ .channelList)
    (channels : List UInt8) (s : SubElmt) :
    (item.putWith ad channels s).channelList = s.channelList := by
  cases item <;> first | rfl | exact absurd rfl hid

theorem foldl_channelList_of_notMem (channels : List UInt8) {items : List Item}
    (hmem : .channelList ∉ items.map Item.subId) (s : SubElmt) :
    (items.foldl (Item.putWith ad channels) s).channelList = s.channelList := by
  induction items generalizing s with
  | nil => rfl
  | cons item items ih =>
    rw [List.map_cons, List.mem_cons, not_or] at hmem
    rw [List.foldl_cons, ih hmem.2, Item.putWith_channelList (Ne.symm hmem.1)]

theorem foldl_channelList_of_mem (channels : List UInt8) {items : List Item}
    (hnodup : (items.map Item.subId).Nodup) (hmem : .channelList ∈ items.map Item.subId)
    (s : SubElmt) :
    (items.foldl (Item.putWith ad channels) s).channelList =
      s.channelList.map fun dst => .ofList _ (Mem.write dst.toList 0 channels) := by
  induction items generalizing s with
  | nil => exact nomatch hmem
  | cons item items ih =>
    rw [List.map_cons, List.nodup_cons] at hnodup
    rw [List.foldl_cons]
    by_cases hid : item.subId = .channelList
    · rw [foldl_channelList_of_notMem channels (hid ▸ hnodup.1)]
      cases item <;> first | rfl | exact nomatch hid
    · rw [List.map_cons, List.mem_cons] at hmem
      rcases hmem with hmem | hmem
      · exact absurd hmem.symm hid
      · rw [ih hnodup.2 hmem, Item.putWith_channelList hid]

/-- Outputs that are not asked for, but for that of the channels. -/
def onlyChannels (dst : Octets maxNumOfChannels) : SubElmt where
  dpid := none
  groupCap := 0
  deviceCap := 0
  deviceName := none
  deviceNameLen := none
  devAddr := none
  interFAddr := none
  bssidAddr := none
  ssidLen := none
  ssid := none
  configMethod := none
  wpsConfigMethod := none
  devType := none
  listenChannel := none
  opChannel := none
  channelList := some dst
  intent := none
  statusCode := none
  inviteFlag := none

/-- A list that is cut short differs from the whole in some buffer: in one that holds another octet
behind the cut. -/
theorem exists_write_ne {n : Nat} {short rest : List UInt8} (hrest : rest ≠ [])
    (hlen : (short ++ rest).length ≤ n) :
    ∃ dst : Octets n, Octets.ofList n (Mem.write dst.toList 0 short) ≠
      .ofList n (Mem.write dst.toList 0 (short ++ rest)) := by
  obtain ⟨c, tail, rfl⟩ := List.exists_cons_of_ne_nil hrest
  rw [List.length_append, List.length_cons] at hlen
  refine ⟨List.Vector.replicate n (c + 1), ?_⟩
  intro heq
  have hget := congrArg (fun v : Octets n => v.toList.getD short.length 0) heq
  have hshort : (Mem.write (List.Vector.replicate n (c + 1)).toList 0 short).length = n := by
    rw [Mem.length_write (by rw [List.Vector.toList_length]; omega), List.Vector.toList_length]
  have hwhole : (Mem.write (List.Vector.replicate n (c + 1)).toList 0
      (short ++ c :: tail)).length = n := by
    rw [Mem.length_write (by rw [List.Vector.toList_length, List.length_append, List.length_cons]
                             omega), List.Vector.toList_length]
  rw [Octets.toList_ofList, Octets.toList_ofList, List.takeD_eq_take 0 (by omega),
    List.takeD_eq_take 0 (by omega), List.take_of_length_le (by omega),
    List.take_of_length_le (by omega)] at hget
  have hleft : (Mem.write (List.Vector.replicate n (c + 1)).toList 0 short).getD short.length 0 =
      c + 1 := by
    rw [Mem.getD_write_of_le (by omega)]
    change (List.replicate n (c + 1)).getD short.length 0 = _
    rw [List.getD_eq_getElem?_getD, List.getElem?_replicate, if_pos (by omega)]
    rfl
  have hright : (Mem.write (List.Vector.replicate n (c + 1)).toList 0
      (short ++ c :: tail)).getD short.length 0 = c := by
    simp [Mem.write, List.getD]
  rw [hleft, hright] at hget
  exact absurd hget (by simp)

/-! ## 7. The result -/

/-- An element that is built of the adapter's data: no attribute twice, and its length in the octet
for it. -/
structure P2pElement (ad : P2pSource) where
  items : List Item
  distinct : (items.map Item.subId).Nodup
  fits : 4 + (attributes ad items).length ≤ 255

/-- **The element reads back**: whatever the outputs hold, and whichever are asked for, each comes to
the value that was put in, and the list of the channels to the adapter's. -/
def P2pElement.ReadsBack (e : P2pElement ad) : Prop :=
  ∀ (bBeacon : Bool) (s : SubElmt), s.channelListLeft = Fin.last maxNumOfChannels →
    ∃ left, p2pParseSubElmt (p2pElement ad e.items) bBeacon s =
      .ok { e.items.foldl (Item.put ad) s with channelListLeft := left }

theorem readsBack_of_oneClass (e : P2pElement ad) (hne : e.items ≠ [])
    (hone : .channelList ∈ e.items.map Item.subId → OneClass ad.channelList.1) : e.ReadsBack := by
  intro bBeacon s hleft
  obtain ⟨item, items, heq⟩ := List.exists_cons_of_ne_nil hne
  have hfits := e.fits
  have hdistinct := e.distinct
  rw [heq] at hfits hdistinct hone ⊢
  obtain ⟨left, hparse⟩ := p2pParseSubElmt_element item items hfits hdistinct bBeacon s hleft
  refine ⟨left, ?_⟩
  rw [hparse]
  have hput : ∀ (l : List Item) (s : SubElmt),
      (.channelList ∈ l.map Item.subId → OneClass ad.channelList.1) →
      l.foldl (Item.putWith ad (firstRun ad.channelList.1)) s = l.foldl (Item.put ad) s := by
    intro l
    induction l with
    | nil => exact fun s _ => rfl
    | cons i l ih =>
      intro s h
      rw [List.foldl_cons, List.foldl_cons]
      have hi : i.putWith ad (firstRun ad.channelList.1) s = i.put ad s := by
        by_cases hid : i.subId = .channelList
        · rw [firstRun_eq_self_iff.mpr (h (by rw [List.map_cons, hid]; exact List.mem_cons_self))]
          rfl
        · cases i <;> first | rfl | exact absurd rfl hid
      rw [hi]
      exact ih _ fun hmem => h (List.mem_cons_of_mem _ hmem)
  rw [hput _ s hone]

theorem not_readsBack_of_classes (e : P2pElement ad) (hmem : .channelList ∈ e.items.map Item.subId)
    (hclasses : ¬ OneClass ad.channelList.1) : ¬ e.ReadsBack := by
  intro hback
  obtain ⟨rest, hrest⟩ := firstRun_sublist ad.channelList.1
  have hcut : rest ≠ [] := by
    intro hnil
    rw [hnil, List.append_nil] at hrest
    exact hclasses (firstRun_eq_self_iff.mp hrest.symm)
  have hlen : (firstRun ad.channelList.1 ++ rest).length ≤ maxNumOfChannels := by
    rw [← hrest]
    exact ad.channelList.2
  obtain ⟨dst, hdst⟩ := exists_write_ne hcut hlen
  obtain ⟨left, hput⟩ := hback false (onlyChannels dst) rfl
  have hne : e.items ≠ [] := by
    intro hnil
    rw [hnil] at hmem
    exact nomatch hmem
  obtain ⟨item, items, heq⟩ := List.exists_cons_of_ne_nil hne
  have hfits := e.fits
  have hdistinct := e.distinct
  rw [heq] at hfits hdistinct hmem hput
  obtain ⟨left', hparse⟩ := p2pParseSubElmt_element item items hfits hdistinct false
    (onlyChannels dst) rfl
  rw [hparse] at hput
  have hlist := congrArg SubElmt.channelList (Except.ok.inj hput)
  have hfolds (channels : List UInt8) :
      ((item :: items).foldl (Item.putWith ad channels) (onlyChannels dst)).channelList =
        (onlyChannels dst).channelList.map fun dst =>
          .ofList _ (Mem.write dst.toList 0 channels) :=
    foldl_channelList_of_mem channels hdistinct hmem (onlyChannels dst)
  have hread := hfolds (firstRun ad.channelList.1)
  have hwrote := hfolds ad.channelList.1
  have hfold : (item :: items).foldl (Item.put ad) (onlyChannels dst) =
      (item :: items).foldl (Item.putWith ad ad.channelList.1) (onlyChannels dst) := rfl
  rw [hfold] at hlist
  have hsame : Octets.ofList maxNumOfChannels (Mem.write dst.toList 0 (firstRun ad.channelList.1)) =
      .ofList maxNumOfChannels (Mem.write dst.toList 0 ad.channelList.1) := by
    have hsome := hread.symm.trans (hlist.trans hwrote)
    exact Option.some.inj hsome
  rw [← hrest] at hdst
  exact hdst hsame

/-- **An element reads back exactly if there is an attribute in it and, where the channels are among
them, all of them are of one regulatory class.** -/
theorem readsBack_iff (ad : P2pSource) (e : P2pElement ad) :
    e.ReadsBack ↔
      e.items ≠ [] ∧ (.channelList ∈ e.items.map Item.subId → OneClass ad.channelList.1) := by
  refine ⟨fun hback => ⟨?_, ?_⟩, fun h => readsBack_of_oneClass e h.1 h.2⟩
  · intro hnil
    obtain ⟨left, hparse⟩ := hback false (onlyChannels (.zero _)) rfl
    rw [hnil, p2pParseSubElmt_nil] at hparse
    exact nomatch hparse
  · intro hmem
    by_contra hclasses
    exact not_readsBack_of_classes e hmem hclasses hback

namespace Example

/-- A dual-band adapter: channel 6 and channel 36. -/
def dualBand : P2pSource where
  countryCode := .zero 2
  channelList := ⟨[6, 36], by decide⟩
  configMethod := 0
  priDeviceType := .zero 8
  secDevTypList := []
  deviceName := ⟨[], by decide⟩

/-- An element with the list of its channels only. -/
def channelsOnly : P2pElement dualBand where
  items := [.channelList 6]
  distinct := by decide
  fits := by decide

end Example

/-- Channel 36 is lost. -/
theorem not_readsBack_dualBand : ¬ Example.channelsOnly.ReadsBack :=
  not_readsBack_of_classes Example.channelsOnly (by decide) fun hone =>
    absurd (hone 6 (by decide) 36 (by decide)) (by decide)

end Mt7601.P2p
