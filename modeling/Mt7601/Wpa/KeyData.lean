/-
# What the key data parser finds in the key data the builder writes

`ConstructEapolKeyData` writes an element, a key and padding; `RTMPParseEapolKeyData` walks over
them from their first octet. The walk is taken apart here: one lemma for an element it passes over,
one for the group key, one for the padding, and one for the octets behind it, which the walk looks
at as long as an element's header seems to fit.
-/
import Mt7601.Wpa.Sanity

namespace Mt7601.Wpa

variable {keyData : List UInt8} {keyDataLength skip : Nat} {found : GtkFound}

/-! ## 1. Steps of the walk -/

theorem getD_of_drop {l m : List UInt8} {n : Nat} (h : l.drop n = m) (i : Nat) :
    l.getD (n + i) 0 = m.getD i 0 := by
  rw [← h]
  simp [List.getD_eq_getElem?_getD]

theorem read_of_drop {l m : List UInt8} {n : Nat} (h : l.drop n = m) (i k : Nat) :
    Mem.read l (n + i) k = Mem.read m i k := by
  rw [Mem.read, Mem.read, ← h, List.drop_drop]

/-- The walk ends where not even a header fits. -/
theorem parseKde_end (h : keyDataLength < skip + 2) :
    parseKde keyData keyDataLength skip found = some found := by
  rw [parseKde, if_neg]
  omega

/-- It ends where an element is longer than what is left. -/
theorem parseKde_tooLong (h : keyDataLength < skip + 2 + (keyData.getD (skip + 1) 0).toNat) :
    parseKde keyData keyDataLength skip found = some found := by
  rw [parseKde, if_neg]
  omega

/-- It passes over an element that is not a group key. -/
theorem parseKde_pass
    (h : skip + 2 + (keyData.getD (skip + 1) 0).toNat ≤ keyDataLength)
    (hkde : ¬ (keyData.getD skip 0 = wpaKdeType ∧ Mem.read keyData (skip + 2) 3 = ouiWpa2)) :
    parseKde keyData keyDataLength skip found =
      parseKde keyData keyDataLength (skip + 2 + (keyData.getD (skip + 1) 0).toNat) found := by
  rw [parseKde, if_pos h, if_neg]
  exact fun hgtk => hkde ⟨hgtk.1, hgtk.2.1⟩

/-- An information element is passed over as a whole. -/
theorem parseKde_element {eid : UInt8} {body rest : List UInt8}
    (hdrop : keyData.drop skip = eid :: UInt8.ofNat body.length :: (body ++ rest))
    (hbody : body.length ≤ 255) (heid : eid ≠ wpaKdeType)
    (h : skip + 2 + body.length ≤ keyDataLength) :
    parseKde keyData keyDataLength skip found =
      parseKde keyData keyDataLength (skip + 2 + body.length) found := by
  have hid : keyData.getD skip 0 = eid := getD_of_drop hdrop 0
  have hlen : (keyData.getD (skip + 1) 0).toNat = body.length := by
    rw [getD_of_drop hdrop 1]
    simpa using Nat.mod_eq_of_lt (Nat.lt_succ_of_le hbody)
  rw [parseKde_pass (by rwa [hlen]) fun hkde => heid (hid.symm.trans hkde.1), hlen]

/-- **The group key is taken from its element.** -/
theorem parseKde_gtk {idx : UInt8} {gtk rest : List UInt8}
    (hdrop : keyData.drop skip =
      wpaConstructKdeHdr kdeGtk (2 + gtk.length) ++ [idx, 0] ++ (gtk ++ rest))
    (hshort : lenWep64 ≤ gtk.length) (hlong : gtk.length < 250)
    (h : skip + 8 + gtk.length ≤ keyDataLength) :
    parseKde keyData keyDataLength skip found =
      parseKde keyData keyDataLength (skip + 8 + gtk.length)
        ⟨gtk, gtk.length, idx.toNat % 4⟩ := by
  have hid : keyData.getD skip 0 = wpaKdeType := getD_of_drop hdrop 0
  have hlen : (keyData.getD (skip + 1) 0).toNat = 6 + gtk.length := by
    rw [getD_of_drop hdrop 1]
    simp only [wpaConstructKdeHdr, List.cons_append, List.getD_cons_succ, List.getD_cons_zero,
      UInt8.toNat_ofNat']
    omega
  have hoct : Mem.read keyData (skip + 2) 3 = ouiWpa2 := read_of_drop hdrop 2 3
  have htype : keyData.getD (skip + 5) 0 = kdeGtk := getD_of_drop hdrop 5
  have hidx : keyData.getD (skip + 6) 0 = idx := getD_of_drop hdrop 6
  have hgtk : Mem.read keyData (skip + 8) gtk.length = gtk := by
    rw [read_of_drop hdrop 8]
    exact Mem.read_zero_of_append
  have hwrap : (6 + gtk.length + 256 - 6) % 256 = gtk.length := by omega
  rw [parseKde]
  simp only [hid, hlen, hoct, htype, hidx, hwrap, hgtk, and_self, if_true]
  rw [if_pos (by omega), if_neg (by omega), show skip + 2 + (6 + gtk.length) = skip + 8 + gtk.length
    by omega]

/-- **Zeros are passed over**, two at a time, to the end. -/
theorem parseKde_zeros {skip : Nat}
    (hzero : ∀ i, skip ≤ i → i ≤ keyDataLength → keyData.getD i 0 = 0) :
    parseKde keyData keyDataLength skip found = some found := by
  by_cases h : skip + 2 ≤ keyDataLength
  · have hid : keyData.getD skip 0 = 0 := hzero skip (Nat.le_refl _) (by omega)
    have hlen : keyData.getD (skip + 1) 0 = 0 := hzero (skip + 1) (by omega) (by omega)
    have hkde : ¬ (keyData.getD skip 0 = wpaKdeType ∧ Mem.read keyData (skip + 2) 3 = ouiWpa2) := by
      rintro ⟨hde, -⟩
      exact absurd (hid.symm.trans hde) (by decide)
    rw [parseKde_pass (by rwa [hlen]) hkde, hlen]
    exact parseKde_zeros fun i hi => hzero i (by simp at hi; omega)
  · exact parseKde_end (by omega)
termination_by keyDataLength - skip

/-- **The padding is passed over**, whatever its first octet: what follows it is zero, also behind
the end, where the parser looks for an identifier. -/
theorem parseKde_padding
    (hzero : ∀ i, skip < i → i ≤ keyDataLength + 1 → keyData.getD i 0 = 0) :
    parseKde keyData keyDataLength skip found = some found := by
  by_cases h : skip + 2 ≤ keyDataLength
  · have hlen : keyData.getD (skip + 1) 0 = 0 := hzero (skip + 1) (by omega) (by omega)
    have hoct : Mem.read keyData (skip + 2) 3 ≠ ouiWpa2 := by
      intro hoct
      have hsecond := Mem.getD_read keyData (skip + 2) (by decide : 1 < 3)
      rw [hoct, hzero (skip + 2 + 1) (by omega) (by omega)] at hsecond
      exact absurd hsecond (by decide)
    rw [parseKde_pass (by rwa [hlen]) fun hkde => hoct hkde.2, hlen]
    exact parseKde_zeros fun i hi hle => hzero i (by simp at hi; omega) (by omega)
  · exact parseKde_end (by omega)

/-! ## 2. What the builder wrote -/

/-- The key data before it is enciphered, with its padding where the cipher needs it. -/
def paddedKeyData (keyDescVer : BitVec 3) (keyData : List UInt8) : List UInt8 :=
  if keyDescVer = keyDescAes then padKeyData keyData else keyData

/-- The body of an RSN element, as `RSN_IE` holds it for WPA2: its length is an octet, and
`RTMPInsertRSNIE` tells it by its group suite. -/
structure RsnIe where
  octets : List UInt8
  length_le : octets.length ≤ 255
  suite : Mem.read octets 2 3 = ouiWpa2

theorem RsnIe.ne_nil (rsnie : RsnIe) : rsnie.octets.length ≠ 0 := by
  intro h
  have hnil := List.length_eq_zero_iff.1 h
  have hsuite := rsnie.suite
  rw [hnil] at hsuite
  exact absurd hsuite (by decide)

theorem rtmpInsertRsnie_eq (rsnie : RsnIe) :
    rtmpInsertRsnie rsnie.octets =
      ieRsn :: UInt8.ofNat rsnie.octets.length :: rsnie.octets := by
  rw [rtmpInsertRsnie, if_pos rsnie.ne_nil, if_pos rsnie.suite]
  rfl

/-- The element in front of the key, if the message has one. -/
def elementOf (msgType : MsgType) (rsnie : RsnIe) : List UInt8 :=
  if msgType = .pairMsg3 then rtmpInsertRsnie rsnie.octets else []

/-- The group key a frame carries. -/
def gtkOf (groupKeyWepStatus : WepStatus) (gtk : Octets 32) : List UInt8 :=
  gtk.toList.take (gtkLenOf groupKeyWepStatus)

theorem gtkLenOf_cases (groupKeyWepStatus : WepStatus) :
    gtkLenOf groupKeyWepStatus = 16 ∨ gtkLenOf groupKeyWepStatus = 32 := by
  rw [gtkLenOf]
  split
  · exact .inl rfl
  · exact .inr rfl

@[simp] theorem length_gtkOf (groupKeyWepStatus : WepStatus) (gtk : Octets 32) :
    (gtkOf groupKeyWepStatus gtk).length = gtkLenOf groupKeyWepStatus := by
  have h := gtkLenOf_cases groupKeyWepStatus
  simp only [gtkOf, List.length_take, List.Vector.toList_length]
  omega

section

variable {bWPA2 : Bool} {groupKeyWepStatus : WepStatus} {msgType : MsgType} {defaultKeyIdx : UInt8}
  {gtk : Octets 32} {rsnie : RsnIe} {keyDescVer : BitVec 3} {heap : List UInt8}

theorem plainKeyData_wpa2 (hmsg : gtkIncluded true msgType) :
    plainKeyData true groupKeyWepStatus msgType defaultKeyIdx gtk rsnie.octets =
      elementOf msgType rsnie ++
        (wpaConstructKdeHdr kdeGtk (2 + (gtkOf groupKeyWepStatus gtk).length) ++
          [defaultKeyIdx &&& 0x03, 0] ++ gtkOf groupKeyWepStatus gtk) := by
  have hne : msgType ≠ .pairMsg2 := by
    rintro rfl
    exact absurd hmsg (by decide)
  rw [length_gtkOf]
  simp [plainKeyData, hmsg, hne, elementOf, gtkOf]

theorem plainKeyData_wpa1 (hmsg : gtkIncluded false msgType) :
    plainKeyData false groupKeyWepStatus msgType defaultKeyIdx gtk rsnie.octets =
      gtkOf groupKeyWepStatus gtk := by
  have hgroup : msgType = .groupMsg1 := by simpa [gtkIncluded] using hmsg
  subst hgroup
  simp [plainKeyData, gtkIncluded, gtkOf]

/-! ## 3. The buffer it is parsed in -/

theorem write_zero (mem l : List UInt8) : Mem.write mem 0 l = l ++ mem.drop l.length := by
  simp [Mem.write]

/-- The octets of the buffer that nothing was written to are zero. -/
theorem getD_buffer {text : List UInt8} {i : Nat} (htext : text.length ≤ i)
    (hi : i < maxLenOfRsnie) :
    (Mem.write (List.replicate maxLenOfRsnie 0 ++ heap) 0 text).getD i 0 = 0 := by
  rw [write_zero, List.getD_eq_getElem?_getD, List.getElem?_append_right htext, List.getElem?_drop,
    List.getElem?_append_left (by simp; omega)]
  rw [List.getElem?_replicate_of_lt (by omega)]
  rfl

/-- The element is passed over. -/
theorem parseKde_elementOf {rest : List UInt8}
    (hkeyData : keyData = elementOf msgType rsnie ++ rest)
    (h : (elementOf msgType rsnie).length ≤ keyDataLength) :
    parseKde keyData keyDataLength 0 found =
      parseKde keyData keyDataLength (elementOf msgType rsnie).length found := by
  by_cases hmsg : msgType = .pairMsg3
  · have hel : elementOf msgType rsnie = ieRsn :: UInt8.ofNat rsnie.octets.length :: rsnie.octets := by
      rw [elementOf, if_pos hmsg, rtmpInsertRsnie_eq]
    have hlen : (elementOf msgType rsnie).length = 0 + 2 + rsnie.octets.length := by
      rw [hel]
      simp only [List.length_cons]
      omega
    rw [hlen] at h ⊢
    have hdrop : keyData.drop 0 =
        ieRsn :: UInt8.ofNat rsnie.octets.length :: (rsnie.octets ++ rest) := by
      rw [hkeyData, hel]
      rfl
    exact parseKde_element hdrop rsnie.length_le (by decide) h
  · rw [elementOf, if_neg hmsg]
    rfl

/-- Behind the plain key data there is nothing, or the octet 0xDD and zeros. -/
theorem parseKde_behind {plain : List UInt8}
    (hfit : (paddedKeyData keyDescVer plain).length ≤ maxLenOfRsnie) :
    parseKde (Mem.write (List.replicate maxLenOfRsnie 0 ++ heap) 0 (paddedKeyData keyDescVer plain))
      (paddedKeyData keyDescVer plain).length plain.length found = some found := by
  by_cases hpad : keyDescVer = keyDescAes ∧ plain.length % 8 ≠ 0
  · have htext : paddedKeyData keyDescVer plain =
        plain ++ 0xDD :: List.replicate (8 - plain.length % 8 - 1) 0 := by
      rw [paddedKeyData, if_pos hpad.1, padKeyData, if_pos hpad.2]
    have hlen : (paddedKeyData keyDescVer plain).length =
        plain.length + (8 - plain.length % 8 - 1) + 1 := by
      rw [htext]
      simp only [List.length_append, List.length_cons, List.length_replicate]
      omega
    have hmax : maxLenOfRsnie = 255 := rfl
    refine parseKde_padding fun i hlt hle => ?_
    by_cases hi : (paddedKeyData keyDescVer plain).length ≤ i
    · exact getD_buffer hi (by omega)
    · rw [write_zero, htext, List.append_assoc, List.getD_eq_getElem?_getD,
        List.getElem?_append_right (by omega), List.cons_append,
        show i - plain.length = (i - plain.length - 1) + 1 by omega, List.getElem?_cons_succ,
        List.getElem?_append_left (by simp; omega), List.getElem?_replicate_of_lt (by omega)]
      rfl
  · have htext : paddedKeyData keyDescVer plain = plain := by
      rw [paddedKeyData]
      split
      · rename_i hver
        rw [padKeyData, if_neg fun hne => hpad ⟨hver, hne⟩]
      · rfl
    rw [htext]
    exact parseKde_end (by omega)

theorem length_le_paddedKeyData (keyDescVer : BitVec 3) (plain : List UInt8) :
    plain.length ≤ (paddedKeyData keyDescVer plain).length ∧
      (paddedKeyData keyDescVer plain).length ≤ plain.length + 7 := by
  rw [paddedKeyData]
  split
  · rw [padKeyData]
    split
    · simp only [List.length_append, List.length_cons, List.length_replicate]
      omega
    · omega
  · omega

theorem paddedKeyData_eq_append (keyDescVer : BitVec 3) (plain : List UInt8) :
    ∃ padding, paddedKeyData keyDescVer plain = plain ++ padding := by
  rw [paddedKeyData]
  split
  · rw [padKeyData]
    split
    · exact ⟨_, rfl⟩
    · exact ⟨[], (List.append_nil _).symm⟩
  · exact ⟨[], (List.append_nil _).symm⟩

variable (heap) in
/-- **The parser finds the key the builder wrote**, if the key data fits the buffer. -/
theorem gtkOfKeyData_paddedKeyData (hmsg : gtkIncluded bWPA2 msgType) (hidx : defaultKeyIdx < 4)
    {plain : List UInt8}
    (hplain : plain = plainKeyData bWPA2 groupKeyWepStatus msgType defaultKeyIdx gtk rsnie.octets)
    (hfit : (paddedKeyData keyDescVer plain).length ≤ maxLenOfRsnie) {groupKeyIndex : Nat}
    (hindex : bWPA2 = false → groupKeyIndex = defaultKeyIdx.toNat) :
    gtkOfKeyData
        (Mem.write (List.replicate maxLenOfRsnie 0 ++ heap) 0 (paddedKeyData keyDescVer plain))
        (paddedKeyData keyDescVer plain).length groupKeyIndex bWPA2 =
      some ⟨gtkOf groupKeyWepStatus gtk, gtkLenOf groupKeyWepStatus, defaultKeyIdx.toNat⟩ := by
  have hgtk := gtkLenOf_cases groupKeyWepStatus
  have hlen64 : lenWep64 = 5 := rfl
  have hle := (length_le_paddedKeyData keyDescVer plain).1
  have hstart : ∃ rest, Mem.write (List.replicate maxLenOfRsnie 0 ++ heap) 0
      (paddedKeyData keyDescVer plain) = plain ++ rest := by
    obtain ⟨padding, hpad⟩ := paddedKeyData_eq_append keyDescVer plain
    exact ⟨_, by rw [write_zero, hpad, List.append_assoc]⟩
  obtain ⟨rest, hstart⟩ := hstart
  cases bWPA2 with
  | false =>
    rw [plainKeyData_wpa1 hmsg] at hplain
    have htext : paddedKeyData keyDescVer plain = plain := by
      rw [paddedKeyData, padKeyData, if_neg (c := plain.length % 8 ≠ 0), ite_self]
      rw [hplain, length_gtkOf]
      omega
    rw [htext] at hstart ⊢
    rw [gtkOfKeyData, if_neg (by decide), hstart, Mem.read_zero_of_append, hplain, length_gtkOf,
      hindex rfl]
  | true =>
    rw [plainKeyData_wpa2 hmsg] at hplain
    have hidx4 : (defaultKeyIdx &&& 0x03).toNat % 4 = defaultKeyIdx.toNat := by
      have hlt : defaultKeyIdx.toNat < 4 := hidx
      rw [UInt8.toNat_and, show (0x03 : UInt8).toNat = 2 ^ 2 - 1 from rfl,
        Nat.and_two_pow_sub_one_eq_mod]
      omega
    have hmem : Mem.write (List.replicate maxLenOfRsnie 0 ++ heap) 0
        (paddedKeyData keyDescVer plain) = elementOf msgType rsnie ++
          (wpaConstructKdeHdr kdeGtk (2 + (gtkOf groupKeyWepStatus gtk).length) ++
            [defaultKeyIdx &&& 0x03, 0] ++ (gtkOf groupKeyWepStatus gtk ++ rest)) := by
      rw [hstart, hplain]
      simp only [List.append_assoc]
    have hplainLen : plain.length =
        (elementOf msgType rsnie).length + 8 + (gtkOf groupKeyWepStatus gtk).length := by
      rw [hplain]
      simp [wpaConstructKdeHdr, ouiWpa2]
      omega
    rw [gtkOfKeyData, if_pos rfl, parseKde_elementOf hmem (by omega),
      parseKde_gtk (by rw [hmem, List.drop_left]) (by rw [length_gtkOf]; omega)
        (by rw [length_gtkOf]; omega) (by omega),
      ← hplainLen, parseKde_behind hfit, hidx4, length_gtkOf]

/-- **It finds nothing in key data that is longer.** The length it is told is an octet, and what is
left of it ends within the element in front of the key. -/
theorem gtkOfKeyData_tooLong (hmsg : gtkIncluded bWPA2 msgType) {plain : List UInt8}
    (hplain : plain = plainKeyData bWPA2 groupKeyWepStatus msgType defaultKeyIdx gtk rsnie.octets)
    (hlong : maxLenOfRsnie < (paddedKeyData keyDescVer plain).length) {groupKeyIndex : Nat} :
    gtkOfKeyData
        (Mem.write (List.replicate maxLenOfRsnie 0 ++ heap) 0 (paddedKeyData keyDescVer plain))
        ((paddedKeyData keyDescVer plain).length % 256) groupKeyIndex bWPA2 = some {} := by
  have hgtk := gtkLenOf_cases groupKeyWepStatus
  have hmax : maxLenOfRsnie = 255 := rfl
  obtain ⟨-, hle⟩ := length_le_paddedKeyData keyDescVer plain
  cases bWPA2 with
  | false =>
    rw [plainKeyData_wpa1 hmsg] at hplain
    have hplainLen : plain.length = gtkLenOf groupKeyWepStatus := by rw [hplain, length_gtkOf]
    omega
  | true =>
    rw [plainKeyData_wpa2 hmsg] at hplain
    have hplainLen : plain.length =
        (elementOf msgType rsnie).length + 8 + (gtkOf groupKeyWepStatus gtk).length := by
      rw [hplain]
      simp [wpaConstructKdeHdr, ouiWpa2]
      omega
    rw [length_gtkOf] at hplainLen
    have hrsnie := rsnie.length_le
    by_cases hmsg3 : msgType = .pairMsg3
    · obtain ⟨padding, hpad⟩ := paddedKeyData_eq_append keyDescVer plain
      have hel : elementOf msgType rsnie =
          ieRsn :: UInt8.ofNat rsnie.octets.length :: rsnie.octets := by
        rw [elementOf, if_pos hmsg3, rtmpInsertRsnie_eq]
      have hlen : (elementOf msgType rsnie).length = rsnie.octets.length + 2 := by
        rw [hel]
        rfl
      have hstated : (Mem.write (List.replicate maxLenOfRsnie 0 ++ heap) 0
          (paddedKeyData keyDescVer plain)).getD (0 + 1) 0 = UInt8.ofNat rsnie.octets.length := by
        rw [write_zero, hpad, hplain, hel]
        rfl
      rw [gtkOfKeyData, if_pos rfl, parseKde_tooLong]
      rw [hstated, UInt8.toNat_ofNat', Nat.mod_eq_of_lt (Nat.lt_succ_of_le hrsnie)]
      omega
    · rw [elementOf, if_neg hmsg3, List.length_nil] at hplainLen
      omega

end

end Mt7601.Wpa
