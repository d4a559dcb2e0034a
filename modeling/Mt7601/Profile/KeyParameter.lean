/-
# Reading a parameter of the profile

The profile is a text of lines `key=value`; its parameters are read behind the first place of the
word `Default`. `RTMPGetKeyParameter` gives the value of the first line of a key, and
`RTMPGetKeyParameterWithOffset`, called again from the offset it returned, those of all of them.

`keyParameter_iff` and `withOffset_iff` are the conditions under which they do: the value must be
shorter than the destination (one as long is cut without a terminator), it must not end in blanks
(which only the front is stripped of), the line must fit a working buffer, and the offsets must be
below the size of the profile's buffer.
-/
import Mathlib.Algebra.Group.Nat.Defs
import Mathlib.Data.List.DropRight
import Mt7601.Lib.Checked
import Mt7601.Lib.TextLines

namespace Mt7601.Profile

open Checked TextLines

/-! ## 1. The functions -/

/-- A C string: the octets before its terminator. -/
structure CString where
  octets : List UInt8
  noNul : 0 ∉ octets

def maxIniBufferSize : Nat := 4096

def maxParamBufferSize : Nat := 2048

/-- `\n`. -/
def lineFeed : UInt8 := 10

/-- `=`. -/
def equals : UInt8 := 61

/-- `Default`. -/
def sectionName : List UInt8 := [68, 101, 102, 97, 117, 108, 116]

/-- The loop of `rtstrstr`, while the text is as long as the pattern `s2`. -/
def rtstrstrLoop (s2 : List UInt8) : List UInt8 → Option (List UInt8)
  | [] => none
  | c :: s1 =>
    if s2.length ≤ s1.length + 1 then
      if (c :: s1).take s2.length = s2 then some (c :: s1) else rtstrstrLoop s2 s1
    else none

/-- A pointer into a text is the text from there on. -/
def rtstrstr (s1 s2 : List UInt8) : Option (List UInt8) :=
  if s2.length = 0 then some s1 else rtstrstrLoop s2 s1

def rtmpFindSection (buffer : List UInt8) : Option (List UInt8) :=
  match rtstrstr buffer sectionName with
  | some ptr => some (ptr.drop 1)
  | none => none

/-- The octets trimmed: tabs, and spaces when asked for. -/
def isBlank (bTrimSpace : Bool) (c : UInt8) : Bool := (c == 32 && bTrimSpace) || c == 9

/-- `strncpy` of at most `n` octets of the string `s` into `destsize` octets that are zero. -/
def strncpy (destsize : Nat) (s : List UInt8) (n : Nat) : Checked (List UInt8) := do
  access destsize 0 n
  .ok (s.take n ++ List.replicate (n - s.length) 0 ++ List.replicate (destsize - n) 0)

/-- `pMemBuf` says whether there is memory for the two working buffers, which are one piece; the
result is the destination, or nothing for `FALSE`. -/
def rtmpGetKeyParameter (pMemBuf : Bool) (key : CString) (destsize : Nat) (buffer : CString)
    (bTrimSpace : Bool) : Checked (Option (List UInt8)) :=
  if pMemBuf = false then .ok none
  else
    match rtmpFindSection buffer.octets with
    | none => .ok none
    | some offset => do
      let temp_buf1 := lineFeed :: (key.octets ++ [equals])
      access (maxParamBufferSize * 2) 0 (temp_buf1.length + 1)
      match rtstrstr offset temp_buf1 with
      | none => .ok none
      | some found => do
        let start_ptr := found.drop 1
        let end_ptr := (rtstrstr start_ptr [lineFeed]).getD []
        let temp_buf2 := start_ptr.take (start_ptr.length - end_ptr.length)
        access (maxParamBufferSize * 2) maxParamBufferSize (temp_buf2.length + 1)
        match rtstrstr temp_buf2 [equals] with
        | none => .ok none
        | some start_ptr => do
          let ptr := (start_ptr.drop 1).dropWhile (isBlank bTrimSpace)
          -- the length is taken at the `=`, one before the value
          let len := start_ptr.length
          let dest ← strncpy destsize ptr (if destsize ≤ len then destsize else len)
          .ok (some dest)

/-- The offset goes in and comes out; the working buffers are two pieces. -/
def rtmpGetKeyParameterWithOffset (mem1 mem2 : Bool) (key : CString) (end_offset : UInt16)
    (destsize : Nat) (buffer : CString) (bTrimSpace : Bool) :
    Checked (UInt16 × Option (List UInt8)) :=
  if maxIniBufferSize ≤ end_offset.toNat then .ok (end_offset, none)
  else if mem1 = false then .ok (end_offset, none)
  else if mem2 = false then .ok (end_offset, none)
  else do
    -- the text is read from the offset on, its terminator at least
    access (buffer.octets.length + 1) end_offset.toNat 1
    match if end_offset = 0 then rtmpFindSection buffer.octets
        else some (buffer.octets.drop end_offset.toNat) with
    | none => .ok (end_offset, none)
    | some offset => do
      let temp_buf1 := lineFeed :: (key.octets ++ [equals])
      access maxParamBufferSize 0 (temp_buf1.length + 1)
      match rtstrstr offset temp_buf1 with
      | none => .ok (end_offset, none)
      | some found => do
        let start_ptr := found.drop 1
        let end_ptr := (rtstrstr start_ptr [lineFeed]).getD []
        let end_offset := (buffer.octets.length - end_ptr.length).toUInt16
        let temp_buf2 := start_ptr.take (start_ptr.length - end_ptr.length)
        access maxParamBufferSize 0 (temp_buf2.length + 1)
        let temp_buf1 := temp_buf2
        access maxParamBufferSize 0 (temp_buf1.length + 1)
        match rtstrstr temp_buf1 [equals] with
        | none => .ok (end_offset, none)
        | some start_ptr => do
          let temp_buf2 := start_ptr.drop 1
          access maxParamBufferSize 0 (temp_buf2.length + 1)
          let ptr := temp_buf2.dropWhile (isBlank bTrimSpace)
          let len := ptr.length
          let dest ← strncpy destsize ptr (if destsize ≤ len then destsize else len)
          .ok (end_offset, some dest)

/-! ## 2. What they are for -/

section

variable (key buffer : CString)

/-- The lines of a key behind a place of the text, each with what follows it. -/
def keyLines (s : List UInt8) : List (List UInt8 × List UInt8) :=
  linesWith lineFeed (key.octets ++ [equals]) s

/-- The lines of a key behind the section header. -/
def profileLines : List (List UInt8 × List UInt8) :=
  match search sectionName buffer.octets with
  | none => []
  | some s => keyLines key s

def valueOf (line : List UInt8) : List UInt8 := line.drop (key.octets.length + 1)

/-- Without the blanks in front and behind. -/
def trimmed (bTrimSpace : Bool) (value : List UInt8) : List UInt8 :=
  (value.dropWhile (isBlank bTrimSpace)).rdropWhile (isBlank bTrimSpace)

/-- The destination holds the value, cut to its size minus one and terminated. -/
def Holds (dest : List UInt8) (destsize : Nat) (value : List UInt8) : Prop :=
  dest.length = destsize ∧ value.take (destsize - 1) ++ [0] <+: dest

/-- The value of the first line of the key is read, and nothing when there is none. -/
def KeyMeets (pMemBuf : Bool) (destsize : Nat) (bTrimSpace : Bool) : Prop :=
  match profileLines key buffer with
  | [] => rtmpGetKeyParameter pMemBuf key destsize buffer bTrimSpace = .ok none
  | l :: _ =>
    ∃ dest, rtmpGetKeyParameter pMemBuf key destsize buffer bTrimSpace = .ok (some dest) ∧
      Holds dest destsize (trimmed bTrimSpace (valueOf key l.1))

/-- One call of the function with an offset: what memory there is, and its arguments. -/
structure Call where
  mem1 : Bool
  mem2 : Bool
  destsize : Nat
  bTrimSpace : Bool

def Call.run (c : Call) (end_offset : UInt16) : Checked (UInt16 × Option (List UInt8)) :=
  rtmpGetKeyParameterWithOffset c.mem1 c.mem2 key end_offset c.destsize buffer c.bTrimSpace

/-- Calls one after the other, each from the offset the one before returned, read the lines one
after the other, and the one after the last line nothing. The offset returned is the line's end. -/
def CallsMeet : List (List UInt8 × List UInt8) → UInt16 → List Call → Prop
  | _, _, [] => True
  | [], off, c :: _ => ∃ off', c.run key buffer off = .ok (off', none)
  | l :: ls, off, c :: cs =>
    ∃ off' dest, c.run key buffer off = .ok (off', some dest) ∧
      off'.toNat = buffer.octets.length - l.2.length ∧
      Holds dest c.destsize (trimmed c.bTrimSpace (valueOf key l.1)) ∧
      CallsMeet ls off' cs

/-! ## 3. When they do it -/

/-- A text the key is searched in: the pattern fits a working buffer of `size` octets, and where it
is found the key's first line (all of it, but for a key of several lines) has no `=` of its own
and fits as well. -/
structure KeyFits (size : Nat) (s : List UInt8) : Prop where
  short : key.octets.length + 3 ≤ size
  plain : (search (lineFeed :: (key.octets ++ [equals])) s).isSome →
    equals ∉ lineOf lineFeed key.octets ∧
      (lineOf lineFeed key.octets).length < maxParamBufferSize

/-- A line that a working buffer has room for, whose value the destination has room for and does
not end in a blank. -/
structure LineFits (line : List UInt8) (destsize : Nat) (bTrimSpace : Bool) : Prop where
  short : line.length < maxParamBufferSize
  room : ((valueOf key line).dropWhile (isBlank bTrimSpace)).length < destsize
  noBlank : ∀ c ∈ ((valueOf key line).dropWhile (isBlank bTrimSpace)).getLast?,
    isBlank bTrimSpace c = false

/-- What the first reading needs: of the key, when there is memory, and of the first line. -/
def Fits (pMemBuf : Bool) (destsize : Nat) (bTrimSpace : Bool) : Prop :=
  (pMemBuf = true →
      ∀ s ∈ search sectionName buffer.octets, KeyFits key (maxParamBufferSize * 2) s) ∧
    ∀ l ∈ (profileLines key buffer).head?, pMemBuf = true ∧ LineFits key l.1 destsize bTrimSpace

/-- What the calls need of the lines they read from the offset `off` on. -/
def LinesFit : List (List UInt8 × List UInt8) → Nat → List Call → Prop
  | _, _, [] => True
  | [], _, _ :: _ => True
  | l :: ls, off, c :: cs =>
    off < maxIniBufferSize ∧ c.mem1 = true ∧ c.mem2 = true ∧
      buffer.octets.length - l.2.length < 2 ^ 16 ∧ LineFits key l.1 c.destsize c.bTrimSpace ∧
      LinesFit ls (buffer.octets.length - l.2.length) cs

def CallsFit (calls : List Call) : Prop :=
  (∀ c ∈ calls.head?, c.mem1 = true → c.mem2 = true →
      ∀ s ∈ search sectionName buffer.octets, KeyFits key maxParamBufferSize s) ∧
    LinesFit key buffer (profileLines key buffer) 0 calls

end

/-! ## 4. Searching -/

section

variable {key buffer : CString} {destsize n : Nat} {bTrimSpace : Bool} {s t line : List UInt8}
  {off : UInt16}

theorem search_of_length (h : s.length < t.length) : search t s = none := by
  cases hs : search t s with
  | none => rfl
  | some r =>
    obtain ⟨hp, hr⟩ := search_some hs
    have hlp := hp.length_le
    have hlr := hr.length_le
    omega

theorem rtstrstrLoop_eq (h : t ≠ []) (s : List UInt8) : rtstrstrLoop t s = search t s := by
  induction s with
  | nil => rw [rtstrstrLoop, search, if_neg fun hp => h (List.prefix_nil.mp hp)]
  | cons c s ih =>
    rw [rtstrstrLoop]
    by_cases hl : t.length ≤ s.length + 1
    · rw [if_pos hl]
      by_cases hp : t <+: c :: s
      · rw [if_pos (List.prefix_iff_eq_take.mp hp).symm, search_of_starts hp]
      · rw [if_neg fun he => hp (List.prefix_iff_eq_take.mpr he.symm), ih, search_cons_of_not hp]
    · rw [if_neg hl, search_of_length (by simpa using hl)]

/-- `rtstrstr` finds the first place of the pattern. -/
theorem rtstrstr_eq (s t : List UInt8) : rtstrstr s t = search t s := by
  rw [rtstrstr]
  by_cases h : t = []
  · subst h
    rw [if_pos List.length_nil, search_of_starts List.nil_prefix]
  · rw [if_neg fun hl => h (List.length_eq_zero_iff.mp hl), rtstrstrLoop_eq h]

/-- Where the line of the key begins that is found first. -/
def lineStart (key : CString) (s : List UInt8) : Option (List UInt8) :=
  (search (lineFeed :: (key.octets ++ [equals])) s).map (List.drop 1)

/-- The section goes on one octet behind its header's beginning, which is no line break. -/
theorem search_drop_section {p : List UInt8} (h : search sectionName buffer.octets = some s) :
    search (lineFeed :: p) (s.drop 1) = search (lineFeed :: p) s := by
  obtain ⟨⟨t, ht⟩, -⟩ := search_some h
  rw [← ht]
  have hn : ¬ lineFeed :: p <+: sectionName ++ t := by
    intro hp
    have hd := (List.cons_prefix_cons.mp hp).1
    revert hd
    decide
  exact (search_cons_of_not hn).symm

theorem lineStart_some (h : lineStart key s = some t) :
    search (lineFeed :: (key.octets ++ [equals])) s = some (lineFeed :: t) ∧
      key.octets ++ [equals] <+: t ∧ lineFeed :: t <:+ s := by
  obtain ⟨found, hf, ht⟩ := Option.map_eq_some_iff.mp h
  obtain ⟨hp, hs⟩ := search_some hf
  cases found with
  | nil => cases List.prefix_nil.mp hp
  | cons c r =>
    obtain ⟨hc, hp'⟩ := List.cons_prefix_cons.mp hp
    have hr : r = t := ht
    subst hr hc
    exact ⟨hf, hp', hs⟩

theorem lineStart_isSome :
    (lineStart key s).isSome = (search (lineFeed :: (key.octets ++ [equals])) s).isSome :=
  Option.isSome_map

/-- A key of one line is found at the first of its lines. -/
theorem keyLines_of_lineStart (hk : lineFeed ∉ key.octets) (h : lineStart key s = some t) :
    keyLines key s = (lineOf lineFeed t, behind lineFeed t) :: keyLines key (behind lineFeed t) := by
  refine search_line_some ?_ (lineStart_some h).1
  simpa [hk] using by decide

theorem keyLines_of_lineStart_none (h : lineStart key s = none) : keyLines key s = [] := by
  by_cases hk : lineFeed ∈ key.octets
  · exact linesWith_of_mem (List.mem_append_left _ hk) s
  · refine (search_line_none ?_).mp (Option.map_eq_none_iff.mp h)
    simpa [hk] using by decide

/-! ## 5. Reading a line -/

/-- The value as it is read: behind the line's first `=`, without the blanks in front. -/
def lineValue (bTrimSpace : Bool) (line : List UInt8) : Option (List UInt8) :=
  (search [equals] line).map fun s => (s.drop 1).dropWhile (isBlank bTrimSpace)

/-- What fits of a string, and zeros behind it. -/
def padded (destsize : Nat) (s : List UInt8) : List UInt8 :=
  s.take destsize ++ List.replicate (destsize - s.length) 0

/-- Both functions copy as much as a length says, at most the destination's size. -/
theorem strncpy_eq (hs : s.length ≤ n) :
    strncpy destsize s (if destsize ≤ n then destsize else n) = .ok (padded destsize s) := by
  by_cases hn : destsize ≤ n
  · rw [if_pos hn, strncpy, access_ok (by omega), ok_bind, padded]
    simp
  · rw [if_neg hn, strncpy, access_ok (by omega), ok_bind, padded]
    rw [List.take_of_length_le hs, List.take_of_length_le (by omega), List.append_assoc,
      List.replicate_append_replicate]
    have hlen : n - s.length + (destsize - n) = destsize - s.length := by omega
    rw [hlen]

theorem length_padded (destsize : Nat) (s : List UInt8) : (padded destsize s).length = destsize := by
  rw [padded, List.length_append, List.length_take, List.length_replicate]
  omega

/-- A terminated string that goes as far as another one in front of a text is the other one. -/
theorem eq_of_terminated_prefix {v : List UInt8} (h : v ++ [0] <+: s ++ t) (hs : 0 ∉ s)
    (hv : v.length ≤ s.length) : v = s := by
  have hpre : s <+: s ++ t := List.prefix_append s t
  rcases Nat.lt_or_ge v.length s.length with hlt | hge
  · have hlen : (v ++ [0]).length ≤ s.length := by
      rw [List.length_append]
      exact hlt
    have hin : v ++ [0] <+: s := List.prefix_of_prefix_length_le h hpre hlen
    exact absurd (hin.mem (by simp)) hs
  · have hv' : v <+: s ++ t := (List.prefix_append v [0]).trans h
    exact (List.prefix_of_prefix_length_le hv' hpre hv).eq_of_length (Nat.le_antisymm hv hge)

/-- The destination holds a value no longer than what was copied into it when that was all of it
and left room for the terminator. -/
theorem holds_padded_iff {v : List UInt8} (hs : 0 ∉ s) (hv : v.length ≤ s.length) :
    Holds (padded destsize s) destsize v ↔ s.length < destsize ∧ v = s := by
  constructor
  · rintro ⟨-, hp⟩
    by_cases hl : s.length < destsize
    · refine ⟨hl, ?_⟩
      rw [List.take_of_length_le (by omega), padded, List.take_of_length_le hl.le] at hp
      exact eq_of_terminated_prefix hp hs hv
    · -- what fills the destination has no terminator in it
      have hk : destsize - s.length = 0 := by omega
      rw [padded, hk, List.replicate_zero, List.append_nil] at hp
      exact absurd (List.mem_of_mem_take (hp.mem (by simp))) hs
  · rintro ⟨hl, rfl⟩
    refine ⟨length_padded _ _, ?_⟩
    rw [List.take_of_length_le (by omega), padded, List.take_of_length_le hl.le,
      List.prefix_append_right_inj]
    obtain ⟨k, hk⟩ := Nat.exists_eq_add_of_lt hl
    rw [hk, Nat.add_assoc, Nat.add_sub_cancel_left, List.replicate_succ]
    exact List.cons_prefix_cons.mpr ⟨rfl, List.nil_prefix⟩

/-- Nothing is trimmed behind a value that does not end in a blank. -/
theorem trimmed_eq_iff {v : List UInt8} :
    trimmed bTrimSpace v = v.dropWhile (isBlank bTrimSpace) ↔
      ∀ c ∈ (v.dropWhile (isBlank bTrimSpace)).getLast?, isBlank bTrimSpace c = false := by
  rw [trimmed, List.rdropWhile_eq_self_iff]
  constructor
  · intro h c hc
    obtain ⟨hne, rfl⟩ := List.mem_getLast?_eq_getLast hc
    exact Bool.eq_false_iff.mpr (h hne)
  · intro h hne
    exact Bool.eq_false_iff.mp (h _ (List.getLast?_eq_some_getLast hne))

theorem lineValue_eq_none : lineValue bTrimSpace line = none ↔ equals ∉ line := by
  rw [lineValue, Option.map_eq_none_iff, search_singleton]
  simp

/-- The value of a line whose key has no `=` is read as it stands but for blanks in front. -/
theorem lineValue_of_notMem {k v : List UInt8} (hk : equals ∉ k) :
    lineValue bTrimSpace (k ++ equals :: v) = some (v.dropWhile (isBlank bTrimSpace)) := by
  have hb : behind equals (k ++ equals :: v) = equals :: v := by
    rw [behind, List.dropWhile_append_of_pos, List.dropWhile_cons_of_neg (by simp)]
    intro x hx
    simpa using fun he : x = equals => hk (he ▸ hx)
  rw [lineValue, search_singleton, if_pos (by simp), hb]
  rfl

/-- Of a key that has a `=`, what is read goes on behind that one, and is longer than the value. -/
theorem lineValue_of_mem (bTrimSpace : Bool) {k : List UInt8} (v : List UInt8)
    (hk : equals ∈ k) :
    ∃ r, lineValue bTrimSpace (k ++ equals :: v) = some r ∧ v.length < r.length ∧
      r <:+ k ++ equals :: v := by
  obtain ⟨a, b, rfl, ha⟩ := List.eq_append_cons_of_mem hk
  have hnb : isBlank bTrimSpace equals = false := by cases bTrimSpace <;> decide
  have hd : (b ++ equals :: v).dropWhile (isBlank bTrimSpace) =
      b.dropWhile (isBlank bTrimSpace) ++ equals :: v := by
    rw [List.dropWhile_append]
    by_cases hb : (b.dropWhile (isBlank bTrimSpace)).isEmpty
    · rw [if_pos hb, List.isEmpty_iff.mp hb, List.dropWhile_cons_of_neg (by simp [hnb])]
      rfl
    · rw [if_neg hb]
  refine ⟨b.dropWhile (isBlank bTrimSpace) ++ equals :: v, ?_, ?_, ?_⟩
  · rw [List.append_assoc, List.cons_append, lineValue_of_notMem ha, hd]
  · rw [List.length_append, List.length_cons]
    omega
  · rw [← hd, List.append_assoc, List.cons_append]
    exact (List.dropWhile_suffix _).trans ((List.suffix_cons _ _).trans (List.suffix_append _ _))

/-- The value of a line of the key is read exactly when the key has no `=` of its own, and the
destination has room for the value and it does not end in blanks. -/
theorem lineValue_holds_iff (hline : 0 ∉ line) (hp : key.octets ++ [equals] <+: line) :
    (∃ r, lineValue bTrimSpace line = some r ∧
        Holds (padded destsize r) destsize (trimmed bTrimSpace (valueOf key line))) ↔
      equals ∉ key.octets ∧
        ((valueOf key line).dropWhile (isBlank bTrimSpace)).length < destsize ∧
        ∀ c ∈ ((valueOf key line).dropWhile (isBlank bTrimSpace)).getLast?,
          isBlank bTrimSpace c = false := by
  obtain ⟨v, rfl⟩ := hp
  have hv : valueOf key (key.octets ++ [equals] ++ v) = v := by simp [valueOf]
  have hle : (trimmed bTrimSpace v).length ≤ (v.dropWhile (isBlank bTrimSpace)).length :=
    (List.rdropWhile_prefix _ _).length_le
  rw [hv, List.append_assoc, List.singleton_append] at *
  by_cases hk : equals ∈ key.octets
  · obtain ⟨r, hr, hlen, hsuf⟩ := lineValue_of_mem bTrimSpace v hk
    have hlev : (v.dropWhile (isBlank bTrimSpace)).length ≤ v.length := List.length_dropWhile_le _ _
    constructor
    · rintro ⟨r', hr', hh⟩
      rw [hr, Option.some.injEq] at hr'
      subst hr'
      have h0 : 0 ∉ r := fun h => hline (hsuf.mem h)
      have he := ((holds_padded_iff h0 (by omega)).mp hh).2
      rw [← he] at hlen
      omega
    · intro h
      exact absurd hk h.1
  · rw [lineValue_of_notMem hk]
    have h0 : 0 ∉ v.dropWhile (isBlank bTrimSpace) := by
      intro h
      have hsuf := (List.dropWhile_suffix (isBlank bTrimSpace)).trans (List.suffix_cons equals v)
      exact hline (List.mem_append_right _ (hsuf.mem h))
    constructor
    · rintro ⟨r, hr, hh⟩
      cases hr
      obtain ⟨hroom, he⟩ := (holds_padded_iff h0 hle).mp hh
      exact ⟨hk, hroom, trimmed_eq_iff.mp he⟩
    · rintro ⟨-, hroom, hb⟩
      exact ⟨_, rfl, (holds_padded_iff h0 hle).mpr ⟨hroom, trimmed_eq_iff.mpr hb⟩⟩

/-- What both functions do with a text to search: what follows the line they found, and the
destination, if the line has a `=`. -/
def readLine (size : Nat) (key : CString) (destsize : Nat) (bTrimSpace : Bool) (s : List UInt8) :
    Checked (Option (List UInt8) × Option (List UInt8)) := do
  access size 0 (key.octets.length + 3)
  match lineStart key s with
  | none => .ok (none, none)
  | some t => do
    access maxParamBufferSize 0 ((lineOf lineFeed t).length + 1)
    .ok (some (behind lineFeed t),
      (lineValue bTrimSpace (lineOf lineFeed t)).map (padded destsize))

/-- Of a key without a line, nothing is read as long as the key fits. -/
theorem readLine_none_iff (size destsize : Nat) (bTrimSpace : Bool)
    (h : keyLines key s = []) :
    (∃ r, readLine size key destsize bTrimSpace s = .ok (r, none)) ↔ KeyFits key size s := by
  rw [readLine]
  by_cases hs : key.octets.length + 3 ≤ size
  · rw [access_ok (by omega), ok_bind]
    cases hl : lineStart key s with
    | none =>
      refine ⟨fun _ => ⟨hs, fun hf => ?_⟩, fun _ => ⟨none, rfl⟩⟩
      rw [← lineStart_isSome, hl] at hf
      cases hf
    | some t =>
      -- only a key of several lines is found without a line
      have hk : lineFeed ∈ key.octets := by
        by_contra hk
        rw [keyLines_of_lineStart hk hl] at h
        cases h
      have hline : lineOf lineFeed t = lineOf lineFeed key.octets := by
        have hp : key.octets <+: t := (List.prefix_append _ _).trans (lineStart_some hl).2.1
        exact lineOf_of_prefix hk hp
      dsimp only
      rw [hline]
      constructor
      · rintro ⟨r, hr⟩
        obtain ⟨hlen, hr⟩ := access_bind_eq_ok.mp hr
        injection hr with hr
        injection hr with _ hv
        have hn := lineValue_eq_none.mp (Option.map_eq_none_iff.mp hv)
        exact ⟨hs, fun _ => ⟨hn, by omega⟩⟩
      · intro hf
        obtain ⟨hn, hlen⟩ := hf.plain (by rw [← lineStart_isSome, hl]; rfl)
        refine ⟨some (behind lineFeed t), ?_⟩
        rw [access_ok (by omega), ok_bind, lineValue_eq_none.mpr hn]
        rfl
  · rw [access_error (by omega), error_bind]
    exact ⟨fun ⟨_, hr⟩ => (nomatch hr), fun hf => absurd hf.short hs⟩

/-- A key with a line keeps to one line, and is found at the first of its lines. -/
theorem lineStart_of_keyLines {l : List UInt8 × List UInt8} {ls : List (List UInt8 × List UInt8)}
    (h : keyLines key s = l :: ls) :
    lineFeed ∉ key.octets ∧ ∃ t, lineStart key s = some t ∧
      l = (lineOf lineFeed t, behind lineFeed t) ∧ ls = keyLines key l.2 := by
  have hk : lineFeed ∉ key.octets := by
    intro hk
    rw [keyLines, linesWith_of_mem (List.mem_append_left _ hk)] at h
    cases h
  cases hl : lineStart key s with
  | none =>
    rw [keyLines_of_lineStart_none hl] at h
    cases h
  | some t =>
    rw [keyLines_of_lineStart hk hl] at h
    cases h
    exact ⟨hk, t, rfl, rfl, rfl⟩

/-- Of a key with lines, the first is read as it should be exactly when key and line fit. -/
theorem readLine_some_iff {size : Nat} {l : List UInt8 × List UInt8}
    {ls : List (List UInt8 × List UInt8)} (h0 : 0 ∉ s) (h : keyLines key s = l :: ls) :
    (∃ dest, readLine size key destsize bTrimSpace s = .ok (some l.2, some dest) ∧
        Holds dest destsize (trimmed bTrimSpace (valueOf key l.1))) ↔
      KeyFits key size s ∧ LineFits key l.1 destsize bTrimSpace := by
  obtain ⟨hk, t, hl, rfl, -⟩ := lineStart_of_keyLines h
  obtain ⟨-, hp, hs⟩ := lineStart_some hl
  have hpre : key.octets ++ [equals] <+: lineOf lineFeed t :=
    (prefix_lineOf (by simpa [hk] using by decide)).mpr hp
  have hline0 : 0 ∉ lineOf lineFeed t := by
    intro hm
    have ht : 0 ∈ lineFeed :: t := List.mem_cons_of_mem _ ((List.takeWhile_prefix _).mem hm)
    exact h0 (hs.mem ht)
  have hkey : lineOf lineFeed key.octets = key.octets := by
    rw [lineOf, List.takeWhile_eq_self_iff]
    intro x hx
    simpa using fun he : x = lineFeed => hk (he ▸ hx)
  have hkeylen : key.octets.length < (lineOf lineFeed t).length := by
    have hle := hpre.length_le
    rw [List.length_append, List.length_singleton] at hle
    exact hle
  rw [readLine]
  constructor
  · rintro ⟨dest, hr, hh⟩
    obtain ⟨hsize, hr⟩ := access_bind_eq_ok.mp hr
    rw [hl] at hr
    obtain ⟨hlen, hr⟩ := access_bind_eq_ok.mp hr
    injection hr with hr
    injection hr with _ hv
    obtain ⟨r, hval, rfl⟩ := Option.map_eq_some_iff.mp hv
    obtain ⟨hn, hroom, hb⟩ := (lineValue_holds_iff hline0 hpre).mp ⟨r, hval, hh⟩
    refine ⟨⟨by omega, fun _ => ⟨?_, ?_⟩⟩, by dsimp only; omega, hroom, hb⟩
    · rw [hkey]
      exact hn
    · rw [hkey]
      omega
  · rintro ⟨⟨hsize, hplain⟩, ⟨hlen, hroom, hb⟩⟩
    have hn := (hplain (by rw [← lineStart_isSome, hl]; rfl)).1
    rw [hkey] at hn
    obtain ⟨r, hr, hh⟩ := (lineValue_holds_iff hline0 hpre).mpr ⟨hn, hroom, hb⟩
    refine ⟨padded destsize r, ?_, hh⟩
    dsimp only at hlen
    rw [access_ok (by omega), ok_bind, hl]
    dsimp only
    rw [access_ok (by omega), ok_bind, hr]
    rfl

/-- What follows the line read is what follows the first line of the key. -/
theorem readLine_fst {size : Nat} {l : List UInt8 × List UInt8} {r d : Option (List UInt8)}
    {ls : List (List UInt8 × List UInt8)} (h : keyLines key s = l :: ls)
    (hr : readLine size key destsize bTrimSpace s = .ok (r, d)) : r = some l.2 := by
  obtain ⟨-, t, hl, rfl, -⟩ := lineStart_of_keyLines h
  obtain ⟨-, hr⟩ := access_bind_eq_ok.mp hr
  rw [hl] at hr
  obtain ⟨-, hr⟩ := access_bind_eq_ok.mp hr
  injection hr with hr
  injection hr with hr _
  exact hr.symm

/-! ## 6. The two functions -/

theorem rtmpFindSection_eq :
    rtmpFindSection buffer.octets = (search sectionName buffer.octets).map (List.drop 1) := by
  rw [rtmpFindSection, rtstrstr_eq]
  cases search sectionName buffer.octets <;> rfl

/-- The end of the line: the next line break, or the terminator. -/
theorem endPtr_eq (s : List UInt8) : (rtstrstr s [lineFeed]).getD [] = behind lineFeed s := by
  rw [rtstrstr_eq, search_singleton]
  by_cases h : lineFeed ∈ s
  · rw [if_pos h]
    rfl
  · rw [if_neg h]
    have hb : behind lineFeed s = [] := by
      refine List.dropWhile_eq_nil_iff.mpr ?_
      intro x hx
      simpa using fun he : x = lineFeed => h (he ▸ hx)
    rw [hb]
    rfl

theorem take_lineOf (s : List UInt8) :
    s.take (s.length - (behind lineFeed s).length) = lineOf lineFeed s := by
  have h : s = lineOf lineFeed s ++ behind lineFeed s := (lineOf_append_behind s).symm
  have hlen : s.length - (behind lineFeed s).length = (lineOf lineFeed s).length := by
    have hl := congrArg List.length h
    rw [List.length_append] at hl
    omega
  rw [hlen]
  exact (List.prefix_iff_eq_take.mp (List.takeWhile_prefix _)).symm

theorem rtstrstr_pattern (hd : ∀ p, search (lineFeed :: p) s = search (lineFeed :: p) t) :
    rtstrstr s (lineFeed :: (key.octets ++ [equals])) =
      (lineStart key t).map (lineFeed :: ·) := by
  rw [rtstrstr_eq, hd]
  cases hl : lineStart key t with
  | none => exact Option.map_eq_none_iff.mp hl
  | some r => exact (lineStart_some hl).1

theorem access_half (n : Nat) :
    access (maxParamBufferSize * 2) maxParamBufferSize n = access maxParamBufferSize 0 n := by
  rw [access, access]
  refine if_congr ?_ rfl rfl
  simp only [maxParamBufferSize]
  omega

/-- What `RTMPGetKeyParameter` does behind the section header. -/
theorem rtmpGetKeyParameter_eq (hs : search sectionName buffer.octets = some s) :
    rtmpGetKeyParameter true key destsize buffer bTrimSpace =
      (readLine (maxParamBufferSize * 2) key destsize bTrimSpace s >>= fun r => .ok r.2) := by
  have hsec : rtmpFindSection buffer.octets = some (s.drop 1) := by
    rw [rtmpFindSection_eq, hs]
    rfl
  have hlen : (lineFeed :: (key.octets ++ [equals])).length + 1 = key.octets.length + 3 := by
    simp
  have hdrop : ∀ t, (lineFeed :: t).drop 1 = t := fun _ => rfl
  rw [rtmpGetKeyParameter, if_neg (by decide), hsec, readLine]
  dsimp only
  rw [hlen, rtstrstr_pattern fun _ => search_drop_section hs]
  by_cases hsize : key.octets.length + 3 ≤ maxParamBufferSize * 2
  · rw [access_ok (by omega), ok_bind, ok_bind]
    cases lineStart key s with
    | none => rfl
    | some t =>
      dsimp only [Option.map_some]
      rw [hdrop t, endPtr_eq, take_lineOf, access_half, rtstrstr_eq, lineValue]
      by_cases hroom : (lineOf lineFeed t).length + 1 ≤ maxParamBufferSize
      · rw [access_ok (by omega), ok_bind, ok_bind]
        cases search [equals] (lineOf lineFeed t) with
        | none => rfl
        | some r =>
          have hle := List.length_dropWhile_le (isBlank bTrimSpace) (r.drop 1)
          rw [List.length_drop] at hle
          dsimp only [Option.map_some, ok_bind]
          rw [strncpy_eq (by omega), ok_bind]
      · rw [access_error (by omega), error_bind, error_bind]
        rfl
  · rw [access_error (by omega), error_bind, error_bind]
    rfl

/-- The text that is searched from an offset on: from the section header at offset zero. -/
def startText (buffer : CString) (off : UInt16) : Option (List UInt8) :=
  if off = 0 then search sectionName buffer.octets else some (buffer.octets.drop off.toNat)

/-- The offset of what follows a line. -/
def endOffset (buffer : CString) (t : List UInt8) : UInt16 :=
  (buffer.octets.length - t.length).toUInt16

theorem rtmpGetKeyParameterWithOffset_eq (hoff : off.toNat < maxIniBufferSize)
    (hin : off.toNat ≤ buffer.octets.length) (hs : startText buffer off = some s) :
    rtmpGetKeyParameterWithOffset true true key off destsize buffer bTrimSpace =
      (readLine maxParamBufferSize key destsize bTrimSpace s >>= fun r =>
        .ok ((r.1.map (endOffset buffer)).getD off, r.2)) := by
  have hlen : (lineFeed :: (key.octets ++ [equals])).length + 1 = key.octets.length + 3 := by
    simp
  have hdrop : ∀ t, (lineFeed :: t).drop 1 = t := fun _ => rfl
  obtain ⟨s', hs', hfind⟩ : ∃ s', (if off = 0 then rtmpFindSection buffer.octets
      else some (buffer.octets.drop off.toNat)) = some s' ∧
        ∀ p, search (lineFeed :: p) s' = search (lineFeed :: p) s := by
    rw [startText] at hs
    by_cases h0 : off = 0
    · rw [if_pos h0] at hs
      rw [if_pos h0, rtmpFindSection_eq, hs]
      exact ⟨s.drop 1, rfl, fun _ => search_drop_section hs⟩
    · rw [if_neg h0] at hs
      rw [if_neg h0, hs]
      exact ⟨s, rfl, fun _ => rfl⟩
  rw [rtmpGetKeyParameterWithOffset, if_neg (by omega), if_neg (by decide), if_neg (by decide),
    access_ok (by omega), ok_bind, hs', readLine]
  dsimp only
  rw [hlen, rtstrstr_pattern hfind]
  by_cases hsize : key.octets.length + 3 ≤ maxParamBufferSize
  · rw [access_ok (by omega), ok_bind, ok_bind]
    cases lineStart key s with
    | none => rfl
    | some t =>
      dsimp only [Option.map_some]
      rw [hdrop t, endPtr_eq, take_lineOf, rtstrstr_eq, lineValue]
      by_cases hroom : (lineOf lineFeed t).length + 1 ≤ maxParamBufferSize
      · rw [access_ok (by omega), ok_bind, ok_bind, ok_bind]
        cases hr : search [equals] (lineOf lineFeed t) with
        | none => rfl
        | some r =>
          have hle : r.length ≤ (lineOf lineFeed t).length := (search_some hr).2.length_le
          dsimp only [Option.map_some, ok_bind]
          rw [List.length_drop, access_ok (by omega), ok_bind, strncpy_eq le_rfl, ok_bind]
          rfl
      · rw [access_error (by omega), error_bind, error_bind]
        rfl
  · rw [access_error (by omega), error_bind, error_bind]
    rfl

theorem noNul_of_search {p : List UInt8} (h : search p buffer.octets = some s) : 0 ∉ s :=
  fun h0 => buffer.noNul ((search_some h).2.mem h0)

/-! ## 7. The reading of a parameter -/

theorem rtmpGetKeyParameter_noSection (hs : search sectionName buffer.octets = none) :
    rtmpGetKeyParameter true key destsize buffer bTrimSpace = .ok none := by
  rw [rtmpGetKeyParameter, if_neg (by decide), rtmpFindSection_eq, hs]
  rfl

/-- Without a line, nothing is read exactly when the key fits the text there is to search. -/
theorem getNone_iff (hs : search sectionName buffer.octets = some s) (h : keyLines key s = []) :
    rtmpGetKeyParameter true key destsize buffer bTrimSpace = .ok none ↔
      KeyFits key (maxParamBufferSize * 2) s := by
  rw [rtmpGetKeyParameter_eq hs, ← readLine_none_iff _ destsize bTrimSpace h, bind_eq_ok]
  constructor
  · rintro ⟨⟨r, d⟩, hr, hd⟩
    cases hd
    exact ⟨r, hr⟩
  · rintro ⟨r, hr⟩
    exact ⟨(r, none), hr, rfl⟩

theorem getSome_iff {l : List UInt8 × List UInt8} {ls : List (List UInt8 × List UInt8)}
    (hs : search sectionName buffer.octets = some s) (h : keyLines key s = l :: ls) :
    (∃ dest, rtmpGetKeyParameter true key destsize buffer bTrimSpace = .ok (some dest) ∧
        Holds dest destsize (trimmed bTrimSpace (valueOf key l.1))) ↔
      KeyFits key (maxParamBufferSize * 2) s ∧ LineFits key l.1 destsize bTrimSpace := by
  rw [rtmpGetKeyParameter_eq hs, ← readLine_some_iff (noNul_of_search hs) h]
  constructor
  · rintro ⟨dest, hr, hh⟩
    obtain ⟨⟨r, d⟩, hr, hd⟩ := bind_eq_ok.mp hr
    cases hd
    cases readLine_fst h hr
    exact ⟨dest, hr, hh⟩
  · rintro ⟨dest, hr, hh⟩
    refine ⟨dest, ?_, hh⟩
    rw [hr]
    rfl

theorem keyMeets_iff (pMemBuf : Bool) :
    KeyMeets key buffer pMemBuf destsize bTrimSpace ↔
      Fits key buffer pMemBuf destsize bTrimSpace := by
  rw [KeyMeets, Fits]
  cases pMemBuf with
  | false =>
    have hrun : rtmpGetKeyParameter false key destsize buffer bTrimSpace = .ok none := if_pos rfl
    rw [hrun]
    cases profileLines key buffer with
    | nil => simp
    | cons l ls => simp
  | true =>
    rw [profileLines]
    cases hs : search sectionName buffer.octets with
    | none => simpa using rtmpGetKeyParameter_noSection hs
    | some s =>
      dsimp only
      cases hl : keyLines key s with
      | nil => simpa using getNone_iff hs hl
      | cons l ls => simpa using getSome_iff hs hl

/-! ## 8. Calls from one offset to the next -/

theorem Call.run_eq {c : Call} (hoff : off.toNat < maxIniBufferSize) (h₁ : c.mem1 = true)
    (h₂ : c.mem2 = true) (hin : off.toNat ≤ buffer.octets.length)
    (hs : startText buffer off = some s) :
    c.run key buffer off =
      (readLine maxParamBufferSize key c.destsize c.bTrimSpace s >>= fun r =>
        .ok ((r.1.map (endOffset buffer)).getD off, r.2)) := by
  rw [Call.run, h₁, h₂, rtmpGetKeyParameterWithOffset_eq hoff hin hs]

theorem Call.run_refused {c : Call}
    (h : ¬ (off.toNat < maxIniBufferSize ∧ c.mem1 = true ∧ c.mem2 = true)) :
    c.run key buffer off = .ok (off, none) := by
  rw [Call.run, rtmpGetKeyParameterWithOffset]
  by_cases hoff : maxIniBufferSize ≤ off.toNat
  · rw [if_pos hoff]
  · rw [if_neg hoff]
    cases h₁ : c.mem1 with
    | false => rw [if_pos rfl]
    | true =>
      cases h₂ : c.mem2 with
      | false => rw [if_neg (by decide), if_pos rfl]
      | true => exact absurd ⟨by omega, h₁, h₂⟩ h

theorem Call.run_noSection {c : Call} (hs : startText buffer off = none) :
    c.run key buffer off = .ok (off, none) := by
  have h0 : off = 0 := by
    by_contra h0
    rw [startText, if_neg h0] at hs
    cases hs
  by_cases hgo : off.toNat < maxIniBufferSize ∧ c.mem1 = true ∧ c.mem2 = true
  · obtain ⟨hoff, h₁, h₂⟩ := hgo
    subst h0
    rw [startText, if_pos rfl] at hs
    rw [Call.run, rtmpGetKeyParameterWithOffset, h₁, h₂, if_neg (by omega), if_neg (by decide),
      if_neg (by decide), access_ok (by simp), ok_bind, if_pos rfl, rtmpFindSection_eq, hs]
    rfl
  · exact Call.run_refused hgo

/-- A call with no line left reads nothing exactly when the key fits what there is to search. -/
theorem Call.run_none {c : Call} (hin : off.toNat ≤ buffer.octets.length)
    (hl : ∀ s ∈ startText buffer off, keyLines key s = []) :
    (∃ off', c.run key buffer off = .ok (off', none)) ↔
      (off.toNat < maxIniBufferSize → c.mem1 = true → c.mem2 = true →
        ∀ s ∈ startText buffer off, KeyFits key maxParamBufferSize s) := by
  by_cases hgo : off.toNat < maxIniBufferSize ∧ c.mem1 = true ∧ c.mem2 = true
  · obtain ⟨hoff, h₁, h₂⟩ := hgo
    cases hs : startText buffer off with
    | none =>
      rw [Call.run_noSection hs]
      exact ⟨fun _ _ _ _ s hs => (nomatch hs), fun _ => ⟨off, rfl⟩⟩
    | some s =>
      rw [Call.run_eq hoff h₁ h₂ hin hs]
      have hread := readLine_none_iff maxParamBufferSize c.destsize c.bTrimSpace (hl s hs)
      constructor
      · rintro ⟨off', hrun⟩ - - - s' hs'
        obtain ⟨⟨r, d⟩, hr, hd⟩ := bind_eq_ok.mp hrun
        cases hd
        cases hs'
        exact hread.mp ⟨r, hr⟩
      · intro hk
        obtain ⟨r, hr⟩ := hread.mpr (hk hoff h₁ h₂ s rfl)
        exact ⟨_, by rw [hr]; rfl⟩
  · rw [Call.run_refused hgo]
    exact ⟨fun _ hoff h₁ h₂ => absurd ⟨hoff, h₁, h₂⟩ hgo, fun _ => ⟨off, rfl⟩⟩

/-- A call with a line left reads it and returns its end exactly when it has the memory, an offset
below the buffer's size, and key, line and end fit. -/
theorem Call.run_some {c : Call} {l : List UInt8 × List UInt8}
    {ls : List (List UInt8 × List UInt8)} {P : UInt16 → Prop}
    (hin : off.toNat ≤ buffer.octets.length) (hs : startText buffer off = some s)
    (hl : keyLines key s = l :: ls) :
    (∃ off' dest, c.run key buffer off = .ok (off', some dest) ∧
        off'.toNat = buffer.octets.length - l.2.length ∧
        Holds dest c.destsize (trimmed c.bTrimSpace (valueOf key l.1)) ∧ P off') ↔
      (off.toNat < maxIniBufferSize ∧ c.mem1 = true ∧ c.mem2 = true ∧
        buffer.octets.length - l.2.length < 2 ^ 16 ∧
        (KeyFits key maxParamBufferSize s ∧ LineFits key l.1 c.destsize c.bTrimSpace) ∧
        P (endOffset buffer l.2)) := by
  have h0 : 0 ∉ s := by
    rw [startText] at hs
    by_cases h : off = 0
    · rw [if_pos h] at hs
      exact noNul_of_search hs
    · rw [if_neg h] at hs
      cases hs
      exact fun hm => buffer.noNul (List.mem_of_mem_drop hm)
  by_cases hgo : off.toNat < maxIniBufferSize ∧ c.mem1 = true ∧ c.mem2 = true
  · obtain ⟨hoff, h₁, h₂⟩ := hgo
    rw [Call.run_eq hoff h₁ h₂ hin hs, ← readLine_some_iff h0 hl]
    have hend : (endOffset buffer l.2).toNat = buffer.octets.length - l.2.length ↔
        buffer.octets.length - l.2.length < 2 ^ 16 := by
      rw [endOffset, Nat.toUInt16_eq, UInt16.toNat_ofNat']
      constructor
      · intro he
        rw [← he]
        exact Nat.mod_lt _ (by decide)
      · intro hlt
        exact Nat.mod_eq_of_lt hlt
    constructor
    · rintro ⟨off', dest, hrun, he, hh, hP⟩
      obtain ⟨⟨r, d⟩, hr, hd⟩ := bind_eq_ok.mp hrun
      cases readLine_fst hl hr
      cases hd
      exact ⟨hoff, h₁, h₂, hend.mp he, ⟨dest, hr, hh⟩, hP⟩
    · rintro ⟨-, -, -, he, ⟨dest, hr, hh⟩, hP⟩
      refine ⟨endOffset buffer l.2, dest, ?_, hend.mpr he, hh, hP⟩
      rw [hr]
      rfl
  · rw [Call.run_refused hgo]
    constructor
    · rintro ⟨off', dest, hr, -⟩
      cases hr
    · rintro ⟨hoff, h₁, h₂, -⟩
      exact absurd ⟨hoff, h₁, h₂⟩ hgo

/-- A key that fits a text with one of its lines fits every text. -/
theorem keyFits_of_line {l : List UInt8 × List UInt8} {ls : List (List UInt8 × List UInt8)}
    {size : Nat} (hl : keyLines key s = l :: ls) (hk : KeyFits key size s) (t : List UInt8) :
    KeyFits key size t := by
  obtain ⟨-, r, hr, -⟩ := lineStart_of_keyLines hl
  exact ⟨hk.short, fun _ => hk.plain (by rw [← lineStart_isSome, hr]; rfl)⟩

/-- What is searched from the end of a line on is what follows the line. -/
theorem startText_endOffset {l : List UInt8 × List UInt8} {ls : List (List UInt8 × List UInt8)}
    (hsub : s <:+ buffer.octets) (hl : keyLines key s = l :: ls)
    (hlt : buffer.octets.length - l.2.length < 2 ^ 16) :
    (endOffset buffer l.2).toNat = buffer.octets.length - l.2.length ∧
      startText buffer (endOffset buffer l.2) = some l.2 ∧ l.2 <:+ buffer.octets := by
  obtain ⟨-, t, ht, rfl, -⟩ := lineStart_of_keyLines hl
  have hcons : lineFeed :: t <:+ buffer.octets := (lineStart_some ht).2.2.trans hsub
  have hsuf : behind lineFeed t <:+ buffer.octets :=
    (behind_suffix t).trans ((List.suffix_cons lineFeed t).trans hcons)
  have hlen : (behind lineFeed t).length < buffer.octets.length := by
    have h₁ : (behind lineFeed t).length ≤ t.length := (behind_suffix t).length_le
    have h₂ := hcons.length_le
    rw [List.length_cons] at h₂
    omega
  have hend : (endOffset buffer (behind lineFeed t)).toNat =
      buffer.octets.length - (behind lineFeed t).length := by
    rw [endOffset, Nat.toUInt16_eq, UInt16.toNat_ofNat']
    exact Nat.mod_eq_of_lt hlt
  refine ⟨hend, ?_, hsuf⟩
  have hne : endOffset buffer (behind lineFeed t) ≠ 0 := by
    intro h0
    rw [h0] at hend
    have hz : (0 : UInt16).toNat = 0 := rfl
    omega
  rw [startText, if_neg hne, hend]
  exact congrArg some (List.suffix_iff_eq_drop.mp hsuf).symm

/-- With a key that fits, the calls from the end of a line on read the lines behind it exactly when
these fit. The induction is on the calls: each goes on from the end of the line it read. -/
theorem callsMeet_iff_of_keyFits (hk : ∀ t, KeyFits key maxParamBufferSize t) :
    ∀ (calls : List Call) {off : UInt16} {s : List UInt8}, off.toNat ≤ buffer.octets.length →
      startText buffer off = some s → s <:+ buffer.octets →
        (CallsMeet key buffer (keyLines key s) off calls ↔
          LinesFit key buffer (keyLines key s) off.toNat calls)
  | [], off, s, _, _, _ => by
    cases keyLines key s <;> exact Iff.rfl
  | c :: cs, off, s, hin, hs, hsub => by
    cases hl : keyLines key s with
    | nil =>
      rw [CallsMeet, LinesFit]
      have hnone : ∀ t ∈ startText buffer off, keyLines key t = [] := by
        intro t ht
        rw [hs] at ht
        cases ht
        exact hl
      exact iff_of_true ((Call.run_none hin hnone).mpr fun _ _ _ t _ => hk t) trivial
    | cons l ls =>
      rw [CallsMeet, LinesFit, Call.run_some hin hs hl]
      obtain ⟨-, -, -, -, rfl⟩ := lineStart_of_keyLines hl
      refine and_congr_right fun _ => and_congr_right fun _ => and_congr_right fun _ =>
        and_congr_right fun hlt => and_congr (and_iff_right (hk s)) ?_
      obtain ⟨hend, hstart, hsuf⟩ := startText_endOffset hsub hl hlt
      rw [← hend]
      exact callsMeet_iff_of_keyFits hk cs (by omega) hstart hsuf

theorem callsMeet_iff (calls : List Call) :
    CallsMeet key buffer (profileLines key buffer) 0 calls ↔ CallsFit key buffer calls := by
  have hstart : startText buffer 0 = search sectionName buffer.octets := if_pos rfl
  have hin : (0 : UInt16).toNat ≤ buffer.octets.length := Nat.zero_le _
  have h0 : 0 < maxIniBufferSize := by decide
  cases calls with
  | nil => simp [CallsFit, CallsMeet, LinesFit]
  | cons c cs =>
    rw [CallsFit, profileLines]
    cases hs : search sectionName buffer.octets with
    | none =>
      rw [← hstart] at hs
      simp [CallsMeet, LinesFit, Call.run_noSection hs]
    | some s =>
      have hsub : s <:+ buffer.octets := (search_some hs).2
      rw [← hstart] at hs
      dsimp only
      cases hl : keyLines key s with
      | nil =>
        have hnone : ∀ t ∈ startText buffer 0, keyLines key t = [] := by
          rw [hs]
          rintro t ⟨⟩
          exact hl
        simpa [CallsMeet, LinesFit, hs, h0] using Call.run_none (c := c) hin hnone
      | cons l ls =>
        by_cases hk : KeyFits key maxParamBufferSize s
        · have hrun := callsMeet_iff_of_keyFits (keyFits_of_line hl hk) (c :: cs) hin hs hsub
          rw [hl] at hrun
          rw [hrun]
          exact (and_iff_right (by simpa using fun _ _ => hk)).symm
        · -- the first call fails already, or writes behind its buffer
          refine iff_of_false ?_ ?_
          · intro h
            rw [CallsMeet, Call.run_some hin hs hl] at h
            exact hk h.2.2.2.2.1.1
          · rintro ⟨hfits, h⟩
            rw [LinesFit] at h
            exact hk (hfits c rfl h.2.1 h.2.2.1 s rfl)

/-- **The readings of a parameter.**  The value of the first line of the key behind the section
header is read, trimmed, cut and terminated, and called from offset to offset the values of all
of its lines are, within the buffers, exactly when the key and the lines fit. -/
theorem keyParameter_iff (key buffer : CString) :
    (∀ (pMemBuf : Bool) (destsize : Nat) (bTrimSpace : Bool),
      KeyMeets key buffer pMemBuf destsize bTrimSpace ↔
        Fits key buffer pMemBuf destsize bTrimSpace) ∧
      ∀ calls : List Call,
        CallsMeet key buffer (profileLines key buffer) 0 calls ↔ CallsFit key buffer calls :=
  ⟨fun pMemBuf _ _ => keyMeets_iff pMemBuf, callsMeet_iff⟩

end

namespace Example

/-- `CountryRegion`. -/
def countryRegion : CString :=
  ⟨[67, 111, 117, 110, 116, 114, 121, 82, 101, 103, 105, 111, 110], by decide⟩

/-- The word `Default`, and a line that sets the region to twenty-five digits. -/
def longProfile : CString :=
  ⟨sectionName ++ lineFeed :: (countryRegion.octets ++ equals :: List.replicate 25 49), by decide⟩

end Example

/-- Of a value as long as the destination, no octet is cut and no terminator is left. -/
theorem not_keyMeets_longValue :
    ¬ KeyMeets Example.countryRegion Example.longProfile true 25 true := by
  have hlines : profileLines Example.countryRegion Example.longProfile =
      [(Example.countryRegion.octets ++ equals :: List.replicate 25 49, [])] := by
    decide +kernel
  have hrun : rtmpGetKeyParameter true Example.countryRegion 25 Example.longProfile true =
      .ok (some (List.replicate 25 49)) := by
    decide +kernel
  rw [KeyMeets, hlines]
  rintro ⟨dest, hr, -, hp⟩
  rw [hrun] at hr
  cases hr
  -- the terminator would be among the digits
  have h0 : (0 : UInt8) ∈ List.replicate 25 (49 : UInt8) := hp.mem (by simp)
  revert h0
  decide

end Mt7601.Profile
