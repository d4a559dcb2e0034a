/-
# Lists with a count in front of them

A field of a format that is a list of items of one length: how many there are, in two octets with
the lower one first, and the items one behind the other. What was put in at an offset is read back
from there, whatever is in front of the field and behind it.
-/
import Mt7601.Lib.Reading

namespace CountedList

/-! ## 1. Numbers of two octets -/

/-- A number in two octets, the lower one first. -/
def le16 (n : Nat) : List UInt8 := [UInt8.ofNat n, UInt8.ofNat (n / 256)]

/-- The number at an offset. -/
def u16 (l : List UInt8) (off : Nat) : Nat :=
  (l.getD off 0).toNat + 256 * (l.getD (off + 1) 0).toNat

theorem u16_lt (l : List UInt8) (off : Nat) : u16 l off < 65536 := by
  have hlow := (l.getD off 0).toNat_lt
  have hhigh := (l.getD (off + 1) 0).toNat_lt
  unfold u16
  omega

theorem u16_le16 {front rest : List UInt8} {n : Nat} (hn : n < 65536) :
    u16 (front ++ le16 n ++ rest) front.length = n := by
  have hlow : (front ++ le16 n ++ rest).getD front.length 0 = UInt8.ofNat n := by
    simp [le16, List.getD]
  have hhigh : (front ++ le16 n ++ rest).getD (front.length + 1) 0 = UInt8.ofNat (n / 256) := by
    simp [le16, List.getD]
  rw [u16, hlow, hhigh, UInt8.toNat_ofNat', UInt8.toNat_ofNat']
  omega

/-- A number that is read only where both octets are there. -/
def readU16 (l : List UInt8) (off : Nat) : Checked Nat := do
  Checked.access l.length off 2
  return u16 l off

theorem readU16_ok {l : List UInt8} {off : Nat} (h : off + 2 ≤ l.length) :
    readU16 l off = .ok (u16 l off) := by
  rw [readU16, Checked.access_ok h]
  rfl

theorem readU16_guarded (l : List UInt8) (off : Nat) :
    Checked.Guarded (readU16 l off) (off + 2 ≤ l.length) (· = u16 l off) :=
  (Checked.Guarded.access _ _ _).map fun _ _ => rfl

/-! ## 2. The list -/

/-- The count and the items. -/
def encode (items : List (List UInt8)) : List UInt8 := le16 items.length ++ items.flatten

/-- As many items of `w` octets as are asked for. -/
def items (l : List UInt8) (w off : Nat) : Nat → List (List UInt8)
  | 0 => []
  | n + 1 => Mem.read l off w :: items l w (off + w) n

theorem length_flatten_of_width {w : Nat} {its : List (List UInt8)}
    (hw : ∀ it ∈ its, it.length = w) : its.flatten.length = w * its.length := by
  induction its with
  | nil => simp
  | cons it its ih =>
    have hit : it.length = w := hw it (by simp)
    have hrest := ih fun i hi => hw i (by simp [hi])
    simp only [List.flatten_cons, List.length_append, List.length_cons, hit, hrest, Nat.mul_succ]
    omega

theorem length_encode {w : Nat} {its : List (List UInt8)} (hw : ∀ it ∈ its, it.length = w) :
    (encode its).length = 2 + w * its.length := by
  simp only [encode, List.length_append, length_flatten_of_width hw]
  rfl

/-- **The items come back**, wherever they stand. -/
theorem items_flatten {w : Nat} (front rest : List UInt8) {its : List (List UInt8)}
    (hw : ∀ it ∈ its, it.length = w) :
    items (front ++ its.flatten ++ rest) w front.length its.length = its := by
  induction its generalizing front with
  | nil => rfl
  | cons it its ih =>
    have hit : it.length = w := hw it (by simp)
    have hrest := ih (front ++ it) fun i hi => hw i (by simp [hi])
    have hassoc : front ++ (it :: its).flatten ++ rest = front ++ it ++ its.flatten ++ rest := by
      simp
    have hfirst : Mem.read (front ++ (it :: its).flatten ++ rest) front.length w = it := by
      rw [← hit]
      exact Mem.read_middle front (its.flatten ++ rest) (by simp) rfl rfl
    rw [List.length_cons, items, hfirst, hassoc]
    rw [List.length_append, hit] at hrest
    rw [hrest]

section

variable {w : Nat} {front rest : List UInt8} {its : List (List UInt8)}

theorem u16_encode (hlen : its.length < 65536) :
    u16 (front ++ encode its ++ rest) front.length = its.length := by
  have h : u16 (front ++ le16 its.length ++ (its.flatten ++ rest)) front.length = its.length :=
    u16_le16 hlen
  simpa [encode] using h

theorem items_encode (hw : ∀ it ∈ its, it.length = w) :
    items (front ++ encode its ++ rest) w (front.length + 2) its.length = its := by
  have h := items_flatten (front ++ le16 its.length) rest hw
  simpa [encode, le16] using h

end

end CountedList
