/-
# Octet strings: fixed fields, memory, and big-endian numbers

What a byte-oriented protocol needs of its bytes, and nothing about any protocol:

* `Octets n`, a field of exactly `n` octets, and cutting a field out of another;
* a stretch of memory as a list that reads as zero behind its end (`Mem.read`, `Mem.write`);
* `beVal`, the number an octet string spells in big-endian order. Comparing two fields octet by
  octet is comparing their numbers (`beVal_cons_lt_cons`), and a field determines its number and
  is determined by it (`beVal_injective`).
-/
import Mathlib.Data.Vector.Basic
import Mathlib.Data.Fintype.Card
import Mathlib.Data.Fintype.Vector
import Mathlib.Data.List.TakeDrop
import Mt7601.Lib.Sizes

/-- A field of `n` octets. -/
abbrev Octets (n : Nat) := List.Vector UInt8 n

namespace Octets

/-! ## 1. Fixed fields -/

/-- The field with every octet zero. -/
def zero (n : Nat) : Octets n := List.Vector.replicate n 0

/-- The first `n` octets of a list; zeros stand for what it lacks. -/
def ofList (n : Nat) (l : List UInt8) : Octets n :=
  ⟨l.takeD n 0, List.takeD_length n l 0⟩

/-- The `n` octets of a field from offset `i` on. -/
def slice {m : Nat} (v : Octets m) (i n : Nat) : Octets n :=
  ofList n (v.toList.drop i)

/-- A list that is too short is filled up. -/
theorem takeD_of_length_le {l : List UInt8} {n : Nat} (h : l.length ≤ n) :
    l.takeD n 0 = l ++ List.replicate (n - l.length) 0 := by
  induction l generalizing n with
  | nil => simp
  | cons b l ih =>
    obtain _ | n := n
    · exact absurd h (Nat.not_succ_le_zero _)
    · rw [List.takeD_succ, List.tail_cons, ih (Nat.le_of_succ_le_succ h), List.length_cons,
        Nat.add_sub_add_right]
      rfl

@[simp] theorem toList_ofList (n : Nat) (l : List UInt8) : (ofList n l).toList = l.takeD n 0 := rfl

theorem toList_injective {n : Nat} {v w : Octets n} (h : v.toList = w.toList) : v = w :=
  List.Vector.toList_injective h

@[simp] theorem ofList_toList {n : Nat} (v : Octets n) : ofList n v.toList = v := by
  refine toList_injective ?_
  rw [toList_ofList, List.takeD_eq_take 0 (by simp), List.take_of_length_le (by simp)]

/-- Inside the field a cut takes what is there. -/
theorem toList_slice {m i n : Nat} (v : Octets m) (h : i + n ≤ m) :
    (v.slice i n).toList = (v.toList.drop i).take n := by
  rw [slice, toList_ofList, List.takeD_eq_take]
  simp only [List.length_drop, List.Vector.toList_length]
  omega

/-- The first field of two, and the second. -/
theorem slice_append {m n : Nat} (v : Octets m) {l : List UInt8} (h : l.length = n) :
    (ofList (m + n) (v.toList ++ l)).slice 0 m = v ∧
      ((ofList (m + n) (v.toList ++ l)).slice m n).toList = l := by
  have hall : (ofList (m + n) (v.toList ++ l)).toList = v.toList ++ l := by
    rw [toList_ofList, List.takeD_eq_take 0 (by simp [h]), List.take_of_length_le (by simp [h])]
  constructor
  · refine toList_injective ?_
    rw [toList_slice _ (by omega), hall, List.drop_zero, List.take_left' (by simp)]
  · rw [toList_slice _ (Nat.le_refl _), hall, List.drop_left' (by simp),
      List.take_of_length_le (Nat.le_of_eq h)]

/-- A field cut in two and put together. -/
theorem ofList_slice_append {m n : Nat} (v : Octets (m + n)) :
    ofList (m + n) ((v.slice 0 m).toList ++ (v.slice m n).toList) = v := by
  refine toList_injective ?_
  have hlen : (v.toList.drop m).length = n := by simp
  rw [toList_slice v (by omega), toList_slice v (Nat.le_refl _), toList_ofList, List.drop_zero,
    List.take_of_length_le (Nat.le_of_eq hlen), List.take_append_drop,
    List.takeD_eq_take 0 (by simp), List.take_of_length_le (by simp)]

/-- The octets are finitely many, hence so are the fields of a size, and an inverse on one side is
an inverse. -/
theorem rightInverse_of_leftInverse {n : Nat} {f g : Octets n → Octets n}
    (h : Function.LeftInverse g f) : Function.RightInverse g f := by
  have hoctet : Finite UInt8 := Finite.of_injective UInt8.toFin fun _ _ hab => UInt8.toFin_inj.1 hab
  have := Fintype.ofFinite UInt8
  exact h.rightInverse_of_surjective (Finite.injective_iff_surjective.1 h.injective)

end Octets

namespace Mem

/-! ## 2. Memory -/

/-- The `n` octets from offset `off` on. -/
def read (mem : List UInt8) (off n : Nat) : List UInt8 :=
  (mem.drop off).takeD n 0

/-- A copy of `l` to offset `off`. -/
def write (mem : List UInt8) (off : Nat) (l : List UInt8) : List UInt8 :=
  mem.takeD off 0 ++ l ++ mem.drop (off + l.length)

@[simp] theorem length_read (mem : List UInt8) (off n : Nat) : (read mem off n).length = n :=
  List.takeD_length _ _ _

/-- Each octet of a read is the octet of the memory, zero behind its end. -/
theorem getD_read (mem : List UInt8) (off : Nat) :
    ∀ {n i : Nat}, i < n → (read mem off n).getD i 0 = mem.getD (off + i) 0 := by
  have htake : ∀ (n : Nat) (l : List UInt8) (i : Nat), i < n → (l.takeD n 0).getD i 0 = l.getD i 0 := by
    intro n
    induction n with
    | zero =>
      intro l i h
      exact absurd h (Nat.not_lt_zero i)
    | succ n ih =>
      rintro (_ | ⟨b, l⟩) (_ | i) h
      · rfl
      · simpa using ih [] i (Nat.lt_of_succ_lt_succ h)
      · rfl
      · simpa using ih l i (Nat.lt_of_succ_lt_succ h)
  intro n i h
  rw [read, htake n _ i h]
  simp [List.getD_eq_getElem?_getD]

/-- Lists of one length with the same octets. -/
theorem eq_of_getD {l m : List UInt8} (hlen : l.length = m.length)
    (h : ∀ k < m.length, l.getD k 0 = m.getD k 0) : l = m := by
  refine List.ext_getElem hlen fun k hk hk' => ?_
  have hoctet := h k hk'
  rwa [List.getD_eq_getElem?_getD, List.getD_eq_getElem?_getD, List.getElem?_eq_getElem hk,
    List.getElem?_eq_getElem hk'] at hoctet

/-- A read over two stretches, the first of them whole. -/
theorem read_append (l m : List UInt8) (n : Nat) : read (l ++ m) 0 (l.length + n) = l ++ read m 0 n := by
  induction l with
  | nil => simp
  | cons b l ih =>
    rw [read, List.drop_zero] at ih
    rw [read, List.drop_zero, List.cons_append, List.length_cons, Nat.add_right_comm,
      List.takeD_succ, List.head?_cons, List.tail_cons, ih]
    rfl

/-- A read in two parts. -/
theorem read_add (mem : List UInt8) (off m n : Nat) :
    read mem off (m + n) = read mem off m ++ read mem (off + m) n := by
  have htake : ∀ (m : Nat) (l : List UInt8),
      l.takeD (m + n) 0 = l.takeD m 0 ++ (l.drop m).takeD n 0 := by
    intro m
    induction m with
    | zero =>
      intro l
      simp
    | succ m ih =>
      intro l
      rw [Nat.add_right_comm, List.takeD_succ, List.takeD_succ, ih, List.cons_append,
        ← List.drop_one, List.drop_drop, Nat.add_comm 1 m]
  rw [read, htake, List.drop_drop]
  rfl

/-- What two memories have in common in front, any part of it they have in common. -/
theorem read_congr {mem mem' : List UInt8} {len off n : Nat} (h : read mem 0 len = read mem' 0 len)
    (hle : off + n ≤ len) : read mem off n = read mem' off n := by
  have hcut : ∀ m : List UInt8, read m off n = ((read m 0 len).drop off).take n := by
    intro m
    have hlen : len = off + (n + (len - off - n)) := by omega
    rw [hlen, read_add, read_add, List.drop_left' (length_read _ _ _),
      List.take_left' (length_read _ _ _), Nat.zero_add]
  rw [hcut, hcut, h]

theorem getD_congr {mem mem' : List UInt8} {len i : Nat} (h : read mem 0 len = read mem' 0 len)
    (hlt : i < len) : mem.getD i 0 = mem'.getD i 0 := by
  have hi := getD_read mem 0 hlt
  have hi' := getD_read mem' 0 hlt
  rw [Nat.zero_add] at hi hi'
  rw [← hi, ← hi', h]

theorem read_one (mem : List UInt8) (off : Nat) : read mem off 1 = [mem.getD off 0] := by
  rw [read, List.takeD_succ, List.takeD_zero, List.head?_drop, List.getD_eq_getElem?_getD]

/-- Inside the memory a read takes what is there. -/
theorem read_eq_take {mem : List UInt8} {off n : Nat} (h : off + n ≤ mem.length) :
    read mem off n = (mem.drop off).take n := by
  rw [read, List.takeD_eq_take]
  simp only [List.length_drop]
  omega

/-- A read within the memory is the same with anything behind it. -/
theorem read_append_of_le {mem behind : List UInt8} {off n : Nat} (h : off + n ≤ mem.length) :
    read (mem ++ behind) off n = read mem off n := by
  have hleft : n ≤ (mem.drop off).length := by
    rw [List.length_drop]
    omega
  rw [read, read, List.drop_append_of_le_length (by omega), List.takeD_eq_take 0 hleft,
    List.takeD_eq_take 0 (by rw [List.length_append]; omega), List.take_append_of_le_length hleft]

@[simp] theorem read_zero_of_append {l m : List UInt8} : read (l ++ m) 0 l.length = l := by
  rw [read_eq_take (by simp)]
  simp

/-- A stretch in the middle, by what stands in front of it. -/
theorem read_middle {mem l : List UInt8} {off n : Nat} (front rest : List UInt8)
    (hmem : mem = front ++ (l ++ rest)) (hoff : off = front.length) (hn : n = l.length) :
    read mem off n = l := by
  subst hoff hn
  have hread := read_zero_of_append (l := l) (m := rest)
  rw [read, List.drop_zero] at hread
  rw [read, hmem, List.drop_left, hread]

/-- A copy over a stretch in the middle. -/
theorem write_middle {mem l m : List UInt8} {off : Nat} (front rest : List UInt8)
    (hmem : mem = front ++ (l ++ rest)) (hoff : off = front.length) (hm : m.length = l.length) :
    write mem off m = front ++ (m ++ rest) := by
  subst hoff
  rw [write, hmem, List.takeD_eq_take 0 (by simp), List.take_left, hm, List.drop_append,
    List.drop_of_length_le (by omega), Nat.add_sub_cancel_left, List.drop_left, List.nil_append,
    List.append_assoc]

/-- **What was written is read back.** -/
theorem read_write (mem l : List UInt8) (off : Nat) : read (write mem off l) off l.length = l := by
  have hdrop : (write mem off l).drop off = l ++ mem.drop (off + l.length) := by
    rw [write, List.append_assoc, List.drop_left' (List.takeD_length _ _ _)]
  have h := read_zero_of_append (l := l) (m := mem.drop (off + l.length))
  rw [read, List.drop_zero] at h
  rw [read, hdrop, h]

/-- What stands in front of a copy is not changed by it. -/
theorem read_write_front (mem l : List UInt8) (off : Nat) :
    read (write mem off l) 0 off = read mem 0 off := by
  have hfront := read_zero_of_append (l := mem.takeD off 0) (m := l ++ mem.drop (off + l.length))
  rw [List.takeD_length] at hfront
  rw [write, List.append_assoc, hfront]
  rfl

/-- What stands behind a copy is not changed by it. -/
theorem drop_write {mem l : List UInt8} {off n : Nat} (h : off + l.length ≤ n) :
    (write mem off l).drop n = mem.drop n := by
  have hlen : (mem.takeD off 0 ++ l).length = off + l.length := by simp
  rw [write, List.drop_append, List.drop_of_length_le (by omega), hlen, List.drop_drop,
    List.nil_append, Nat.add_sub_of_le h]

theorem getD_write_of_le {mem l : List UInt8} {off i : Nat} (h : off + l.length ≤ i) :
    (write mem off l).getD i 0 = mem.getD i 0 := by
  have hbehind : (write mem off l).drop i = mem.drop i := drop_write h
  have hdrop := congrArg (fun m : List UInt8 => m.getD 0 0) hbehind
  simpa [List.getD_eq_getElem?_getD] using hdrop

/-- What stands in front of a copy is not changed by it. -/
theorem getD_write_of_lt {mem l : List UInt8} {off i : Nat} (h : i < off) :
    (write mem off l).getD i 0 = mem.getD i 0 := by
  have hwritten := getD_read (write mem off l) 0 h
  have hbefore := getD_read mem 0 h
  rw [Nat.zero_add] at hwritten hbefore
  rw [← hwritten, ← hbefore, read_write_front]

theorem read_write_of_le {mem l : List UInt8} {off i n : Nat} (h : off + l.length ≤ i) :
    read (write mem off l) i n = read mem i n := by
  rw [read, read, drop_write h]

/-- A copy of nothing. -/
theorem write_nil {mem : List UInt8} {off : Nat} (h : off ≤ mem.length) : write mem off [] = mem := by
  rw [write, List.takeD_eq_take 0 h, List.append_nil, List.length_nil, Nat.add_zero,
    List.take_append_drop]

/-- Two copies, the second right behind the first. -/
theorem write_append (mem m : List UInt8) (off : Nat) {l : List UInt8} {n : Nat}
    (h : l.length = n) : write (write mem off l) (off + n) m = write mem off (l ++ m) := by
  subst h
  have hfront : (mem.takeD off 0 ++ l).length = off + l.length := by simp
  have hdrop : (write mem off l).drop (off + l.length + m.length) =
      mem.drop (off + l.length + m.length) := drop_write (Nat.le_add_right _ _)
  have htake : (write mem off l).takeD (off + l.length) 0 = mem.takeD off 0 ++ l := by
    rw [write, List.takeD_eq_take 0 (by simp), List.take_left' hfront]
  rw [write, htake, hdrop, write, List.length_append, Nat.add_assoc]
  simp only [List.append_assoc]

/-- Two copies to one place: the second stays. -/
theorem write_write (mem : List UInt8) {l m : List UInt8} (off : Nat) (h : l.length = m.length) :
    write (write mem off l) off m = write mem off m := by
  have htake : (write mem off l).takeD off 0 = mem.takeD off 0 := by
    have hfront := read_write_front mem l off
    rwa [read, read, List.drop_zero, List.drop_zero] at hfront
  have hdrop : (write mem off l).drop (off + m.length) = mem.drop (off + m.length) :=
    drop_write (by omega)
  rw [write, htake, hdrop]
  rfl

/-- Inside the memory a copy replaces what is there. -/
theorem write_eq_take {mem l : List UInt8} {off : Nat} (h : off + l.length ≤ mem.length) :
    write mem off l = mem.take off ++ l ++ mem.drop (off + l.length) := by
  rw [write, List.takeD_eq_take 0 (by omega)]

theorem length_write {mem l : List UInt8} {off : Nat} (h : off + l.length ≤ mem.length) :
    (write mem off l).length = mem.length := by
  rw [write_eq_take h]
  simp only [List.length_append, List.length_take, List.length_drop]
  omega

/-- **What was read and overwritten is restored by writing it back.** -/
theorem write_write_read {mem l : List UInt8} {off : Nat} (h : off + l.length ≤ mem.length) :
    write (write mem off l) off (read mem off l.length) = mem := by
  have hlen : (write mem off l).length = mem.length := length_write h
  have htake : (write mem off l).take off = mem.take off := by
    rw [write_eq_take h, List.append_assoc, List.take_left' (by simp; omega)]
  have hdrop : (write mem off l).drop (off + l.length) = mem.drop (off + l.length) := by
    rw [write_eq_take h, List.drop_left' (by simp; omega)]
  rw [write_eq_take (by simpa [hlen] using h), length_read, htake, hdrop, read_eq_take h,
    List.append_assoc, ← List.drop_drop, List.take_append_drop, List.take_append_drop]

end Mem

/-! ## 3. Big-endian numbers -/

/-- The number a string of octets spells, most significant octet first. -/
def beVal : List UInt8 → Nat
  | [] => 0
  | b :: bs => b.toNat * 256 ^ bs.length + beVal bs

theorem beVal_lt : ∀ l : List UInt8, beVal l < 256 ^ l.length
  | [] => by simp [beVal]
  | b :: bs => by
      have hbs := beVal_lt bs
      have hb : b.toNat + 1 ≤ 256 := b.toNat_lt
      have hmul : (b.toNat + 1) * 256 ^ bs.length ≤ 256 * 256 ^ bs.length :=
        Nat.mul_le_mul_right _ hb
      rw [beVal, List.length_cons, Nat.pow_succ']
      rw [Nat.add_one_mul] at hmul
      omega

/-- The first octet decides unless it is the same. -/
theorem beVal_cons_lt_cons {a b : UInt8} {as bs : List UInt8} (hlen : as.length = bs.length) :
    beVal (a :: as) < beVal (b :: bs) ↔ a < b ∨ a = b ∧ beVal as < beVal bs := by
  have has := beVal_lt as
  have hbs := beVal_lt bs
  rw [beVal, beVal, hlen, UInt8.lt_iff_toNat_lt]
  rw [hlen] at has
  rcases Nat.lt_trichotomy a.toNat b.toNat with h | h | h
  · have hmul := Nat.mul_le_mul_right (256 ^ bs.length) h
    rw [Nat.succ_eq_add_one, Nat.add_one_mul] at hmul
    constructor
    · intro _
      exact .inl h
    · intro _
      omega
  · have hab := UInt8.toNat_inj.1 h
    subst hab
    simp
  · have hmul := Nat.mul_le_mul_right (256 ^ bs.length) h
    rw [Nat.succ_eq_add_one, Nat.add_one_mul] at hmul
    have hne : a ≠ b := fun hab => Nat.lt_irrefl _ (hab ▸ h)
    constructor
    · intro _
      omega
    · rintro (hlt | ⟨hab, _⟩)
      · omega
      · exact absurd hab hne

/-- Of two strings of one length, only equal ones spell one number. -/
theorem beVal_injective : ∀ {l m : List UInt8}, l.length = m.length → beVal l = beVal m → l = m
  | [], [], _, _ => rfl
  | a :: as, b :: bs, hlen, h => by
      have hlen' : as.length = bs.length := Nat.succ.inj hlen
      have hlt : ¬ beVal (a :: as) < beVal (b :: bs) := by omega
      have hgt : ¬ beVal (b :: bs) < beVal (a :: as) := by omega
      rw [beVal_cons_lt_cons hlen'] at hlt
      rw [beVal_cons_lt_cons hlen'.symm] at hgt
      have hab : a = b := by
        refine UInt8.le_antisymm ?_ ?_
        · exact UInt8.not_lt.1 fun hba => hgt (.inl hba)
        · exact UInt8.not_lt.1 fun hab => hlt (.inl hab)
      subst hab
      rw [beVal, beVal, hlen', Nat.add_left_cancel_iff] at h
      rw [beVal_injective hlen' h]

@[simp] theorem beVal_replicate_zero (n : Nat) : beVal (List.replicate n 0) = 0 := by
  induction n with
  | zero => rfl
  | succ n ih => simp [List.replicate_succ, beVal, ih]

/-- The next number: the last octet is incremented, and one that becomes zero carries into the
octet before it. The second component is the carry out of the string. -/
def beSucc : List UInt8 → List UInt8 × Bool
  | [] => ([], true)
  | b :: bs =>
    let r := beSucc bs
    if r.2 then ((b + 1) :: r.1, b + 1 == 0) else (b :: r.1, false)

@[simp] theorem length_beSucc : ∀ l : List UInt8, (beSucc l).1.length = l.length
  | [] => rfl
  | b :: bs => by
      have ih := length_beSucc bs
      rw [beSucc]
      split <;> simp [ih]

/-- **Counting.** The carry is worth `256 ^ length`, so the string is the next number unless it
wraps. -/
theorem beVal_beSucc : ∀ l : List UInt8,
    beVal (beSucc l).1 + (if (beSucc l).2 then 256 ^ l.length else 0) = beVal l + 1
  | [] => by simp [beSucc, beVal]
  | b :: bs => by
      have ih := beVal_beSucc bs
      have hlen := length_beSucc bs
      rw [beSucc]
      cases hc : (beSucc bs).2 with
      | false =>
        simp only [hc, Bool.false_eq_true, if_false, Nat.add_zero] at ih
        simp only [beVal, hlen, ih, Bool.false_eq_true, if_false]
        omega
      | true =>
        simp only [hc, if_true] at ih
        have hb : (b + 1).toNat = (b.toNat + 1) % 256 := by
          rw [UInt8.toNat_add]
          rfl
        have hlt : b.toNat < 256 := b.toNat_lt
        simp only [beVal, hlen, if_true, beq_iff_eq, List.length_cons, Nat.pow_succ']
        by_cases hz : b + 1 = 0
        · have hval : b.toNat = 255 := by
            rw [hz, UInt8.toNat_zero] at hb
            omega
          rw [if_pos hz, hz, UInt8.toNat_zero, hval]
          omega
        · have hne : (b + 1).toNat ≠ 0 := fun h => hz (UInt8.toNat_inj.1 h)
          have hval : (b + 1).toNat = b.toNat + 1 := by omega
          rw [if_neg hz, hval, Nat.add_one_mul]
          omega
