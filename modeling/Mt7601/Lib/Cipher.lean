/-
# Ciphers built in rounds, and key streams

Two ways of building a cipher, over arbitrary types:

* a sequence of *rounds*, each with an inverse: running the inverses backwards undoes the whole
  (`rounds_undo`), also where the rounds have to be regrouped first (`rounds_comm`);
* a *key stream*: a state that advances by itself and gives one octet a step, added to the text
  without carry. The state never sees the text, so the same stream deciphers what it enciphered
  (`keystream_keystream`).
-/
import Mathlib.Data.List.Basic
import Mathlib.Logic.Function.Iterate

namespace Cipher

variable {σ ι : Type}

/-! ## 1. Rounds -/

/-- The state after the rounds `is`. -/
def rounds (f : ι → σ → σ) (s : σ) (is : List ι) : σ :=
  is.foldl (fun s i => f i s) s

theorem rounds_nil (f : ι → σ → σ) (s : σ) : rounds f s [] = s := rfl

theorem rounds_cons (f : ι → σ → σ) (s : σ) (i : ι) (is : List ι) :
    rounds f s (i :: is) = rounds f (f i s) is := rfl

theorem rounds_append (f : ι → σ → σ) (s : σ) (is js : List ι) :
    rounds f s (is ++ js) = rounds f (rounds f s is) js := by
  simp [rounds]

/-- What every round of the list preserves, the whole preserves. -/
theorem rounds_invariant {f : ι → σ → σ} (P : σ → Prop) :
    ∀ {is : List ι} {s : σ}, (∀ i ∈ is, ∀ s, P s → P (f i s)) → P s → P (rounds f s is)
  | [], _, _, hs => hs
  | i :: is, s, hP, hs => by
      rw [rounds_cons]
      refine rounds_invariant P (fun j hj => hP j (.tail _ hj)) ?_
      exact hP i (.head _) s hs

/-- **The inverses, last round first, undo the rounds.** `P` is what the rounds keep and need. -/
theorem rounds_undo {f g : ι → σ → σ} (P : σ → Prop) :
    ∀ {is : List ι} {s : σ}, (∀ i ∈ is, ∀ s, P s → P (f i s)) →
      (∀ i ∈ is, ∀ s, P s → g i (f i s) = s) → P s →
      rounds g (rounds f s is) is.reverse = s
  | [], _, _, _, _ => rfl
  | i :: is, s, hP, hg, hs => by
      have hmem : ∀ j ∈ is, j ∈ i :: is := fun j hj => .tail _ hj
      have hrest : rounds g (rounds f (f i s) is) is.reverse = f i s :=
        rounds_undo P (fun j hj => hP j (hmem j hj)) (fun j hj => hg j (hmem j hj))
          (hP i (.head _) s hs)
      rw [rounds_cons, List.reverse_cons, rounds_append, hrest, rounds_cons, rounds_nil]
      exact hg i (.head _) s hs

/-- **Rounds seen through `φ`.** If `φ` turns each round of one kind into one of another, it turns
the whole into the whole. -/
theorem rounds_comm {τ : Type} {f : ι → σ → σ} {h : ι → τ → τ} (φ : σ → τ)
    (hφ : ∀ i s, φ (f i s) = h i (φ s)) {s : σ} {is : List ι} :
    φ (rounds f s is) = rounds h (φ s) is := by
  induction is generalizing s with
  | nil => rfl
  | cons i is ih => rw [rounds_cons, rounds_cons, ih, hφ]

/-! ## 2. Key streams -/

/-- The text with the stream of `s` added: the state advances before it gives its octet. -/
def keystream (next : σ → σ) (octet : σ → UInt8) : σ → List UInt8 → List UInt8
  | _, [] => []
  | s, b :: bs => (b ^^^ octet (next s)) :: keystream next octet (next s) bs

variable {next : σ → σ} {octet : σ → UInt8}

@[simp] theorem length_keystream (s : σ) (l : List UInt8) :
    (keystream next octet s l).length = l.length := by
  induction l generalizing s with
  | nil => rfl
  | cons b bs ih => simp [keystream, ih]

/-- One octet more. -/
theorem keystream_concat (s : σ) (l : List UInt8) (b : UInt8) :
    keystream next octet s (l ++ [b]) =
      keystream next octet s l ++ [b ^^^ octet (next^[l.length + 1] s)] := by
  induction l generalizing s with
  | nil => rfl
  | cons a l ih =>
    rw [List.cons_append, keystream, keystream, ih, List.cons_append, List.length_cons,
      ← Function.iterate_succ_apply]

/-- **The stream is its own inverse.** -/
theorem keystream_keystream (s : σ) (l : List UInt8) :
    keystream next octet s (keystream next octet s l) = l := by
  induction l generalizing s with
  | nil => rfl
  | cons b bs ih => rw [keystream, keystream, ih, UInt8.xor_assoc, UInt8.xor_self, UInt8.xor_zero]

end Cipher
