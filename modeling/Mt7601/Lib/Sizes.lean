/-
# Sizes of fields and tables

A literal of `Fin n` needs that `n` is not zero. For the sizes that fields and tables have, this is
said once.
-/
import Mathlib.Algebra.GroupWithZero.Nat

namespace Sizes

instance neZero2 : NeZero 2 := ⟨by decide⟩
instance neZero4 : NeZero 4 := ⟨by decide⟩
instance neZero6 : NeZero 6 := ⟨by decide⟩
instance neZero8 : NeZero 8 := ⟨by decide⟩
instance neZero16 : NeZero 16 := ⟨by decide⟩
instance neZero64 : NeZero 64 := ⟨by decide⟩
instance neZero128 : NeZero 128 := ⟨by decide⟩
instance neZero1024 : NeZero 1024 := ⟨by decide⟩
instance neZero4096 : NeZero 4096 := ⟨by decide⟩

end Sizes
