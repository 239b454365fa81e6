import Mathlib.Algebra.Order.Ring.Defs
import Mathlib.Algebra.Order.Group.Defs

/-!
# Enclosures of errors

Closed intervals by their bounds, with the sums and multiples that carry the
error of the operands to the error of a result.  The bounds are computed, so
that an error budget is a calculation with numbers.
-/

namespace PrismKit.Library

/-- The values from one bound to another. -/
structure Enclosure (α : Type*) where
  lower : α
  upper : α

namespace Enclosure

variable {α : Type*}

def Holds [LE α] (enclosure : Enclosure α) (value : α) : Prop :=
  enclosure.lower ≤ value ∧ value ≤ enclosure.upper

def Within [LE α] (inner outer : Enclosure α) : Prop :=
  outer.lower ≤ inner.lower ∧ inner.upper ≤ outer.upper

instance [LE α] [DecidableLE α] (inner outer : Enclosure α) :
    Decidable (inner.Within outer) :=
  inferInstanceAs (Decidable (_ ∧ _))

instance [LE α] [DecidableLE α] (enclosure : Enclosure α) (value : α) :
    Decidable (enclosure.Holds value) :=
  inferInstanceAs (Decidable (_ ∧ _))

theorem Holds.widen [Preorder α] {inner outer : Enclosure α} {value : α}
    (held : inner.Holds value) (within : inner.Within outer) :
    outer.Holds value :=
  ⟨le_trans within.1 held.1, le_trans held.2 within.2⟩

/-- The sums of the values of two enclosures. -/
def sum [Add α] (left right : Enclosure α) : Enclosure α :=
  ⟨left.lower + right.lower, left.upper + right.upper⟩

/-- The multiples of the values; a negative factor exchanges the bounds. -/
def scale [Zero α] [Mul α] [LE α] [DecidableLE α] (factor : α)
    (enclosure : Enclosure α) : Enclosure α :=
  if 0 ≤ factor then
    ⟨factor * enclosure.lower, factor * enclosure.upper⟩
  else
    ⟨factor * enclosure.upper, factor * enclosure.lower⟩

theorem Holds.sum [AddCommMonoid α] [PartialOrder α] [IsOrderedAddMonoid α]
    {left right : Enclosure α} {first second : α} (hl : left.Holds first)
    (hr : right.Holds second) : (left.sum right).Holds (first + second) :=
  ⟨add_le_add hl.1 hr.1, add_le_add hl.2 hr.2⟩

section Ring

variable [Ring α] [LinearOrder α] [IsStrictOrderedRing α]

theorem Holds.scale {enclosure : Enclosure α} {value : α}
    (held : enclosure.Holds value) (factor : α) :
    (enclosure.scale factor).Holds (factor * value) := by
  unfold Enclosure.scale
  split
  · rename_i nonnegative
    exact
      ⟨mul_le_mul_of_nonneg_left held.1 nonnegative,
        mul_le_mul_of_nonneg_left held.2 nonnegative⟩
  · rename_i negative
    have nonpositive : factor ≤ 0 := le_of_lt (not_le.mp negative)
    exact
      ⟨mul_le_mul_of_nonpos_left held.2 nonpositive,
        mul_le_mul_of_nonpos_left held.1 nonpositive⟩

/-- The values of a linear form of three arguments. -/
def form (row : α × α × α) (x y z : Enclosure α) : Enclosure α :=
  ((x.scale row.1).sum (y.scale row.2.1)).sum (z.scale row.2.2)

theorem Holds.form {x y z : Enclosure α} {first second third : α}
    (hx : x.Holds first) (hy : y.Holds second) (hz : z.Holds third)
    (row : α × α × α) :
    (Enclosure.form row x y z).Holds
      (row.1 * first + row.2.1 * second + row.2.2 * third) :=
  ((hx.scale row.1).sum (hy.scale row.2.1)).sum (hz.scale row.2.2)

end Ring

end Enclosure

end PrismKit.Library
