import PrismKit.Library.Loops
import Mathlib.Logic.Function.Basic

/-!
# Checked machine arithmetic

Operations that have a value only where the machine operation is exact: the
result fits its type, a difference does not go below zero, a divisor is not
zero, an access lies inside its table.  A program that is written with them
has a value exactly if each of these holds at each of its steps.
-/

namespace PrismKit.Library.Checked

/-- A first step that has a value is followed by the rest. -/
theorem step {α β : Type} {here : Option α} {result : α}
    {rest : α → Option β} {outcome : Option β}
    (known : here = some result) (further : rest result = outcome) :
    here >>= rest = outcome := by
  rw [known]
  exact further

/-- A value that fits an unsigned type with `size` values. -/
def unsigned (size value : Nat) : Option Nat :=
  if value < size then some value else none

def unsigned8 : Nat → Option Nat :=
  unsigned 256

def unsigned16 : Nat → Option Nat :=
  unsigned 65536

def unsigned32 : Nat → Option Nat :=
  unsigned 4294967296

section Unsigned

variable {size value : Nat}

theorem unsigned_of_lt (fits : value < size) :
    unsigned size value = some value :=
  if_pos fits

theorem unsigned8_of_lt (fits : value < 256) : unsigned8 value = some value :=
  unsigned_of_lt fits

theorem unsigned16_of_lt (fits : value < 65536) :
    unsigned16 value = some value :=
  unsigned_of_lt fits

theorem unsigned32_of_lt (fits : value < 4294967296) :
    unsigned32 value = some value :=
  unsigned_of_lt fits

end Unsigned

/-- A difference of unsigned values. -/
def sub (minuend subtrahend : Nat) : Option Nat :=
  if subtrahend ≤ minuend then some (minuend - subtrahend) else none

theorem sub_of_le {minuend subtrahend : Nat}
    (ordered : subtrahend ≤ minuend) :
    sub minuend subtrahend = some (minuend - subtrahend) :=
  if_pos ordered

def div (dividend divisor : Nat) : Option Nat :=
  if divisor = 0 then none else some (dividend / divisor)

def mod (dividend divisor : Nat) : Option Nat :=
  if divisor = 0 then none else some (dividend % divisor)

section Division

variable {divisor : Nat}

theorem div_of_ne_zero (nonzero : divisor ≠ 0) (dividend : Nat) :
    div dividend divisor = some (dividend / divisor) :=
  if_neg nonzero

theorem mod_of_ne_zero (nonzero : divisor ≠ 0) (dividend : Nat) :
    mod dividend divisor = some (dividend % divisor) :=
  if_neg nonzero

end Division

/-- A value that fits a signed type with `2 * half` values. -/
def signed (half value : Int) : Option Int :=
  if -half ≤ value ∧ value < half then some value else none

def signed16 : Int → Option Int :=
  signed 32768

def signed32 : Int → Option Int :=
  signed 2147483648

/-- A signed value that becomes unsigned. -/
def natural (value : Int) : Option Nat :=
  if 0 ≤ value then some value.toNat else none

section Signed

variable {half value : Int}

theorem signed_of_bounds (lower : -half ≤ value) (upper : value < half) :
    signed half value = some value :=
  if_pos ⟨lower, upper⟩

theorem signed16_of_bounds (lower : -32768 ≤ value) (upper : value < 32768) :
    signed16 value = some value :=
  signed_of_bounds lower upper

theorem signed32_of_bounds (lower : -2147483648 ≤ value)
    (upper : value < 2147483648) : signed32 value = some value :=
  signed_of_bounds lower upper

/-- A magnitude below the half of a signed type fits it. -/
theorem signed32_of_natAbs {bound : Nat} (near : value.natAbs ≤ bound)
    (small : bound < 2147483648) : signed32 value = some value := by
  apply signed32_of_bounds <;> omega

theorem natural_of_nonneg (nonnegative : 0 ≤ value) :
    natural value = some value.toNat :=
  if_pos nonnegative

end Signed

/-- The quotient of signed values, truncated toward zero. -/
def tdiv (dividend divisor : Int) : Option Int :=
  if divisor = 0 then none else some (dividend.tdiv divisor)

theorem tdiv_of_ne_zero {divisor : Int} (nonzero : divisor ≠ 0)
    (dividend : Int) : tdiv dividend divisor = some (dividend.tdiv divisor) :=
  if_neg nonzero

section Arrays

variable {α : Type} {size index : Nat}

/-- An access to an array of the given size. -/
def read (size : Nat) (items : Nat → α) (index : Nat) : Option α :=
  if index < size then some (items index) else none

def write (size : Nat) (items : Nat → α) (index : Nat) (value : α) :
    Option (Nat → α) :=
  if index < size then some (Function.update items index value) else none

theorem read_of_lt (inside : index < size) (items : Nat → α) :
    read size items index = some (items index) :=
  if_pos inside

theorem write_of_lt (inside : index < size) (items : Nat → α) (value : α) :
    write size items index value =
      some (Function.update items index value) :=
  if_pos inside

end Arrays

section Loops

variable {σ ε : Type}

def tryUpTo (body : Nat → σ → Option σ) (initial : σ) : Nat → Option σ
  | 0 => some initial
  | count + 1 => tryUpTo body initial count >>= body count

/-- The counted loop with a checked body that may leave with an error. -/
def tryUpToExcept (body : Nat → σ → Option (Except ε σ)) (initial : σ) :
    Nat → Option (Except ε σ)
  | 0 => some (.ok initial)
  | count + 1 => do
      match ← tryUpToExcept body initial count with
      | .error failure => some (.error failure)
      | .ok state => body count state

/-- A loop is exact if every iteration is, from the states that the exact
loop reaches. -/
theorem tryUpTo_eq {checked : Nat → σ → Option σ} {body : Nat → σ → σ}
    {initial : σ} (property : Nat → σ → Prop) (count : Nat)
    (start : property 0 initial)
    (iteration :
      ∀ index, index < count → ∀ state, property index state →
        checked index state = some (body index state) ∧
          property (index + 1) (body index state)) :
    tryUpTo checked initial count = some (forUpTo body initial count) := by
  induction count with
  | zero => rfl
  | succ count inductionHypothesis =>
      have earlier :=
        inductionHypothesis fun index below =>
          iteration index (Nat.lt_succ_of_lt below)
      have reached :=
        forUpTo_invariant property count start fun index below state holds =>
          (iteration index (Nat.lt_succ_of_lt below) state holds).2
      apply step earlier
      exact (iteration count (Nat.lt_succ_self count) _ reached).1

theorem tryUpToExcept_eq {checked : Nat → σ → Option (Except ε σ)}
    {body : Nat → σ → Except ε σ} {initial : σ}
    (property : Nat → σ → Prop) (count : Nat) (start : property 0 initial)
    (iteration :
      ∀ index, index < count → ∀ state, property index state →
        ∃ next, body index state = .ok next ∧
          checked index state = some (.ok next) ∧
          property (index + 1) next) :
    tryUpToExcept checked initial count =
      some (forUpToExcept body initial count) := by
  induction count with
  | zero => rfl
  | succ count inductionHypothesis =>
      have earlier :=
        inductionHypothesis fun index below =>
          iteration index (Nat.lt_succ_of_lt below)
      have reached :=
        forUpToExcept_invariant property count start
          fun index below state holds => by
            obtain ⟨next, plain, -, kept⟩ :=
              iteration index (Nat.lt_succ_of_lt below) state holds
            exact ⟨next, plain, kept⟩
      obtain ⟨state, ended, holds⟩ := reached
      obtain ⟨next, plain, exact, -⟩ :=
        iteration count (Nat.lt_succ_self count) state holds
      apply step earlier
      rw [forUpToExcept, ended]
      simp only [plain, exact]

end Loops

end PrismKit.Library.Checked
