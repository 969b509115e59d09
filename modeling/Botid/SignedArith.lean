import Mathlib.Algebra.Group.Int.Defs

/-! Signed arithmetic of a fixed width as C defines it: where the exact result does not fit, an
operation has none. -/
namespace Signed

variable {w : Nat} {x y z : Int}

/-- A value of the signed type of width `w`. -/
def Fits (w : Nat) (x : Int) : Prop := -2 ^ (w - 1) ≤ x ∧ x < 2 ^ (w - 1)

instance : Decidable (Fits w x) := inferInstanceAs (Decidable (_ ∧ _))

def checked (w : Nat) (x : Int) : Option Int := if Fits w x then some x else none

def add (w : Nat) (x y : Int) : Option Int := checked w (x + y)
def sub (w : Nat) (x y : Int) : Option Int := checked w (x - y)
def mul (w : Nat) (x y : Int) : Option Int := checked w (x * y)

/-- `x / y`, which truncates. -/
def div (w : Nat) (x y : Int) : Option Int := if y = 0 then none else checked w (x.tdiv y)

/-- `x % y`, which has a result where `x / y` does. -/
def rem (w : Nat) (x y : Int) : Option Int := (div w x y).map fun _ => x.tmod y

theorem checked_of_fits (h : Fits w x) : checked w x = some x := if_pos h

theorem checked_eq_some : checked w x = some z ↔ Fits w x ∧ z = x := by
  rw [checked]
  split
  · simp [*, eq_comm]
  · simp [*]

theorem add_of_fits (h : Fits w (x + y)) : add w x y = some (x + y) := checked_of_fits h
theorem sub_of_fits (h : Fits w (x - y)) : sub w x y = some (x - y) := checked_of_fits h
theorem mul_of_fits (h : Fits w (x * y)) : mul w x y = some (x * y) := checked_of_fits h

theorem add_eq_some : add w x y = some z ↔ Fits w (x + y) ∧ z = x + y := checked_eq_some
theorem sub_eq_some : sub w x y = some z ↔ Fits w (x - y) ∧ z = x - y := checked_eq_some
theorem mul_eq_some : mul w x y = some z ↔ Fits w (x * y) ∧ z = x * y := checked_eq_some

theorem Fits.of_le (hx : Fits w x) (h0 : 0 ≤ z) (h1 : z ≤ x) : Fits w z := by
  have : (0 : Int) ≤ 2 ^ (w - 1) := Int.pow_nonneg (by omega)
  unfold Fits at hx ⊢
  omega

/-- Between values that are not negative `/` is the floor. -/
theorem div_of_nonneg (hx : Fits w x) (h0 : 0 ≤ x) (hy : 0 < y) : div w x y = some (x / y) := by
  rw [div, if_neg (by omega), Int.tdiv_eq_ediv_of_nonneg h0]
  exact checked_of_fits (hx.of_le (Int.ediv_nonneg h0 (Int.le_of_lt hy)) (Int.ediv_le_self y h0))

theorem rem_of_nonneg (hx : Fits w x) (h0 : 0 ≤ x) (hy : 0 < y) : rem w x y = some (x % y) := by
  rw [rem, div_of_nonneg hx h0 hy, Option.map_some, Int.tmod_eq_emod_of_nonneg h0]

end Signed
