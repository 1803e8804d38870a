/-
Machine integers of 64 bits whose arithmetic fails when it leaves their range.

Unsigned values are natural numbers and signed ones integers; an operation
that over- or underflows has no result. A cast between the two never fails:
it reads the same bits.
-/
import Mathlib.Algebra.Order.Ring.Int

namespace Ruletka

namespace Checked

def add (a b : Nat) : Option Nat := if a + b < 2 ^ 64 then some (a + b) else none

def sub (a b : Nat) : Option Nat := if b ≤ a then some (a - b) else none

def mul (a b : Nat) : Option Nat := if a * b < 2 ^ 64 then some (a * b) else none

/-- A signed result. -/
def int (x : Int) : Option Int := if -2 ^ 63 ≤ x ∧ x < 2 ^ 63 then some x else none

def asInt (n : Nat) : Int := if n < 2 ^ 63 then n else n - 2 ^ 64

def asNat (x : Int) : Nat := (x % 2 ^ 64).toNat

variable {a b n : Nat} {x : Int}

theorem add_of_lt (h : a + b < 2 ^ 64) : add a b = some (a + b) := if_pos h

theorem sub_of_le (h : b ≤ a) : sub a b = some (a - b) := if_pos h

theorem mul_of_lt (h : a * b < 2 ^ 64) : mul a b = some (a * b) := if_pos h

theorem int_of_lt (h₀ : 0 ≤ x) (h : x < 2 ^ 63) : int x = some x := if_pos ⟨by omega, h⟩

theorem asInt_of_lt (h : n < 2 ^ 63) : asInt n = n := if_pos h

theorem asNat_natCast (h : n < 2 ^ 64) : asNat n = n := by
  unfold asNat
  omega

/-- A step that has a result hands it on. -/
theorem bind_eq {α β : Type} {step : Option α} {rest : α → Option β} {v : α} {res : Option β}
    (h : step = some v) (hrest : rest v = res) : (step >>= rest) = res := by
  rw [h]
  exact hrest

end Checked

end Ruletka
