import Mathlib.Tactic

/-!
# Signed 64-bit arithmetic

A computation on signed 64-bit words is modelled by the computation on the integers, brought back
to the range of the words at the end.  Sums, differences and products commute with reducing
modulo `2 ^ 64`, so one reduction per compared value is enough.
-/

namespace Lib

/-- The word that holds `x` in two's complement. -/
def int64 (x : Int) : Int :=
  (x + 9223372036854775808) % 18446744073709551616 - 9223372036854775808

def FitsInt64 (x : Int) : Prop :=
  -9223372036854775808 ≤ x ∧ x < 9223372036854775808

instance : DecidablePred FitsInt64 :=
  fun _ => instDecidableAnd

theorem int64_of_fits {x : Int} (h : FitsInt64 x) : int64 x = x := by
  obtain ⟨hlow, hhigh⟩ := h
  rw [int64, Int.emod_eq_of_lt (by omega) (by omega)]
  omega

/-- A difference of two words that are not negative never wraps. -/
theorem int64_sub {x y : Int} (hx : 0 ≤ x ∧ FitsInt64 x) (hy : 0 ≤ y ∧ FitsInt64 y) :
    int64 (x - y) = x - y := by
  obtain ⟨hx, -, hxhigh⟩ := hx
  obtain ⟨hy, -, hyhigh⟩ := hy
  exact int64_of_fits ⟨by omega, by omega⟩

end Lib
