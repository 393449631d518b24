import Mathlib.Algebra.BigOperators.Intervals
import Mathlib.Data.Nat.ModEq

/-!
# Turns handed out round robin
-/

namespace Lib.RoundRobin

def Serving (places count : ℕ) (turns : ℕ → ℕ) : Prop :=
  ∀ place < places,
    count ≤ turns place * places + place ∧ turns place * places + place < count + places

variable {places count turn : ℕ} {turns : ℕ → ℕ}

theorem serving_zero : Serving places 0 fun _ => 0 := by
  intro place hplace
  simp [hplace]

section Turn

variable (h : Serving places count turns) (hpos : 0 < places)

include h hpos

theorem Serving.lt_iff : turn < count ↔ turn / places < turns (turn % places) := by
  obtain ⟨hlower, hupper⟩ := h (turn % places) (Nat.mod_lt turn hpos)
  have hsplit := Nat.div_add_mod' turn places
  constructor
  · intro hlt
    have hmul : turn / places * places < turns (turn % places) * places := by omega
    exact Nat.lt_of_mul_lt_mul_right hmul
  · intro hlt
    have hmul : (turn / places + 1) * places ≤ turns (turn % places) * places :=
      Nat.mul_le_mul_right places hlt
    rw [Nat.add_mul] at hmul
    omega

theorem Serving.div_le (hturn : turn ≤ count) : turn / places ≤ turns (turn % places) := by
  obtain ⟨hlower, -⟩ := h (turn % places) (Nat.mod_lt turn hpos)
  have hsplit := Nat.div_add_mod' turn places
  have hmul : turn / places * places ≤ turns (turn % places) * places := by omega
  exact Nat.le_of_mul_le_mul_right hmul hpos

theorem Serving.turns_next : turns (count % places) = count / places := by
  have hle : count / places ≤ turns (count % places) := h.div_le hpos le_rfl
  have hnot : ¬ count / places < turns (count % places) := by
    rw [← h.lt_iff hpos]
    exact lt_irrefl count
  omega

theorem Serving.next : Serving places (count + 1)
      (Function.update turns (count % places) (turns (count % places) + 1)) := by
  intro place hplace
  obtain ⟨hlower, hupper⟩ := h place hplace
  have hsplit := Nat.div_add_mod' count places
  have hnext := h.turns_next hpos
  by_cases heq : place = count % places
  · subst heq
    rw [Function.update_self, Nat.add_mul, hnext]
    omega
  · rw [Function.update_of_ne heq]
    -- No other place is next: its own next turn leaves another remainder.
    have hne : turns place * places + place ≠ count := by
      intro hcount
      apply heq
      rw [← hcount, Nat.mul_add_mod', Nat.mod_eq_of_lt hplace]
    omega

end Turn

theorem Serving.turns_le {turns' : ℕ → ℕ} (h : Serving places count turns)
    (h' : Serving places count turns') {place : ℕ} (hplace : place < places) :
    turns place ≤ turns' place := by
  by_contra hlt
  have hmul : (turns' place + 1) * places ≤ turns place * places :=
    Nat.mul_le_mul_right places (by omega)
  rw [Nat.add_mul] at hmul
  have hlower := (h' place hplace).1
  have hupper := (h place hplace).2
  omega

theorem exists_serving (hpos : 0 < places) (count : ℕ) :
    ∃ turns, Serving places count turns ∧ ∑ place ∈ Finset.range places, turns place = count := by
  induction count with
  | zero => exact ⟨fun _ => 0, serving_zero, by simp⟩
  | succ count ih =>
    obtain ⟨turns, hserving, hsum⟩ := ih
    refine ⟨_, hserving.next hpos, ?_⟩
    have hmem : count % places ∈ Finset.range places := Finset.mem_range.mpr (Nat.mod_lt count hpos)
    have herase := Finset.add_sum_erase _ turns hmem
    rw [Finset.sum_update_of_mem hmem, Finset.sdiff_singleton_eq_erase]
    omega

theorem Serving.sum_turns (h : Serving places count turns) (hpos : 0 < places) :
    ∑ place ∈ Finset.range places, turns place = count := by
  obtain ⟨turns', h', hsum⟩ := exists_serving hpos count
  rw [← hsum]
  apply Finset.sum_congr rfl
  intro place hplace
  have hplace := Finset.mem_range.mp hplace
  exact le_antisymm (h.turns_le h' hplace) (h'.turns_le h hplace)

theorem eq_of_mod_eq {modulus past now : ℕ} (hmod : now % modulus = past % modulus)
    (hle : past ≤ now) (hlt : now < past + modulus) : now = past := by
  have hdvd : modulus ∣ now - past := (Nat.modEq_iff_dvd' hle).mp hmod.symm
  have hzero : now - past = 0 := Nat.eq_zero_of_dvd_of_lt hdvd (by omega)
  omega

theorem eq_of_mod_eq_of_le_succ {modulus past now : ℕ} (hmodulus : 2 ≤ modulus)
    (hmod : now % modulus = past % modulus) (hle : past ≤ now + 1) (hlt : now < past + modulus) :
    now = past := by
  rcases Nat.lt_or_ge now past with hbehind | hahead
  · exact (eq_of_mod_eq hmod.symm hbehind.le (by omega)).symm
  · exact eq_of_mod_eq hmod hahead hlt

theorem wrap_succ {modulus : ℕ} (hpos : 0 < modulus) (now : ℕ) :
    (if modulus - 1 = now % modulus then 0 else now % modulus + 1) = (now + 1) % modulus := by
  have hlt := Nat.mod_lt now hpos
  rw [← Nat.mod_add_mod]
  split
  next hlast => rw [← hlast, Nat.sub_add_cancel hpos, Nat.mod_self]
  next hlast =>
    have hsmall : now % modulus + 1 < modulus := by omega
    rw [Nat.mod_eq_of_lt hsmall]

end Lib.RoundRobin
