import Mathlib.Dynamics.PeriodicPts.Defs

/-!
# Scanning a cycle
-/

namespace Lib.CyclicScan

variable {α : Type*} [DecidableEq α] (next : α → α) (free : α → Bool) (start : α)

def scan : Nat → α → Option (Option α)
  | 0, _ => none
  | rounds + 1, item =>
    if free item then some (some item)
    else if next item = start then some none
    else scan rounds (next item)

variable {next free start}

theorem scan_found {rounds : Nat} {item found : α}
    (h : scan next free start rounds item = some (some found)) :
    free found = true ∧ ∃ steps, next^[steps] item = found := by
  induction rounds generalizing item with
  | zero => cases h
  | succ rounds ih =>
    rw [scan] at h
    by_cases hfree : free item = true
    · rw [if_pos hfree] at h
      cases h
      exact ⟨hfree, 0, rfl⟩
    · rw [if_neg hfree] at h
      by_cases hback : next item = start
      · rw [if_pos hback] at h
        cases h
      · rw [if_neg hback] at h
        obtain ⟨hfound, steps, hsteps⟩ := ih h
        exact ⟨hfound, steps + 1, hsteps⟩

theorem scan_ends {rounds : Nat} {item : α} (hpositive : 0 < rounds)
    (hperiod : next^[rounds] item = start) :
    ∃ result, scan next free start rounds item = some result ∧
      (result = none → ∃ last < rounds, next^[last + 1] item = start ∧
        ∀ steps ≤ last, free (next^[steps] item) = false) := by
  induction rounds generalizing item with
  | zero => exact absurd hpositive (Nat.lt_irrefl 0)
  | succ rounds ih =>
    rw [scan]
    by_cases hfree : free item = true
    · rw [if_pos hfree]
      exact ⟨some item, rfl, fun h => absurd h (Option.some_ne_none item)⟩
    · have htaken : free item = false := Bool.eq_false_iff.mpr hfree
      rw [if_neg hfree]
      by_cases hback : next item = start
      · rw [if_pos hback]
        refine ⟨none, rfl, fun _ => ⟨0, Nat.succ_pos rounds, hback, ?_⟩⟩
        intro steps hsteps
        obtain rfl : steps = 0 := Nat.le_zero.mp hsteps
        exact htaken
      · rw [if_neg hback]
        -- one round alone would have led back to the start
        have hmore : 0 < rounds := by
          rcases Nat.eq_zero_or_pos rounds with rfl | hmore
          · exact absurd hperiod hback
          · exact hmore
        obtain ⟨result, hresult, hnone⟩ := ih hmore hperiod
        refine ⟨result, hresult, fun h => ?_⟩
        obtain ⟨last, hlast, hstart, htakens⟩ := hnone h
        refine ⟨last + 1, Nat.succ_lt_succ hlast, hstart, ?_⟩
        intro steps hsteps
        cases steps with
        | zero => exact htaken
        | succ steps => exact htakens steps (Nat.le_of_succ_le_succ hsteps)

theorem scan_cycle {period : Nat} (hpositive : 0 < period) (hperiod : next^[period] start = start) :
    ∃ result, scan next free start period start = some result ∧
      (result = none → ∀ steps, free (next^[steps] start) = false) := by
  obtain ⟨result, hresult, hnone⟩ := @scan_ends α _ next free start period start hpositive hperiod
  refine ⟨result, hresult, fun h steps => ?_⟩
  obtain ⟨last, -, hback, htaken⟩ := hnone h
  have hcycle : Function.IsPeriodicPt next (last + 1) start := hback
  rw [← hcycle.iterate_mod_apply steps]
  exact htaken _ (Nat.le_of_lt_succ (Nat.mod_lt steps (Nat.succ_pos last)))

end Lib.CyclicScan
