import Mathlib.Algebra.BigOperators.Intervals
import Mathlib.Logic.Function.Basic

/-!
# Assignment to the least loaded place
-/

namespace Lib.LeastLoaded

def best (load : Nat → Nat) : (places : Nat) → Nat
  | 0 => 0
  | n + 1 => if load n ≤ load (best load n) then n else best load n

def add (load : Nat → Nat) (place : Nat) : Nat → Nat :=
  Function.update load place (load place + 1)

def assign (places : Nat) : (count : Nat) → (load : Nat → Nat) → List Nat
  | 0, _ => []
  | count + 1, load => best load places :: assign places count (add load (best load places))

def lack (places : Nat) (load : Nat → Nat) : Nat :=
  ∑ j ∈ Finset.Ico 1 places, (load 0 + 1 - load j)

variable {places : Nat} {load : Nat → Nat}

theorem best_lt (hpos : 0 < places) : best load places < places := by
  induction places with
  | zero => exact absurd hpos (Nat.lt_irrefl 0)
  | succ n ih =>
    unfold best
    split
    · exact Nat.lt_succ_self n
    · cases n with
      | zero => exact Nat.lt_succ_self 0
      | succ n => exact Nat.lt_succ_of_lt (ih (Nat.succ_pos n))

theorem load_best_le {j : Nat} (h : j < places) : load (best load places) ≤ load j ∧
      (best load places < j → load (best load places) < load j) := by
  induction places with
  | zero => exact absurd h (Nat.not_lt_zero j)
  | succ n ih =>
    unfold best
    rcases Nat.lt_succ_iff_lt_or_eq.mp h with hlt | rfl
    · split
      · next hle => exact ⟨hle.trans (ih hlt).1, fun hbehind => absurd hbehind (by omega)⟩
      · exact ih hlt
    · split
      · exact ⟨le_rfl, fun hbehind => absurd hbehind (Nat.lt_irrefl _)⟩
      · next hle => exact ⟨(Nat.lt_of_not_le hle).le, fun _ => Nat.lt_of_not_le hle⟩

@[simp] theorem length_assign (count : Nat) (load : Nat → Nat) :
    (assign places count load).length = count := by
  induction count generalizing load with
  | zero => rfl
  | succ count ih => rw [assign, List.length_cons, ih]

theorem add_apply (place j : Nat) : add load place j = load j + if place = j then 1 else 0 := by
  by_cases h : place = j
  · subst h
    rw [add, Function.update_self, if_pos rfl]
  · rw [add, Function.update_of_ne (Ne.symm h), if_neg h, Nat.add_zero]

theorem assign_split (hpos : 0 < places) {count : Nat} {before after : List Nat} {place : Nat}
    (h : assign places count load = before ++ place :: after) :
    place < places ∧ ∀ j < places, load place + before.count place ≤ load j + before.count j := by
  induction count generalizing load before with
  | zero => simp [assign] at h
  | succ count ih =>
    rw [assign] at h
    cases before with
    | nil =>
      cases h
      exact ⟨best_lt hpos, fun j hj => (load_best_le hj).1⟩
    | cons first before =>
      obtain ⟨rfl, hrest⟩ := List.cons.inj h
      obtain ⟨hplace, hleast⟩ := ih hrest
      refine ⟨hplace, fun j hj => ?_⟩
      have hj := hleast j hj
      simp only [add_apply] at hj
      simp only [List.count_cons, beq_iff_eq]
      omega

theorem lack_add {place : Nat} (hfirst : place ≠ 0) (hplace : place < places)
    (hle : load place ≤ load 0) : lack places (add load place) + 1 = lack places load := by
  have hmem : place ∈ Finset.Ico 1 places := Finset.mem_Ico.mpr ⟨by omega, hplace⟩
  unfold lack
  rw [← Finset.add_sum_erase _ _ hmem, ← Finset.add_sum_erase _ _ hmem]
  have hothers : ∑ j ∈ (Finset.Ico 1 places).erase place,
      (add load place 0 + 1 - add load place j) =
        ∑ j ∈ (Finset.Ico 1 places).erase place, (load 0 + 1 - load j) := by
    refine Finset.sum_congr rfl fun j hj => ?_
    rw [add_apply, add_apply, if_neg hfirst, if_neg (Finset.ne_of_mem_erase hj).symm]
    rfl
  rw [hothers, add_apply, add_apply, if_neg hfirst, if_pos rfl]
  omega

theorem zero_mem_assign_iff (hpos : 0 < places) (count : Nat) :
    0 ∈ assign places count load ↔ lack places load < count := by
  induction count generalizing load with
  | zero => simp [assign]
  | succ count ih =>
    rw [assign, List.mem_cons]
    by_cases hfirst : best load places = 0
    · have hnone : lack places load = 0 := by
        refine Finset.sum_eq_zero fun j hj => ?_
        obtain ⟨hbehind, hj⟩ := Finset.mem_Ico.mp hj
        have hmore : load (best load places) < load j := (load_best_le hj).2 (by omega)
        rw [hfirst] at hmore
        omega
      exact iff_of_true (.inl hfirst.symm) (by omega)
    · have hstep := lack_add hfirst (best_lt hpos) (load_best_le hpos).1
      rw [ih]
      constructor
      · rintro (hzero | hlt)
        · exact absurd hzero.symm hfirst
        · omega
      · intro hlt
        exact .inr (by omega)

end Lib.LeastLoaded
