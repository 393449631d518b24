import Mathlib.Algebra.BigOperators.Fin
import Mathlib.Data.Fintype.BigOperators
import Mathlib.Data.Fin.Tuple.Basic
import Mathlib.Data.Finset.Powerset
import Mathlib.Data.Nat.Factorial.Basic
import Mathlib.Data.List.Basic
import Mathlib.Order.Fin.Basic

/-!
# Reservoir sampling
-/

namespace Lib.Reservoir

abbrev Draw := (k : Nat) → Fin (k + 1)

variable {α : Type*}

def offer (draw : Draw) (size : Nat) (state : List α × Nat) (x : α) : List α × Nat :=
  if state.2 < size then (state.1 ++ [x], state.2 + 1)
  else if (draw state.2).val < size then (state.1.set (draw state.2).val x, state.2 + 1)
  else (state.1, state.2 + 1)

def sample (draw : Draw) (size : Nat) (xs : List α) : List α :=
  (xs.foldl (offer draw size) ([], 0)).1

variable {draw : Draw} {size : Nat} {state : List α × Nat} {xs : List α}

theorem mem_offer {x y : α}
    (h : y ∈ (offer draw size state x).1) : y ∈ state.1 ∨ y = x := by
  unfold offer at h
  split at h
  · simpa using h
  · split at h
    · exact List.mem_or_eq_of_mem_set h
    · exact .inl h

theorem mem_loop {y : α}
    (h : y ∈ (xs.foldl (offer draw size) state).1) : y ∈ state.1 ∨ y ∈ xs := by
  induction xs generalizing state with
  | nil => exact .inl h
  | cons x xs ih =>
    rcases ih h with hkept | hrest
    · rcases mem_offer hkept with hbefore | rfl
      · exact .inl hbefore
      · exact .inr List.mem_cons_self
    · exact .inr (List.mem_cons_of_mem _ hrest)

theorem mem_of_mem_sample {x : α}
    (h : x ∈ sample draw size xs) : x ∈ xs := by
  rcases mem_loop h with hnone | hmem
  · cases hnone
  · exact hmem

theorem length_offer (draw : Draw) (size : Nat) {state : List α × Nat}
    (h : state.1.length = min size state.2) (x : α) :
    (offer draw size state x).1.length = min size (offer draw size state x).2 := by
  unfold offer
  split
  · rw [List.length_append, List.length_singleton, h]
    omega
  · split
    · rw [List.length_set, h]
      omega
    · rw [h]
      omega

@[simp] theorem snd_offer (draw : Draw) (size : Nat) (state : List α × Nat) (x : α) :
    (offer draw size state x).2 = state.2 + 1 := by
  unfold offer
  split
  · rfl
  · split
    · rfl
    · rfl

theorem loop_spec (draw : Draw) (size : Nat) {state : List α × Nat}
    (h : state.1.length = min size state.2) (xs : List α) :
    (xs.foldl (offer draw size) state).2 = state.2 + xs.length ∧
      (xs.foldl (offer draw size) state).1.length = min size (state.2 + xs.length) := by
  induction xs generalizing state with
  | nil => exact ⟨rfl, h⟩
  | cons x xs ih =>
    obtain ⟨hcount, hlength⟩ := ih (length_offer draw size h x)
    rw [snd_offer, Nat.add_right_comm, Nat.add_assoc] at hcount hlength
    exact ⟨hcount, hlength⟩

theorem length_sample (draw : Draw) (size : Nat) (xs : List α) :
    (sample draw size xs).length = min size xs.length := by
  have hlength := (@loop_spec _ draw size ([], 0) (Nat.min_zero size).symm xs).2
  rwa [Nat.zero_add] at hlength

open Nat Finset

variable {α : Type*} {size count : Nat}

variable {kept : List α} (draw : Draw) {xs : List α}

variable [DecidableEq α]

end Lib.Reservoir
