import Mathlib.Data.List.Sort
import Mathlib.Order.Defs.Unbundled

/-!
# The smallest elements of a list
-/

namespace Lib

variable {α : Type*}

section

variable (lt : α → α → Prop) [DecidableRel lt]

def increasing (l : List α) : List α :=
  l.insertionSort fun a b => ¬ lt b a

def smallest (k : Nat) (l : List α) : List α :=
  (increasing lt l).take k

theorem increasing_perm (l : List α) : (increasing lt l).Perm l := List.perm_insertionSort _ l

theorem smallest_isPrefix {k k' : Nat} (h : k ≤ k') (l : List α) :
    smallest lt k l <+: smallest lt k' l := by
  rw [smallest, smallest, ← Nat.min_eq_left h, ← List.take_take]
  exact List.take_prefix _ _

theorem length_smallest (k : Nat) (l : List α) : (smallest lt k l).length = min k l.length := by
  rw [smallest, List.length_take, (increasing_perm lt l).length_eq]

variable {lt} in
theorem mem_of_mem_smallest {k : Nat} {l : List α} {a : α} (h : a ∈ smallest lt k l) : a ∈ l :=
  (increasing_perm lt l).mem_iff.mp (List.mem_of_mem_take h)

end

variable {lt : α → α → Prop} [IsStrictTotalOrder α lt]

theorem not_lt_trans {a b c : α} (hab : ¬ lt b a) (hbc : ¬ lt c b) : ¬ lt c a := by
  intro hca
  rcases trichotomous_of lt a b with h | rfl | h
  · exact hbc (trans_of lt hca h)
  · exact hbc hca
  · exact hab h

theorem eq_of_perm_of_not_lt {l l' : List α} (hperm : l.Perm l')
    (h : l.Pairwise fun a b => ¬ lt b a) (h' : l'.Pairwise fun a b => ¬ lt b a) : l = l' := by
  refine hperm.eq_of_pairwise (fun a b _ _ hab hba => ?_) h h'
  rcases trichotomous_of lt a b with h | rfl | h
  · exact absurd h hba
  · rfl
  · exact absurd h hab

variable [DecidableRel lt]

variable (lt) in
theorem increasing_sorted (l : List α) : (increasing lt l).Pairwise fun a b => ¬ lt b a := by
  have htotal : Std.Total fun a b : α => ¬ lt b a :=
    ⟨fun a b => not_or_of_imp fun hba => asymm_of lt hba⟩
  have htrans : IsTrans α fun a b : α => ¬ lt b a := ⟨fun _ _ _ => not_lt_trans⟩
  exact List.pairwise_insertionSort _ l

theorem smallest_eq_of_perm {l l' : List α} (h : l.Perm l') (k : Nat) :
    smallest lt k l = smallest lt k l' := by
  unfold smallest
  rw [eq_of_perm_of_not_lt (((increasing_perm lt l).trans h).trans (increasing_perm lt l').symm)
    (increasing_sorted lt l) (increasing_sorted lt l')]

theorem smallest_sorted {l : List α} (hnodup : l.Nodup) (k : Nat) :
    (smallest lt k l).Pairwise lt := by
  have hdistinct : (increasing lt l).Pairwise (· ≠ ·) := (increasing_perm lt l).nodup_iff.mpr hnodup
  have hlt : (increasing lt l).Pairwise lt := by
    refine (hdistinct.and (increasing_sorted lt l)).imp fun {a b} hab => ?_
    rcases trichotomous_of lt a b with h | h | h
    · exact h
    · exact absurd h hab.1
    · exact absurd h hab.2
  exact hlt.sublist (List.take_sublist k _)

theorem lt_of_mem_smallest {k : Nat} {l : List α} {a b : α} (ha : a ∈ smallest lt k l)
    (hb : b ∈ l) (hleft : b ∉ smallest lt k l) : lt a b := by
  have hsorted := increasing_sorted lt l
  rw [← List.take_append_drop k (increasing lt l), List.pairwise_append] at hsorted
  have hdrop : b ∈ (increasing lt l).drop k := by
    have hmem := (increasing_perm lt l).mem_iff.mpr hb
    rw [← List.take_append_drop k (increasing lt l), List.mem_append] at hmem
    exact hmem.resolve_left hleft
  rcases trichotomous_of lt a b with h | rfl | h
  · exact h
  · exact absurd ha hleft
  · exact absurd h (hsorted.2.2 a ha b hdrop)

end Lib
