import SessionRouter.Lib.Bytes
import Mathlib.Data.Nat.Digits.Defs

/-!
# Text in parts
-/

namespace Lib.Split

section

variable {α : Type*} [DecidableEq α] {sep : α} {text : List α}

theorem splitOn_of_notMem (h : sep ∉ text) : text.splitOn sep = [text] := by
  rw [List.splitOn_eq_splitOnP, List.splitOnP_eq_singleton]
  intro char hmem
  simpa using ne_of_mem_of_not_mem hmem h

theorem notMem_of_mem_splitOn {piece : List α} (h : piece ∈ text.splitOn sep) : sep ∉ piece := by
  induction hlength : text.length using Nat.strong_induction_on generalizing text with
  | _ length ih =>
    subst hlength
    by_cases hsep : sep ∈ text
    · obtain ⟨front, back, rfl, hfront⟩ := List.eq_append_cons_of_mem hsep
      rw [List.splitOn_append_cons_self, List.mem_append, splitOn_of_notMem hfront,
        List.mem_singleton] at h
      rcases h with rfl | h
      · exact hfront
      · exact ih back.length (by simp; omega) h rfl
    · rw [splitOn_of_notMem hsep, List.mem_singleton] at h
      exact h ▸ hsep

theorem splitOn_eq_iff {pieces : List (List α)} : text.splitOn sep = pieces ↔
      pieces ≠ [] ∧ (∀ piece ∈ pieces, sep ∉ piece) ∧ text = [sep].intercalate pieces := by
  constructor
  · rintro rfl
    exact ⟨List.splitOn_ne_nil _ _, fun _ => notMem_of_mem_splitOn,
      (List.intercalate_splitOn sep).symm⟩
  · rintro ⟨hne, hsep, rfl⟩
    exact List.splitOn_intercalate sep hsep hne

end

structure IsDecimal (text : Bytes) (value : Nat) : Prop where
  nonempty : text ≠ []
  digits : ∀ char ∈ text, 48 ≤ char ∧ char ≤ 57
  value_eq : Nat.ofDigits 10 (text.reverse.map fun char => char.toNat - 48) = value

theorem foldl_digits {text : Bytes} (h : ∀ char ∈ text, 48 ≤ char ∧ char ≤ 57) :
    text.foldl (fun value char => value * 10 + (char - 48).toNat) 0 =
      Nat.ofDigits 10 (text.reverse.map fun char => char.toNat - 48) := by
  rw [Nat.ofDigits_eq_foldr, List.foldr_map, List.foldr_reverse]
  refine List.foldl_ext _ _ _ fun value char hmem => ?_
  rw [UInt8.toNat_sub_of_le _ _ (h char hmem).1]
  simp [Nat.mul_comm, Nat.add_comm]

theorem isDecimal_iff {text : Bytes} {value : Nat} : IsDecimal text value ↔
      ¬(text = [] ∨ ¬text.all (fun char => 48 ≤ char && char ≤ 57) = true) ∧
        text.foldl (fun value char => value * 10 + (char - 48).toNat) 0 = value := by
  rw [not_or, not_not, List.all_eq_true]
  simp only [Bool.and_eq_true, decide_eq_true_eq]
  constructor
  · rintro ⟨hne, hdigits, hvalue⟩
    exact ⟨⟨hne, hdigits⟩, (foldl_digits hdigits).trans hvalue⟩
  · rintro ⟨⟨hne, hdigits⟩, hvalue⟩
    exact ⟨hne, hdigits, (foldl_digits hdigits).symm.trans hvalue⟩

theorem readDecimal_eq_some_iff {β : Type*} {ofNat : Nat → β} {toNat : β → Nat} {bound : Nat}
    (hofNat : ∀ n ≤ bound, toNat (ofNat n) = n) (htoNat : ∀ value, toNat value ≤ bound)
    (hinv : ∀ value, ofNat (toNat value) = value) {text : Bytes} {value : β} :
    (if text = [] ∨ ¬text.all (fun char => 48 ≤ char && char ≤ 57) then none
      else
        let value := text.foldl (fun value char => value * 10 + (char - 48).toNat) 0
        if bound < value then none else some (ofNat value)) = some value ↔
      IsDecimal text (toNat value) := by
  rw [isDecimal_iff]
  split
  · next h => exact iff_of_false (by simp) fun hboth => hboth.1 h
  · next h =>
    rw [and_iff_right h]
    dsimp only
    constructor
    · intro hvalue
      split at hvalue
      · cases hvalue
      · next hle =>
        cases hvalue
        exact (hofNat _ (Nat.le_of_not_lt hle)).symm
    · intro hvalue
      rw [hvalue, if_neg (Nat.not_lt.mpr (htoNat value)), hinv]

end Lib.Split
