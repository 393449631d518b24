import SessionRouter.Lib.Bytes
import SessionRouter.Lib.Table

/-!
# XOR digests of tables
-/

namespace Lib.Table

section

variable {K V : Type*} [DecidableEq K]

theorem entries_perm {left right : Table K V} (h : ∀ key, left.find key = right.find key) :
    left.entries.Perm right.entries := by
  rw [List.perm_ext_iff_of_nodup left.nodupKeys.nodup right.nodupKeys.nodup]
  rintro ⟨key, value⟩
  rw [← find_eq_some_iff, ← find_eq_some_iff, h key]

theorem entries_perm_cons_remove {table : Table K V} {key : K} {value : V}
    (h : table.find key = some value) :
    table.entries.Perm (⟨key, value⟩ :: (table.remove key).entries) := by
  -- the right side is what assigning the stored value again gives
  show table.entries.Perm (table.insertOrAssign key value).entries
  apply entries_perm
  intro other
  rw [find_insertOrAssign]
  by_cases hother : other = key
  · rw [if_pos hother, hother, h]
  · rw [if_neg hother]

end

variable {K : Type*} [DecidableEq K] {size : Nat}

def digest (table : Table K (FixedBytes size)) : FixedBytes size :=
  table.entries.foldr (fun entry acc => entry.2 ^^^ acc) (FixedBytes.zero size)

instance : LeftCommutative
    fun (entry : Sigma fun _ : K => FixedBytes size) (acc : FixedBytes size) => entry.2 ^^^ acc :=
  ⟨fun left right acc => by ac_rfl⟩

theorem digest_congr {left right : Table K (FixedBytes size)}
    (h : ∀ key, left.find key = right.find key) : left.digest = right.digest :=
  (entries_perm h).foldr_eq _

theorem digest_remove (table : Table K (FixedBytes size)) (key : K) : (table.remove key).digest =
      table.digest ^^^ (table.find key).getD (FixedBytes.zero size) := by
  cases hfind : table.find key with
  | none =>
    rw [Option.getD_none, FixedBytes.xor_zero]
    apply digest_congr
    intro other
    rw [find_remove]
    by_cases hother : other = key
    · rw [if_pos hother, hother, hfind]
    · rw [if_neg hother]
  | some value =>
    have hsum : table.digest = value ^^^ (table.remove key).digest :=
      (entries_perm_cons_remove hfind).foldr_eq _
    rw [hsum, Option.getD_some, FixedBytes.xor_comm value, FixedBytes.xor_xor_cancel_right]

theorem digest_insertOrAssign (table : Table K (FixedBytes size)) (key : K)
    (value : FixedBytes size) :
    (table.insertOrAssign key value).digest =
      table.digest ^^^ (table.find key).getD (FixedBytes.zero size) ^^^ value := by
  have hsum : (table.insertOrAssign key value).digest = value ^^^ (table.remove key).digest := rfl
  rw [hsum, digest_remove, FixedBytes.xor_comm]

theorem digest_emplace_zero (table : Table K (FixedBytes size)) (key : K) :
    (table.emplace key (FixedBytes.zero size)).digest = table.digest := by
  cases hfind : table.find key with
  | some value => simp [emplace, hfind]
  | none =>
    rw [emplace_of_find_none hfind, digest_insertOrAssign, hfind, Option.getD_none,
      FixedBytes.xor_zero, FixedBytes.xor_zero]

end Lib.Table
