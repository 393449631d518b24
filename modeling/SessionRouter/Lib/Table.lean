import Mathlib.Data.List.AList

/-!
# Keyed tables
-/

namespace Lib

abbrev Table (K V : Type*) := AList fun _ : K => V

namespace Table

variable {K V : Type*} [DecidableEq K]

def find (table : Table K V) (key : K) : Option V :=
  table.lookup key

def emplace (table : Table K V) (key : K) (value : V) : Table K V :=
  if (table.find key).isSome then table else table.insert key value

def insertOrAssign (table : Table K V) (key : K) (value : V) : Table K V :=
  table.insert key value

def remove (table : Table K V) (key : K) : Table K V :=
  table.erase key

def eraseIf (table : Table K V) (drop : K → V → Bool) : Table K V :=
  ⟨table.entries.filter fun entry => !drop entry.1 entry.2,
    table.nodupKeys.sublist List.filter_sublist⟩

def values (table : Table K V) : List V :=
  table.entries.map fun entry => entry.2

@[simp] theorem find_empty (key : K) : (∅ : Table K V).find key = none := rfl

variable {table : Table K V} {key : K}

theorem find_eq_some_iff {value : V} :
    table.find key = some value ↔ (⟨key, value⟩ : Sigma fun _ : K => V) ∈ table.entries :=
  AList.mem_lookup_iff

theorem mem_values_iff {value : V} : value ∈ table.values ↔ ∃ key, table.find key = some value := by
  constructor
  · intro hmem
    obtain ⟨⟨key, found⟩, hentry, rfl⟩ := List.mem_map.mp hmem
    exact ⟨key, find_eq_some_iff.mpr hentry⟩
  · rintro ⟨key, hfind⟩
    exact List.mem_map.mpr ⟨⟨key, value⟩, find_eq_some_iff.mp hfind, rfl⟩

theorem find_insertOrAssign (table : Table K V) (key other : K) (value : V) :
    (table.insertOrAssign key value).find other =
      if other = key then some value else table.find other := by
  by_cases h : other = key
  · subst h
    simp [insertOrAssign, find]
  · simp [insertOrAssign, find, h]

theorem emplace_of_find_none (h : table.find key = none) (value : V) :
    table.emplace key value = table.insertOrAssign key value := by
  simp [emplace, insertOrAssign, h]

theorem find_emplace (table : Table K V) (key other : K) (value : V) :
    (table.emplace key value).find other =
      if other = key ∧ table.find key = none then some value
      else table.find other := by
  cases hfind : table.find key with
  | some stored => simp [emplace, hfind]
  | none =>
    rw [emplace_of_find_none hfind, find_insertOrAssign]
    simp

theorem find_remove (table : Table K V) (key other : K) : (table.remove key).find other =
      if other = key then none else table.find other := by
  by_cases h : other = key
  · subst h
    simp [remove, find]
  · simp [remove, find, h]

theorem find_of_find_remove {other : K} {value : V}
    (h : (table.remove key).find other = some value) : table.find other = some value := by
  rw [find_remove] at h
  split at h
  · cases h
  · exact h

theorem find_remove_eq_some_iff {value : V} (hfind : table.find key = some value)
    (honly : ∀ other, table.find other = some value → other = key) (other : K) (found : V) :
    (table.remove key).find other = some found ↔ table.find other = some found ∧ found ≠ value := by
  rw [find_remove]
  split
  · next heq =>
    rw [heq, hfind]
    simp [eq_comm]
  · next hne =>
    refine ⟨fun hother => ⟨hother, ?_⟩, And.left⟩
    rintro rfl
    exact hne (honly other hother)

theorem find_eraseIf (table : Table K V) (drop : K → V → Bool) (key : K) :
    (table.eraseIf drop).find key = (table.find key).filter fun value => !drop key value := by
  apply Option.ext
  intro value
  rw [Option.filter_eq_some_iff, find_eq_some_iff, find_eq_some_iff]
  simp [eraseIf, List.mem_filter]

theorem insertOrAssign_emplace (table : Table K V) (h : table.find key = none) (stub value : V) :
    (table.emplace key stub).insertOrAssign key value = table.insertOrAssign key value := by
  rw [emplace_of_find_none h]
  exact AList.insert_insert ..

theorem remove_emplace (h : table.find key = none) (stub : V) :
    (table.emplace key stub).remove key = table := by
  rw [emplace_of_find_none h]
  apply AList.ext
  change List.kerase key (AList.insert key stub table).entries = table.entries
  rw [AList.entries_insert_of_notMem (AList.lookup_eq_none.mp h)]
  exact List.kerase_cons_eq rfl

theorem mem_keys_iff : key ∈ table.keys ↔ (table.find key).isSome = true := by
  rw [← AList.mem_keys, find, AList.lookup_isSome]

theorem keys_insertOrAssign_perm (h : (table.find key).isSome = true) (value : V) :
    (table.insertOrAssign key value).keys.Perm table.keys := by
  rw [insertOrAssign, AList.keys_insert]
  exact (List.perm_cons_erase (mem_keys_iff.mpr h)).symm

theorem keys_emplace (h : table.find key = none) (value : V) :
    (table.emplace key value).keys = key :: table.keys := by
  have habsent : key ∉ table.keys := by
    rw [mem_keys_iff, h]
    simp
  rw [emplace_of_find_none h, insertOrAssign, AList.keys_insert, List.erase_of_not_mem habsent]

theorem countP_entries {p : K → V → Bool} {q : K → Bool}
    (h : ∀ key value, table.find key = some value → p key value = q key) :
    table.entries.countP (fun entry => p entry.1 entry.2) = table.keys.countP q := by
  rw [AList.keys, List.keys, List.countP_map]
  apply List.countP_congr
  intro entry hmem
  have hfind : table.find entry.1 = some entry.2 := find_eq_some_iff.mpr hmem
  simp [h _ _ hfind]

theorem flatMap_entries {β : Type*} (table : Table K V) (key : K)
    {f : (Sigma fun _ : K => V) → List β}
    (h : ∀ entry ∈ table.entries, entry.1 ≠ key → f entry = []) :
    table.entries.flatMap f = (table.find key).elim [] fun value => f ⟨key, value⟩ := by
  rw [show table.find key = table.entries.dlookup key from rfl]
  have hnodup := table.nodupKeys
  generalize table.entries = entries at h hnodup
  induction entries with
  | nil => rfl
  | cons entry entries ih =>
    obtain ⟨first, value⟩ := entry
    rw [List.nodupKeys_cons] at hnodup
    rw [List.forall_mem_cons] at h
    rw [List.flatMap_cons]
    by_cases heq : first = key
    · subst heq
      have hrest : entries.flatMap f = [] := by
        rw [List.flatMap_eq_nil_iff]
        intro entry hmem
        refine h.2 entry hmem fun hkey => hnodup.1 ?_
        have hkeys := List.mem_keys_of_mem hmem
        rwa [hkey] at hkeys
      rw [List.dlookup_cons_eq, hrest, List.append_nil]
      rfl
    · rw [h.1 heq, List.nil_append, ih h.2 hnodup.2, List.dlookup_cons_ne _ _ (Ne.symm heq)]

end Table
end Lib
