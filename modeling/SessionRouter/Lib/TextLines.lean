import Mathlib.Data.List.DropRight

/-!
# Lines of a text
-/

namespace Lib.TextLines

variable {α : Type*} (isBreak : α → Bool)

def splitFrom : List α → List α → List (List α)
  | current, [] => if current.isEmpty then [] else [current]
  | current, x :: rest =>
    if isBreak x then current :: splitFrom [] rest else splitFrom (current ++ [x]) rest

def split (text : List α) : List (List α) :=
  splitFrom isBreak [] text

def terminated (lineBreak : α) (lines : List (List α)) : List α :=
  lines.flatMap (· ++ [lineBreak])

def IsLine (text : List α) : Prop :=
  ∀ x ∈ text, isBreak x = false

instance decidableIsLine (text : List α) : Decidable (IsLine isBreak text) :=
  List.decidableBAll _ _

variable {isBreak}

theorem isLine_append_iff {left right : List α} :
    IsLine isBreak (left ++ right) ↔ IsLine isBreak left ∧ IsLine isBreak right := by
  simp [IsLine, or_imp, forall_and]

theorem isLine_cons_iff {x : α} {text : List α} :
    IsLine isBreak (x :: text) ↔ isBreak x = false ∧ IsLine isBreak text := by
  simp [IsLine]

theorem isLine_nil : IsLine isBreak ([] : List α) := nofun

@[simp] theorem terminated_nil (lineBreak : α) : terminated lineBreak [] = [] := rfl

@[simp] theorem terminated_cons (lineBreak : α) (line : List α) (lines : List (List α)) :
    terminated lineBreak (line :: lines) = line ++ lineBreak :: terminated lineBreak lines := by
  simp [terminated]

@[simp] theorem terminated_append (lineBreak : α) (front back : List (List α)) :
    terminated lineBreak (front ++ back) =
      terminated lineBreak front ++ terminated lineBreak back :=
  List.flatMap_append

theorem splitFrom_append {line : List α} (h : IsLine isBreak line) (current rest : List α) :
    splitFrom isBreak current (line ++ rest) = splitFrom isBreak (current ++ line) rest := by
  induction line generalizing current with
  | nil => simp
  | cons x line ih =>
    rw [isLine_cons_iff] at h
    rw [List.cons_append, splitFrom, if_neg (by simp [h.1]), ih h.2]
    simp

theorem split_terminated {lineBreak : α} (hbreak : isBreak lineBreak = true)
    {lines : List (List α)} (h : ∀ line ∈ lines, IsLine isBreak line) :
    split isBreak (terminated lineBreak lines) = lines := by
  induction lines with
  | nil => rfl
  | cons line lines ih =>
    rw [List.forall_mem_cons] at h
    rw [terminated_cons, split, splitFrom_append h.1, splitFrom, if_pos hbreak, ← split, ih h.2]
    rfl

theorem isLine_of_mem_splitFrom {current text : List α} (hcurrent : IsLine isBreak current)
    {line : List α} (h : line ∈ splitFrom isBreak current text) : IsLine isBreak line := by
  induction text generalizing current with
  | nil =>
    rw [splitFrom] at h
    split at h
    · cases h
    · obtain rfl := List.mem_singleton.mp h
      exact hcurrent
  | cons x text ih =>
    rw [splitFrom] at h
    split at h
    · rcases List.mem_cons.mp h with rfl | hrest
      · exact hcurrent
      · exact ih isLine_nil hrest
    · next hx =>
      refine ih (isLine_append_iff.mpr ⟨hcurrent, ?_⟩) h
      simpa [IsLine] using hx

theorem isLine_of_mem_split {text line : List α} (h : line ∈ split isBreak text) :
    IsLine isBreak line :=
  isLine_of_mem_splitFrom isLine_nil h

section Trim

variable (isBlank : α → Bool)

def trim (text : List α) : List α :=
  (text.dropWhile isBlank).rdropWhile isBlank

structure Trimmed (text : List α) : Prop where
  front : ∀ x ∈ text.head?, isBlank x = false
  back : ∀ x ∈ text.getLast?, isBlank x = false

variable {isBlank}

variable {text : List α}

theorem dropWhile_eq_self (h : ∀ x ∈ text.head?, isBlank x = false) :
    text.dropWhile isBlank = text := by
  cases text with
  | nil => rfl
  | cons x text => simp [h x rfl]

theorem rdropWhile_eq_self (h : ∀ x ∈ text.getLast?, isBlank x = false) :
    text.rdropWhile isBlank = text := by
  rw [List.rdropWhile_eq_self_iff]
  intro hne
  simp [h _ (List.getLast?_eq_some_getLast hne)]

theorem rdropWhile_append_cons {x : α} (hx : isBlank x = false) (front back : List α) :
    (front ++ x :: back).rdropWhile isBlank = front ++ x :: back.rdropWhile isBlank := by
  induction back using List.reverseRecOn with
  | nil => simp [List.rdropWhile_concat_neg, hx]
  | append_singleton back last ih =>
    rw [← List.cons_append, ← List.append_assoc, List.rdropWhile_concat, List.rdropWhile_concat]
    split
    · exact ih
    · simp

theorem Trimmed.trim_eq (h : Trimmed isBlank text) : trim isBlank text = text := by
  rw [trim, dropWhile_eq_self h.front, rdropWhile_eq_self h.back]

theorem isBlank_head?_dropWhile : ∀ x ∈ (text.dropWhile isBlank).head?, isBlank x = false := by
  intro x hx
  have := List.head?_dropWhile_not isBlank text
  rw [Option.mem_def.mp hx] at this
  simpa using this

theorem isBlank_getLast?_rdropWhile :
    ∀ x ∈ (text.rdropWhile isBlank).getLast?, isBlank x = false := by
  intro x hx
  rw [List.rdropWhile, List.getLast?_reverse] at hx
  exact isBlank_head?_dropWhile x hx

theorem dropWhile_rdropWhile (text : List α) :
    (text.rdropWhile isBlank).dropWhile isBlank = trim isBlank text := by
  induction text with
  | nil => rfl
  | cons x text ih =>
    cases hx : isBlank x with
    | false =>
      have hkept := rdropWhile_append_cons hx [] text
      rw [List.nil_append, List.nil_append] at hkept
      rw [trim, hkept, List.dropWhile_cons_of_neg (by simp [hx]),
        List.dropWhile_cons_of_neg (by simp [hx]), hkept]
    | true =>
      rw [trim, List.dropWhile_cons_of_pos hx, ← trim, ← ih, List.rdropWhile,
        List.rdropWhile, List.reverse_cons, List.dropWhile_append]
      split
      · next hempty => simp [List.isEmpty_iff.mp hempty, hx]
      · rw [List.reverse_append, List.reverse_singleton, List.singleton_append,
          List.dropWhile_cons_of_pos hx]

theorem getLast?_dropWhile (h : ∀ x ∈ text.getLast?, isBlank x = false) :
    (text.dropWhile isBlank).getLast? = text.getLast? := by
  cases hdrop : text.dropWhile isBlank with
  | nil =>
    -- a text of blanks only has no last element that is none
    cases hlast : text.getLast? with
    | none => rfl
    | some x =>
      have hblank := List.dropWhile_eq_nil_iff.mp hdrop x (List.mem_of_getLast? hlast)
      rw [h x hlast] at hblank
      cases hblank
  | cons x rest =>
    rw [← List.takeWhile_append_dropWhile (p := isBlank) (l := text), hdrop, List.getLast?_append]
    cases hlast : (x :: rest).getLast? with
    | none => simp at hlast
    | some y => rfl

theorem trimmed_trim (text : List α) : Trimmed isBlank (trim isBlank text) where
  front := by
    rw [← dropWhile_rdropWhile]
    exact isBlank_head?_dropWhile
  back := isBlank_getLast?_rdropWhile

theorem trim_eq_self_iff : trim isBlank text = text ↔ Trimmed isBlank text := by
  refine ⟨fun h => ?_, Trimmed.trim_eq⟩
  rw [← h]
  exact trimmed_trim text

theorem mem_of_mem_trim {x : α} (h : x ∈ trim isBlank text) : x ∈ text :=
  (List.dropWhile_suffix isBlank).subset ((List.rdropWhile_prefix isBlank _).subset h)

theorem length_trim_le (text : List α) : (trim isBlank text).length ≤ text.length :=
  ((List.rdropWhile_prefix isBlank _).length_le).trans ((List.dropWhile_suffix isBlank).length_le)

end Trim
end Lib.TextLines
