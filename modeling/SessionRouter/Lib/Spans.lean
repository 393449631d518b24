import SessionRouter.Lib.Bytes

/-!
# Splits of byte spans
-/

namespace Lib

structure Split where
  span : Nat
  size : Nat
  deriving DecidableEq

def Split.Fits (split : Split) : Prop :=
  split.size ≤ split.span

instance (split : Split) : Decidable split.Fits :=
  inferInstanceAs (Decidable (split.size ≤ split.span))

structure Spanned (α : Type) where
  splits : List Split
  result : Option α
  isSome_result_iff : result.isSome = true ↔ ∀ split ∈ splits, split.Fits

namespace Spanned

variable {α β : Type}

def InBounds (code : Spanned α) : Prop :=
  ∀ split ∈ code.splits, split.Fits

theorem inBounds_iff_result_ne_none {code : Spanned α} : code.InBounds ↔ code.result ≠ none := by
  rw [InBounds, ← code.isSome_result_iff, Option.isSome_iff_ne_none]

protected def pure (value : α) : Spanned α where
  splits := []
  result := some value
  isSome_result_iff := by simp

protected def bind (first : Spanned α) (next : α → Spanned β) : Spanned β where
  splits := first.splits ++ (first.result.map fun value => (next value).splits).getD []
  result := first.result.bind fun value => (next value).result
  isSome_result_iff := by
    have hfirst := first.isSome_result_iff
    cases hresult : first.result with
    | none => simpa [hresult] using hfirst
    | some value =>
      rw [hresult] at hfirst
      have hall : ∀ split ∈ first.splits, split.Fits := hfirst.mp rfl
      simp only [Option.bind_some, Option.map_some, Option.getD_some, List.mem_append,
        (next value).isSome_result_iff]
      refine ⟨fun hnext split hsplit => hsplit.elim (hall split) (hnext split), ?_⟩
      exact fun hboth split hsplit => hboth split (.inr hsplit)

def splitLast (size : Nat) (span : Bytes) : Spanned (Bytes × Bytes) where
  splits := [⟨span.length, size⟩]
  result :=
    if size ≤ span.length then
      some (span.take (span.length - size), span.drop (span.length - size))
    else none
  isSome_result_iff := by
    by_cases hfits : size ≤ span.length
    · simp [Split.Fits, hfits]
    · simp [Split.Fits, hfits]

instance : Monad Spanned where
  pure := Spanned.pure
  bind := Spanned.bind

@[simp] theorem result_pure (value : α) : (pure value : Spanned α).result = some value := rfl

@[simp] theorem splits_pure (value : α) : (pure value : Spanned α).splits = [] := rfl

@[simp] theorem result_bind (first : Spanned α) (next : α → Spanned β) :
    (first >>= next).result = first.result.bind fun value => (next value).result :=
  rfl

variable {size : Nat}

theorem result_splitLast {span : Bytes} (h : size ≤ span.length) :
    (splitLast size span).result =
      some (span.take (span.length - size), span.drop (span.length - size)) :=
  if_pos h

theorem result_splitLast_of_lt {span : Bytes} (h : span.length < size) :
    (splitLast size span).result = none :=
  if_neg (Nat.not_le.mpr h)

theorem result_splitLast_append (front : Bytes) {back : Bytes}
    (h : back.length = size) : (splitLast size (front ++ back)).result = some (front, back) := by
  subst h
  rw [result_splitLast (by simp), List.length_append, Nat.add_sub_cancel, List.take_left,
    List.drop_left]

end Spanned
end Lib
