import Mathlib.Data.List.Basic

/-!
# Runs of a step function and their invariants
-/

namespace Lib.Run

variable {σ α : Type*} (step : σ → α → σ) (condition : σ → α → Prop)

def run (state : σ) (actions : List α) : σ :=
  actions.foldl step state

def Meets : σ → List α → Prop
  | _, [] => True
  | state, action :: actions => condition state action ∧ Meets (step state action) actions

@[simp] theorem run_nil (state : σ) : run step state [] = state := rfl

@[simp] theorem run_cons (state : σ) (action : α) (actions : List α) :
    run step state (action :: actions) = run step (step state action) actions :=
  rfl

theorem run_append (state : σ) (front back : List α) :
    run step state (front ++ back) = run step (run step state front) back := by
  simp [run]

theorem meets_append (state : σ) (front back : List α) :
    Meets step condition state (front ++ back) ↔ Meets step condition state front ∧
        Meets step condition (run step state front) back := by
  induction front generalizing state with
  | nil => simp [Meets]
  | cons action front ih => simp [Meets, ih, and_assoc]

theorem meets_of_forall {condition : σ → α → Prop} (h : ∀ state action, condition state action)
    (state : σ) (actions : List α) : Meets step condition state actions := by
  induction actions generalizing state with
  | nil => trivial
  | cons action actions ih => exact ⟨h state action, ih _⟩

theorem meets_congr {condition condition' : σ → α → Prop}
    (h : ∀ state action, condition state action ↔ condition' state action) (state : σ)
    (actions : List α) :
    Meets step condition state actions ↔ Meets step condition' state actions := by
  induction actions generalizing state with
  | nil => exact Iff.rfl
  | cons action actions ih => exact and_congr (h state action) (ih _)

theorem meets_of_forall_split {condition : σ → α → Prop} {state : σ} {actions : List α}
    (h : ∀ front action back, actions = front ++ action :: back →
      condition (run step state front) action) : Meets step condition state actions := by
  induction actions generalizing state with
  | nil => trivial
  | cons action actions ih =>
    refine ⟨h [] action actions rfl, ih ?_⟩
    rintro front next back rfl
    exact h (action :: front) next back rfl

theorem run_invariant {Inv : σ → Prop} (hstep : ∀ state action, Inv state → condition state action →
      Inv (step state action))
    {state : σ} {actions : List α} (hinit : Inv state)
    (hmeets : Meets step condition state actions) :
    Inv (run step state actions) := by
  induction actions generalizing state with
  | nil => exact hinit
  | cons action actions ih =>
    obtain ⟨hcondition, hrest⟩ := hmeets
    exact ih (hstep state action hinit hcondition) hrest

theorem run_invariant_of_step {Inv : σ → Prop}
    (hstep : ∀ state action, Inv state → Inv (step state action))
    {state : σ} (actions : List α) (hinit : Inv state) :
    Inv (run step state actions) := by
  induction actions generalizing state with
  | nil => exact hinit
  | cons action actions ih => exact ih (hstep state action hinit)

theorem run_prefix_invariant {Inv : σ → Prop}
    (hstep : ∀ state action, Inv state → condition state action → Inv (step state action))
    {state : σ} {front back : List α} (hinit : Inv state)
    (hmeets : Meets step condition state (front ++ back)) :
    Inv (run step state front) :=
  run_invariant step condition hstep hinit
    ((meets_append step condition state front back).mp hmeets).1

theorem throughout_iff_meets {Inv Good : σ → Prop}
    (hinv : ∀ state action, Inv state → Good (step state action) → Inv (step state action))
    (hstep : ∀ state action, Inv state → Good state →
      (Good (step state action) ↔ condition state action))
    {state : σ} (actions : List α) (hinit : Inv state) (hgood : Good state) :
    (∀ front back, actions = front ++ back → Good (run step state front)) ↔
      Meets step condition state actions := by
  induction actions generalizing state with
  | nil =>
    refine ⟨fun _ => trivial, fun _ front back hsplit => ?_⟩
    obtain ⟨rfl, -⟩ := List.append_eq_nil_iff.mp hsplit.symm
    exact hgood
  | cons action actions ih =>
    have ih (hafter : Good (step state action)) := ih (hinv state action hinit hafter) hafter
    constructor
    · intro hall
      have hafter : Good (step state action) := hall [action] actions rfl
      refine ⟨(hstep state action hinit hgood).mp hafter, (ih hafter).mp ?_⟩
      rintro front back rfl
      exact hall (action :: front) back rfl
    · rintro ⟨hcondition, hrest⟩ front back hsplit
      have hafter := (hstep state action hinit hgood).mpr hcondition
      cases front with
      | nil => exact hgood
      | cons first front =>
        obtain ⟨rfl, htail⟩ := List.cons_eq_cons.mp hsplit
        exact (ih hafter).mpr hrest front back htail

theorem run_iff_meets {Inv Good : σ → Prop}
    (hinv : ∀ state action, Inv state → Inv (step state action))
    (hstep : ∀ state action, Inv state →
      (Good (step state action) ↔ Good state ∧ condition state action))
    {state : σ} (actions : List α) (hinit : Inv state) :
    Good (run step state actions) ↔ Good state ∧ Meets step condition state actions := by
  induction actions generalizing state with
  | nil => simp [Meets]
  | cons action actions ih =>
    rw [run_cons, ih (hinv state action hinit), hstep state action hinit, Meets, and_assoc]

end Lib.Run
