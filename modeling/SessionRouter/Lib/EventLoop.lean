import Mathlib.Algebra.BigOperators.Group.List.Basic
import Mathlib.Data.ENat.Lattice
import Mathlib.Logic.Relation
import Mathlib.Order.CompletePartialOrder
import Mathlib.Tactic.Abel

/-!
# Tasks with callbacks on an event loop
-/

namespace Lib.EventLoop

inductive Task (R : Type) (A : R → Type) (E : Type) where
  | done
  | emit (event : E) (next : Task R A E)
  | request (r : R) (callback : A r → Task R A E) (next : Task R A E)

inductive Did (R : Type) (A : R → Type) (E : Type) where
  | finished
  | emitted (event : E)
  | requested
  | answered (r : R) (answer : A r)

structure Loop (R : Type) (A : R → Type) (E : Type) where
  stack : List (Task R A E)
  waiting : List ((r : R) × (A r → Task R A E))
  log : List (Did R A E)

variable {R : Type} {A : R → Type} {E : Type}

def Loop.start (task : Task R A E) : Loop R A E :=
  ⟨[task], [], []⟩

def Loop.Complete (loop : Loop R A E) : Prop :=
  loop.stack = [] ∧ loop.waiting = []

inductive Step : Loop R A E → Loop R A E → Prop where
  | finish (stack waiting log) :
      Step ⟨.done :: stack, waiting, log⟩ ⟨stack, waiting, .finished :: log⟩
  | emit (event next stack waiting log) :
      Step ⟨.emit event next :: stack, waiting, log⟩ ⟨next :: stack, waiting, .emitted event :: log⟩
  | request (r callback next stack waiting log) :
      Step ⟨.request r callback next :: stack, waiting, log⟩
        ⟨next :: stack, ⟨r, callback⟩ :: waiting, .requested :: log⟩
  | answer (r callback) (answer : A r) (before after stack log) :
      Step ⟨stack, before ++ ⟨r, callback⟩ :: after, log⟩
        ⟨callback answer :: stack, before ++ after, .answered r answer :: log⟩

theorem exists_step [∀ r, Nonempty (A r)] {loop : Loop R A E} (h : ¬loop.Complete) :
    ∃ next, Step loop next := by
  obtain ⟨stack, waiting, log⟩ := loop
  cases stack with
  | nil =>
    cases waiting with
    | nil => exact absurd ⟨rfl, rfl⟩ h
    | cons first rest =>
      obtain ⟨answer⟩ := (inferInstance : Nonempty (A first.1))
      exact ⟨_, Step.answer first.1 first.2 answer [] rest [] log⟩
  | cons task stack =>
    cases task with
    | done => exact ⟨_, Step.finish stack waiting log⟩
    | emit event next => exact ⟨_, Step.emit event next stack waiting log⟩
    | request r callback next => exact ⟨_, Step.request r callback next stack waiting log⟩

section

variable (cost : Did R A E → ℕ∞) (combine : ∀ r, (A r → ℕ∞) → ℕ∞)

def Task.bound : Task R A E → ℕ∞
  | .done => cost .finished
  | .emit event next => cost (.emitted event) + next.bound
  | .request r callback next =>
    cost .requested +
      (combine r fun answer => cost (.answered r answer) + (callback answer).bound) + next.bound

def Loop.spent (loop : Loop R A E) : ℕ∞ :=
  (loop.log.map cost).sum

def Loop.bound (loop : Loop R A E) : ℕ∞ :=
  (loop.log.map cost).sum + (loop.stack.map (Task.bound cost combine)).sum +
    (loop.waiting.map fun request => combine request.1 fun answer =>
      cost (.answered request.1 answer) + (request.2 answer).bound cost combine).sum

variable {cost combine}

theorem Loop.bound_start (task : Task R A E) :
    (Loop.start task).bound cost combine = task.bound cost combine := by
  simp [Loop.start, Loop.bound]

theorem Loop.Complete.bound_eq {loop : Loop R A E} (h : loop.Complete) :
    loop.bound cost combine = loop.spent cost := by
  obtain ⟨hstack, hwaiting⟩ := h
  simp [Loop.bound, Loop.spent, hstack, hwaiting]

theorem Loop.spent_le_bound (loop : Loop R A E) : loop.spent cost ≤ loop.bound cost combine := by
  rw [Loop.bound, add_assoc]
  exact le_self_add

theorem Step.bound_cases {loop next : Loop R A E} (h : Step loop next) :
    next.bound cost combine = loop.bound cost combine ∨
      ∃ (r : R) (callback : A r → Task R A E) (answer : A r) (rest : ℕ∞), loop.bound cost combine =
          rest + combine r (fun answer =>
            cost (.answered r answer) + (callback answer).bound cost combine) ∧
        next.bound cost combine =
          rest + (cost (.answered r answer) + (callback answer).bound cost combine) := by
  cases h with
  | finish | emit | request =>
    left
    simp only [Loop.bound, List.map_cons, List.sum_cons, Task.bound]
    abel
  | answer r callback answer before after stack log =>
    right
    refine ⟨r, callback, answer, (log.map cost).sum + (stack.map (Task.bound cost combine)).sum +
        ((before ++ after).map fun request => combine request.1 fun answer =>
          cost (.answered request.1 answer) + (request.2 answer).bound cost combine).sum, ?_, ?_⟩
    · simp only [Loop.bound, List.map_append, List.sum_append, List.map_cons, List.sum_cons]
      abel
    · simp only [Loop.bound, List.map_append, List.sum_append, List.map_cons, List.sum_cons]
      abel

end

section

variable (cost : Did R A E → ℕ∞)

noncomputable def Task.most (task : Task R A E) : ℕ∞ :=
  task.bound cost fun _ costs => ⨆ answer, costs answer

noncomputable def Task.least (task : Task R A E) : ℕ∞ :=
  task.bound cost fun _ costs => ⨅ answer, costs answer

variable {cost} {task : Task R A E} {loop : Loop R A E}

section

variable (h : Relation.ReflTransGen Step (Loop.start task) loop)

include h

theorem run_le_most : loop.spent cost ≤ task.most cost := by
  have hbound : loop.bound cost (fun _ costs => ⨆ answer, costs answer) ≤ task.most cost := by
    induction h with
    | refl => exact le_of_eq (Loop.bound_start task)
    | tail _ hstep ih =>
      rcases hstep.bound_cases with hsame | ⟨r, callback, answer, rest, hbefore, hafter⟩
      · exact hsame.trans_le ih
      · rw [hafter]
        refine le_trans (add_le_add_right ?_ rest) (hbefore.ge.trans ih)
        exact le_iSup
          (fun answer => cost (.answered r answer) + (callback answer).bound cost _) answer
  exact (Loop.spent_le_bound loop).trans hbound

theorem least_le_run (hcomplete : loop.Complete) : task.least cost ≤ loop.spent cost := by
  have hbound : task.least cost ≤ loop.bound cost (fun _ costs => ⨅ answer, costs answer) := by
    clear hcomplete
    induction h with
    | refl => exact le_of_eq (Loop.bound_start task).symm
    | tail _ hstep ih =>
      rcases hstep.bound_cases with hsame | ⟨r, callback, answer, rest, hbefore, hafter⟩
      · exact ih.trans_eq hsame.symm
      · rw [hafter]
        refine le_trans (ih.trans hbefore.le) (add_le_add_right ?_ rest)
        exact iInf_le
          (fun answer => cost (.answered r answer) + (callback answer).bound cost _) answer
  exact hbound.trans_eq hcomplete.bound_eq

end

variable {r : R} {callback : A r → Task R A E} {next : Task R A E} {n : ℕ∞}

@[simp]
theorem most_done : (Task.done : Task R A E).most cost = cost .finished := rfl

@[simp]
theorem least_done : (Task.done : Task R A E).least cost = cost .finished := rfl

@[simp]
theorem most_emit (event : E) :
    (Task.emit event next).most cost = cost (.emitted event) + next.most cost :=
  rfl

@[simp]
theorem least_emit (event : E) :
    (Task.emit event next).least cost = cost (.emitted event) + next.least cost :=
  rfl

theorem most_request_le
    (h : ∀ answer, cost (.answered r answer) + (callback answer).most cost ≤ n) :
    (Task.request r callback next).most cost ≤ cost .requested + n + next.most cost :=
  add_le_add_left (add_le_add_right (iSup_le h) _) _

theorem le_least_request
    (h : ∀ answer, n ≤ cost (.answered r answer) + (callback answer).least cost) :
    cost .requested + n + next.least cost ≤ (Task.request r callback next).least cost :=
  add_le_add_left (add_le_add_right (le_iInf h) _) _

end

def Did.event : Did R A E → Option E
  | .emitted event => some event
  | _ => none

def Loop.events (loop : Loop R A E) : List E :=
  loop.log.filterMap Did.event

def counting (p : E → Bool) : Did R A E → ℕ∞
  | .emitted event => if p event then 1 else 0
  | _ => 0

attribute [simp] counting

section

variable {p : E → Bool} {r : R} {callback : A r → Task R A E} {n : ℕ∞}

theorem most_counting_request_le (h : ∀ answer, (callback answer).most (counting p) ≤ n) :
    (Task.request r callback .done).most (counting p) ≤ n := by
  have hle : (Task.request r callback .done).most (counting p) ≤ 0 + n + 0 :=
    most_request_le fun answer => (zero_add _).trans_le (h answer)
  rwa [zero_add, add_zero] at hle

theorem le_least_counting_request (h : ∀ answer, n ≤ (callback answer).least (counting p)) :
    n ≤ (Task.request r callback .done).least (counting p) := by
  have hle : 0 + n + 0 ≤ (Task.request r callback .done).least (counting p) :=
    le_least_request fun answer => (h answer).trans_eq (zero_add _).symm
  rwa [zero_add, add_zero] at hle

end

theorem spent_counting (p : E → Bool) (loop : Loop R A E) :
    loop.spent (counting p) = loop.events.countP p := by
  obtain ⟨stack, waiting, log⟩ := loop
  simp only [Loop.spent, Loop.events]
  induction log with
  | nil => rfl
  | cons did log ih =>
    rw [List.map_cons, List.sum_cons, ih]
    cases did with
    | emitted event =>
      by_cases hp : p event
      · simp [Did.event, hp, add_comm]
      · simp [Did.event, hp]
    | finished | requested | answered => simp [Did.event, List.filterMap_cons]

theorem spent_one (loop : Loop R A E) : loop.spent (fun _ => 1) = loop.log.length := by
  simp [Loop.spent]

section

variable {task : Task R A E} {loop : Loop R A E} {p : E → Bool} {n : ℕ}

section

variable (hrun : Relation.ReflTransGen Step (Loop.start task) loop)

include hrun

theorem countP_le_of_most_le (h : task.most (counting p) ≤ n) : loop.events.countP p ≤ n := by
  have hle := (run_le_most hrun).trans h
  rw [spent_counting] at hle
  exact_mod_cast hle

theorem le_countP_of_le_least
    (hcomplete : loop.Complete) (h : n ≤ task.least (counting p)) : n ≤ loop.events.countP p := by
  have hle := h.trans (least_le_run hrun hcomplete)
  rw [spent_counting] at hle
  exact_mod_cast hle

theorem length_le_of_most_le (h : task.most (fun _ => 1) ≤ n) : loop.log.length ≤ n := by
  have hle := (run_le_most hrun).trans h
  rw [spent_one] at hle
  exact_mod_cast hle

end

end

section

variable (cause : ∀ r, A r → Prop) (effect : E → Prop)

def Task.Guarded : Task R A E → Prop
  | .done => True
  | .emit event next => ¬effect event ∧ next.Guarded
  | .request r callback next =>
    (∀ answer, cause r answer ∨ (callback answer).Guarded) ∧ next.Guarded

def Caused (log : List (Did R A E)) : Prop :=
  ∃ r answer, Did.answered r answer ∈ log ∧ cause r answer

structure Loop.Explained (loop : Loop R A E) : Prop where
  pending : Caused cause loop.log ∨ (∀ task ∈ loop.stack, task.Guarded cause effect) ∧
      ∀ request ∈ loop.waiting, ∀ answer,
        cause request.1 answer ∨ (request.2 answer).Guarded cause effect
  past : ∀ event before, Did.emitted event :: before <:+ loop.log → effect event →
    Caused cause before

variable {cause effect}

theorem guarded_of_most_eq_zero {p : E → Bool} {task : Task R A E}
    (h : task.most (counting p) = 0) : task.Guarded cause fun event => p event = true := by
  induction task with
  | done => exact trivial
  | emit event next ih =>
    rw [most_emit, add_eq_zero] at h
    refine ⟨fun hp => ?_, ih h.2⟩
    simp [hp] at h
  | request r callback next ihcallback ihnext =>
    rw [Task.most, Task.bound, add_eq_zero, add_eq_zero] at h
    refine ⟨fun answer => .inr (ihcallback answer ?_), ihnext h.2⟩
    have hanswer := ENat.iSup_eq_zero.mp h.1.2 answer
    exact (add_eq_zero.mp hanswer).2

theorem Caused.cons {log : List (Did R A E)} (h : Caused cause log) (did : Did R A E) :
    Caused cause (did :: log) := by
  obtain ⟨r, answer, hmem, hcause⟩ := h
  exact ⟨r, answer, List.mem_cons_of_mem did hmem, hcause⟩

theorem past_cons {did : Did R A E} {log : List (Did R A E)} (hquiet : did.event = none)
    (hpast : ∀ event before, Did.emitted event :: before <:+ log → effect event →
      Caused cause before) :
    ∀ event before, Did.emitted event :: before <:+ did :: log → effect event →
      Caused cause before := by
  intro event before hsuffix heffect
  rcases List.suffix_cons_iff.mp hsuffix with heq | hsuffix
  · rw [← (List.cons.inj heq).1] at hquiet
    exact absurd hquiet (Option.some_ne_none event)
  · exact hpast event before hsuffix heffect

theorem Loop.Explained.step {loop next : Loop R A E} (h : loop.Explained cause effect)
    (hstep : Step loop next) : next.Explained cause effect := by
  obtain ⟨hpending, hpast⟩ := h
  cases hstep with
  | finish stack waiting log =>
    refine ⟨?_, past_cons rfl hpast⟩
    rcases hpending with hcaused | ⟨hstack, hwaiting⟩
    · exact .inl (hcaused.cons _)
    · exact .inr ⟨fun task hmem => hstack task (List.mem_cons_of_mem _ hmem), hwaiting⟩
  | emit event next stack waiting log =>
    constructor
    · rcases hpending with hcaused | ⟨hstack, hwaiting⟩
      · exact .inl (hcaused.cons _)
      · rw [List.forall_mem_cons] at hstack
        exact .inr ⟨List.forall_mem_cons.mpr ⟨hstack.1.2, hstack.2⟩, hwaiting⟩
    · intro other before hsuffix heffect
      rcases List.suffix_cons_iff.mp hsuffix with heq | hsuffix
      · obtain ⟨hevent, rfl⟩ := List.cons.inj heq
        cases hevent
        rcases hpending with hcaused | ⟨hstack, -⟩
        · exact hcaused
        · exact absurd heffect (hstack _ List.mem_cons_self).1
      · exact hpast other before hsuffix heffect
  | request r callback next stack waiting log =>
    refine ⟨?_, past_cons rfl hpast⟩
    rcases hpending with hcaused | ⟨hstack, hwaiting⟩
    · exact .inl (hcaused.cons _)
    · rw [List.forall_mem_cons] at hstack
      exact .inr ⟨List.forall_mem_cons.mpr ⟨hstack.1.2, hstack.2⟩,
        List.forall_mem_cons.mpr ⟨hstack.1.1, hwaiting⟩⟩
  | answer r callback answer before after stack log =>
    refine ⟨?_, past_cons rfl hpast⟩
    rcases hpending with hcaused | ⟨hstack, hwaiting⟩
    · exact .inl (hcaused.cons _)
    · rcases hwaiting ⟨r, callback⟩ (by simp) answer with hcause | hguarded
      · exact .inl ⟨r, answer, List.mem_cons_self, hcause⟩
      · refine .inr ⟨List.forall_mem_cons.mpr ⟨hguarded, hstack⟩, fun request hmem => ?_⟩
        apply hwaiting request
        rw [List.mem_append] at hmem ⊢
        exact hmem.imp_right (List.mem_cons_of_mem _)

theorem caused_of_emitted {task : Task R A E} {loop : Loop R A E}
    (hguarded : task.Guarded cause effect)
    (hrun : Relation.ReflTransGen Step (Loop.start task) loop) {event : E}
    {before : List (Did R A E)} (hlog : Did.emitted event :: before <:+ loop.log)
    (heffect : effect event) : Caused cause before := by
  have hexplained : loop.Explained cause effect := by
    clear hlog
    induction hrun with
    | refl =>
      refine ⟨.inr ⟨?_, fun request hmem => absurd hmem List.not_mem_nil⟩, ?_⟩
      · intro other hmem
        rw [List.mem_singleton.mp hmem]
        exact hguarded
      · intro event before hsuffix
        exact absurd (List.suffix_nil.mp hsuffix) (List.cons_ne_nil _ _)
    | tail _ hstep ih => exact ih.step hstep
  exact hexplained.past event before hlog heffect

end

end Lib.EventLoop
