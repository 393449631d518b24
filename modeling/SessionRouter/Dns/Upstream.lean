import Mathlib.Data.Finset.Basic
import SessionRouter.Lib.Run

/-!
# Queries to the upstream resolver
-/

namespace SessionRouter.Dns

open Lib

/-- Query states are numbered as they are allocated. -/
structure Unbound where
  activeQueries : Finset ℕ
  /-- Submitted to the library and not completed. -/
  outstanding : Finset ℕ
  allocated : ℕ
  calls : ℕ → ℕ
  releases : ℕ → ℕ
  destroyed : Bool

inductive UnboundAction where
  /-- The library may complete a query before it returns, and it may return an error. -/
  | query (completes accepted : Bool)
  | complete (id : ℕ)
  | destroy

namespace Unbound

def start : Unbound := ⟨∅, ∅, 0, fun _ => 0, fun _ => 0, false⟩

variable (self : Unbound)

/-- The callback of a query runs, and its state is released. -/
def callAndRelease (id : ℕ) : Unbound :=
  { self with
    calls := Function.update self.calls id (self.calls id + 1)
    releases := Function.update self.releases id (self.releases id + 1) }

/-- What the library calls when a query completes. -/
def onResult (id : ℕ) : Unbound :=
  { self with activeQueries := self.activeQueries.erase id }.callAndRelease id

def query (completes accepted : Bool) : Unbound :=
  let id := self.allocated
  let self := { self with allocated := id + 1 }
  let self := if completes then self.onResult id
    else if accepted then { self with outstanding := insert id self.outstanding }
    else self
  if accepted then { self with activeQueries := insert id self.activeQueries }
  else self.callAndRelease id

def step (self : Unbound) (action : UnboundAction) : Unbound :=
  if self.destroyed then self
  else match action with
    | .query completes accepted => self.query completes accepted
    | .complete id =>
      if id ∈ self.outstanding then
        { self.onResult id with outstanding := self.outstanding.erase id }
      else self
    | .destroy =>
      { self with
        activeQueries := ∅
        outstanding := ∅
        releases := fun id => self.releases id + if id ∈ self.activeQueries then 1 else 0
        destroyed := true }

/-- Active are the queries that are outstanding; the states of all others have been released. -/
structure Accounted : Prop where
  active : self.activeQueries = self.outstanding
  releases : ∀ id < self.allocated, self.releases id = if id ∈ self.outstanding then 0 else 1
  calls : ∀ id, self.calls id ≤ 1

def Asynchronous (action : UnboundAction) : Prop :=
  ∀ accepted, action = .query true accepted → self.destroyed

structure Fresh : Prop where
  active : ∀ id ∈ self.activeQueries, id < self.allocated
  outstanding : ∀ id ∈ self.outstanding, id < self.allocated ∧ self.calls id = 0
  calls : ∀ id, self.allocated ≤ id → self.calls id = 0
  releases : ∀ id, self.allocated ≤ id → self.releases id = 0

variable {self}

theorem Fresh.step (h : self.Fresh) (action : UnboundAction) : (self.step action).Fresh := by
  obtain ⟨hin, hout, hcalls, hreleases⟩ := h
  unfold Unbound.step
  split
  · exact ⟨hin, hout, hcalls, hreleases⟩
  cases action with
  | query completes accepted =>
    cases completes <;> cases accepted <;>
      constructor <;> simp [query, onResult, callAndRelease, Function.update_apply] <;> grind
  | complete id =>
    dsimp only
    split
    · constructor <;> simp [onResult, callAndRelease, Function.update_apply] <;> grind
    · exact ⟨hin, hout, hcalls, hreleases⟩
  | destroy => constructor <;> simp <;> grind

theorem Fresh.accounted_step_iff (h : self.Fresh) (hself : self.Accounted)
    (action : UnboundAction) : (self.step action).Accounted ↔ self.Asynchronous action := by
  obtain ⟨hin, hout, hcalls, hreleases⟩ := h
  obtain ⟨hactive, hreleased, honce⟩ := hself
  unfold Unbound.step Asynchronous
  split
  · next hdestroyed => exact iff_of_true ⟨hactive, hreleased, honce⟩ fun _ _ => hdestroyed
  next halive =>
  cases action with
  | query completes accepted =>
    have hnew : self.allocated ∉ self.outstanding := fun hmem => Nat.lt_irrefl _ (hout _ hmem).1
    cases completes with
    | true =>
      refine iff_of_false (fun ⟨hset, _, hcall⟩ => ?_) (by simpa using halive)
      cases accepted with
      | true =>
        -- the state that has been released is put into the set
        simp only [query, onResult, callAndRelease, if_true] at hset
        exact hnew (hset ▸ Finset.mem_insert_self _ _)
      | false =>
        have hcall := hcall self.allocated
        simp [query, onResult, callAndRelease] at hcall
    | false =>
      refine iff_of_true ?_ (by simp)
      cases accepted <;> constructor <;>
        simp [query, callAndRelease, Function.update_apply, hactive] <;> grind
  | complete id =>
    refine iff_of_true ?_ (by simp)
    dsimp only
    split
    · constructor <;> simp [onResult, callAndRelease, Function.update_apply, hactive] <;> grind
    · exact ⟨hactive, hreleased, honce⟩
  | destroy =>
    refine iff_of_true ?_ (by simp)
    constructor <;> simp [hactive] <;> grind

theorem queries_accounted_iff (actions : List UnboundAction) :
    (∀ front back, actions = front ++ back → (Run.run step start front).Accounted) ↔
      Run.Meets step Asynchronous start actions := by
  have hstart : start.Fresh := by constructor <;> simp [start]
  have haccounted : start.Accounted := by constructor <;> simp [start]
  exact @Run.throughout_iff_meets _ _ step Asynchronous Fresh Accounted
    (fun _ action h _ => Fresh.step h action)
    (fun _ action h hself => Fresh.accounted_step_iff h hself action) _ actions hstart haccounted

theorem query_released_twice :
    (Run.run step start [.query true true, .destroy]).releases 0 = 2 := by
  decide

end Unbound
end SessionRouter.Dns
