import Mathlib.Data.List.Count
import Mathlib.Logic.Function.Basic
import SessionRouter.Lib.Run

/-!
# Connectivity callbacks
-/

namespace SessionRouter.Router

open Lib

inductive ConnState where
  | edgeConnected
  | edgeDisconnected
  | pathConnected
  | pathDisconnected
deriving DecidableEq

structure Connectivity where
  isEdgeConnected : Bool
  hasEstablishedPaths : Bool
  callbacks : ConnState → List (Nat × Bool)
  registered : Nat

inductive ConnAction where
  | onConnected (withPaths persistent : Bool)
  | onDisconnected (withPaths persistent : Bool)
  | onEdgeConnChange (conns : Nat)
  | onInboundPathChange (connected : Bool)

namespace Connectivity

def initial : Connectivity :=
  ⟨false, false, fun _ => [], 0⟩

def register (c : Connectivity) (fireNow : Bool) (list : ConnState) (persistent : Bool) :
    Connectivity × List Nat :=
  ({ c with
     callbacks :=
      if persistent || !fireNow then
        Function.update c.callbacks list (c.callbacks list ++ [(c.registered, persistent)])
      else c.callbacks
     registered := c.registered + 1 },
    if fireNow then [c.registered] else [])

def onConnected (c : Connectivity) (withPaths persistent : Bool) : Connectivity × List Nat :=
  let fireNow := c.isEdgeConnected && (c.hasEstablishedPaths || !withPaths)
  c.register fireNow (if withPaths then .pathConnected else .edgeConnected) persistent

def onDisconnected (c : Connectivity) (withPaths persistent : Bool) : Connectivity × List Nat :=
  let fireNow := !c.isEdgeConnected || (withPaths && !c.hasEstablishedPaths)
  c.register fireNow (if withPaths then .pathDisconnected else .pathConnected) persistent

def processOnConnCallbacks : List (Nat × Bool) → List Nat × List (Nat × Bool)
  | [] => ([], [])
  | (callback, persist) :: callbacks =>
    let (called, kept) := processOnConnCallbacks callbacks
    (callback :: called, if persist then (callback, persist) :: kept else kept)

def process (c : Connectivity) (list : ConnState) : List Nat :=
  (processOnConnCallbacks (c.callbacks list)).1

def onEdgeConnChange (edgeConnections : Nat) (c : Connectivity) (conns : Nat) :
    Connectivity × List Nat :=
  if conns = 0 ∧ c.isEdgeConnected then
    ({ c with isEdgeConnected := false },
      c.process .pathDisconnected ++ c.process .edgeDisconnected)
  else if ¬c.isEdgeConnected ∧ edgeConnections * 2 ≤ conns * 3 then
    ({ c with isEdgeConnected := true },
      c.process .edgeConnected ++ if c.hasEstablishedPaths then c.process .pathConnected else [])
  else (c, [])

def onInboundPathChange (c : Connectivity) (connected : Bool) : Connectivity × List Nat :=
  if connected = c.hasEstablishedPaths then (c, [])
  else
    let c := { c with hasEstablishedPaths := connected }
    if c.hasEstablishedPaths then
      if !c.isEdgeConnected then (c, []) else (c, c.process .pathConnected)
    else if !c.isEdgeConnected then (c, [])
    else (c, c.process .pathDisconnected)

def act (edgeConnections : Nat) (c : Connectivity) : ConnAction → Connectivity × List Nat
  | .onConnected withPaths persistent => c.onConnected withPaths persistent
  | .onDisconnected withPaths persistent => c.onDisconnected withPaths persistent
  | .onEdgeConnChange conns => c.onEdgeConnChange edgeConnections conns
  | .onInboundPathChange connected => c.onInboundPathChange connected

def step (edgeConnections : Nat) (c : Connectivity) (action : ConnAction) : Connectivity :=
  (c.act edgeConnections action).1

def fired (edgeConnections : Nat) (c : Connectivity) (action : ConnAction) : List Nat :=
  (c.act edgeConnections action).2

def holds (c : Connectivity) : ConnState → Bool
  | .edgeConnected => c.isEdgeConnected
  | .edgeDisconnected => !c.isEdgeConnected
  | .pathConnected => c.isEdgeConnected && c.hasEstablishedPaths
  | .pathDisconnected => !(c.isEdgeConnected && c.hasEstablishedPaths)

end Connectivity

def ConnAction.registers : ConnAction → Option (ConnState × Bool)
  | .onConnected withPaths persistent =>
    some (if withPaths then .pathConnected else .edgeConnected, persistent)
  | .onDisconnected withPaths persistent =>
    some (if withPaths then .pathDisconnected else .edgeDisconnected, persistent)
  | .onEdgeConnChange _ => none
  | .onInboundPathChange _ => none

namespace Connectivity

section

variable (edgeConnections : Nat)

def enters (state : ConnState) (c : Connectivity) (action : ConnAction) : Bool :=
  !c.holds state && (c.step edgeConnections action).holds state

def FollowsUp (callback : Nat) (state : ConnState) (persistent : Bool) :
    Bool → Connectivity → List ConnAction → Prop
  | _, _, [] => True
  | called, c, action :: actions =>
    (c.fired edgeConnections action).count callback =
        (if enters edgeConnections state c action ∧ (persistent ∨ ¬called) then 1 else 0) ∧
      FollowsUp callback state persistent (called || enters edgeConnections state c action)
        (c.step edgeConnections action) actions

def FiresRight : Connectivity → List ConnAction → Prop
  | _, [] => True
  | c, action :: actions =>
    (∀ state persistent, action.registers = some (state, persistent) →
      (c.fired edgeConnections action).count c.registered = (if c.holds state then 1 else 0) ∧
        FollowsUp edgeConnections c.registered state persistent (c.holds state)
          (c.step edgeConnections action) actions) ∧
    FiresRight (c.step edgeConnections action) actions

def AtMostOnce (event : Connectivity → ConnAction → Bool) :
    Connectivity → List ConnAction → Prop
  | _, [] => True
  | c, action :: actions =>
    if event c action then
      Run.Meets (step edgeConnections) (fun c action => event c action = false)
        (c.step edgeConnections action) actions
    else AtMostOnce event (c.step edgeConnections action) actions

def processes (list : ConnState) (c : Connectivity) (action : ConnAction) : Bool :=
  enters edgeConnections list c action ||
    list = .pathDisconnected && enters edgeConnections .edgeDisconnected c action

def Spared (state : ConnState) (persistent : Bool) (c : Connectivity)
    (actions : List ConnAction) : Prop :=
  match state, persistent with
  | .edgeDisconnected, _ =>
    Run.Meets (step edgeConnections) (fun c action =>
      enters edgeConnections .edgeDisconnected c action = false ∧
        enters edgeConnections .pathConnected c action = false) c actions
  | .pathDisconnected, true =>
    Run.Meets (step edgeConnections) (fun c action =>
      enters edgeConnections .edgeDisconnected c action → c.hasEstablishedPaths) c actions
  | _, true => True
  | state, false => AtMostOnce edgeConnections (processes edgeConnections state) c actions

def AllSpared : Connectivity → List ConnAction → Prop
  | _, [] => True
  | c, action :: actions =>
    (∀ state persistent, action.registers = some (state, persistent) →
      (persistent ∨ ¬c.holds state) →
        Spared edgeConnections state persistent (c.step edgeConnections action) actions) ∧
    AllSpared (c.step edgeConnections action) actions

end

variable {edgeConnections : Nat} {c : Connectivity} {callback : Nat} {list : Option ConnState}

inductive Change (c : Connectivity) : Connectivity × List Nat → Prop
  | unchanged : Change c (c, [])
  | edgesLost : c.isEdgeConnected = true →
      Change c ({ c with isEdgeConnected := false },
        c.process .pathDisconnected ++ c.process .edgeDisconnected)
  | edgesMade : c.isEdgeConnected = false →
      Change c ({ c with isEdgeConnected := true },
        c.process .edgeConnected ++ if c.hasEstablishedPaths then c.process .pathConnected else [])
  | pathsMade : c.hasEstablishedPaths = false →
      Change c ({ c with hasEstablishedPaths := true },
        if c.isEdgeConnected then c.process .pathConnected else [])
  | pathsLost : c.hasEstablishedPaths = true →
      Change c ({ c with hasEstablishedPaths := false },
        if c.isEdgeConnected then c.process .pathDisconnected else [])

theorem change_onEdgeConnChange (conns : Nat) :
    Change c (c.onEdgeConnChange edgeConnections conns) := by
  unfold onEdgeConnChange
  split
  next hlost => exact .edgesLost hlost.2
  next =>
    split
    next hmade => exact .edgesMade (Bool.eq_false_iff.mpr hmade.1)
    next => exact .unchanged

theorem change_onInboundPathChange (connected : Bool) :
    Change c (c.onInboundPathChange connected) := by
  unfold onInboundPathChange
  split
  next => exact .unchanged
  next hchanged =>
    cases connected with
    | true =>
      have hmade := Change.pathsMade (Bool.eq_false_iff.mpr fun h => hchanged h.symm)
      cases hedge : c.isEdgeConnected <;> simpa [hedge, process] using hmade
    | false =>
      have hlost := Change.pathsLost (Bool.ne_false_iff.mp fun h => hchanged h.symm)
      cases hedge : c.isEdgeConnected <;> simpa [hedge, process] using hlost

variable {action : ConnAction}

theorem change_act (haction : action.registers = none) :
    Change c (c.act edgeConnections action) := by
  cases action with
  | onConnected | onDisconnected => cases haction
  | onEdgeConnChange conns => exact change_onEdgeConnChange conns
  | onInboundPathChange connected => exact change_onInboundPathChange connected

theorem processOnConnCallbacks_called (callbacks : List (Nat × Bool)) :
    (processOnConnCallbacks callbacks).1 = callbacks.map Prod.fst := by
  induction callbacks with
  | nil => rfl
  | cons entry callbacks ih => rw [processOnConnCallbacks, List.map_cons, ← ih]

structure Listed (c : Connectivity) (callback : Nat) (list : Option ConnState) : Prop where
  known : callback < c.registered
  count : ∀ other, (c.process other).count callback = if list = some other then 1 else 0

theorem process_register (fireNow : Bool) (list : ConnState) (persistent : Bool)
    (other : ConnState) :
    (c.register fireNow list persistent).1.process other =
      if (persistent || !fireNow) ∧ other = list then c.process other ++ [c.registered]
      else c.process other := by
  unfold process Connectivity.register
  simp only [processOnConnCallbacks_called]
  by_cases hkept : (persistent || !fireNow) = true
  · by_cases hsame : other = list
    · subst hsame
      rw [if_pos hkept, if_pos ⟨hkept, rfl⟩, Function.update_self, List.map_append]
      rfl
    · rw [if_pos hkept, if_neg (fun h => hsame h.2), Function.update_of_ne hsame]
  · rw [if_neg hkept, if_neg (fun h => hkept h.1)]

theorem Listed.register (h : Listed c callback list) (fireNow : Bool) (other : ConnState)
    (persistent : Bool) : Listed (c.register fireNow other persistent).1 callback list := by
  refine ⟨Nat.lt_succ_of_lt h.known, fun each => ?_⟩
  rw [← h.count each, process_register]
  split
  · have hne : ¬c.registered = callback := Nat.ne_of_gt h.known
    rw [List.count_append, List.count_singleton, if_neg (by simpa using hne), Nat.add_zero]
  · rfl

theorem count_register (h : callback < c.registered) (fireNow : Bool) (other : ConnState)
    (persistent : Bool) : (c.register fireNow other persistent).2.count callback = 0 := by
  unfold Connectivity.register
  dsimp only
  split
  · rw [List.count_singleton, if_neg (by simpa using (Nat.ne_of_lt h).symm)]
  · rfl

theorem holds_register (fireNow : Bool) (other : ConnState) (persistent : Bool) :
    (c.register fireNow other persistent).1.holds = c.holds := by
  funext state
  cases state <;> rfl

variable {state : ConnState}

def home : ConnState → ConnState
  | .edgeDisconnected => .pathConnected
  | state => state

theorem registers_act {persistent : Bool}
    (haction : action.registers = some (state, persistent)) :
    c.act edgeConnections action = c.register (c.holds state) (home state) persistent := by
  cases action with
  | onConnected withPaths persistent' =>
    cases haction
    cases withPaths <;> simp [Connectivity.act, onConnected, holds, home]
  | onDisconnected withPaths persistent' =>
    cases haction
    cases withPaths <;> simp [Connectivity.act, onDisconnected, holds, home, Bool.not_and]
  | onEdgeConnChange conns => cases haction
  | onInboundPathChange connected => cases haction

theorem enters_registers {registration : ConnState × Bool}
    (haction : action.registers = some registration) :
    enters edgeConnections state c action = false := by
  rw [enters, step, registers_act haction, holds_register, Bool.not_and_self]

theorem Listed.act (h : Listed c callback list) (action : ConnAction) :
    Listed (c.step edgeConnections action) callback list := by
  unfold step
  cases hregisters : action.registers with
  | some registration =>
    rw [registers_act hregisters]
    exact h.register _ _ _
  | none =>
    have hchange : Change c (c.act edgeConnections action) := change_act hregisters
    generalize c.act edgeConnections action = result at hchange ⊢
    cases hchange <;> exact ⟨h.known, h.count⟩

theorem Listed.count_fired (h : Listed c callback list) (action : ConnAction) :
    (c.fired edgeConnections action).count callback =
      if list.any fun state => processes edgeConnections state c action then 1 else 0 := by
  cases hregisters : action.registers with
  | some registration =>
    have hnone : (list.any fun state => processes edgeConnections state c action) = false := by
      simp [processes, enters_registers hregisters]
    rw [hnone, if_neg Bool.false_ne_true, fired, registers_act hregisters]
    exact count_register h.known _ _ _
  | none =>
    have hchange : Change c (c.act edgeConnections action) := change_act hregisters
    unfold fired processes enters step
    generalize c.act edgeConnections action = result at hchange ⊢
    cases hchange with
    | unchanged => rcases list with _ | (_ | _ | _ | _) <;> simp [holds]
    | edgesLost hedge =>
      simp only [List.count_append, h.count]
      rcases list with _ | (_ | _ | _ | _) <;> simp [holds, hedge]
    | edgesMade hedge =>
      cases hpaths : c.hasEstablishedPaths <;>
        rcases list with _ | (_ | _ | _ | _) <;> simp [holds, hedge, hpaths, h.count]
    | pathsMade hpaths | pathsLost hpaths =>
      cases hedge : c.isEdgeConnected <;>
        rcases list with _ | (_ | _ | _ | _) <;> simp [holds, hedge, hpaths, h.count]

variable {persistent called : Bool}

theorem Listed.followsUp_cons {list : ConnState} (h : Listed c callback (some list))
    (action : ConnAction) (actions : List ConnAction) :
    FollowsUp edgeConnections callback state persistent called c (action :: actions) ↔
      (processes edgeConnections list c action =
          (enters edgeConnections state c action && (persistent || !called))) ∧
        FollowsUp edgeConnections callback state persistent
          (called || enters edgeConnections state c action) (c.step edgeConnections action)
          actions := by
  rw [FollowsUp, h.count_fired, Option.any_some]
  refine and_congr_left fun _ => ?_
  cases processes edgeConnections list c action <;>
    cases enters edgeConnections state c action <;> cases persistent <;> cases called <;> simp

theorem Listed.followsUp_none (h : Listed c callback none) (actions : List ConnAction) :
    FollowsUp edgeConnections callback state false true c actions := by
  induction actions generalizing c with
  | nil => trivial
  | cons action actions ih =>
    refine ⟨?_, ih (h.act action)⟩
    rw [h.count_fired]
    simp

-- a callback that is persistent is always due, one that was called and is not is never due
theorem Listed.followsUp_settled {list : ConnState} (h : Listed c callback (some list))
    (hsettled : (persistent || called) = true) (actions : List ConnAction) :
    FollowsUp edgeConnections callback state persistent called c actions ↔
      Run.Meets (step edgeConnections) (fun c action => processes edgeConnections list c action =
        (enters edgeConnections state c action && persistent)) c actions := by
  induction actions generalizing c called with
  | nil => exact Iff.rfl
  | cons action actions ih =>
    have hdue : (persistent || !called) = persistent := by cases persistent <;> simp_all
    rw [h.followsUp_cons, hdue, ih (h.act action) (by rw [← Bool.or_assoc, hsettled, Bool.true_or])]
    rfl

theorem processes_eq_enters (hnot : c.holds state = false) (action : ConnAction) :
    processes edgeConnections state c action = enters edgeConnections state c action := by
  unfold processes
  by_cases hstate : state = .pathDisconnected
  · subst hstate
    -- losing all edges leaves path-connected
    have himp : enters edgeConnections .edgeDisconnected c action = true →
        enters edgeConnections .pathDisconnected c action = true := by
      unfold enters
      rw [hnot]
      simp only [holds, Bool.and_eq_true, Bool.not_eq_true', Bool.not_false, Bool.true_and]
      rintro ⟨-, hafter⟩
      rw [hafter, Bool.false_and]
    cases hlost : enters edgeConnections .edgeDisconnected c action with
    | false => rw [Bool.and_false, Bool.or_false]
    | true => rw [himp hlost, Bool.true_or]
  · rw [decide_eq_false hstate, Bool.false_and, Bool.or_false]

theorem holds_step_of_not_enters (hnot : c.holds state = false)
    (henters : enters edgeConnections state c action = false) :
    (c.step edgeConnections action).holds state = false := by
  unfold enters at henters
  rwa [hnot, Bool.not_false, Bool.true_and] at henters

theorem Listed.followsUp_once (h : Listed c callback (some state)) (hnot : c.holds state = false)
    (actions : List ConnAction) :
    FollowsUp edgeConnections callback state false false c actions ↔
      AtMostOnce edgeConnections (processes edgeConnections state) c actions := by
  induction actions generalizing c with
  | nil => exact Iff.rfl
  | cons action actions ih =>
    have hsame := @processes_eq_enters edgeConnections c state hnot action
    rw [h.followsUp_cons, AtMostOnce, hsame, Bool.not_false, Bool.false_or, Bool.and_true,
      Bool.false_or, and_iff_right rfl]
    cases henters : enters edgeConnections state c action with
    | true =>
      rw [if_pos rfl]
      simpa using (h.act action).followsUp_settled (Bool.or_true false) actions
    | false =>
      rw [if_neg Bool.false_ne_true]
      exact ih (h.act action) (holds_step_of_not_enters hnot henters)

theorem Listed.followsUp_edgeDisconnected (h : Listed c callback (some .pathConnected))
    (hcalled : persistent = false → called = false) (actions : List ConnAction) :
    FollowsUp edgeConnections callback .edgeDisconnected persistent called c actions ↔
      Run.Meets (step edgeConnections) (fun c action =>
        enters edgeConnections .edgeDisconnected c action = false ∧
          enters edgeConnections .pathConnected c action = false) c actions := by
  induction actions generalizing c called with
  | nil => exact Iff.rfl
  | cons action actions ih =>
    have hprocesses : processes edgeConnections .pathConnected c action =
        enters edgeConnections .pathConnected c action := by
      rw [processes, decide_eq_false (by decide), Bool.false_and, Bool.or_false]
    -- no step both loses all edges and becomes path-connected
    have hexclusive : enters edgeConnections .edgeDisconnected c action = true →
        enters edgeConnections .pathConnected c action = false := by
      simp only [enters, holds, Bool.and_eq_true, Bool.not_eq_true', Bool.and_eq_false_iff]
      rintro ⟨-, hafter⟩
      exact Or.inr (Or.inl hafter)
    have hdue : (persistent || !called) = true := by
      cases persistent with
      | true => rfl
      | false => rw [hcalled rfl]; rfl
    rw [h.followsUp_cons, Run.Meets, hprocesses, hdue, Bool.and_true]
    cases hlost : enters edgeConnections .edgeDisconnected c action with
    | true => simp [hexclusive hlost]
    | false => rw [Bool.or_false, ih (h.act action) hcalled, and_iff_right rfl]

theorem Listed.followsUp_pathDisconnected (h : Listed c callback (some .pathDisconnected))
    (actions : List ConnAction) :
    FollowsUp edgeConnections callback .pathDisconnected true called c actions ↔
      Run.Meets (step edgeConnections) (fun c action =>
        enters edgeConnections .edgeDisconnected c action → c.hasEstablishedPaths) c actions := by
  rw [h.followsUp_settled rfl]
  refine Run.meets_congr _ (fun c action => ?_) c actions
  unfold processes enters
  cases hedge : c.isEdgeConnected <;> cases hpaths : c.hasEstablishedPaths <;>
    cases hafter : (c.step edgeConnections action).isEdgeConnected <;>
    simp [holds, hedge, hpaths, hafter]

theorem Listed.followsUp_connected (h : Listed c callback (some state))
    (hstate : state ≠ .pathDisconnected) (actions : List ConnAction) :
    FollowsUp edgeConnections callback state true called c actions := by
  rw [h.followsUp_settled rfl]
  refine Run.meets_of_forall _ (fun c action => ?_) c actions
  rw [Bool.and_true, processes, decide_eq_false hstate, Bool.false_and, Bool.or_false]

def Wf (c : Connectivity) : Prop :=
  ∀ list, ∀ callback ∈ c.process list, callback < c.registered

theorem wf_initial : Wf initial := fun _ _ hmem => absurd hmem List.not_mem_nil

theorem Wf.act (h : Wf c) (action : ConnAction) : Wf (c.step edgeConnections action) := by
  unfold step
  cases hregisters : action.registers with
  | some registration =>
    obtain ⟨state, persistent⟩ := registration
    rw [registers_act hregisters]
    intro list callback hmem
    rw [process_register] at hmem
    split at hmem
    · rcases List.mem_append.mp hmem with hold | hnew
      · exact Nat.lt_succ_of_lt (h list callback hold)
      · rw [List.mem_singleton.mp hnew]
        exact Nat.lt_succ_self _
    · exact Nat.lt_succ_of_lt (h list callback hmem)
  | none =>
    have hchange : Change c (c.act edgeConnections action) := change_act hregisters
    generalize c.act edgeConnections action = result at hchange ⊢
    cases hchange <;> exact h

theorem Wf.listed_register (h : Wf c) (fireNow : Bool) (list : ConnState) (persistent : Bool) :
    Listed (c.register fireNow list persistent).1 c.registered
      (if persistent || !fireNow then some list else none) := by
  refine ⟨Nat.lt_succ_self _, fun other => ?_⟩
  have hnew : (c.process other).count c.registered = 0 :=
    List.count_eq_zero.mpr fun hmem => Nat.lt_irrefl _ (h other _ hmem)
  rw [process_register]
  by_cases hkept : (persistent || !fireNow) = true
  · by_cases hsame : other = list
    · subst hsame
      rw [if_pos ⟨hkept, rfl⟩, if_pos hkept, if_pos rfl, List.count_append, hnew,
        List.count_singleton_self]
    · have hne : some list ≠ some other := fun heq => hsame (Option.some.inj heq).symm
      rw [if_neg (fun hboth => hsame hboth.2), if_pos hkept, if_neg hne, hnew]
  · rw [if_neg (fun hboth => hkept hboth.1), if_neg hkept, hnew]
    rfl

theorem Listed.followsUp_iff (h : Listed c callback (some (home state)))
    (hkept : (persistent || !c.holds state) = true) (actions : List ConnAction) :
    FollowsUp edgeConnections callback state persistent (c.holds state) c actions ↔
      Spared edgeConnections state persistent c actions := by
  have hpending : persistent = false → c.holds state = false := by
    rintro rfl
    rwa [Bool.false_or, Bool.not_eq_true'] at hkept
  cases state with
  | edgeDisconnected => exact h.followsUp_edgeDisconnected hpending actions
  | pathDisconnected =>
    cases persistent with
    | true => exact h.followsUp_pathDisconnected actions
    | false =>
      rw [hpending rfl]
      exact h.followsUp_once (hpending rfl) actions
  | edgeConnected | pathConnected =>
    cases persistent with
    | true => exact iff_of_true (h.followsUp_connected (by decide) actions) trivial
    | false =>
      rw [hpending rfl]
      exact h.followsUp_once (hpending rfl) actions

theorem Wf.registration_iff (h : Wf c) (haction : action.registers = some (state, persistent))
    (actions : List ConnAction) :
    ((c.fired edgeConnections action).count c.registered = (if c.holds state then 1 else 0) ∧
        FollowsUp edgeConnections c.registered state persistent (c.holds state)
          (c.step edgeConnections action) actions) ↔
      ((persistent ∨ ¬c.holds state) →
        Spared edgeConnections state persistent (c.step edgeConnections action) actions) := by
  have hlisted := h.listed_register (c.holds state) (home state) persistent
  have hholds : (c.step edgeConnections action).holds state = c.holds state := by
    rw [step, registers_act haction, holds_register]
  have hfired : (c.fired edgeConnections action).count c.registered =
      if c.holds state then 1 else 0 := by
    rw [fired, registers_act haction, Connectivity.register]
    cases c.holds state <;> simp
  rw [and_iff_right hfired]
  rw [← @registers_act edgeConnections c action state persistent haction] at hlisted
  change Listed (c.step edgeConnections action) c.registered _ at hlisted
  by_cases hkept : (persistent || !c.holds state) = true
  · rw [if_pos hkept] at hlisted
    rw [forall_prop_of_true (by simpa using hkept), ← hlisted.followsUp_iff (by rwa [hholds]),
      hholds]
  · rw [if_neg hkept] at hlisted
    simp only [Bool.or_eq_true, Bool.not_eq_true', not_or, Bool.not_eq_true,
      Bool.not_eq_false] at hkept
    obtain ⟨rfl, hcalled⟩ := hkept
    rw [hcalled]
    exact iff_of_true (hlisted.followsUp_none actions) (fun hor => by simp at hor)

theorem Wf.firesRight_iff (h : Wf c) (actions : List ConnAction) :
    FiresRight edgeConnections c actions ↔ AllSpared edgeConnections c actions := by
  induction actions generalizing c with
  | nil => exact Iff.rfl
  | cons action actions ih =>
    refine and_congr ?_ (ih (h.act action))
    exact forall_congr' fun state => forall_congr' fun persistent =>
      forall_congr' fun haction => h.registration_iff haction actions

/-- In every run the callbacks are called when they should be exactly if every callback that is
kept is spared afterwards. -/
theorem callbacks_fireRight_iff (edgeConnections : Nat) (actions : List ConnAction) :
    FiresRight edgeConnections initial actions ↔ AllSpared edgeConnections initial actions :=
  wf_initial.firesRight_iff actions

theorem oneShot_called_again :
    ¬FiresRight 1 initial [.onConnected false false, .onEdgeConnChange 1, .onEdgeConnChange 0,
      .onEdgeConnChange 1] := by
  rintro ⟨hregistered, -⟩
  obtain ⟨-, -, -, hagain, -⟩ := hregistered .edgeConnected false rfl
  exact absurd hagain (by decide)

end Connectivity
end SessionRouter.Router
