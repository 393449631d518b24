import SessionRouter.Lib.Run
import SessionRouter.Lib.Table

/-!
# The TCP tunnel of a session
-/

namespace SessionRouter.Session

open Lib

def innerIdleTeardown : Int := 60000000000

structure LiveConn where
  carrier : Nat
  mappedPort : UInt16
  finished : Bool
deriving DecidableEq

structure TCPTunnel where
  conn : Option Nat
  conns : Table Nat LiveConn
  nextConnId : Nat
  idleTeardownScheduled : Bool
  idleSince : Int

namespace TCPTunnel

def adopt (tunnel : TCPTunnel) (carrier : Nat) (mappedPort : UInt16) : TCPTunnel :=
  { tunnel with
    conns := tunnel.conns.insertOrAssign tunnel.nextConnId ⟨carrier, mappedPort, false⟩
    nextConnId := tunnel.nextConnId + 1 }

def reset (tunnel : TCPTunnel) : TCPTunnel :=
  { tunnel with conn := none, conns := ∅ }

def onEstablished (tunnel : TCPTunnel) (inner : Nat) : TCPTunnel :=
  match tunnel.conn with
  | some _ => tunnel
  | none => { tunnel with conn := some inner }

def erase (tunnel : TCPTunnel) (connId : Nat) (now : Int) : TCPTunnel :=
  let conns := tunnel.conns.remove connId
  if conns.entries.isEmpty then
    { tunnel with conns := conns, idleSince := now, idleTeardownScheduled := true }
  else { tunnel with conns := conns }

def idleTeardown (tunnel : TCPTunnel) (now : Int) : TCPTunnel :=
  if tunnel.conns.entries.isEmpty = false then { tunnel with idleTeardownScheduled := false }
  else if now < tunnel.idleSince + innerIdleTeardown then tunnel
  else { tunnel with idleTeardownScheduled := false, conn := none }

end TCPTunnel

/-- A tunnel with its endpoint. -/
structure TunnelState where
  tunnel : TCPTunnel
  listens : Bool
  inner : Table Nat Bool
  nextInner : Nat
  drops : List Nat

inductive TunnelAction where
  | connectStream (destPort : UInt16) (connects opens : Bool)
  | remoteConnects
  | established (inner : Nat)
  | startAcceptedStream (inner : Nat) (destPort : UInt16) (target connects : Bool)
  | finish (connId : Nat)
  | closeConnectionsFor (destPort : UInt16)
  | drop (connId : Nat) (now : Int)
  | idleTimer (now : Int)
  | closed (inner : Nat)

namespace TunnelState

def openConnection (state : TunnelState) (connects : Bool) : TunnelState :=
  match state.tunnel.conn with
  | some _ => state
  | none =>
    if connects then
      { state with
        tunnel := { state.tunnel with conn := some state.nextInner }
        inner := state.inner.insertOrAssign state.nextInner false
        nextInner := state.nextInner + 1 }
    else state

def connectStream (state : TunnelState) (destPort : UInt16) (connects opens : Bool) :
    TunnelState :=
  let state := state.openConnection connects
  match state.tunnel.conn with
  | none => state
  | some inner =>
    if opens then { state with tunnel := state.tunnel.adopt inner destPort } else state

def startAcceptedStream (state : TunnelState) (inner : Nat) (destPort : UInt16)
    (target connects : Bool) : TunnelState :=
  if destPort = 0 then state
  else if target = false then state
  else if connects = false then state
  else { state with tunnel := state.tunnel.adopt inner 0 }

def finish (state : TunnelState) (connId : Nat) : TunnelState :=
  match state.tunnel.conns.find connId with
  | none => state
  | some live =>
    if live.finished then state
    else
      { state with
        tunnel := { state.tunnel with
          conns := state.tunnel.conns.insertOrAssign connId { live with finished := true } }
        drops := state.drops ++ [connId] }

def closeConnectionsFor (state : TunnelState) (destPort : UInt16) : TunnelState :=
  let mapped := state.tunnel.conns.entries.filter fun entry => entry.2.mappedPort = destPort
  (mapped.map fun entry => entry.1).foldl finish state

def step (state : TunnelState) : TunnelAction → TunnelState
  | .connectStream destPort connects opens => state.connectStream destPort connects opens
  | .remoteConnects =>
    if state.listens then
      { state with
        inner := state.inner.insertOrAssign state.nextInner true
        nextInner := state.nextInner + 1 }
    else state
  | .established inner =>
    if (state.inner.find inner).isSome then
      { state with tunnel := state.tunnel.onEstablished inner }
    else state
  | .startAcceptedStream inner destPort target connects =>
    -- streams are accepted on what the remote has opened only
    if state.inner.find inner = some true then
      state.startAcceptedStream inner destPort target connects
    else state
  | .finish connId => state.finish connId
  | .closeConnectionsFor destPort => state.closeConnectionsFor destPort
  | .drop connId now =>
    if connId ∈ state.drops then
      { state with
        tunnel := state.tunnel.erase connId now
        drops := state.drops.erase connId }
    else state
  | .idleTimer now =>
    if state.tunnel.idleTeardownScheduled then
      { state with tunnel := state.tunnel.idleTeardown now }
    else state
  | .closed inner =>
    if (state.inner.find inner).isSome then
      { state with tunnel := state.tunnel.reset, inner := state.inner.remove inner }
    else state

def init (listens : Bool) : TunnelState where
  tunnel := ⟨none, ∅, 0, false, 0⟩
  listens := listens
  inner := ∅
  nextInner := 0
  drops := []

structure Isolated (before after : TCPTunnel) (inner : Nat) : Prop where
  conns : ∀ connId, after.conns.find connId =
    (before.conns.find connId).filter fun live => live.carrier ≠ inner
  current : after.conn = before.conn.filter fun current => current ≠ inner

def ClosesAlone (state : TunnelState) : TunnelAction → Prop
  | .closed inner =>
    (state.inner.find inner).isSome →
      (∀ connId live, state.tunnel.conns.find connId = some live → live.carrier = inner) ∧
        ∀ current, state.tunnel.conn = some current → current = inner
  | _ => True

theorem isolated_reset_iff {tunnel : TCPTunnel} {inner : Nat} :
    Isolated tunnel tunnel.reset inner ↔
      (∀ connId live, tunnel.conns.find connId = some live → live.carrier = inner) ∧
        ∀ current, tunnel.conn = some current → current = inner := by
  have hfilter {α : Type} (found : Option α) (p : α → Nat) :
      none = found.filter (fun value => p value ≠ inner) ↔
        ∀ value, found = some value → p value = inner := by
    rw [eq_comm, Option.filter_eq_none_iff]
    simp
  constructor
  · rintro ⟨hconns, hcurrent⟩
    exact ⟨fun connId => (hfilter _ _).mp (hconns connId), (hfilter _ id).mp hcurrent⟩
  · rintro ⟨hconns, hcurrent⟩
    exact ⟨fun connId => (hfilter _ _).mpr (hconns connId), (hfilter _ id).mpr hcurrent⟩

/-- Every closing of an inner connection in a run leaves the others alone exactly if there is
nothing on them whenever one closes. -/
theorem closed_isolated_iff (listens : Bool) (actions : List TunnelAction) :
    (∀ front inner back, actions = front ++ .closed inner :: back →
      ((Run.run step (init listens) front).inner.find inner).isSome →
        Isolated (Run.run step (init listens) front).tunnel
          ((Run.run step (init listens) front).step (.closed inner)).tunnel inner) ↔
      Run.Meets step ClosesAlone (init listens) actions := by
  have hclosed {state : TunnelState} {inner : Nat} (hopen : (state.inner.find inner).isSome) :
      (state.step (.closed inner)).tunnel = state.tunnel.reset := by
    rw [step, if_pos hopen]
  constructor
  · intro hisolated
    refine Run.meets_of_forall_split step fun front action back hsplit => ?_
    cases action with
    | closed inner =>
      intro hopen
      have hat := hisolated front inner back hsplit hopen
      rw [hclosed hopen] at hat
      exact isolated_reset_iff.mp hat
    | _ => trivial
  · rintro hmeets front inner back rfl hopen
    obtain ⟨-, halone, -⟩ := (Run.meets_append step ClosesAlone _ front _).mp hmeets
    rw [hclosed hopen]
    exact isolated_reset_iff.mpr (halone hopen)

def lateCallback : List TunnelAction :=
  [.connectStream 80 true true, .finish 0, .drop 0 0, .idleTimer innerIdleTeardown,
    .connectStream 80 true true, .closed 0]

theorem lateCallback_not_isolated :
    ¬∀ front inner back, lateCallback = front ++ .closed inner :: back →
      ((Run.run step (init false) front).inner.find inner).isSome →
        Isolated (Run.run step (init false) front).tunnel
          ((Run.run step (init false) front).step (.closed inner)).tunnel inner := by
  intro hisolated
  have hat := hisolated (lateCallback.take 5) 0 [] rfl (by decide +kernel)
  have hbefore : (Run.run step (init false) (lateCallback.take 5)).tunnel.conn = some 1 := by
    decide +kernel
  have hafter :
      ((Run.run step (init false) (lateCallback.take 5)).step (.closed 0)).tunnel.conn = none := by
    decide +kernel
  have hcurrent := hat.current
  rw [hbefore, hafter] at hcurrent
  exact absurd hcurrent (by decide)

end TunnelState
end SessionRouter.Session
