import SessionRouter.Contact.RelayContact
import SessionRouter.Lib.Table

/-!
# The link endpoint
-/

namespace SessionRouter

open Lib

structure Command (κ : Type) where
  connection : Nat
  endpoint : Bytes
  body : Bytes
  handler : Option κ

structure Endpoint where
  isStopping : Bool
  isServiceNode : Bool
  rcs : Table RouterID RelayContact
  relayConns : Table RouterID Nat
  clientConns : Table RouterID Nat
  pendingOutbound : Table RouterID Nat
  nextConnection : Nat

namespace Endpoint

def getRc (endpoint : Endpoint) (rid : RouterID) : Option RelayContact :=
  endpoint.rcs.find rid

def getRelayConn (endpoint : Endpoint) (relay : RouterID) : Option Nat :=
  if endpoint.isServiceNode then endpoint.relayConns.find relay
  else endpoint.clientConns.find relay

def ctrlStreamImpl (endpoint : Endpoint) (rc : RelayContact) : Endpoint × Bool × Nat :=
  match endpoint.getRelayConn rc.routerId with
  | some connection => (endpoint, true, connection)
  | none =>
    match endpoint.pendingOutbound.find rc.routerId with
    | some pending => (endpoint, false, pending)
    | none =>
      ({ endpoint with
          pendingOutbound :=
            endpoint.pendingOutbound.insertOrAssign rc.routerId endpoint.nextConnection
          nextConnection := endpoint.nextConnection + 1 },
        false, endpoint.nextConnection)

variable {κ : Type}

def sendCommandRc (endpoint : Endpoint) (rc : RelayContact) (name body : Bytes)
    (handler : Option κ) : Endpoint × Option (Command κ) :=
  if endpoint.isStopping then (endpoint, none)
  else
    let stream := endpoint.ctrlStreamImpl rc
    (stream.1, some ⟨stream.2.2, name, body, handler⟩)

def sendCommand (endpoint : Endpoint) (rid : RouterID) (name body : Bytes)
    (handler : Option κ) : (Endpoint × Option (Command κ)) × Bool :=
  if endpoint.isStopping then ((endpoint, none), false)
  else
    match endpoint.getRc rid with
    | none => ((endpoint, none), false)
    | some rc => (endpoint.sendCommandRc rc name body handler, true)

variable {endpoint : Endpoint} {rid : RouterID} {name body : Bytes} {handler : Option κ}

theorem sendCommand_frame :
    (endpoint.sendCommand rid name body handler).1.1.isStopping = endpoint.isStopping ∧
      (endpoint.sendCommand rid name body handler).1.1.getRc = endpoint.getRc := by
  unfold sendCommand
  split
  · exact ⟨rfl, rfl⟩
  · split
    · exact ⟨rfl, rfl⟩
    · unfold sendCommandRc
      split
      · exact ⟨rfl, rfl⟩
      · unfold ctrlStreamImpl
        split
        · exact ⟨rfl, rfl⟩
        · split
          · exact ⟨rfl, rfl⟩
          · exact ⟨rfl, rfl⟩

theorem sendCommand_of_getRc_none (h : endpoint.getRc rid = none) :
    endpoint.sendCommand rid name body handler = ((endpoint, none), false) := by
  unfold sendCommand
  split
  · rfl
  · rw [h]

theorem sendCommand_accepted {rc : RelayContact} (hrunning : endpoint.isStopping = false)
    (hrc : endpoint.getRc rid = some rc) :
    ∃ connection, (endpoint.sendCommand rid name body handler).1.2 =
      some ⟨connection, name, body, handler⟩ := by
  refine ⟨(endpoint.ctrlStreamImpl rc).2.2, ?_⟩
  simp [sendCommand, hrc, sendCommandRc, hrunning]

def sendCommands (endpoint : Endpoint) (rids : List RouterID) (name body : Bytes)
    (handler : Option κ) : Endpoint × List (Command κ) :=
  rids.foldl
    (fun state rid =>
      let sent := state.1.sendCommand rid name body handler
      (sent.1.1, state.2 ++ sent.1.2.toList))
    (endpoint, [])

theorem foldl_sendCommand_length (rids : List RouterID) (state : Endpoint × List (Command κ))
    (hrunning : state.1.isStopping = false) :
    (rids.foldl
      (fun state rid =>
        let sent := state.1.sendCommand rid name body handler
        (sent.1.1, state.2 ++ sent.1.2.toList)) state).2.length =
      state.2.length + rids.countP fun rid => (state.1.getRc rid).isSome := by
  induction rids generalizing state with
  | nil => rfl
  | cons rid rids ih =>
    rw [List.foldl_cons, ih _ (sendCommand_frame.1.trans hrunning), List.countP_cons]
    simp only [sendCommand_frame.2, List.length_append]
    cases hrc : state.1.getRc rid with
    | none => simp [sendCommand_of_getRc_none hrc]
    | some rc =>
      obtain ⟨connection, haccepted⟩ : ∃ connection,
          (state.1.sendCommand rid name body handler).1.2 =
            some ⟨connection, name, body, handler⟩ := sendCommand_accepted hrunning hrc
      simp only [haccepted, Option.toList_some, List.length_singleton, Option.isSome_some,
        if_true]
      omega

theorem length_sendCommands (hrunning : endpoint.isStopping = false) (rids : List RouterID) :
    (endpoint.sendCommands rids name body handler).2.length =
      rids.countP fun rid => (endpoint.getRc rid).isSome := by
  rw [sendCommands, foldl_sendCommand_length rids (endpoint, []) hrunning]
  exact Nat.zero_add _

end Endpoint
end SessionRouter
