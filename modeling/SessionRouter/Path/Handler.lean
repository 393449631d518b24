import SessionRouter.Lib.Run
import SessionRouter.Messages.Common
import SessionRouter.Path.Build

/-!
# Path handlers
-/

namespace SessionRouter

open Lib

/-- A path object and the handler that made it. -/
structure PathRecord where
  path : Path
  handler : Nat
  expiry : Int
  established : Bool

inductive SendResult where
  | sent
  | notSent
  | threw
  deriving DecidableEq

/-- What a handler consults and draws for one build. -/
structure BuildRequest where
  isStopped : Bool
  contacts : List RelayContact
  ids : Nat → HopID
  expiry : Int
  result : SendResult

structure PathHandlers where
  routerId : RouterID
  ctx : PathContext
  paths : Nat → Table HopID Path
  alive : Nat → Bool
  records : List PathRecord
  pending : List Nat
  removed : List Nat

namespace PathHandlers

def start (routerId : RouterID) : PathHandlers where
  routerId := routerId
  ctx := PathContext.empty
  paths _ := ∅
  alive _ := true
  records := []
  pending := []
  removed := []

def addPath (state : PathHandlers) (handler : Nat) (path : Path) : PathHandlers :=
  { state with
    paths := Function.update state.paths handler
      ((state.paths handler).insertOrAssign path.edge.rxid path)
    ctx := state.ctx.addPath path }

def erase (state : PathHandlers) (handler : Nat) (key : HopID) (path : Path) : PathHandlers :=
  { state with
    paths := Function.update state.paths handler ((state.paths handler).remove key)
    ctx := state.ctx.dropPath path
    removed := (((state.paths handler).find key).map Path.pathLogId).toList ++ state.removed }

def dropPath (state : PathHandlers) (handler : Nat) (path : Path) : PathHandlers :=
  state.erase handler path.edge.rxid path

def eraseIf (state : PathHandlers) (handler : Nat) (drop : Path → Bool) : PathHandlers :=
  (state.paths handler).entries.foldl
    (fun state entry => if drop entry.2 then state.erase handler entry.1 entry.2 else state) state

def isExpired (state : PathHandlers) (path : Path) (now : Int) : Bool :=
  match state.records[path.pathLogId]? with
  | some record => record.expiry < now
  | none => false

def expirePaths (state : PathHandlers) (handler : Nat) (now : Int) : PathHandlers :=
  state.eraseIf handler fun path => state.isExpired path now

def invalidatePaths (state : PathHandlers) (handler : Nat) : PathHandlers :=
  state.eraseIf handler fun _ => true

def canBuild (request : BuildRequest) : Bool :=
  !request.isStopped && request.contacts.length ≤ buildLength

def newPath (state : PathHandlers) (ids : Nat → HopID) (edge : RelayContact)
    (others : List RelayContact) : Path where
  pathLogId := state.records.length
  hops := initHops ids 1 (ids 0) (.router state.routerId) (edge :: others)
  hops_ne_nil := by
    rw [← List.length_pos_iff, initHops_length]
    exact Nat.succ_pos _

def sendPathBuild (state : PathHandlers) (handler : Nat) (path : Path) :
    SendResult → PathHandlers
  | .sent => { state with pending := path.pathLogId :: state.pending }
  | .notSent => state.dropPath handler path
  | .threw => state

def build (state : PathHandlers) (handler : Nat) (request : BuildRequest) : PathHandlers :=
  match request.contacts with
  | [] => state
  | edge :: others =>
    if !canBuild request then state
    else
      let path := state.newPath request.ids edge others
      let made := { state with
        records := state.records ++ [⟨path, handler, request.expiry, false⟩] }
      if ((state.paths handler).find path.edge.rxid).isSome then made
      else
        sendPathBuild
          { made with
            paths := Function.update state.paths handler
              ((state.paths handler).emplace path.edge.rxid path) }
          handler path request.result

def pathBuildSucceeded (state : PathHandlers) (record : PathRecord) : PathHandlers :=
  { state with
    records := state.records.modify record.path.pathLogId fun record =>
      { record with established := true } }.addPath record.handler record.path

def pathBuildFailed (state : PathHandlers) (record : PathRecord) : PathHandlers :=
  state.dropPath record.handler record.path

def receiveReply (state : PathHandlers) (pathLogId : Nat) (reply : Message) : PathHandlers :=
  match state.records[pathLogId]? with
  | none => state
  | some record =>
    if pathLogId ∈ state.pending then
      let called := { state with pending := state.pending.filter (· ≠ pathLogId) }
      if !state.alive record.handler then called
      else
        match reply with
        | some reply =>
          if reply.isError then called.pathBuildFailed record
          else called.pathBuildSucceeded record
        | none => called.pathBuildFailed record
    else state

end PathHandlers

inductive PathAction where
  | build (handler : Nat) (request : BuildRequest)
  | reply (pathLogId : Nat) (reply : Message)
  | dropPath (handler pathLogId : Nat)
  | invalidatePaths (handler : Nat)
  | expirePaths (handler : Nat) (now : Int)
  | pingsFailed (pathLogId : Nat)
  | destroy (handler : Nat)

namespace PathHandlers

def step (state : PathHandlers) : PathAction → PathHandlers
  | .build handler request => state.build handler request
  | .reply pathLogId reply => state.receiveReply pathLogId reply
  | .dropPath handler pathLogId =>
    match state.records[pathLogId]? with
    | some record => state.dropPath handler record.path
    | none => state
  | .invalidatePaths handler => state.invalidatePaths handler
  | .expirePaths handler now => state.expirePaths handler now
  | .pingsFailed pathLogId =>
    { state with
      records := state.records.modify pathLogId fun record => { record with expiry := 0 } }
  | .destroy handler =>
    { state with
      paths := Function.update state.paths handler ∅
      alive := Function.update state.alive handler false }

end PathHandlers
end SessionRouter
