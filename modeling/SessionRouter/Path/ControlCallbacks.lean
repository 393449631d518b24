import SessionRouter.Lib.Run
import SessionRouter.Link.Endpoint
import SessionRouter.Path.Control

/-!
# Callbacks of path control messages
-/

namespace SessionRouter

open Lib Bencode

structure ControlHandler where
  path : Path
  callback : Nat

/-- A client that sends path control messages. -/
structure ControlCalls where
  endpoint : Endpoint
  outstanding : List (Command ControlHandler)
  given : Nat
  invoked : List (Nat × PathControlResponse)

inductive ControlAction where
  | send (path : Path) (method body : Bytes) (nonce : SymmNonce)
  | answer (place : Nat) (pathAlive : Bool) (message : Message)
  | tables (endpoint : Endpoint)

namespace ControlCalls

variable (suite : CipherSuite)

def start (endpoint : Endpoint) : ControlCalls :=
  ⟨endpoint, [], 0, []⟩

def sendPathControlMessage (state : ControlCalls) (path : Path) (method body : Bytes)
    (nonce : SymmNonce) : ControlCalls :=
  let sent := state.endpoint.sendCommand path.edge.routerId (ascii "path_control")
    (path.pathControlMessage suite method body nonce) (some ⟨path, state.given⟩)
  { state with
    endpoint := sent.1.1
    outstanding := state.outstanding ++ sent.1.2.toList
    given := state.given + 1 }

def invocation (command : Command ControlHandler) (pathAlive : Bool) (message : Message) :
    Option (Nat × PathControlResponse) :=
  command.handler.map fun handler =>
    (handler.callback,
      Path.controlDecryptor suite (if pathAlive then some handler.path else none) message)

def answerCommand (state : ControlCalls) (place : Nat) (pathAlive : Bool) (message : Message) :
    ControlCalls :=
  match state.outstanding[place]? with
  | none => state
  | some command =>
    { state with
      outstanding := state.outstanding.eraseIdx place
      invoked := state.invoked ++ (invocation suite command pathAlive message).toList }

def step (state : ControlCalls) : ControlAction → ControlCalls
  | .send path method body nonce => state.sendPathControlMessage suite path method body nonce
  | .answer place pathAlive message => state.answerCommand suite place pathAlive message
  | .tables endpoint => { state with endpoint := { endpoint with isStopping := false } }

def carries (callback : Nat) (command : Command ControlHandler) : Bool :=
  command.handler.any fun handler => handler.callback = callback

def calls (state : ControlCalls) (callback : Nat) : Nat :=
  state.invoked.countP fun call => call.1 = callback

def total (state : ControlCalls) (callback : Nat) : Nat :=
  state.calls callback + state.outstanding.countP (carries callback)

structure Running (state : ControlCalls) : Prop where
  notStopping : state.endpoint.isStopping = false
  unknown : ∀ callback, state.given ≤ callback → state.total callback = 0

def EdgeKnown (state : ControlCalls) : ControlAction → Prop
  | .send path _ _ _ => (state.endpoint.getRc path.edge.routerId).isSome = true
  | _ => True

def EachOnce (state : ControlCalls) : Prop :=
  ∀ callback < state.given, state.total callback = 1

variable {suite} {state : ControlCalls}

theorem running_start {endpoint : Endpoint} (h : endpoint.isStopping = false) :
    (start endpoint).Running where
  notStopping := h
  unknown _ _ := rfl

theorem total_sendPathControlMessage (h : state.Running) (path : Path) (method body : Bytes)
    (nonce : SymmNonce) (callback : Nat) :
    (state.sendPathControlMessage suite path method body nonce).total callback =
      state.total callback +
        if callback = state.given ∧ (state.endpoint.getRc path.edge.routerId).isSome then 1
        else 0 := by
  unfold sendPathControlMessage total calls
  rw [List.countP_append, Nat.add_assoc, Nat.add_left_cancel_iff, Nat.add_left_cancel_iff]
  cases hrc : state.endpoint.getRc path.edge.routerId with
  | none => simp [Endpoint.sendCommand_of_getRc_none hrc]
  | some rc =>
    obtain ⟨connection, haccepted⟩ : ∃ connection,
        (state.endpoint.sendCommand path.edge.routerId (ascii "path_control")
          (path.pathControlMessage suite method body nonce)
          (some (⟨path, state.given⟩ : ControlHandler))).1.2 = some ⟨connection, _, _, _⟩ :=
      Endpoint.sendCommand_accepted h.notStopping hrc
    simp [haccepted, carries, eq_comm]

theorem total_answerCommand (state : ControlCalls) (place : Nat) (pathAlive : Bool)
    (message : Message) (callback : Nat) :
    (state.answerCommand suite place pathAlive message).total callback =
      state.total callback := by
  unfold answerCommand
  split
  · rfl
  · next command hcommand =>
    have hout : state.outstanding.countP (carries callback) =
        (state.outstanding.eraseIdx place).countP (carries callback) +
          if carries callback command then 1 else 0 := by
      obtain ⟨hlt, rfl⟩ := List.getElem?_eq_some_iff.mp hcommand
      have hperm := List.getElem_cons_eraseIdx_perm hlt
      rw [← hperm.countP_eq, List.countP_cons]
    have hinvoked : (invocation suite command pathAlive message).toList.countP
        (fun call => call.1 = callback) = if carries callback command then 1 else 0 := by
      unfold invocation carries
      cases command.handler with
      | none => rfl
      | some handler => simp [List.countP_singleton]
    simp only [total, calls, List.countP_append, hinvoked, hout]
    omega

theorem Running.step (action : ControlAction) (h : state.Running) :
    (state.step suite action).Running := by
  cases action with
  | send path method body nonce =>
    refine ⟨Endpoint.sendCommand_frame.1.trans h.notStopping, fun callback hgiven => ?_⟩
    have hgiven : state.given + 1 ≤ callback := hgiven
    rw [ControlCalls.step, total_sendPathControlMessage h, h.unknown callback (by omega), if_neg]
    rintro ⟨rfl, -⟩
    omega
  | answer place pathAlive message =>
    have hsame : (state.answerCommand suite place pathAlive message).endpoint = state.endpoint ∧
        (state.answerCommand suite place pathAlive message).given = state.given := by
      unfold answerCommand
      split
      · exact ⟨rfl, rfl⟩
      · exact ⟨rfl, rfl⟩
    refine ⟨?_, fun callback hgiven => ?_⟩
    · rw [ControlCalls.step, hsame.1]
      exact h.notStopping
    · rw [ControlCalls.step, hsame.2] at hgiven
      rw [ControlCalls.step, total_answerCommand]
      exact h.unknown callback hgiven
  | tables endpoint => exact ⟨rfl, h.unknown⟩

theorem given_answerCommand (state : ControlCalls) (place : Nat) (pathAlive : Bool)
    (message : Message) :
    (state.answerCommand suite place pathAlive message).given = state.given := by
  unfold answerCommand
  split
  · rfl
  · rfl

theorem eachOnce_step_iff (state : ControlCalls) (action : ControlAction) (h : state.Running) :
    (state.step suite action).EachOnce ↔ state.EachOnce ∧ state.EdgeKnown action := by
  cases action with
  | send path method body nonce =>
    have htotal (callback : Nat) :
        (state.sendPathControlMessage suite path method body nonce).total callback = _ :=
      total_sendPathControlMessage h path method body nonce callback
    have hnew := h.unknown state.given (Nat.le_refl _)
    constructor
    · intro hafter
      have hgiven := hafter state.given (Nat.lt_succ_self _)
      rw [ControlCalls.step, htotal, hnew] at hgiven
      refine ⟨fun callback hlt => ?_, ?_⟩
      · have hcallback := hafter callback (Nat.lt_succ_of_lt hlt)
        rw [ControlCalls.step, htotal, if_neg (by omega)] at hcallback
        exact hcallback
      · by_contra hunknown
        rw [if_neg fun hboth => hunknown hboth.2] at hgiven
        omega
    · rintro ⟨hbefore, hknown⟩ callback hlt
      rw [ControlCalls.step, htotal]
      rcases Nat.lt_succ_iff_lt_or_eq.mp hlt with hlt | rfl
      · rw [if_neg (by omega), hbefore callback hlt]
      · rw [if_pos ⟨rfl, hknown⟩, hnew]
  | answer place pathAlive message =>
    simp only [EachOnce, ControlCalls.step, given_answerCommand, total_answerCommand, EdgeKnown,
      and_true]
  | tables endpoint => exact (and_iff_left trivial).symm

/-- When every accepted command has been answered, every function that was given to
`send_path_control_message` has been called exactly once, exactly if each was given while
the contact of its path's edge was known. -/
theorem controlCallbacks_once_iff (suite : CipherSuite) (endpoint : Endpoint)
    (actions : List ControlAction) (hrunning : endpoint.isStopping = false)
    (hanswered : (Run.run (step suite) (start endpoint) actions).outstanding = []) :
    (∀ callback < (Run.run (step suite) (start endpoint) actions).given,
      (Run.run (step suite) (start endpoint) actions).calls callback = 1) ↔
      Run.Meets (step suite) EdgeKnown (start endpoint) actions := by
  have hstart : (start endpoint).EachOnce := fun callback hlt => absurd hlt (Nat.not_lt_zero _)
  have hfinal := Run.run_iff_meets (step suite) EdgeKnown (fun _ action h => h.step action)
    eachOnce_step_iff actions (running_start hrunning)
  rw [and_iff_right hstart] at hfinal
  rw [← hfinal]
  simp only [EachOnce, total, hanswered, List.countP_nil, Nat.add_zero]

/-! ### A contact that is not known -/

namespace UnknownEdge

def cipher : CipherSuite where
  stream _ _ _ := 0
  aeadStream _ _ _ := 0
  poly1305 _ _ _ _ := FixedBytes.filled 16 0

def contact : RelayContact where
  routerId := FixedBytes.filled 32 4
  routerVersion := (1, 1, 0)
  timestamp := 0
  payload := []

def contacts : Table RouterID RelayContact :=
  (∅ : Table RouterID RelayContact).insertOrAssign contact.routerId contact

def endpoint (rcs : Table RouterID RelayContact) : Endpoint where
  isStopping := false
  isServiceNode := false
  rcs := rcs
  relayConns := ∅
  clientConns := ∅
  pendingOutbound := ∅
  nextConnection := 0

def path : Path where
  pathLogId := 0
  hops :=
    [{ txid := FixedBytes.filled 16 1
       rxid := FixedBytes.filled 16 2
       upstream := FixedBytes.filled 32 4
       routerId := FixedBytes.filled 32 4
       downstream := .router (FixedBytes.filled 32 9)
       sharedSecret := FixedBytes.filled 32 5
       xorNonce := FixedBytes.filled 24 6
       expiry := 0
       version := 1
       terminalHop := true }]
  hops_ne_nil := by simp

def send : ControlAction :=
  .send path (ascii "fetch_rids") [] (FixedBytes.filled 24 7)

end UnknownEdge

theorem controlCallbacks_once_known :
    let state := Run.run (step UnknownEdge.cipher)
      (start (UnknownEdge.endpoint UnknownEdge.contacts)) [UnknownEdge.send, .answer 0 true none]
    ∀ callback < state.given, state.calls callback = 1 :=
  (controlCallbacks_once_iff UnknownEdge.cipher (UnknownEdge.endpoint UnknownEdge.contacts)
    [UnknownEdge.send, .answer 0 true none] rfl rfl).mpr ⟨rfl, trivial, trivial⟩

theorem unknownEdge_never_calls :
    let state := Run.run (step UnknownEdge.cipher) (start (UnknownEdge.endpoint ∅))
      [UnknownEdge.send]
    state.outstanding = [] ∧ ¬ ∀ callback < state.given, state.calls callback = 1 := by
  refine ⟨rfl, fun hall => ?_⟩
  exact absurd (hall 0 (by decide)) (by decide)

end ControlCalls
end SessionRouter
