import SessionRouter.Link.Network
import SessionRouter.Path.Control

/-!
# Handling of path control messages
-/

namespace SessionRouter

open Lib Bencode

/-- What a relay does with a path control request. -/
inductive ControlOutcome where
  | respond (reply : Reply)
  | request (ptr : TransitHopPtr) (type : MessageType) (payload : Option Bytes)
  | forward (target : NextHop) (message : Bytes) (ptr : TransitHopPtr) (type : MessageType)

namespace Link

variable (suite : CipherSuite)

def handlePathControl (router : Router) (body : Bytes) : ControlOutcome :=
  if body.length ≤ encryptPathMessageOverheadMac then .respond ⟨Messages.errorResponse, true⟩
  else
    let m := PathMessage.splitSpanTail body
    if m.msgtype ≠ 0x01 then .respond ⟨Messages.errorResponse, true⟩
    else
      match router.pathContext.getTransitHop m.hopId with
      | none => .respond ⟨Messages.errorResponse, true⟩
      | some ptr =>
        let nonce := m.nonce ^^^ ptr.hop.xorNonce
        if ptr.hop.terminalHop then
          .request ptr m.msgtype
            (Crypto.xchacha20Poly1305DecryptInplace suite m.inner ptr.hop.sharedSecret nonce [])
        else
          let inner := Crypto.xchacha20 suite m.inner ptr.hop.sharedSecret nonce
          let (nextTarget, nextHopid) := ptr.hop.nextId m.hopId
          .forward nextTarget (PathMessage.encode ⟨inner, nonce, nextHopid, m.msgtype⟩)
            ptr m.msgtype

def terminalResponse (hop : TransitHop) (type : MessageType) (nonce : SymmNonce)
    (response : Bytes) : Bytes :=
  PathMessage.encode
    ⟨Crypto.xchacha20Poly1305EncryptInplace suite
        (response ++ List.replicate Crypto.tagSize 0) hop.sharedSecret nonce [],
      nonce ^^^ hop.xorNonce, hop.rxid, type⟩

def relayResponse (hop : TransitHop) (type : MessageType) (body : Bytes) : Reply :=
  if body.length ≤ encryptPathMessageOverhead then ⟨Messages.errorResponse, true⟩
  else
    let m := PathMessage.splitSpanTail body
    if m.msgtype ≠ type then ⟨Messages.errorResponse, true⟩
    else if m.hopId ≠ hop.txid then ⟨Messages.errorResponse, true⟩
    else
      ⟨PathMessage.encode
          ⟨Crypto.xchacha20 suite m.inner hop.sharedSecret m.nonce,
            m.nonce ^^^ hop.xorNonce, hop.rxid, m.msgtype⟩, false⟩

def handlePathControlReply (hop : TransitHop) (type : MessageType) (response : Message) :
    List Reply :=
  match response with
  | none => []
  | some reply =>
    (if reply.isError then [reply] else []) ++ [relayResponse suite hop type reply.body]

def parsePathRequest (payload : Bytes) : Option (Bytes × Bytes) :=
  match DictConsumer.ofBytes payload with
  | none => none
  | some c =>
    match c.require readString (ascii "e") with
    | none => none
    | some (endpoint, c) =>
      match c.require readString (ascii "p") with
      | none => none
      | some (body, _) => some (endpoint, body)

def handlePathRequest (pathRequests : Bytes → Option (Bytes → Bytes)) (payload : Bytes) :
    Option Bytes :=
  match parsePathRequest payload with
  | none => some (Messages.serializeStatusResponse (ascii "ERROR"))
  | some (endpoint, body) => (pathRequests endpoint).map fun handler => handler body

def runControl (net : Network) (terminal : Router → Bytes → Option Bytes)
    (nonce : SymmNonce) : Nat → Router → Bytes → Message
  | 0, _, _ => none
  | fuel + 1, router, body =>
    match handlePathControl suite router body with
    | .respond reply => some reply
    | .request _ _ none => none
    | .request ptr type (some payload) =>
      (terminal router payload).map fun response =>
        ⟨terminalResponse suite ptr.hop type nonce response, false⟩
    | .forward target message ptr type =>
      match net.reach router.id target with
      | none => none
      | some next =>
        (handlePathControlReply suite ptr.hop type
          (runControl net terminal nonce fuel next message)).head?

def sendControl (net : Network) (terminal : Router → Bytes → Option Bytes) (nonce : SymmNonce)
    (fuel : Nat) (target : RouterID) (body : Bytes) : Message :=
  match net.relay target with
  | none => none
  | some router => runControl suite net terminal nonce fuel router body

end Link

inductive ControlEvent where
  | answered (reply : Reply)
  | processed (body : Bytes)
  deriving DecidableEq

namespace ControlEvent

def answer? : ControlEvent → Option Reply
  | .answered reply => some reply
  | .processed _ => none

def answers (events : List ControlEvent) : List Reply :=
  events.filterMap answer?

end ControlEvent

namespace Link

variable (suite : CipherSuite)

def pathControlReplied (hop : Option TransitHop) (type : MessageType) (response : Message) :
    List ControlEvent :=
  match hop with
  | none => []
  | some hop =>
    match response with
    -- a timeout is not passed on, the requester has the same one
    | none => []
    | some reply =>
      (if reply.isError then [.answered reply] else []) ++
        [.processed reply.body, .answered (relayResponse suite hop type reply.body)]

def forwardedControl (router : Router) (body : Bytes) (hopAlive : Bool) (response : Message) :
    Option (List ControlEvent) :=
  match handlePathControl suite router body with
  | .forward _ _ ptr type =>
    some (pathControlReplied suite (if hopAlive then some ptr.hop else none) type response)
  | _ => none

def AnswersOnce (events : List ControlEvent) : Prop :=
  (ControlEvent.answers events).length ≤ 1 ∧
    ∀ front reply back, events = front ++ .answered reply :: back → reply.isError = true →
      ∀ body, .processed body ∉ back

variable {suite}

theorem answers_pathControlReplied (hop : TransitHop) (type : MessageType) (response : Message) :
    ControlEvent.answers (pathControlReplied suite (some hop) type response) =
      handlePathControlReply suite hop type response := by
  cases response with
  | none => rfl
  | some reply =>
    cases herror : reply.isError with
    | true =>
      simp only [pathControlReplied, handlePathControlReply, herror, if_true]
      rfl
    | false =>
      simp only [pathControlReplied, handlePathControlReply, herror]
      rfl

theorem length_handlePathControlReply (hop : TransitHop) (type : MessageType) (reply : Reply) :
    (handlePathControlReply suite hop type (some reply)).length =
      if reply.isError then 2 else 1 := by
  cases herror : reply.isError with
  | true | false => simp [handlePathControlReply, herror]

theorem answersOnce_nil : AnswersOnce [] := by
  refine ⟨Nat.zero_le _, fun front reply back hsplit => ?_⟩
  simp at hsplit

theorem answersOnce_success (hop : TransitHop) (type : MessageType) {reply : Reply}
    (h : reply.isError = false) :
    AnswersOnce (pathControlReplied suite (some hop) type (some reply)) := by
  constructor
  · rw [answers_pathControlReplied, length_handlePathControlReply, h]
    exact Nat.le_refl _
  · intro front first back hsplit herror body hmem
    -- the only answer is the last event
    have hlast : [ControlEvent.processed reply.body,
        .answered (relayResponse suite hop type reply.body)] =
          front ++ .answered first :: back := by
      simpa [pathControlReplied, h] using hsplit
    match front with
    | [] => simp at hlast
    | [_] =>
      simp only [List.singleton_append, List.cons.injEq] at hlast
      rw [← hlast.2.2] at hmem
      cases hmem
    | _ :: _ :: front => simp at hlast

theorem pathControlReplied_answersOnce_iff (hop : TransitHop) (type : MessageType)
    (hopAlive : Bool) (response : Message) :
    AnswersOnce (pathControlReplied suite (if hopAlive then some hop else none) type response) ↔
      hopAlive = false ∨ Message.isError response = false := by
  cases hopAlive with
  | false => exact iff_of_true answersOnce_nil (Or.inl rfl)
  | true =>
    cases response with
    | none => exact iff_of_true answersOnce_nil (Or.inr rfl)
    | some reply =>
      cases herror : reply.isError with
      | false => exact iff_of_true (answersOnce_success hop type herror) (Or.inr herror)
      | true =>
        refine iff_of_false (fun honce => ?_) (by simp [Message.isError, herror])
        have hlength := honce.1
        rw [if_pos rfl, answers_pathControlReplied, length_handlePathControlReply,
          if_pos herror] at hlength
        omega

theorem forwardedControl_answersOnce_iff (suite : CipherSuite) (router : Router) (body : Bytes)
    (hopAlive : Bool) (response : Message) (events : List ControlEvent)
    (hevents : forwardedControl suite router body hopAlive response = some events) :
    AnswersOnce events ↔ hopAlive = false ∨ Message.isError response = false := by
  unfold forwardedControl at hevents
  split at hevents
  · next ptr type _ =>
    cases hevents
    exact pathControlReplied_answersOnce_iff ptr.hop type hopAlive response
  · cases hevents

/-! ### A relay in the middle of a path -/

namespace MiddleRelay

def cipher : CipherSuite where
  stream _ _ _ := 0
  aeadStream _ _ _ := 0
  poly1305 _ _ _ _ := FixedBytes.filled 16 0

def hop : TransitHop where
  txid := FixedBytes.filled 16 2
  rxid := FixedBytes.filled 16 1
  upstream := FixedBytes.filled 32 4
  routerId := FixedBytes.filled 32 3
  downstream := .connection 5
  sharedSecret := FixedBytes.filled 32 5
  xorNonce := FixedBytes.filled 24 6
  expiry := 1200000
  version := 1
  terminalHop := false

def relay : Router where
  isServiceNode := true
  id := FixedBytes.filled 32 3
  secretKey := FixedBytes.filled 32 0
  pathContext := PathContext.empty.putTransitHop ⟨0, hop⟩

def request : Bytes :=
  PathMessage.encode ⟨List.replicate 40 0, FixedBytes.filled 24 7, hop.rxid, MessageType.control⟩

def error : Message :=
  some ⟨Messages.errorResponse, true⟩

end MiddleRelay

theorem forwardedControl_answersOnce_timeout :
    ∃ events, forwardedControl MiddleRelay.cipher MiddleRelay.relay MiddleRelay.request true none =
      some events ∧ AnswersOnce events := by
  have hevents : forwardedControl MiddleRelay.cipher MiddleRelay.relay MiddleRelay.request true
      none = some [] := by
    decide
  exact ⟨[], hevents, (forwardedControl_answersOnce_iff _ _ _ _ _ _ hevents).mpr (Or.inr rfl)⟩

theorem forwardedControl_error_twice :
    ∃ events, forwardedControl MiddleRelay.cipher MiddleRelay.relay MiddleRelay.request true
      MiddleRelay.error = some events ∧ ¬ AnswersOnce events := by
  refine ⟨[.answered ⟨Messages.errorResponse, true⟩, .processed Messages.errorResponse,
    .answered ⟨Messages.errorResponse, true⟩], by decide, fun honce => ?_⟩
  exact absurd honce.1 (by decide)

end Link
end SessionRouter
