import SessionRouter.Crypto.KeyExchange
import SessionRouter.Session.Message

/-!
# Handling of session messages
-/

namespace SessionRouter

open Lib

structure Router where
  isServiceNode : Bool
  id : RouterID
  secretKey : Ed25519SecretKey
  pathContext : PathContext

/-- Where a session message came from. -/
inductive SessionSource where
  | path (path : Path)
  | transitHop (ptr : TransitHopPtr)

/-- What a session end is given. -/
inductive SessionEvent where
  | handshake (payload : Bytes) (tag : SessionTag) (nonce : SymmNonce) (source : SessionSource)
  | init (payload : Bytes) (source : SessionSource)
  | control (payload : Bytes) (tag : SessionTag) (nonce : SymmNonce) (source : SessionSource)
  | data (payload : Bytes) (tag : SessionTag) (nonce : SymmNonce)

inductive SessionOutcome where
  | dropped
  | outOfBounds
  | forward (target : NextHop) (message : Bytes)
  | event (event : SessionEvent)

namespace Link

variable (suite : CipherSuite)

def minPathDataMessageSize : Nat := 0 + 1 + 16 + encryptPathMessageOverhead

def extractPathMessageMetadata (message : Bytes) : Option PathMessage :=
  if message.length < minPathDataMessageSize then none
  else some (PathMessage.splitSpanTail message)

def unknownMessageType (msgtype : MessageType) (control : Bool) : Bool :=
  if control then
    msgtype < MessageType.controlMin || MessageType.controlMax < msgtype
  else
    msgtype != MessageType.data

def dispatchSession (payload : Bytes) (tag : SessionTag) (nonce : SymmNonce)
    (msgtype : MessageType) (control : Bool) (source : SessionSource) : SessionEvent :=
  if msgtype = MessageType.sessionHandshake then
    .handshake payload tag nonce source
  else if control then
    -- tag zero marks the session init of versions before 1.1
    if tag = 0 then .init payload source else .control payload tag nonce source
  else
    .data payload tag nonce

def handleSessionMessageClient (router : Router) (m : PathMessage) (control : Bool) :
    SessionOutcome :=
  match router.pathContext.getPath m.hopId with
  | none => .dropped
  | some path =>
    if m.inner.length < 4 then .dropped
    else if unknownMessageType m.msgtype control then .dropped
    else
      let (nonce, message) := path.hops.foldl
        (fun (state : SymmNonce × Bytes) hop =>
          (state.1 ^^^ hop.xorNonce,
            Crypto.xchacha20 suite state.2 hop.sharedSecret state.1))
        (m.nonce, m.inner)
      let size := message.length - 4
      .event (dispatchSession (message.take size) (SessionTag.ofBytes (message.drop size))
        nonce m.msgtype control (.path path))

def handleSessionMessageTerminal (router : Router) (ptr : TransitHopPtr) (hopId : HopID)
    (nonce : SymmNonce) (message : Bytes) (msgtype : MessageType) (control : Bool) :
    SessionOutcome :=
  if message.length < 4 + 16 then .outOfBounds
  else
    let size := message.length - (4 + 16)
    let payload := message.take size
    let pivotId := FixedBytes.ofBytes 16 (message.drop (size + 4))
    if pivotId = hopId then
      if unknownMessageType msgtype control then .dropped
      else
        .event (dispatchSession payload (SessionTag.ofBytes ((message.drop size).take 4))
          nonce msgtype control (.transitHop ptr))
    else
      match router.pathContext.getTransitHop pivotId with
      | none => .dropped
      | some transHop =>
        -- backwards along the other path, so the xor comes before the cipher
        let nonce := nonce ^^^ transHop.hop.xorNonce
        let sessionPayload := Crypto.xchacha20 suite (message.take (message.length - 16))
          transHop.hop.sharedSecret nonce
        .forward transHop.hop.downstream
          (PathMessage.encode ⟨sessionPayload, nonce, pivotId, msgtype⟩)

def handleSessionMessageRelay (router : Router) (m : PathMessage) (control : Bool) :
    SessionOutcome :=
  match router.pathContext.getTransitHop m.hopId with
  | none => .dropped
  | some ptr =>
    let nonce := m.nonce ^^^ ptr.hop.xorNonce
    let message := Crypto.xchacha20 suite m.inner ptr.hop.sharedSecret nonce
    if ptr.hop.terminalHop then
      handleSessionMessageTerminal suite router ptr m.hopId nonce message m.msgtype control
    else
      let (nextTarget, nextHopid) := ptr.hop.nextId m.hopId
      .forward nextTarget (PathMessage.encode ⟨message, nonce, nextHopid, m.msgtype⟩)

def handleSessionMessage (router : Router) (message : Bytes) (control : Bool) :
    SessionOutcome :=
  match extractPathMessageMetadata message with
  | none => .dropped
  | some m =>
    if router.isServiceNode then handleSessionMessageRelay suite router m control
    else handleSessionMessageClient suite router m control

def receiveSession (router : Router) (message : Bytes) (control : Bool) : SessionOutcome :=
  if control && decide (message.length ≤ encryptPathMessageOverheadMac) then .dropped
  else handleSessionMessage suite router message control

end Link
end SessionRouter
