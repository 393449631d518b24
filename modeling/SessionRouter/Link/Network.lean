import SessionRouter.Link.SessionMessage

/-!
# Paths across the network
-/

namespace SessionRouter

open Lib

structure Network where
  relay : RouterID → Option Router
  client : RouterID → ConnectionID → Option Router

namespace Network

def reach (net : Network) (sender : RouterID) : NextHop → Option Router
  | .router id => net.relay id
  | .connection cid => net.client sender cid

end Network

structure HoldsHop (relay : Router) (ptr : TransitHopPtr) (hop : TransitHop)
    (downstream : NextHop) : Prop where
  isRelay : relay.isServiceNode = true
  id_eq : relay.id = hop.routerId
  underRxid : relay.pathContext.getTransitHop hop.rxid = some ptr
  underTxid : relay.pathContext.getTransitHop hop.txid = some ptr
  record : ptr.hop = { hop with
    downstream := downstream
    routerId := ptr.hop.routerId
    expiry := ptr.hop.expiry
    version := ptr.hop.version }

namespace HoldsHop

variable {relay : Router} {ptr : TransitHopPtr} {hop : TransitHop} {downstream : NextHop}

section

variable (h : HoldsHop relay ptr hop downstream)

include h

theorem hopLayer_eq (suite : CipherSuite) :
    hopLayer suite ptr.hop = hopLayer suite hop := by
  rw [h.record]
  rfl

theorem terminalHop_eq : ptr.hop.terminalHop = hop.terminalHop := by
  rw [h.record]

theorem downstream_eq : ptr.hop.downstream = downstream := by
  rw [h.record]

theorem rxid_eq : ptr.hop.rxid = hop.rxid := by
  rw [h.record]

theorem nextId_rxid : ptr.hop.nextId hop.rxid = (.router hop.upstream, hop.txid) := by
  rw [h.record]
  exact TransitHop.nextId_rxid _

theorem nextId_txid (hids : hop.txid ≠ hop.rxid) :
    ptr.hop.nextId hop.txid = (downstream, hop.rxid) := by
  rw [h.record]
  exact TransitHop.nextId_txid hids

end

end HoldsHop

def Installed (net : Network) : NextHop → List TransitHop → Prop
  | _, [] => True
  | downstream, hop :: rest =>
    (∃ relay ptr, net.relay hop.routerId = some relay ∧ HoldsHop relay ptr hop downstream) ∧
      Installed net (.router hop.routerId) rest

/-- A client's path that is set up along the network. -/
structure Established (net : Network) (client : Router) (path : Path) : Prop where
  chain : HopChain path.hops
  isClient : client.isServiceNode = false
  known : client.pathContext.getPath path.edge.rxid = some path
  installed : ∃ cid, net.client path.edge.routerId cid = some client ∧
    Installed net (.connection cid) path.hops

namespace Meeting

def suite : CipherSuite where
  stream key nonce i := key.data.getD (i % 32) 0 ^^^ nonce.data.getD (i % 24) 0
  aeadStream key nonce i := key.data.getD (i % 32) 0 + nonce.data.getD (i % 24) 0
  poly1305 key _ _ ciphertext := FixedBytes.ofBytes 16 (ciphertext ++ key.data)

def routerId (n : UInt8) : RouterID := FixedBytes.filled 32 n

def hop (router upstream rxid txid : UInt8) (downstream : NextHop) : TransitHop where
  txid := FixedBytes.filled 16 txid
  rxid := FixedBytes.filled 16 rxid
  upstream := routerId upstream
  routerId := routerId router
  downstream := downstream
  sharedSecret := FixedBytes.filled 32 (100 + rxid)
  xorNonce := FixedBytes.filled 24 (200 + rxid)
  expiry := 0
  version := 1
  terminalHop := router == upstream

def relay (n : UInt8) (hops : List TransitHop) : Router where
  isServiceNode := true
  id := routerId n
  secretKey := routerId n
  pathContext := hops.foldl (fun ctx hop => ctx.putTransitHop ⟨0, hop⟩) PathContext.empty

def path (logId : Nat) (edge pivot : TransitHop) : Path := ⟨logId, [edge, pivot], by simp⟩

def client (path : Path) : Router where
  isServiceNode := false
  id := routerId 99
  secretKey := routerId 99
  pathContext := PathContext.empty.addPath path

-- sender: relay 1, then relay 2; receiver: relay 3, then relay 2
def sndEdge : TransitHop := hop 1 2 10 11 (.connection 5)
def sndPivot : TransitHop := hop 2 2 11 11 (.router (routerId 1))
def rcvEdge : TransitHop := hop 3 2 20 21 (.connection 6)
def rcvPivot : TransitHop := hop 2 2 21 21 (.router (routerId 3))

def snd : Path := path 1 sndEdge sndPivot
def rcv : Path := path 2 rcvEdge rcvPivot

def net : Network where
  relay id :=
    if id = routerId 1 then some (relay 1 [sndEdge])
    else if id = routerId 2 then some (relay 2 [sndPivot, rcvPivot])
    else if id = routerId 3 then some (relay 3 [rcvEdge])
    else none
  client id cid :=
    if id = routerId 1 ∧ cid = 5 then some (client snd)
    else if id = routerId 3 ∧ cid = 6 then some (client rcv)
    else none

theorem snd_established : Established net (client snd) snd where
  chain := by refine ⟨rfl, by decide, rfl, rfl, rfl, rfl, rfl⟩
  isClient := rfl
  known := rfl
  installed := by
    refine ⟨5, rfl, ⟨relay 1 [sndEdge], ⟨0, sndEdge⟩, rfl, ⟨rfl, rfl, rfl, rfl, rfl⟩⟩,
      ⟨relay 2 [sndPivot, rcvPivot], ⟨0, sndPivot⟩, rfl, ⟨rfl, rfl, rfl, rfl, rfl⟩⟩, trivial⟩

theorem rcv_established : Established net (client rcv) rcv where
  chain := by refine ⟨rfl, by decide, rfl, rfl, rfl, rfl, rfl⟩
  isClient := rfl
  known := rfl
  installed := by
    refine ⟨6, rfl, ⟨relay 3 [rcvEdge], ⟨0, rcvEdge⟩, rfl, ⟨rfl, rfl, rfl, rfl, rfl⟩⟩,
      ⟨relay 2 [sndPivot, rcvPivot], ⟨0, rcvPivot⟩, rfl, ⟨rfl, rfl, rfl, rfl, rfl⟩⟩, trivial⟩

end Meeting

inductive Delivery where
  | lost
  | fault
  | inFlight
  | arrived (router : Router) (event : SessionEvent)

namespace Link

variable (suite : CipherSuite) (net : Network) (control : Bool)

def deliverSession : Nat → Router → Bytes → Delivery
  | 0, _, _ => .inFlight
  | fuel + 1, router, message =>
    match receiveSession suite router message control with
    | .dropped => .lost
    | .outOfBounds => .fault
    | .event event => .arrived router event
    | .forward target message =>
      match net.reach router.id target with
      | none => .lost
      | some next => deliverSession fuel next message

def sendSession (fuel : Nat) (sender : RouterID) (target : NextHop) (message : Bytes) : Delivery :=
  match net.reach sender target with
  | none => .lost
  | some next => deliverSession suite net control fuel next message

variable {suite net control}

variable {fuel : Nat} {router : Router}

theorem deliverSession_forward {message message' : Bytes}
    {target : NextHop}
    (h : receiveSession suite router message control = .forward target message') :
    deliverSession suite net control (fuel + 1) router message =
      sendSession suite net control fuel router.id target message' := by
  simp [deliverSession, sendSession, h]

theorem deliverSession_event {message : Bytes}
    {event : SessionEvent}
    (h : receiveSession suite router message control = .event event) :
    deliverSession suite net control (fuel + 1) router message = .arrived router event := by
  simp [deliverSession, h]

theorem sendSession_router {sender id : RouterID} {relay : Router}
    (h : net.relay id = some relay) (message : Bytes) :
    sendSession suite net control fuel sender (.router id) message =
      deliverSession suite net control fuel relay message := by
  simp [sendSession, Network.reach, h]

theorem sendSession_connection {sender : RouterID} {cid : ConnectionID}
    {client : Router} (h : net.client sender cid = some client) (message : Bytes) :
    sendSession suite net control fuel sender (.connection cid) message =
      deliverSession suite net control fuel client message := by
  simp [sendSession, Network.reach, h]

end Link
end SessionRouter
