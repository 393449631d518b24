import SessionRouter.Link.FindFanOut
import SessionRouter.Link.PathControl

/-!
# The dispatcher of path requests
-/

namespace SessionRouter

open Lib Bencode NodeDB

/-- The endpoints in `path_requests`. -/
inductive PathEndpoint where
  | publishCc
  | findCc
  | fetchRcs
  | fetchRids
  | resolveSns
  | pathPing
  deriving DecidableEq

namespace PathEndpoint

def name : PathEndpoint → Bytes
  | publishCc => ascii "publish_cc"
  | findCc => ascii "find_cc"
  | fetchRcs => ascii "fetch_rcs"
  | fetchRids => ascii "fetch_rids"
  | resolveSns => ascii "resolve_sns"
  | pathPing => ascii "path_ping"

def all : List PathEndpoint :=
  [publishCc, findCc, fetchRcs, fetchRids, resolveSns, pathPing]

def ofName (endpoint : Bytes) : Option PathEndpoint :=
  all.find? fun known => known.name = endpoint

end PathEndpoint

/-- What oxend sends back. -/
structure OxendReply where
  success : Bool
  data : List Bytes

structure Outside where
  arrivals : Nat → Message
  oxend : OxendReply

def OxendReply.snsResult (reply : OxendReply) : Option (Bytes × SymmNonce) := do
  if !reply.success then none
  else
    match reply.data with
    | [status, body] =>
      if status ≠ ascii "200" then none
      else
        let c ← DictConsumer.ofBytes body
        let (value, c) ← c.require readString (ascii "encrypted_value")
        let (nonce, c) ← c.require (readFixed 24) (ascii "nonce")
        if c.finish then return (value, nonce) else none
    | _ => none

def OxendReply.response (reply : OxendReply) : Bytes :=
  match reply.snsResult with
  | some (ciphertext, nonce) =>
    encodeDict [(ascii "c", encodeString ciphertext), (ascii "n", encodeString nonce.data)]
  | none => Messages.notFoundResponse

namespace RelayNode

def rcStore (node : RelayNode) : RcStore where
  knownRcs := node.endpoint.rcs
  rcHashes := node.rcHashes
  rcBucketHashes := node.rcBucketHashes

def handlePathFetchRouterIds (node : RelayNode) : RequestOutcome :=
  .responded (encodeDict [(ascii "r",
    encodeList (node.registered.relays.map fun rid => encodeString rid.data))])

def handlePathResolveSns (node : RelayNode) (body : Bytes) : RequestOutcome :=
  if !node.oxend then .threw
  else
    match (DictConsumer.ofBytes body).bind fun req => req.require readString (ascii "s") with
    | none => .responded Messages.errorResponse
    | some (nameHash, _) => .lookupSnsHash nameHash

variable (suite : CryptoSuite)

def pathRequests (node : RelayNode) (body : Bytes) (now : Int) :
    PathEndpoint → RelayNode × RequestOutcome
  | .publishCc => node.handlePublishCc suite body false now
  | .findCc => (node, node.handleFindCc body false now)
  | .fetchRcs => (node, .responded (handleFetchRcs node.rcStore body))
  | .fetchRids => (node, node.handlePathFetchRouterIds)
  | .resolveSns => (node, node.handlePathResolveSns body)
  | .pathPing => (node, .responded Messages.okResponse)

def handlePathRequest (node : RelayNode) (payload : Bytes) (now : Int) :
    RelayNode × RequestOutcome :=
  match Link.parsePathRequest payload with
  | none => (node, .responded (Messages.serializeStatusResponse (ascii "ERROR")))
  | some (endpoint, body) =>
    match PathEndpoint.ofName endpoint with
    | some known => node.pathRequests suite body now known
    | none => (node, .letGo)

def responses (node : RelayNode) (outcome : RequestOutcome) (outside : Outside) :
    Option (List Bytes) :=
  match outcome with
  | .responded response => some [response]
  | .letGo => some []
  | .threw => some []
  | .sendCommand rid name body handler =>
    some ((node.endpoint.sendCommand rid name body (some handler)).1.2.toList.map
      fun _ => handler.response (outside.arrivals 0))
  | .sendCommands remaining rids name body =>
    let accepted := (node.endpoint.sendCommands rids name body (some ForwardHandler.findCc)).2
    some ((FanOut.responsesTo remaining
      ((List.range accepted.length).map outside.arrivals)).map Prod.snd)
  | .lookupSnsHash _ => some [outside.oxend.response]
  | .outOfBounds => none

def AnsweredOnce (node : RelayNode) (payload : Bytes) (now : Int) (outside : Outside) : Prop :=
  ∃ response, node.responses (node.handlePathRequest suite payload now).2 outside = some [response]

/-- A relay that runs. -/
structure IsRunningRelay (node : RelayNode) : Prop where
  isServiceNode : node.endpoint.isServiceNode = true
  notStopping : node.endpoint.isStopping = false
  oxend : node.oxend = true

def CanAsk (node : RelayNode) (rids : List RouterID) (place : Nat) : Prop :=
  ∃ rid, rids[place]? = some rid ∧ (rid = node.id ∨ (node.endpoint.getRc rid).isSome = true)

def PublishAnswerable (node : RelayNode) (body : Bytes) (now : Int) : Prop :=
  ∀ request, PublishRequest.parse body = some request → IsFresh request.signedAt now →
    4 ≤ node.registered.relays.length → 0 ≤ request.location → request.location < 4 →
    node.CanAsk (findManyClosestTo node.registered request.blindedPk 5) request.location.toNat

def reachable (node : RelayNode) (rids : List RouterID) : Nat :=
  (rids.filter (· ≠ node.id)).countP fun rid => (node.endpoint.getRc rid).isSome

def FindAnswerable (node : RelayNode) (body : Bytes) (now : Int) (outside : Outside) : Prop :=
  ∀ request, FindRequest.parse body = some request → 4 ≤ node.registered.relays.length →
    let closestRids := findManyClosestTo node.registered request.blindedPk 4
    let lookupIndex := request.index.getD (-1)
    if 0 ≤ lookupIndex then node.CanAsk closestRids lookupIndex.toNat
    else
      (node.id ∈ closestRids ∧ (node.localCc request.blindedPk now).isSome = true) ∨
        FanOut.FirstDecides ((List.range (node.reachable closestRids)).map outside.arrivals)

def EndpointAnswerable (node : RelayNode) (endpoint body : Bytes) (now : Int)
    (outside : Outside) : Prop :=
  match PathEndpoint.ofName endpoint with
  | none => False
  | some .publishCc => node.PublishAnswerable body now
  | some .findCc => node.FindAnswerable body now outside
  | some _ => True

def Answerable (node : RelayNode) (payload : Bytes) (now : Int) (outside : Outside) : Prop :=
  ∀ request, Link.parsePathRequest payload = some request →
    node.EndpointAnswerable request.1 request.2 now outside

def RespondsOnce (node : RelayNode) (outcome : RequestOutcome) (outside : Outside) : Prop :=
  ∃ response, node.responses outcome outside = some [response]

variable {suite} {node : RelayNode} {outside : Outside} {body : Bytes} {now : Int}

theorem respondsOnce_responded (response : Bytes) :
    node.RespondsOnce (.responded response) outside :=
  ⟨response, rfl⟩

theorem respondsOnce_storeIt (encCc : Bytes) :
    node.RespondsOnce (node.storeIt suite encCc).2 outside := by
  unfold storeIt
  split
  · exact respondsOnce_responded _
  · exact respondsOnce_responded _

theorem respondsOnce_sendCommand_iff (h : node.IsRunningRelay) {rid : RouterID}
    {name message : Bytes} {handler : ForwardHandler} :
    node.RespondsOnce (.sendCommand rid name message handler) outside ↔
      (node.endpoint.getRc rid).isSome = true := by
  unfold RespondsOnce responses
  cases hrc : node.endpoint.getRc rid with
  | none => simp [Endpoint.sendCommand_of_getRc_none hrc]
  | some rc =>
    obtain ⟨connection, haccepted⟩ : ∃ connection,
        (node.endpoint.sendCommand rid name message (some handler)).1.2 =
          some ⟨connection, name, message, some handler⟩ :=
      Endpoint.sendCommand_accepted h.notStopping hrc
    simp [haccepted]

theorem not_respondsOnce_outOfBounds : ¬ node.RespondsOnce .outOfBounds outside := by
  rintro ⟨response, hresponse⟩
  cases hresponse

theorem publishForClient_respondsOnce_iff (h : node.IsRunningRelay) (request : PublishRequest)
    (closestRids : List RouterID) :
    node.RespondsOnce (node.publishForClient suite request body closestRids).2 outside ↔
      (0 ≤ request.location → request.location < 4 →
        node.CanAsk closestRids request.location.toNat) := by
  unfold publishForClient ccPublishLocations
  split
  · next hlocation =>
    refine iff_of_true (respondsOnce_responded _) fun hlow hhigh => ?_
    omega
  · next hlocation =>
    have hlow : 0 ≤ request.location := by omega
    have hhigh : request.location < 4 := by omega
    simp only [hlow, hhigh, forall_const, CanAsk]
    cases hrid : closestRids[request.location.toNat]? with
    | none => simp [not_respondsOnce_outOfBounds]
    | some rid =>
      by_cases hself : rid = node.id
      · simp [hself, respondsOnce_storeIt]
      · simp [hself, respondsOnce_sendCommand_iff h]

theorem handlePublishCc_of_refused {request : PublishRequest} (h : node.IsRunningRelay)
    (hparse : PublishRequest.parse body = some request)
    (hrefused : ¬ (IsFresh request.signedAt now ∧ 4 ≤ node.registered.relays.length)) :
    node.RespondsOnce (node.handlePublishCc suite body false now).2 outside := by
  rw [handlePublishCc, hparse]
  dsimp only
  split
  · exact respondsOnce_responded _
  · split
    · exact respondsOnce_responded _
    · rw [h.isServiceNode, if_neg (by simp), if_pos]
      · exact respondsOnce_responded _
      · unfold IsFresh at hrefused
        rw [length_findManyClosestTo, ccPublishLocations]
        omega

section

variable (h : node.IsRunningRelay)

include h

theorem publish_respondsOnce_iff :
    node.RespondsOnce (node.handlePublishCc suite body false now).2 outside ↔
      node.PublishAnswerable body now := by
  unfold PublishAnswerable
  cases hparse : PublishRequest.parse body with
  | none =>
    refine iff_of_true ?_ fun request hrequest => (by cases hrequest)
    rw [handlePublishCc, hparse]
    exact respondsOnce_responded _
  | some request =>
    simp only [Option.some.injEq, forall_eq']
    by_cases hadmitted : IsFresh request.signedAt now ∧ 4 ≤ node.registered.relays.length
    · obtain ⟨hfresh, hmany⟩ := hadmitted
      rw [handlePublishCc_of_isFresh h.isServiceNode hparse hfresh hmany]
      simp only [Bool.not_false, if_true, hfresh, hmany, forall_const]
      exact publishForClient_respondsOnce_iff h request _
    · refine iff_of_true (handlePublishCc_of_refused h hparse hadmitted) fun hfresh hmany => ?_
      exact absurd ⟨hfresh, hmany⟩ hadmitted

theorem findAt_respondsOnce_iff (blindedPk : PubKey) (lookupIndex : Int)
    (closestRids : List RouterID) :
    node.RespondsOnce (node.findAt blindedPk lookupIndex now closestRids) outside ↔
      node.CanAsk closestRids lookupIndex.toNat := by
  unfold findAt CanAsk
  cases hrid : closestRids[lookupIndex.toNat]? with
  | none => simp [not_respondsOnce_outOfBounds]
  | some rid =>
    by_cases hself : rid = node.id
    · simp [hself, localCcOrFail, respondsOnce_responded]
    · simp [hself, respondsOnce_sendCommand_iff h]

theorem respondsOnce_sendCommands_iff {remaining : Nat}
    (hmany : 3 ≤ remaining) {rids : List RouterID} {name message : Bytes} :
    node.RespondsOnce (.sendCommands remaining rids name message) outside ↔
      FanOut.FirstDecides ((List.range (rids.countP fun rid =>
        (node.endpoint.getRc rid).isSome)).map outside.arrivals) := by
  rw [← FanOut.responsesTo_length_eq_one_iff hmany]
  simp only [RespondsOnce, responses, Endpoint.length_sendCommands h.notStopping,
    Option.some.injEq]
  rw [← List.length_eq_one_iff, List.length_map]

theorem findAnywhere_respondsOnce_iff (blindedPk : PubKey)
    (hmany : 4 ≤ node.registered.relays.length) :
    let closestRids := findManyClosestTo node.registered blindedPk ccPublishLocations
    node.RespondsOnce (node.findAnywhere blindedPk now closestRids) outside ↔
      (node.id ∈ closestRids ∧ (node.localCc blindedPk now).isSome = true) ∨
        FanOut.FirstDecides ((List.range (node.reachable closestRids)).map outside.arrivals) := by
  intro closestRids
  have hothers : 3 ≤ closestRids.length - closestRids.count node.id :=
    three_le_others node blindedPk hmany
  have hmem : closestRids.count node.id ≠ 0 ↔ node.id ∈ closestRids := by
    rw [← Nat.pos_iff_ne_zero, List.count_pos_iff]
  have hasked : node.RespondsOnce (.sendCommands (closestRids.length - closestRids.count node.id)
      (closestRids.filter (· ≠ node.id)) (ascii "find_cc") (relayFindCc blindedPk)) outside ↔
        FanOut.FirstDecides ((List.range (node.reachable closestRids)).map outside.arrivals) :=
    respondsOnce_sendCommands_iff h hothers
  unfold findAnywhere
  simp only [hmem]
  by_cases hhere : node.id ∈ closestRids
  · cases hlocal : node.localCc blindedPk now with
    | some response => simp [hhere, respondsOnce_responded]
    | none => simpa [hhere] using hasked
  · simpa [hhere] using hasked

theorem find_respondsOnce_iff : node.RespondsOnce (node.handleFindCc body false now) outside ↔
      node.FindAnswerable body now outside := by
  unfold FindAnswerable
  cases hparse : FindRequest.parse body with
  | none =>
    refine iff_of_true ?_ fun request hrequest => (by cases hrequest)
    rw [handleFindCc, hparse]
    exact respondsOnce_responded _
  | some request =>
    simp only [Option.some.injEq, forall_eq']
    rw [handleFindCc, hparse]
    dsimp only
    rw [if_neg (by simp)]
    by_cases hmany : 4 ≤ node.registered.relays.length
    · have henough : ¬ ((findManyClosestTo node.registered request.blindedPk
          ccPublishLocations).length : Int) < ccPublishLocations := by
        rw [length_findManyClosestTo, ccPublishLocations]
        omega
      rw [if_neg henough]
      simp only [hmany, forall_const]
      by_cases hindex : 0 ≤ request.index.getD (-1)
      · rw [if_pos hindex, if_pos hindex]
        exact findAt_respondsOnce_iff h request.blindedPk _ _
      · rw [if_neg hindex, if_neg hindex]
        exact findAnywhere_respondsOnce_iff h request.blindedPk hmany
    · refine iff_of_true ?_ fun hfour => absurd hfour hmany
      rw [if_pos (by rw [length_findManyClosestTo, ccPublishLocations]; omega)]
      exact respondsOnce_responded _

theorem resolveSns_respondsOnce : node.RespondsOnce (node.handlePathResolveSns body) outside := by
  rw [handlePathResolveSns, h.oxend, if_neg (by simp)]
  split
  · exact respondsOnce_responded _
  · exact ⟨_, rfl⟩

end

/-- A request that reaches the dispatcher of a running relay is answered exactly once exactly
if it has a handler, the location that it names exists, and the relay that it is passed on
to can be reached; a request for a contact anywhere, if the first answer decides. -/
theorem pathRequest_answeredOnce_iff (suite : CryptoSuite) (node : RelayNode) (payload : Bytes)
    (now : Int) (outside : Outside) (hrelay : node.IsRunningRelay) :
    node.AnsweredOnce suite payload now outside ↔ node.Answerable payload now outside := by
  unfold AnsweredOnce Answerable handlePathRequest
  cases hparse : Link.parsePathRequest payload with
  | none => exact iff_of_true ⟨_, rfl⟩ fun request hrequest => (by cases hrequest)
  | some request =>
    obtain ⟨endpoint, body⟩ := request
    simp only [Option.some.injEq, forall_eq', EndpointAnswerable]
    cases PathEndpoint.ofName endpoint with
    | none =>
      refine iff_of_false ?_ not_false
      rintro ⟨response, hresponse⟩
      cases hresponse
    | some known =>
      cases known with
      | publishCc => exact publish_respondsOnce_iff hrelay
      | findCc => exact find_respondsOnce_iff hrelay
      | fetchRcs | fetchRids | pathPing => exact iff_of_true (respondsOnce_responded _) trivial
      | resolveSns => exact iff_of_true (resolveSns_respondsOnce hrelay) trivial

/-! ### Requests that are not answered -/

namespace FiveRelays

def request (endpoint : String) (body : Bytes) : Bytes :=
  encodeDict [(ascii "e", encodeString (ascii endpoint)), (ascii "p", encodeString body)]

def findRequest (index : Int) : Bytes :=
  request "find_cc" (encodeDict [(ascii "k", encodeString (FixedBytes.filled 32 7).data),
    (ascii "n", encodeInt index)])

def timeouts : Outside where
  arrivals _ := none
  oxend := ⟨false, []⟩

def alone : RelayNode :=
  { asked with endpoint := { asked.endpoint with rcs := ∅ } }

end FiveRelays

theorem pathRequest_answeredOnce_known : FiveRelays.asked.IsRunningRelay ∧
      FiveRelays.asked.AnsweredOnce FiveRelays.cryptoSuite (FiveRelays.request "path_ping" []) 0
        FiveRelays.timeouts := by
  have hrelay : FiveRelays.asked.IsRunningRelay := ⟨rfl, rfl, rfl⟩
  refine ⟨hrelay, (pathRequest_answeredOnce_iff _ _ _ _ _ hrelay).mpr fun request hrequest => ?_⟩
  have hparse : Link.parsePathRequest (FiveRelays.request "path_ping" []) =
      some (PathEndpoint.pathPing.name, []) := by
    decide +kernel
  rw [hparse] at hrequest
  cases hrequest
  exact trivial

theorem pathRequest_not_answered :
    ¬ FiveRelays.asked.AnsweredOnce FiveRelays.cryptoSuite (FiveRelays.request "get_rc" []) 0
        FiveRelays.timeouts ∧
      ¬ FiveRelays.alone.AnsweredOnce FiveRelays.cryptoSuite (FiveRelays.findRequest 3) 0
        FiveRelays.timeouts ∧
      ¬ FiveRelays.asked.AnsweredOnce FiveRelays.cryptoSuite (FiveRelays.findRequest 4) 0
        FiveRelays.timeouts := by
  have hunknown : FiveRelays.asked.responses (FiveRelays.asked.handlePathRequest
      FiveRelays.cryptoSuite (FiveRelays.request "get_rc" []) 0).2 FiveRelays.timeouts =
        some [] := by
    decide +kernel
  have halone : FiveRelays.alone.responses (FiveRelays.alone.handlePathRequest
      FiveRelays.cryptoSuite (FiveRelays.findRequest 3) 0).2 FiveRelays.timeouts = some [] := by
    decide +kernel
  have hbounds : FiveRelays.asked.responses (FiveRelays.asked.handlePathRequest
      FiveRelays.cryptoSuite (FiveRelays.findRequest 4) 0).2 FiveRelays.timeouts = none := by
    decide +kernel
  refine ⟨?_, ?_, ?_⟩
  · rintro ⟨response, hresponse⟩
    rw [hunknown] at hresponse
    cases hresponse
  · rintro ⟨response, hresponse⟩
    rw [halone] at hresponse
    cases hresponse
  · rintro ⟨response, hresponse⟩
    rw [hbounds] at hresponse
    cases hresponse

end RelayNode

structure ControlRelay where
  router : Router
  node : RelayNode

inductive ControlEffect where
  | responded (reply : Reply)
  | dispatched (payload : Bytes) (outcome : RequestOutcome)
  | forwarded (target : NextHop) (message : Bytes)

inductive ControlRelayAction where
  | pathControl (body : Bytes) (now : Int)
  | other (relay : ControlRelay)

namespace ControlRelay

variable (suite : CryptoSuite)

def receive (relay : ControlRelay) (body : Bytes) (now : Int) :
    Option (ControlRelay × ControlEffect) :=
  match Link.handlePathControl suite.toCipherSuite relay.router body with
  | .respond reply => some (relay, .responded reply)
  | .forward target message _ _ => some (relay, .forwarded target message)
  | .request _ _ none => none
  | .request _ _ (some payload) =>
    let (node, outcome) := relay.node.handlePathRequest suite payload now
    some ({ relay with node }, .dispatched payload outcome)

def step (relay : Option ControlRelay) (action : ControlRelayAction) : Option ControlRelay :=
  match relay, action with
  | none, _ => none
  | some relay, .pathControl body now => (relay.receive suite body now).map Prod.fst
  | some _, .other relay => some relay

def Unauthentic (relay : ControlRelay) (body : Bytes) : Prop :=
  let m := PathMessage.splitSpanTail body
  ∃ ptr, relay.router.pathContext.getTransitHop m.hopId = some ptr ∧
    ptr.hop.terminalHop = true ∧
    Crypto.xchacha20Poly1305DecryptInplace suite.toCipherSuite m.inner ptr.hop.sharedSecret
      (m.nonce ^^^ ptr.hop.xorNonce) [] = none

def ReachesDecryption (body : Bytes) : Prop :=
  encryptPathMessageOverheadMac < body.length ∧ (PathMessage.splitSpanTail body).msgtype = 0x01

def Rejects (relay : ControlRelay) (body : Bytes) (now : Int) : Prop :=
  relay.receive suite body now = some (relay, .responded ⟨Messages.errorResponse, true⟩)

def RejectsUnauthentic (relay : ControlRelay) (actions : List ControlRelayAction) : Prop :=
  Run.run (step suite) (some relay) actions ≠ none ∧
    ∀ front body now back, actions = front ++ .pathControl body now :: back →
      ∃ current, Run.run (step suite) (some relay) front = some current ∧
        (current.Unauthentic suite body → current.Rejects suite body now)

def DecryptsUnauthentic (relay : Option ControlRelay) (action : ControlRelayAction) : Prop :=
  ∃ current body now, relay = some current ∧ action = .pathControl body now ∧
    ReachesDecryption body ∧ current.Unauthentic suite body

variable {suite} {relay : ControlRelay} {body : Bytes} {now : Int}

theorem rejects_of_not_reachesDecryption (h : ¬ ReachesDecryption body) :
    relay.Rejects suite body now := by
  unfold Rejects receive Link.handlePathControl
  by_cases hshort : body.length ≤ encryptPathMessageOverheadMac
  · rw [if_pos hshort]
  · have htype : (PathMessage.splitSpanTail body).msgtype ≠ 0x01 := fun htype =>
      h ⟨Nat.not_le.mp hshort, htype⟩
    rw [if_neg hshort]
    dsimp only
    rw [if_pos htype]

theorem receive_eq_none_iff : relay.receive suite body now = none ↔
      ReachesDecryption body ∧ relay.Unauthentic suite body := by
  by_cases hreaches : ReachesDecryption body
  · obtain ⟨hlong, htype⟩ := hreaches
    unfold receive Link.handlePathControl Unauthentic ReachesDecryption
    rw [if_neg (Nat.not_le.mpr hlong)]
    dsimp only
    rw [if_neg (not_not.mpr htype)]
    cases relay.router.pathContext.getTransitHop (PathMessage.splitSpanTail body).hopId with
    | none => simp
    | some ptr =>
      dsimp only
      cases hterminal : ptr.hop.terminalHop with
      | false => simp [hterminal]
      | true =>
        rw [if_pos rfl]
        cases hplain : Crypto.xchacha20Poly1305DecryptInplace suite.toCipherSuite
            (PathMessage.splitSpanTail body).inner ptr.hop.sharedSecret
            ((PathMessage.splitSpanTail body).nonce ^^^ ptr.hop.xorNonce) [] with
        | none => simp [hlong, htype, hterminal, hplain]
        | some payload => simp [hplain]
  · have hrejects : relay.receive suite body now =
        some (relay, .responded ⟨Messages.errorResponse, true⟩) :=
      rejects_of_not_reachesDecryption hreaches
    simp [hrejects, hreaches]

theorem step_ne_none_iff {current : Option ControlRelay} (hdefined : current ≠ none)
    (action : ControlRelayAction) :
    step suite current action ≠ none ↔ ¬ DecryptsUnauthentic suite current action := by
  unfold DecryptsUnauthentic
  cases current with
  | none => exact absurd rfl hdefined
  | some relay =>
    cases action with
    | other next => simp [step]
    | pathControl body now => simp [step, receive_eq_none_iff]

theorem run_eq_none (actions : List ControlRelayAction) :
    Run.run (step suite) none actions = none := by
  induction actions with
  | nil => rfl
  | cons action actions ih => exact ih

theorem pathControl_rejected_iff (suite : CryptoSuite) (relay : ControlRelay)
    (actions : List ControlRelayAction) :
    relay.RejectsUnauthentic suite actions ↔
      Run.Meets (step suite) (fun current action => ¬ DecryptsUnauthentic suite current action)
        (some relay) actions := by
  have hthroughout := @Run.throughout_iff_meets _ _ (step suite)
    (fun current action => ¬ DecryptsUnauthentic suite current action) (fun _ => True) (· ≠ none)
    (fun _ _ _ _ => trivial) (fun _ action _ hdefined => step_ne_none_iff hdefined action)
    (some relay) actions trivial (Option.some_ne_none relay)
  constructor
  · rintro ⟨hend, -⟩
    refine hthroughout.mp fun front back hsplit hnone => hend ?_
    rw [hsplit, Run.run_append, hnone, run_eq_none]
  · intro hmeets
    have hdefined := hthroughout.mpr hmeets
    refine ⟨hdefined actions [] (List.append_nil _).symm, ?_⟩
    rintro front body now back rfl
    obtain ⟨current, hcurrent⟩ := Option.ne_none_iff_exists'.mp (hdefined front _ rfl)
    refine ⟨current, hcurrent, fun hunauthentic => rejects_of_not_reachesDecryption ?_⟩
    intro hreaches
    have hrest := (Run.meets_append _ _ _ _ _).mp hmeets |>.2
    exact hrest.1 ⟨current, body, now, hcurrent, rfl, hreaches, hunauthentic⟩

theorem pathControl_unauthentic_decrypted :
    let relay : ControlRelay :=
      ⟨Meeting.relay 2 [Meeting.sndPivot, Meeting.rcvPivot], RelayNode.FiveRelays.asked⟩
    let body := PathMessage.encode
      ⟨List.replicate 17 1, FixedBytes.zero 24, Meeting.sndPivot.rxid, MessageType.control⟩
    relay.Unauthentic RelayNode.FiveRelays.cryptoSuite body ∧
      ¬ relay.RejectsUnauthentic RelayNode.FiveRelays.cryptoSuite [.pathControl body 0] := by
  intro relay body
  have hunauthentic : relay.Unauthentic RelayNode.FiveRelays.cryptoSuite body :=
    ⟨⟨0, Meeting.sndPivot⟩, by decide +kernel, rfl, by decide +kernel⟩
  have hreaches : ReachesDecryption body := ⟨by decide, by decide +kernel⟩
  refine ⟨hunauthentic, fun hrejects => hrejects.1 ?_⟩
  show (relay.receive RelayNode.FiveRelays.cryptoSuite body 0).map Prod.fst = none
  rw [receive_eq_none_iff.mpr ⟨hreaches, hunauthentic⟩]
  rfl

end ControlRelay
end SessionRouter
