import SessionRouter.Lib.Run
import SessionRouter.Session.Handshake

/-!
# Do the two ends of a session have the same keys?
-/

namespace SessionRouter.KeyAgreement

open Lib Bencode

structure SentInit where
  old : Bool
  hop : HopID
  draw : InitDraw
  message : Option Bytes

structure Answered where
  init : Nat
  session : InboundSession

structure State where
  initiator : OutboundSession
  inits : List SentInit
  sessions : List Answered

inductive Action where
  | sendInit (old : Bool) (hop : HopID) (draw : InitDraw)
  | respond (i : Nat) (draw : AcceptDraw) (nextTag : SessionTag)
  | accept (j : Nat)
  | deliver (message : Bytes)
  | acceptOld (params : Bytes)

def newSession (remote : RouterID) (inboundTag : SessionTag) : OutboundSession where
  remote
  inboundTag
  outboundTag := 0
  inboundKey := none
  outboundKey := none
  isEstablished := false
  sessionMlkem756 := none
  sessionX25519 := none
  pendingSharedSecret := none
  sharedSecret := none

section

variable (suite : SessionSuite) (initiatorKey responderKey : Ed25519SecretKey)

def start (inboundTag : SessionTag) : State :=
  ⟨newSession (suite.edPublic responderKey) inboundTag, [], []⟩

def sendInit (state : State) (old : Bool) (hop : HopID) (draw : InitDraw) : State :=
  let made :=
    if old then state.initiator.makeSessionInitOld suite initiatorKey hop draw
    else state.initiator.makeSessionInit suite initiatorKey hop draw
  { state with initiator := made.1, inits := state.inits ++ [⟨old, hop, draw, made.2⟩] }

def respond (state : State) (i : Nat) (draw : AcceptDraw) (nextTag : SessionTag) : State :=
  let session : Option InboundSession := do
    let sent ← state.inits[i]?
    let message ← sent.message
    InboundSession.init suite responderKey message draw nextTag
  { state with sessions := state.sessions ++ (session.map fun session => ⟨i, session⟩).toList }

def step (state : State) : Action → State
  | .sendInit old hop draw => sendInit suite initiatorKey state old hop draw
  | .respond i draw nextTag => respond suite responderKey state i draw nextTag
  | .accept j =>
    match state.sessions[j]? with
    | none => state
    | some answered =>
      { state with
        initiator :=
          (state.initiator.handleHandshake suite initiatorKey answered.session.acceptMsg).1 }
  | .deliver message =>
    { state with initiator := (state.initiator.handleHandshake suite initiatorKey message).1 }
  | .acceptOld params =>
    { state with initiator := state.initiator.handleSessionAcceptDeprecated params }

end

def Waiting (s : OutboundSession) : Prop :=
  s.sessionMlkem756.isSome = true ∧ s.sessionX25519.isSome = true

def AnswersLast (state : State) : Action → Prop
  | .accept j =>
    ∀ answered, state.sessions[j]? = some answered → Waiting state.initiator →
      answered.init + 1 = state.inits.length
  | _ => True

def Agrees (s : OutboundSession) (session : InboundSession) : Prop :=
  s.inboundKey = some session.outboundKey ∧ s.outboundKey = some session.inboundKey

section

variable {suite : SessionSuite} {initiatorKey responderKey : Ed25519SecretKey}

theorem answer_eq_some {request : InitFields} {draw : AcceptDraw} {nextTag : SessionTag}
    {session : InboundSession}
    (h : InboundSession.answer suite responderKey request draw nextTag = some session) :
    let encapsulated := suite.mlkemEncapsulate request.remoteEphMlkem draw.encapsulation
    sessionSecret suite request.remote (suite.edPublic responderKey) draw.x25519
        request.remoteEphXpk false encapsulated.2 request.remoteEphMlkem request.outboundTag
        nextTag =
      some (session.inboundKey, session.outboundKey) ∧
    session.inboundTag = nextTag ∧
    ∃ box, sealBox suite request.remote draw.box
        (InboundSession.acceptInner suite responderKey draw.x25519 encapsulated.1 nextTag) =
          some box ∧
      session.acceptMsg =
        encodeDict [([], encodeString (ascii "a")), (ascii "B", encodeString box)] := by
  unfold InboundSession.answer at h
  obtain ⟨⟨keyIn, keyOut⟩, hsecret, h⟩ := Option.bind_eq_some_iff.mp h
  obtain ⟨box, hbox, h⟩ := Option.bind_eq_some_iff.mp h
  cases h
  exact ⟨hsecret, rfl, box, hbox, rfl⟩

variable {s : OutboundSession}

theorem init_makeSessionInit (hlaw : suite.Lawful)
    (hremote : s.remote = suite.edPublic responderKey) {hop : HopID} {draw : InitDraw}
    {message : Bytes} (hmessage : (s.makeSessionInit suite initiatorKey hop draw).2 = some message)
    (answerDraw : AcceptDraw) (nextTag : SessionTag) :
    InboundSession.init suite responderKey message answerDraw nextTag =
      InboundSession.answer suite responderKey
        (InitFields.made suite initiatorKey s (suite.mlkemKeygen draw.mlkemSeed) draw.x25519 hop)
        answerDraw nextTag := by
  obtain ⟨box, hbox, rfl⟩ := Option.map_eq_some_iff.mp hmessage
  rw [hremote] at hbox
  have hopen := unsealBox_sealBox hlaw hbox
  unfold InboundSession.init
  simp only [DictConsumer.ofBytes_encodeDict, encodeEntries_cons_append, encodeEntries_nil_append,
    Option.bind_eq_bind, Option.bind_some, DictConsumer.require_readString_entry, if_true, hopen,
    InitFields.parse_initInner]
  exact if_pos (hlaw.verify_sign _ _)

theorem openAccept_accept (hlaw : suite.Lawful)
    (hremote : s.remote = suite.edPublic responderKey) {draw : FixedBytes 32}
    {y : X25519SecKey} {mlct : MLKEM768Ciphertext} {tag : SessionTag} {box : Bytes}
    (hbox : sealBox suite (suite.edPublic initiatorKey) draw
      (InboundSession.acceptInner suite responderKey y mlct tag) = some box) :
    s.openAccept suite initiatorKey
        ⟨none, encodeString (ascii "B") ++ (encodeString box ++ [0x65])⟩ =
      some (AcceptFields.made suite responderKey y mlct tag) := by
  have hopen := unsealBox_sealBox hlaw hbox
  unfold OutboundSession.openAccept
  simp only [Option.bind_eq_bind, Option.bind_some, DictConsumer.require_readString_entry,
    DictConsumer.finish_end, if_true, hopen, AcceptFields.parse_acceptInner, hremote]
  exact if_pos (hlaw.verify_sign _ _)

theorem handleHandshake_agrees (hlaw : suite.Lawful) {made : OutboundSession}
    (hremote : s.remote = suite.edPublic responderKey) (htag : made.inboundTag = s.inboundTag)
    {seed : FixedBytes 64} {x : X25519SecKey} {hop : HopID}
    (hmlkem : s.sessionMlkem756 = some (suite.mlkemKeygen seed)) (hx : s.sessionX25519 = some x)
    {draw : AcceptDraw} {nextTag : SessionTag} {session : InboundSession}
    (hsession : InboundSession.answer suite responderKey
      (InitFields.made suite initiatorKey made (suite.mlkemKeygen seed) x hop) draw nextTag =
        some session) :
    (s.handleHandshake suite initiatorKey session.acceptMsg).2 = .established ∧
      Agrees (s.handleHandshake suite initiatorKey session.acceptMsg).1 session := by
  obtain ⟨hsecret, -, box, hbox, hmsg⟩ := answer_eq_some hsession
  have hopen := openAccept_accept (s := s) hlaw hremote hbox
  -- the initiator computes the responder's secret from the other end
  have hkeys : s.acceptKeys suite initiatorKey (suite.mlkemKeygen seed) x
      (AcceptFields.made suite responderKey draw.x25519
        (suite.mlkemEncapsulate (suite.mlkemKeygen seed).pub draw.encapsulation).1 nextTag) =
      some (session.outboundKey, session.inboundKey) := by
    unfold OutboundSession.acceptKeys
    simp only [AcceptFields.made, hlaw.decapsulate_encapsulate, Option.bind_eq_bind,
      Option.bind_some, hremote, sessionSecret_swap hlaw]
    rw [← htag]
    exact congrArg (Option.map Prod.swap) hsecret
  have hrun : s.handleHandshake suite initiatorKey session.acceptMsg =
      s.handleSessionAccept suite initiatorKey
        ⟨none, encodeString (ascii "B") ++ (encodeString box ++ [0x65])⟩ := by
    rw [hmsg]
    simp [OutboundSession.handleHandshake]
  rw [hrun]
  unfold OutboundSession.handleSessionAccept
  rw [hmlkem, hx]
  simp only [hopen, InitFields.made, hkeys]
  exact ⟨trivial, rfl, rfl⟩

theorem handleHandshake_frame (s : OutboundSession) (message : Bytes) :
    let after := (s.handleHandshake suite initiatorKey message).1
    after.remote = s.remote ∧ after.inboundTag = s.inboundTag ∧
      (Waiting after → after.sessionMlkem756 = s.sessionMlkem756 ∧
        after.sessionX25519 = s.sessionX25519) := by
  have haccept (payload : DictConsumer) :
      let after := (s.handleSessionAccept suite initiatorKey payload).1
      after.remote = s.remote ∧ after.inboundTag = s.inboundTag ∧
        (Waiting after → after.sessionMlkem756 = s.sessionMlkem756 ∧
          after.sessionX25519 = s.sessionX25519) := by
    unfold OutboundSession.handleSessionAccept
    split
    · split
      · simp
      · split
        · simp
        · simp [Waiting]
    · simp
  unfold OutboundSession.handleHandshake
  dsimp only
  split
  · split
    · exact haccept _
    · simp
  · simp

theorem waiting_of_established {message : Bytes}
    (h : (s.handleHandshake suite initiatorKey message).2 = .established) : Waiting s := by
  have haccept (payload : DictConsumer)
      (h : (s.handleSessionAccept suite initiatorKey payload).2 = .established) : Waiting s := by
    unfold OutboundSession.handleSessionAccept at h
    split at h
    · next mlkem x hmlkem hx => simp [Waiting, hmlkem, hx]
    · cases h
  unfold OutboundSession.handleHandshake at h
  dsimp only at h
  split at h
  · split at h
    · exact haccept _ h
    · cases h
  · cases h

theorem handleSessionAcceptDeprecated_frame (s : OutboundSession) (params : Bytes) :
    let after := s.handleSessionAcceptDeprecated params
    after.remote = s.remote ∧ after.inboundTag = s.inboundTag ∧
      after.sessionMlkem756 = s.sessionMlkem756 ∧ after.sessionX25519 = s.sessionX25519 := by
  unfold OutboundSession.handleSessionAcceptDeprecated
  split
  · simp
  · dsimp only
    split <;> simp

variable (suite initiatorKey responderKey) in
structure Inv (origin : OutboundSession) (state : State) : Prop where
  remote : state.initiator.remote = origin.remote
  inboundTag : state.initiator.inboundTag = origin.inboundTag
  sent : ∀ sent ∈ state.inits, sent.old = false →
    sent.message = (origin.makeSessionInit suite initiatorKey sent.hop sent.draw).2
  waiting : Waiting state.initiator → ∃ sent, state.inits.getLast? = some sent ∧ sent.old = false ∧
    state.initiator.sessionMlkem756 = some (suite.mlkemKeygen sent.draw.mlkemSeed) ∧
    state.initiator.sessionX25519 = some sent.draw.x25519
  answered : ∀ answered ∈ state.sessions, ∃ sent message draw nextTag,
    state.inits[answered.init]? = some sent ∧ sent.message = some message ∧
      InboundSession.init suite responderKey message draw nextTag = some answered.session

theorem inv_start (inboundTag : SessionTag) :
    Inv suite initiatorKey responderKey (newSession (suite.edPublic responderKey) inboundTag)
      (start suite responderKey inboundTag) where
  remote := rfl
  inboundTag := rfl
  sent := by simp [start]
  waiting h := by simp [start, newSession, Waiting] at h
  answered := by simp [start]

variable {origin : OutboundSession}

theorem makeSessionInit_message (hremote : s.remote = origin.remote)
    (htag : s.inboundTag = origin.inboundTag) (hop : HopID) (draw : InitDraw) :
    (s.makeSessionInit suite initiatorKey hop draw).2 =
      (origin.makeSessionInit suite initiatorKey hop draw).2 := by
  simp [OutboundSession.makeSessionInit, OutboundSession.initInner, OutboundSession.initEntries,
    hremote, htag]

variable (suite initiatorKey) in
theorem makeSessionInitOld_frame (s : OutboundSession) (hop : HopID) (draw : InitDraw) :
    let after := (s.makeSessionInitOld suite initiatorKey hop draw).1
    after.remote = s.remote ∧ after.inboundTag = s.inboundTag ∧ ¬ Waiting after := by
  unfold OutboundSession.makeSessionInitOld
  dsimp only
  split <;> simp [Waiting]

theorem getElem?_append_of_eq_some {α : Type} {xs : List α} {i : Nat} {x : α}
    (h : xs[i]? = some x) (ys : List α) : (xs ++ ys)[i]? = some x := by
  rw [List.getElem?_append_left (List.getElem?_eq_some_iff.mp h).1, h]

variable {state : State}

section

variable (h : Inv suite initiatorKey responderKey origin state)

include h

theorem inv_sendInit (old : Bool)
    (hop : HopID) (draw : InitDraw) :
    Inv suite initiatorKey responderKey origin
      (sendInit suite initiatorKey state old hop draw) := by
  have hanswered (added : SentInit) : ∀ answered ∈ state.sessions, ∃ sent message draw nextTag,
      (state.inits ++ [added])[answered.init]? = some sent ∧ sent.message = some message ∧
        InboundSession.init suite responderKey message draw nextTag = some answered.session := by
    intro answered hmem
    obtain ⟨sent, message, draw, nextTag, hsent, hrest⟩ := h.answered answered hmem
    exact ⟨sent, message, draw, nextTag, getElem?_append_of_eq_some hsent _, hrest⟩
  cases old with
  | true =>
    obtain ⟨hremote, htag, hwaiting⟩ :=
      makeSessionInitOld_frame suite initiatorKey state.initiator hop draw
    refine ⟨hremote.trans h.remote, htag.trans h.inboundTag, ?_, ?_, hanswered _⟩
    · intro sent hmem hnew
      rcases List.mem_append.mp hmem with hmem | hmem
      · exact h.sent sent hmem hnew
      · rw [List.mem_singleton.mp hmem] at hnew
        exact absurd hnew (by simp)
    · intro hwaits
      exact absurd hwaits hwaiting
  | false =>
    refine ⟨h.remote, h.inboundTag, ?_, ?_, hanswered _⟩
    · intro sent hmem hnew
      rcases List.mem_append.mp hmem with hmem | hmem
      · exact h.sent sent hmem hnew
      · rw [List.mem_singleton.mp hmem]
        exact makeSessionInit_message h.remote h.inboundTag hop draw
    · intro _
      refine ⟨_, List.getLast?_concat, rfl, rfl, rfl⟩

theorem inv_initiator {after : OutboundSession}
    (hafter : after.remote = state.initiator.remote ∧
      after.inboundTag = state.initiator.inboundTag ∧
      (Waiting after → after.sessionMlkem756 = state.initiator.sessionMlkem756 ∧
        after.sessionX25519 = state.initiator.sessionX25519)) :
    Inv suite initiatorKey responderKey origin { state with initiator := after } := by
  obtain ⟨hremote, htag, hkeys⟩ := hafter
  refine ⟨hremote.trans h.remote, htag.trans h.inboundTag, h.sent, ?_, h.answered⟩
  intro hwaits
  obtain ⟨hmlkem, hx⟩ := hkeys hwaits
  have hbefore : Waiting state.initiator := by
    unfold Waiting
    rw [← hmlkem, ← hx]
    exact hwaits
  obtain ⟨sent, hlast, hnew, hsent⟩ := h.waiting hbefore
  refine ⟨sent, hlast, hnew, ?_⟩
  rw [hmlkem, hx]
  exact hsent

theorem inv_respond (i : Nat)
    (draw : AcceptDraw) (nextTag : SessionTag) :
    Inv suite initiatorKey responderKey origin
      (respond suite responderKey state i draw nextTag) := by
  refine ⟨h.remote, h.inboundTag, h.sent, h.waiting, ?_⟩
  intro answered hmem
  rcases List.mem_append.mp hmem with hmem | hmem
  · exact h.answered answered hmem
  · obtain ⟨session, hsession, rfl⟩ := Option.map_eq_some_iff.mp (Option.mem_toList.mp hmem)
    obtain ⟨sent, hsent, hsession⟩ := Option.bind_eq_some_iff.mp hsession
    obtain ⟨message, hmessage, hsession⟩ := Option.bind_eq_some_iff.mp hsession
    exact ⟨sent, message, draw, nextTag, hsent, hmessage, hsession⟩

end

theorem inv_step (state : State) (action : Action)
    (h : Inv suite initiatorKey responderKey origin state) :
    Inv suite initiatorKey responderKey origin
      (step suite initiatorKey responderKey state action) := by
  cases action with
  | sendInit old hop draw => exact inv_sendInit h old hop draw
  | respond i draw nextTag => exact inv_respond h i draw nextTag
  | accept j =>
    cases hj : state.sessions[j]? with
    | none => simpa only [step, hj] using h
    | some answered => simpa only [step, hj] using inv_initiator h (handleHandshake_frame _ _)
  | deliver message => exact inv_initiator h (handleHandshake_frame _ _)
  | acceptOld params =>
    obtain ⟨hremote, htag, hmlkem, hx⟩ := handleSessionAcceptDeprecated_frame state.initiator params
    exact inv_initiator h ⟨hremote, htag, fun _ => ⟨hmlkem, hx⟩⟩

theorem Inv.agrees (hlaw : suite.Lawful) {inboundTag : SessionTag}
    (h : Inv suite initiatorKey responderKey
      (newSession (suite.edPublic responderKey) inboundTag) state)
    {answered : Answered} (hmem : answered ∈ state.sessions) (hwaits : Waiting state.initiator)
    (hlast : answered.init + 1 = state.inits.length) :
    (state.initiator.handleHandshake suite initiatorKey answered.session.acceptMsg).2 =
        .established ∧
      Agrees (state.initiator.handleHandshake suite initiatorKey answered.session.acceptMsg).1
        answered.session := by
  obtain ⟨sent, hsent, hnew, hmlkem, hx⟩ := h.waiting hwaits
  obtain ⟨sent', message, draw, nextTag, hsent', hmessage, hsession⟩ := h.answered answered hmem
  -- the init that is answered is the one whose keys the initiator has
  obtain rfl : sent = sent' := by
    rw [List.getLast?_eq_getElem?, ← hlast, Nat.add_sub_cancel, hsent'] at hsent
    exact (Option.some.inj hsent).symm
  have hsentMem : sent ∈ state.inits := List.mem_of_getLast? hsent
  rw [h.sent sent hsentMem hnew] at hmessage
  rw [init_makeSessionInit hlaw rfl hmessage] at hsession
  exact handleHandshake_agrees hlaw h.remote h.inboundTag.symm hmlkem hx hsession

end

/-- In every run in which no waiting initiator is given the accept of an older init:
whenever the initiator becomes established by the accept of a session of the
responder, each end's inbound key is the other's outbound key.  And a waiting
initiator does become established by such an accept. -/
theorem accept_agrees (suite : SessionSuite) (hlaw : suite.Lawful)
    (initiatorKey responderKey : Ed25519SecretKey) (inboundTag : SessionTag)
    (actions : List Action)
    (hmeets : Run.Meets (step suite initiatorKey responderKey) AnswersLast
      (start suite responderKey inboundTag) actions) :
    ∀ front j back, actions = front ++ .accept j :: back →
      let state := Run.run (step suite initiatorKey responderKey)
        (start suite responderKey inboundTag) front
      ∀ answered, state.sessions[j]? = some answered →
        let result := state.initiator.handleHandshake suite initiatorKey answered.session.acceptMsg
        (result.2 = .established → Agrees result.1 answered.session) ∧
          (Waiting state.initiator → result.2 = .established) := by
  rintro front j back rfl state answered hj result
  obtain ⟨-, hlast, -⟩ := (Run.meets_append _ _ _ _ _).mp hmeets
  have hinv : Inv suite initiatorKey responderKey
      (newSession (suite.edPublic responderKey) inboundTag) state :=
    Run.run_invariant_of_step _ inv_step front (inv_start inboundTag)
  by_cases hwaits : Waiting state.initiator
  · obtain ⟨hestablished, hagrees⟩ := hinv.agrees hlaw (List.mem_of_getElem? hj) hwaits
      (hlast answered hj hwaits)
    exact ⟨fun _ => hagrees, fun _ => hestablished⟩
  · refine ⟨fun hestablished => ?_, fun h => absurd h hwaits⟩
    exact absurd (waiting_of_established hestablished) hwaits

namespace Overtaken

def suite : SessionSuite where
  stream key _ i := key.data.getD (i % 32) 0
  aeadStream key _ i := key.data.getD (i % 32) 0
  poly1305 _ _ _ _ := FixedBytes.zero 16
  edPublic := id
  edScalarmult a b := some (a ^^^ b)
  xPublic := id
  xScalarmult a b := some (a ^^^ b)
  edPublicToX := some
  edSecretToX := id
  blake2b size _ _ message := FixedBytes.ofBytes size message
  edVerify key _ signature := FixedBytes.ofBytes 32 signature.data = key
  scalarReduce n := FixedBytes.ofBytes 32 n.data
  scalarmultNoclamp a b := some (a ^^^ b)
  mlkemKeygen seed := ⟨FixedBytes.ofBytes 1184 seed.data, FixedBytes.ofBytes 2400 seed.data⟩
  mlkemEncapsulate pub draw :=
    (FixedBytes.ofBytes 1088 draw.data, FixedBytes.ofBytes 32 pub.data ^^^ draw)
  mlkemDecapsulate sec ct := some (FixedBytes.ofBytes 32 sec.data ^^^ FixedBytes.ofBytes 32 ct.data)
  edSign key _ := FixedBytes.ofBytes 64 key.data
  boxSeal key draw message := some (key.data ++ draw.data.take 16 ++ message)
  boxSealOpen key box := if box.take 32 = key.data then some (box.drop sealBytes) else none

theorem suite_lawful : suite.Lawful where
  ed_symm a b := congrArg some (FixedBytes.xor_comm a b)
  x_symm a b := congrArg some (FixedBytes.xor_comm a b)
  edPublicToX_edPublic _ := rfl
  decapsulate_encapsulate seed draw := by simp [suite, FixedBytes.ofBytes_ofBytes]
  verify_sign key message := by simp [suite, FixedBytes.ofBytes_ofBytes]
  open_seal key draw message box hbox := by
    cases hbox
    have hlen : (key.data ++ draw.data.take 16).length = sealBytes := by simp [sealBytes]
    simp only [suite, id]
    rw [List.append_assoc, List.take_left' key.length_data, if_pos rfl, ← List.append_assoc,
      List.drop_left' hlen]
  length_seal key draw message box hbox := by
    cases hbox
    simp [sealBytes]
    omega

def initiatorKey : Ed25519SecretKey := FixedBytes.filled 32 1
def responderKey : Ed25519SecretKey := FixedBytes.filled 32 2

def initDraw (byte : UInt8) : InitDraw where
  mlkemSeed := FixedBytes.filled 64 byte
  x25519 := FixedBytes.filled 32 byte
  box := FixedBytes.filled 32 byte
  dhKey := FixedBytes.filled 32 byte
  dhNonce := FixedBytes.filled 24 byte

def acceptDraw : AcceptDraw where
  x25519 := FixedBytes.filled 32 9
  encapsulation := FixedBytes.filled 32 10
  box := FixedBytes.filled 32 11

def opening : List Action :=
  [.sendInit false (FixedBytes.filled 16 5) (initDraw 3), .respond 0 acceptDraw 77]

def overtaking : List Action :=
  opening ++ [.sendInit false (FixedBytes.filled 16 6) (initDraw 4)]

def stateAfter (actions : List Action) : State :=
  Run.run (step suite initiatorKey responderKey) (start suite responderKey 42) actions

end Overtaken

open Overtaken

theorem accept_agrees_opening : ∃ answered, (stateAfter opening).sessions[0]? = some answered ∧
      Agrees ((stateAfter opening).initiator.handleHandshake suite initiatorKey
        answered.session.acceptMsg).1 answered.session := by
  have hfirst : ((stateAfter opening).sessions[0]?).any (fun answered =>
      answered.init + 1 = (stateAfter opening).inits.length ∧
        (stateAfter opening).initiator.sessionMlkem756.isSome = true ∧
        (stateAfter opening).initiator.sessionX25519.isSome = true) = true := by
    decide +kernel
  obtain ⟨answered, hanswered, hlast⟩ := (Option.any_eq_true _ _).mp hfirst
  obtain ⟨hlast, hwaits⟩ := of_decide_eq_true hlast
  have hmeets : Run.Meets (step suite initiatorKey responderKey) AnswersLast
      (start suite responderKey 42) (opening ++ [.accept 0]) := by
    refine (Run.meets_append _ _ _ _ _).mpr ⟨⟨trivial, trivial, trivial⟩, ?_, trivial⟩
    intro answered' hanswered' _
    have hsame : some answered = some answered' := hanswered.symm.trans hanswered'
    rw [← Option.some.inj hsame]
    exact hlast
  obtain ⟨hagrees, hestablished⟩ := accept_agrees suite suite_lawful initiatorKey responderKey 42
    (opening ++ [.accept 0]) hmeets opening 0 [] rfl answered hanswered
  exact ⟨answered, hanswered, hagrees (hestablished hwaits)⟩

theorem overtaken_accept_disagrees :
    ∃ answered, (stateAfter overtaking).sessions[0]? = some answered ∧
      let result := (stateAfter overtaking).initiator.handleHandshake suite initiatorKey
        answered.session.acceptMsg
      result.2 = .established ∧ ¬ Agrees result.1 answered.session := by
  have hfirst : ((stateAfter overtaking).sessions[0]?).any (fun answered =>
      let result := (stateAfter overtaking).initiator.handleHandshake suite initiatorKey
        answered.session.acceptMsg
      result.2 = .established ∧ result.1.inboundKey ≠ some answered.session.outboundKey) =
        true := by
    decide +kernel
  obtain ⟨answered, hanswered, hresult⟩ := (Option.any_eq_true _ _).mp hfirst
  obtain ⟨hestablished, hkeys⟩ := of_decide_eq_true hresult
  exact ⟨answered, hanswered, hestablished, fun hagrees => hkeys hagrees.1⟩

end SessionRouter.KeyAgreement
