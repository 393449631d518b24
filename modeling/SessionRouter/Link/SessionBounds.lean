import SessionRouter.Lib.Spans
import SessionRouter.Link.Network

/-!
# The splits of a session message
-/

namespace SessionRouter

open Lib

namespace SessionOutcome

def defined : SessionOutcome → Option SessionOutcome
  | outOfBounds => none
  | outcome => some outcome

end SessionOutcome

namespace Link

open Spanned

variable (suite : CipherSuite)

def extractPathMessageMetadataSpans (message : Bytes) : Spanned (Option PathMessage) :=
  if message.length < minPathDataMessageSize then pure none
  else do
    let (message, msgtype) ← splitLast 1 message
    let (message, hopId) ← splitLast 16 message
    let (message, nonce) ← splitLast 24 message
    pure (some ⟨message, FixedBytes.ofBytes 24 nonce, FixedBytes.ofBytes 16 hopId,
      msgtype.headD 0⟩)

def handleSessionMessageClientSpans (router : Router) (m : PathMessage) (control : Bool) :
    Spanned SessionOutcome :=
  match router.pathContext.getPath m.hopId with
  | none => pure .dropped
  | some path =>
    if m.inner.length < 4 then pure .dropped
    else if unknownMessageType m.msgtype control then pure .dropped
    else do
      let peeled := path.hops.foldl
        (fun (state : SymmNonce × Bytes) hop =>
          (state.1 ^^^ hop.xorNonce,
            Crypto.xchacha20 suite state.2 hop.sharedSecret state.1))
        (m.nonce, m.inner)
      let (payload, tag) ← splitLast 4 peeled.2
      pure (.event (dispatchSession payload (SessionTag.ofBytes tag) peeled.1 m.msgtype control
        (.path path)))

def putMetadata (message : Bytes) (nonce : SymmNonce) (hopId : HopID) (msgtype : MessageType)
    (payload : Bytes → Bytes) : Spanned Bytes := do
  let (front, _) ← splitLast encryptPathMessageOverhead message
  pure (PathMessage.encode ⟨payload front, nonce, hopId, msgtype⟩)

def handleSessionMessageTerminalSpans (router : Router) (ptr : TransitHopPtr) (hopId : HopID)
    (nonce : SymmNonce) (message : Bytes) (msgtype : MessageType) (control : Bool) :
    Spanned SessionOutcome := do
  let (payload, tail) ← splitLast (4 + 16) message
  let pivotId := FixedBytes.ofBytes 16 (tail.drop 4)
  if pivotId = hopId then
    if unknownMessageType msgtype control then pure .dropped
    else
      pure (.event (dispatchSession payload (SessionTag.ofBytes (tail.take 4)) nonce msgtype
        control (.transitHop ptr)))
  else
    match router.pathContext.getTransitHop pivotId with
    | none => pure .dropped
    | some transHop => do
        let nonce := nonce ^^^ transHop.hop.xorNonce
        -- the pivot id and 25 bytes more are the room for the metadata
        let resized := message ++ List.replicate (encryptPathMessageOverhead - 16) 0
        let message ← putMetadata resized nonce pivotId msgtype fun sessionPayload =>
          Crypto.xchacha20 suite sessionPayload transHop.hop.sharedSecret nonce
        pure (.forward transHop.hop.downstream message)

def handleSessionMessageRelaySpans (router : Router) (m : PathMessage) (control : Bool) :
    Spanned SessionOutcome :=
  match router.pathContext.getTransitHop m.hopId with
  | none => pure .dropped
  | some ptr =>
    let nonce := m.nonce ^^^ ptr.hop.xorNonce
    let message := Crypto.xchacha20 suite m.inner ptr.hop.sharedSecret nonce
    if ptr.hop.terminalHop then
      handleSessionMessageTerminalSpans suite router ptr m.hopId nonce message m.msgtype control
    else do
      let next := ptr.hop.nextId m.hopId
      let resized := message ++ List.replicate encryptPathMessageOverhead 0
      let message ← putMetadata resized nonce next.2 m.msgtype id
      pure (.forward next.1 message)

def handleSessionMessageSpans (router : Router) (message : Bytes) (control : Bool) :
    Spanned SessionOutcome := do
  match ← extractPathMessageMetadataSpans message with
  | none => pure .dropped
  | some m =>
    if router.isServiceNode then handleSessionMessageRelaySpans suite router m control
    else handleSessionMessageClientSpans suite router m control

variable {suite} {router : Router} {m : PathMessage} {ptr : TransitHopPtr} {control : Bool}

variable (hopId : HopID) (nonce : SymmNonce) (message : Bytes) (msgtype : MessageType)

theorem result_extractPathMessageMetadataSpans : (extractPathMessageMetadataSpans message).result =
      some (extractPathMessageMetadata message) := by
  unfold extractPathMessageMetadataSpans extractPathMessageMetadata
  split
  · rfl
  · next hlong =>
    have hsize : encryptPathMessageOverhead ≤ message.length := by
      unfold minPathDataMessageSize at hlong
      omega
    obtain ⟨m, rfl⟩ : ∃ m : PathMessage, m.encode = message :=
      ⟨_, PathMessage.encode_splitSpanTail hsize⟩
    have hencode : m.encode = ((m.inner ++ m.nonce.data) ++ m.hopId.data) ++ [m.msgtype] := by
      simp [PathMessage.encode]
    rw [PathMessage.splitSpanTail_encode, hencode, result_bind,
      result_splitLast_append _ (by rfl)]
    simp only [Option.bind_some, result_bind,
      result_splitLast_append _ (FixedBytes.length_data _), result_pure, FixedBytes.ofBytes_data,
      List.headD_cons]

theorem length_peeled (hops : List TransitHop) (state : SymmNonce × Bytes) :
    (hops.foldl (fun (state : SymmNonce × Bytes) hop =>
      (state.1 ^^^ hop.xorNonce,
        Crypto.xchacha20 suite state.2 hop.sharedSecret state.1)) state).2.length =
      state.2.length := by
  induction hops generalizing state with
  | nil => rfl
  | cons hop hops ih => rw [List.foldl_cons, ih, Crypto.length_xchacha20]

theorem result_handleSessionMessageClientSpans :
    (handleSessionMessageClientSpans suite router m control).result =
      some (handleSessionMessageClient suite router m control) := by
  unfold handleSessionMessageClientSpans handleSessionMessageClient
  cases router.pathContext.getPath m.hopId with
  | none => rfl
  | some path =>
    dsimp only
    split
    · rfl
    · next hlong =>
      split
      · rfl
      · rw [result_bind, result_splitLast (by rw [length_peeled]; exact Nat.not_lt.mp hlong)]
        rfl

theorem result_putMetadata {front room : Bytes} (hroom : room.length = encryptPathMessageOverhead)
    (nonce : SymmNonce) (hopId : HopID) (msgtype : MessageType) (payload : Bytes → Bytes) :
    (putMetadata (front ++ room) nonce hopId msgtype payload).result =
      some (PathMessage.encode ⟨payload front, nonce, hopId, msgtype⟩) := by
  rw [putMetadata, result_bind, result_splitLast_append front hroom]
  rfl

theorem result_handleSessionMessageTerminalSpans :
    (handleSessionMessageTerminalSpans suite router ptr hopId nonce message msgtype
        control).result =
      (handleSessionMessageTerminal suite router ptr hopId nonce message msgtype
        control).defined := by
  unfold handleSessionMessageTerminalSpans handleSessionMessageTerminal
  rw [result_bind]
  by_cases hshort : message.length < 4 + 16
  · rw [if_pos hshort, result_splitLast_of_lt hshort]
    rfl
  · let size := message.length - (4 + 16)
    obtain ⟨tail, htail⟩ : ∃ tail, message.drop size = tail := ⟨_, rfl⟩
    have hlength : tail.length = 4 + 16 := by
      rw [← htail, List.length_drop]
      omega
    have hpivot : message.drop (size + 4) = tail.drop 4 := by rw [← htail, List.drop_drop]
    rw [if_neg hshort, result_splitLast (Nat.not_lt.mp hshort)]
    simp only [Option.bind_some, hpivot, htail, size]
    split
    · split
      · rfl
      · rfl
    · cases router.pathContext.getTransitHop (FixedBytes.ofBytes 16 (tail.drop 4)) with
      | none => rfl
      | some transHop =>
        have hroom : (message.drop (message.length - 16) ++
            List.replicate (encryptPathMessageOverhead - 16) 0).length =
              encryptPathMessageOverhead := by
          simp only [List.length_append, List.length_drop, List.length_replicate,
            encryptPathMessageOverhead]
          omega
        have hresized : message ++ List.replicate (encryptPathMessageOverhead - 16) 0 =
            message.take (message.length - 16) ++ (message.drop (message.length - 16) ++
              List.replicate (encryptPathMessageOverhead - 16) 0) := by
          rw [← List.append_assoc, List.take_append_drop]
        simp only [result_bind, hresized, result_putMetadata hroom]
        rfl

theorem result_handleSessionMessageRelaySpans :
    (handleSessionMessageRelaySpans suite router m control).result =
      (handleSessionMessageRelay suite router m control).defined := by
  unfold handleSessionMessageRelaySpans handleSessionMessageRelay
  cases router.pathContext.getTransitHop m.hopId with
  | none => rfl
  | some ptr =>
    dsimp only
    split
    · exact result_handleSessionMessageTerminalSpans _ _ _ _
    · rw [result_bind, result_putMetadata List.length_replicate]
      rfl

theorem defined_handleSessionMessageClient :
    (handleSessionMessageClient suite router m control).defined =
      some (handleSessionMessageClient suite router m control) := by
  unfold handleSessionMessageClient
  cases router.pathContext.getPath m.hopId with
  | none => rfl
  | some path =>
    dsimp only
    split
    · rfl
    · split
      · rfl
      · rfl

theorem result_handleSessionMessageSpans :
    (handleSessionMessageSpans suite router message control).result =
      (handleSessionMessage suite router message control).defined := by
  rw [handleSessionMessageSpans, handleSessionMessage, result_bind,
    result_extractPathMessageMetadataSpans, Option.bind_some]
  cases extractPathMessageMetadata message with
  | none => rfl
  | some m =>
    dsimp only
    split
    · exact result_handleSessionMessageRelaySpans
    · rw [result_handleSessionMessageClientSpans, defined_handleSessionMessageClient]

def ShortAtTerminal (router : Router) (message : Bytes) : Prop :=
  router.isServiceNode = true ∧ minPathDataMessageSize ≤ message.length ∧
    message.length < minPathDataMessageSize + 3 ∧
    ∃ ptr, router.pathContext.getTransitHop (PathMessage.splitSpanTail message).hopId = some ptr ∧
      ptr.hop.terminalHop = true

theorem length_inner_splitSpanTail : (PathMessage.splitSpanTail message).inner.length =
      message.length - encryptPathMessageOverhead := by
  simp [PathMessage.splitSpanTail]

theorem defined_handleSessionMessageTerminal_eq_none_iff :
    (handleSessionMessageTerminal suite router ptr hopId nonce message msgtype
        control).defined = none ↔ message.length < 4 + 16 := by
  unfold handleSessionMessageTerminal
  by_cases hshort : message.length < 4 + 16
  · simp [hshort, SessionOutcome.defined]
  · refine iff_of_false ?_ hshort
    rw [if_neg hshort]
    dsimp only
    split
    · split
      · simp [SessionOutcome.defined]
      · simp [SessionOutcome.defined]
    · split
      · simp [SessionOutcome.defined]
      · simp [SessionOutcome.defined]

theorem defined_handleSessionMessage_eq_none_iff :
    (handleSessionMessage suite router message control).defined = none ↔
      ShortAtTerminal router message := by
  unfold handleSessionMessage extractPathMessageMetadata ShortAtTerminal
  by_cases hlong : message.length < minPathDataMessageSize
  · simp [hlong, SessionOutcome.defined, Nat.not_le.mpr hlong]
  · rw [if_neg hlong]
    dsimp only
    cases hnode : router.isServiceNode with
    | false => simp [defined_handleSessionMessageClient]
    | true =>
      rw [if_pos rfl]
      unfold handleSessionMessageRelay
      cases hhop : router.pathContext.getTransitHop
          (PathMessage.splitSpanTail message).hopId with
      | none => simp [SessionOutcome.defined]
      | some ptr =>
        dsimp only
        cases hterminal : ptr.hop.terminalHop with
        | false => simp [SessionOutcome.defined, hterminal]
        | true =>
          rw [if_pos rfl, defined_handleSessionMessageTerminal_eq_none_iff,
            Crypto.length_xchacha20, length_inner_splitSpanTail]
          simp only [Option.some.injEq, exists_eq_left', hterminal, and_true, true_and,
            minPathDataMessageSize, encryptPathMessageOverhead] at hlong ⊢
          omega

theorem inBounds_handleSessionMessageSpans_iff :
    (handleSessionMessageSpans suite router message control).InBounds ↔
      ¬ ShortAtTerminal router message := by
  rw [inBounds_iff_result_ne_none, result_handleSessionMessageSpans, ne_eq,
    defined_handleSessionMessage_eq_none_iff]

theorem handleSessionMessageSpans_of_short {message : Bytes}
    (h : message.length < minPathDataMessageSize) :
    handleSessionMessageSpans suite router message control = pure .dropped := by
  unfold handleSessionMessageSpans extractPathMessageMetadataSpans
  rw [if_pos h]
  rfl

/-- Every split of the handler fits its span, and shorter messages are dropped before any split,
exactly if the message is not one of 58 to 60 bytes for a path that ends at this relay. -/
theorem sessionMessage_splits_fit_iff (suite : CipherSuite) (router : Router) (message : Bytes)
    (control : Bool) :
    ((∀ split ∈ (handleSessionMessageSpans suite router message control).splits, split.Fits) ∧
      (message.length < minPathDataMessageSize →
        (handleSessionMessageSpans suite router message control).splits = [] ∧
        handleSessionMessage suite router message control = .dropped)) ↔
      ¬ ShortAtTerminal router message := by
  rw [← @inBounds_handleSessionMessageSpans_iff suite router control message]
  refine and_iff_left fun hshort => ⟨?_, ?_⟩
  · rw [handleSessionMessageSpans_of_short hshort]
    rfl
  · unfold handleSessionMessage extractPathMessageMetadata
    rw [if_pos hshort]

theorem sessionMessage_split_too_long :
    let message := PathMessage.encode
      ⟨List.replicate 17 0, FixedBytes.zero 24, Meeting.sndPivot.rxid, MessageType.data⟩
    message.length = 58 ∧
      ⟨17, 20⟩ ∈ (handleSessionMessageSpans Meeting.suite
        (Meeting.relay 2 [Meeting.sndPivot, Meeting.rcvPivot]) message false).splits ∧
      ¬ ∀ split ∈ (handleSessionMessageSpans Meeting.suite
        (Meeting.relay 2 [Meeting.sndPivot, Meeting.rcvPivot]) message false).splits,
          split.Fits := by
  intro message
  have hmem : ⟨17, 20⟩ ∈ (handleSessionMessageSpans Meeting.suite
      (Meeting.relay 2 [Meeting.sndPivot, Meeting.rcvPivot]) message false).splits := by
    decide +kernel
  exact ⟨by decide, hmem, fun hall => absurd (hall _ hmem) (by decide)⟩

end Link
end SessionRouter
