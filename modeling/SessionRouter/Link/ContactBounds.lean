import SessionRouter.Link.FindFanOut

/-!
# The location index of a contact request
-/

namespace SessionRouter

open Lib Bencode NodeDB

inductive ContactEndpoint where
  | publishCc
  | findCc
  deriving DecidableEq

def ContactEndpoint.index (endpoint : ContactEndpoint) (body : Bytes) : Option Int :=
  match endpoint with
  | publishCc => (PublishRequest.parse body).map PublishRequest.location
  | findCc => (FindRequest.parse body).bind FindRequest.index

def Stray (index : Int) : Prop :=
  ¬ (0 ≤ index ∧ index < 4)

namespace RelayNode

variable (suite : CryptoSuite)

def handleContact (node : RelayNode) (endpoint : ContactEndpoint) (body : Bytes)
    (sourceIsRelay : Bool) (now : Int) : RelayNode × RequestOutcome :=
  match endpoint with
  | .publishCc => node.handlePublishCc suite body sourceIsRelay now
  | .findCc => (node, node.handleFindCc body sourceIsRelay now)

def Refused (node : RelayNode) (handled : RelayNode × RequestOutcome) : Prop :=
  ∃ status, status ≠ ascii "OK" ∧
    handled = (node, .responded (Messages.serializeStatusResponse status))

def IndexChecked (node : RelayNode) (endpoint : ContactEndpoint) (body : Bytes)
    (sourceIsRelay : Bool) (now : Int) : Prop :=
  (node.handleContact suite endpoint body sourceIsRelay now).2 ≠ .outOfBounds ∧
    ∀ index, endpoint.index body = some index → Stray index →
      node.Refused (node.handleContact suite endpoint body sourceIsRelay now)

def PublishesStray (node : RelayNode) (body : Bytes) (sourceIsRelay : Bool) (now : Int) : Prop :=
  ∃ request, PublishRequest.parse body = some request ∧ Stray request.location ∧
    IsFresh request.signedAt now ∧
    (node.endpoint.isServiceNode = false ∨
      sourceIsRelay = true ∧ 4 ≤ node.registered.relays.length ∧
        node.id ∈ findManyClosestTo node.registered request.blindedPk 5 ∧
        (node.contacts.putCc suite request.encCc).isSome = true)

def FindsStray (node : RelayNode) (body : Bytes) (sourceIsRelay : Bool) (now : Int) : Prop :=
  ∃ request index, FindRequest.parse body = some request ∧ request.index = some index ∧
    Stray index ∧
    (sourceIsRelay = false ∧ 4 ≤ node.registered.relays.length ∨
      sourceIsRelay = true ∧ (node.localCc request.blindedPk now).isSome = true)

def TakesStray (node : RelayNode) (endpoint : ContactEndpoint) (body : Bytes)
    (sourceIsRelay : Bool) (now : Int) : Prop :=
  match endpoint with
  | .publishCc => node.PublishesStray suite body sourceIsRelay now
  | .findCc => node.FindsStray body sourceIsRelay now

variable {suite} {node : RelayNode} {body : Bytes} {sourceIsRelay : Bool} {now : Int}

theorem refused_status {status : Bytes} (h : status ≠ ascii "OK") :
    node.Refused (node, .responded (Messages.serializeStatusResponse status)) :=
  ⟨status, h, rfl⟩

variable (encCc : Bytes) {contacts : RelayNode} (blindedPk : PubKey)

theorem not_refused_ok (entries : List (Bytes × Bytes)) :
    ¬ node.Refused (contacts, .responded
      (encodeDict ((ascii "!", encodeString (ascii "OK")) :: entries))) := by
  rintro ⟨status, hstatus, heq⟩
  simp only [Prod.mk.injEq, RequestOutcome.responded.injEq, Messages.serializeStatusResponse,
    encodeDict, encodeEntries, List.flatMap_cons, List.flatMap_nil, List.append_nil,
    List.append_assoc, List.cons.injEq, true_and, List.append_cancel_left_eq] at heq
  have hread := congrArg readString heq.2
  rw [readString_encodeString, readString_encodeString] at hread
  exact hstatus (congrArg Prod.fst (Option.some.inj hread)).symm

theorem not_refused_okResponse : ¬ node.Refused (contacts, .responded Messages.okResponse) :=
  not_refused_ok []

theorem not_refused_of_ne {outcome : RequestOutcome}
    (h : ∀ response, outcome ≠ .responded response) : ¬ node.Refused (node, outcome) := by
  rintro ⟨status, -, heq⟩
  exact h _ (congrArg Prod.snd heq)

theorem storeIt_refused_iff :
    node.Refused (node.storeIt suite encCc) ↔ (node.contacts.putCc suite encCc).isSome = false := by
  unfold storeIt
  cases node.contacts.putCc suite encCc with
  | none => exact iff_of_true (refused_status (by decide)) rfl
  | some stored => exact iff_of_false not_refused_okResponse (by simp)

theorem storeIt_ne_outOfBounds : (node.storeIt suite encCc).2 ≠ .outOfBounds := by
  unfold storeIt
  cases node.contacts.putCc suite encCc with
  | none => simp
  | some stored => simp

variable {request : PublishRequest}

theorem publishForClient_ne_outOfBounds {closestRids : List RouterID}
    (hmany : 4 ≤ closestRids.length) :
    (node.publishForClient suite request body closestRids).2 ≠ .outOfBounds := by
  unfold publishForClient ccPublishLocations
  split
  · simp
  · next hlocation =>
    have hlt : request.location.toNat < closestRids.length := by omega
    rw [List.getElem?_eq_getElem hlt]
    dsimp only
    split
    · exact storeIt_ne_outOfBounds _
    · simp

theorem publishForClient_refused (hstray : Stray request.location) (closestRids : List RouterID) :
    node.Refused (node.publishForClient suite request body closestRids) := by
  unfold publishForClient ccPublishLocations
  rw [if_pos (by unfold Stray at hstray; omega)]
  refine refused_status ?_
  split
  · decide
  · decide

theorem handlePublishCc_refused (hparse : PublishRequest.parse body = some request)
    (h : ¬ (IsFresh request.signedAt now ∧ (node.endpoint.isServiceNode = true →
      4 ≤ node.registered.relays.length))) :
    node.Refused (node.handlePublishCc suite body sourceIsRelay now) := by
  rw [handlePublishCc, hparse]
  dsimp only
  split
  · exact refused_status (by decide)
  · split
    · exact refused_status (by decide)
    · next hold hahead =>
      have hfew : node.endpoint.isServiceNode = true ∧ ¬ 4 ≤ node.registered.relays.length := by
        unfold IsFresh at h
        by_contra hfew
        exact h ⟨⟨by omega, by omega⟩, fun hnode => by
          by_contra hmany
          exact hfew ⟨hnode, hmany⟩⟩
      have hnone : ((findManyClosestTo node.registered request.blindedPk
          (ccPublishLocations + 1)).length : Int) < ccPublishLocations := by
        rw [length_findManyClosestTo, ccPublishLocations]
        omega
      rw [hfew.1, if_neg (by simp), if_pos hnone]
      exact refused_status (by decide)

theorem handlePublishCc_of_client (hparse : PublishRequest.parse body = some request)
    (hfresh : IsFresh request.signedAt now) (hclient : node.endpoint.isServiceNode = false) :
    node.handlePublishCc suite body sourceIsRelay now = (node, .letGo) := by
  unfold IsFresh at hfresh
  rw [handlePublishCc, hparse]
  dsimp only
  rw [if_neg (by omega), if_neg (by omega), hclient, if_pos (by rfl)]

theorem publish_indexChecked_iff : node.IndexChecked suite .publishCc body sourceIsRelay now ↔
      ¬ node.PublishesStray suite body sourceIsRelay now := by
  simp only [IndexChecked, handleContact, ContactEndpoint.index, PublishesStray]
  cases hparse : PublishRequest.parse body with
  | none =>
    rw [handlePublishCc, hparse]
    simp
  | some request =>
    simp only [Option.map_some, Option.some.injEq, forall_eq', exists_eq_left']
    by_cases hadmitted : IsFresh request.signedAt now ∧ (node.endpoint.isServiceNode = true →
        4 ≤ node.registered.relays.length)
    · obtain ⟨hfresh, hmany⟩ := hadmitted
      cases hnode : node.endpoint.isServiceNode with
      | false =>
        rw [handlePublishCc_of_client hparse hfresh hnode]
        have hlet : ¬ node.Refused (node, .letGo) := not_refused_of_ne (by simp)
        simp [hfresh, hlet]
      | true =>
        have hmany := hmany hnode
        have hfive : 4 ≤ (findManyClosestTo node.registered request.blindedPk 5).length := by
          rw [length_findManyClosestTo]
          omega
        rw [handlePublishCc_of_isFresh hnode hparse hfresh hmany]
        dsimp only
        cases sourceIsRelay with
        | false =>
          refine iff_of_true ⟨publishForClient_ne_outOfBounds hfive, fun hstray =>
            publishForClient_refused hstray _⟩ (by simp)
        | true =>
          rw [if_neg (by simp)]
          by_cases hmem : node.id ∈ findManyClosestTo node.registered request.blindedPk 5
          · rw [if_pos hmem]
            simp [hfresh, hmany, hmem, storeIt_refused_iff, storeIt_ne_outOfBounds]
          · have herror : node.Refused (node, .responded Messages.errorResponse) :=
              refused_status (by decide)
            simp [hmem, herror]
    · have hrefused := @handlePublishCc_refused suite node body sourceIsRelay now request hparse
        hadmitted
      refine iff_of_true ⟨?_, fun _ => hrefused⟩ ?_
      · obtain ⟨status, -, heq⟩ := hrefused
        rw [heq]
        simp
      · rintro ⟨-, hfresh, hcase⟩
        refine hadmitted ⟨hfresh, fun hnode => ?_⟩
        rcases hcase with hclient | ⟨-, hmany, -⟩
        · rw [hnode] at hclient
          cases hclient
        · exact hmany

theorem localCcOrFail_refused_iff : node.Refused (node, node.localCcOrFail blindedPk now) ↔
      (node.localCc blindedPk now).isSome = false := by
  unfold localCcOrFail localCc
  cases node.contacts.getEncryptedCc blindedPk now with
  | none => exact iff_of_true (refused_status (by decide)) rfl
  | some record => exact iff_of_false (not_refused_ok _) (by simp)

theorem findAt_eq_outOfBounds_iff (lookupIndex : Int)
    (closestRids : List RouterID) :
    node.findAt blindedPk lookupIndex now closestRids = .outOfBounds ↔
      closestRids.length ≤ lookupIndex.toNat := by
  unfold findAt
  rw [← List.getElem?_eq_none_iff]
  cases closestRids[lookupIndex.toNat]? with
  | none => simp
  | some rid =>
    by_cases hself : rid = node.id
    · simp [hself, localCcOrFail]
    · simp [hself]

theorem findAnywhere_not_refused (closestRids : List RouterID) :
    ¬ node.Refused (node, node.findAnywhere blindedPk now closestRids) ∧
      node.findAnywhere blindedPk now closestRids ≠ .outOfBounds := by
  unfold findAnywhere localCc
  dsimp only
  split
  · next response hresponse =>
    split at hresponse
    · obtain ⟨record, -, rfl⟩ := Option.map_eq_some_iff.mp hresponse
      exact ⟨not_refused_ok _, by simp⟩
    · cases hresponse
  · exact ⟨not_refused_of_ne (by simp), by simp⟩

theorem find_indexChecked_iff : node.IndexChecked suite .findCc body sourceIsRelay now ↔
      ¬ node.FindsStray body sourceIsRelay now := by
  simp only [IndexChecked, handleContact, ContactEndpoint.index, FindsStray, handleFindCc]
  cases hparse : FindRequest.parse body with
  | none => simp
  | some request =>
    simp only [Option.bind_some, Option.some.injEq, exists_and_left, exists_eq_left']
    cases sourceIsRelay with
    | true =>
      -- the place is not looked at
      have hbounds : node.localCcOrFail request.blindedPk now ≠ .outOfBounds := by
        simp [localCcOrFail]
      simp [localCcOrFail_refused_iff, hbounds]
    | false =>
      rw [if_neg (by simp)]
      by_cases hmany : 4 ≤ node.registered.relays.length
      · have hlength : (findManyClosestTo node.registered request.blindedPk
            ccPublishLocations).length = 4 := by
          rw [length_findManyClosestTo, ccPublishLocations]
          omega
        have henough : ¬ ((findManyClosestTo node.registered request.blindedPk
            ccPublishLocations).length : Int) < ccPublishLocations := by
          rw [hlength, ccPublishLocations]
          omega
        simp only [if_neg henough, hmany, and_true, false_and, or_false,
          Bool.false_eq_true]
        have hsearch := @findAnywhere_not_refused node now request.blindedPk
          (findManyClosestTo node.registered request.blindedPk ccPublishLocations)
        cases hindex : request.index with
        | none => simp [hsearch.2]
        | some index =>
          simp only [Option.getD_some, Option.some.injEq, forall_eq', exists_eq_left']
          by_cases hneg : 0 ≤ index
          · rw [if_pos hneg, ne_eq, findAt_eq_outOfBounds_iff, hlength]
            refine ⟨fun hchecked hstray => hchecked.1 ?_, fun hplace => ⟨fun hlarge => ?_,
              fun hstray => absurd hstray hplace⟩⟩
            · unfold Stray at hstray
              omega
            · unfold Stray at hplace
              omega
          · -- a negative place is taken for none
            rw [if_neg hneg]
            refine ⟨fun hchecked hstray => hsearch.1 (hchecked.2 hstray), fun hplace =>
              absurd (fun h => hneg h.1) hplace⟩
      · have hfew : ((findManyClosestTo node.registered request.blindedPk
            ccPublishLocations).length : Int) < ccPublishLocations := by
          rw [length_findManyClosestTo, ccPublishLocations]
          omega
        have herror : node.Refused (node, .responded Messages.errorResponse) :=
          refused_status (by decide)
        simp [hfew, hmany, herror]

/-- The list of closest relays is read inside its bounds and a request with a place outside 0..3
is refused exactly if the request is not one of these: a search by a client where there are four
relays; a search or a publication by a relay that can be answered or stored here; a publication
that reaches a client. -/
theorem contactIndex_checked_iff (suite : CryptoSuite) (node : RelayNode)
    (endpoint : ContactEndpoint) (body : Bytes) (sourceIsRelay : Bool) (now : Int) :
    node.IndexChecked suite endpoint body sourceIsRelay now ↔
      ¬ node.TakesStray suite endpoint body sourceIsRelay now := by
  cases endpoint with
  | publishCc => exact publish_indexChecked_iff
  | findCc => exact find_indexChecked_iff

theorem contactIndex_four_outOfBounds :
    let body := encodeDict [(ascii "k", encodeString (FixedBytes.filled 32 7).data),
      (ascii "n", encodeInt 4)]
    ContactEndpoint.findCc.index body = some 4 ∧
      (FiveRelays.asked.handleContact FiveRelays.cryptoSuite .findCc body false 0).2 =
        .outOfBounds ∧
      ¬ FiveRelays.asked.IndexChecked FiveRelays.cryptoSuite .findCc body false 0 := by
  intro body
  have hindex : ContactEndpoint.findCc.index body = some 4 := by decide +kernel
  have houtside : (FiveRelays.asked.handleContact FiveRelays.cryptoSuite .findCc body false 0).2 =
      .outOfBounds := by
    decide +kernel
  exact ⟨hindex, houtside, fun hchecked => hchecked.1 houtside⟩

end RelayNode
end SessionRouter
