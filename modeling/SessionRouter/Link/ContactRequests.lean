import SessionRouter.Contact.ClientContact
import SessionRouter.Link.Endpoint
import SessionRouter.Link.PathBuild
import SessionRouter.NodeDB.Buckets
import SessionRouter.NodeDB.Closest

/-!
# Publishing and finding client contacts
-/

namespace SessionRouter

open Lib Bencode NodeDB

abbrev ContactDB := Table PubKey (Bytes × Int)

namespace ContactDB

def getEncryptedCc (db : ContactDB) (blindedKey : PubKey) (now : Int) : Option Bytes :=
  match db.find blindedKey with
  | none => none
  | some (record, signedAt) =>
    if signedAt + Link.maxLifetimeAccepted ≤ now then none else some record

def putCc (suite : CryptoSuite) (db : ContactDB) (enccc : Bytes) : Option (ContactDB × Bool) := do
  let c ← DictConsumer.ofBytes enccc
  let (blindedPk, c) ← c.require (readFixed 32) (ascii "i")
  let (_, c) ← c.require (readFixed 24) (ascii "n")
  let (signedAt, c) ← c.require readInt64 (ascii "t")
  if (db.find blindedPk).any fun stored => signedAt ≤ stored.2 then
    return (db, false)
  else
    let (_, c) ← c.require readString (ascii "x")
    let ((message, sig), _) ← c.requireSignature enccc (ascii "~")
    let signature ← FixedBytes.ofBytes? 64 sig
    if suite.edVerify blindedPk message signature then
      return (db.insertOrAssign blindedPk (enccc, signedAt), true)
    else none

end ContactDB

def ccPublishLocations : Int := 4

/-- A relay, as far as path requests are concerned. -/
structure RelayNode where
  id : RouterID
  endpoint : Endpoint
  registered : RegisteredRelays
  contacts : ContactDB
  rcHashes : Fin 128 → Table RouterID RCHash
  rcBucketHashes : Fin 128 → RCHash
  oxend : Bool

inductive ForwardHandler where
  | publishCc
  | findCc
  deriving DecidableEq

def ForwardHandler.response (handler : ForwardHandler) (msg : Message) : Bytes :=
  match handler with
  | .publishCc => Message.body msg
  | .findCc => if Message.timedOut msg then Messages.timeoutResponse else Message.body msg

/-- What a handler has done when it returns. -/
inductive RequestOutcome where
  | responded (response : Bytes)
  | letGo
  | sendCommand (rid : RouterID) (name body : Bytes) (handler : ForwardHandler)
  | sendCommands (remaining : Nat) (rids : List RouterID) (name body : Bytes)
  | lookupSnsHash (nameHash : Bytes)
  | threw
  | outOfBounds
  deriving DecidableEq

/-- What `handle_publish_cc` reads from a request. -/
structure PublishRequest where
  encCc : Bytes
  location : Int
  blindedPk : PubKey
  signedAt : Int

def readInt32 : Bytes → Option (Int × Bytes) :=
  readIntIn (-2 ^ 31) (2 ^ 31 - 1)

def PublishRequest.parse (body : Bytes) : Option PublishRequest := do
  let c ← DictConsumer.ofBytes body
  let (encCc, c) ← c.require readString (ascii "e")
  let (location, _) ← c.require readInt32 (ascii "n")
  let c ← DictConsumer.ofBytes encCc
  let (blindedPk, c) ← c.require (readFixed 32) (ascii "i")
  let (signedAt, _) ← c.require readInt64 (ascii "t")
  return { encCc, location, blindedPk, signedAt }

/-- What `handle_find_cc` reads from a request. -/
structure FindRequest where
  blindedPk : PubKey
  index : Option Int

def FindRequest.parse (body : Bytes) : Option FindRequest := do
  let c ← DictConsumer.ofBytes body
  let (blindedPk, c) ← c.require (readFixed 32) (ascii "k")
  let (index, _) ← c.maybe readInt32 (ascii "n")
  return { blindedPk, index }

namespace RelayNode

variable (suite : CryptoSuite)

def storeIt (node : RelayNode) (encCc : Bytes) : RelayNode × RequestOutcome :=
  match node.contacts.putCc suite encCc with
  | some (contacts, _) => ({ node with contacts }, .responded Messages.okResponse)
  | none => (node, .responded Messages.errorResponse)

def publishForClient (node : RelayNode) (request : PublishRequest) (body : Bytes)
    (closestRids : List RouterID) : RelayNode × RequestOutcome :=
  if request.location < 0 ∨ ccPublishLocations ≤ request.location then
    (node, .responded (Messages.serializeStatusResponse
      (if request.location ≠ 0 then ascii "INVALID PUBLISH LOCATION"
        else ascii "MISSING PUBLISH LOCATION")))
  else
    match closestRids[request.location.toNat]? with
    | none => (node, .outOfBounds)
    | some rid =>
      if rid = node.id then node.storeIt suite request.encCc
      else (node, .sendCommand rid (ascii "publish_cc") body .publishCc)

def handlePublishCc (node : RelayNode) (body : Bytes) (sourceIsRelay : Bool) (now : Int) :
    RelayNode × RequestOutcome :=
  match PublishRequest.parse body with
  | none => (node, .responded Messages.errorResponse)
  | some request =>
    if request.signedAt < now - Link.maxLifetimeAccepted then
      (node, .responded Messages.expiredResponse)
    else if now + 10 * 60 * 1000 < request.signedAt then
      (node, .responded Messages.futureResponse)
    else if !node.endpoint.isServiceNode then (node, .letGo)
    else
      let closestRids :=
        findManyClosestTo node.registered request.blindedPk (ccPublishLocations + 1)
      if closestRids.length < ccPublishLocations then
        (node, .responded (Messages.serializeStatusResponse (ascii "No RCs available!")))
      else if !sourceIsRelay then node.publishForClient suite request body closestRids
      else if node.id ∈ closestRids then node.storeIt suite request.encCc
      else (node, .responded Messages.errorResponse)

def localCc (node : RelayNode) (blindedPk : PubKey) (now : Int) : Option Bytes :=
  (node.contacts.getEncryptedCc blindedPk now).map fun record =>
    encodeDict [(ascii "!", encodeString (ascii "OK")), (ascii "x", encodeString record)]

def localCcOrFail (node : RelayNode) (blindedPk : PubKey) (now : Int) : RequestOutcome :=
  .responded ((node.localCc blindedPk now).getD Messages.notFoundResponse)

def relayFindCc (blindedPk : PubKey) : Bytes :=
  encodeDict [(ascii "k", encodeString blindedPk.data)]

def findAt (node : RelayNode) (blindedPk : PubKey) (lookupIndex : Int) (now : Int)
    (closestRids : List RouterID) : RequestOutcome :=
  match closestRids[lookupIndex.toNat]? with
  | none => .outOfBounds
  | some lookupRid =>
    if lookupRid = node.id then node.localCcOrFail blindedPk now
    else .sendCommand lookupRid (ascii "find_cc") (relayFindCc blindedPk) .findCc

def findAnywhere (node : RelayNode) (blindedPk : PubKey) (now : Int)
    (closestRids : List RouterID) : RequestOutcome :=
  let authoritative := closestRids.count node.id
  match if authoritative ≠ 0 then node.localCc blindedPk now else none with
  | some response => .responded response
  | none =>
    .sendCommands (closestRids.length - authoritative) (closestRids.filter (· ≠ node.id))
      (ascii "find_cc") (relayFindCc blindedPk)

def handleFindCc (node : RelayNode) (body : Bytes) (sourceIsRelay : Bool) (now : Int) :
    RequestOutcome :=
  match FindRequest.parse body with
  | none => .responded Messages.errorResponse
  | some request =>
    let lookupIndex := request.index.getD (-1)
    if sourceIsRelay then node.localCcOrFail request.blindedPk now
    else
      let closestRids := findManyClosestTo node.registered request.blindedPk ccPublishLocations
      if closestRids.length < ccPublishLocations then .responded Messages.errorResponse
      else if 0 ≤ lookupIndex then node.findAt request.blindedPk lookupIndex now closestRids
      else node.findAnywhere request.blindedPk now closestRids

def IsFresh (signedAt now : Int) : Prop :=
  now - Link.maxLifetimeAccepted ≤ signedAt ∧ signedAt ≤ now + 10 * 60 * 1000

def PublishesTo (registered : RegisteredRelays) (blindedPk : PubKey) (location : Int)
    (rid : RouterID) : Prop :=
  ∀ (node : RelayNode) (body : Bytes) (request : PublishRequest) (now : Int),
    node.registered = registered → node.endpoint.isServiceNode = true →
    PublishRequest.parse body = some request → request.blindedPk = blindedPk →
    request.location = location → IsFresh request.signedAt now →
    node.handlePublishCc suite body false now =
      if rid = node.id then node.storeIt suite request.encCc
      else (node, .sendCommand rid (ascii "publish_cc") body .publishCc)

def FindsAt (registered : RegisteredRelays) (blindedPk : PubKey) (location : Int)
    (rid : RouterID) : Prop :=
  ∀ (node : RelayNode) (body : Bytes) (now : Int), node.registered = registered →
    FindRequest.parse body = some ⟨blindedPk, some location⟩ →
    node.handleFindCc body false now =
      if rid = node.id then node.localCcOrFail blindedPk now
      else .sendCommand rid (ascii "find_cc") (relayFindCc blindedPk) .findCc

def StoredBy (registered : RegisteredRelays) (blindedPk : PubKey) (holders : List RouterID) :
    Prop :=
  ∀ (node : RelayNode) (body : Bytes) (request : PublishRequest) (now : Int),
    node.registered = registered → node.endpoint.isServiceNode = true →
    PublishRequest.parse body = some request → request.blindedPk = blindedPk →
    IsFresh request.signedAt now →
    node.handlePublishCc suite body true now =
      if node.id ∈ holders then node.storeIt suite request.encCc
      else (node, .responded Messages.errorResponse)

variable {suite}

theorem handlePublishCc_of_isFresh {node : RelayNode} {body : Bytes} {request : PublishRequest}
    {now : Int} (hnode : node.endpoint.isServiceNode = true)
    (hparse : PublishRequest.parse body = some request) (hfresh : IsFresh request.signedAt now)
    (hmany : 4 ≤ node.registered.relays.length) (sourceIsRelay : Bool) :
    node.handlePublishCc suite body sourceIsRelay now =
      let closestRids := findManyClosestTo node.registered request.blindedPk 5
      if !sourceIsRelay then node.publishForClient suite request body closestRids
      else if node.id ∈ closestRids then node.storeIt suite request.encCc
      else (node, .responded Messages.errorResponse) := by
  have henough : ¬ ((findManyClosestTo node.registered request.blindedPk 5).length : Int) <
      ccPublishLocations := by
    rw [length_findManyClosestTo, ccPublishLocations]
    omega
  obtain ⟨hold, hahead⟩ := hfresh
  rw [handlePublishCc, hparse]
  dsimp only
  rw [if_neg (by omega), if_neg (by omega), hnode, if_neg (by simp)]
  exact if_neg henough

theorem publishesTo_closest {registered : RegisteredRelays} {blindedPk : PubKey} {i : Nat}
    (hmany : 4 ≤ registered.relays.length) (hi : i < 4) {rid : RouterID}
    (hrid : (findManyClosestTo registered blindedPk 5)[i]? = some rid) :
    PublishesTo suite registered blindedPk i rid := by
  rintro node body request now rfl hnode hparse rfl hlocation hfresh
  rw [handlePublishCc_of_isFresh hnode hparse hfresh hmany]
  simp only [Bool.not_false, if_true, publishForClient, hlocation]
  rw [if_neg (by unfold ccPublishLocations; omega), Int.toNat_natCast, hrid]

theorem findsAt_closest {registered : RegisteredRelays} {blindedPk : PubKey} {i : Nat}
    (hmany : 4 ≤ registered.relays.length) {rid : RouterID}
    (hrid : (findManyClosestTo registered blindedPk 4)[i]? = some rid) :
    FindsAt registered blindedPk i rid := by
  rintro node body now rfl hparse
  have henough : ¬ ((findManyClosestTo node.registered blindedPk ccPublishLocations).length : Int) <
      ccPublishLocations := by
    rw [length_findManyClosestTo, ccPublishLocations]
    omega
  rw [handleFindCc, hparse]
  simp only [Option.getD_some, Bool.false_eq_true, if_false, henough, Int.natCast_nonneg, if_true,
    findAt, Int.toNat_natCast]
  have hrid : (findManyClosestTo node.registered blindedPk ccPublishLocations)[i]? = some rid :=
    hrid
  rw [hrid]

theorem storedBy_closest {registered : RegisteredRelays} {blindedPk : PubKey}
    (hmany : 4 ≤ registered.relays.length) :
    StoredBy suite registered blindedPk (findManyClosestTo registered blindedPk 5) := by
  rintro node body request now rfl hnode hparse rfl hfresh
  rw [handlePublishCc_of_isFresh hnode hparse hfresh hmany]
  rfl

variable (suite) in
structure PlacementAgrees (registered registered' : RegisteredRelays) (blindedPk : PubKey) :
    Prop where
  location : ∀ i : Nat, i < 4 → ∃ rid, PublishesTo suite registered blindedPk i rid ∧
    FindsAt registered' blindedPk i rid
  totalOrder : IsStrictTotalOrder RouterID (closer blindedPk)
  length_closest : ∀ k : Int, (findManyClosestTo registered blindedPk k).length =
    min k.toNat registered.relays.length
  mem_closest : ∀ k, ∀ rid ∈ findManyClosestTo registered blindedPk k, rid ∈ registered.relays
  sorted : ∀ k, (findManyClosestTo registered blindedPk k).Pairwise (closer blindedPk)
  smallest : ∀ k, ∀ rid ∈ findManyClosestTo registered blindedPk k, ∀ other ∈ registered.relays,
    other ∉ findManyClosestTo registered blindedPk k → closer blindedPk rid other
  anyOrder : ∀ k, findManyClosestTo registered blindedPk k =
    findManyClosestTo registered' blindedPk k
  isPrefix : ∀ k k', k ≤ k' →
    findManyClosestTo registered blindedPk k <+: findManyClosestTo registered blindedPk k'
  stored : StoredBy suite registered' blindedPk (findManyClosestTo registered blindedPk 5)

theorem contactPlacement_agrees (suite : CryptoSuite) (registered registered' : RegisteredRelays)
    (hsame : registered.relays.Perm registered'.relays) (hmany : 4 ≤ registered.relays.length)
    (blindedPk : PubKey) : PlacementAgrees suite registered registered' blindedPk where
  location i hi := by
    have hlt : i < (findManyClosestTo registered blindedPk 4).length := by
      rw [length_findManyClosestTo]
      omega
    have hrid := List.getElem?_eq_getElem hlt
    refine ⟨(findManyClosestTo registered blindedPk 4)[i], publishesTo_closest hmany hi ?_,
      findsAt_closest (hsame.length_eq ▸ hmany) ?_⟩
    · rw [getElem?_findManyClosestTo (by decide) hlt]
      exact hrid
    · rw [← findManyClosestTo_eq_of_perm hsame]
      exact hrid
  totalOrder := inferInstance
  length_closest := length_findManyClosestTo registered blindedPk
  mem_closest k rid hrid := by
    rw [findManyClosestTo_eq_smallest] at hrid
    exact mem_of_mem_smallest hrid
  sorted k := by
    rw [findManyClosestTo_eq_smallest]
    exact smallest_sorted registered.nodup _
  smallest k rid hrid other hother hleft := by
    rw [findManyClosestTo_eq_smallest] at hrid hleft
    exact lt_of_mem_smallest hrid hother hleft
  anyOrder := findManyClosestTo_eq_of_perm hsame blindedPk
  isPrefix _ _ h := findManyClosestTo_isPrefix registered blindedPk h
  stored := by
    rw [findManyClosestTo_eq_of_perm hsame]
    exact storedBy_closest (hsame.length_eq ▸ hmany)

namespace FiveRelays

def cryptoSuite : CryptoSuite where
  stream _ _ _ := 0
  aeadStream _ _ _ := 0
  poly1305 _ _ _ _ := FixedBytes.zero 16
  edPublic key := key
  edScalarmult _ _ := none
  xPublic key := key
  xScalarmult _ _ := none
  edPublicToX _ := none
  edSecretToX key := key
  blake2b size _ _ message := FixedBytes.ofBytes size message
  edVerify _ _ _ := true
  scalarReduce n := FixedBytes.ofBytes 32 n.data
  scalarmultNoclamp _ _ := none

def registered : RegisteredRelays where
  relays := [1, 2, 3, 4, 5].map (FixedBytes.filled 32)
  nodup := by decide

def reversed : RegisteredRelays where
  relays := [5, 4, 3, 2, 1].map (FixedBytes.filled 32)
  nodup := by decide

end FiveRelays

theorem contactPlacement_agrees_five :
    PlacementAgrees FiveRelays.cryptoSuite FiveRelays.registered FiveRelays.reversed
      (FixedBytes.filled 32 7) :=
  contactPlacement_agrees FiveRelays.cryptoSuite FiveRelays.registered FiveRelays.reversed
    (by decide) (by decide) _

end RelayNode
end SessionRouter
