import SessionRouter.Crypto.KeyExchange
import SessionRouter.Lib.Bencode

/-!
# The session handshake
-/

namespace SessionRouter

open Lib Bencode

abbrev MLKEM768PubKey := FixedBytes 1184
abbrev MLKEM768SecKey := FixedBytes 2400
abbrev MLKEM768Ciphertext := FixedBytes 1088
abbrev MLKEMSharedSecret := FixedBytes 32

structure MLKEM768KeyPair where
  pub : MLKEM768PubKey
  sec : MLKEM768SecKey
  deriving DecidableEq

/-- The primitives of the handshake. -/
structure SessionSuite extends CryptoSuite where
  mlkemKeygen : FixedBytes 64 → MLKEM768KeyPair
  mlkemEncapsulate : MLKEM768PubKey → FixedBytes 32 → MLKEM768Ciphertext × MLKEMSharedSecret
  mlkemDecapsulate : MLKEM768SecKey → MLKEM768Ciphertext → Option MLKEMSharedSecret
  edSign : Ed25519SecretKey → Bytes → Signature
  boxSeal : X25519PubKey → FixedBytes 32 → Bytes → Option Bytes
  boxSealOpen : X25519SecKey → Bytes → Option Bytes

def sealBytes : Nat := 48

structure SessionSuite.Lawful (suite : SessionSuite) : Prop extends
    suite.toCryptoSuite.Lawful where
  decapsulate_encapsulate : ∀ seed draw,
    suite.mlkemDecapsulate (suite.mlkemKeygen seed).sec
        (suite.mlkemEncapsulate (suite.mlkemKeygen seed).pub draw).1 =
      some (suite.mlkemEncapsulate (suite.mlkemKeygen seed).pub draw).2
  verify_sign : ∀ key message,
    suite.edVerify (suite.edPublic key) message (suite.edSign key message) = true
  open_seal : ∀ key draw message box, suite.boxSeal (suite.xPublic key) draw message = some box →
    suite.boxSealOpen key box = some message
  length_seal : ∀ key draw message box, suite.boxSeal key draw message = some box →
    box.length = message.length + sealBytes

section

variable (suite : SessionSuite)

def sealBox (pk : PubKey) (draw : FixedBytes 32) (message : Bytes) : Option Bytes := do
  let xpk ← suite.edPublicToX pk
  suite.boxSeal xpk draw message

def unsealBox (sk : Ed25519SecretKey) (ciphertext : Bytes) : Option Bytes :=
  if ciphertext.length < sealBytes then none
  else suite.boxSealOpen (suite.edSecretToX sk) ciphertext

def sessionSecret (initiator receiver : RouterID) (a : X25519SecKey) (b : X25519PubKey)
    (isInitiator : Bool) (ks : MLKEMSharedSecret) (m : MLKEM768PubKey)
    (tagI tagR : SessionTag) : Option (SymmKey × SymmKey) :=
  let contextHash := suite.blake2b 64 (ascii "srouter session context") []
    (initiator.data ++ receiver.data ++ storeLittle 4 tagI.toNat ++ storeLittle 4 tagR.toNat)
  let pub := suite.xPublic a
  let x := if isInitiator then pub else b
  let y := if isInitiator then b else pub
  (suite.xScalarmult a b).map fun product =>
    let secret := suite.blake2b 64 contextHash.data []
      (product.data ++ x.data ++ y.data ++ ks.data ++ m.data)
    let k1 := FixedBytes.ofBytes 32 secret.data
    let k2 := FixedBytes.ofBytes 32 (secret.data.drop 32)
    if isInitiator then (k2, k1) else (k1, k2)

variable {suite}

theorem unsealBox_sealBox (hlaw : suite.Lawful) {sk : Ed25519SecretKey} {draw : FixedBytes 32}
    {message box : Bytes} (hbox : sealBox suite (suite.edPublic sk) draw message = some box) :
    unsealBox suite sk box = some message := by
  unfold sealBox at hbox
  rw [hlaw.edPublicToX_edPublic] at hbox
  have hseal : suite.boxSeal (suite.xPublic (suite.edSecretToX sk)) draw message = some box := hbox
  have hlong : ¬ box.length < sealBytes := by
    rw [hlaw.length_seal _ _ _ _ hseal]
    omega
  rw [unsealBox, if_neg hlong, hlaw.open_seal _ _ _ _ hseal]

theorem sessionSecret_swap (hlaw : suite.Lawful) (initiator receiver : RouterID)
    (x y : X25519SecKey) (ks : MLKEMSharedSecret) (m : MLKEM768PubKey) (tagI tagR : SessionTag) :
    sessionSecret suite initiator receiver x (suite.xPublic y) true ks m tagI tagR =
      (sessionSecret suite initiator receiver y (suite.xPublic x) false ks m tagI tagR).map
        Prod.swap := by
  simp [sessionSecret, hlaw.x_symm x y, Function.comp_def]

end

structure OutboundSession where
  remote : RouterID
  inboundTag : SessionTag
  outboundTag : SessionTag
  inboundKey : Option SymmKey
  outboundKey : Option SymmKey
  isEstablished : Bool
  sessionMlkem756 : Option MLKEM768KeyPair
  sessionX25519 : Option X25519SecKey
  pendingSharedSecret : Option SymmKey
  sharedSecret : Option SymmKey
  deriving DecidableEq

structure InitDraw where
  mlkemSeed : FixedBytes 64
  x25519 : X25519SecKey
  box : FixedBytes 32
  dhKey : Ed25519SecretKey
  dhNonce : SymmNonce

inductive AcceptOutcome where
  | ignored
  | rejected
  | failed
  | established
  deriving DecidableEq

structure AcceptFields where
  remoteEphXpk : X25519PubKey
  remoteMlct : MLKEM768Ciphertext
  tag : SessionTag
  message : Bytes
  signature : Signature

def AcceptFields.parse (inner : Bytes) : Option AcceptFields := do
  let c ← DictConsumer.ofBytes inner
  let (remoteEphXpk, c) ← c.require (readFixed 32) (ascii "Y")
  let (remoteMlct, c) ← c.require (readFixed 1088) (ascii "c")
  let (tag, c) ← c.require (readUnsigned 32) (ascii "t")
  let ((message, sig), c) ← c.requireSignature inner (ascii "~")
  let signature ← FixedBytes.ofBytes? 64 sig
  if c.finish then
    return { remoteEphXpk, remoteMlct, tag := UInt32.ofNat tag, message, signature }
  else none

namespace OutboundSession

variable (suite : SessionSuite) (self : Ed25519SecretKey)

def initEntries (s : OutboundSession) (mlkem : MLKEM768KeyPair) (x25519 : X25519SecKey)
    (hop : HopID) : List (Bytes × Bytes) :=
  [(ascii "I", encodeString (suite.edPublic self).data), (ascii "M", encodeString mlkem.pub.data),
    (ascii "X", encodeString (suite.xPublic x25519).data), (ascii "p", encodeString hop.data),
    (ascii "t", encodeInt s.inboundTag.toNat)]

def initInner (s : OutboundSession) (mlkem : MLKEM768KeyPair) (x25519 : X25519SecKey)
    (hop : HopID) : Bytes :=
  encodeSigned (s.initEntries suite self mlkem x25519 hop) (ascii "~")
    fun message => (suite.edSign self message).data

def initInnerOld (s : OutboundSession) (hop : HopID) : Bytes :=
  encodeSigned
    [(ascii "i", encodeString (suite.edPublic self).data), (ascii "p", encodeString hop.data),
      (ascii "t", encodeInt s.inboundTag.toNat)]
    (ascii "~") fun message => (suite.edSign self message).data

def makeSessionInit (s : OutboundSession) (hop : HopID) (draw : InitDraw) :
    OutboundSession × Option Bytes :=
  let mlkem := suite.mlkemKeygen draw.mlkemSeed
  ({ s with sessionMlkem756 := some mlkem, sessionX25519 := some draw.x25519 },
    (sealBox suite s.remote draw.box (initInner suite self s mlkem draw.x25519 hop)).map
      fun box => encodeDict [([], encodeString (ascii "i")), (ascii "B", encodeString box)])

def makeSessionInitOld (s : OutboundSession) (hop : HopID) (draw : InitDraw) :
    OutboundSession × Option Bytes :=
  let s := { s with sessionMlkem756 := none, sessionX25519 := none }
  match Crypto.dhClient suite.toCryptoSuite s.remote draw.dhKey draw.dhNonce with
  | none => ({ s with pendingSharedSecret := some (FixedBytes.zero 32) }, none)
  | some secret =>
    let inner := initInnerOld suite self s hop ++ List.replicate Crypto.tagSize 0
    ({ s with pendingSharedSecret := some secret },
      some (encodeDict
        [(ascii "k", encodeString (suite.edPublic draw.dhKey).data),
          (ascii "n", encodeString draw.dhNonce.data),
          (ascii "x", encodeString (Crypto.xchacha20Poly1305EncryptInplace suite.toCipherSuite
            inner secret draw.dhNonce []))]))

def openAccept (s : OutboundSession) (payload : DictConsumer) : Option AcceptFields := do
  let (box, c) ← payload.require readString (ascii "B")
  if c.finish then
    let inner ← unsealBox suite self box
    let accept ← AcceptFields.parse inner
    if suite.edVerify s.remote accept.message accept.signature then return accept
    else none
  else none

def acceptKeys (s : OutboundSession) (mlkem : MLKEM768KeyPair) (x25519 : X25519SecKey)
    (accept : AcceptFields) : Option (SymmKey × SymmKey) := do
  let mlss ← suite.mlkemDecapsulate mlkem.sec accept.remoteMlct
  sessionSecret suite (suite.edPublic self) s.remote x25519 accept.remoteEphXpk true mlss mlkem.pub
    s.inboundTag accept.tag

def handleSessionAccept (s : OutboundSession) (payload : DictConsumer) :
    OutboundSession × AcceptOutcome :=
  match s.sessionMlkem756, s.sessionX25519 with
  | some mlkem, some x25519 =>
    match openAccept suite self s payload with
    | none => (s, .rejected)
    | some accept =>
      match acceptKeys suite self s mlkem x25519 accept with
      | none => ({ s with isEstablished := false, outboundTag := 0 }, .failed)
      | some (keyIn, keyOut) =>
        ({ s with
            outboundTag := accept.tag
            inboundKey := some keyIn
            outboundKey := some keyOut
            isEstablished := true
            sessionMlkem756 := none
            sessionX25519 := none }, .established)
  | _, _ => (s, .ignored)

def handleHandshake (s : OutboundSession) (message : Bytes) : OutboundSession × AcceptOutcome :=
  let hsType : Option (Bytes × DictConsumer) := do
    let c ← DictConsumer.ofBytes message
    c.require readString []
  match hsType with
  | some (hsType, c) =>
    if hsType = ascii "a" then s.handleSessionAccept suite self c else (s, .ignored)
  | none => (s, .ignored)

def handleSessionAcceptDeprecated (s : OutboundSession) (params : Bytes) : OutboundSession :=
  match s.pendingSharedSecret with
  | none => s
  | some secret =>
    let s := { s with
      sharedSecret := some secret, pendingSharedSecret := none
      isEstablished := false, outboundTag := 0 }
    let tag : Option Nat := do
      let c ← DictConsumer.ofBytes params
      let (tag, c) ← c.require (readUnsigned 32) (ascii "t")
      if c.finish then return tag else none
    match tag with
    | none => s
    | some tag => { s with outboundTag := UInt32.ofNat tag, isEstablished := true }

end OutboundSession

structure InboundSession where
  remote : RouterID
  remotePivotTxid : HopID
  inboundTag : SessionTag
  outboundTag : SessionTag
  inboundKey : SymmKey
  outboundKey : SymmKey
  acceptMsg : Bytes
  deriving DecidableEq

/-- What the responder draws at random. -/
structure AcceptDraw where
  x25519 : X25519SecKey
  encapsulation : FixedBytes 32
  box : FixedBytes 32

structure InitFields where
  remote : RouterID
  remoteEphMlkem : MLKEM768PubKey
  remoteEphXpk : X25519PubKey
  remotePivotTxid : HopID
  outboundTag : SessionTag
  message : Bytes
  signature : Signature

def InitFields.parse (inner : Bytes) : Option InitFields := do
  let c ← DictConsumer.ofBytes inner
  let (remote, c) ← c.require (readFixed 32) (ascii "I")
  let (remoteEphMlkem, c) ← c.require (readFixed 1184) (ascii "M")
  let (remoteEphXpk, c) ← c.require (readFixed 32) (ascii "X")
  let (remotePivotTxid, c) ← c.require (readFixed 16) (ascii "p")
  let (outboundTag, c) ← c.require (readUnsigned 32) (ascii "t")
  let ((message, sig), c) ← c.requireSignature inner (ascii "~")
  let signature ← FixedBytes.ofBytes? 64 sig
  if c.finish then
    return {
      remote, remoteEphMlkem, remoteEphXpk, remotePivotTxid
      outboundTag := UInt32.ofNat outboundTag, message, signature }
  else none

namespace InboundSession

variable (suite : SessionSuite) (self : Ed25519SecretKey)

def acceptEntries (x25519 : X25519SecKey) (mlct : MLKEM768Ciphertext) (tag : SessionTag) :
    List (Bytes × Bytes) :=
  [(ascii "Y", encodeString (suite.xPublic x25519).data), (ascii "c", encodeString mlct.data),
    (ascii "t", encodeInt tag.toNat)]

def acceptInner (x25519 : X25519SecKey) (mlct : MLKEM768Ciphertext) (tag : SessionTag) : Bytes :=
  encodeSigned (acceptEntries suite x25519 mlct tag) (ascii "~")
    fun message => (suite.edSign self message).data

def answer (request : InitFields) (draw : AcceptDraw) (nextTag : SessionTag) :
    Option InboundSession := do
  let encapsulated := suite.mlkemEncapsulate request.remoteEphMlkem draw.encapsulation
  let (inboundKey, outboundKey) ← sessionSecret suite request.remote (suite.edPublic self)
    draw.x25519 request.remoteEphXpk false encapsulated.2 request.remoteEphMlkem
    request.outboundTag nextTag
  let box ← sealBox suite request.remote draw.box
    (acceptInner suite self draw.x25519 encapsulated.1 nextTag)
  return {
    remote := request.remote
    remotePivotTxid := request.remotePivotTxid
    inboundTag := nextTag
    outboundTag := request.outboundTag
    inboundKey, outboundKey
    acceptMsg := encodeDict [([], encodeString (ascii "a")), (ascii "B", encodeString box)] }

def init (request : Bytes) (draw : AcceptDraw) (nextTag : SessionTag) : Option InboundSession := do
  let c ← DictConsumer.ofBytes request
  let (initType, c) ← c.require readString []
  if initType = ascii "i" then
    let (box, _) ← c.require readString (ascii "B")
    let inner ← unsealBox suite self box
    let request ← InitFields.parse inner
    if suite.edVerify request.remote request.message request.signature then
      answer suite self request draw nextTag
    else none
  else none

end InboundSession

section

variable {suite : SessionSuite} {self : Ed25519SecretKey}

theorem readTag_entry (tag : SessionTag) (key rest : Bytes) :
    DictConsumer.require (readUnsigned 32) key
        ⟨none, encodeString key ++ (encodeInt tag.toNat ++ rest)⟩ =
      some (tag.toNat, ⟨none, rest⟩) :=
  DictConsumer.require_readUnsigned_entry tag.toNat_lt key rest

variable (suite self) in
def AcceptFields.made (x25519 : X25519SecKey) (mlct : MLKEM768Ciphertext) (tag : SessionTag) :
    AcceptFields :=
  let message := 0x64 :: encodeEntries (InboundSession.acceptEntries suite x25519 mlct tag)
  { remoteEphXpk := suite.xPublic x25519
    remoteMlct := mlct
    tag
    message
    signature := suite.edSign self message }

theorem AcceptFields.parse_acceptInner (x25519 : X25519SecKey) (mlct : MLKEM768Ciphertext)
    (tag : SessionTag) :
    AcceptFields.parse (InboundSession.acceptInner suite self x25519 mlct tag) =
      some (AcceptFields.made suite self x25519 mlct tag) := by
  unfold AcceptFields.parse
  rw [InboundSession.acceptInner, DictConsumer.ofBytes_encodeSigned]
  rw [InboundSession.acceptEntries]
  simp only [encodeEntries_cons_append, encodeEntries_nil_append, Option.bind_eq_bind,
    Option.bind_some, DictConsumer.require_readFixed_entry, readTag_entry]
  rw [DictConsumer.requireSignature_encodeSigned]
  simp [AcceptFields.made, InboundSession.acceptEntries]

variable (suite self) in
def InitFields.made (s : OutboundSession) (mlkem : MLKEM768KeyPair) (x25519 : X25519SecKey)
    (hop : HopID) : InitFields :=
  let message := 0x64 :: encodeEntries (s.initEntries suite self mlkem x25519 hop)
  { remote := suite.edPublic self
    remoteEphMlkem := mlkem.pub
    remoteEphXpk := suite.xPublic x25519
    remotePivotTxid := hop
    outboundTag := s.inboundTag
    message
    signature := suite.edSign self message }

theorem InitFields.parse_initInner (s : OutboundSession) (mlkem : MLKEM768KeyPair)
    (x25519 : X25519SecKey) (hop : HopID) :
    InitFields.parse (s.initInner suite self mlkem x25519 hop) =
      some (InitFields.made suite self s mlkem x25519 hop) := by
  unfold InitFields.parse
  rw [OutboundSession.initInner, DictConsumer.ofBytes_encodeSigned]
  rw [OutboundSession.initEntries]
  simp only [encodeEntries_cons_append, encodeEntries_nil_append, Option.bind_eq_bind,
    Option.bind_some, DictConsumer.require_readFixed_entry, readTag_entry]
  rw [DictConsumer.requireSignature_encodeSigned]
  simp [InitFields.made, OutboundSession.initEntries]

end
/-- An outbound session and `_current_path`. -/
structure SessionOnPath (P : Type) extends OutboundSession where
  currentPath : Option P

namespace SessionOnPath

variable {P : Type}

variable (suite : SessionSuite) (self : Ed25519SecretKey)

def handleSessionAccept (s : SessionOnPath P) (payload : DictConsumer) : SessionOnPath P :=
  { s with
    toOutboundSession := (s.toOutboundSession.handleSessionAccept suite self payload).1 }

variable {suite self}

end SessionOnPath
end SessionRouter
