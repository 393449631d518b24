import SessionRouter.Lib.Bencode
import SessionRouter.Crypto.KeyExchange
import SessionRouter.Path.Hop

/-!
# Path build frames
-/

namespace SessionRouter

open Lib Bencode

def buildLength : Nat := 8
def buildFrameSizeV0 : Nat := 169
def buildFrameSizeV1 : Nat := 115
def buildFrameSizeMin : Nat := buildFrameSizeV1
def buildFrameSizeMax : Nat := 256
def buildFrameSize : Nat := buildFrameSizeV0

inductive TransitHopError where
  | invalidData
  | dhPubkey
  | invalidPayload
  | invalidHopId
  | hopIdUnavailable
  | invalidLifetime
  | upstreamUnreachable
  deriving DecidableEq

def TransitHopError.errorCode : TransitHopError → Bytes
  | .invalidData => ascii "INVALID DATA"
  | .dhPubkey => ascii "INVALID DH PUBKEY"
  | .invalidPayload => ascii "INVALID TRANSIT HOP PAYLOAD"
  | .invalidHopId => ascii "INVALID TRANSIT HOP IDS"
  | .hopIdUnavailable => ascii "TRANSIT HOP ID ALREADY IN USE"
  | .invalidLifetime => ascii "INVALID PATH LIFETIME"
  | .upstreamUnreachable => ascii "UPSTREAM UNREACHABLE"

/-- What the client draws at random for one hop. -/
structure BuildRandom where
  dhNonce : SymmNonce
  ephEd : Ed25519SecretKey
  ephX : X25519SecKey
  padding : FixedBytes (buildFrameSize - buildFrameSizeV1)

namespace Path

variable (suite : CryptoSuite)

def xorNonceOf (secret : SymmKey) : SymmNonce :=
  FixedBytes.ofBytes 24 (Crypto.shorthash suite secret.data).data

structure EncodedFrame where
  hop : TransitHop
  frame : Bytes
  onionNonce : SymmNonce

def framePayloadV0 (hop : TransitHop) (lifetime : Nat) : Bytes :=
  encodeDict
    [(ascii "l", encodeString (storeLittle 4 lifetime)),
     (ascii "r", encodeString hop.rxid.data),
     (ascii "t", encodeString hop.txid.data),
     (ascii "u", encodeString hop.upstream.data)]

def encodeFrameV0 (hop : TransitHop) (lifetime : Nat) (rnd : BuildRandom) :
    Option EncodedFrame :=
  match Crypto.dhClient suite hop.routerId rnd.ephEd rnd.dhNonce with
  | none => none
  | some secret =>
    let hop := { hop with sharedSecret := secret, xorNonce := xorNonceOf suite secret }
    let payload := Crypto.xchacha20 suite.toCipherSuite (framePayloadV0 hop lifetime)
      secret rnd.dhNonce
    let encoded := encodeDict
      [(ascii "k", encodeString (suite.edPublic rnd.ephEd).data),
       (ascii "n", encodeString rnd.dhNonce.data),
       (ascii "x", encodeString payload)]
    if encoded.length ≠ buildFrameSize then none
    else some ⟨hop, encoded, rnd.dhNonce ^^^ hop.xorNonce⟩

def frameRecordV1 (hop : TransitHop) (lifetime : Nat) : Bytes :=
  storeLittle 2 lifetime ++ (hop.rxid.data ++ (hop.txid.data ++ hop.upstream.data))

def frameV1Version : UInt8 := 0x01

def encodeFrameV1 (hop : TransitHop) (lifetime : Nat) (rnd : BuildRandom) :
    Option EncodedFrame :=
  match suite.edPublicToX hop.routerId with
  | none => none
  | some remote =>
    match Crypto.pathBuildSecret suite rnd.ephX remote true with
    | none => none
    | some secret =>
      let hop := { hop with sharedSecret := secret, xorNonce := xorNonceOf suite secret }
      let record := Crypto.xchacha20Poly1305EncryptInplace suite.toCipherSuite
        (frameRecordV1 hop lifetime ++ List.replicate Crypto.tagSize 0)
        secret (FixedBytes.zero 24) [frameV1Version]
      some ⟨hop,
        frameV1Version :: ((suite.xPublic rnd.ephX).data ++ (record ++ rnd.padding.data)),
        hop.xorNonce⟩

def encodeFrame (hop : TransitHop) (lifetime : Nat) (rnd : BuildRandom) : Option EncodedFrame :=
  if hop.version = 0 then
    if buildFrameSize ≠ buildFrameSizeV0 then none else encodeFrameV0 suite hop lifetime rnd
  else encodeFrameV1 suite hop lifetime rnd

def onionFrames (lifetime : Nat) :
    List (TransitHop × BuildRandom) → Option (List TransitHop × Bytes)
  | [] => some ([], [])
  | (hop, rnd) :: rest =>
    match onionFrames lifetime rest with
    | none => none
    | some (hops, following) =>
      match encodeFrame suite hop lifetime rnd with
      | none => none
      | some e =>
        some (e.hop :: hops,
          e.frame ++
            Crypto.xchacha20 suite.toCipherSuite following e.hop.sharedSecret e.onionNonce)

def pathBuildOnion (hops : List (TransitHop × BuildRandom)) (lifetime : Nat)
    (junk : Nat → UInt8) : Option (List TransitHop × Bytes) :=
  match onionFrames suite lifetime hops with
  | none => none
  | some (built, real) =>
    some (built,
      real ++ (List.range (buildFrameSize * (buildLength - hops.length))).map junk)

def parsePayloadV0 (payload : Bytes) : Option (Nat × HopID × HopID × RouterID) :=
  match DictConsumer.ofBytes payload with
  | none => none
  | some c =>
  match c.require (readFixed 4) (ascii "l") with
  | none => none
  | some (l, c) =>
  match c.require (readFixed 16) (ascii "r") with
  | none => none
  | some (rxid, c) =>
  match c.require (readFixed 16) (ascii "t") with
  | none => none
  | some (txid, c) =>
  match c.require (readFixed 32) (ascii "u") with
  | none => none
  | some (upstream, _) => some (loadLittle l.data, rxid, txid, upstream)

def parseFrameV0 (frame : Bytes) : Option (PubKey × SymmNonce × Bytes) :=
  match DictConsumer.ofBytes frame with
  | none => none
  | some c =>
  match c.require (readFixed 32) (ascii "k") with
  | none => none
  | some (eph, c) =>
  match c.require (readFixed 24) (ascii "n") with
  | none => none
  | some (nonce, c) =>
  match c.require readString (ascii "x") with
  | none => none
  | some (payload, c) => if c.finish then some (eph, nonce, payload) else none

def expiryAfter (now : Int) (lifetime : Nat) : Int :=
  now + 1000 * lifetime

def decodeFrameV0 (hop : TransitHop) (frame : Bytes) (secretKey : Ed25519SecretKey) (now : Int) :
    Except TransitHopError (TransitHop × SymmNonce) :=
  if frame.length ≠ buildFrameSizeV0 then .error .invalidData
  else
    match parseFrameV0 frame with
    | none => .error .invalidData
    | some (eph, dhNonce, payload) =>
      match Crypto.dhServer suite eph secretKey dhNonce with
      | none => .error .dhPubkey
      | some secret =>
        match parsePayloadV0 (Crypto.xchacha20 suite.toCipherSuite payload secret dhNonce) with
        | none => .error .invalidPayload
        | some (lifetime, rxid, txid, upstream) =>
          .ok
            ({ hop with
                sharedSecret := secret
                xorNonce := xorNonceOf suite secret
                expiry := expiryAfter now lifetime
                rxid := rxid
                txid := txid
                upstream := upstream },
              dhNonce ^^^ xorNonceOf suite secret)

def decodeFrameV1 (hop : TransitHop) (frame : Bytes) (secretKey : Ed25519SecretKey) (now : Int) :
    Except TransitHopError (TransitHop × SymmNonce) :=
  if frame.length < buildFrameSizeV1 then .error .invalidData
  else
    let eph := FixedBytes.ofBytes 32 (frame.drop 1)
    match Crypto.pathBuildSecret suite (suite.edSecretToX secretKey) eph false with
    | none => .error .dhPubkey
    | some secret =>
      match Crypto.xchacha20Poly1305DecryptInplace suite.toCipherSuite
          ((frame.drop 33).take 82) secret (FixedBytes.zero 24) (frame.take 1) with
      | none => .error .invalidPayload
      | some record =>
        .ok
          ({ hop with
              sharedSecret := secret
              xorNonce := xorNonceOf suite secret
              expiry := expiryAfter now (loadLittle (record.take 2))
              rxid := FixedBytes.ofBytes 16 (record.drop 2)
              txid := FixedBytes.ofBytes 16 (record.drop 18)
              upstream := FixedBytes.ofBytes 32 (record.drop 34)
              version := 1 },
            xorNonceOf suite secret)

def blankHop (src : NextHop) : TransitHop where
  txid := FixedBytes.zero 16
  rxid := FixedBytes.zero 16
  upstream := FixedBytes.zero 32
  routerId := FixedBytes.zero 32
  downstream := src
  sharedSecret := FixedBytes.zero 32
  xorNonce := FixedBytes.zero 24
  expiry := sysMsMin
  version := 0
  terminalHop := false

def finishHop (routerId : RouterID) (decoded : TransitHop × SymmNonce) :
    Except TransitHopError (TransitHop × SymmNonce) :=
  let hop := { decoded.1 with terminalHop := decide (decoded.1.upstream = routerId) }
  let terminalMismatch := hop.terminalHop != decide (hop.txid = hop.rxid)
  if hop.txid = FixedBytes.zero 16 ∨ hop.rxid = FixedBytes.zero 16 ∨ terminalMismatch then
    .error .invalidHopId
  else .ok (hop, decoded.2)

def decryptBuildFrame (frame : Bytes) (routerId : RouterID) (secretKey : Ed25519SecretKey)
    (src : NextHop) (now : Int) : Except TransitHopError (TransitHop × SymmNonce) :=
  match frame with
  | [] => .error .invalidData
  | 0x64 :: _ => (decodeFrameV0 suite (blankHop src) frame secretKey now).bind (finishHop routerId)
  | 0x01 :: _ => (decodeFrameV1 suite (blankHop src) frame secretKey now).bind (finishHop routerId)
  | _ => .error .invalidData

end Path
end SessionRouter
