import SessionRouter.Crypto.KeyExchange
import SessionRouter.Lib.Bencode

/-!
# Client contacts
-/

namespace SessionRouter

open Lib Bencode

structure ClientIntro where
  relay : RouterID
  hop : HopID
  expiry : Int
  deriving DecidableEq

def ClientIntro.decode (c : DictConsumer) : Option ClientIntro := do
  let (expiry, c) ← c.require readInt64 (ascii "e")
  let (hop, c) ← c.require (readFixed 16) (ascii "h")
  let (relay, _) ← c.require (readFixed 32) (ascii "r")
  return { relay, hop, expiry }

namespace Net

structure Ipv4Range where
  ip : UInt32
  mask : UInt8
  deriving DecidableEq

structure Ipv6Range where
  hi : UInt64
  lo : UInt64
  mask : UInt8
  deriving DecidableEq

def decodeIpv4Range (encoded : Bytes) : Option Ipv4Range :=
  if encoded.length ≠ 5 then none
  else
    let mask := encoded.getD 4 0
    if 32 < mask then none
    else some { ip := UInt32.ofNat (loadBig (encoded.take 4)), mask }

def decodeIpv6Range (encoded : Bytes) : Option Ipv6Range :=
  if encoded.length ≠ 9 ∧ encoded.length ≠ 17 then none
  else
    let mask := encoded.getLastD 0
    if 128 < mask then none
    else
      some
        { hi := UInt64.ofNat (loadBig (encoded.take 8))
          -- the short form leaves out a lower half of zeroes
          lo := if encoded.length = 17 then UInt64.ofNat (loadBig ((encoded.drop 8).take 8)) else 0
          mask }

def decodeIpRange (encoded : Bytes) : Option (Ipv4Range ⊕ Ipv6Range) :=
  if encoded.length = 5 then (decodeIpv4Range encoded).map .inl
  else if encoded.length = 9 ∨ encoded.length = 17 then (decodeIpv6Range encoded).map .inr
  else none

structure ProtocolInfo where
  protocol : UInt8
  port : Option UInt16
  deriving DecidableEq

def ProtocolInfo.read (bytes : Bytes) : Option (ProtocolInfo × Bytes) := do
  let (span, rest) ← readSpan 0x6c bytes
  let (protocol, enc) ← readUnsigned 8 span.tail
  if enc.head? = some 0x65 then
    return ({ protocol := UInt8.ofNat protocol, port := none }, rest)
  else
    let (port, _) ← readUnsigned 16 enc
    return ({ protocol := UInt8.ofNat protocol, port := some (UInt16.ofNat port) }, rest)

/-- What exit traffic a client carries. -/
structure ExitPolicy where
  ranges : List Ipv4Range
  rangesV6 : List Ipv6Range
  protocols : Finset ProtocolInfo
  deriving DecidableEq

def readIpRange (bytes : Bytes) : Option ((Ipv4Range ⊕ Ipv6Range) × Bytes) := do
  let (encoded, rest) ← readString bytes
  let range ← decodeIpRange encoded
  return (range, rest)

def ExitPolicy.decode (c : DictConsumer) : Option ExitPolicy := do
  let (protos, c) ← c.maybe (readList ProtocolInfo.read) (ascii "p")
  let (rnges, _) ← c.maybe (readList readIpRange) (ascii "r")
  return {
    ranges := (rnges.getD []).filterMap Sum.getLeft?
    rangesV6 := (rnges.getD []).filterMap Sum.getRight?
    protocols := (protos.getD []).toFinset }

end Net

namespace Dns

structure SRVData where
  service : Bytes
  proto : Bytes
  priority : UInt16
  weight : UInt16
  port : UInt16
  target : Bytes
  deriving DecidableEq

def SRVData.blank : SRVData := ⟨[], [], 0, 0, 0, []⟩

def SRVData.decode (c : DictConsumer) : SRVData :=
  match c.require (readUnsigned 16) (ascii "p") with
  | none => blank
  | some (port, c) =>
    let srv := { blank with port := UInt16.ofNat port }
    match c.require readString (ascii "s") with
    | none => srv
    | some (serviceProto, c) =>
      match serviceProto.splitOn 0x2e with
      | [service, proto] =>
        let srv := { srv with service, proto }
        match c.require readString (ascii "t") with
        | none => srv
        | some (target, c) =>
          let srv := { srv with target }
          match c.require (readUnsigned 16) (ascii "u") with
          | none => srv
          | some (priority, c) =>
            let srv := { srv with priority := UInt16.ofNat priority }
            match c.require (readUnsigned 16) (ascii "w") with
            | none => srv
            | some (weight, _) => { srv with weight := UInt16.ofNat weight }
      | _ => srv

end Dns

/-- A client contact.  The newest intro stands first. -/
structure ClientContact where
  pubkey : PubKey
  intros : List ClientIntro
  intros_sorted : intros.Pairwise fun newer older => older.expiry ≤ newer.expiry
  srv : List Dns.SRVData
  protos : UInt8
  signedAt : Int
  exitPolicy : Option Net.ExitPolicy
  deriving DecidableEq

namespace ClientContact

def version : Nat := 0

def ofBytes (buf : Bytes) (signedAt : Int) : Option ClientContact := do
  let c ← DictConsumer.ofBytes buf
  let (version, c) ← c.require (readUnsigned 8) []
  if version ≠ ClientContact.version then none
  else
    let (pubkey, c) ← c.require (readFixed 32) (ascii "a")
    let (exitPolicy, c) ← c.maybe (readDict Net.ExitPolicy.decode) (ascii "e")
    let (intros, c) ← c.require (readList (readDict ClientIntro.decode)) (ascii "i")
    if intros_sorted : intros.Pairwise fun newer older => older.expiry ≤ newer.expiry then
      let (protos, c) ← c.require (readUnsigned 8) (ascii "p")
      let (srv, c) ← c.maybe (readList (readDict fun c => some (Dns.SRVData.decode c))) (ascii "s")
      if c.finish then
        return {
          pubkey, intros, intros_sorted, srv := srv.getD []
          protos := UInt8.ofNat protos, signedAt, exitPolicy }
      else none
    else none

def expiry (cc : ClientContact) : Int :=
  (cc.intros.head?.map ClientIntro.expiry).getD 0

end ClientContact

structure EncryptedContact where
  blinded : PubKey
  nonce : SymmNonce
  signedAt : Int
  enc : Bytes
  message : Bytes
  signature : Signature
  deriving DecidableEq

namespace EncryptedContact

def parse (enccc : Bytes) : Option EncryptedContact := do
  let c ← DictConsumer.ofBytes enccc
  let (blinded, c) ← c.require (readFixed 32) (ascii "i")
  let (nonce, c) ← c.require (readFixed 24) (ascii "n")
  let (signedAt, c) ← c.require readInt64 (ascii "t")
  let (enc, c) ← c.require readString (ascii "x")
  let ((message, sig), _) ← c.requireSignature enccc (ascii "~")
  let signature ← FixedBytes.ofBytes? 64 sig
  return { blinded, nonce, signedAt, enc, message, signature }

def verify (suite : CryptoSuite) (record : EncryptedContact) (key : PubKey) : Bool :=
  suite.edVerify key record.message record.signature

def encode (blinded : PubKey) (nonce : SymmNonce) (signedAt : Int) (enc : Bytes)
    (sign : Bytes → Signature) : Bytes :=
  encodeSigned [(ascii "i", encodeString blinded.data), (ascii "n", encodeString nonce.data),
      (ascii "t", encodeInt signedAt), (ascii "x", encodeString enc)]
    (ascii "~") fun message => (sign message).data

def payload (suite : CryptoSuite) (record : EncryptedContact) (root : PubKey) :
    Option ClientContact :=
  ClientContact.ofBytes (Crypto.xchacha20 suite.toCipherSuite record.enc root record.nonce)
    record.signedAt

end EncryptedContact

def ClientContact.decrypt (suite : CryptoSuite) (enccc : Bytes) (root : PubKey) :
    Option ClientContact := do
  let record ← EncryptedContact.parse enccc
  -- the key under which the signature must be good is the one that the record names
  if record.verify suite record.blinded then record.payload suite root
  else none

end SessionRouter
