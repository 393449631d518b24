import SessionRouter.Path.Message

/-!
# Session messages
-/

namespace SessionRouter

open Lib

structure SessionSend where
  deadPath : Bool
  isOutbound : Bool
  isRelaySession : Bool
  outboundTag : SessionTag
  remotePivotTxid : HopID
  outboundKey : Option SymmKey
  sharedSecret : Option SymmKey

def SessionTag.toBytes (tag : SessionTag) : Bytes :=
  storeBig 4 tag.toNat

def SessionTag.ofBytes (bytes : Bytes) : SessionTag :=
  UInt32.ofNat (loadBig bytes)

@[simp] theorem SessionTag.length_toBytes (tag : SessionTag) :
    (SessionTag.toBytes tag).length = 4 := by
  simp [toBytes]

@[simp] theorem SessionTag.ofBytes_toBytes (tag : SessionTag) :
    SessionTag.ofBytes (SessionTag.toBytes tag) = tag := by
  have hlt : tag.toNat < 256 ^ 4 := tag.toNat_lt
  rw [ofBytes, toBytes, loadBig_storeBig hlt]
  exact UInt32.ofNat_toNat

namespace SessionSend

variable (suite : CipherSuite)

def relaySessionReturn (s : SessionSend) : Bool :=
  !s.isOutbound && s.isRelaySession

def sendKey (s : SessionSend) : Option SymmKey :=
  s.outboundKey <|> s.sharedSecret

def trailer (s : SessionSend) : Bytes :=
  SessionTag.toBytes s.outboundTag ++
    (if s.relaySessionReturn then [] else s.remotePivotTxid.data)

def makeSessionMessage (s : SessionSend) (data : Bytes) (dataType : Option UInt8)
    (encrypt : Bool) (nonce : SymmNonce) : Option (Bytes × SymmNonce) :=
  let text := data ++ dataType.toList
  if s.deadPath then
    none
  else if encrypt then
    match s.sendKey with
    | none => none
    | some key =>
      let room := List.replicate Crypto.tagSize 0
      some
        (Crypto.xchacha20Poly1305EncryptInplace suite (text ++ room) key nonce [] ++ s.trailer,
          nonce)
  else
    some (text ++ s.trailer, nonce)

theorem makeSessionMessage_encrypt {s : SessionSend} (hpath : s.deadPath = false)
    {key : SymmKey} (hkey : s.sendKey = some key) (data : Bytes) (dataType : Option UInt8)
    (nonce : SymmNonce) :
    s.makeSessionMessage suite data dataType true nonce =
      some (Crypto.aeadSeal suite (data ++ dataType.toList) key nonce [] ++ s.trailer, nonce) := by
  simp only [makeSessionMessage, hpath, hkey, if_true, Bool.false_eq_true, if_false]
  rw [Crypto.encryptInplace_append _ _ _ (by simp)]

end SessionSend

def InboundRelaySession.encryptPathMessage (suite : CipherSuite) (currentThop : TransitHop)
    (data : Bytes) (nonce : SymmNonce) (type : MessageType) : Bytes :=
  let nonce := nonce ^^^ currentThop.xorNonce
  PathMessage.encode
    ⟨Crypto.xchacha20 suite data currentThop.sharedSecret nonce, nonce, currentThop.rxid, type⟩

end SessionRouter
