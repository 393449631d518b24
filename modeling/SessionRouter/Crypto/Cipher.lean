import SessionRouter.Lib.Bytes

/-!
# Keys, nonces and the symmetric ciphers
-/

namespace SessionRouter

open Lib

abbrev SymmKey := FixedBytes 32

abbrev SymmNonce := FixedBytes 24

abbrev PubKey := FixedBytes 32

abbrev RouterID := PubKey

instance : LawfulBEq RouterID := inferInstance

abbrev HopID := FixedBytes 16

abbrev SessionTag := UInt32

structure CipherSuite where
  stream : SymmKey → SymmNonce → Nat → UInt8
  aeadStream : SymmKey → SymmNonce → Nat → UInt8
  poly1305 : SymmKey → SymmNonce → Bytes → Bytes → FixedBytes 16

namespace Crypto

def tagSize : Nat := 16

variable (suite : CipherSuite)

def xchacha20 (buf : Bytes) (secret : SymmKey) (nonce : SymmNonce) : Bytes :=
  xorStream (suite.stream secret nonce) buf

@[simp] theorem length_xchacha20 (buf : Bytes) (secret : SymmKey) (nonce : SymmNonce) :
    (xchacha20 suite buf secret nonce).length = buf.length := by
  simp [xchacha20]

@[simp] theorem xchacha20_xchacha20 (buf : Bytes) (secret : SymmKey) (nonce : SymmNonce) :
    xchacha20 suite (xchacha20 suite buf secret nonce) secret nonce = buf := by
  simp [xchacha20]

def aeadSeal (text : Bytes) (secret : SymmKey) (nonce : SymmNonce) (ad : Bytes) : Bytes :=
  let ciphertext := xorStream (suite.aeadStream secret nonce) text
  ciphertext ++ (suite.poly1305 secret nonce ad ciphertext).data

def xchacha20Poly1305EncryptInplace (buf : Bytes) (secret : SymmKey)
    (nonce : SymmNonce) (ad : Bytes) : Bytes :=
  aeadSeal suite (buf.take (buf.length - tagSize)) secret nonce ad

def tagVerifies (buf : Bytes) (secret : SymmKey) (nonce : SymmNonce) (ad : Bytes) : Bool :=
  buf.drop (buf.length - tagSize) =
    (suite.poly1305 secret nonce ad (buf.take (buf.length - tagSize))).data

def xchacha20Poly1305DecryptInplace (buf : Bytes) (secret : SymmKey)
    (nonce : SymmNonce) (ad : Bytes) : Option Bytes :=
  if buf.length < tagSize then
    none
  else if tagVerifies suite buf secret nonce ad then
    some (xorStream (suite.aeadStream secret nonce) (buf.take (buf.length - tagSize)))
  else
    none

@[simp] theorem length_aeadSeal (text : Bytes) (secret : SymmKey) (nonce : SymmNonce) (ad : Bytes) :
    (aeadSeal suite text secret nonce ad).length = text.length + tagSize := by
  simp [aeadSeal, tagSize]

@[simp] theorem encryptInplace_append (text room : Bytes) (hroom : room.length = tagSize)
    (secret : SymmKey) (nonce : SymmNonce) (ad : Bytes) :
    xchacha20Poly1305EncryptInplace suite (text ++ room) secret nonce ad =
      aeadSeal suite text secret nonce ad := by
  unfold xchacha20Poly1305EncryptInplace
  congr 1
  rw [List.length_append, hroom, Nat.add_sub_cancel]
  exact List.take_left

@[simp] theorem decryptInplace_aeadSeal (text : Bytes) (secret : SymmKey)
    (nonce : SymmNonce) (ad : Bytes) :
    xchacha20Poly1305DecryptInplace suite (aeadSeal suite text secret nonce ad)
      secret nonce ad = some text := by
  let ciphertext := xorStream (suite.aeadStream secret nonce) text
  let tag := suite.poly1305 secret nonce ad ciphertext
  have hsplit : (ciphertext ++ tag.data).length - tagSize = ciphertext.length := by simp [tagSize]
  change xchacha20Poly1305DecryptInplace suite (ciphertext ++ tag.data) secret nonce ad = some text
  have hlong : ¬ (ciphertext ++ tag.data).length < tagSize := by simp [tagSize]
  have hverifies : tagVerifies suite (ciphertext ++ tag.data) secret nonce ad = true := by
    simp only [tagVerifies, hsplit, List.take_left, List.drop_left]
    simp [tag]
  rw [xchacha20Poly1305DecryptInplace, if_neg hlong, if_pos hverifies, hsplit, List.take_left]
  simp [ciphertext]

end Crypto
end SessionRouter
