import SessionRouter.Crypto.Cipher

/-!
# Key agreement, hashing and key blinding
-/

namespace SessionRouter

open Lib

abbrev Ed25519SecretKey := FixedBytes 32

abbrev X25519SecKey := FixedBytes 32

abbrev X25519PubKey := FixedBytes 32

abbrev Signature := FixedBytes 64

/-- The primitives of the crypto library. -/
structure CryptoSuite extends CipherSuite where
  edPublic : Ed25519SecretKey → PubKey
  edScalarmult : Ed25519SecretKey → PubKey → Option (FixedBytes 32)
  xPublic : X25519SecKey → X25519PubKey
  xScalarmult : X25519SecKey → X25519PubKey → Option X25519PubKey
  edPublicToX : PubKey → Option X25519PubKey
  edSecretToX : Ed25519SecretKey → X25519SecKey
  blake2b : (size : Nat) → Bytes → Bytes → Bytes → FixedBytes size
  edVerify : PubKey → Bytes → Signature → Bool
  scalarReduce : FixedBytes 64 → FixedBytes 32
  scalarmultNoclamp : FixedBytes 32 → PubKey → Option PubKey

structure CryptoSuite.Lawful (suite : CryptoSuite) : Prop where
  ed_symm : ∀ a b, suite.edScalarmult a (suite.edPublic b) = suite.edScalarmult b (suite.edPublic a)
  x_symm : ∀ a b, suite.xScalarmult a (suite.xPublic b) = suite.xScalarmult b (suite.xPublic a)
  edPublicToX_edPublic : ∀ a,
    suite.edPublicToX (suite.edPublic a) = some (suite.xPublic (suite.edSecretToX a))

namespace Crypto

variable (suite : CryptoSuite)

def shorthash (buf : Bytes) : FixedBytes 32 :=
  suite.blake2b 32 [] [] buf

def dh (clientPk serverPk : PubKey) (weAreClient : Bool) (localKeys : Ed25519SecretKey)
    (nonce : SymmNonce) : Option SymmKey :=
  (suite.edScalarmult localKeys (if weAreClient then serverPk else clientPk)).map fun shared =>
    suite.blake2b 32 nonce.data [] (clientPk.data ++ serverPk.data ++ shared.data)

def dhClient (pk : PubKey) (sk : Ed25519SecretKey) (n : SymmNonce) : Option SymmKey :=
  dh suite (suite.edPublic sk) pk true sk n

def dhServer (pk : PubKey) (sk : Ed25519SecretKey) (n : SymmNonce) : Option SymmKey :=
  dh suite pk (suite.edPublic sk) false sk n

def pathBuildSecret (sec : X25519SecKey) (remote : X25519PubKey) (isClient : Bool) :
    Option SymmKey :=
  let pub := suite.xPublic sec
  let a := if isClient then pub else remote
  let b := if isClient then remote else pub
  (suite.xScalarmult sec remote).map fun product =>
    suite.blake2b 32 [] (ascii "srouter_path_v01") (a.data ++ b.data ++ product.data)

def blindingScalar (pubkey : PubKey) (blindDomain : Bytes) : FixedBytes 32 :=
  suite.scalarReduce (suite.blake2b 64 (blindDomain.take 64) [] pubkey.data)

def blind (root : PubKey) (blindDomain : Bytes) : Option PubKey :=
  suite.scalarmultNoclamp (blindingScalar suite root blindDomain) root

def clientContactDomain : Bytes :=
  ascii "SessionRouterClientContact"

variable {suite}

theorem dhServer_eq_dhClient (hlaw : suite.Lawful) (eph relay : Ed25519SecretKey) (n : SymmNonce) :
    dhServer suite (suite.edPublic eph) relay n = dhClient suite (suite.edPublic relay) eph n := by
  simp [dhServer, dhClient, dh, hlaw.ed_symm relay eph]

theorem pathBuildSecret_symm (hlaw : suite.Lawful) (eph relay : X25519SecKey) :
    pathBuildSecret suite relay (suite.xPublic eph) false =
      pathBuildSecret suite eph (suite.xPublic relay) true := by
  simp [pathBuildSecret, hlaw.x_symm relay eph]

end Crypto

structure BlindingSuite extends CryptoSuite where
  sha512 : Bytes → FixedBytes 64
  scalarMul : FixedBytes 32 → FixedBytes 32 → FixedBytes 32
  scalarAdd : FixedBytes 32 → FixedBytes 32 → FixedBytes 32
  scalarmultBaseNoclamp : FixedBytes 32 → Option PubKey

structure Ed25519BlindedKey where
  scalar : FixedBytes 32
  hashData : FixedBytes 32
  pubkey : PubKey

namespace Ed25519BlindedKey

variable (suite : BlindingSuite)

def ofRoot (root : Ed25519SecretKey) (blindDomain : Bytes) : Option Ed25519BlindedKey :=
  let bfactor := Crypto.blindingScalar suite.toCryptoSuite (suite.edPublic root) blindDomain
  -- what the library calls the conversion of a key is its private scalar
  let scalar := suite.scalarMul (suite.edSecretToX root) bfactor
  (suite.scalarmultBaseNoclamp scalar).map fun pubkey =>
    ⟨scalar, suite.blake2b 32 blindDomain [] root.data, pubkey⟩

def sign (key : Ed25519BlindedKey) (buf : Bytes) : Signature :=
  let nonce := suite.scalarReduce (suite.sha512 (key.hashData.data ++ buf))
  let r := (suite.scalarmultBaseNoclamp nonce).getD (FixedBytes.zero 32)
  let hram := suite.scalarReduce (suite.sha512 (r.data ++ key.pubkey.data ++ buf))
  let s := suite.scalarAdd (suite.scalarMul hram key.scalar) nonce
  ⟨r.data ++ s.data, by simp⟩

end Ed25519BlindedKey

def BlindingSuite.SignaturesVerify (suite : BlindingSuite) : Prop :=
  ∀ key : Ed25519BlindedKey, suite.scalarmultBaseNoclamp key.scalar = some key.pubkey →
    ∀ message, suite.edVerify key.pubkey message (key.sign suite message) = true

variable {suite : BlindingSuite}

theorem BlindingSuite.SignaturesVerify.ofRoot (h : suite.SignaturesVerify) {root : Ed25519SecretKey}
    {blindDomain : Bytes} {key : Ed25519BlindedKey}
    (hkey : Ed25519BlindedKey.ofRoot suite root blindDomain = some key) (message : Bytes) :
    suite.edVerify key.pubkey message (key.sign suite message) = true := by
  obtain ⟨pubkey, hpubkey, rfl⟩ := Option.map_eq_some_iff.mp hkey
  exact h _ hpubkey message

end SessionRouter
