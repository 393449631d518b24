import SessionRouter.Handlers.ContactLookup

/-!
# Who made a client contact
-/

namespace SessionRouter.Contact

open Lib Bencode Handlers

section

variable (suite : CryptoSuite)

structure AuthenticFor (root : PubKey) (enccc : Bytes) (cc : ClientContact) : Prop where
  decrypted : ClientContact.decrypt suite enccc root = some cc
  signed : ∃ record key, EncryptedContact.parse enccc = some record ∧
    Crypto.blind suite root Crypto.clientContactDomain = some key ∧
    record.verify suite key = true
  pubkey : cc.pubkey = root

def DecryptAuthentic (root : PubKey) (enccc : Bytes) : Prop :=
  ∀ cc, ClientContact.decrypt suite enccc root = some cc → AuthenticFor suite root enccc cc

def NamesRoot (root : PubKey) (enccc : Bytes) : Prop :=
  ∀ record cc, EncryptedContact.parse enccc = some record →
    record.verify suite record.blinded = true → record.payload suite root = some cc →
    Crypto.blind suite root Crypto.clientContactDomain = some record.blinded ∧ cc.pubkey = root

def SoleSigner (enccc : Bytes) : Prop :=
  ∀ record, EncryptedContact.parse enccc = some record →
    record.verify suite record.blinded = true →
    ∀ key, record.verify suite key = true → key = record.blinded

variable {suite} {root : PubKey} {enccc : Bytes}

theorem decrypt_eq_some_iff {cc : ClientContact} :
    ClientContact.decrypt suite enccc root = some cc ↔
      ∃ record, EncryptedContact.parse enccc = some record ∧
        record.verify suite record.blinded = true ∧ record.payload suite root = some cc := by
  unfold ClientContact.decrypt
  cases hparse : EncryptedContact.parse enccc with
  | none => simp
  | some record =>
    by_cases hverify : record.verify suite record.blinded = true
    · simp [hverify]
    · simp [hverify]

theorem decryptAuthentic_of_namesRoot (hnames : NamesRoot suite root enccc) :
    DecryptAuthentic suite root enccc := by
  intro cc hdecrypt
  obtain ⟨record, hparse, hverify, hpayload⟩ := decrypt_eq_some_iff.mp hdecrypt
  obtain ⟨hblind, hpubkey⟩ := hnames record cc hparse hverify hpayload
  exact ⟨hdecrypt, ⟨record, record.blinded, hparse, hblind, hverify⟩, hpubkey⟩

theorem namesRoot_of_decryptAuthentic (hsole : SoleSigner suite enccc)
    (hauthentic : DecryptAuthentic suite root enccc) : NamesRoot suite root enccc := by
  intro record cc hparse hverify hpayload
  have hdecrypt := decrypt_eq_some_iff.mpr ⟨record, hparse, hverify, hpayload⟩
  obtain ⟨-, ⟨record', key, hparse', hblind, hkey⟩, hpubkey⟩ := hauthentic cc hdecrypt
  -- both keys are good for the one signature, so they are the same key
  obtain rfl : record = record' := by
    rw [hparse] at hparse'
    exact Option.some.inj hparse'
  rw [hsole record hparse hverify key hkey] at hblind
  exact ⟨hblind, hpubkey⟩

theorem contactOfReply_authentic {resp : PathControlResponse}
    (hnames : ∀ enccc, replyRecord resp = some enccc → NamesRoot suite root enccc)
    {cc : ClientContact} (hcontact : contactOfReply suite root resp = some cc) :
    ∃ enccc, AuthenticFor suite root enccc cc := by
  unfold contactOfReply at hcontact
  obtain ⟨enccc, hrecord, hdecrypt⟩ := Option.bind_eq_some_iff.mp hcontact
  exact ⟨enccc, decryptAuthentic_of_namesRoot (hnames enccc hrecord) cc hdecrypt⟩

/-- `decrypt` is right about a record exactly if the record names the blinded key
of the root and its payload names the root.  A lookup all of whose replies carry
only such records hands only authentic contacts to its caller. -/
theorem decrypt_authentic_iff (suite : CryptoSuite) (root : PubKey) (enccc : Bytes)
    (hsole : SoleSigner suite enccc) :
    (DecryptAuthentic suite root enccc ↔ NamesRoot suite root enccc) ∧
    ∀ (lookup : Lookup) (replies : List (Int × PathControlResponse)),
      lookup.All (fun cc => ∃ enccc, AuthenticFor suite root enccc cc) root →
      (∀ reply ∈ replies, ∀ enccc, replyRecord reply.2 = some enccc → NamesRoot suite root enccc) →
      ∀ cc, some cc ∈ (Run.run (responseHandler suite root) lookup replies).handed →
        ∃ enccc, AuthenticFor suite root enccc cc := by
  constructor
  · constructor
    · exact namesRoot_of_decryptAuthentic hsole
    · exact decryptAuthentic_of_namesRoot
  · intro lookup replies hall hnames cc hmem
    have hrun : (Run.run (responseHandler suite root) lookup replies).All
        (fun cc => ∃ enccc, AuthenticFor suite root enccc cc) root :=
      run_responseHandler_all hall fun reply hreply _ hcontact =>
        contactOfReply_authentic (hnames reply hreply) hcontact
    exact hrun.handed cc hmem

end

namespace Composed

def suite : CryptoSuite where
  stream key _ i := key.data.getD (i % 32) 0
  aeadStream key _ i := key.data.getD (i % 32) 0
  poly1305 _ _ _ _ := FixedBytes.zero 16
  edPublic := id
  edScalarmult a b := some (a ^^^ b)
  xPublic := id
  xScalarmult a b := some (a ^^^ b)
  edPublicToX := some
  edSecretToX := id
  blake2b size key personal message := FixedBytes.ofBytes size (key ++ personal ++ message)
  edVerify key message signature :=
    signature.data = key.data ++ (FixedBytes.ofBytes 32 message.reverse).data
  scalarReduce n := FixedBytes.ofBytes 32 n.data
  scalarmultNoclamp a b := some (a ^^^ b)

def root : PubKey := FixedBytes.filled 32 0x41
def relayKey : PubKey := FixedBytes.filled 32 0x52

def sign (key : PubKey) (message : Bytes) : Signature :=
  FixedBytes.ofBytes 64 (key.data ++ (FixedBytes.ofBytes 32 message.reverse).data)

def payload : Bytes :=
  encodeDict [([], encodeInt 0), (ascii "a", encodeString root.data), (ascii "i", encodeList []),
    (ascii "p", encodeInt 12)]

def wrapped (signer : PubKey) : Bytes :=
  EncryptedContact.encode signer (FixedBytes.zero 24) 1000
    (Crypto.xchacha20 suite.toCipherSuite payload root (FixedBytes.zero 24)) (sign signer)

def blinded : PubKey := root ^^^ Crypto.blindingScalar suite root Crypto.clientContactDomain

end Composed

open Composed

theorem soleSigner_composed (enccc : Bytes) : SoleSigner suite enccc := by
  intro record _ hverify key hkey
  have hown : record.signature.data = _ := of_decide_eq_true hverify
  have hother : record.signature.data = _ := of_decide_eq_true hkey
  rw [hown] at hother
  exact FixedBytes.ext (List.append_inj_left hother (by simp)).symm

theorem namesRoot_wrapped_blinded : NamesRoot suite root (wrapped blinded) := by
  intro record cc hparse _ hpayload
  have hrecord : (EncryptedContact.parse (wrapped blinded)).all (fun record =>
      Crypto.blind suite root Crypto.clientContactDomain = some record.blinded ∧
        (record.payload suite root).all (·.pubkey = root)) = true := by
    decide +kernel
  rw [hparse] at hrecord
  obtain ⟨hblind, hpubkey⟩ := of_decide_eq_true hrecord
  rw [hpayload] at hpubkey
  exact ⟨hblind, of_decide_eq_true hpubkey⟩

def Composed.reply : Int × PathControlResponse :=
  (0, { body := encodeDict [(ascii "x", encodeString (wrapped blinded))]
        timedOut := false
        error := false })

def Composed.lookup : Lookup := { cache := ∅, remaining := 4, handed := [] }

theorem decrypt_authentic_blinded :
    (ClientContact.decrypt suite (wrapped blinded) root).isSome = true ∧
      DecryptAuthentic suite root (wrapped blinded) ∧
      (Run.run (responseHandler suite root) lookup [reply]).handed =
        [ClientContact.decrypt suite (wrapped blinded) root] ∧
      ∀ cc, some cc ∈ (Run.run (responseHandler suite root) lookup [reply]).handed →
        ∃ enccc, AuthenticFor suite root enccc cc := by
  have hrecord : replyRecord reply.2 = some (wrapped blinded) := by decide +kernel
  refine ⟨by decide +kernel,
    (decrypt_authentic_iff suite root _ (soleSigner_composed _)).1.mpr namesRoot_wrapped_blinded,
    by decide +kernel,
    (decrypt_authentic_iff suite root (wrapped blinded) (soleSigner_composed _)).2 lookup [reply]
      ⟨(fun _ _ h => nomatch h), (fun _ h => nomatch h)⟩ ?_⟩
  intro reply' hmem enccc henccc
  rw [List.mem_singleton.mp hmem, hrecord] at henccc
  cases henccc
  exact namesRoot_wrapped_blinded

theorem decrypt_composed_not_authentic : ¬ DecryptAuthentic suite root (wrapped relayKey) := by
  intro hauthentic
  have haccepted : (ClientContact.decrypt suite (wrapped relayKey) root).isSome = true := by
    decide +kernel
  obtain ⟨cc, hdecrypt⟩ := Option.isSome_iff_exists.mp haccepted
  obtain ⟨-, ⟨record, key, hparse, hblind, hverify⟩, -⟩ := hauthentic cc hdecrypt
  have hrefuted : (EncryptedContact.parse (wrapped relayKey)).all (fun record =>
      (Crypto.blind suite root Crypto.clientContactDomain).all fun key =>
        !record.verify suite key) = true := by
    decide +kernel
  rw [hparse, hblind] at hrefuted
  simp [hverify] at hrefuted

end SessionRouter.Contact
