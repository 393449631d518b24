import SessionRouter.Link.ContactRequests

/-!
# The contacts that a relay stores
-/

namespace SessionRouter

open Lib Bencode NodeDB

namespace ContactDB

def readHead (enccc : Bytes) : Option ((PubKey × Int) × DictConsumer) := do
  let c ← DictConsumer.ofBytes enccc
  let (blindedPk, c) ← c.require (readFixed 32) (ascii "i")
  let (_, c) ← c.require (readFixed 24) (ascii "n")
  let (signedAt, c) ← c.require readInt64 (ascii "t")
  return ((blindedPk, signedAt), c)

def verifies (suite : CryptoSuite) (enccc : Bytes) (blindedPk : PubKey) (c : DictConsumer) :
    Option Bool := do
  let (_, c) ← c.require readString (ascii "x")
  let ((message, sig), _) ← c.requireSignature enccc (ascii "~")
  let signature ← FixedBytes.ofBytes? 64 sig
  return suite.edVerify blindedPk message signature

def putCcWithStub (suite : CryptoSuite) (storage : ContactDB) (enccc : Bytes) :
    ContactDB × Option Bool :=
  match readHead enccc with
  | none => (storage, none)
  | some ((blindedPk, signedAt), c) =>
    let ins := (storage.find blindedPk).isNone
    let stubbed := storage.emplace blindedPk ([], 0)
    if !ins && (stubbed.find blindedPk).any fun stored => signedAt ≤ stored.2 then
      (stubbed, some false)
    else if verifies suite enccc blindedPk c = some true then
      (stubbed.insertOrAssign blindedPk (enccc, signedAt), some true)
    else (if ins then stubbed.remove blindedPk else stubbed, none)

def purgeCcs (storage : ContactDB) (now : Int) : ContactDB :=
  storage.eraseIf fun _ stored => stored.2 + Link.maxLifetimeAccepted < now

theorem putCc_eq (suite : CryptoSuite) (storage : ContactDB) (enccc : Bytes) :
    storage.putCc suite enccc = (readHead enccc).bind fun ((blindedPk, signedAt), c) =>
      if (storage.find blindedPk).any fun stored => signedAt ≤ stored.2 then
        some (storage, false)
      else if verifies suite enccc blindedPk c = some true then
        some (storage.insertOrAssign blindedPk (enccc, signedAt), true)
      else none := by
  simp only [putCc, readHead, verifies, Option.bind_eq_bind, Option.bind_assoc, Option.pure_def,
    Option.bind_some]
  congr! 4
  split
  · rfl
  · next key _ _ _ time _ _ =>
    cases time.2.require readString (ascii "x") with
    | none => rfl
    | some payload =>
      cases hsig : payload.2.requireSignature enccc (ascii "~") with
      | none => simp [hsig]
      | some signed =>
        cases hsize : FixedBytes.ofBytes? 64 signed.1.2 with
        | none | some => simp [hsig, hsize]

theorem putCcWithStub_eq (suite : CryptoSuite) (storage : ContactDB) (enccc : Bytes) :
    storage.putCcWithStub suite enccc =
      match storage.putCc suite enccc with
      | none => (storage, none)
      | some (storage, stored) => (storage, some stored) := by
  rw [putCc_eq, putCcWithStub]
  cases readHead enccc with
  | none => rfl
  | some head =>
    obtain ⟨⟨blindedPk, signedAt⟩, c⟩ := head
    simp only [Option.bind_some]
    cases hfind : storage.find blindedPk with
    | none =>
      simp only [Option.isNone_none, Bool.not_true, Bool.false_and, Option.any_none,
        Bool.false_eq_true, if_false, if_true, Table.remove_emplace hfind,
        Table.insertOrAssign_emplace _ hfind]
      split <;> simp
    | some stored =>
      have hkept : storage.emplace blindedPk ([], 0) = storage := by simp [Table.emplace, hfind]
      simp only [hkept, hfind, Option.isNone_some, Bool.not_false, Bool.true_and]
      split
      · rfl
      · split <;> simp

theorem putCc_cases {suite : CryptoSuite} {storage after : ContactDB} {enccc : Bytes}
    {stored : Bool} (h : storage.putCc suite enccc = some (after, stored)) :
    stored = false ∧ after = storage ∨
      stored = true ∧ ∃ record, EncryptedContact.parse enccc = some record ∧
        record.verify suite record.blinded = true ∧
        (∀ old ∈ storage.find record.blinded, old.2 < record.signedAt) ∧
        after = storage.insertOrAssign record.blinded (enccc, record.signedAt) := by
  simp only [putCc, Option.bind_eq_bind, Option.bind_eq_some_iff] at h
  obtain ⟨c, hc, ⟨blinded, c₁⟩, hkey, ⟨nonce, c₂⟩, hnonce, ⟨signedAt, c₃⟩, htime, h⟩ := h
  split at h
  · cases h
    exact .inl ⟨rfl, rfl⟩
  · next hnewer =>
    simp only [Option.bind_eq_some_iff, Option.ite_none_right_eq_some] at h
    obtain ⟨⟨enc, c₄⟩, henc, ⟨⟨message, sig⟩, c₅⟩, hsig, signature, hsize, hverify, h⟩ := h
    cases h
    refine .inr ⟨rfl, ⟨blinded, nonce, signedAt, enc, message, signature⟩, ?_, hverify, ?_, rfl⟩
    · simp [EncryptedContact.parse, hc, hkey, hnonce, htime, henc, hsig, hsize]
    · intro old hold
      simpa [Option.mem_def.mp hold] using hnewer

end ContactDB

theorem PublishRequest.signedAt_eq {body : Bytes} {request : PublishRequest}
    {record : EncryptedContact} (h : PublishRequest.parse body = some request)
    (hrecord : EncryptedContact.parse request.encCc = some record) :
    record.signedAt = request.signedAt := by
  simp only [PublishRequest.parse, Option.bind_eq_bind, Option.bind_eq_some_iff] at h
  obtain ⟨_, -, ⟨encCc, _⟩, -, ⟨location, _⟩, -, c, hc, ⟨key, c₁⟩, hkey, ⟨time, _⟩, htime, h⟩ := h
  cases h
  simp only [EncryptedContact.parse, Option.bind_eq_bind, Option.bind_eq_some_iff] at hrecord
  obtain ⟨c', hc', ⟨blinded, c₁'⟩, hkey', ⟨nonce, c₂⟩, hnonce, ⟨signedAt, c₃⟩, hbehind, _, -, _, -,
    _, -, h⟩ := hrecord
  cases h
  cases hc.symm.trans hc'
  cases hkey.symm.trans hkey'
  refine DictConsumer.require_behind (by decide) (fun value a rest hread => ?_) hnonce hbehind htime
  unfold readFixed at hread
  split at hread
  · cases hread
  · next s rest' hstring =>
    obtain ⟨_, -, hrest⟩ := Option.map_eq_some_iff.mp hread
    cases hrest
    exact skipValue_of_readString hstring _

theorem RelayNode.handlePublishCc_contacts (suite : CryptoSuite) (node : RelayNode) (body : Bytes)
    (sourceIsRelay : Bool) (now : Int) :
    let after := (node.handlePublishCc suite body sourceIsRelay now).1.contacts
    after = node.contacts ∨ ∃ request stored, PublishRequest.parse body = some request ∧
      IsFresh request.signedAt now ∧
      node.contacts.putCc suite request.encCc = some (after, stored) := by
  have hstore (encCc : Bytes) : (node.storeIt suite encCc).1.contacts = node.contacts ∨
      ∃ stored, node.contacts.putCc suite encCc =
        some ((node.storeIt suite encCc).1.contacts, stored) := by
    unfold storeIt
    cases node.contacts.putCc suite encCc with
    | none => exact .inl rfl
    | some result => exact .inr ⟨result.2, rfl⟩
  unfold handlePublishCc
  cases hparse : PublishRequest.parse body with
  | none => exact .inl rfl
  | some request =>
    dsimp only
    split
    · exact .inl rfl
    · split
      · exact .inl rfl
      · have hfresh : IsFresh request.signedAt now := ⟨by omega, by omega⟩
        unfold publishForClient
        repeat' split
        all_goals first
          | exact .inl rfl
          | exact (hstore request.encCc).imp_right fun ⟨stored, hput⟩ =>
              ⟨request, stored, rfl, hfresh, hput⟩

/-- What happens to the contacts of a relay. -/
inductive StorageAction where
  | publish (node : RelayNode) (body : Bytes) (sourceIsRelay : Bool) (now : Int)
  | purge (now : Int)

namespace ContactDB

def step (suite : CryptoSuite) (storage : ContactDB) : StorageAction → ContactDB
  | .publish node body sourceIsRelay now =>
    ({ node with contacts := storage }.handlePublishCc suite body sourceIsRelay now).1.contacts
  | .purge now => storage.purgeCcs now

def SignedFor (suite : CryptoSuite) (key : PubKey) (stored : Bytes × Int) : Prop :=
  ∃ record, EncryptedContact.parse stored.1 = some record ∧ record.blinded = key ∧
    record.signedAt = stored.2 ∧ record.verify suite key = true

theorem step_find {suite : CryptoSuite} {storage : ContactDB} {action : StorageAction}
    {key : PubKey} {stored : Bytes × Int}
    (h : (storage.step suite action).find key = some stored) :
    storage.find key = some stored ∨
      SignedFor suite key stored ∧ (∀ old ∈ storage.find key, old.2 < stored.2) ∧
        ∃ node body sourceIsRelay now, action = .publish node body sourceIsRelay now ∧
          RelayNode.IsFresh stored.2 now := by
  cases action with
  | purge now =>
    rw [step, purgeCcs, Table.find_eraseIf, Option.filter_eq_some_iff] at h
    exact .inl h.1
  | publish node body sourceIsRelay now =>
    rcases RelayNode.handlePublishCc_contacts suite { node with contacts := storage } body
      sourceIsRelay now with hsame | ⟨request, _, hparse, hfresh, hput⟩
    · exact .inl ((congrArg (Table.find · key) hsame).symm.trans h)
    · rcases putCc_cases hput with ⟨-, hsame⟩ | ⟨-, record, hrecord, hverify, hnewer, hafter⟩
      · exact .inl ((congrArg (Table.find · key) hsame).symm.trans h)
      · rw [step, hafter, Table.find_insertOrAssign] at h
        split at h
        · next hkey =>
          subst hkey
          cases h
          refine .inr ⟨⟨record, hrecord, rfl, rfl, hverify⟩, hnewer, node, body, sourceIsRelay,
            now, rfl, ?_⟩
          rw [PublishRequest.signedAt_eq hparse hrecord]
          exact hfresh
        · exact .inl h

/-- The storage of a relay.  In every run of publish requests and purges, whatever the clock
reads, and for the action that follows it: what is stored under a key is signed under that key;
the time of signing does not decrease while a record is present; what a request has stored was
signed at most the maximal lifetime before and at most ten minutes after.  In every storage, a
call of `put_cc` that throws or returns false has left nothing behind, and `get_encrypted_cc`
returns no record that was signed the maximal lifetime ago or longer. -/
theorem storage_sound (suite : CryptoSuite) (actions : List StorageAction)
    (action : StorageAction) :
    let storage := Run.run (step suite) ∅ actions
    let after := storage.step suite action
    (∀ key, ∀ stored ∈ storage.find key, SignedFor suite key stored) ∧
      (∀ key, ∀ old ∈ storage.find key, ∀ new ∈ after.find key, old.2 ≤ new.2) ∧
      (∀ node body sourceIsRelay now, action = .publish node body sourceIsRelay now →
        ∀ key, ∀ stored ∈ after.find key, stored ∉ storage.find key →
          now - Link.maxLifetimeAccepted ≤ stored.2 ∧ stored.2 ≤ now + 10 * 60 * 1000) ∧
      (∀ (db : ContactDB) (enccc : Bytes), (db.putCcWithStub suite enccc).2 ≠ some true →
        (db.putCcWithStub suite enccc).1 = db) ∧
      ∀ (db : ContactDB) (key : PubKey) (now : Int), ∀ record ∈ db.getEncryptedCc key now,
        ∃ signedAt, db.find key = some (record, signedAt) ∧
          now < signedAt + Link.maxLifetimeAccepted := by
  refine ⟨?_, ?_, ?_, ?_, ?_⟩
  · have hstep (storage : ContactDB) (action : StorageAction)
        (hsigned : ∀ key, ∀ stored ∈ storage.find key, SignedFor suite key stored) :
        ∀ key, ∀ stored ∈ (storage.step suite action).find key, SignedFor suite key stored :=
      fun key stored h => (step_find h).elim (hsigned key stored) And.left
    exact Run.run_invariant_of_step (step suite) hstep actions fun _ _ h => by simp at h
  · intro key old hold new hnew
    rcases step_find hnew with hsame | ⟨-, hnewer, -⟩
    · cases hold.symm.trans hsame
      exact le_rfl
    · exact (hnewer old hold).le
  · rintro node body sourceIsRelay now rfl key stored hafter hbefore
    rcases step_find hafter with hsame | ⟨-, -, _, _, _, _, haction, hfresh⟩
    · exact absurd hsame hbefore
    · cases haction
      exact hfresh
  · intro db enccc hresult
    rw [putCcWithStub_eq] at hresult ⊢
    cases hput : db.putCc suite enccc with
    | none => rfl
    | some result =>
      obtain ⟨after, stored⟩ := result
      rcases putCc_cases hput with ⟨-, hsame⟩ | ⟨hstored, -⟩
      · exact hsame
      · rw [hput, hstored] at hresult
        exact absurd rfl hresult
  · intro db key now record h
    unfold getEncryptedCc at h
    split at h
    · cases h
    · next signedAt hfind =>
      split at h
      · cases h
      · next hnow =>
        cases h
        exact ⟨signedAt, hfind, by omega⟩

end ContactDB
end SessionRouter
