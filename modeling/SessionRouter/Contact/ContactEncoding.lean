import Mathlib.Data.Finset.Sort
import SessionRouter.Address.AddressText
import SessionRouter.Contact.ClientContact
import SessionRouter.Lib.BencodeValue

/-!
# Encoding client contacts
-/

namespace SessionRouter

open Lib Bencode DomainName

def ClientIntro.btEncode (intro : ClientIntro) : Bytes :=
  encodeDict [(ascii "e", encodeInt intro.expiry), (ascii "h", encodeString intro.hop.data),
    (ascii "r", encodeString intro.relay.data)]

namespace Net

def encodeIpv4Range (r : Ipv4Range) : Bytes :=
  storeBig 4 r.ip.toNat ++ [r.mask]

def encodeIpv6Range (r : Ipv6Range) : Bytes :=
  storeBig 8 r.hi.toNat ++ (if r.lo = 0 then [] else storeBig 8 r.lo.toNat) ++ [r.mask]

def ProtocolInfo.btEncode (info : ProtocolInfo) : Bytes :=
  encodeList
    (encodeInt info.protocol.toNat :: (info.port.map fun port => encodeInt port.toNat).toList)

def ProtocolInfo.rank (info : ProtocolInfo) : ℕ ×ₗ WithBot ℕ :=
  toLex (info.protocol.toNat, info.port.map UInt16.toNat)

theorem ProtocolInfo.rank_injective : Function.Injective ProtocolInfo.rank := by
  rintro ⟨protocol, port⟩ ⟨protocol', port'⟩ h
  obtain ⟨hprotocol, hport⟩ := Prod.mk.inj (toLex.injective h)
  have hinj : Function.Injective UInt16.toNat := fun _ _ => UInt16.toNat_inj.mp
  obtain rfl : protocol = protocol' := UInt8.toNat_inj.mp hprotocol
  obtain rfl : port = port' := Option.map_injective hinj hport
  rfl

instance : LinearOrder ProtocolInfo :=
  LinearOrder.lift' ProtocolInfo.rank ProtocolInfo.rank_injective

def ExitPolicy.btEncode (policy : ExitPolicy) : Bytes :=
  encodeDict
    ((if policy.protocols = ∅ then []
      else [(ascii "p", encodeList ((policy.protocols.sort (· ≤ ·)).map ProtocolInfo.btEncode))]) ++
    (if policy.ranges = [] ∧ policy.rangesV6 = [] then []
      else [(ascii "r", encodeList
        (policy.ranges.map (fun r => encodeString (encodeIpv4Range r)) ++
          policy.rangesV6.map fun r => encodeString (encodeIpv6Range r)))]))

end Net

namespace Dns.SRVData

def btEncode (srv : SRVData) : Bytes :=
  encodeDict [(ascii "p", encodeInt srv.port.toNat),
    (ascii "s", encodeString (srv.service ++ dot :: srv.proto)),
    (ascii "t", encodeString srv.target), (ascii "u", encodeInt srv.priority.toNat),
    (ascii "w", encodeInt srv.weight.toNat)]

def checkPiece (piece : Bytes) : Bool :=
  2 ≤ piece.length && piece.head? = some 95 &&
    piece.tail.all fun char => char ∈ ascii "abcdefghijklmnopqrstuvwxyz0123456789-"

def targetMaxSize : Nat := 200

def isValid (srv : SRVData) : Bool :=
  checkPiece srv.service && checkPiece srv.proto && srv.target.length ≤ targetMaxSize &&
    ((dot :: clientTld).isSuffixOf srv.target || (ascii ".loki").isSuffixOf srv.target ||
      srv.target = [dot] || srv.target = [])

end Dns.SRVData

namespace ClientContact

def btEncode (cc : ClientContact) : Bytes :=
  encodeDict
    ([([], encodeInt version), (ascii "a", encodeString cc.pubkey.data)] ++
      (cc.exitPolicy.map fun policy => (ascii "e", policy.btEncode)).toList ++
      [(ascii "i", encodeList (cc.intros.map ClientIntro.btEncode)),
        (ascii "p", encodeInt cc.protos.toNat)] ++
      if cc.srv = [] then [] else [(ascii "s", encodeList (cc.srv.map Dns.SRVData.btEncode))])

def encryptAndSign (suite : BlindingSuite) (cc : ClientContact) (blinded : Ed25519BlindedKey)
    (nonce : SymmNonce) (now : Int) : Bytes × ClientContact :=
  let encrypted := Crypto.xchacha20 suite.toCipherSuite cc.btEncode cc.pubkey nonce
  (EncryptedContact.encode blinded.pubkey nonce now encrypted (blinded.sign suite),
    { cc with signedAt := now })

end ClientContact

def IsInt64 (time : Int) : Prop :=
  -2 ^ 63 ≤ time ∧ time < 2 ^ 63

/-- The masks are masks of addresses. -/
structure Net.ExitPolicy.Valid (policy : Net.ExitPolicy) : Prop where
  ranges : ∀ r ∈ policy.ranges, r.mask ≤ 32
  rangesV6 : ∀ r ∈ policy.rangesV6, r.mask ≤ 128

/-- A contact as a client can have it. -/
structure ClientContact.Valid (cc : ClientContact) : Prop where
  expiries : ∀ intro ∈ cc.intros, IsInt64 intro.expiry
  srv : ∀ srv ∈ cc.srv, srv.isValid = true
  exitPolicy : ∀ policy ∈ cc.exitPolicy, policy.Valid

open DictConsumer

theorem ClientIntro.readsBack {intro : ClientIntro} (h : IsInt64 intro.expiry) :
    ReadsBack (readDict ClientIntro.decode) intro.btEncode intro := by
  have hexpiry := ReadsBack.int64 h.1 h.2
  have hhop := ReadsBack.fixed intro.hop
  have hrelay := ReadsBack.fixed intro.relay
  apply ReadsBack.dict
  · simp [hexpiry.isValue, hhop.isValue, hrelay.isValue]
  · rw [ClientIntro.decode, (Before.start _).require hexpiry]
    simp

namespace Net

theorem ProtocolInfo.readsBack (info : ProtocolInfo) :
    ReadsBack ProtocolInfo.read info.btEncode info := by
  obtain ⟨protocol, port⟩ := info
  have hvalue : IsValue (ProtocolInfo.btEncode ⟨protocol, port⟩) := by
    refine .list fun value hmem => ?_
    cases port with
    | none =>
      rw [List.mem_singleton.mp hmem]
      exact .int _
    | some port =>
      rcases List.mem_cons.mp hmem with rfl | hmem
      · exact .int _
      · rw [List.mem_singleton.mp hmem]
        exact .int _
  refine ⟨hvalue, fun rest => ?_⟩
  have hspan := hvalue.readSpan rfl rest
  have hprotocol (after : Bytes) := readUnsigned_encodeInt protocol.toNat_lt after
  rw [ProtocolInfo.read, hspan]
  cases port with
  | none => simp [ProtocolInfo.btEncode, encodeList, hprotocol]
  | some port =>
    have hport (after : Bytes) := readUnsigned_encodeInt port.toNat_lt after
    have hmore : (encodeInt port.toNat).head? = some 0x69 := rfl
    simp [ProtocolInfo.btEncode, encodeList, hprotocol, hport, hmore]

theorem decodeIpRange_encodeIpv4Range {r : Ipv4Range} (h : r.mask ≤ 32) :
    decodeIpRange (encodeIpv4Range r) = some (.inl r) := by
  have hlength : (encodeIpv4Range r).length = 5 := by simp [encodeIpv4Range]
  have hmask : (encodeIpv4Range r).getD 4 0 = r.mask := by simp [encodeIpv4Range]
  have hip : (encodeIpv4Range r).take 4 = storeBig 4 r.ip.toNat := by simp [encodeIpv4Range]
  have hload : loadBig (storeBig 4 r.ip.toNat) = r.ip.toNat := loadBig_storeBig r.ip.toNat_lt
  rw [decodeIpRange, if_pos hlength, decodeIpv4Range, if_neg (not_not.mpr hlength)]
  rw [hmask, if_neg (UInt8.not_lt.mpr h), hip, hload, UInt32.ofNat_toNat]
  rfl

theorem decodeIpRange_encodeIpv6Range {r : Ipv6Range} (h : r.mask ≤ 128) :
    decodeIpRange (encodeIpv6Range r) = some (.inr r) := by
  obtain ⟨hi, lo, mask⟩ := r
  have hhi : loadBig (storeBig 8 hi.toNat) = hi.toNat := loadBig_storeBig hi.toNat_lt
  have hlo : loadBig (storeBig 8 lo.toNat) = lo.toNat := loadBig_storeBig lo.toNat_lt
  have hmask : ¬128 < mask := UInt8.not_lt.mpr h
  by_cases hzero : lo = 0
  · have hencoded : encodeIpv6Range ⟨hi, lo, mask⟩ = storeBig 8 hi.toNat ++ [mask] := by
      simp [encodeIpv6Range, hzero]
    rw [hencoded]
    simp [decodeIpRange, decodeIpv6Range, hmask, hhi, hzero]
  · have hencoded : encodeIpv6Range ⟨hi, lo, mask⟩ =
        storeBig 8 hi.toNat ++ (storeBig 8 lo.toNat ++ [mask]) := by
      simp [encodeIpv6Range, hzero]
    rw [hencoded]
    simp [decodeIpRange, decodeIpv6Range, hmask, hhi, hlo]

def encodeIpRange : Ipv4Range ⊕ Ipv6Range → Bytes
  | .inl r => encodeString (encodeIpv4Range r)
  | .inr r => encodeString (encodeIpv6Range r)

theorem readsBack_encodeIpRange {policy : ExitPolicy} (h : policy.Valid) :
    ∀ r ∈ policy.ranges.map Sum.inl ++ policy.rangesV6.map Sum.inr,
      ReadsBack readIpRange (encodeIpRange r) r := by
  intro r hmem
  rcases List.mem_append.mp hmem with hmem | hmem
  · obtain ⟨r, hr, rfl⟩ := List.mem_map.mp hmem
    refine ⟨.string _, fun rest => ?_⟩
    simp [encodeIpRange, readIpRange, decodeIpRange_encodeIpv4Range (h.ranges r hr)]
  · obtain ⟨r, hr, rfl⟩ := List.mem_map.mp hmem
    refine ⟨.string _, fun rest => ?_⟩
    simp [encodeIpRange, readIpRange, decodeIpRange_encodeIpv6Range (h.rangesV6 r hr)]

def ExitPolicy.protos (policy : ExitPolicy) : Option (List ProtocolInfo) :=
  if policy.protocols = ∅ then none else some (policy.protocols.sort (· ≤ ·))

def ExitPolicy.rnges (policy : ExitPolicy) : Option (List (Ipv4Range ⊕ Ipv6Range)) :=
  if policy.ranges = [] ∧ policy.rangesV6 = [] then none
  else some (policy.ranges.map Sum.inl ++ policy.rangesV6.map Sum.inr)

variable (policy : ExitPolicy)

theorem ExitPolicy.btEncode_eq : policy.btEncode = encodeDict
      ((policy.protos.map fun protos =>
          (ascii "p", encodeList (protos.map ProtocolInfo.btEncode))).toList ++
        (policy.rnges.map fun rnges =>
          (ascii "r", encodeList (rnges.map encodeIpRange))).toList) := by
  unfold ExitPolicy.btEncode ExitPolicy.protos ExitPolicy.rnges
  split_ifs <;> simp [encodeIpRange, Function.comp_def]

theorem ExitPolicy.toFinset_protos : (policy.protos.getD []).toFinset = policy.protocols := by
  unfold ExitPolicy.protos
  split
  · next hempty => rw [hempty]; rfl
  · exact Finset.sort_toFinset _ _

theorem ExitPolicy.getD_rnges :
    policy.rnges.getD [] = policy.ranges.map Sum.inl ++ policy.rangesV6.map Sum.inr := by
  unfold ExitPolicy.rnges
  split
  · next hempty => rw [hempty.1, hempty.2]; rfl
  · rfl

theorem ExitPolicy.readsBack {policy : ExitPolicy} (h : policy.Valid) :
    ReadsBack (readDict ExitPolicy.decode) policy.btEncode policy := by
  have hprotos (protos : List ProtocolInfo) :
      ReadsBack (readList ProtocolInfo.read) (encodeList (protos.map ProtocolInfo.btEncode))
        protos :=
    .list fun info _ => info.readsBack
  have hrnges : ∀ rnges ∈ policy.rnges,
      ReadsBack (readList readIpRange) (encodeList (rnges.map encodeIpRange)) rnges := by
    intro rnges hmem
    have heq := policy.getD_rnges
    rw [hmem, Option.getD_some] at heq
    rw [heq]
    exact .list (readsBack_encodeIpRange h)
  rw [ExitPolicy.btEncode_eq]
  apply ReadsBack.dict
  · intro entry hmem
    simp only [List.mem_append, Option.mem_toList, Option.map_eq_some_iff] at hmem
    rcases hmem with ⟨protos, -, rfl⟩ | ⟨rnges, hsome, rfl⟩
    · exact (hprotos protos).isValue
    · exact (hrnges rnges hsome).isValue
  · have hnext : ∀ entry ∈ ((policy.rnges.map fun rnges : List (Ipv4Range ⊕ Ipv6Range) =>
        (ascii "r", encodeList (rnges.map encodeIpRange))).toList).head?,
        IsValue entry.2 ∧ ascii "p" < entry.1 := by
      intro entry hmem
      cases hsome : policy.rnges with
      | none =>
        rw [hsome] at hmem
        exact absurd hmem (Option.not_mem_none entry)
      | some rnges =>
        rw [hsome] at hmem
        cases hmem
        exact ⟨(hrnges rnges hsome).isValue, (by decide : ascii "p" < ascii "r")⟩
    obtain ⟨c, hp, hbefore⟩ := (Before.start _).maybe_option (fun protos _ => hprotos protos) hnext
    obtain ⟨c', hr, -⟩ := hbefore.maybe_last hrnges
    rw [ExitPolicy.decode, hp]
    simp [hr, policy.toFinset_protos, policy.getD_rnges, List.filterMap_map, Function.comp_def]

end Net

namespace Dns.SRVData

theorem dot_notMem_of_checkPiece {piece : Bytes} (h : checkPiece piece = true) : dot ∉ piece := by
  simp only [checkPiece, Bool.and_eq_true, decide_eq_true_eq] at h
  obtain ⟨⟨-, hhead⟩, htail⟩ := h
  obtain ⟨rest, rfl⟩ := List.head?_eq_some_iff.mp hhead
  intro hmem
  rcases List.mem_cons.mp hmem with heq | hmem
  · exact absurd heq (by decide)
  · have hall := List.all_eq_true.mp htail dot hmem
    revert hall
    decide +kernel

theorem readsBack {srv : SRVData} (h : srv.isValid = true) :
    ReadsBack (readDict fun c => some (SRVData.decode c)) srv.btEncode srv := by
  simp only [isValid, Bool.and_eq_true] at h
  obtain ⟨⟨⟨hservice, hproto⟩, -⟩, -⟩ := h
  have hsplit : (srv.service ++ dot :: srv.proto).splitOn dot = [srv.service, srv.proto] := by
    rw [splitOn_dot_append _ (dot_notMem_of_checkPiece hproto),
      Split.splitOn_of_notMem (dot_notMem_of_checkPiece hservice)]
    rfl
  apply ReadsBack.dict
  · simp [IsValue.int, IsValue.string]
  · rw [SRVData.decode, (Before.start _).require (.unsigned srv.port.toNat_lt)]
    dsimp only
    rw [(Before.start _).require (.string _)]
    dsimp only
    rw [show (0x2e : UInt8) = dot from rfl, hsplit]
    rw [(Before.start _).require (.string _)]
    dsimp only
    rw [(Before.start _).require (.unsigned srv.priority.toNat_lt)]
    dsimp only
    rw [(Before.start _).require (.unsigned srv.weight.toNat_lt)]
    simp

end Dns.SRVData

namespace ClientContact

def srvs (cc : ClientContact) : Option (List Dns.SRVData) :=
  if cc.srv = [] then none else some cc.srv

theorem getD_srvs (cc : ClientContact) : cc.srvs.getD [] = cc.srv := by
  unfold srvs
  split
  · next hempty => rw [hempty]; rfl
  · rfl

def srvEntry (cc : ClientContact) : List (Bytes × Bytes) :=
  (cc.srvs.map fun srvs => (ascii "s", encodeList (srvs.map Dns.SRVData.btEncode))).toList

def laterEntries (cc : ClientContact) : List (Bytes × Bytes) :=
  (ascii "i", encodeList (cc.intros.map ClientIntro.btEncode)) ::
    (ascii "p", encodeInt cc.protos.toNat) :: cc.srvEntry

theorem btEncode_eq (cc : ClientContact) :
    cc.btEncode = encodeDict
      (([], encodeInt version) :: (ascii "a", encodeString cc.pubkey.data) ::
        ((cc.exitPolicy.map fun policy => (ascii "e", policy.btEncode)).toList ++
          cc.laterEntries)) := by
  unfold btEncode laterEntries srvEntry srvs
  split_ifs <;> simp

theorem ofBytes_btEncode {cc : ClientContact} (h : cc.Valid) (signedAt : Int) :
    ofBytes cc.btEncode signedAt = some { cc with signedAt := signedAt } := by
  have hversion := ReadsBack.unsigned (show version < 2 ^ 8 by decide)
  have hpolicy : ∀ policy ∈ cc.exitPolicy,
      ReadsBack (readDict Net.ExitPolicy.decode) policy.btEncode policy :=
    fun policy hmem => Net.ExitPolicy.readsBack (h.exitPolicy policy hmem)
  have hintros : ReadsBack (readList (readDict ClientIntro.decode))
      (encodeList (cc.intros.map ClientIntro.btEncode)) cc.intros :=
    .list fun intro hmem => ClientIntro.readsBack (h.expiries intro hmem)
  have hsrvs : ∀ srvs ∈ cc.srvs,
      ReadsBack (readList (readDict fun c => some (Dns.SRVData.decode c)))
        (encodeList (srvs.map Dns.SRVData.btEncode)) srvs := by
    intro srvs hmem
    have heq := cc.getD_srvs
    rw [hmem, Option.getD_some] at heq
    rw [heq]
    exact .list fun srv hmem => Dns.SRVData.readsBack (h.srv srv hmem)
  obtain ⟨c, he, hbefore⟩ := (Before.start (_ ++ cc.laterEntries)).maybe_option hpolicy
    fun entry hmem => by
      cases hmem
      exact ⟨hintros.isValue, (by decide : ascii "e" < ascii "i")⟩
  have hi := hbefore.require hintros
  have hp := (Before.start ((ascii "p", encodeInt cc.protos.toNat) :: cc.srvEntry)).require
    (.unsigned cc.protos.toNat_lt)
  obtain ⟨c', hs, hend⟩ := (Before.start cc.srvEntry).maybe_last hsrvs
  have hfinish := hend.finish
  rw [btEncode_eq, ofBytes, ofBytes_encodeDict]
  simp only [Option.bind_eq_bind, Option.bind_some]
  rw [(Before.start _).require hversion]
  simp only [Option.bind_some]
  rw [if_neg (not_not.mpr rfl), (Before.start _).require (.fixed cc.pubkey)]
  simp only [Option.bind_some]
  rw [he]
  simp only [Option.bind_some]
  rw [hi]
  simp only [Option.bind_some]
  rw [dif_pos cc.intros_sorted, hp]
  simp only [Option.bind_some]
  rw [hs]
  simp [hfinish, cc.getD_srvs]

end ClientContact

namespace EncryptedContact

variable (blinded : PubKey) (nonce : SymmNonce) (signedAt : Int) (enc : Bytes)

def signedBytes : Bytes :=
  0x64 :: encodeEntries
    [(ascii "i", encodeString blinded.data), (ascii "n", encodeString nonce.data),
      (ascii "t", encodeInt signedAt), (ascii "x", encodeString enc)]

theorem parse_encode (sign : Bytes → Signature) (h : IsInt64 signedAt) :
    parse (encode blinded nonce signedAt enc sign) =
      some ⟨blinded, nonce, signedAt, enc, signedBytes blinded nonce signedAt enc,
        sign (signedBytes blinded nonce signedAt enc)⟩ := by
  have htime (rest : Bytes) := (ReadsBack.int64 h.1 h.2).read_append rest
  have hsignature := requireSignature_encodeSigned
    [(ascii "i", encodeString blinded.data), (ascii "n", encodeString nonce.data),
      (ascii "t", encodeInt signedAt), (ascii "x", encodeString enc)] (ascii "~")
    fun message => (sign message).data
  have hrequire (rest : Bytes) : require readInt64 (ascii "t")
      ⟨none, encodeString (ascii "t") ++ (encodeInt signedAt ++ rest)⟩ =
        some (signedAt, ⟨none, rest⟩) := by
    rw [require_entry _ _ _ (by simp [encodeInt]) (by simp [encodeInt]), htime]
    rfl
  rw [parse, encode, ofBytes_encodeSigned]
  simp only [encodeEntries_cons_append, encodeEntries_nil_append, Option.bind_eq_bind,
    Option.bind_some, require_readFixed_entry, require_readString_entry, hrequire]
  rw [hsignature]
  simp [signedBytes]

end EncryptedContact

theorem ClientContact.decrypt_encryptAndSign {suite : BlindingSuite}
    (hsigns : suite.SignaturesVerify) {cc : ClientContact} (h : cc.Valid)
    {root : Ed25519SecretKey} (hroot : cc.pubkey = suite.edPublic root)
    {blindDomain : Bytes} {blinded : Ed25519BlindedKey}
    (hblinded : Ed25519BlindedKey.ofRoot suite root blindDomain = some blinded) (nonce : SymmNonce)
    {now : Int} (hnow : IsInt64 now) :
    decrypt suite.toCryptoSuite (cc.encryptAndSign suite blinded nonce now).1
        (suite.edPublic root) =
      some (cc.encryptAndSign suite blinded nonce now).2 := by
  unfold encryptAndSign decrypt
  rw [EncryptedContact.parse_encode _ _ _ _ _ hnow]
  -- the signature was made with the key that the wrapper names
  refine (if_pos (hsigns.ofRoot hblinded _)).trans ?_
  rw [EncryptedContact.payload, ← hroot, Crypto.xchacha20_xchacha20]
  exact ofBytes_btEncode h now

/-- Decoding gives back the contact that was encoded, and decrypting the contact that its owner
has encrypted and signed. -/
theorem contact_roundTrip (suite : BlindingSuite) (hsigns : suite.SignaturesVerify)
    (cc : ClientContact) (hvalid : cc.Valid) :
    (∀ signedAt,
      ClientContact.ofBytes cc.btEncode signedAt = some { cc with signedAt := signedAt }) ∧
    ∀ (root : Ed25519SecretKey) (blindDomain : Bytes) (blinded : Ed25519BlindedKey)
      (nonce : SymmNonce) (now : Int), cc.pubkey = suite.edPublic root →
      Ed25519BlindedKey.ofRoot suite root blindDomain = some blinded → IsInt64 now →
      ClientContact.decrypt suite.toCryptoSuite (cc.encryptAndSign suite blinded nonce now).1
        (suite.edPublic root) = some (cc.encryptAndSign suite blinded nonce now).2 := by
  refine ⟨fun signedAt => ClientContact.ofBytes_btEncode hvalid signedAt, ?_⟩
  intro root blindDomain blinded nonce now hroot hblinded hnow
  exact ClientContact.decrypt_encryptAndSign hsigns hvalid hroot hblinded nonce hnow

/-! ### A contact with everything in it -/

namespace Published

def suite : BlindingSuite where
  stream key nonce i := key.data.getD (i % 32) 0 + nonce.data.getD (i % 24) 0
  aeadStream key _ i := key.data.getD (i % 32) 0
  poly1305 _ _ _ _ := FixedBytes.zero 16
  edPublic := id
  edScalarmult a b := some (a ^^^ b)
  xPublic := id
  xScalarmult a b := some (a ^^^ b)
  edPublicToX := some
  edSecretToX := id
  blake2b size key personal message := FixedBytes.ofBytes size (key ++ personal ++ message)
  edVerify _ _ signature := signature.data.take 32 = signature.data.drop 32
  scalarReduce n := FixedBytes.ofBytes 32 n.data
  scalarmultNoclamp a b := some (a ^^^ b)
  sha512 := FixedBytes.ofBytes 64
  scalarMul a b := a ^^^ b
  scalarAdd _ b := b
  scalarmultBaseNoclamp := some

theorem signaturesVerify : suite.SignaturesVerify := by
  intro key _ message
  simp [suite, Ed25519BlindedKey.sign]

def contact : ClientContact where
  pubkey := FixedBytes.filled 32 0x41
  intros := [⟨FixedBytes.filled 32 1, FixedBytes.filled 16 2, 1800000000⟩]
  intros_sorted := List.pairwise_singleton _ _
  srv := [⟨ascii "_http", ascii "_tcp", 10, 0, 80, []⟩]
  protos := 12
  signedAt := 0
  exitPolicy := some ⟨[⟨0x0a000000, 8⟩], [⟨0xfd2e736573680000, 0, 48⟩], {⟨17, some 53⟩, ⟨6, none⟩}⟩

theorem valid_contact : contact.Valid where
  expiries := by simp [contact, IsInt64]
  srv := by
    intro srv hmem
    rw [List.mem_singleton.mp hmem]
    decide +kernel
  exitPolicy := by
    rintro policy ⟨⟩
    exact ⟨by decide, by decide⟩

def blinded : Ed25519BlindedKey :=
  let scalar := contact.pubkey ^^^
    Crypto.blindingScalar suite.toCryptoSuite contact.pubkey Crypto.clientContactDomain
  ⟨scalar, suite.blake2b 32 Crypto.clientContactDomain [] contact.pubkey.data, scalar⟩

end Published

open Published

theorem contact_roundTrip_published : ClientContact.ofBytes contact.btEncode 0 = some contact ∧
      ClientContact.decrypt suite.toCryptoSuite
        (contact.encryptAndSign suite blinded (FixedBytes.zero 24) 1790000000000).1 contact.pubkey =
      some { contact with signedAt := 1790000000000 } := by
  obtain ⟨hdecode, hdecrypt⟩ := contact_roundTrip suite signaturesVerify contact valid_contact
  exact ⟨hdecode 0, hdecrypt contact.pubkey Crypto.clientContactDomain blinded (FixedBytes.zero 24)
    1790000000000 rfl rfl (by simp [IsInt64])⟩

end SessionRouter
