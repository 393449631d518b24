import SessionRouter.Path.Build

/-!
# A relay reads the frame that was made for it
-/

namespace SessionRouter

open Lib Bencode

namespace Path

variable {suite : CryptoSuite} {hop : TransitHop} {lifetime : Nat} {rnd : BuildRandom}
  {e : EncodedFrame}

theorem length_encodeString (s : Bytes) :
    (encodeString s).length = (decimal s.length).length + 1 + s.length := by
  simp only [encodeString, List.length_append, List.length_cons]
  omega

theorem length_framePayloadV0 (hop : TransitHop) (lifetime : Nat) :
    (framePayloadV0 hop lifetime).length = 93 := by
  simp only [framePayloadV0, encodeDict, encodeEntries, List.flatMap_cons, List.flatMap_nil,
    List.length_cons, List.length_append, List.length_nil, length_encodeString,
    length_storeLittle, FixedBytes.length_data]
  rfl

theorem encodeFrameV0_isSome_iff (hop : TransitHop) (lifetime : Nat) (rnd : BuildRandom) :
    (encodeFrameV0 suite hop lifetime rnd).isSome ↔
      (Crypto.dhClient suite hop.routerId rnd.ephEd rnd.dhNonce).isSome := by
  unfold encodeFrameV0
  cases Crypto.dhClient suite hop.routerId rnd.ephEd rnd.dhNonce with
  | none => simp
  | some secret =>
    have hsize (hop : TransitHop) : (encodeDict
        [(ascii "k", encodeString (suite.edPublic rnd.ephEd).data),
         (ascii "n", encodeString rnd.dhNonce.data),
         (ascii "x", encodeString (Crypto.xchacha20 suite.toCipherSuite
            (framePayloadV0 hop lifetime) secret rnd.dhNonce))]).length = buildFrameSize := by
      simp only [encodeDict, encodeEntries, List.flatMap_cons, List.flatMap_nil,
        List.length_cons, List.length_append, List.length_nil, length_encodeString,
        Crypto.length_xchacha20, length_framePayloadV0, FixedBytes.length_data]
      rfl
    simp [hsize]

theorem encodeFrameV0_eq_some (h : encodeFrameV0 suite hop lifetime rnd = some e) :
    ∃ secret, Crypto.dhClient suite hop.routerId rnd.ephEd rnd.dhNonce = some secret ∧
      e.hop = { hop with sharedSecret := secret, xorNonce := xorNonceOf suite secret } ∧
      e.onionNonce = rnd.dhNonce ^^^ xorNonceOf suite secret ∧
      e.frame.length = buildFrameSize ∧
      e.frame = encodeDict
        [(ascii "k", encodeString (suite.edPublic rnd.ephEd).data),
         (ascii "n", encodeString rnd.dhNonce.data),
         (ascii "x", encodeString (Crypto.xchacha20 suite.toCipherSuite
            (framePayloadV0 hop lifetime) secret rnd.dhNonce))] := by
  unfold encodeFrameV0 at h
  cases hsecret : Crypto.dhClient suite hop.routerId rnd.ephEd rnd.dhNonce with
  | none =>
    rw [hsecret] at h
    exact absurd h (by simp)
  | some secret =>
    rw [hsecret] at h
    simp only [Option.ite_none_left_eq_some, Option.some.injEq, ne_eq, not_not] at h
    obtain ⟨hsize, rfl⟩ := h
    exact ⟨secret, rfl, rfl, rfl, hsize, rfl⟩

theorem parsePayloadV0_framePayloadV0 (hop : TransitHop) (lifetime : Nat) :
    parsePayloadV0 (framePayloadV0 hop lifetime) =
      some (lifetime % 256 ^ 4, hop.rxid, hop.txid, hop.upstream) := by
  have hlifetime (tail : Bytes) :
      DictConsumer.require (readFixed 4) (ascii "l")
          ⟨none, encodeString (ascii "l") ++ (encodeString (storeLittle 4 lifetime) ++ tail)⟩ =
        some (⟨storeLittle 4 lifetime, length_storeLittle 4 lifetime⟩, ⟨none, tail⟩) :=
    DictConsumer.require_readFixed_entry (ascii "l") tail ⟨storeLittle 4 lifetime, _⟩
  simp [parsePayloadV0, framePayloadV0, hlifetime, loadLittle_storeLittle]

theorem parseFrameV0_encodeDict (eph : PubKey) (nonce : SymmNonce) (payload : Bytes) :
    parseFrameV0 (encodeDict
        [(ascii "k", encodeString eph.data),
         (ascii "n", encodeString nonce.data),
         (ascii "x", encodeString payload)]) = some (eph, nonce, payload) := by
  simp [parseFrameV0]

def recoveredHop (src : NextHop) (hop : TransitHop) (now : Int) (lifetime : Nat) : TransitHop :=
  { hop with
    routerId := FixedBytes.zero 32
    downstream := src
    expiry := expiryAfter now lifetime
    version := if hop.version = 0 then 0 else 1 }

variable {secretKey : Ed25519SecretKey}

theorem decodeFrameV0_encodeFrameV0 (hlaw : suite.Lawful)
    (hkey : suite.edPublic secretKey = hop.routerId) (hversion : hop.version = 0)
    (h : encodeFrameV0 suite hop lifetime rnd = some e) (src : NextHop) (now : Int) :
    decodeFrameV0 suite (blankHop src) e.frame secretKey now =
      .ok ({ recoveredHop src e.hop now (lifetime % 256 ^ 4) with terminalHop := false },
        e.onionNonce) := by
  obtain ⟨secret, hsecret, hhop, hnonce, hsize, hframe⟩ := encodeFrameV0_eq_some h
  have hserver : Crypto.dhServer suite (suite.edPublic rnd.ephEd) secretKey rnd.dhNonce =
      some secret := by
    rw [Crypto.dhServer_eq_dhClient hlaw, hkey, hsecret]
  have hsize : ¬ e.frame.length ≠ buildFrameSizeV0 := not_not.mpr hsize
  rw [decodeFrameV0, if_neg hsize, hframe, parseFrameV0_encodeDict]
  simp only [hserver, Crypto.xchacha20_xchacha20, parsePayloadV0_framePayloadV0]
  simp [recoveredHop, blankHop, hhop, hnonce, hversion]

theorem length_frameRecordV1 (hop : TransitHop) (lifetime : Nat) :
    (frameRecordV1 hop lifetime).length = 66 := by
  simp [frameRecordV1]

section

variable (h : encodeFrameV1 suite hop lifetime rnd = some e)

include h

theorem encodeFrameV1_eq_some : ∃ remote secret, suite.edPublicToX hop.routerId = some remote ∧
      Crypto.pathBuildSecret suite rnd.ephX remote true = some secret ∧
      e.hop = { hop with sharedSecret := secret, xorNonce := xorNonceOf suite secret } ∧
      e.onionNonce = xorNonceOf suite secret ∧
      e.frame = frameV1Version :: ((suite.xPublic rnd.ephX).data ++
        (Crypto.aeadSeal suite.toCipherSuite (frameRecordV1 hop lifetime) secret
          (FixedBytes.zero 24) [frameV1Version] ++ rnd.padding.data)) := by
  unfold encodeFrameV1 at h
  cases hremote : suite.edPublicToX hop.routerId with
  | none =>
    rw [hremote] at h
    exact absurd h (by simp)
  | some remote =>
    cases hsecret : Crypto.pathBuildSecret suite rnd.ephX remote true with
    | none =>
      simp only [hremote, hsecret] at h
      exact absurd h (by simp)
    | some secret =>
      simp only [hremote, hsecret, Option.some.injEq] at h
      subst h
      refine ⟨remote, secret, rfl, hsecret, rfl, rfl, ?_⟩
      rw [Crypto.encryptInplace_append _ _ _ (by simp)]
      rfl

theorem length_encodeFrameV1 : e.frame.length = buildFrameSize := by
  obtain ⟨_, secret, -, -, -, -, hframe⟩ := encodeFrameV1_eq_some h
  rw [hframe]
  simp only [List.length_cons, List.length_append, FixedBytes.length_data,
    Crypto.length_aeadSeal, length_frameRecordV1]
  rfl

end

theorem decodeFrameV1_encodeFrameV1 (hlaw : suite.Lawful)
    (hkey : suite.edPublic secretKey = hop.routerId) (hversion : hop.version ≠ 0)
    (h : encodeFrameV1 suite hop lifetime rnd = some e) (src : NextHop) (now : Int) :
    decodeFrameV1 suite (blankHop src) e.frame secretKey now =
      .ok ({ recoveredHop src e.hop now (lifetime % 256 ^ 2) with terminalHop := false },
        e.onionNonce) := by
  have hlen := length_encodeFrameV1 h
  obtain ⟨remote, secret, hremote, hsecret, hhop, hnonce, hframe⟩ := encodeFrameV1_eq_some h
  set record := frameRecordV1 hop lifetime with hrecord
  have hserver : Crypto.pathBuildSecret suite (suite.edSecretToX secretKey)
      (suite.xPublic rnd.ephX) false = some secret := by
    rw [Crypto.pathBuildSecret_symm hlaw, ← hsecret]
    rw [← hkey, hlaw.edPublicToX_edPublic] at hremote
    rw [Option.some.inj hremote]
  have hlong : ¬ e.frame.length < buildFrameSizeV1 := by
    rw [hlen]
    decide
  have heph : FixedBytes.ofBytes 32 (e.frame.drop 1) = suite.xPublic rnd.ephX := by
    rw [hframe, List.drop_one, List.tail_cons, FixedBytes.ofBytes_data_append]
  have hsealed : (e.frame.drop 33).take 82 =
      Crypto.aeadSeal suite.toCipherSuite record secret (FixedBytes.zero 24)
        [frameV1Version] := by
    rw [hframe, show (33 : Nat) = 1 + 32 from rfl, ← List.drop_drop, List.drop_one,
      List.tail_cons, FixedBytes.drop_data_append]
    exact List.take_left' (by
      rw [Crypto.length_aeadSeal, hrecord, length_frameRecordV1]
      rfl)
  have had : e.frame.take 1 = [frameV1Version] := by
    rw [hframe]
    rfl
  rw [decodeFrameV1, if_neg hlong]
  simp only [heph, hserver, hsealed, had, Crypto.decryptInplace_aeadSeal]
  -- the four fields stand one behind the other in the record
  have hlifetime : loadLittle (record.take 2) = lifetime % 256 ^ 2 := by
    rw [hrecord, frameRecordV1, List.take_left' (length_storeLittle 2 lifetime)]
    exact loadLittle_storeLittle 2 lifetime
  have hdrop2 : record.drop 2 = hop.rxid.data ++ (hop.txid.data ++ hop.upstream.data) := by
    rw [hrecord, frameRecordV1]
    exact List.drop_left' (length_storeLittle 2 lifetime)
  have hdrop18 : record.drop 18 = hop.txid.data ++ hop.upstream.data := by
    rw [show (18 : Nat) = 2 + 16 from rfl, ← List.drop_drop, hdrop2,
      FixedBytes.drop_data_append]
  have hdrop34 : record.drop 34 = hop.upstream.data := by
    rw [show (34 : Nat) = 18 + 16 from rfl, ← List.drop_drop, hdrop18,
      FixedBytes.drop_data_append]
  simp [hlifetime, hdrop2, hdrop18, hdrop34, recoveredHop, blankHop, hhop, hnonce, hversion]

section

variable (h : encodeFrame suite hop lifetime rnd = some e)

include h

theorem encodeFrame_cases : hop.version = 0 ∧ encodeFrameV0 suite hop lifetime rnd = some e ∨
      hop.version ≠ 0 ∧ encodeFrameV1 suite hop lifetime rnd = some e := by
  unfold encodeFrame at h
  by_cases hversion : hop.version = 0
  · have hsize : ¬ buildFrameSize ≠ buildFrameSizeV0 := not_not.mpr rfl
    rw [if_pos hversion, if_neg hsize] at h
    exact Or.inl ⟨hversion, h⟩
  · rw [if_neg hversion] at h
    exact Or.inr ⟨hversion, h⟩

theorem length_encodeFrame : e.frame.length = buildFrameSize := by
  rcases encodeFrame_cases h with ⟨-, hv0⟩ | ⟨-, hv1⟩
  · obtain ⟨_, -, -, -, hsize, -⟩ := encodeFrameV0_eq_some hv0
    exact hsize
  · exact length_encodeFrameV1 hv1

theorem encodeFrame_hop :
    e.hop = { hop with sharedSecret := e.hop.sharedSecret, xorNonce := e.hop.xorNonce } := by
  rcases encodeFrame_cases h with ⟨-, hv0⟩ | ⟨-, hv1⟩
  · obtain ⟨_, -, hhop, -⟩ := encodeFrameV0_eq_some hv0
    rw [hhop]
  · obtain ⟨_, _, -, -, hhop, -⟩ := encodeFrameV1_eq_some hv1
    rw [hhop]

end

structure Consistent (hop : TransitHop) (routerId : RouterID) : Prop where
  rxid_ne : hop.rxid ≠ FixedBytes.zero 16
  txid_ne : hop.txid ≠ FixedBytes.zero 16
  upstream_iff : hop.terminalHop = decide (hop.upstream = routerId)
  ids_iff : hop.terminalHop = decide (hop.txid = hop.rxid)

theorem finishHop_recovered (lifetime : Nat) (src : NextHop) (now : Int) (nonce : SymmNonce)
    {routerId : RouterID}
    (hconsistent : Consistent hop routerId) :
    finishHop routerId
        ({ recoveredHop src hop now lifetime with terminalHop := false }, nonce) =
      .ok (recoveredHop src hop now lifetime, nonce) := by
  have hids := hconsistent.upstream_iff.symm.trans hconsistent.ids_iff
  have hterminal := hconsistent.upstream_iff
  simp [finishHop, recoveredHop, hconsistent.rxid_ne, hconsistent.txid_ne, hids, hterminal]

theorem decryptBuildFrame_encodeFrame (hlaw : suite.Lawful)
    (hkey : suite.edPublic secretKey = hop.routerId) (hlifetime : lifetime < 65536)
    (hconsistent : Consistent hop hop.routerId) (h : encodeFrame suite hop lifetime rnd = some e)
    (src : NextHop) (now : Int) :
    decryptBuildFrame suite e.frame hop.routerId secretKey src now =
      .ok (recoveredHop src e.hop now lifetime, e.onionNonce) := by
  have hconsistent : Consistent e.hop hop.routerId := by
    rw [encodeFrame_hop h]
    exact ⟨hconsistent.rxid_ne, hconsistent.txid_ne, hconsistent.upstream_iff,
      hconsistent.ids_iff⟩
  have hfinish := finishHop_recovered lifetime src now e.onionNonce hconsistent
  rcases encodeFrame_cases h with ⟨hversion, hv0⟩ | ⟨hversion, hv1⟩
  · obtain ⟨_, -, -, -, -, hframe⟩ := encodeFrameV0_eq_some hv0
    have hdecode := decodeFrameV0_encodeFrameV0 hlaw hkey hversion hv0 src now
    rw [Nat.mod_eq_of_lt (by omega)] at hdecode
    rw [hframe] at hdecode ⊢
    exact (congrArg (Except.bind · (finishHop hop.routerId)) hdecode).trans hfinish
  · obtain ⟨_, _, -, -, -, -, hframe⟩ := encodeFrameV1_eq_some hv1
    have hdecode := decodeFrameV1_encodeFrameV1 hlaw hkey hversion hv1 src now
    rw [Nat.mod_eq_of_lt (by omega)] at hdecode
    rw [hframe] at hdecode ⊢
    exact (congrArg (Except.bind · (finishHop hop.routerId)) hdecode).trans hfinish

end Path
end SessionRouter
