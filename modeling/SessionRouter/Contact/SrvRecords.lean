import SessionRouter.Contact.ContactEncoding

/-!
# Where SRV records come from
-/

namespace SessionRouter

open Lib Bencode DomainName Split

namespace Dns.SRVData

def TargetOk (target : Bytes) : Prop :=
  target.length ≤ targetMaxSize ∧
    ((dot :: clientTld) <:+ target ∨ ascii ".loki" <:+ target ∨ target = [dot] ∨ target = [])

theorem isValid_iff {srv : SRVData} :
    srv.isValid = true ↔
      checkPiece srv.service = true ∧ checkPiece srv.proto = true ∧ TargetOk srv.target := by
  simp [isValid, TargetOk, or_assoc, and_assoc]

def Acceptable (c : DictConsumer) : Prop :=
  ∃ port c' serviceProto c'' service proto,
    c.require (readUnsigned 16) (ascii "p") = some (port, c') ∧
      c'.require readString (ascii "s") = some (serviceProto, c'') ∧
      serviceProto = service ++ dot :: proto ∧ checkPiece service = true ∧
      checkPiece proto = true ∧
      ∀ target c₃, c''.require readString (ascii "t") = some (target, c₃) → TargetOk target

theorem targetOk_nil : TargetOk [] := ⟨by simp, by simp⟩

theorem splitOn_of_checkPiece {service proto : Bytes} (hservice : checkPiece service = true)
    (hproto : checkPiece proto = true) :
    (service ++ dot :: proto).splitOn dot = [service, proto] := by
  rw [splitOn_dot_append _ (dot_notMem_of_checkPiece hproto),
    Split.splitOn_of_notMem (dot_notMem_of_checkPiece hservice)]
  rfl

theorem splitOn_pair {text service proto : Bytes} (h : text.splitOn dot = [service, proto]) :
    text = service ++ dot :: proto := by
  simpa [List.intercalate] using (splitOn_eq_iff.mp h).2.2

theorem isValid_decode_iff (c : DictConsumer) : (decode c).isValid = true ↔ Acceptable c := by
  rw [isValid_iff, decode, Acceptable]
  cases hport : c.require (readUnsigned 16) (ascii "p") with
  | none => simp [blank, checkPiece]
  | some found =>
    obtain ⟨port, c'⟩ := found
    cases hpair : c'.require readString (ascii "s") with
    | none => simp [hpair, blank, checkPiece]
    | some found =>
      obtain ⟨serviceProto, c''⟩ := found
      simp only [Option.some.injEq, Prod.mk.injEq, and_assoc, exists_and_left, exists_eq_left',
        hpair]
      split
      · next service proto hsplit =>
        have hpieces (ok : Prop) : (∃ service' proto', serviceProto = service' ++ dot :: proto' ∧
            checkPiece service' = true ∧ checkPiece proto' = true ∧ ok) ↔
              checkPiece service = true ∧ checkPiece proto = true ∧ ok := by
          refine ⟨?_, fun h => ⟨service, proto, splitOn_pair hsplit, h⟩⟩
          rintro ⟨service', proto', rfl, hservice, hproto, hok⟩
          have heq := (splitOn_of_checkPiece hservice hproto).symm.trans hsplit
          cases heq
          exact ⟨hservice, hproto, hok⟩
        rw [hpieces]
        cases htarget : c''.require readString (ascii "t") with
        | none => simp [blank, targetOk_nil]
        | some found =>
          obtain ⟨target, c₃⟩ := found
          -- what follows the target has no part in the validity
          dsimp only
          split
          · simp
          · split <;> simp
      · next hsplit =>
        refine ⟨fun h => absurd h.1 (by simp [blank, checkPiece]), ?_⟩
        rintro ⟨service, proto, rfl, hservice, hproto, -⟩
        exact absurd (splitOn_of_checkPiece hservice hproto) (hsplit service proto)

end Dns.SRVData

namespace ClientContact

def srvDicts (buf : Bytes) : List DictConsumer :=
  (do
    let c ← DictConsumer.ofBytes buf
    let (_, c) ← c.require (readUnsigned 8) []
    let (_, c) ← c.require (readFixed 32) (ascii "a")
    let (_, c) ← c.maybe (readDict Net.ExitPolicy.decode) (ascii "e")
    let (_, c) ← c.require (readList (readDict ClientIntro.decode)) (ascii "i")
    let (_, c) ← c.require (readUnsigned 8) (ascii "p")
    let (dicts, _) ← c.maybe (readList (readDict some)) (ascii "s")
    return dicts.getD [] : Option (List DictConsumer)).getD []

theorem readItems_map {α β : Type*} (read : Bytes → Option (α × Bytes)) (f : α → β) (fuel : Nat)
    (bytes : Bytes) :
    readItems (fun bytes => (read bytes).map fun found => (f found.1, found.2)) fuel bytes =
      (readItems read fuel bytes).map (List.map f) := by
  induction fuel generalizing bytes with
  | zero => rfl
  | succ fuel ih =>
    unfold readItems
    split
    · rfl
    · cases hread : read bytes with
      | none => simp
      | some found => simp [ih, Function.comp_def]

theorem maybe_map (c : DictConsumer) (wanted : Bytes) :
    c.maybe (readList (readDict fun c => some (Dns.SRVData.decode c))) wanted =
      (c.maybe (readList (readDict some)) wanted).map fun found =>
        (found.1.map (List.map Dns.SRVData.decode), found.2) := by
  have hdict : (readDict fun c => some (Dns.SRVData.decode c)) = fun bytes =>
      (readDict some bytes).map fun found => (Dns.SRVData.decode found.1, found.2) := by
    funext bytes
    simp [readDict, Option.map_bind]
  have hlist (bytes : Bytes) : readList (readDict fun c => some (Dns.SRVData.decode c)) bytes =
      (readList (readDict some) bytes).map fun found =>
        (found.1.map Dns.SRVData.decode, found.2) := by
    unfold readList
    split
    · rfl
    · rw [hdict, readItems_map]
      simp [Function.comp_def]
  unfold DictConsumer.maybe
  split
  · rfl
  · rfl
  · simp [hlist, Function.comp_def]

theorem srv_eq_map {buf : Bytes} {signedAt : Int} {cc : ClientContact}
    (h : ofBytes buf signedAt = some cc) : cc.srv = (srvDicts buf).map Dns.SRVData.decode := by
  simp only [ofBytes, Option.bind_eq_bind, Option.bind_eq_some_iff] at h
  obtain ⟨c₀, h₀, ⟨version, c₁⟩, h₁, h⟩ := h
  split at h
  case isTrue => cases h
  simp only [Option.bind_eq_some_iff] at h
  obtain ⟨⟨pubkey, c₂⟩, h₂, ⟨exit, c₃⟩, h₃, ⟨intros, c₄⟩, h₄, h⟩ := h
  split at h
  case isFalse => cases h
  simp only [Option.bind_eq_some_iff] at h
  obtain ⟨⟨protos, c₅⟩, h₅, ⟨srv, c₆⟩, h₆, h⟩ := h
  split at h
  case isFalse => cases h
  cases h
  simp only [srvDicts, h₀, h₁, h₂, h₃, h₄, h₅, Option.bind_eq_bind, Option.bind_some]
  rw [maybe_map, Option.map_eq_some_iff] at h₆
  obtain ⟨⟨dicts, c₆⟩, h₆, heq⟩ := h₆
  cases heq
  rw [h₆]
  cases dicts <;> rfl

/-- A contact that has been decoded has only valid records exactly if each of its dictionaries is
acceptable. -/
theorem srv_valid_iff {buf : Bytes} {signedAt : Int} {cc : ClientContact}
    (h : ofBytes buf signedAt = some cc) :
    (∀ srv ∈ cc.srv, srv.isValid = true) ↔
      ∀ c ∈ srvDicts buf, Dns.SRVData.Acceptable c := by
  rw [srv_eq_map h, List.forall_mem_map]
  exact forall₂_congr fun c _ => Dns.SRVData.isValid_decode_iff c

def foreignTarget : Bytes :=
  encodeDict [([], encodeInt 0), (ascii "a", encodeString (List.replicate 32 0)),
    (ascii "i", encodeList []), (ascii "p", encodeInt 0),
    (ascii "s", encodeList [Dns.SRVData.btEncode
      ⟨ascii "_a", ascii "_b", 0, 0, 1, ascii "x.com"⟩])]

theorem foreignTarget_decoded : (ofBytes foreignTarget 0).map ClientContact.srv =
        some [⟨ascii "_a", ascii "_b", 0, 0, 1, ascii "x.com"⟩] ∧
      Dns.SRVData.isValid ⟨ascii "_a", ascii "_b", 0, 0, 1, ascii "x.com"⟩ = false := by
  decide +kernel

theorem srv_valid_iff_foreignTarget : ∃ cc, ofBytes foreignTarget 0 = some cc ∧
      ((∀ srv ∈ cc.srv, srv.isValid = true) ↔
        ∀ c ∈ srvDicts foreignTarget, Dns.SRVData.Acceptable c) := by
  have hsome : (ofBytes foreignTarget 0).isSome = true := by decide +kernel
  obtain ⟨cc, h⟩ := Option.isSome_iff_exists.mp hsome
  exact ⟨cc, h, srv_valid_iff h⟩

end ClientContact

namespace Dns.SRVData

def parseUInt16 (text : Bytes) : Option UInt16 :=
  if text = [] ∨ ¬text.all (fun char => 48 ≤ char && char ≤ 57) then none
  else
    let value := text.foldl (fun value char => value * 10 + (char - 48).toNat) 0
    if 65535 < value then none else some (UInt16.ofNat value)

def space : UInt8 := 0x20

def fromString (srvString : Bytes) : Option SRVData :=
  match srvString.splitOn space with
  | [serviceProto, priority, weight, port, target] =>
    match serviceProto.splitOn dot with
    | [service, proto] => do
      let priority ← parseUInt16 priority
      let weight ← parseUInt16 weight
      let port ← parseUInt16 port
      let srv : SRVData := ⟨service, proto, priority, weight, port, target⟩
      if srv.isValid then some srv else none
    | _ => none
  | _ => none

/-! ### The documented format -/

/-- The text `_service._proto priority weight port`. -/
structure IsHead (head : Bytes) (srv : SRVData) : Prop where
  service : checkPiece srv.service = true
  proto : checkPiece srv.proto = true
  written : ∃ priority weight port, IsDecimal priority srv.priority.toNat ∧
    IsDecimal weight srv.weight.toNat ∧ IsDecimal port srv.port.toNat ∧
    head = [space].intercalate [srv.service ++ dot :: srv.proto, priority, weight, port]

def IsTarget (target : Bytes) : Prop :=
  target = [dot] ∨ target.length ≤ targetMaxSize ∧ space ∉ target ∧
    ∃ labels ≠ [], (∀ label ∈ labels, ValidLabel label) ∧
      ∃ tld ∈ [clientTld, ascii "loki"], target = dotted labels ++ dot :: tld

def Documented (text : Bytes) (srv : SRVData) : Prop :=
  ∃ head, IsHead head srv ∧
    (text = head ∧ srv.target = [] ∨ text = head ++ space :: srv.target ∧ IsTarget srv.target)

theorem parseUInt16_eq_some_iff {text : Bytes} {value : UInt16} :
    parseUInt16 text = some value ↔ IsDecimal text value.toNat :=
  readDecimal_eq_some_iff
    (fun n hle => UInt16.toNat_ofNat_of_lt' (by rw [UInt16.size]; omega))
    (fun value => Nat.le_of_lt_succ value.toNat_lt) fun _ => UInt16.ofNat_toNat

theorem space_notMem_of_isDecimal {text : Bytes} {value : Nat} (h : IsDecimal text value) :
    space ∉ text := fun hmem => absurd (h.digits space hmem).1 (by decide)

theorem space_notMem_of_checkPiece {piece : Bytes} (h : checkPiece piece = true) :
    space ∉ piece := by
  simp only [checkPiece, Bool.and_eq_true, decide_eq_true_eq] at h
  obtain ⟨⟨-, hhead⟩, htail⟩ := h
  obtain ⟨rest, rfl⟩ := List.head?_eq_some_iff.mp hhead
  intro hmem
  rcases List.mem_cons.mp hmem with heq | hmem
  · exact absurd heq (by decide)
  · have hall := List.all_eq_true.mp htail space hmem
    revert hall
    decide +kernel

variable {head text : Bytes} {srv : SRVData}

theorem IsHead.count_space (h : IsHead head srv) : head.count space = 3 := by
  obtain ⟨hservice, hproto, priority, weight, port, hpriority, hweight, hport, rfl⟩ := h
  have hdot : (dot == space) = false := by decide
  simp [List.intercalate, List.count_cons, hdot,
    List.count_eq_zero.mpr (space_notMem_of_checkPiece hservice),
    List.count_eq_zero.mpr (space_notMem_of_checkPiece hproto),
    List.count_eq_zero.mpr (space_notMem_of_isDecimal hpriority),
    List.count_eq_zero.mpr (space_notMem_of_isDecimal hweight),
    List.count_eq_zero.mpr (space_notMem_of_isDecimal hport)]

theorem IsTarget.targetOk {target : Bytes} (h : IsTarget target) :
    space ∉ target ∧ TargetOk target := by
  rcases h with rfl | ⟨hlength, hspace, labels, -, -, tld, htld, rfl⟩
  · exact ⟨by decide, by decide, .inr (.inr (.inl rfl))⟩
  · refine ⟨hspace, hlength, ?_⟩
    rcases List.mem_pair.mp htld with rfl | rfl
    · exact .inl (List.suffix_append _ _)
    · exact .inr (.inl (List.suffix_append _ _))

theorem fromString_eq_some_iff : fromString text = some srv ↔
      ∃ head, IsHead head srv ∧ text = head ++ space :: srv.target ∧ space ∉ srv.target ∧
        TargetOk srv.target := by
  constructor
  · intro h
    unfold fromString at h
    split at h
    case h_2 => cases h
    next serviceProto priority weight port target hparts =>
    split at h
    case h_2 => cases h
    next service proto hpair =>
    simp only [Option.bind_eq_bind, Option.bind_eq_some_iff] at h
    obtain ⟨p, hpriority, w, hweight, q, hport, h⟩ := h
    split at h
    case isFalse => cases h
    next hvalid =>
    cases h
    obtain ⟨hservice, hproto, htarget⟩ := isValid_iff.mp hvalid
    obtain ⟨-, hspace, rfl⟩ := splitOn_eq_iff.mp hparts
    refine ⟨_, ⟨hservice, hproto, _, _, _, parseUInt16_eq_some_iff.mp hpriority,
      parseUInt16_eq_some_iff.mp hweight, parseUInt16_eq_some_iff.mp hport, rfl⟩, ?_,
      hspace target (by simp), htarget⟩
    rw [splitOn_pair hpair]
    simp [List.intercalate]
  · rintro ⟨head, ⟨hservice, hproto, priority, weight, port, hpriority, hweight, hport, rfl⟩, rfl,
      hspace, htarget⟩
    have hpair : space ∉ srv.service ++ dot :: srv.proto := by
      simp [space_notMem_of_checkPiece hservice, space_notMem_of_checkPiece hproto]
      decide
    have hparts : ([space].intercalate [srv.service ++ dot :: srv.proto, priority, weight, port] ++
        space :: srv.target).splitOn space =
          [srv.service ++ dot :: srv.proto, priority, weight, port, srv.target] := by
      refine splitOn_eq_iff.mpr ⟨by simp, ?_, by simp [List.intercalate]⟩
      simp [hpair, space_notMem_of_isDecimal hpriority, space_notMem_of_isDecimal hweight,
        space_notMem_of_isDecimal hport, hspace]
    unfold fromString
    rw [hparts]
    dsimp only
    rw [splitOn_of_checkPiece hservice hproto]
    simp [parseUInt16_eq_some_iff.mpr hpriority, parseUInt16_eq_some_iff.mpr hweight,
      parseUInt16_eq_some_iff.mpr hport, isValid_iff, hservice, hproto, htarget]

/-- A text is read as documented exactly if it does not leave its target out, with or without the
space before it, and has no target that only ends like a name.  A record that has been read comes
back from its encoding. -/
theorem fromString_documented_iff (text : Bytes) :
    ((∀ srv, fromString text = some srv ↔ Documented text srv) ↔
      ∀ head srv, IsHead head srv →
        text ≠ head ∧ ¬(text = head ++ space :: srv.target ∧ space ∉ srv.target ∧
          TargetOk srv.target ∧ ¬IsTarget srv.target)) ∧
    ∀ srv, fromString text = some srv →
      readDict (fun c => some (decode c)) srv.btEncode = some (srv, []) := by
  refine ⟨⟨fun h head srv hhead => ⟨?_, ?_⟩, fun h srv => ?_⟩, fun srv h => ?_⟩
  · rintro rfl
    have hdoc : Documented text { srv with target := [] } :=
      ⟨text, ⟨hhead.service, hhead.proto, hhead.written⟩, .inl ⟨rfl, rfl⟩⟩
    obtain ⟨head, hhead', heq, -, -⟩ := fromString_eq_some_iff.mp ((h _).mpr hdoc)
    have hcount := hhead.count_space
    rw [heq, List.count_append, hhead'.count_space] at hcount
    simp at hcount
  · rintro ⟨heq, hspace, hok, hnot⟩
    obtain ⟨head', hhead', ⟨heq', -⟩ | ⟨-, htarget⟩⟩ :=
      (h srv).mp (fromString_eq_some_iff.mpr ⟨head, hhead, heq, hspace, hok⟩)
    · have hcount := hhead'.count_space
      rw [← heq', heq, List.count_append, hhead.count_space] at hcount
      simp at hcount
    · exact hnot htarget
  · rw [fromString_eq_some_iff]
    constructor
    · rintro ⟨head, hhead, heq, hspace, hok⟩
      refine ⟨head, hhead, .inr ⟨heq, ?_⟩⟩
      by_contra hnot
      exact (h head srv hhead).2 ⟨heq, hspace, hok, hnot⟩
    · rintro ⟨head, hhead, ⟨heq, -⟩ | ⟨heq, htarget⟩⟩
      · exact absurd heq (h head srv hhead).1
      · exact ⟨head, hhead, heq, htarget.targetOk⟩
  · obtain ⟨head, hhead, -, -, hok⟩ := fromString_eq_some_iff.mp h
    have hread := (readsBack (isValid_iff.mpr ⟨hhead.service, hhead.proto, hok⟩)).read_append []
    rwa [List.append_nil] at hread

theorem fromString_noTarget : fromString (ascii "_a._b 1 2 3") = none ∧
      Documented (ascii "_a._b 1 2 3") ⟨ascii "_a", ascii "_b", 1, 2, 3, []⟩ ∧
      fromString (ascii "_a._b 1 2 3 ") = some ⟨ascii "_a", ascii "_b", 1, 2, 3, []⟩ := by
  refine ⟨by decide +kernel, ⟨_, ⟨by decide +kernel, by decide +kernel, ascii "1", ascii "2",
    ascii "3", ⟨by decide +kernel, by decide +kernel, by decide +kernel⟩,
    ⟨by decide +kernel, by decide +kernel, by decide +kernel⟩,
    ⟨by decide +kernel, by decide +kernel, by decide +kernel⟩, rfl⟩, .inl ⟨by decide +kernel, rfl⟩⟩,
    by decide +kernel⟩

end Dns.SRVData
end SessionRouter
