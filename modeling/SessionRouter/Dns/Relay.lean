import Mathlib.Data.List.TakeWhile
import SessionRouter.Dns.Layout
import SessionRouter.Dns.RawReading

/-!
# Relaying replies
-/

namespace SessionRouter.Dns

open Lib DomainName Scan Encoder

/-! ## What a relayed reply is -/

def removedType (type : Nat) : Bool :=
  type = RRType.OPT.toNat ∨ type = RRType.TSIG.toNat

def PRREdns.decoded (edns : PRREdns) : DecodedRecord :=
  ⟨[], RRType.OPT.toNat, edns.maxPayload.toNat, ttlWord edns.ttl, [.bytes edns.optionBytes]⟩

def DecodedMessage.relay (message : DecodedMessage) (edns : Option PRREdns) : DecodedMessage :=
  { message with
    additional := (message.additional.filter fun record => !removedType record.type) ++
      (edns.map PRREdns.decoded).toList }

def RawMessage.Untruncated (m : RawMessage) (maxSize : Bool) (response : Bytes) : Prop :=
  ∃ header afterHeader questions afterQuestions records afterRecords,
    m.encodeHeader (Span.start (bufferSize maxSize m.additionalEdns)) =
      some (header, afterHeader) ∧
    m.encodeQuestions afterHeader = some (questions, afterQuestions) ∧
    m.encodeRecords afterQuestions = some (records, afterRecords) ∧
    response = header ++ questions ++ records

def Relayed (msg : Bytes) (orig : Message) (maxSize : Bool) : Prop :=
  ∀ raw, RawMessage.parse msg = some raw →
    QuestionsParse (qdCount msg) (msg.drop 12) ∧
    ∃ decoded, decode msg = some decoded ∧
      ∀ response, (raw.rewriteFor orig).Untruncated maxSize response →
        decode response = some (decoded.relay orig.additionalEdns)

/-! ## The names of questions -/

def relabel (labels : List Bytes) : List Bytes :=
  nameLabels (dotted labels)

def PlainName (labels : List Bytes) : Prop :=
  (∀ label ∈ labels, dot ∉ label.tail) ∧ labels.getLast? ≠ some [dot]

theorem length_dropDot_le (name : Bytes) : (dropDot name).length ≤ name.length := by
  unfold dropDot
  split
  · rw [List.length_dropLast]
    exact Nat.sub_le _ _
  · exact Nat.le_refl _

theorem dotted_relabel (labels : List Bytes) : dotted (relabel labels) = dropDot (dotted labels) :=
  dotted_parts _

variable {labels : List Bytes}

theorem relabel_eq_of_append {others : List Bytes} (h : relabel labels = labels ++ others) :
    relabel labels = labels := by
  cases labels with
  | nil => rfl
  | cons label labels =>
    cases others with
    | nil => rwa [List.append_nil] at h
    | cons other others =>
      have hlength := congrArg List.length (dotted_relabel (label :: labels))
      rw [h, dotted_append (List.cons_ne_nil _ _) (List.cons_ne_nil _ _), List.length_append,
        List.length_cons] at hlength
      have hle := length_dropDot_le (dotted (label :: labels))
      omega

theorem getLast?_dotted (hne : ∀ label ∈ labels, label ≠ []) :
    (dotted labels).getLast? = labels.getLast?.bind List.getLast? := by
  induction labels with
  | nil => rfl
  | cons label labels ih =>
    cases labels with
    | nil => rfl
    | cons next labels =>
      have hothers : ∀ other ∈ next :: labels, other ≠ [] :=
        fun other hother => hne other (List.mem_cons_of_mem _ hother)
      have hdotted := dotted_ne_nil (List.cons_ne_nil next labels) hothers
      rw [dotted_cons_of_ne_nil label (List.cons_ne_nil _ _), List.getLast?_append_of_ne_nil _
        (List.cons_ne_nil _ _), ← List.singleton_append,
        List.getLast?_append_of_ne_nil _ hdotted, ih hothers, List.getLast?_cons_cons]

theorem eq_dot_of_getLast? {label : Bytes} (hlast : label.getLast? = some dot)
    (htail : dot ∉ label.tail) : label = [dot] := by
  cases label with
  | nil => cases hlast
  | cons byte label =>
    cases label with
    | nil =>
      cases hlast
      rfl
    | cons next label =>
      rw [List.getLast?_cons_cons] at hlast
      exact absurd (List.mem_of_getLast? hlast) htail

theorem relabel_eq_iff (hlabels : WireLabels labels) :
    relabel labels = labels ↔ PlainName labels := by
  have hne : ∀ label ∈ labels, label ≠ [] := fun label hmem => (hlabels label hmem).1
  constructor
  · intro h
    refine ⟨fun label hmem => ?_, fun hlast => ?_⟩
    · rw [← h] at hmem
      exact dot_notMem_tail_of_mem_parts hmem
    · -- the dot at the end would be dropped
      have hdot : (dotted labels).getLast? = some dot := by
        rw [getLast?_dotted hne, hlast]
        rfl
      have hlength := congrArg List.length (dotted_relabel labels)
      rw [h, dropDot, if_pos hdot, List.length_dropLast] at hlength
      have hpos : 0 < (dotted labels).length := by
        refine List.length_pos_iff.mpr fun hempty => ?_
        rw [hempty] at hdot
        cases hdot
      omega
  · rintro ⟨htails, hlast⟩
    have hdot : ¬(dotted labels).getLast? = some dot := by
      rw [getLast?_dotted hne]
      intro hbind
      obtain ⟨label, hlabel, hend⟩ := Option.bind_eq_some_iff.mp hbind
      have hmem := List.mem_of_getLast? hlabel
      rw [eq_dot_of_getLast? hend (htails label hmem)] at hlabel
      exact hlast hlabel
    rw [relabel, nameLabels, dropDot, if_neg hdot]
    exact parts_dotted fun label hmem => ⟨hne label hmem, htails label hmem⟩

/-! ## What is written -/

theorem all_map_eq_some {ι : Type} {encode : ι → Encoder} {bytes : ι → Bytes} {Good : ι → Prop}
    (hencode : ∀ value span written after, encode value span = some (written, after) →
      written = bytes value ∧ Good value ∧ after.room + written.length = span.room)
    {values : List ι} {span after : Span} {written : Bytes}
    (h : all (values.map encode) span = some (written, after)) :
    written = values.flatMap bytes ∧ (∀ value ∈ values, Good value) ∧
      after.room + written.length = span.room := by
  induction values generalizing span written with
  | nil =>
    cases h
    exact ⟨rfl, (fun value hmem => nomatch hmem), rfl⟩
  | cons value values ih =>
    rw [List.map_cons, all, List.foldr_cons] at h
    obtain ⟨begun, middle, done, hfirst, hothers, rfl⟩ := andThen_eq_some_iff.mp h
    obtain ⟨rfl, hgood, hroom⟩ := hencode value span begun middle hfirst
    obtain ⟨rfl, hgoods, hrest⟩ := ih hothers
    refine ⟨rfl, List.forall_mem_cons.mpr ⟨hgood, hgoods⟩, ?_⟩
    rw [List.length_append]
    omega

def Question.rawBytes (question : Question) : Bytes :=
  wire (nameLabels question.name) ++
    (storeBig 2 question.qtype.toNat ++ storeBig 2 question.qclass.toNat)

theorem encodeQuestion_eq_some {question : Question} {span after : Span} {written : Bytes}
    (h : RawMessage.encodeQuestion question span = some (written, after)) :
    written = question.rawBytes ∧ (∀ label ∈ nameLabels question.name, label.length ≤ 63) ∧
      after.room + written.length = span.room := by
  have hcounts := ((counts_encodeName false question.name).andThen (counts_put _)) span written
    after h
  obtain ⟨name, middle, codes, hname, hcodes, rfl⟩ := andThen_eq_some_iff.mp h
  have hfresh : span.Fresh false (nameLabels question.name) :=
    fun hcompress => absurd hcompress Bool.false_ne_true
  obtain ⟨rfl, hshort, -⟩ := (encodeName_fresh_iff hfresh).mp ⟨middle, hname⟩
  obtain ⟨-, rfl, -⟩ := put_eq_some_iff.mp hcodes
  refine ⟨?_, hshort, hcounts.room⟩
  simp only [Question.rawBytes, List.flatMap_cons, List.flatMap_nil, List.append_nil]

theorem writeTo_eq_some {raw : RawRR} {span after : Span} {written : Bytes}
    (h : raw.writeTo span = some (written, after)) :
    written = raw.bytes ∧ True ∧ after.room + written.length = span.room := by
  have hcounts := counts_put _ span written after h
  obtain ⟨-, rfl, -⟩ := put_eq_some_iff.mp h
  exact ⟨rfl, trivial, hcounts.room⟩

namespace RawMessage

def sent (m : RawMessage) : List RawRR :=
  m.answers ++ m.authorities ++ m.additional ++ (m.additionalEdns.map PRREdns.toRaw).toList

theorem Untruncated.spec {m : RawMessage} {maxSize : Bool} {response : Bytes}
    (h : m.Untruncated maxSize response) :
    ∃ header, m.encodeHeader (Span.start (bufferSize maxSize m.additionalEdns)) = some header ∧
      response = header.1 ++ (m.questions.flatMap Question.rawBytes ++ m.sent.flatMap RawRR.bytes) ∧
      (∀ question ∈ m.questions, ∀ label ∈ nameLabels question.name, label.length ≤ 63) ∧
      response.length < 2 ^ 16 := by
  obtain ⟨header, afterHeader, questions, afterQuestions, records, afterRecords, hheader,
    hquestions, hrecords, rfl⟩ := h
  have hroom := (counts_put _ _ header afterHeader hheader).room
  obtain ⟨rfl, hshort, hroomQuestions⟩ :=
    all_map_eq_some (fun question _ _ _ => @encodeQuestion_eq_some question _ _ _) hquestions
  obtain ⟨rfl, -, hroomRecords⟩ :=
    all_map_eq_some (fun raw _ _ _ => @writeTo_eq_some raw _ _ _) hrecords
  refine ⟨(header, afterHeader), hheader, by rw [List.append_assoc]; rfl, hshort, ?_⟩
  have hsize := Message.bufferSize_lt maxSize m.additionalEdns
  rw [Span.start] at hroom
  dsimp only at hroom
  rw [List.length_append, List.length_append]
  omega

end RawMessage

theorem ten_mul_length_le (raws : List RawRR) :
    10 * raws.length ≤ (raws.flatMap RawRR.bytes).length := by
  induction raws with
  | nil => exact Nat.le_refl _
  | cons raw raws ih =>
    simp only [List.flatMap_cons, List.length_append, List.length_cons, RawRR.bytes,
      length_storeBig]
    omega

theorem length_le_questions (questions : List Question) :
    questions.length ≤ (questions.flatMap Question.rawBytes).length := by
  induction questions with
  | nil => exact Nat.le_refl _
  | cons question questions ih =>
    simp only [List.flatMap_cons, List.length_append, List.length_cons, Question.rawBytes,
      length_storeBig]
    omega

theorem RawMessage.Untruncated.header {m : RawMessage} {maxSize : Bool} {response : Bytes}
    (h : m.Untruncated maxSize response) :
    12 ≤ response.length ∧ qdCount response = m.questions.length ∧
      anCount response = m.answers.length ∧ nsCount response = m.authorities.length ∧
      arCount response = m.additional.length + (m.additionalEdns.map PRREdns.toRaw).toList.length ∧
      response.drop 12 = m.questions.flatMap Question.rawBytes ++ m.sent.flatMap RawRR.bytes := by
  obtain ⟨⟨header, after⟩, hheader, rfl, -, hsize⟩ := h.spec
  obtain ⟨-, rfl, -⟩ := put_eq_some_iff.mp hheader
  have hedns : (if m.additionalEdns = none then 0 else 1) =
      (m.additionalEdns.map PRREdns.toRaw).toList.length := by
    cases m.additionalEdns <;> rfl
  have hrecords := ten_mul_length_le m.sent
  have hquestions := length_le_questions m.questions
  have hsent : m.sent.length = m.answers.length + m.authorities.length + m.additional.length +
      (m.additionalEdns.map PRREdns.toRaw).toList.length := by
    simp only [RawMessage.sent, List.length_append]
  simp only [List.flatMap_cons, List.flatMap_nil, List.append_nil, List.append_assoc,
    List.length_append, length_storeBig, hedns] at hsize ⊢
  -- no count overflows its 16 bits, as there is no room for that many
  have hcounts := wireCounts_eq_some_iff.mp (bind_eq_some_iff.mpr ⟨_, _,
    reads_number m.hdrId.toNat_lt _, bind_eq_some_iff.mpr ⟨_, _,
    reads_number m.hdrFields.toNat_lt _, bind_eq_some_iff.mpr ⟨_, _,
    @reads_number 2 m.questions.length (by omega) _, bind_eq_some_iff.mpr ⟨_, _,
    @reads_number 2 m.answers.length (by omega) _, bind_eq_some_iff.mpr ⟨_, _,
    @reads_number 2 m.authorities.length (by omega) _, bind_eq_some_iff.mpr ⟨_, _,
    @reads_number 2 (m.additional.length + (m.additionalEdns.map PRREdns.toRaw).toList.length)
      (by omega) (m.questions.flatMap Question.rawBytes ++ m.sent.flatMap RawRR.bytes),
    rfl⟩⟩⟩⟩⟩⟩)
  obtain ⟨hlength, hcounts, hbody⟩ := hcounts
  simp only [WireCounts.mk.injEq] at hcounts
  obtain ⟨hquestionCount, hanswerCount, hauthorityCount, hadditionalCount⟩ := hcounts
  exact ⟨by omega, hquestionCount.symm, hanswerCount.symm, hauthorityCount.symm,
    hadditionalCount.symm, hbody.symm⟩

/-! ## The questions that a client reads -/

theorem ReadQuestion.name_stored (question : ReadQuestion) :
    question.stored.name = dotted question.labels :=
  dropDot_extractedName question.labels

variable {question : WireQuestion}

theorem rawBytes_stored (h : Uncompressed question) :
    question.plain.stored.rawBytes =
      wire (relabel question.name.labels) ++
        (storeBig 2 question.type ++ storeBig 2 question.cls) := by
  rw [Question.rawBytes, ReadQuestion.name_stored]
  simp only [ReadQuestion.stored, WireQuestion.plain, toNat_ofNat_of_lt h.type_lt,
    toNat_ofNat_of_lt h.cls_lt]
  rfl

theorem rawBytes_stored_of_relabel (h : Uncompressed question)
    (hname : relabel question.name.labels = question.name.labels) :
    question.plain.stored.rawBytes = question.plain.bytes := by
  rw [rawBytes_stored h, hname]
  rfl

theorem resolve_uncompressed (h : question.name.target = none) (msg : Bytes) :
    question.resolve msg = some question.plain := by
  rw [WireQuestion.resolve, WireName.resolve, h]
  rfl

variable {questions : List WireQuestion}

theorem mapM_resolve_uncompressed
    (h : ∀ question ∈ questions, question.name.target = none) (msg : Bytes) :
    questions.mapM (WireQuestion.resolve msg) = some (questions.map WireQuestion.plain) := by
  rw [mapM_eq_some_iff, List.forall₂_map_right_iff, List.forall₂_same]
  exact fun question hmem => resolve_uncompressed (h question hmem) msg

variable {msg : Bytes}

theorem relabel_of_read (hplain : ∀ question ∈ questions, Uncompressed question)
    (hshort : ∀ question ∈ questions, ∀ label ∈ relabel question.name.labels, label.length ≤ 63)
    {tail rest : Bytes} {found : List WireQuestion}
    (hread : many wireQuestion questions.length
      (questions.flatMap (fun question => question.plain.stored.rawBytes) ++ tail) =
        some (found, rest))
    (hfound : found.mapM (WireQuestion.resolve msg) =
      some (questions.map WireQuestion.plain)) :
    ∀ question ∈ questions, relabel question.name.labels = question.name.labels := by
  induction questions generalizing found with
  | nil => exact fun question hmem => nomatch hmem
  | cons question questions ih =>
    obtain ⟨hfirst, hothers⟩ := List.forall_mem_cons.mp hplain
    obtain ⟨hfirstShort, hothersShort⟩ := List.forall_mem_cons.mp hshort
    obtain ⟨wireFound, middle, others, hwire, hmany, rfl⟩ := many_succ_eq_some_iff.mp hread
    rw [mapM_eq_some_iff, List.map_cons, List.forall₂_cons] at hfound
    obtain ⟨hresolve, hresolves⟩ := hfound
    rw [List.flatMap_cons, rawBytes_stored hfirst, List.append_assoc, List.append_assoc] at hwire
    obtain ⟨hname, -, -⟩ := wireQuestion_eq_some hwire
    obtain ⟨hlabels, hrest⟩ := takeName_wire hfirstShort hname
    -- what is read of the name is all of it up to an empty label, and it is the name
    have hspelled : (relabel question.name.labels).takeWhile (· ≠ []) = question.name.labels := by
      have htarget : wireFound.name.target = none := by rw [hlabels]
      rw [resolve_uncompressed htarget] at hresolve
      have hplain' := congrArg ReadQuestion.labels (Option.some.inj hresolve)
      rw [WireQuestion.plain, hlabels] at hplain'
      exact hplain'
    have hrelabel : relabel question.name.labels = question.name.labels := by
      have hsplit := List.takeWhile_append_dropWhile (p := (· ≠ []))
        (l := relabel question.name.labels)
      rw [hspelled] at hsplit
      exact relabel_eq_of_append hsplit.symm
    have hmiddle : middle =
        questions.flatMap (fun question => question.plain.stored.rawBytes) ++ tail := by
      have hcodes := hrest
        (by rw [hrelabel]; exact fun label hmem => (hfirst.labels label hmem).1)
      rw [← List.append_assoc (storeBig 2 wireFound.type)] at hcodes
      exact List.append_inj_right hcodes (by simp)
    rw [hmiddle] at hmany
    exact List.forall_mem_cons.mpr
      ⟨hrelabel, ih hothers hothersShort hmany (mapM_eq_some_iff.mpr hresolves)⟩

/-! ## The records that a client reads -/

variable {raws : List RawRR} {records : List WireRecord}

theorem reads_section (h : List.Forall₂ Matches raws records) :
    Reads (many wireRecord records.length) (raws.flatMap RawRR.bytes) records := by
  rw [List.flatMap_def]
  refine reads_many ?_
  rw [List.forall₂_map_left_iff]
  exact h.imp fun raw record hmatches => hmatches.reads

def PRREdns.wire (edns : PRREdns) : WireRecord :=
  ⟨⟨[], none⟩, RRType.OPT.toNat, edns.maxPayload.toNat, ttlWord edns.ttl, [.bytes edns.optionBytes]⟩

theorem matches_toRaw (edns : PRREdns) : Matches edns.toRaw edns.wire := by
  refine ⟨rfl, ?_⟩
  have howner : Reads wireName [0] ⟨[], none⟩ := fun tail => rfl
  have hlength : edns.optionBytes.length < 256 ^ 2 := by
    unfold PRREdns.optionBytes
    cases edns.cookie with
    | none => decide
    | some cookie => simp
  have httl : ttlWord edns.ttl < 256 ^ 4 := by
    unfold ttlWord
    omega
  have hreads := reads_wireRecord howner (by decide : RRType.OPT.toNat < 256 ^ 2)
    edns.maxPayload.toNat_lt httl hlength
    (rfl : wireFields (dataParts RRType.OPT.toNat) edns.optionBytes =
      some [.bytes edns.optionBytes])
  simpa [RawRR.bytes, fieldBytes, PRREdns.toRaw, PRREdns.wire] using hreads

theorem matches_filter (h : List.Forall₂ Matches raws records) :
    List.Forall₂ Matches
      (raws.filter fun rr => ¬(rr.type = RRType.OPT ∨ rr.type = RRType.TSIG))
      (records.filter fun record => !removedType record.type) := by
  refine List.rel_filter (fun raw record hmatches => ?_) h
  simp only [removedType, ← hmatches.type, UInt16.toNat_inj, decide_not]

namespace WireMessage

def kept (message : WireMessage) : List WireRecord :=
  message.answers ++ message.authorities ++
    message.additional.filter fun record => !removedType record.type

def relay (message : WireMessage) (edns : Option PRREdns) : WireMessage :=
  { message with
    additional := (message.additional.filter fun record => !removedType record.type) ++
      (edns.map PRREdns.wire).toList }

end WireMessage

theorem WireMessage.resolve_eq_some_iff {message : WireMessage} {decoded : DecodedMessage} :
    message.resolve msg = some decoded ↔
      message.questions.mapM (WireQuestion.resolve msg) = some decoded.questions ∧
      message.answers.mapM (WireRecord.resolve msg) = some decoded.answers ∧
      message.authorities.mapM (WireRecord.resolve msg) = some decoded.authorities ∧
      message.additional.mapM (WireRecord.resolve msg) = some decoded.additional := by
  constructor
  · intro h
    obtain ⟨questions, hquestions, h⟩ := Option.bind_eq_some_iff.mp h
    obtain ⟨answers, hanswers, h⟩ := Option.bind_eq_some_iff.mp h
    obtain ⟨authorities, hauthorities, h⟩ := Option.bind_eq_some_iff.mp h
    obtain ⟨additional, hadditional, h⟩ := Option.bind_eq_some_iff.mp h
    cases h
    exact ⟨hquestions, hanswers, hauthorities, hadditional⟩
  · rintro ⟨hquestions, hanswers, hauthorities, hadditional⟩
    exact Option.bind_eq_some_iff.mpr ⟨_, hquestions, Option.bind_eq_some_iff.mpr ⟨_, hanswers,
      Option.bind_eq_some_iff.mpr ⟨_, hauthorities, Option.bind_eq_some_iff.mpr
        ⟨_, hadditional, rfl⟩⟩⟩⟩

theorem WireRecord.type_of_resolve {record : WireRecord} {result : DecodedRecord}
    (h : record.resolve msg = some result) : result.type = record.type := by
  obtain ⟨owner, -, h⟩ := Option.bind_eq_some_iff.mp h
  obtain ⟨data, -, h⟩ := Option.bind_eq_some_iff.mp h
  cases h
  rfl

theorem mapM_resolve_filter {results : List DecodedRecord}
    (h : records.mapM (WireRecord.resolve msg) = some results) :
    (records.filter fun record => !removedType record.type).mapM (WireRecord.resolve msg) =
      some (results.filter fun record => !removedType record.type) := by
  rw [mapM_eq_some_iff] at h ⊢
  refine List.rel_filter (fun record result hresolve => ?_) h
  simp only [WireRecord.type_of_resolve hresolve]

section

variable {msg rest : Bytes} {message : WireMessage} {raw : RawMessage} {orig : Message}
  {maxSize : Bool} {response : Bytes} {decoded : DecodedMessage}

theorem ParsedAs.wireMessage_relay (h : ParsedAs msg message rest raw)
    (hsent : (raw.rewriteFor orig).Untruncated maxSize response)
    (hnames : ∀ question ∈ message.questions,
      relabel question.name.labels = question.name.labels) :
    wireMessage response = some (message.relay orig.additionalEdns, []) := by
  obtain ⟨hlength, hquestionCount, hanswerCount, hauthorityCount, hadditionalCount, hbody⟩ :=
    hsent.header
  have hquestions : Reads (many wireQuestion (qdCount response))
      ((raw.rewriteFor orig).questions.flatMap Question.rawBytes) message.questions := by
    rw [hquestionCount, RawMessage.rewriteFor, h.questions, List.length_map, List.flatMap_map,
      List.flatMap_def]
    refine reads_many ?_
    rw [List.forall₂_map_left_iff, List.forall₂_same]
    intro question hmem
    rw [rawBytes_stored_of_relabel (h.uncompressed question hmem) (hnames question hmem)]
    exact (h.uncompressed question hmem).reads
  have hanswers := reads_section h.answers
  have hauthorities := reads_section h.authorities
  have hedns : List.Forall₂ Matches (orig.additionalEdns.map PRREdns.toRaw).toList
      (orig.additionalEdns.map PRREdns.wire).toList := by
    cases orig.additionalEdns with
    | none => exact .nil
    | some edns => exact .cons (matches_toRaw edns) .nil
  have hkept : List.Forall₂ Matches (_ ++ _) (_ ++ _) :=
    List.rel_append (matches_filter h.additional) hedns
  have hadditional := reads_section hkept
  rw [← h.answers.length_eq] at hanswers
  rw [← h.authorities.length_eq] at hauthorities
  rw [← hkept.length_eq, List.length_append] at hadditional
  obtain ⟨additional, hbytes⟩ : ∃ additional, additional = ((raw.rewriteFor orig).additional ++
      (orig.additionalEdns.map PRREdns.toRaw).toList).flatMap RawRR.bytes := ⟨_, rfl⟩
  have hsections : (raw.rewriteFor orig).sent.flatMap RawRR.bytes =
      raw.answers.flatMap RawRR.bytes ++ (raw.authorities.flatMap RawRR.bytes ++ additional) := by
    simp only [hbytes, RawMessage.sent, RawMessage.rewriteFor, List.flatMap_append,
      List.append_assoc]
  refine wireMessage_eq_some_iff.mpr ⟨hlength, (raw.rewriteFor orig).sent.flatMap RawRR.bytes,
    raw.authorities.flatMap RawRR.bytes ++ additional, additional, ?_, ?_, ?_, ?_⟩
  · rw [hbody]
    exact hquestions _
  · rw [hanswerCount, hsections]
    exact hanswers _
  · rw [hauthorityCount]
    exact hauthorities _
  · rw [hadditionalCount, hbytes, ← List.append_nil (List.flatMap _ _)]
    exact hadditional []

theorem relay_resolve_iff (hplain : ∀ question ∈ message.questions, question.name.target = none)
    (hdecoded : message.resolve msg = some decoded) (edns : Option PRREdns) :
    (message.relay edns).resolve response = some (decoded.relay edns) ↔
      ∀ record ∈ message.kept, ∀ target ∈ record.targets,
        labelsAt response target = labelsAt msg target := by
  obtain ⟨hquestions, hanswers, hauthorities, hadditional⟩ :=
    WireMessage.resolve_eq_some_iff.mp hdecoded
  have hrecords {records : List WireRecord} {results : List DecodedRecord}
      (h : records.mapM (WireRecord.resolve msg) = some results) :
      records.mapM (WireRecord.resolve response) = some results ↔
        ∀ record ∈ records, ∀ target ∈ record.targets,
          labelsAt response target = labelsAt msg target :=
    mapM_congr_iff (fun record result => @WireRecord.resolve_eq_iff msg response record result) h
  have hsame : message.questions.mapM (WireQuestion.resolve response) = some decoded.questions := by
    rw [← hquestions, mapM_resolve_uncompressed hplain, mapM_resolve_uncompressed hplain]
  have hedns : (edns.map PRREdns.wire).toList.mapM (WireRecord.resolve response) =
      some (edns.map PRREdns.decoded).toList := by
    cases edns <;> rfl
  have happend {records : List WireRecord} {results : List DecodedRecord} :
      (records ++ (edns.map PRREdns.wire).toList).mapM (WireRecord.resolve response) =
          some (results ++ (edns.map PRREdns.decoded).toList) ↔
        records.mapM (WireRecord.resolve response) = some results := by
    rw [List.mapM_append, hedns]
    cases records.mapM (WireRecord.resolve response) with
    | none => simp
    | some found => simp
  rw [WireMessage.resolve_eq_some_iff, WireMessage.relay, DecodedMessage.relay, WireMessage.kept]
  rw [happend, hrecords hanswers, hrecords hauthorities, hrecords (mapM_resolve_filter hadditional),
    List.forall_mem_append, List.forall_mem_append, and_iff_right hsame, and_assoc]

theorem ParsedAs.decode_iff (h : ParsedAs msg message rest raw)
    (hdecoded : message.resolve msg = some decoded)
    (hsent : (raw.rewriteFor orig).Untruncated maxSize response) :
    decode response = some (decoded.relay orig.additionalEdns) ↔
      (∀ question ∈ message.questions, PlainName question.name.labels) ∧
      ∀ record ∈ message.kept, ∀ target ∈ record.targets,
        labelsAt response target = labelsAt msg target := by
  have hplain : ∀ question ∈ message.questions, question.name.target = none :=
    fun question hmem => (h.uncompressed question hmem).target
  have hrelabel :=
    forall₂_congr fun question hmem => (relabel_eq_iff (h.uncompressed question hmem).labels).symm
  rw [hrelabel, ← relay_resolve_iff hplain hdecoded orig.additionalEdns]
  constructor
  · intro hdecode
    obtain ⟨⟨found, after⟩, hfound, hresolve⟩ := Option.bind_eq_some_iff.mp hdecode
    -- the questions are read first, so that their names have survived
    have hnames : ∀ question ∈ message.questions,
        relabel question.name.labels = question.name.labels := by
      obtain ⟨-, hcount, -, -, -, hbody⟩ := hsent.header
      obtain ⟨-, afterQuestions, _, _, hread, -⟩ := wireMessage_eq_some_iff.mp hfound
      obtain ⟨hquestions, -⟩ := WireMessage.resolve_eq_some_iff.mp hresolve
      rw [hcount, hbody, RawMessage.rewriteFor, h.questions, List.length_map,
        List.flatMap_map] at hread
      refine relabel_of_read h.uncompressed ?_ hread (hquestions.trans ?_)
      · obtain ⟨_, -, -, hshort, -⟩ := hsent.spec
        rw [RawMessage.rewriteFor, h.questions, List.forall_mem_map] at hshort
        intro question hmem label hlabel
        refine hshort question hmem label ?_
        rw [ReadQuestion.name_stored]
        exact hlabel
      · obtain ⟨hsame, -⟩ := WireMessage.resolve_eq_some_iff.mp hdecoded
        rw [mapM_resolve_uncompressed hplain] at hsame
        exact hsame.symm
    refine ⟨hnames, ?_⟩
    rw [h.wireMessage_relay hsent hnames] at hfound
    cases hfound
    exact hresolve
  · rintro ⟨hnames, hresolve⟩
    exact Option.bind_eq_some_iff.mpr ⟨_, h.wireMessage_relay hsent hnames, hresolve⟩

end

/-! ## What moves -/

def keptPieces : Nat → Bytes → List Bytes
  | 0, _ => []
  | count + 1, buf =>
    match wireRecord buf with
    | none => []
    | some (record, rest) =>
      if removedType record.type then keptPieces count rest
      else buf.take (buf.length - rest.length) :: keptPieces count rest

def skipKept : Nat → Bytes → Bytes
  | 0, buf => buf
  | count + 1, buf =>
    match wireRecord buf with
    | none => buf
    | some (record, rest) => if removedType record.type then buf else skipKept count rest

def spliced (msg : Bytes) (orig : Message) : Bytes :=
  match wireFront msg with
  | none => []
  | some (front, rest) =>
    let pieces := keptPieces front.additionalCount rest
    let edns := (orig.additionalEdns.map PRREdns.toRaw).toList
    let fields := RawMessage.rewrittenFields (UInt16.ofNat (loadAt msg 2 2)) orig
    storeBig 2 orig.hdrId.toNat ++ storeBig 2 fields.toNat ++
      storeBig 2 front.questions.length ++ storeBig 2 front.answers.length ++
      storeBig 2 front.authorities.length ++ storeBig 2 (pieces.length + edns.length) ++
      ((msg.drop 12).take ((msg.drop 12).length - rest.length) ++
        (pieces.flatten ++ edns.flatMap RawRR.bytes))

def firstRemoved (msg : Bytes) : Nat :=
  match wireFront msg with
  | none => 0
  | some (front, rest) => msg.length - (skipKept front.additionalCount rest).length

def SpelledBefore (msg : Bytes) (stop target : Nat) : Prop :=
  ∀ header tail : Bytes, header.length = 12 →
    labelsAt (header ++ ((msg.take stop).drop 12 ++ tail)) target = labelsAt msg target

def Relayable (msg : Bytes) (orig : Message) (maxSize : Bool) : Prop :=
  ∀ raw, RawMessage.parse msg = some raw →
    ∃ message rest, wireMessage msg = some (message, rest) ∧ (message.resolve msg).isSome ∧
      (∀ question ∈ message.questions, question.name.target = none) ∧
      ∀ response, (raw.rewriteFor orig).Untruncated maxSize response →
        (∀ question ∈ message.questions, PlainName question.name.labels) ∧
        ∀ record ∈ message.kept, ∀ target ∈ record.targets,
          SpelledBefore msg (firstRemoved msg) target ∨
            labelsAt (spliced msg orig) target = labelsAt msg target

def RawRR.isKept (raw : RawRR) : Bool :=
  ¬(raw.type = RRType.OPT ∨ raw.type = RRType.TSIG)

theorem Matches.isKept {raw : RawRR} {record : WireRecord} (h : Matches raw record) :
    raw.isKept = !removedType record.type := by
  simp only [RawRR.isKept, removedType, ← h.type, UInt16.toNat_inj, decide_not]

theorem keptPieces_eq (h : List.Forall₂ Matches raws records) (tail : Bytes) :
    keptPieces records.length (raws.flatMap RawRR.bytes ++ tail) =
      (raws.filter RawRR.isKept).map RawRR.bytes := by
  induction h with
  | nil => rfl
  | @cons raw record raws records hfirst _ ih =>
    rw [List.length_cons, keptPieces, List.flatMap_cons, List.append_assoc, hfirst.reads,
      List.filter_cons, hfirst.isKept]
    dsimp only
    cases hremoved : removedType record.type with
    | true =>
      rw [if_pos rfl, ih]
      rfl
    | false =>
      rw [if_neg Bool.false_ne_true, ih, List.length_append, Nat.add_sub_cancel,
        List.take_left]
      rfl

theorem skipKept_eq (h : List.Forall₂ Matches raws records) (tail : Bytes) :
    skipKept records.length (raws.flatMap RawRR.bytes ++ tail) =
      (raws.dropWhile RawRR.isKept).flatMap RawRR.bytes ++ tail := by
  induction h with
  | nil => rfl
  | @cons raw record raws records hfirst _ ih =>
    rw [List.length_cons, skipKept, List.flatMap_cons, List.append_assoc, hfirst.reads,
      List.dropWhile_cons, hfirst.isKept]
    dsimp only
    cases hremoved : removedType record.type with
    | true =>
      rw [if_pos rfl, ← List.append_assoc]
      rfl
    | false =>
      rw [if_neg Bool.false_ne_true, ih]
      rfl

theorem filter_isKept (raws : List RawRR) :
    raws.filter RawRR.isKept =
      raws.takeWhile RawRR.isKept ++ (raws.dropWhile RawRR.isKept).filter RawRR.isKept := by
  conv_lhs => rw [← List.takeWhile_append_dropWhile (p := RawRR.isKept) (l := raws)]
  rw [List.filter_append, List.filter_eq_self.mpr]
  exact fun raw hmem => List.mem_takeWhile_imp hmem

section

variable {msg rest response : Bytes} {message : WireMessage} {raw : RawMessage} {orig : Message}
  {maxSize : Bool}

section

variable (h : ParsedAs msg message rest raw)

include h

theorem ParsedAs.questions_bytes
    (hnames : ∀ question ∈ message.questions, PlainName question.name.labels) :
    raw.questions.flatMap Question.rawBytes =
      message.questions.flatMap fun question => question.plain.bytes := by
  rw [h.questions, List.flatMap_map]
  refine List.flatMap_congr fun question hmem => ?_
  have huncompressed := h.uncompressed question hmem
  exact rawBytes_stored_of_relabel huncompressed
    ((relabel_eq_iff huncompressed.labels).mpr (hnames question hmem))

section

variable (hsent : (raw.rewriteFor orig).Untruncated maxSize response)

include hsent

section

variable (hnames : ∀ question ∈ message.questions, PlainName question.name.labels)

include hnames

theorem ParsedAs.eq_spliced : response = spliced msg orig := by
  obtain ⟨⟨header, after⟩, hheader, rfl, -, -⟩ := hsent.spec
  obtain ⟨-, rfl, -⟩ := put_eq_some_iff.mp hheader
  have hedns : (if orig.additionalEdns = none then 0 else 1) =
      (orig.additionalEdns.map PRREdns.toRaw).toList.length := by
    cases orig.additionalEdns <;> rfl
  have hquestions : raw.questions.length = message.questions.length := by
    rw [h.questions, List.length_map]
  have hbody : (msg.drop 12).take ((msg.drop 12).length -
      (raw.additional.flatMap RawRR.bytes ++ rest).length) =
        message.questions.flatMap (fun question => question.plain.bytes) ++
          (raw.answers.flatMap RawRR.bytes ++ raw.authorities.flatMap RawRR.bytes) := by
    rw [h.body, ← List.append_assoc (List.flatMap _ raw.answers), ← List.append_assoc,
      List.length_append, Nat.add_sub_cancel, List.take_left]
  rw [spliced, h.front]
  simp only [keptPieces_eq h.additional, hbody]
  simp only [RawMessage.rewriteFor, RawMessage.sent, h.questions_bytes hnames, hquestions, hedns,
    h.answers.length_eq, h.authorities.length_eq, h.fields, List.flatMap_cons, List.flatMap_nil,
    List.flatMap_append, List.append_nil, List.append_assoc, List.length_map]
  rfl

theorem ParsedAs.unmoved : ∃ header tail, header.length = 12 ∧
      response = header ++ ((msg.take (firstRemoved msg)).drop 12 ++ tail) := by
  obtain ⟨hlength, -, -, -, -, hresponse⟩ := hsent.header
  obtain ⟨staying, hstaying⟩ : ∃ staying,
      staying = message.questions.flatMap (fun question => question.plain.bytes) ++
        (raw.answers.flatMap RawRR.bytes ++ (raw.authorities.flatMap RawRR.bytes ++
          (raw.additional.takeWhile RawRR.isKept).flatMap RawRR.bytes)) := ⟨_, rfl⟩
  obtain ⟨moving, hmoving⟩ : ∃ moving,
      moving = (raw.additional.dropWhile RawRR.isKept).flatMap RawRR.bytes ++ rest := ⟨_, rfl⟩
  have hbody : msg.drop 12 = staying ++ moving := by
    rw [h.body, hstaying, hmoving]
    conv_lhs => rw [← List.takeWhile_append_dropWhile (p := RawRR.isKept) (l := raw.additional)]
    simp only [List.flatMap_append, List.append_assoc]
  have hfirst : (msg.take (firstRemoved msg)).drop 12 = staying := by
    have hsize := congrArg List.length hbody
    rw [List.length_drop, List.length_append] at hsize
    rw [firstRemoved, h.front]
    dsimp only
    rw [skipKept_eq h.additional, ← hmoving, List.drop_take, hbody]
    exact List.take_left' (by have := h.header; omega)
  have hkept : (raw.rewriteFor orig).additional = raw.additional.filter RawRR.isKept := rfl
  refine ⟨response.take 12, ((raw.additional.dropWhile RawRR.isKept).filter RawRR.isKept ++
    (orig.additionalEdns.map PRREdns.toRaw).toList).flatMap RawRR.bytes,
    List.length_take_of_le hlength, ?_⟩
  conv_lhs => rw [← List.take_append_drop 12 response, hresponse]
  rw [hfirst, hstaying, RawMessage.sent, hkept, filter_isKept]
  simp only [RawMessage.rewriteFor, h.questions_bytes hnames, List.flatMap_append,
    List.append_assoc]

theorem ParsedAs.labelsAt_iff (target : Nat) :
    labelsAt response target = labelsAt msg target ↔
      SpelledBefore msg (firstRemoved msg) target ∨
        labelsAt (spliced msg orig) target = labelsAt msg target := by
  rw [← h.eq_spliced hsent hnames, iff_or_self]
  intro hspelled
  obtain ⟨header, tail, hheader, rfl⟩ := h.unmoved hsent hnames
  exact hspelled header tail hheader

end

end

end

end

theorem relayed_iff (msg : Bytes) (orig : Message) (maxSize : Bool) :
    Relayed msg orig maxSize ↔ Relayable msg orig maxSize := by
  refine forall₂_congr fun raw hraw => ?_
  constructor
  · rintro ⟨hquestions, decoded, hdecoded, hrelayed⟩
    obtain ⟨⟨message, rest⟩, hmessage, hresolve⟩ := Option.bind_eq_some_iff.mp hdecoded
    obtain ⟨-, _, _, _, hread, -⟩ := wireMessage_eq_some_iff.mp hmessage
    have hplain := (questionsParse_iff hread).mp hquestions
    obtain ⟨parsed, hparsed, has⟩ := parse_of_wireMessage hmessage hplain
    cases hraw.symm.trans hparsed
    refine ⟨message, rest, hmessage, Option.isSome_of_eq_some hresolve, hplain, ?_⟩
    intro response hsent
    obtain ⟨hnames, htargets⟩ := (has.decode_iff hresolve hsent).mp (hrelayed response hsent)
    exact ⟨hnames, fun record hrecord target htarget =>
      (has.labelsAt_iff hsent hnames target).mp (htargets record hrecord target htarget)⟩
  · rintro ⟨message, rest, hmessage, hresolves, hplain, hrelayable⟩
    obtain ⟨decoded, hresolve⟩ := Option.isSome_iff_exists.mp hresolves
    obtain ⟨-, _, _, _, hread, -⟩ := wireMessage_eq_some_iff.mp hmessage
    obtain ⟨parsed, hparsed, has⟩ := parse_of_wireMessage hmessage hplain
    cases hraw.symm.trans hparsed
    refine ⟨(questionsParse_iff hread).mpr hplain, decoded,
      Option.bind_eq_some_iff.mpr ⟨_, hmessage, hresolve⟩, ?_⟩
    intro response hsent
    obtain ⟨hnames, htargets⟩ := hrelayable response hsent
    exact (has.decode_iff hresolve hsent).mpr ⟨hnames, fun record hrecord target htarget =>
      (has.labelsAt_iff hsent hnames target).mpr (htargets record hrecord target htarget)⟩

def glueReply : Bytes :=
  [0, 1, 0x81, 0x80, 0, 1, 0, 0, 0, 0, 0, 3,
    1, 0x61, 0, 0, 1, 0, 1,
    0, 0, 41, 0x10, 0, 0, 0, 0, 0, 0, 0,
    1, 0x62, 0, 0, 1, 0, 1, 0, 0, 0, 60, 0, 4, 10, 0, 0, 1,
    0xc0, 30, 0, 1, 0, 1, 0, 0, 0, 60, 0, 4, 10, 0, 0, 2]

def glueRequest : Message :=
  ⟨1, 0x100, some ⟨[0x61], 1, 1⟩, [], [], none, none, false⟩

def glueSent : Bytes :=
  [0, 1, 0x81, 0x80, 0, 1, 0, 0, 0, 0, 0, 2,
    1, 0x61, 0, 0, 1, 0, 1,
    1, 0x62, 0, 0, 1, 0, 1, 0, 0, 0, 60, 0, 4, 10, 0, 0, 1,
    0xc0, 30, 0, 1, 0, 1, 0, 0, 0, 60, 0, 4, 10, 0, 0, 2]

def glueRaw : RawMessage :=
  ⟨1, 0x8180, [⟨[0x61, 0x2e], 1, 1⟩], [], [],
    [⟨[0], 41, 0x1000, 0, []⟩, ⟨[1, 0x62, 0], 1, 1, 60, [10, 0, 0, 1]⟩,
      ⟨[0xc0, 30], 1, 1, 60, [10, 0, 0, 2]⟩], none⟩

theorem glueReply_not_relayed : ¬Relayed glueReply glueRequest false := by
  intro hrelayed
  have hparse : RawMessage.parse glueReply = some glueRaw := by decide +kernel
  obtain ⟨-, decoded, hdecoded, hresponse⟩ := hrelayed glueRaw hparse
  have hsent := hresponse glueSent ⟨_, _, _, _, _, _, rfl, rfl, rfl, by decide +kernel⟩
  -- the second address has become one of the root
  have hdiffers : decode glueSent ≠
      (decode glueReply).map (DecodedMessage.relay · glueRequest.additionalEdns) := by
    decide +kernel
  rw [hdecoded] at hdiffers
  exact hdiffers hsent

end SessionRouter.Dns
