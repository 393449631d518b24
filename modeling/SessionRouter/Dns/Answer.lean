import SessionRouter.Dns.Request
import SessionRouter.Dns.Truncation

/-!
# Requests and their responses
-/

namespace SessionRouter.Dns

open Lib Wire DomainName Encoder

def requestQuestion (request : Bytes) : Option ReadQuestion :=
  if qdCount request ≠ 1 then none
  else
    match extractLabels (request.drop 12).length (request.drop 12) with
    | none => none
    | some (labels, rest) =>
      if rest.length < 2 + 2 then none else some ⟨labels, loadAt rest 0 2, loadAt rest 2 2⟩

def ReadQuestion.stored (question : ReadQuestion) : Question :=
  ⟨extractedName question.labels, UInt16.ofNat question.type, UInt16.ofNat question.cls⟩

namespace Message

/-- What replies leave alone. -/
structure SameRequest (before after : Message) : Prop where
  question : after.question = before.question
  additionalEdns : after.additionalEdns = before.additionalEdns

theorem sameRequest_applyRcode (m : Message) (rcode : UInt16) (authoritative : Bool) :
    SameRequest m (m.applyRcode rcode authoritative) := by
  unfold applyRcode
  split
  · exact ⟨rfl, rfl⟩
  · split <;> exact ⟨rfl, rfl⟩

theorem sameRequest_fail (m : Message) (rcode : UInt16) : SameRequest m (m.fail rcode) :=
  ⟨(sameRequest_applyRcode _ rcode false).question,
    (sameRequest_applyRcode _ rcode false).additionalEdns⟩

theorem sameRequest_formerr (m : Message) : SameRequest m m.formerr :=
  m.sameRequest_fail rcodeFormErr

end Message

variable {request : Bytes}

variable {m : Message}

def Question.bytes (question : Question) : Bytes :=
  wire (nameLabels question.qname) ++
    (storeBig 2 question.qtype.toNat ++ storeBig 2 question.qclass.toNat)

theorem encode_question_iff {question : Question} {span : Span}
    (hfresh : span.Fresh true (nameLabels question.qname)) {written : Bytes} :
    (∃ after, question.encode span = some (written, after)) ↔
      written = question.bytes ∧ (∀ label ∈ nameLabels question.qname, label.length ≤ 63) ∧
        question.bytes.length ≤ span.room := by
  simp only [Question.encode, andThen_eq_some_iff, writeInts, put_eq_some_iff, Question.bytes,
    List.flatMap_cons, List.flatMap_nil, List.append_nil, List.length_append, length_storeBig]
  constructor
  · rintro ⟨after, name, middle, codes, hname, ⟨hcodes, rfl, rfl⟩, rfl⟩
    have hroom := (counts_encodeName true _ _ _ _ hname).room
    obtain ⟨rfl, hshort, hfits⟩ := (encodeName_fresh_iff hfresh).mp ⟨middle, hname⟩
    exact ⟨rfl, hshort, by omega⟩
  · rintro ⟨rfl, hshort, hfits⟩
    obtain ⟨middle, hname⟩ := (encodeName_fresh_iff hfresh).mpr ⟨rfl, hshort, by omega⟩
    have hroom := (counts_encodeName true _ _ _ _ hname).room
    exact ⟨_, _, middle, _, hname, ⟨by omega, rfl, rfl⟩, rfl⟩

namespace Message

def headerBytes (m : Message) : Bytes :=
  storeBig 2 m.hdrId.toNat ++ storeBig 2 m.responseFields.toNat ++
    storeBig 2 (if m.question = none then 0 else 1) ++
    (storeBig 2 m.answers.length ++ storeBig 2 m.authorities.length ++
      storeBig 2 (if m.additionalEdns = none then 0 else 1))

def questionBytes (m : Message) : Bytes :=
  (m.question.map Question.bytes).getD []

theorem encodeHeader_eq (m : Message) : m.encodeHeader = put m.headerBytes := by
  rw [encodeHeader, writeInts, headerBytes]
  simp only [List.flatMap_cons, List.flatMap_nil, List.append_nil, List.append_assoc]

@[simp] theorem length_headerBytes (m : Message) : m.headerBytes.length = 12 := by
  simp [headerBytes]

theorem encodeQuestion_iff (m : Message) (size : Nat) {written : Bytes} :
    (∃ span, m.encodeQuestion (Span.start size) = some (written, span)) ↔
      written = m.headerBytes ++ m.questionBytes ∧
        (∀ question ∈ m.question, ∀ label ∈ nameLabels question.qname, label.length ≤ 63) ∧
        12 + m.questionBytes.length ≤ size := by
  have hfresh (labels : List Bytes) : ((Span.start size).advance 12).Fresh true labels :=
    fresh_start size true labels
  have hroom : ((Span.start size).advance 12).room = size - 12 := rfl
  simp only [encodeQuestion, encodeHeader_eq, andThen_eq_some_iff, put_eq_some_iff,
    length_headerBytes, questionBytes]
  cases m.question with
  | none =>
    simp only [nothing, Option.some.injEq, Prod.mk.injEq, Option.map_none, Option.getD_none,
      List.append_nil, List.length_nil, Nat.add_zero, reduceCtorEq, Option.mem_def,
      IsEmpty.forall_iff, implies_true, true_and]
    constructor
    · rintro ⟨span, begun, middle, done, ⟨hfits, rfl, rfl⟩, ⟨rfl, rfl⟩, rfl⟩
      exact ⟨List.append_nil _, hfits⟩
    · rintro ⟨rfl, hfits⟩
      exact ⟨_, _, _, [], ⟨hfits, rfl, rfl⟩, ⟨rfl, rfl⟩, (List.append_nil _).symm⟩
  | some question =>
    simp only [Option.map_some, Option.getD_some, Option.mem_def, Option.some.injEq,
      forall_eq']
    constructor
    · rintro ⟨span, begun, middle, done, ⟨hfits, rfl, rfl⟩, hquestion, rfl⟩
      obtain ⟨rfl, hshort, hlength⟩ := (encode_question_iff (hfresh _)).mp ⟨span, hquestion⟩
      exact ⟨rfl, hshort, by change 12 ≤ size at hfits; omega⟩
    · rintro ⟨rfl, hshort, hfits⟩
      obtain ⟨span, hquestion⟩ := (encode_question_iff (hfresh _)).mpr ⟨rfl, hshort, by omega⟩
      exact ⟨span, _, _, _, ⟨by change 12 ≤ size; omega, rfl, rfl⟩, hquestion, rfl⟩

end Message

section Reading

variable {response : Bytes} {pos : Nat} {question : Question}

end Reading

theorem readHeader_of_has {response : Bytes} {pos : Nat} (h : Has response pos m.headerBytes) :
    readHeader response pos =
      some (⟨m.hdrId.toNat, m.responseFields.toNat, if m.question = none then 0 else 1,
        m.answers.length % 256 ^ 2, m.authorities.length % 256 ^ 2,
        if m.additionalEdns = none then 0 else 1⟩, pos + 12) := by
  simp only [Message.headerBytes, List.append_assoc, has_append_iff, length_storeBig] at h
  obtain ⟨hid, hfields, hcount, hanswers, hauthorities, hadditional⟩ := h
  have hcount := hcount.number (by decide)
  have hanswers := hanswers.number (by decide)
  have hauthorities := hauthorities.number (by decide)
  have hadditional := hadditional.number (by decide)
  simp only [readHeader, bind_apply, hid.word, hfields.word, hcount, hanswers, hauthorities,
    hadditional, Option.bind_some, pure_apply]
  congr 3 <;> split <;> rfl

def Answered (request : Bytes) (m : Message) (maxSize : Bool) : Prop :=
  ∃ response, m.encode maxSize = some response ∧
    ∀ question, requestQuestion request = some question →
      ∃ next, readQuestionSection response 0 = some ([question], next)

def Answerable (request : Bytes) (m : Message) (maxSize : Bool) : Prop :=
  match requestQuestion request with
  | some question =>
    (∀ label ∈ question.labels, label.length ≤ 63 ∧ dot ∉ label.tail) ∧
      12 + (wire question.labels).length + 4 ≤ bufferSize maxSize m.additionalEdns ∧
      ¬ m.DoesNotFit maxSize
  | none => 12 + (if qdCount request = 1 then 5 else 0) ≤ bufferSize maxSize m.additionalEdns

namespace Message

theorem encode_cases {m : Message} {maxSize : Bool} {response : Bytes}
    (h : m.encode maxSize = some response) :
    Has response 0 (m.headerBytes ++ m.questionBytes) ∧ ¬ m.DoesNotFit maxSize ∨
      Has response 2 (patchedFlags m.responseFields) ∧ m.DoesNotFit maxSize := by
  obtain ⟨⟨written, span⟩, hbegun, rfl⟩ := Option.map_eq_some_iff.mp h
  cases hrecords : m.encodeRecords span with
  | some done =>
    obtain ⟨rfl, -, -⟩ := (m.encodeQuestion_iff _).mp ⟨span, hbegun⟩
    refine .inl ⟨⟨done.1, rfl⟩, ?_⟩
    rintro ⟨written, other, hother, hnone⟩
    rw [hbegun] at hother
    cases hother
    rw [hrecords] at hnone
    cases hnone
  | none =>
    exact .inr ⟨m.has_truncate (length_of_encodeQuestion hbegun) span, written, span, hbegun,
      hrecords⟩

end Message

def localContext : RequestContext :=
  ⟨[127, 0, 0, 1], .inl rfl, fun _ => FixedBytes.zero 8, 0⟩

def extractFrom (mem : Nat → UInt8) (size : Nat) (name : Bytes) (pos : Nat) :
    Option (Bytes × Nat) :=
  if size ≤ pos then none
  else
    let len := (mem pos).toNat
    if len = 0 then some (if name = [] then [dot] else name, pos + 1)
    else if size - (pos + 1) ≤ len then none
    else
      extractFrom mem size (name ++ (List.range len).map (fun i => mem (pos + 1 + i)) ++ [dot])
        (pos + 1 + len)
termination_by size - pos

def bufferOf (mem : Nat → UInt8) (size : Nat) : Bytes := (List.range size).map mem

variable {mem : Nat → UInt8}

theorem bufferOf_drop {size pos : Nat} (h : pos < size) :
    (bufferOf mem size).drop pos = mem pos :: (bufferOf mem size).drop (pos + 1) := by
  rw [List.drop_eq_getElem_cons (by simpa [bufferOf] using h)]
  simp [bufferOf]

theorem bufferOf_take {size pos len : Nat} (h : pos + len ≤ size) :
    ((bufferOf mem size).drop pos).take len = (List.range len).map fun i => mem (pos + i) := by
  apply List.ext_getElem
  · simp [bufferOf]
    omega
  · intro i _ _
    simp [bufferOf]

theorem extractFrom_eq {size fuel pos : Nat} (name : Bytes)
    (hfuel : size - pos ≤ fuel) :
    extractFrom mem size name pos =
      (extractLabels fuel ((bufferOf mem size).drop pos)).map fun found =>
        (if name ++ found.1.flatMap (· ++ [dot]) = [] then [dot]
          else name ++ found.1.flatMap (· ++ [dot]), size - found.2.length) := by
  induction fuel generalizing pos name with
  | zero =>
    rw [extractFrom, if_pos (by omega), extractLabels]
    rfl
  | succ fuel ih =>
    rw [extractFrom]
    split
    · next hend =>
      rw [List.drop_of_length_le (by simpa [bufferOf] using hend), extractLabels]
      rfl
    · next hpos =>
      rw [not_le] at hpos
      have hlength : ((bufferOf mem size).drop (pos + 1)).length = size - (pos + 1) := by
        simp [bufferOf]
      rw [bufferOf_drop hpos, extractLabels, hlength]
      by_cases hzero : mem pos = 0
      · simp [hzero, bufferOf]
        omega
      · have hlen : (mem pos).toNat ≠ 0 := fun h => hzero (UInt8.toNat_inj.mp h)
        rw [if_neg hlen, if_neg hzero]
        split
        · rfl
        · next hlong =>
          rw [ih _ (by omega), List.drop_drop, bufferOf_take (by omega)]
          simp only [Option.map_map, Function.comp_def, List.flatMap_cons, List.append_assoc]

theorem extractLabels_wire {labels : List Bytes} (h : ∀ label ∈ labels, ValidLabel label)
    (rest : Bytes) {fuel : Nat} (hfuel : labels.length < fuel) :
    extractLabels fuel (wire labels ++ rest) = some (labels, rest) := by
  induction labels generalizing fuel with
  | nil =>
    obtain ⟨fuel, rfl⟩ := Nat.exists_eq_succ_of_ne_zero (by omega : fuel ≠ 0)
    simp [wire, extractLabels]
  | cons label labels ih =>
    obtain ⟨fuel, rfl⟩ := Nat.exists_eq_succ_of_ne_zero (by omega : fuel ≠ 0)
    obtain ⟨hlabel, hlabels⟩ := List.forall_mem_cons.mp h
    have hlength : (UInt8.ofNat label.length).toNat = label.length :=
      UInt8.toNat_ofNat_of_lt' (lt_of_le_of_lt hlabel.short (by decide))
    have hzero : UInt8.ofNat label.length ≠ 0 := by
      intro hzero
      rw [hzero] at hlength
      exact hlabel.nonempty (List.length_eq_zero_iff.mp hlength.symm)
    rw [List.length_cons] at hfuel
    have hpos : 0 < (wire labels).length := by simp [wire]
    rw [wire_cons, wireLabel, List.append_assoc, List.cons_append, extractLabels, if_neg hzero,
      hlength, if_neg (by simp only [List.length_append]; omega), List.drop_left, List.take_left,
      ih hlabels (by omega)]
    rfl

theorem dropDot_dotted {labels : List Bytes} (h : ∀ label ∈ labels, ValidLabel label) :
    dropDot (dotted labels) = dotted labels := by
  refine if_neg fun hlast => ?_
  induction labels with
  | nil => cases hlast
  | cons label labels ih =>
    obtain ⟨hlabel, hlabels⟩ := List.forall_mem_cons.mp h
    cases labels with
    | nil => exact hlabel.dotFree (List.mem_of_getLast? hlast)
    | cons next labels =>
      have hne : dotted (next :: labels) ≠ [] :=
        dotted_ne_nil (by simp) fun other hother => (hlabels other hother).nonempty
      rw [dotted, List.getLast?_append_of_ne_nil _ (by simp),
        List.getLast?_cons_of_ne_nil hne] at hlast
      exact ih hlabels hlast

variable {labels : List Bytes} {name : Bytes}

theorem nameLabels_of_valid (h : ∀ label ∈ labels, ValidLabel label)
    (hname : name = dotted labels ∨ name = dotted labels ++ [dot]) : nameLabels name = labels := by
  have hparts := parts_dotted fun label hmem =>
    (⟨(h label hmem).nonempty, fun hdot => (h label hmem).dotFree (List.mem_of_mem_tail hdot)⟩ :
      PlainLabel label)
  rcases hname with rfl | rfl
  · rw [nameLabels, dropDot_dotted h, hparts]
  · rw [nameLabels, dropDot, if_pos (by simp), List.dropLast_concat, hparts]

theorem extractName_wire (h : ∀ label ∈ labels, ValidLabel label) (rest : Bytes) :
    extractName (wire labels ++ rest) = some (extractedName labels, rest) := by
  have hlength : labels.length < (wire labels ++ rest).length := by
    have : labels.length ≤ (labels.flatMap wireLabel).length := by
      rw [List.length_flatMap]
      exact List.length_le_sum_of_one_le _ (by simp [wireLabel]) |>.trans' (by simp)
    simp only [wire, List.length_append, List.length_singleton]
    omega
  rw [extractName, extractLabels_wire h rest hlength]
  rfl

theorem name_roundTrip (h : ∀ label ∈ labels, ValidLabel label)
    (hname : name = dotted labels ∨ name = dotted labels ++ [dot]) :
    (∀ span : Span, (wire labels).length ≤ span.room →
      ∃ written after, encodeName false name span = some (written, after) ∧
        ∀ rest, extractName (written ++ rest) = some (extractedName labels, rest)) ∧
    (∀ (span : Span) (qtype : RRType) (qclass : UInt16),
      span.Fresh true labels → (wire labels).length + 4 ≤ span.room →
        ∃ written after, (Question.mk name qtype qclass).encode span = some (written, after) ∧
          ∀ rest, Question.extract (written ++ rest) =
            some (⟨extractedName labels, qtype, qclass⟩, rest)) ∧
    ∀ (mem : Nat → UInt8) (size : Nat), extractFrom mem size [] 0 =
      (extractName (bufferOf mem size)).map fun found => (found.1, size - found.2.length) := by
  have hlabels := nameLabels_of_valid h hname
  have hshort : ∀ label ∈ labels, label.length ≤ 63 := fun label hmem => (h label hmem).short
  refine ⟨fun span hroom => ?_, fun span qtype qclass hfresh hroom => ?_, fun mem size => ?_⟩
  · have hfresh : span.Fresh false (nameLabels name) := by
      intro hcompress
      cases hcompress
    obtain ⟨after, hwritten⟩ := (encodeName_fresh_iff hfresh).mpr
      ⟨rfl, by rwa [hlabels], by rwa [hlabels]⟩
    rw [hlabels] at hwritten
    exact ⟨_, after, hwritten, extractName_wire h⟩
  · have hbytes : (Question.mk name qtype qclass).bytes =
        wire labels ++ (storeBig 2 qtype.toNat ++ storeBig 2 qclass.toNat) := by
      rw [Question.bytes, hlabels]
    obtain ⟨after, hwritten⟩ :=
      (@encode_question_iff ⟨name, qtype, qclass⟩ span (by rwa [hlabels]) _).mpr
        ⟨rfl, by rwa [hlabels], by rw [hbytes]; simpa using hroom⟩
    refine ⟨_, after, hwritten, fun rest => ?_⟩
    rw [hbytes, List.append_assoc, Question.extract, extractName_wire h]
    have htype := loadBig_storeBig (k := 2) qtype.toNat_lt
    have hclass := loadBig_storeBig (k := 2) qclass.toNat_lt
    simp [loadAt, List.drop_append, htype, hclass]
    omega
  · rw [extractFrom_eq [] (Nat.le_refl _), extractName]
    have hempty (found : List Bytes) : found.flatMap (· ++ [dot]) = [] ↔ found = [] := by
      cases found <;> simp
    simp [-List.flatMap_eq_nil_iff, bufferOf, Option.map_map, Function.comp_def, extractedName,
      hempty]

theorem name_roundTrip_short :
    ∃ written after, encodeName false [97, 98, dot] (Span.start 4) = some (written, after) ∧
      ∀ rest, extractName (written ++ rest) = some (extractedName [[97, 98]], rest) :=
  (@name_roundTrip [[97, 98]] [97, 98, dot]
    (List.forall_mem_singleton.mpr ⟨by decide, by decide, by decide⟩) (Or.inr rfl)).1
    (Span.start 4) (by decide)

end SessionRouter.Dns
