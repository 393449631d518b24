import SessionRouter.Dns.Answer
import SessionRouter.Dns.Decoder

/-!
# What is parsed from a reply
-/

namespace SessionRouter.Dns

open Lib DomainName Scan

def RawRR.bytes (raw : RawRR) : Bytes :=
  raw.name ++ storeBig 2 raw.type.toNat ++ storeBig 2 raw.cls.toNat ++
    storeBig 4 (ttlWord raw.ttl) ++ storeBig 2 raw.rdata.length ++ raw.rdata

variable {buf rest : Bytes} {name : WireName}

variable {message : WireMessage} {question : WireQuestion} {count : Nat}
  {questions : List WireQuestion} {record : WireRecord} {fuel : Nat}

theorem nameDataSize_of_takeName (h : takeName fuel buf = some (name, rest)) :
    ∃ piece, buf = piece ++ rest ∧ nameDataSize fuel buf = some piece.length := by
  induction fuel generalizing buf name with
  | zero => cases h
  | succ fuel ih =>
    cases buf with
    | nil => cases h
    | cons byte buf =>
      rw [nameDataSize]
      rcases takeName_succ_eq_some_iff.mp h with ⟨rfl, rfl, rfl⟩ |
        ⟨hzero, hshort, label, after, others, hlength, rfl, hothers, rfl⟩ |
        ⟨hpointer, low, rfl, rfl⟩
      · exact ⟨[0], rfl, rfl⟩
      · obtain ⟨piece, rfl, hpiece⟩ := ih hothers
        refine ⟨byte :: label ++ piece, by simp, ?_⟩
        -- what follows a label is not empty
        have hmore : piece ++ rest ≠ [] := by
          intro hempty
          rw [hempty] at hothers
          cases fuel <;> cases hothers
        have hroom : ¬(label ++ (piece ++ rest)).length ≤ byte.toNat := by
          rw [List.length_append, ← hlength]
          have := List.length_pos_iff.mpr hmore
          omega
        rw [if_neg (by omega), if_neg hzero, if_neg hroom, ← hlength, List.drop_left, hpiece]
        simp only [Option.map_some, List.length_append, List.length_cons]
        congr 1
        omega
      · exact ⟨[byte, low], rfl, by rw [if_pos (by omega), if_neg (List.cons_ne_nil _ _)]; rfl⟩

theorem extractNameData_of_wireName (h : wireName buf = some (name, rest)) :
    ∃ piece, buf = piece ++ rest ∧ extractNameData buf = some (piece, rest) ∧
      Reads wireName piece name := by
  obtain ⟨piece, hbuf, hreads⟩ := wireName_piece h
  obtain ⟨piece', hbuf', hsize⟩ := nameDataSize_of_takeName h
  obtain rfl : piece = piece' := List.append_cancel_right (hbuf.symm.trans hbuf')
  refine ⟨piece, hbuf, ?_, hreads⟩
  rw [extractNameData, hsize, hbuf]
  simp

structure Matches (raw : RawRR) (record : WireRecord) : Prop where
  type : raw.type.toNat = record.type
  reads : Reads wireRecord raw.bytes record

theorem loadAt_append {front back : Bytes} {width value : Nat} (h : value < 256 ^ width) :
    loadAt (front ++ (storeBig width value ++ back)) front.length width = value := by
  have htake : (storeBig width value ++ back).take width = storeBig width value := by
    rw [List.take_append_of_le_length (length_storeBig _ _).ge,
      List.take_of_length_le (length_storeBig _ _).le]
  rw [loadAt, List.drop_left, htake, loadBig_storeBig h]

theorem toNat_ofNat_of_lt {value : Nat} (h : value < 256 ^ 2) :
    (UInt16.ofNat value).toNat = value := by
  rw [UInt16.toNat_ofNat']
  exact Nat.mod_eq_of_lt h

theorem ttlWord_natCast {ttl : Nat} (h : ttl < 256 ^ 4) : ttlWord ttl = ttl := by
  unfold ttlWord
  omega

def fieldBytes (type cls ttl length : Nat) : Bytes :=
  storeBig 2 type ++ (storeBig 2 cls ++ (storeBig 4 ttl ++ storeBig 2 length))

theorem length_fieldBytes (type cls ttl length : Nat) :
    (fieldBytes type cls ttl length).length = 10 := by
  simp [fieldBytes]

theorem reads_wireRecord {piece data : Bytes} {owner : WireName} {type cls ttl : Nat}
    {fields : List WireField} (howner : Reads wireName piece owner) (htype : type < 256 ^ 2)
    (hcls : cls < 256 ^ 2) (httl : ttl < 256 ^ 4) (hlength : data.length < 256 ^ 2)
    (hfields : wireFields (dataParts type) data = some fields) :
    Reads wireRecord (piece ++ (fieldBytes type cls ttl data.length ++ data))
      ⟨owner, type, cls, ttl, fields⟩ := by
  have hexpect : Reads (expect (wireFields (dataParts type) data)) [] fields := by
    intro tail
    exact expect_eq_some_iff.mpr ⟨hfields, rfl⟩
  have hpieces : fieldBytes type cls ttl data.length ++ data = storeBig 2 type ++
      (storeBig 2 cls ++ (storeBig 4 ttl ++ (storeBig 2 data.length ++ (data ++ ([] ++ []))))) := by
    simp [fieldBytes]
  rw [hpieces]
  refine howner.bind ?_
  refine (reads_number htype).bind ?_
  refine (reads_number hcls).bind ?_
  refine (reads_number httl).bind ?_
  refine (reads_number hlength).bind ?_
  refine (reads_bytes data).bind ?_
  exact hexpect.bind (reads_pure _)

theorem wireRecord_eq_some (h : wireRecord buf = some (record, rest)) :
    ∃ after data, wireName buf = some (record.owner, after) ∧
      after = fieldBytes record.type record.cls record.ttl data.length ++ (data ++ rest) ∧
      record.type < 256 ^ 2 ∧ record.cls < 256 ^ 2 ∧ record.ttl < 256 ^ 4 ∧
      data.length < 256 ^ 2 ∧ wireFields (dataParts record.type) data = some record.data := by
  obtain ⟨owner, after, howner, h⟩ := bind_eq_some_iff.mp h
  obtain ⟨type, afterType, htype, h⟩ := bind_eq_some_iff.mp h
  obtain ⟨cls, afterCls, hcls, h⟩ := bind_eq_some_iff.mp h
  obtain ⟨ttl, afterTtl, httl, h⟩ := bind_eq_some_iff.mp h
  obtain ⟨length, afterLength, hlength, h⟩ := bind_eq_some_iff.mp h
  obtain ⟨data, afterData, hdata, h⟩ := bind_eq_some_iff.mp h
  obtain ⟨fields, afterFields, hfields, h⟩ := bind_eq_some_iff.mp h
  cases h
  obtain ⟨htypeLt, rfl⟩ := number_eq_some_iff.mp htype
  obtain ⟨hclsLt, rfl⟩ := number_eq_some_iff.mp hcls
  obtain ⟨httlLt, rfl⟩ := number_eq_some_iff.mp httl
  obtain ⟨hlengthLt, rfl⟩ := number_eq_some_iff.mp hlength
  obtain ⟨rfl, rfl⟩ := bytes_eq_some_iff.mp hdata
  obtain ⟨hparts, rfl⟩ := expect_eq_some_iff.mp hfields
  exact ⟨_, data, howner, by simp [fieldBytes], htypeLt, hclsLt, httlLt, hlengthLt, hparts⟩

theorem parseRecord_of_wireRecord (h : wireRecord buf = some (record, rest)) :
    ∃ raw, RawMessage.parseRecord buf = some (raw, rest) ∧ buf = raw.bytes ++ rest ∧
      Matches raw record := by
  obtain ⟨after, data, howner, hafter, htype, hcls, httl, hlength, hfields⟩ := wireRecord_eq_some h
  obtain ⟨piece, hbuf, hextract, hreads⟩ := extractNameData_of_wireName howner
  have hbytes : RawRR.bytes ⟨piece, UInt16.ofNat record.type, UInt16.ofNat record.cls, record.ttl,
      data⟩ = piece ++ (fieldBytes record.type record.cls record.ttl data.length ++ data) := by
    simp only [RawRR.bytes, fieldBytes, toNat_ofNat_of_lt htype, toNat_ofNat_of_lt hcls,
      ttlWord_natCast httl, List.append_assoc]
  refine ⟨⟨piece, UInt16.ofNat record.type, UInt16.ofNat record.cls, record.ttl, data⟩, ?_, ?_,
    toNat_ofNat_of_lt htype, ?_⟩
  · rw [RawMessage.parseRecord, hextract]
    dsimp only
    have hdrop : after.drop 10 = data ++ rest := by
      rw [hafter, ← length_fieldBytes record.type record.cls record.ttl data.length,
        List.drop_left]
    have hsize : ¬after.length < 2 + 2 + 4 + 2 := by
      rw [hafter, List.length_append, length_fieldBytes]
      omega
    have hload0 : loadAt after 0 2 = record.type := by
      rw [hafter, fieldBytes, List.append_assoc]
      exact @loadAt_append [] _ 2 record.type htype
    have hload2 : loadAt after 2 2 = record.cls := by
      rw [hafter, fieldBytes]
      simpa using @loadAt_append (storeBig 2 record.type)
        (storeBig 4 record.ttl ++ (storeBig 2 data.length ++ (data ++ rest))) 2 record.cls hcls
    have hload4 : loadAt after 4 4 = record.ttl := by
      rw [hafter, fieldBytes]
      simpa using @loadAt_append (storeBig 2 record.type ++ storeBig 2 record.cls)
        (storeBig 2 data.length ++ (data ++ rest)) 4 record.ttl httl
    have hload8 : loadAt after 8 2 = data.length := by
      rw [hafter, fieldBytes]
      simpa using @loadAt_append
        (storeBig 2 record.type ++ (storeBig 2 record.cls ++ storeBig 4 record.ttl)) (data ++ rest)
        2 data.length hlength
    have henough : ¬(data ++ rest).length < data.length := by
      rw [List.length_append]
      omega
    rw [if_neg hsize, hdrop, hload8, if_neg henough, hload0, hload2, hload4, List.take_left,
      List.drop_left]
  · rw [hbytes, hbuf, hafter, List.append_assoc, List.append_assoc]
  · rw [hbytes]
    exact reads_wireRecord hreads htype hcls httl hlength hfields

theorem parseSection_of_many {records : List WireRecord}
    (h : many wireRecord count buf = some (records, rest)) :
    ∃ raws, RawMessage.parseSection count buf = some (raws, rest) ∧
      buf = raws.flatMap RawRR.bytes ++ rest ∧ List.Forall₂ Matches raws records := by
  induction count generalizing buf records with
  | zero =>
    cases h
    exact ⟨[], rfl, rfl, .nil⟩
  | succ count ih =>
    obtain ⟨record, middle, others, hrecord, hothers, rfl⟩ := many_succ_eq_some_iff.mp h
    obtain ⟨raw, hparse, hbuf, hmatches⟩ := parseRecord_of_wireRecord hrecord
    obtain ⟨raws, hparses, hmiddle, hall⟩ := ih hothers
    refine ⟨raw :: raws, ?_, ?_, .cons hmatches hall⟩
    · rw [RawMessage.parseSection, hparse]
      simp only [Option.bind_eq_bind, Option.bind_some, hparses]
      rfl
    · rw [hbuf, hmiddle, List.flatMap_cons, List.append_assoc]

def QuestionsParse : Nat → Bytes → Prop
  | 0, _ => True
  | count + 1, buf => ∃ question wire rest, Question.extract buf = some (question, rest) ∧
      wireQuestion buf = some (wire, rest) ∧ QuestionsParse count rest

def WireQuestion.plain (question : WireQuestion) : ReadQuestion :=
  ⟨question.name.labels, question.type, question.cls⟩

def ReadQuestion.bytes (question : ReadQuestion) : Bytes :=
  wire question.labels ++ (storeBig 2 question.type ++ storeBig 2 question.cls)

def WireLabels (labels : List Bytes) : Prop :=
  ∀ label ∈ labels, label ≠ [] ∧ label.length ≤ 63

theorem takeName_uncompressed (h : takeName fuel buf = some (name, rest))
    (hplain : name.target = none) :
    extractLabels fuel buf = some (name.labels, rest) ∧ buf = wire name.labels ++ rest ∧
      WireLabels name.labels := by
  induction fuel generalizing buf name with
  | zero => cases h
  | succ fuel ih =>
    cases buf with
    | nil => cases h
    | cons byte buf =>
      rw [extractLabels]
      rcases takeName_succ_eq_some_iff.mp h with ⟨rfl, rfl, rfl⟩ |
        ⟨hzero, hshort, label, after, others, hlength, rfl, hothers, rfl⟩ | ⟨-, low, -, rfl⟩
      · exact ⟨rfl, rfl, List.forall_mem_nil _⟩
      · obtain ⟨hextract, rfl, hlabels⟩ := ih hothers hplain
        have hroom : ¬(label ++ (wire others.labels ++ rest)).length ≤ byte.toNat := by
          simp only [List.length_append, wire, List.length_singleton]
          omega
        have hbyte : byte = UInt8.ofNat label.length := by rw [hlength, UInt8.ofNat_toNat]
        have hne : label ≠ [] := by
          rintro rfl
          exact hzero hbyte
        refine ⟨?_, ?_, List.forall_mem_cons.mpr ⟨⟨hne, by omega⟩, hlabels⟩⟩
        · rw [if_neg hzero, if_neg hroom, ← hlength, List.drop_left, hextract, List.take_left]
          rfl
        · rw [hbyte, wire_cons, wireLabel]
          simp
      · cases hplain

theorem extractLabels_rest_le {labels : List Bytes}
    (h : extractLabels fuel buf = some (labels, rest)) : rest.length < buf.length := by
  induction fuel generalizing buf labels with
  | zero => cases h
  | succ fuel ih =>
    cases buf with
    | nil => cases h
    | cons length buf =>
      rw [extractLabels] at h
      by_cases hzero : length = 0
      · rw [if_pos hzero] at h
        cases h
        exact Nat.lt_succ_self _
      · rw [if_neg hzero] at h
        by_cases hshort : buf.length ≤ length.toNat
        · rw [if_pos hshort] at h
          cases h
        · rw [if_neg hshort] at h
          obtain ⟨found, hfound, heq⟩ := Option.map_eq_some_iff.mp h
          cases heq
          have hle := ih hfound
          rw [List.length_drop] at hle
          rw [List.length_cons]
          omega

theorem extractLabels_compressed {rest' : Bytes} {labels : List Bytes}
    (h : takeName fuel buf = some (name, rest)) (hcompressed : name.target ≠ none)
    (hextract : extractLabels fuel buf = some (labels, rest')) : rest'.length < rest.length := by
  induction fuel generalizing buf name labels with
  | zero => cases h
  | succ fuel ih =>
    cases buf with
    | nil => cases h
    | cons byte buf =>
      rw [extractLabels] at hextract
      rcases takeName_succ_eq_some_iff.mp h with ⟨rfl, rfl, rfl⟩ |
        ⟨hzero, hshort, label, after, others, hlength, rfl, hothers, rfl⟩ |
        ⟨hpointer, low, rfl, rfl⟩
      · exact absurd rfl hcompressed
      · rw [if_neg hzero] at hextract
        by_cases hroom : (label ++ after).length ≤ byte.toNat
        · rw [if_pos hroom] at hextract
          cases hextract
        · rw [if_neg hroom, ← hlength, List.drop_left] at hextract
          obtain ⟨found, hfound, heq⟩ := Option.map_eq_some_iff.mp hextract
          cases heq
          exact ih hothers hcompressed hfound
      · have hzero : byte ≠ 0 := by
          rintro rfl
          exact absurd hpointer (by decide)
        rw [if_neg hzero] at hextract
        by_cases hroom : (low :: rest).length ≤ byte.toNat
        · rw [if_pos hroom] at hextract
          cases hextract
        · rw [if_neg hroom] at hextract
          obtain ⟨found, hfound, heq⟩ := Option.map_eq_some_iff.mp hextract
          cases heq
          have hle := extractLabels_rest_le hfound
          rw [List.length_drop, List.length_cons] at hle
          omega

theorem wireQuestion_eq_some (h : wireQuestion buf = some (question, rest)) :
    wireName buf = some (question.name, storeBig 2 question.type ++
        (storeBig 2 question.cls ++ rest)) ∧
      question.type < 256 ^ 2 ∧ question.cls < 256 ^ 2 := by
  obtain ⟨name, after, hname, h⟩ := bind_eq_some_iff.mp h
  obtain ⟨type, afterType, htype, h⟩ := bind_eq_some_iff.mp h
  obtain ⟨cls, afterCls, hcls, h⟩ := bind_eq_some_iff.mp h
  cases h
  obtain ⟨htypeLt, rfl⟩ := number_eq_some_iff.mp htype
  obtain ⟨hclsLt, rfl⟩ := number_eq_some_iff.mp hcls
  exact ⟨hname, htypeLt, hclsLt⟩

/-- A question that is not compressed. -/
structure Uncompressed (question : WireQuestion) : Prop where
  target : question.name.target = none
  labels : WireLabels question.name.labels
  type_lt : question.type < 256 ^ 2
  cls_lt : question.cls < 256 ^ 2
  reads : Reads wireQuestion question.plain.bytes question

theorem extract_uncompressed
    (h : wireQuestion buf = some (question, rest)) (hplain : question.name.target = none) :
    Question.extract buf = some (question.plain.stored, rest) ∧
      buf = question.plain.bytes ++ rest ∧ Uncompressed question := by
  obtain ⟨hname, htype, hcls⟩ := wireQuestion_eq_some h
  obtain ⟨hextract, hbuf, hlabels⟩ := takeName_uncompressed hname hplain
  obtain ⟨piece, hpiece, hreads⟩ := wireName_piece hname
  obtain rfl : piece = wire question.name.labels :=
    List.append_cancel_right (hpiece.symm.trans hbuf)
  refine ⟨?_, ?_, hplain, hlabels, htype, hcls, ?_⟩
  · have hsize :
        ¬(storeBig 2 question.type ++ (storeBig 2 question.cls ++ rest)).length < 2 + 2 := by
      simp only [List.length_append, length_storeBig]
      omega
    have hload0 : loadAt (storeBig 2 question.type ++ (storeBig 2 question.cls ++ rest)) 0 2 =
        question.type := @loadAt_append [] _ 2 question.type htype
    have hload2 : loadAt (storeBig 2 question.type ++ (storeBig 2 question.cls ++ rest)) 2 2 =
        question.cls := by
      simpa using @loadAt_append (storeBig 2 question.type) rest 2 question.cls hcls
    have hdrop : (storeBig 2 question.type ++ (storeBig 2 question.cls ++ rest)).drop 4 = rest := by
      rw [← List.append_assoc]
      exact List.drop_left' (by simp)
    rw [Question.extract, extractName, hextract]
    simp only [Option.map_some, hsize, if_false, hload0, hload2, hdrop]
    rfl
  · rw [hbuf, ReadQuestion.bytes]
    simp [WireQuestion.plain]
  · rw [ReadQuestion.bytes, ← List.append_nil (storeBig 2 question.plain.cls)]
    exact hreads.bind ((reads_number htype).bind ((reads_number hcls).bind (reads_pure _)))

theorem extract_compressed {wire : WireQuestion} {question : Question}
    (h : wireQuestion buf = some (wire, rest)) (hcompressed : wire.name.target ≠ none) :
    Question.extract buf ≠ some (question, rest) := by
  obtain ⟨hname, -, -⟩ := wireQuestion_eq_some h
  rw [Question.extract, extractName]
  intro hextract
  cases hlabels : extractLabels buf.length buf with
  | none =>
    rw [hlabels] at hextract
    cases hextract
  | some found =>
    obtain ⟨labels, after⟩ := found
    rw [hlabels] at hextract
    simp only [Option.map_some] at hextract
    have hlt := extractLabels_compressed hname hcompressed hlabels
    by_cases hshort : after.length < 2 + 2
    · rw [if_pos hshort] at hextract
      cases hextract
    · rw [if_neg hshort] at hextract
      simp only [Option.some.injEq, Prod.mk.injEq] at hextract
      obtain ⟨-, rfl⟩ := hextract
      simp only [List.length_append, length_storeBig, List.length_drop] at hlt
      omega

section

variable (h : many wireQuestion count buf = some (questions, rest))

include h

theorem questionsParse_iff :
    QuestionsParse count buf ↔ ∀ question ∈ questions, question.name.target = none := by
  induction count generalizing buf questions with
  | zero =>
    cases h
    exact iff_of_true trivial fun question hmem => nomatch hmem
  | succ count ih =>
    obtain ⟨wire, middle, others, hwire, hothers, rfl⟩ := many_succ_eq_some_iff.mp h
    rw [QuestionsParse, List.forall_mem_cons, ← ih hothers]
    constructor
    · rintro ⟨question, wire', rest', hextract, hwire', hparse⟩
      rw [hwire] at hwire'
      cases hwire'
      refine ⟨?_, hparse⟩
      by_contra hcompressed
      exact extract_compressed hwire hcompressed hextract
    · rintro ⟨hplain, hparse⟩
      exact ⟨_, wire, middle, (extract_uncompressed hwire hplain).1, hwire, hparse⟩

theorem parseQuestions_of_many (hplain : ∀ question ∈ questions, question.name.target = none) :
    RawMessage.parseQuestions count buf =
        (questions.map fun question => question.plain.stored, rest) ∧
      buf = questions.flatMap (fun question => question.plain.bytes) ++ rest ∧
      ∀ question ∈ questions, Uncompressed question := by
  induction count generalizing buf questions with
  | zero =>
    cases h
    exact ⟨rfl, rfl, fun question hmem => nomatch hmem⟩
  | succ count ih =>
    obtain ⟨wire, middle, others, hwire, hothers, rfl⟩ := many_succ_eq_some_iff.mp h
    obtain ⟨hfirst, hrest⟩ := List.forall_mem_cons.mp hplain
    obtain ⟨hextract, hbuf, huncompressed⟩ := extract_uncompressed hwire hfirst
    obtain ⟨hparse, hmiddle, hall⟩ := ih hothers hrest
    refine ⟨?_, ?_, List.forall_mem_cons.mpr ⟨huncompressed, hall⟩⟩
    · rw [RawMessage.parseQuestions, RawMessage.parseQuestion, hextract]
      simp only [hparse, List.map_cons]
    · rw [hbuf, hmiddle, List.flatMap_cons, List.append_assoc]

end

variable {msg : Bytes}

theorem number_drop {offset width : Nat} (h : offset + width ≤ msg.length) :
    number width (msg.drop offset) = some (loadAt msg offset width, msg.drop (offset + width)) := by
  have hlength : ((msg.drop offset).take width).length = width := by
    rw [List.length_take, List.length_drop]
    omega
  refine number_eq_some_iff.mpr ⟨?_, ?_⟩
  · have hlt := loadBig_lt ((msg.drop offset).take width)
    rwa [hlength] at hlt
  · have hstore := storeBig_loadBig ((msg.drop offset).take width)
    rw [hlength] at hstore
    rw [loadAt, hstore, ← List.drop_drop, List.take_append_drop]

theorem wireCounts_eq_some_iff {counts : WireCounts} :
    wireCounts msg = some (counts, rest) ↔
      12 ≤ msg.length ∧ counts = ⟨qdCount msg, anCount msg, nsCount msg, arCount msg⟩ ∧
        rest = msg.drop 12 := by
  have hread (hlength : 12 ≤ msg.length) : wireCounts msg =
      some (⟨qdCount msg, anCount msg, nsCount msg, arCount msg⟩, msg.drop 12) := by
    refine bind_eq_some_iff.mpr ⟨_, _, @number_drop msg 0 2 (by omega), ?_⟩
    refine bind_eq_some_iff.mpr ⟨_, _, number_drop (by omega), ?_⟩
    refine bind_eq_some_iff.mpr ⟨_, _, number_drop (by omega), ?_⟩
    refine bind_eq_some_iff.mpr ⟨_, _, number_drop (by omega), ?_⟩
    refine bind_eq_some_iff.mpr ⟨_, _, number_drop (by omega), ?_⟩
    exact bind_eq_some_iff.mpr ⟨_, _, number_drop (by omega), rfl⟩
  constructor
  · intro h
    have hlength : 12 ≤ msg.length := by
      obtain ⟨_, _, hid, h⟩ := bind_eq_some_iff.mp h
      obtain ⟨_, _, hflags, h⟩ := bind_eq_some_iff.mp h
      obtain ⟨_, _, hquestions, h⟩ := bind_eq_some_iff.mp h
      obtain ⟨_, _, hanswers, h⟩ := bind_eq_some_iff.mp h
      obtain ⟨_, _, hauthorities, h⟩ := bind_eq_some_iff.mp h
      obtain ⟨_, _, hadditional, h⟩ := bind_eq_some_iff.mp h
      obtain ⟨-, rfl⟩ := number_eq_some_iff.mp hid
      obtain ⟨-, rfl⟩ := number_eq_some_iff.mp hflags
      obtain ⟨-, rfl⟩ := number_eq_some_iff.mp hquestions
      obtain ⟨-, rfl⟩ := number_eq_some_iff.mp hanswers
      obtain ⟨-, rfl⟩ := number_eq_some_iff.mp hauthorities
      obtain ⟨-, rfl⟩ := number_eq_some_iff.mp hadditional
      simp only [List.length_append, length_storeBig]
      omega
    rw [hread hlength] at h
    cases h
    exact ⟨hlength, rfl, rfl⟩
  · rintro ⟨hlength, rfl, rfl⟩
    exact hread hlength

theorem wireFront_eq_some_iff {front : WireFront} :
    wireFront msg = some (front, rest) ↔
      12 ≤ msg.length ∧ front.additionalCount = arCount msg ∧ ∃ afterQuestions afterAnswers,
        many wireQuestion (qdCount msg) (msg.drop 12) = some (front.questions, afterQuestions) ∧
        many wireRecord (anCount msg) afterQuestions = some (front.answers, afterAnswers) ∧
        many wireRecord (nsCount msg) afterAnswers = some (front.authorities, rest) := by
  rw [wireFront, bind_eq_some_iff]
  constructor
  · rintro ⟨counts, body, hcounts, h⟩
    obtain ⟨hlength, rfl, rfl⟩ := wireCounts_eq_some_iff.mp hcounts
    obtain ⟨questions, afterQuestions, hquestions, h⟩ := bind_eq_some_iff.mp h
    obtain ⟨answers, afterAnswers, hanswers, h⟩ := bind_eq_some_iff.mp h
    obtain ⟨authorities, afterAuthorities, hauthorities, h⟩ := bind_eq_some_iff.mp h
    cases h
    exact ⟨hlength, rfl, afterQuestions, afterAnswers, hquestions, hanswers, hauthorities⟩
  · rintro ⟨hlength, hcount, afterQuestions, afterAnswers, hquestions, hanswers, hauthorities⟩
    refine ⟨_, _, wireCounts_eq_some_iff.mpr ⟨hlength, rfl, rfl⟩, ?_⟩
    refine bind_eq_some_iff.mpr ⟨_, _, hquestions, ?_⟩
    refine bind_eq_some_iff.mpr ⟨_, _, hanswers, ?_⟩
    refine bind_eq_some_iff.mpr ⟨_, _, hauthorities, ?_⟩
    rw [pure_apply, ← hcount]

theorem wireMessage_eq_some_iff : wireMessage msg = some (message, rest) ↔
      12 ≤ msg.length ∧ ∃ afterQuestions afterAnswers afterAuthorities,
        many wireQuestion (qdCount msg) (msg.drop 12) = some (message.questions, afterQuestions) ∧
        many wireRecord (anCount msg) afterQuestions = some (message.answers, afterAnswers) ∧
        many wireRecord (nsCount msg) afterAnswers = some (message.authorities, afterAuthorities) ∧
        many wireRecord (arCount msg) afterAuthorities = some (message.additional, rest) := by
  rw [wireMessage, bind_eq_some_iff]
  constructor
  · rintro ⟨front, middle, hfront, h⟩
    obtain ⟨additional, after, hadditional, h⟩ := bind_eq_some_iff.mp h
    cases h
    obtain ⟨hlength, hcount, afterQuestions, afterAnswers, hquestions, hanswers, hauthorities⟩ :=
      wireFront_eq_some_iff.mp hfront
    rw [hcount] at hadditional
    exact ⟨hlength, afterQuestions, afterAnswers, middle, hquestions, hanswers, hauthorities,
      hadditional⟩
  · rintro ⟨hlength, afterQuestions, afterAnswers, middle, hquestions, hanswers, hauthorities,
      hadditional⟩
    refine ⟨⟨message.questions, message.answers, message.authorities, arCount msg⟩, middle,
      wireFront_eq_some_iff.mpr ⟨hlength, rfl, afterQuestions, afterAnswers, hquestions, hanswers,
        hauthorities⟩, ?_⟩
    exact bind_eq_some_iff.mpr ⟨_, _, hadditional, rfl⟩

/-- A reply has been parsed into what stands in it. -/
structure ParsedAs (msg : Bytes) (message : WireMessage) (rest : Bytes) (raw : RawMessage) :
    Prop where
  questions : raw.questions = message.questions.map fun question => question.plain.stored
  uncompressed : ∀ question ∈ message.questions, Uncompressed question
  answers : List.Forall₂ Matches raw.answers message.answers
  authorities : List.Forall₂ Matches raw.authorities message.authorities
  additional : List.Forall₂ Matches raw.additional message.additional
  fields : raw.hdrFields = UInt16.ofNat (loadAt msg 2 2)
  header : 12 ≤ msg.length
  front : wireFront msg = some (⟨message.questions, message.answers, message.authorities,
    message.additional.length⟩, raw.additional.flatMap RawRR.bytes ++ rest)
  body : msg.drop 12 = message.questions.flatMap (fun question => question.plain.bytes) ++
    (raw.answers.flatMap RawRR.bytes ++ (raw.authorities.flatMap RawRR.bytes ++
      (raw.additional.flatMap RawRR.bytes ++ rest)))

theorem parse_of_wireMessage (h : wireMessage msg = some (message, rest))
    (hplain : ∀ question ∈ message.questions, question.name.target = none) :
    ∃ raw, RawMessage.parse msg = some raw ∧ ParsedAs msg message rest raw := by
  obtain ⟨hlength, afterQuestions, afterAnswers, afterAuthorities, hquestions, hanswers,
    hauthorities, hadditional⟩ := wireMessage_eq_some_iff.mp h
  obtain ⟨hparse, hbody, hlabels⟩ := parseQuestions_of_many hquestions hplain
  obtain ⟨answers, hparseAnswers, hafterQuestions, hmatchAnswers⟩ := parseSection_of_many hanswers
  obtain ⟨authorities, hparseAuthorities, hafterAnswers, hmatchAuthorities⟩ :=
    parseSection_of_many hauthorities
  obtain ⟨additional, hparseAdditional, hafterAuthorities, hmatchAdditional⟩ :=
    parseSection_of_many hadditional
  refine ⟨⟨UInt16.ofNat (loadAt msg 0 2), UInt16.ofNat (loadAt msg 2 2),
    message.questions.map (fun question => question.plain.stored), answers, authorities,
    additional, none⟩, ?_, rfl, hlabels, hmatchAnswers, hmatchAuthorities, hmatchAdditional,
    rfl, hlength, ?_, ?_⟩
  · rw [RawMessage.parse, if_neg (by omega), hparse]
    simp only [hparseAnswers, hparseAuthorities, hparseAdditional, Option.bind_eq_bind,
      Option.bind_some]
    rfl
  · rw [← hafterAuthorities]
    exact wireFront_eq_some_iff.mpr ⟨hlength, length_of_many hadditional, afterQuestions,
      afterAnswers, hquestions, hanswers, hauthorities⟩
  · rw [hbody, hafterQuestions, hafterAnswers, hafterAuthorities]

end SessionRouter.Dns
