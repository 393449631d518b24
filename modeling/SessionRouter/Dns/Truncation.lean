import SessionRouter.Dns.Message

/-!
# Truncated responses
-/

namespace SessionRouter.Dns

open Lib Wire DomainName Encoder

def TruncatedProperly (hdrId fields : UInt16) (questions : List Question)
    (edns : Option PRREdns) (response : Bytes) : Prop :=
  ∃ additional, (additional = [] ∨ additional = edns.toList.map PRREdns.reading) ∧
    readMessage response =
      some ⟨hdrId.toNat, (fields ||| flagsTC).toNat, questions.map Question.reading, [], [],
        additional⟩

theorem storeBig_four {value : Nat} (h : value < 2 ^ 16) :
    storeBig 4 value = storeBig 2 0 ++ storeBig 2 value := by
  have hhigh : value / 256 / 256 = 0 := by omega
  simp [storeBig, storeLittle, hhigh]

theorem readMessage_header {msg : Bytes} {message : ReadMessage}
    (h : readMessage msg = some message) :
    ∃ header next, readHeader msg 0 = some (header, next) ∧ header.flags = message.flags := by
  unfold readMessage at h
  split at h
  · next sections next_ hsections =>
    split at h
    · cases h
      obtain ⟨header, afterHeader, hheader, h⟩ := bind_eq_some_iff.mp hsections
      obtain ⟨_, _, -, h⟩ := bind_eq_some_iff.mp h
      obtain ⟨_, _, -, h⟩ := bind_eq_some_iff.mp h
      obtain ⟨_, _, -, h⟩ := bind_eq_some_iff.mp h
      obtain ⟨_, _, -, h⟩ := bind_eq_some_iff.mp h
      cases h
      exact ⟨header, afterHeader, hheader, rfl⟩
    · cases h
  · cases h

def patchedFlags (fields : UInt16) : Bytes :=
  storeBig 4 (fields ||| flagsTC).toNat

theorem readHeader_patched {response : Bytes} {header : ReadHeader} {next_ : Nat}
    {fields : UInt16} (hpatched : Has response 2 (patchedFlags fields))
    (h : readHeader response 0 = some (header, next_)) :
    header.flags = 0 ∧ header.questionCount = (fields ||| flagsTC).toNat := by
  rw [patchedFlags, storeBig_four (fields ||| flagsTC).toNat_lt, has_append_iff,
    length_storeBig] at hpatched
  obtain ⟨id, afterId, hid, h⟩ := bind_eq_some_iff.mp h
  obtain ⟨flags, afterFlags, hflags, h⟩ := bind_eq_some_iff.mp h
  obtain ⟨count, afterCount, hcount, h⟩ := bind_eq_some_iff.mp h
  obtain ⟨_, _, -, h⟩ := bind_eq_some_iff.mp h
  obtain ⟨_, _, -, h⟩ := bind_eq_some_iff.mp h
  obtain ⟨_, _, -, h⟩ := bind_eq_some_iff.mp h
  cases h
  obtain rfl := number_next hid
  obtain rfl := number_next hflags
  rw [hpatched.1.number (by decide)] at hflags
  rw [hpatched.2.word] at hcount
  simp only [Option.some.injEq, Prod.mk.injEq] at hflags hcount
  exact ⟨hflags.1.symm, hcount.1.symm⟩

theorem testBit_tc (fields : UInt16) : (fields ||| flagsTC).toNat.testBit 9 = true := by
  rw [UInt16.toNat_or, Nat.testBit_or, show flagsTC.toNat.testBit 9 = true from rfl, Bool.or_true]

theorem not_truncatedProperly {response : Bytes} {hdrId fields : UInt16}
    {questions : List Question} {edns : Option PRREdns}
    (hpatched : Has response 2 (patchedFlags fields)) :
    ¬ TruncatedProperly hdrId fields questions edns response := by
  rintro ⟨additional, -, hread⟩
  obtain ⟨header, next_, hheader, hflags⟩ := readMessage_header hread
  have hflags : header.flags = (fields ||| flagsTC).toNat := hflags
  have hbit := testBit_tc fields
  rw [← hflags, (readHeader_patched hpatched hheader).1] at hbit
  cases hbit

theorem has_patched {written response : Bytes} {fields : UInt16} (hlength : 12 ≤ written.length)
    (h : response.take 6 = (overwrite written 2 (patchedFlags fields)).take 6) :
    Has response 2 (patchedFlags fields) := by
  have hwidth : (patchedFlags fields).length = 4 := length_storeBig 4 _
  have hwritten : Has (overwrite written 2 (patchedFlags fields)) 2 (patchedFlags fields) :=
    has_overwrite (by omega)
  exact hwritten.congr_take (by rwa [hwidth])

theorem take_six_overwrite {msg : Bytes} (hlength : 12 ≤ msg.length) {pos : Nat} (hpos : 6 ≤ pos)
    (hle : pos ≤ 10) (bytes : Bytes) : (overwrite msg pos bytes).take 6 = msg.take 6 :=
  take_overwrite (by omega) hpos bytes

theorem length_of_writeInts {ints : List (Nat × Nat)} {span after : Span} {bytes : Bytes}
    (h : writeInts ints span = some (bytes, after)) :
    bytes.length = (ints.map Prod.fst).sum := by
  obtain ⟨-, rfl, -⟩ := put_eq_some_iff.mp h
  simp [List.length_flatMap]

namespace Message

def DoesNotFit (m : Message) (maxSize : Bool) : Prop :=
  ∃ written span, m.encodeQuestion (Span.start (bufferSize maxSize m.additionalEdns)) =
    some (written, span) ∧ m.encodeRecords span = none

instance (m : Message) (maxSize : Bool) : Decidable (m.DoesNotFit maxSize) :=
  decidable_of_iff
    (∃ begun ∈ m.encodeQuestion (Span.start (bufferSize maxSize m.additionalEdns)),
      (m.encodeRecords begun.2).isNone = true) (by simp [DoesNotFit])

theorem length_of_encodeQuestion {m : Message} {span after : Span} {written : Bytes}
    (h : m.encodeQuestion span = some (written, after)) : 12 ≤ written.length := by
  obtain ⟨header, middle, question, hheader, -, rfl⟩ := andThen_eq_some_iff.mp h
  have hlength := length_of_writeInts hheader
  simp only [List.map_cons, List.map_nil, List.sum_cons, List.sum_nil] at hlength
  rw [List.length_append]
  omega

theorem has_truncate (m : Message) {written : Bytes} (hlength : 12 ≤ written.length)
    (span : Span) : Has (m.truncate written span) 2 (patchedFlags m.responseFields) := by
  apply has_patched hlength
  unfold truncate patchedFlags
  split
  · rw [take_six_overwrite (by simpa) (by decide) (by decide)]
  · split
    · rw [List.take_append_of_le_length (by simp; omega),
        take_six_overwrite (by simpa) (by decide) (by decide)]
    · rw [take_six_overwrite (by simpa) (by decide) (by decide),
        take_six_overwrite (by simpa) (by decide) (by decide)]

theorem encode_of_doesNotFit {m : Message} {maxSize : Bool} (h : m.DoesNotFit maxSize) :
    ∃ response, m.encode maxSize = some response ∧
      Has response 2 (patchedFlags m.responseFields) := by
  obtain ⟨written, span, hquestion, hrecords⟩ := h
  refine ⟨m.truncate written span, ?_, m.has_truncate (length_of_encodeQuestion hquestion) span⟩
  rw [encode, hquestion, Option.map_some, hrecords]

end Message

namespace RawMessage

def DoesNotFit (m : RawMessage) (maxSize : Bool) : Prop :=
  ∃ header afterHeader questions afterQuestions,
    m.encodeHeader (Span.start (bufferSize maxSize m.additionalEdns)) =
      some (header, afterHeader) ∧
    m.encodeQuestions afterHeader = some (questions, afterQuestions) ∧
    m.encodeRecords afterQuestions = none

instance (m : RawMessage) (maxSize : Bool) : Decidable (m.DoesNotFit maxSize) :=
  decidable_of_iff
    (∃ header ∈ m.encodeHeader (Span.start (bufferSize maxSize m.additionalEdns)),
      ∃ asked ∈ m.encodeQuestions header.2, (m.encodeRecords asked.2).isNone = true) (by
    simp only [DoesNotFit, Option.mem_def, Option.isNone_iff_eq_none, Prod.exists]
    constructor
    · rintro ⟨header, afterHeader, hheader, questions, afterQuestions, hrest⟩
      exact ⟨header, afterHeader, questions, afterQuestions, hheader, hrest⟩
    · rintro ⟨header, afterHeader, questions, afterQuestions, hheader, hrest⟩
      exact ⟨header, afterHeader, hheader, questions, afterQuestions, hrest⟩)

theorem has_truncate (m : RawMessage) {written : Bytes} (hlength : 12 ≤ written.length)
    (span : Span) : Has (m.truncate written true span) 2 (patchedFlags m.hdrFields) := by
  apply has_patched hlength
  unfold truncate patchedFlags
  simp only [if_true]
  have hsix {msg : Bytes} (hmsg : 12 ≤ msg.length) {pos : Nat} (hpos : 6 ≤ pos)
      (hle : pos ≤ 10) := take_six_overwrite hmsg hpos hle
  split
  · rw [hsix (by simpa) (by decide) (by decide), hsix (by simpa) (by decide) (by decide),
      hsix (by simpa) (by decide) (by decide)]
  · split
    · rw [List.take_append_of_le_length (by simp; omega),
        hsix (by simpa) (by decide) (by decide), hsix (by simpa) (by decide) (by decide),
        hsix (by simpa) (by decide) (by decide)]
    · rw [hsix (by simpa) (by decide) (by decide), hsix (by simpa) (by decide) (by decide),
        hsix (by simpa) (by decide) (by decide), hsix (by simpa) (by decide) (by decide)]

theorem encode_of_doesNotFit {m : RawMessage} {maxSize : Bool} (h : m.DoesNotFit maxSize) :
    ∃ response, m.encode maxSize = some response ∧
      Has response 2 (patchedFlags m.hdrFields) := by
  obtain ⟨header, afterHeader, questions, afterQuestions, hheader, hquestions, hrecords⟩ := h
  refine ⟨m.truncate (header ++ questions) true afterQuestions, ?_, m.has_truncate ?_ _⟩
  · rw [encode, hheader, Option.map_some, hquestions]
    simp only [hrecords]
  · have hlength := length_of_writeInts hheader
    simp only [List.map_cons, List.map_nil, List.sum_cons, List.sum_nil] at hlength
    rw [List.length_append]
    omega

end RawMessage

/-- No truncated response, of either kind, is what it should be. -/
theorem truncatedResponse_misread (m : Message) (raw : RawMessage) :
    (m.DoesNotFit false → ∃ response, m.encode false = some response ∧
      ¬ TruncatedProperly m.hdrId m.responseFields m.question.toList m.additionalEdns response) ∧
    (raw.DoesNotFit false → ∃ response, raw.encode false = some response ∧
      ¬ TruncatedProperly raw.hdrId raw.hdrFields raw.questions raw.additionalEdns
        response) := by
  constructor
  · intro hlong
    obtain ⟨response, hencode, hpatched⟩ := Message.encode_of_doesNotFit hlong
    exact ⟨response, hencode, not_truncatedProperly hpatched⟩
  · intro hlong
    obtain ⟨response, hencode, hpatched⟩ := RawMessage.encode_of_doesNotFit hlong
    exact ⟨response, hencode, not_truncatedProperly hpatched⟩

/-! ### A long text record -/

def askedName : Question :=
  ⟨ascii "a.", RRType.TXT, classIN⟩

def longAnswer : Message :=
  ⟨0x1234, 0x0100, some askedName, [rrTXT (ascii "a.") 10 (List.replicate 600 0)], [], none, none,
    false⟩

def longRawAnswer : RawMessage :=
  ⟨0x1234, 0x8180, [askedName], [⟨[1, 97, 0], RRType.TXT, classIN, 10, List.replicate 600 0⟩], [],
    [], none⟩

theorem longAnswer_misread : longAnswer.DoesNotFit false ∧
      longAnswer.encode false =
        some ([0x12, 0x34, 0, 0, 0x83, 0, 0, 0, 0, 0, 0, 0] ++ [1, 97, 0, 0, 16, 0, 1]) ∧
      readMessage ([0x12, 0x34, 0, 0, 0x83, 0, 0, 0, 0, 0, 0, 0] ++ [1, 97, 0, 0, 16, 0, 1]) =
        none := by
  refine ⟨by decide +kernel, by decide +kernel, by decide +kernel⟩

theorem truncatedResponse_misread_text : (∃ response, longAnswer.encode false = some response ∧
      ¬ TruncatedProperly 0x1234 longAnswer.responseFields [askedName] none response) ∧
    (∃ response, longRawAnswer.encode false = some response ∧
      ¬ TruncatedProperly 0x1234 0x8180 [askedName] none response) :=
  ⟨(truncatedResponse_misread longAnswer longRawAnswer).1 (by decide +kernel),
    (truncatedResponse_misread longAnswer longRawAnswer).2 (by decide +kernel)⟩

end SessionRouter.Dns
