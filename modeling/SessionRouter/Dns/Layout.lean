import SessionRouter.Dns.Message

/-!
# Where the names of a response stand
-/

namespace SessionRouter.Dns

open Lib DomainName Encoder

structure Reference where
  labels : List Bytes
  offset : Nat
deriving DecidableEq

structure Layout where
  offset : Nat
  seen : List Bytes → Option Nat
  references : List Reference

namespace Layout

def start : Layout :=
  ⟨0, fun _ => none, []⟩

def skip (count : Nat) (layout : Layout) : Layout :=
  { layout with offset := layout.offset + count }

def note (labels : List Bytes) (layout : Layout) : Layout :=
  { layout with seen := Function.update layout.seen labels (some layout.offset) }

def refer (labels : List Bytes) (offset : Nat) (layout : Layout) : Layout :=
  { layout with references := layout.references ++ [⟨labels, offset⟩] }

def name : List Bytes → Layout → Layout
  | [], layout => layout.skip 1
  | part :: rest, layout =>
    match layout.seen (part :: rest) with
    | some offset => (layout.refer (part :: rest) offset).skip 2
    | none => name rest ((layout.note (part :: rest)).skip (part.length + 1))

def recordFields : Nat := 10

def data : RRData → Layout → Layout
  | .bytes _ rData, layout => layout.skip rData.length
  | .target _ target, layout => layout.name (nameLabels target)
  | .srv _ _ _ host, layout => (layout.skip 6).name (nameLabels host)

def record (record : ResourceRecord) (layout : Layout) : Layout :=
  ((layout.name (nameLabels record.rrName)).skip recordFields).data record.data

def records (records : List ResourceRecord) (layout : Layout) : Layout :=
  records.foldl (fun layout record => layout.record record) layout

def question (question : Option Question) (layout : Layout) : Layout :=
  match question with
  | some question => (layout.name (nameLabels question.qname)).skip 4
  | none => layout

def edns (edns : Option PRREdns) (layout : Layout) : Layout :=
  match edns with
  | some edns => (layout.skip (1 + recordFields)).skip edns.optionBytes.length
  | none => layout

def message (m : Message) : Layout :=
  ((((start.skip 12).question m.question).records m.answers).records m.authorities).edns
    m.additionalEdns

theorem offset_le_name (labels : List Bytes) (layout : Layout) :
    layout.offset ≤ (layout.name labels).offset := by
  induction labels generalizing layout with
  | nil => exact Nat.le_add_right _ _
  | cons part rest ih =>
    rw [name]
    split
    · exact Nat.le_add_right _ _
    · have hrest := ih ((layout.note (part :: rest)).skip (part.length + 1))
      change layout.offset + (part.length + 1) ≤ _ at hrest
      omega

theorem offset_le_data (data : RRData) (layout : Layout) :
    layout.offset ≤ (layout.data data).offset := by
  cases data with
  | bytes kind rData => exact Nat.le_add_right _ _
  | target kind target => exact offset_le_name _ _
  | srv priority weight port host =>
    exact (Nat.le_add_right _ 6).trans (offset_le_name _ (layout.skip 6))

theorem offset_le_edns (edns : Option PRREdns) (layout : Layout) :
    layout.offset ≤ (layout.edns edns).offset := by
  cases edns with
  | none => exact Nat.le_refl _
  | some edns => exact (Nat.le_add_right _ (1 + recordFields)).trans (Nat.le_add_right _ _)

theorem offset_lt_record (record : ResourceRecord) (layout : Layout) :
    layout.offset < (layout.record record).offset := by
  have hname := offset_le_name (nameLabels record.rrName) layout
  have hdata := offset_le_data record.data
    ((layout.name (nameLabels record.rrName)).skip recordFields)
  change (layout.name (nameLabels record.rrName)).offset + 10 ≤ _ at hdata
  exact Nat.lt_of_lt_of_le (by omega) hdata

theorem offset_add_length_le_records (records : List ResourceRecord) (layout : Layout) :
    layout.offset + records.length ≤ (layout.records records).offset := by
  induction records generalizing layout with
  | nil => exact Nat.le_refl _
  | cons record records ih =>
    have hfirst := layout.offset_lt_record record
    have hrest := ih (layout.record record)
    rw [List.length_cons]
    exact Nat.le_trans (by omega) hrest

theorem length_records_le (m : Message) :
    m.answers.length + m.authorities.length ≤ (message m).offset := by
  have hanswers := offset_add_length_le_records m.answers ((start.skip 12).question m.question)
  have hauthorities := offset_add_length_le_records m.authorities
    (((start.skip 12).question m.question).records m.answers)
  have hedns := offset_le_edns m.additionalEdns
    ((((start.skip 12).question m.question).records m.answers).records m.authorities)
  exact Nat.le_trans (by omega) hedns

end Layout

def Message.size (m : Message) : Nat :=
  (Layout.message m).offset

def Message.references (m : Message) : List Reference :=
  (Layout.message m).references

theorem plainLabel_of_valid {label : Bytes} (h : ValidLabel label) : PlainLabel label :=
  ⟨h.nonempty, fun hmem => h.dotFree (List.mem_of_mem_tail hmem)⟩

theorem dotted_inj {first second : List Bytes} (hfirst : ∀ label ∈ first, ValidLabel label)
    (hsecond : ∀ label ∈ second, ValidLabel label) (h : dotted first = dotted second) :
    first = second := by
  rw [← parts_dotted fun label hmem => plainLabel_of_valid (hfirst label hmem), h,
    parts_dotted fun label hmem => plainLabel_of_valid (hsecond label hmem)]

def Pointer.reference (pointer : Pointer) : Reference :=
  ⟨pointer.labels, pointer.offset.toNat⟩

structure Follows (limit : Nat) (span : Span) (layout : Layout) : Prop where
  small : limit < 2 ^ 16
  offset : span.bufOffset.toNat = layout.offset
  room : layout.offset + span.room = limit
  seen : ∀ labels, (∀ label ∈ labels, ValidLabel label) →
    (span.prevNames.find (dotted labels)).map UInt16.toNat = layout.seen labels
  references : span.pointers.map Pointer.reference = layout.references

theorem follows_start {limit : Nat} (h : limit < 2 ^ 16) :
    Follows limit (Span.start limit) Layout.start where
  small := h
  offset := rfl
  room := Nat.zero_add limit
  seen _ _ := rfl
  references := rfl

variable {limit : Nat} {span : Span} {layout : Layout}

section

variable (h : Follows limit span layout)

include h

theorem Follows.advance {count : Nat} (hfits : count ≤ span.room) :
    Follows limit (span.advance count) (layout.skip count) where
  small := h.small
  offset := by
    have hsmall := h.small
    have hoffset := h.offset
    have hroom := h.room
    change (span.bufOffset + UInt16.ofNat count).toNat = layout.offset + count
    rw [UInt16.toNat_add, UInt16.toNat_ofNat']
    omega
  room := by
    have hroom := h.room
    change layout.offset + count + (span.room - count) = limit
    omega
  seen := h.seen
  references := h.references

theorem Follows.note {labels : List Bytes}
    (hvalid : ∀ label ∈ labels, ValidLabel label) (hnew : layout.seen labels = none) :
    Follows limit (span.record true (dotted labels)) (layout.note labels) where
  small := h.small
  offset := h.offset
  room := h.room
  seen other hother := by
    have hfind : span.prevNames.find (dotted labels) = none := by
      rw [← h.seen labels hvalid, Option.map_eq_none_iff] at hnew
      exact hnew
    change ((span.prevNames.emplace (dotted labels) span.bufOffset).find (dotted other)).map
      UInt16.toNat = Function.update layout.seen labels (some layout.offset) other
    rw [Table.find_emplace]
    by_cases heq : other = labels
    · rw [heq, if_pos ⟨rfl, hfind⟩, Function.update_self, Option.map_some, h.offset]
    · rw [if_neg fun hsame => heq (dotted_inj hother hvalid hsame.1),
        Function.update_of_ne heq, h.seen other hother]
  references := h.references

theorem Follows.refer (labels : List Bytes) (offset : UInt16) :
    Follows limit { span with pointers := span.pointers ++ [⟨labels, offset⟩] }
      (layout.refer labels offset.toNat) where
  small := h.small
  offset := h.offset
  room := h.room
  seen := h.seen
  references := by
    rw [List.map_append, h.references]
    rfl

theorem Follows.offset_le : layout.offset ≤ limit :=
  Nat.le.intro h.room

end

def Outcome (limit : Nat) (layout : Layout) : Option (Bytes × Span) → Prop
  | some done => Follows limit done.2 layout
  | none => limit < layout.offset

structure Lays (encoder : Encoder) (place : Layout → Layout) : Prop where
  grows : ∀ layout, layout.offset ≤ (place layout).offset
  lays : ∀ limit span layout, Follows limit span layout →
    Outcome limit (place layout) (encoder span)

theorem lays_nothing : Lays nothing id where
  grows _ := Nat.le_refl _
  lays _ _ _ hfollows := hfollows

theorem lays_put (bytes : Bytes) : Lays (put bytes) (Layout.skip bytes.length) where
  grows layout := Nat.le_add_right _ _
  lays limit span layout hfollows := by
    unfold put
    split
    · next hfits => exact hfollows.advance hfits
    · next hlong =>
      have hroom := hfollows.room
      change limit < layout.offset + bytes.length
      omega

theorem Lays.andThen {first second : Encoder} {place next : Layout → Layout}
    (hfirst : Lays first place) (hsecond : Lays second next) :
    Lays (first.andThen second) (fun layout => next (place layout)) where
  grows layout := (hfirst.grows layout).trans (hsecond.grows _)
  lays limit span layout hfollows := by
    have hbegun := hfirst.lays limit span layout hfollows
    unfold Encoder.andThen
    cases hrun : first span with
    | none =>
      rw [hrun] at hbegun
      exact hbegun.trans_le (hsecond.grows _)
    | some begun =>
      rw [hrun] at hbegun
      have hdone := hsecond.lays limit begun.2 _ hbegun
      rw [Option.bind_some]
      cases hrest : second begun.2 with
      | none => rwa [hrest] at hdone
      | some done => rwa [hrest] at hdone

theorem lays_all {ι : Type} {encode : ι → Encoder} {place : ι → Layout → Layout}
    (items : List ι) (h : ∀ item ∈ items, Lays (encode item) (place item)) :
    Lays (all (items.map encode))
      (fun layout => items.foldl (fun layout item => place item layout) layout) := by
  induction items with
  | nil => exact lays_nothing
  | cons item items ih =>
    exact (h item List.mem_cons_self).andThen
      (ih fun other hother => h other (List.mem_cons_of_mem _ hother))

theorem lays_pointer (labels : List Bytes) (offset : UInt16) :
    Lays (encodePointer labels offset) fun layout => (layout.refer labels offset.toNat).skip 2 where
  grows layout := Nat.le_add_right _ _
  lays limit span layout hfollows := by
    have hput := (lays_put (storeBig 2 (pointerWord offset.toNat))).lays limit _ _
      (hfollows.refer labels offset)
    rwa [length_storeBig] at hput

section EncodeParts

variable {part : Bytes} {rest : List Bytes}

theorem encodeParts_of_find_eq_some {offset : UInt16}
    (hfind : span.prevNames.find (dotted (part :: rest)) = some offset) :
    encodeParts true (part :: rest) span = encodePointer (part :: rest) offset span := by
  have hprev : span.prevOffset true (dotted (part :: rest)) = some offset := hfind
  rw [encodeParts, hprev]

theorem encodeParts_of_find_eq_none (hshort : part.length ≤ 63)
    (hfind : span.prevNames.find (dotted (part :: rest)) = none) :
    encodeParts true (part :: rest) span =
      if part.length + 1 ≤ span.room then
        (encodeParts true rest
          ((span.record true (dotted (part :: rest))).advance (part.length + 1))).map
          fun done => (wireLabel part ++ done.1, done.2)
      else none := by
  have hprev : span.prevOffset true (dotted (part :: rest)) = none := hfind
  rw [encodeParts, hprev]
  by_cases hfits : part.length + 1 ≤ span.room
  · rw [if_pos hfits]
    exact if_neg (by omega)
  · rw [if_neg hfits]
    exact if_pos (by omega)

end EncodeParts

theorem lays_encodeParts {labels : List Bytes} (hvalid : ∀ label ∈ labels, ValidLabel label) :
    Lays (encodeParts true labels) (Layout.name labels) := by
  induction labels with
  | nil => exact lays_put [0]
  | cons part rest ih =>
    have hrest := ih fun label hmem => hvalid label (List.mem_cons_of_mem _ hmem)
    refine ⟨Layout.offset_le_name _, fun limit span layout hfollows => ?_⟩
    have hseen := hfollows.seen _ hvalid
    rw [Layout.name]
    split
    · next offset hoffset =>
      rw [hoffset, Option.map_eq_some_iff] at hseen
      obtain ⟨word, hfind, rfl⟩ := hseen
      rw [encodeParts_of_find_eq_some hfind]
      exact (lays_pointer _ word).lays limit span layout hfollows
    · next hnew =>
      rw [hnew, Option.map_eq_none_iff] at hseen
      rw [encodeParts_of_find_eq_none (hvalid part List.mem_cons_self).short hseen]
      split
      · next hfits =>
        have hdone := hrest.lays limit _ _ ((hfollows.note hvalid hnew).advance hfits)
        cases hrun : encodeParts true rest
            ((span.record true (dotted (part :: rest))).advance (part.length + 1)) with
        | none => rwa [hrun] at hdone
        | some done => rwa [hrun] at hdone
      · next hlong =>
        have hroom := hfollows.room
        have hgrows := hrest.grows ((layout.note (part :: rest)).skip (part.length + 1))
        change layout.offset + (part.length + 1) ≤ _ at hgrows
        exact Nat.lt_of_lt_of_le (by omega) hgrows

def RRData.names : RRData → List Bytes
  | .bytes _ _ => []
  | .target _ name => [name]
  | .srv _ _ _ host => [host]

def ResourceRecord.names (record : ResourceRecord) : List Bytes :=
  record.rrName :: record.data.names

def Message.names (m : Message) : List Bytes :=
  (m.question.map Question.qname).toList ++
    (m.answers ++ m.authorities).flatMap ResourceRecord.names

def ValidName (name : Bytes) : Prop :=
  ∀ label ∈ nameLabels name, ValidLabel label

theorem lays_withLength {encodeData : Encoder} {place : Layout → Layout}
    (h : Lays encodeData place) :
    Lays (withLength encodeData) (fun layout => place (layout.skip 2)) where
  grows layout := (Nat.le_add_right _ 2).trans (h.grows (layout.skip 2))
  lays limit span layout hfollows := by
    unfold withLength
    split
    · next hfits =>
      have hdata := h.lays limit _ _ (hfollows.advance hfits)
      cases hrun : encodeData (span.advance 2) with
      | none => rwa [hrun] at hdata
      | some done => rwa [hrun] at hdata
    · next hlong =>
      have hroom := hfollows.room
      have hgrows := h.grows (layout.skip 2)
      change layout.offset + 2 ≤ _ at hgrows
      exact Nat.lt_of_lt_of_le (by omega) hgrows

theorem lays_data {data : RRData} (hvalid : ∀ name ∈ data.names, ValidName name) :
    Lays data.encodeData (Layout.data data) := by
  cases data with
  | bytes kind rData => exact lays_put rData
  | target kind name => exact lays_encodeParts (hvalid name List.mem_cons_self)
  | srv priority weight port host =>
    exact (lays_put _).andThen (lays_encodeParts (hvalid host List.mem_cons_self))

theorem lays_encodeRecord {rrName : Bytes} (hvalid : ValidName rrName) {encodeData : Encoder}
    {place : Layout → Layout} (h : Lays encodeData place) (rrType rrClass : UInt16) (ttl : Int) :
    Lays (encodeRecord rrName rrType rrClass ttl encodeData) fun layout =>
      place ((layout.name (nameLabels rrName)).skip Layout.recordFields) :=
  (lays_encodeParts hvalid).andThen ((lays_put _).andThen (lays_withLength h))

theorem lays_record {record : ResourceRecord} (hvalid : ∀ name ∈ record.names, ValidName name) :
    Lays record.encode (Layout.record record) :=
  lays_encodeRecord (hvalid _ List.mem_cons_self)
    (lays_data fun name hmem => hvalid name (List.mem_cons_of_mem _ hmem)) _ _ _

theorem lays_records {records : List ResourceRecord}
    (hvalid : ∀ name ∈ records.flatMap ResourceRecord.names, ValidName name) :
    Lays (all (records.map ResourceRecord.encode)) (Layout.records records) :=
  lays_all records fun record hmem =>
    lays_record fun name hname => hvalid name (List.mem_flatMap.mpr ⟨record, hmem, hname⟩)

namespace Message

theorem lays_edns (m : Message) : Lays m.encodeEdns (Layout.edns m.additionalEdns) := by
  unfold encodeEdns Layout.edns
  cases m.additionalEdns with
  | none => exact lays_nothing
  | some edns =>
    have hroot : ValidName [] := nofun
    exact lays_encodeRecord hroot (lays_put edns.optionBytes) RRType.OPT edns.maxPayload edns.ttl

variable {m : Message}

theorem lays_encodeQuestion (hvalid : ∀ name ∈ m.names, ValidName name) :
    Lays m.encodeQuestion fun layout => (layout.skip 12).question m.question := by
  refine (lays_put _).andThen ?_
  unfold Layout.question
  cases hquestion : m.question with
  | none => exact lays_nothing
  | some question =>
    have hname : ValidName question.qname := hvalid _ (by simp [names, hquestion])
    exact (lays_encodeParts hname).andThen (lays_put _)

theorem lays_encodeRecords (hvalid : ∀ name ∈ m.names, ValidName name) :
    Lays m.encodeRecords fun layout =>
      ((layout.records m.answers).records m.authorities).edns m.additionalEdns := by
  have hrecords : ∀ name ∈ (m.answers ++ m.authorities).flatMap ResourceRecord.names,
      ValidName name := fun name hmem => hvalid name (List.mem_append_right _ hmem)
  rw [List.flatMap_append, List.forall_mem_append] at hrecords
  exact (lays_records hrecords.1).andThen ((lays_records hrecords.2).andThen m.lays_edns)

theorem bufferSize_lt (maxSize : Bool) (edns : Option PRREdns) :
    bufferSize maxSize edns < 2 ^ 16 := by
  unfold bufferSize
  split
  · decide
  · cases edns with
    | none => decide
    | some edns => exact edns.maxPayload.toNat_lt

theorem encodeAll_outcome (hvalid : ∀ name ∈ m.names, ValidName name)
    (maxSize : Bool) :
    Outcome (bufferSize maxSize m.additionalEdns) (Layout.message m)
      (m.encodeQuestion.andThen m.encodeRecords
        (Span.start (bufferSize maxSize m.additionalEdns))) :=
  ((lays_encodeQuestion hvalid).andThen (lays_encodeRecords hvalid)).lays _ _ _
    (follows_start (bufferSize_lt maxSize m.additionalEdns))

end Message
end SessionRouter.Dns
