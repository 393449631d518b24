import SessionRouter.Dns.Answer
import SessionRouter.Dns.Layout

/-!
# Name compression
-/

namespace SessionRouter.Dns

open Lib Wire DomainName Encoder

def Spells (msg : Bytes) (labels : List Bytes) (offset : Nat) : Prop :=
  ∃ stop, readName msg offset = some (labels, stop)

def Pointer.Leads (msg : Bytes) (pointer : Pointer) : Prop :=
  Spells msg pointer.labels (pointer.offset.toNat % 2 ^ 14)

variable {msg : Bytes}

structure Kept (msg : Bytes) (span : Span) : Prop where
  small : span.bufOffset.toNat + span.room < 2 ^ 16
  inside : span.bufOffset.toNat ≤ msg.length
  table : ∀ suffix offset, span.prevNames.find suffix = some offset →
    ∃ labels, (∀ label ∈ labels, ValidLabel label) ∧ dotted labels = suffix ∧
      ((∀ pointer ∈ span.pointers, pointer.Leads msg) →
        Spells msg labels offset.toNat)
  aimed : (∀ pointer ∈ span.pointers, pointer.offset.toNat < 2 ^ 14 ∨ pointer.Leads msg) →
    ∀ pointer ∈ span.pointers, pointer.Leads msg

theorem kept_start {size : Nat} (h : size < 2 ^ 16) : Kept msg (Span.start size) where
  small := by simpa [Span.start] using h
  inside := Nat.zero_le _
  table suffix offset hfind := by cases hfind
  aimed _ pointer hmem := by cases hmem

/-! ## Names -/

structure NameWritten (msg : Bytes) (span after : Span) (labels : List Bytes) (stop : Nat)
    (added : List Pointer) : Prop where
  pointers : after.pointers = span.pointers ++ added
  reads : ReadsWhen msg readName span.bufOffset.toNat stop labels
    (∀ pointer ∈ added, pointer.Leads msg)
  table : ∀ suffix offset, after.prevNames.find suffix = some offset →
    span.prevNames.find suffix = some offset ∨
      ∃ tail, tail <:+ labels ∧ dotted tail = suffix ∧
        ((∀ pointer ∈ added, pointer.Leads msg) →
          Spells msg tail offset.toNat)
  found : ∀ pointer ∈ added, pointer.labels <:+ labels ∧
    span.prevNames.find (dotted pointer.labels) = some pointer.offset

theorem nameWritten_root {span after : Span} {bytes : Bytes}
    (hrun : encodeParts true [] span = some (bytes, after))
    (hhas : Has msg span.bufOffset.toNat bytes) :
    NameWritten msg span after [] (span.bufOffset.toNat + bytes.length) [] := by
  obtain ⟨-, rfl, rfl⟩ := put_eq_some_iff.mp hrun
  have hread := readName_root hhas
  exact {
    pointers := (List.append_nil _).symm
    reads := ⟨fun found next h => by rw [hread] at h; cases h; rfl, by simp [hread]⟩
    table := fun suffix offset hfind => .inl hfind
    found := nofun }

theorem nameWritten_pointer {labels : List Bytes} {offset : UInt16} {span after : Span}
    {bytes : Bytes} (hfind : span.prevNames.find (dotted labels) = some offset)
    (hrun : encodePointer labels offset span = some (bytes, after))
    (hhas : Has msg span.bufOffset.toNat bytes) :
    NameWritten msg span after labels (span.bufOffset.toNat + bytes.length)
      [⟨labels, offset⟩] := by
  obtain ⟨-, rfl, rfl⟩ := put_eq_some_iff.mp hrun
  have hread := readName_pointer hhas offset.toNat_lt
  exact {
    pointers := rfl
    reads := {
      stops := fun found next h => by
        rw [hread] at h
        obtain ⟨rest, -, heq⟩ := Option.map_eq_some_iff.mp h
        cases heq
        rw [length_storeBig]
      reads_iff := by
        rw [hread, Option.map_eq_some_iff, length_storeBig]
        simp [Pointer.Leads, Spells] }
    table := fun suffix offset hfind => .inl hfind
    found := fun pointer hmem => by
      obtain rfl := List.mem_singleton.mp hmem
      exact ⟨List.suffix_rfl, hfind⟩ }

theorem nameWritten_label {part : Bytes} {rest : List Bytes}
    (hvalid : ∀ label ∈ part :: rest, ValidLabel label) {span after : Span} {stop : Nat}
    {added : List Pointer} (hsmall : span.bufOffset.toNat + span.room < 2 ^ 16)
    (hfits : (wireLabel part).length ≤ span.room)
    (hhas : Has msg span.bufOffset.toNat (wireLabel part))
    (htail : NameWritten msg
      ((span.record true (dotted (part :: rest))).advance (wireLabel part).length) after rest stop
      added) :
    NameWritten msg span after (part :: rest) stop added := by
  have hpart := hvalid part List.mem_cons_self
  have hnext := ((advanced_advance hfits).offset_toNat hsmall).1
  have hread := readName_label hhas hpart.nonempty hpart.short
  have hrest : ReadsWhen msg readName (span.bufOffset.toNat + (wireLabel part).length) stop rest
      (∀ pointer ∈ added, pointer.Leads msg) := by
    rw [← hnext]
    exact htail.reads
  have hreads : ReadsWhen msg readName span.bufOffset.toNat stop (part :: rest)
      (∀ pointer ∈ added, pointer.Leads msg) := {
    stops := fun found next h => by
      rw [hread] at h
      obtain ⟨⟨labels, last⟩, hlabels, heq⟩ := Option.map_eq_some_iff.mp h
      cases heq
      exact hrest.stops _ _ hlabels
    reads_iff := by
      rw [← hrest.reads_iff, hread, Option.map_eq_some_iff]
      simp }
  refine ⟨htail.pointers, hreads, fun suffix offset hfind => ?_, fun pointer hmem => ?_⟩
  · rcases htail.table suffix offset hfind with hold | ⟨tail, htail, hdotted, hlead⟩
    · have hold : (span.prevNames.emplace (dotted (part :: rest)) span.bufOffset).find suffix =
          some offset := hold
      rw [Table.find_emplace] at hold
      split at hold
      · next hsuffix =>
        cases hold
        exact .inr ⟨part :: rest, List.suffix_rfl, hsuffix.1.symm, fun hadded =>
          ⟨stop, hreads.reads_iff.mpr hadded⟩⟩
      · exact .inl hold
    · exact .inr ⟨tail, htail.trans (List.suffix_cons part rest), hdotted, hlead⟩
  · obtain ⟨hsuffix, hfound⟩ := htail.found pointer hmem
    refine ⟨hsuffix.trans (List.suffix_cons part rest), ?_⟩
    have hfound : (span.prevNames.emplace (dotted (part :: rest)) span.bufOffset).find
        (dotted pointer.labels) = some pointer.offset := hfound
    rw [Table.find_emplace, if_neg] at hfound
    · exact hfound
    · -- a suffix of the rest is not the whole name
      rintro ⟨hsame, -⟩
      have hlabels := dotted_inj (fun label hmem =>
        hvalid label (List.mem_cons_of_mem _ (hsuffix.mem hmem))) hvalid hsame
      have hlength := hsuffix.length_le
      rw [hlabels, List.length_cons] at hlength
      omega

theorem nameWritten_encodeParts {labels : List Bytes}
    (hvalid : ∀ label ∈ labels, ValidLabel label) {span after : Span} {bytes : Bytes}
    (hsmall : span.bufOffset.toNat + span.room < 2 ^ 16)
    (hrun : encodeParts true labels span = some (bytes, after))
    (hhas : Has msg span.bufOffset.toNat bytes) :
    ∃ added, NameWritten msg span after labels (span.bufOffset.toNat + bytes.length) added := by
  induction labels generalizing span bytes with
  | nil => exact ⟨[], nameWritten_root hrun hhas⟩
  | cons part rest ih =>
    rcases encodeParts_cons_eq_some_iff.mp hrun with
      ⟨offset, hfind, hpointer⟩ | ⟨-, -, hfits, done, hdone, rfl⟩
    · exact ⟨_, nameWritten_pointer hfind hpointer hhas⟩
    · rw [has_append_iff] at hhas
      generalize hmiddle : (span.record true (dotted (part :: rest))).advance
        (wireLabel part).length = middle at hdone
      have hadvanced : middle.bufOffset.toNat = span.bufOffset.toNat + (wireLabel part).length ∧
          middle.bufOffset.toNat + middle.room < 2 ^ 16 := by
        rw [← hmiddle]
        exact (advanced_advance hfits).offset_toNat hsmall
      obtain ⟨added, htail⟩ := ih (fun label hmem => hvalid label (List.mem_cons_of_mem _ hmem))
        hadvanced.2 hdone (hadvanced.1 ▸ hhas.2)
      rw [hadvanced.1, ← hmiddle] at htail
      refine ⟨added, ?_⟩
      rw [List.length_append, ← Nat.add_assoc]
      exact nameWritten_label hvalid hsmall hfits hhas.1 htail

theorem NameWritten.kept {labels : List Bytes} (hvalid : ∀ label ∈ labels, ValidLabel label)
    {span after : Span} {stop : Nat} {added : List Pointer}
    (h : NameWritten msg span after labels stop added) (hkept : Kept msg span)
    (hsmall : after.bufOffset.toNat + after.room < 2 ^ 16)
    (hinside : after.bufOffset.toNat ≤ msg.length) : Kept msg after where
  small := hsmall
  inside := hinside
  table suffix offset hfind := by
    rw [h.pointers]
    rcases h.table suffix offset hfind with hold | ⟨tail, htail, hdotted, hlead⟩
    · obtain ⟨labels, hlabels, hdotted, hlead⟩ := hkept.table suffix offset hold
      exact ⟨labels, hlabels, hdotted, fun hall => hlead fun pointer hmem =>
        hall pointer (List.mem_append_left _ hmem)⟩
    · exact ⟨tail, fun label hmem => hvalid label (htail.mem hmem), hdotted, fun hall =>
        hlead fun pointer hmem => hall pointer (List.mem_append_right _ hmem)⟩
  aimed := by
    rw [h.pointers]
    intro hlow
    have hold := hkept.aimed fun pointer hmem => hlow pointer (List.mem_append_left _ hmem)
    intro pointer hmem
    rcases List.mem_append.mp hmem with hmem | hmem
    · exact hold pointer hmem
    · obtain ⟨hsuffix, hfound⟩ := h.found pointer hmem
      obtain ⟨labels, hlabels, hdotted, hlead⟩ := hkept.table _ _ hfound
      obtain rfl := dotted_inj hlabels (fun label hmem => hvalid label (hsuffix.mem hmem)) hdotted
      rcases hlow pointer (List.mem_append_right _ hmem) with hlow | hleads
      · rw [Pointer.Leads, Nat.mod_eq_of_lt hlow]
        exact hlead hold
      · exact hleads

/-! ## What an encoder leaves in the message -/

structure Emitted {α : Type} (msg : Bytes) (span after : Span) (parser : Parser α) (value : α)
    (condition : Prop) : Prop where
  kept : Kept msg after
  reads : ∃ added, after.pointers = span.pointers ++ added ∧
    ReadsWhen msg parser span.bufOffset.toNat after.bufOffset.toNat value
      (condition ∧ ∀ pointer ∈ added, pointer.Leads msg)

/-- Wherever the encoder is run, it emits the value. -/
structure Emits {α : Type} (msg : Bytes) (encoder : Encoder) (parser : Parser α) (value : α)
    (condition : Prop) : Prop where
  counts : encoder.Counts
  emits : ∀ span bytes after, Kept msg span → encoder span = some (bytes, after) →
    Has msg span.bufOffset.toNat bytes → Emitted msg span after parser value condition

theorem emits_encodeName {name : Bytes} (hvalid : ValidName name) :
    Emits msg (encodeName true name) readName (nameLabels name) True where
  counts := counts_encodeName true name
  emits span bytes after hkept hrun hhas := by
    have hafter := (counts_encodeName true name span bytes after hrun).offset_toNat hkept.small
    obtain ⟨added, hwritten⟩ := nameWritten_encodeParts hvalid hkept.small hrun hhas
    refine ⟨hwritten.kept hvalid hkept hafter.2 ?_, added, hwritten.pointers, ?_⟩
    · rw [hafter.1]
      exact hhas.le_length hkept.inside
    rw [hafter.1]
    exact hwritten.reads.congr (by simp)

variable {α β : Type} {value : α} {condition : Prop}

theorem Emits.congr {encoder : Encoder} {parser : Parser α} {other : Prop}
    (h : Emits msg encoder parser value condition) (hiff : condition ↔ other) :
    Emits msg encoder parser value other := by
  rwa [← propext hiff]

theorem Kept.advance {span : Span} {bytes : Bytes} (h : Kept msg span)
    (hfits : bytes.length ≤ span.room) (hhas : Has msg span.bufOffset.toNat bytes) :
    Kept msg (span.advance bytes.length) := by
  have hafter := (advanced_advance hfits).offset_toNat h.small
  refine ⟨hafter.2, ?_, h.table, h.aimed⟩
  rw [hafter.1]
  exact hhas.le_length h.inside

theorem emits_put {bytes : Bytes} {parser : Parser α} {read : α}
    (h : ∀ pos, Has msg pos bytes → pos ≤ msg.length →
      parser msg pos = some (read, pos + bytes.length)) :
    Emits msg (put bytes) parser value (read = value) where
  counts := counts_put bytes
  emits span written after hkept hrun hhas := by
    have hafter := (counts_put bytes span written after hrun).offset_toNat hkept.small
    obtain ⟨hfits, rfl, rfl⟩ := put_eq_some_iff.mp hrun
    refine ⟨hkept.advance hfits hhas, [], (List.append_nil _).symm, ?_⟩
    have hread := h _ hhas hkept.inside
    rw [hafter.1]
    refine ⟨fun found next hfound => ?_, by simp [hread]⟩
    rw [hread] at hfound
    cases hfound
    rfl

theorem Emits.andThen {first second : Encoder} {parser : Parser β} {next : β → Parser α}
    {read : β} {earlier : Prop} (hfirst : Emits msg first parser read earlier)
    (condition : Prop)
    (hsecond : ∀ found, Emits msg second (next found) value (found = read ∧ condition)) :
    Emits msg (first.andThen second) (parser >>= next) value (earlier ∧ condition) where
  counts := hfirst.counts.andThen (hsecond read).counts
  emits span bytes after hkept hrun hhas := by
    obtain ⟨begun, middle, done, hbegun, hdone, rfl⟩ := andThen_eq_some_iff.mp hrun
    rw [has_append_iff] at hhas
    have hmiddle := ((hfirst.counts _ _ _ hbegun).offset_toNat hkept.small).1
    have hemitted := hfirst.emits span begun middle hkept hbegun hhas.1
    have hrest (found : β) := (hsecond found).emits middle done after hemitted.kept hdone
      (hmiddle ▸ hhas.2)
    obtain ⟨firstAdded, hfirstPointers, hfirstReads⟩ := hemitted.reads
    obtain ⟨added, hpointers, -⟩ := (hrest read).reads
    refine ⟨(hrest read).kept, firstAdded ++ added, ?_, ?_⟩
    · rw [hpointers, hfirstPointers, List.append_assoc]
    · have hnext (found : β) : ReadsWhen msg (next found) middle.bufOffset.toNat
          after.bufOffset.toNat value
          (found = read ∧ condition ∧ ∀ pointer ∈ added, pointer.Leads msg) := by
        obtain ⟨others, hothers, hreads⟩ := (hrest found).reads
        obtain rfl := List.append_cancel_left (hothers.symm.trans hpointers)
        exact hreads.congr and_assoc
      refine (hfirstReads.bind hnext).congr ?_
      rw [List.forall_mem_append]
      tauto

theorem andThen_assoc (first second third : Encoder) :
    (first.andThen second).andThen third = first.andThen (second.andThen third) := by
  funext span
  simp only [Encoder.andThen, Option.bind_assoc, Option.map_bind, Option.bind_map,
    Option.map_map, Function.comp_def, List.append_assoc]

theorem emits_put_andThen {bytes : Bytes} {second : Encoder} {parser rest : Parser α}
    (h : ∀ pos, Has msg pos bytes → parser msg pos = rest msg (pos + bytes.length))
    (hsecond : Emits msg second rest value condition) :
    Emits msg ((put bytes).andThen second) parser value condition where
  counts := (counts_put bytes).andThen hsecond.counts
  emits span written after hkept hrun hhas := by
    obtain ⟨begun, middle, done, hbegun, hdone, rfl⟩ := andThen_eq_some_iff.mp hrun
    have hmiddle := ((counts_put bytes _ _ _ hbegun).offset_toNat hkept.small).1
    obtain ⟨hfits, rfl, rfl⟩ := put_eq_some_iff.mp hbegun
    rw [has_append_iff, ← hmiddle] at hhas
    obtain ⟨hafter, added, hpointers, hreads⟩ :=
      hsecond.emits _ done after (hkept.advance hfits hhas.1) hdone hhas.2
    refine ⟨hafter, added, hpointers, ?_⟩
    rw [hmiddle] at hreads
    exact ⟨by rw [h _ hhas.1]; exact hreads.stops, by rw [h _ hhas.1]; exact hreads.reads_iff⟩

theorem Emits.map {encoder : Encoder} {parser : Parser β} {read : β} {make : β → α}
    {further : Prop} (h : Emits msg encoder parser read condition)
    (hmake : ∀ found, make found = value ↔ found = read ∧ further) :
    Emits msg encoder (parser >>= fun found => pure (make found)) value (condition ∧ further) where
  counts := h.counts
  emits span bytes after hkept hrun hhas := by
    obtain ⟨hafter, added, hpointers, hreads⟩ := h.emits span bytes after hkept hrun hhas
    refine ⟨hafter, added, hpointers, ?_⟩
    refine (hreads.bind fun found => (readsWhen_pure _ value _).congr (hmake found)).congr ?_
    tauto

theorem emits_nothing (value : α) : Emits msg nothing (pure value) value True where
  counts := counts_nothing
  emits span bytes after hkept hrun hhas := by
    cases hrun
    exact ⟨hkept, [], (List.append_nil _).symm, (readsWhen_pure value value _).congr (by simp)⟩

theorem emits_all {ι : Type} {encode : ι → Encoder} {parser : Parser α} {reading : ι → α}
    {side : ι → Prop} (items : List ι)
    (h : ∀ item ∈ items, Emits msg (encode item) parser (reading item) (side item)) :
    Emits msg (all (items.map encode)) (many parser items.length) (items.map reading)
      (∀ item ∈ items, side item) := by
  induction items with
  | nil => exact (emits_nothing []).congr (by simp)
  | cons item items ih =>
    have hfirst := h item List.mem_cons_self
    have hrest := ih fun other hother => h other (List.mem_cons_of_mem _ hother)
    rw [List.forall_mem_cons]
    refine hfirst.andThen _ fun found => ?_
    refine (hrest.map fun others => ?_).congr and_comm
    rw [List.map_cons, List.cons_eq_cons, and_comm]

theorem emits_option {ι : Type} {encode : ι → Encoder} {parser : Parser α} {reading : ι → α}
    {side : ι → Prop} {item : Option ι}
    (h : ∀ found ∈ item, Emits msg (encode found) parser (reading found) (side found)) :
    Emits msg (item.elim nothing encode) (many parser (if item = none then 0 else 1))
      (item.map reading).toList (∀ found ∈ item, side found) := by
  cases item with
  | none => exact (emits_nothing []).congr (by simp)
  | some found =>
    have hsome := (h found rfl).map fun other => by rw [List.singleton_inj, and_true]
    exact hsome.congr (by simp)

/-! ## Questions and records -/

theorem emits_question {question : Question}
    (hvalid : ValidName question.qname) :
    Emits msg question.encode readQuestion question.reading True := by
  have hcodes (found : List Bytes) :
      Emits msg (writeInts [(2, question.qtype.toNat), (2, question.qclass.toNat)])
        (do
          let type ← number 2
          let cls ← number 2
          pure (⟨found, type, cls⟩ : ReadQuestion))
        question.reading (found = nameLabels question.qname ∧ True) := by
    refine (emits_put fun pos hhas _ => ?_).congr
      (show (⟨found, question.qtype.toNat, question.qclass.toNat⟩ : ReadQuestion) =
        question.reading ↔ _ by simp [Question.reading])
    simp only [List.flatMap_cons, List.flatMap_nil, List.append_nil, has_append_iff,
      length_storeBig] at hhas
    simp only [bind_apply, hhas.1.word, hhas.2.word, pure_apply, Option.bind_some,
      List.flatMap_cons, List.flatMap_nil, List.append_nil, List.length_append, length_storeBig]
  exact ((emits_encodeName hvalid).andThen True hcodes).congr (by simp)

theorem readsWhen_sized {parser : Parser α} {start length : Nat}
    (h : ReadsWhen msg parser start (start + length) value condition) :
    ReadsWhen msg
      (do
        let data ← parser
        let stop ← position
        if stop = start + length then pure data else reject)
      start (start + length) value condition := by
  refine (h.bind fun found => ?_).congr (and_true _ |>.to_iff)
  refine .bind_of_reads rfl ?_
  rw [if_pos rfl]
  exact (readsWhen_pure found value _).congr (by simp)

theorem emits_withLength {encodeData : Encoder} {parser : Nat → Parser ReadData}
    {value : ReadData} (hcounts : encodeData.Counts)
    (h : ∀ span data after, Kept msg span → encodeData span = some (data, after) →
      Has msg span.bufOffset.toNat data →
        Emitted msg span after (parser data.length) value condition) :
    Emits msg (withLength encodeData) (readSized parser) value condition where
  counts := counts_withLength hcounts
  emits span bytes after hkept hrun hhas := by
    obtain ⟨hfits, data, hdata, rfl⟩ := withLength_eq_some_iff.mp hrun
    rw [has_append_iff, length_storeBig] at hhas
    have hlength : (storeBig 2 data.length).length = 2 := length_storeBig 2 _
    have hmiddle : (span.advance 2).bufOffset.toNat = span.bufOffset.toNat + 2 ∧
        (span.advance 2).bufOffset.toNat + (span.advance 2).room < 2 ^ 16 := by
      have hadvanced := (advanced_advance (hlength.symm ▸ hfits)).offset_toNat hkept.small
      rwa [hlength] at hadvanced
    have hkeptMiddle : Kept msg (span.advance 2) := by
      have hadvance := hkept.advance (hlength.symm ▸ hfits) hhas.1
      rwa [hlength] at hadvance
    have hafter := ((hcounts _ _ _ hdata).offset_toNat hmiddle.2)
    obtain ⟨hkeptAfter, added, hpointers, hreads⟩ :=
      h _ data after hkeptMiddle hdata (hmiddle.1 ▸ hhas.2)
    refine ⟨hkeptAfter, added, hpointers, ?_⟩
    have hnumber := hhas.1.number (by decide)
    rw [Nat.mod_eq_of_lt (by omega)] at hnumber
    refine .bind_of_reads hnumber (.bind_of_reads rfl ?_)
    rw [hafter.1, hmiddle.1] at hreads ⊢
    exact readsWhen_sized hreads

theorem emits_encodeRecord {rrName : Bytes} {rrType rrClass : UInt16} {ttl expected : Int}
    {encodeData : Encoder} {data : ReadData}
    (hvalid : ValidName rrName)
    (hdata : Emits msg (withLength encodeData) (readSized (readData rrType.toNat)) data
      condition) :
    Emits msg (encodeRecord rrName rrType rrClass ttl encodeData) readRecord
      ⟨nameLabels rrName, rrType.toNat, rrClass.toNat, expected, data⟩
      (condition ∧ ttlWord ttl = expected) := by
  refine ((emits_encodeName hvalid).andThen _ fun owner => ?_).congr (true_and _ |>.to_iff)
  have hrest : Emits msg (withLength encodeData)
      (readSized (readData rrType.toNat) >>= fun found =>
        pure (⟨owner, rrType.toNat, rrClass.toNat, ttlWord ttl, found⟩ : ReadRecord))
      ⟨nameLabels rrName, rrType.toNat, rrClass.toNat, expected, data⟩
      (condition ∧ owner = nameLabels rrName ∧ ttlWord ttl = expected) :=
    hdata.map fun found => by
      rw [ReadRecord.mk.injEq]
      tauto
  refine emits_put_andThen (fun pos hhas => ?_) (hrest.congr and_left_comm)
  simp only [List.flatMap_cons, List.flatMap_nil, List.append_nil, has_append_iff,
    length_storeBig] at hhas
  have hword : ttlWord ttl % 256 ^ 4 = ttlWord ttl := by
    unfold ttlWord
    omega
  have hnumber := hhas.2.2.number (by decide)
  rw [hword] at hnumber
  simp only [bind_apply, hhas.1.word, hhas.2.1.word, hnumber, Option.bind_some,
    List.flatMap_cons, List.flatMap_nil, List.append_nil, List.length_append, length_storeBig]

theorem emits_bytes {type : Nat} {rData : Bytes}
    (htype : ∀ length, readData type length = takeBytes length >>= fun bytes =>
      pure (.bytes bytes)) :
    Emits msg (withLength (put rData)) (readSized (readData type)) (.bytes rData) True := by
  refine emits_withLength (counts_put rData) fun span written after hkept hrun hhas => ?_
  obtain ⟨-, rfl, -⟩ := put_eq_some_iff.mp hrun
  have hemits : Emits msg (put written) (readData type written.length) (.bytes written)
      (ReadData.bytes written = .bytes written) := by
    refine emits_put fun pos hhas hpos => ?_
    rw [htype, bind_apply, hhas.takeBytes hpos, Option.bind_some, pure_apply]
  exact (hemits.congr (by simp)).emits span written after hkept hrun hhas

theorem emits_target {name : Bytes} (hvalid : ValidName name) :
    Emits msg (encodeName true name) (readName >>= fun labels => pure (ReadData.target labels))
      (.target (nameLabels name)) True :=
  (((emits_encodeName hvalid).map fun found => by rw [ReadData.target.injEq, and_true])).congr
    (and_true _ |>.to_iff)

theorem emits_service {priority weight port : UInt16} {host : Bytes}
    (hvalid : ValidName host) :
    Emits msg (RRData.srv priority weight port host).encodeData
      (readData RRType.SRV.toNat 0) (RRData.srv priority weight port host).reading True := by
  have hhost : Emits msg (encodeName true host)
      (readName >>= fun labels =>
        pure (ReadData.service priority.toNat weight.toNat port.toNat labels))
      (.service priority.toNat weight.toNat port.toNat (nameLabels host)) (True ∧ True) :=
    (emits_encodeName hvalid).map fun found => by simp
  refine emits_put_andThen (fun pos hhas => ?_) (hhost.congr (by simp))
  simp only [List.flatMap_cons, List.flatMap_nil, List.append_nil, has_append_iff,
    length_storeBig] at hhas
  rw [readData, if_neg (by decide), if_pos rfl]
  simp only [bind_apply, hhas.1.word, hhas.2.1.word, hhas.2.2.word, Option.bind_some,
    List.flatMap_cons, List.flatMap_nil, List.append_nil, List.length_append, length_storeBig]

theorem emits_data {data : RRData}
    (hvalid : ∀ name ∈ data.names, ValidName name) :
    Emits msg (withLength data.encodeData) (readSized (readData data.rrType.toNat)) data.reading
      True := by
  cases data with
  | bytes kind rData => exact emits_bytes (by cases kind <;> exact fun _ => rfl)
  | target kind name =>
    refine emits_withLength (counts_encodeName true name) fun span written after => ?_
    have htype : readData (RRData.target kind name).rrType.toNat written.length =
        readName >>= fun labels => pure (.target labels) := by cases kind <;> rfl
    rw [htype]
    exact (emits_target (hvalid name List.mem_cons_self)).emits span written after
  | srv priority weight port host =>
    refine emits_withLength (counts_encodeData _) fun span written after => ?_
    exact (emits_service (hvalid host List.mem_cons_self)).emits span written after

def TtlFits (ttl : Int) : Prop :=
  0 ≤ ttl ∧ ttl < 2 ^ 32

theorem ttlWord_eq_iff (ttl : Int) : (ttlWord ttl : Int) = ttl ↔ TtlFits ttl := by
  unfold ttlWord TtlFits
  omega

theorem emits_record {record : ResourceRecord}
    (hvalid : ∀ name ∈ record.names, ValidName name) :
    Emits msg record.encode readRecord record.reading (TtlFits record.ttl) := by
  refine (emits_encodeRecord (hvalid _ List.mem_cons_self) (emits_data fun name hmem =>
    hvalid name (List.mem_cons_of_mem _ hmem))).congr ?_
  rw [true_and, ttlWord_eq_iff]

theorem emits_edns (edns : PRREdns) : Emits msg edns.encode readRecord edns.reading True := by
  have hroot : ValidName [] := nofun
  exact (emits_encodeRecord hroot (emits_bytes fun _ => rfl)).congr (by simp)

/-! ## Responses -/

namespace Message

def reading (m : Message) : ReadMessage where
  id := m.hdrId.toNat
  flags := m.responseFields.toNat
  questions := (m.question.map Question.reading).toList
  answers := m.answers.map ResourceRecord.reading
  authorities := m.authorities.map ResourceRecord.reading
  additional := (m.additionalEdns.map PRREdns.reading).toList

variable {m : Message}

theorem encodeQuestion_eq (m : Message) :
    m.encodeQuestion = m.encodeHeader.andThen (m.question.elim nothing Question.encode) := by
  unfold encodeQuestion
  cases m.question <;> rfl

theorem encodeEdns_eq (m : Message) :
    m.encodeEdns = m.additionalEdns.elim nothing PRREdns.encode := by
  unfold encodeEdns
  cases m.additionalEdns <;> rfl

section

variable (hvalid : ∀ name ∈ m.names, ValidName name)

include hvalid

theorem emits_records
    {records : List ResourceRecord} (hsub : records ⊆ m.answers ++ m.authorities) :
    Emits msg (all (records.map ResourceRecord.encode)) (many readRecord records.length)
      (records.map ResourceRecord.reading) (∀ record ∈ records, TtlFits record.ttl) :=
  emits_all records fun record hmem => emits_record fun name hname =>
    hvalid name (List.mem_append_right _ (List.mem_flatMap.mpr ⟨record, hsub hmem, hname⟩))

theorem emits_body : Emits msg ((m.question.elim nothing Question.encode).andThen m.encodeRecords)
      (do
        let questions ← many readQuestion (if m.question = none then 0 else 1)
        let answers ← many readRecord m.answers.length
        let authorities ← many readRecord m.authorities.length
        let additional ← many readRecord (if m.additionalEdns = none then 0 else 1)
        pure ⟨m.hdrId.toNat, m.responseFields.toNat, questions, answers, authorities, additional⟩)
      m.reading (∀ record ∈ m.answers ++ m.authorities, TtlFits record.ttl) := by
  have hquestion : Emits msg (m.question.elim nothing Question.encode)
      (many readQuestion (if m.question = none then 0 else 1))
      (m.question.map Question.reading).toList True :=
    (emits_option fun question hmem => emits_question
      (hvalid _ (by simp [names, Option.mem_def.mp hmem]))).congr (by simp)
  have hedns : Emits msg m.encodeEdns
      (many readRecord (if m.additionalEdns = none then 0 else 1))
      (m.additionalEdns.map PRREdns.reading).toList True := by
    rw [encodeEdns_eq]
    exact (emits_option fun edns _ => emits_edns edns).congr (by simp)
  rw [List.forall_mem_append]
  -- what is read of a section has to be right, on top of what the next sections need
  refine (hquestion.andThen
    ((∀ record ∈ m.answers, TtlFits record.ttl) ∧ ∀ record ∈ m.authorities, TtlFits record.ttl)
    fun questions => ?_).congr (true_and _ |>.to_iff)
  refine ((emits_records hvalid (List.subset_append_left _ _)).andThen
    (questions = m.reading.questions ∧ ∀ record ∈ m.authorities, TtlFits record.ttl)
    fun answers => ?_).congr and_left_comm
  refine ((emits_records hvalid (List.subset_append_right _ _)).andThen
    (questions = m.reading.questions ∧ answers = m.reading.answers)
    fun authorities => ?_).congr (by tauto)
  refine (hedns.map fun additional => ?_).congr (true_and _ |>.to_iff)
  simp only [reading, ReadMessage.mk.injEq]
  tauto

theorem emits_sections
    (hanswers : m.answers.length < 256 ^ 2) (hauthorities : m.authorities.length < 256 ^ 2) :
    Emits msg (m.encodeQuestion.andThen m.encodeRecords) readSections m.reading
      (∀ record ∈ m.answers ++ m.authorities, TtlFits record.ttl) := by
  rw [encodeQuestion_eq, encodeHeader_eq, andThen_assoc]
  refine emits_put_andThen (fun pos hhas => ?_) (emits_body hvalid)
  rw [readSections, bind_apply, readHeader_of_has hhas, Nat.mod_eq_of_lt hanswers,
    Nat.mod_eq_of_lt hauthorities, length_headerBytes, Option.bind_some]

end

theorem encode_and_fits_iff {maxSize : Bool} {full : Bytes} :
    m.encode maxSize = some full ∧ ¬ m.DoesNotFit maxSize ↔
      ∃ done, m.encodeQuestion.andThen m.encodeRecords
        (Span.start (bufferSize maxSize m.additionalEdns)) = some (full, done) := by
  constructor
  · rintro ⟨hencode, hfits⟩
    obtain ⟨⟨asked, begun⟩, hasked, rfl⟩ := Option.map_eq_some_iff.mp hencode
    cases hrecords : m.encodeRecords begun with
    | none => exact absurd ⟨asked, begun, hasked, hrecords⟩ hfits
    | some done =>
      exact ⟨done.2, andThen_eq_some_iff.mpr ⟨asked, begun, done.1, hasked, hrecords, rfl⟩⟩
  · rintro ⟨done, hrun⟩
    obtain ⟨asked, begun, records, hasked, hrecords, rfl⟩ := andThen_eq_some_iff.mp hrun
    refine ⟨by rw [encode, hasked, Option.map_some, hrecords], ?_⟩
    rintro ⟨written, span, hwritten, hnone⟩
    rw [hasked] at hwritten
    cases hwritten
    rw [hrecords] at hnone
    cases hnone

theorem readMessage_eq_some_iff {message : ReadMessage} :
    readMessage msg = some message ↔ readSections msg 0 = some (message, msg.length) := by
  unfold readMessage
  split
  · next found next hread =>
    rw [hread, Option.ite_none_right_eq_some, Option.some.injEq, Option.some.injEq,
      Prod.mk.injEq, and_comm]
  · next hread => simp [hread]

def PointersLead (m : Message) (full : Bytes) : Prop :=
  ∀ reference ∈ m.references,
    reference.offset < 2 ^ 14 ∨ Spells full reference.labels (reference.offset % 2 ^ 14)

theorem readMessage_encodeAll_iff (hvalid : ∀ name ∈ m.names, ValidName name) {maxSize : Bool}
    {full : Bytes} {done : Span}
    (hrun : m.encodeQuestion.andThen m.encodeRecords
      (Span.start (bufferSize maxSize m.additionalEdns)) = some (full, done)) :
    readMessage full = some m.reading ↔
      (∀ record ∈ m.answers ++ m.authorities, TtlFits record.ttl) ∧ m.PointersLead full := by
  have hsmall := bufferSize_lt maxSize m.additionalEdns
  have hfollows := encodeAll_outcome hvalid maxSize
  rw [hrun] at hfollows
  have hfollows : Follows _ done (Layout.message m) := hfollows
  have hlength := Layout.length_records_le m
  have hsize := hfollows.offset_le
  have hemits : Emits full (m.encodeQuestion.andThen m.encodeRecords) readSections m.reading _ :=
    emits_sections hvalid (by omega) (by omega)
  have hstart : Kept full (Span.start (bufferSize maxSize m.additionalEdns)) := kept_start hsmall
  have hstop : done.bufOffset.toNat = full.length :=
    ((hemits.counts _ _ _ hrun).offset_toNat hstart.small).1.trans (Nat.zero_add _)
  obtain ⟨hkept, added, hpointers, hreads⟩ := hemits.emits _ full done hstart hrun (has_self full)
  obtain rfl : done.pointers = added := hpointers
  rw [readMessage_eq_some_iff, ← hstop]
  refine hreads.reads_iff.trans (and_congr_right' ?_)
  rw [PointersLead, references, ← hfollows.references, List.forall_mem_map]
  exact ⟨fun hleads pointer hmem => .inr (hleads pointer hmem), hkept.aimed⟩

/-- Compression is lossless exactly if the pointers lead to what they replace and no ttl is cut
off. -/
theorem encode_lossless_iff (hvalid : ∀ name ∈ m.names, ValidName name) {maxSize : Bool}
    {full : Bytes} (hencode : m.encode maxSize = some full) (hfits : ¬ m.DoesNotFit maxSize) :
    readMessage full = some m.reading ↔
      (∀ record ∈ m.answers ++ m.authorities, TtlFits record.ttl) ∧ m.PointersLead full := by
  obtain ⟨done, hrun⟩ := encode_and_fits_iff.mp ⟨hencode, hfits⟩
  exact readMessage_encodeAll_iff hvalid hrun

end Message

def repeatedName (text : Bytes) : Message where
  hdrId := 0
  hdrFields := 0
  question := some ⟨[97], RRType.TXT, classIN⟩
  answers := [rrTXT [97] 60 text, rrA [98] 60 1, rrA [98] 60 2]
  authorities := []
  additionalEdns := none
  rrNameOverride := none
  badExtract := false

theorem references_repeatedName (text : Bytes) :
    (repeatedName text).references =
      [⟨[[97]], 12⟩, ⟨[[98]], 31 + (txtStrings (text.length + 1) text).length⟩] :=
  rfl

theorem size_repeatedName (text : Bytes) :
    (repeatedName text).size = 64 + (txtStrings (text.length + 1) text).length := by
  change 31 + (txtStrings (text.length + 1) text).length + 33 = _
  omega

theorem validName_repeatedName (text : Bytes) :
    ∀ name ∈ (repeatedName text).names, ValidName name := by
  have hsingle {byte : UInt8} (h : byte = 97 ∨ byte = 98) : ValidName [byte] := by
    rcases h with rfl | rfl <;> intro label hmem
    all_goals
      obtain rfl := List.mem_singleton.mp hmem
      exact ⟨by decide, by decide, by decide⟩
  intro name hmem
  have hmem : name ∈ [[97], [97], [98], [98]] := hmem
  simp only [List.mem_cons, List.not_mem_nil, or_false] at hmem
  rcases hmem with rfl | rfl | rfl | rfl
  · exact hsingle (.inl rfl)
  · exact hsingle (.inl rfl)
  · exact hsingle (.inr rfl)
  · exact hsingle (.inr rfl)

theorem encode_lossless_iff_short : ∃ full, (repeatedName [120]).encode true = some full ∧
      ¬ (repeatedName [120]).DoesNotFit true ∧
        (readMessage full = some (repeatedName [120]).reading ↔
          (∀ record ∈ (repeatedName [120]).answers ++ (repeatedName [120]).authorities,
            TtlFits record.ttl) ∧ (repeatedName [120]).PointersLead full) := by
  obtain ⟨full, hfull⟩ : ∃ full, (repeatedName [120]).encode true = some full :=
    Option.isSome_iff_exists.mp (by decide +kernel)
  have hfits : ¬ (repeatedName [120]).DoesNotFit true := by decide +kernel
  exact ⟨full, hfull, hfits,
    Message.encode_lossless_iff (validName_repeatedName [120]) hfull hfits⟩

theorem readMessage_repeatedName_ne {text : Bytes}
    (hlength : (txtStrings (text.length + 1) text).length = 16353) {full : Bytes} {done : Span}
    (hrun : (repeatedName text).encodeQuestion.andThen (repeatedName text).encodeRecords
      (Span.start (bufferSize true none)) = some (full, done)) :
    readMessage full ≠ some (repeatedName text).reading := by
  intro hread
  have hvalid := validName_repeatedName text
  obtain ⟨hencode, hfits⟩ := Message.encode_and_fits_iff.mpr ⟨done, hrun⟩
  have hmem : (⟨[[98]], 16384⟩ : Reference) ∈ (repeatedName text).references := by
    rw [references_repeatedName, hlength]
    decide
  rcases ((Message.readMessage_encodeAll_iff hvalid hrun).mp hread).2 _ hmem with
    hlow | ⟨stop, hstop⟩
  · exact absurd hlow (by decide)
  rcases Message.encode_cases hencode with ⟨hheader, -⟩ | ⟨-, htruncated⟩
  · have hstop : readName full 0 = some ([[98]], stop) := hstop
    simp only [Message.headerBytes, List.append_assoc, has_append_iff] at hheader
    have hid : Has full 0 (storeBig 2 (0 : UInt16).toNat) := hheader.1
    rw [show storeBig 2 (0 : UInt16).toNat = [0] ++ [0] by decide] at hid
    rw [readName_root (has_append_iff.mp hid).1] at hstop
    cases hstop
  · exact hfits htruncated

theorem ttlFits_repeatedName (text : Bytes) :
    ∀ record ∈ (repeatedName text).answers ++ (repeatedName text).authorities,
      TtlFits record.ttl := by
  intro record hmem
  have hmem : record ∈ [rrTXT [97] 60 text, rrA [98] 60 1, rrA [98] 60 2] := hmem
  have httl : record.ttl = 60 := by
    simp only [List.mem_cons, List.not_mem_nil, or_false] at hmem
    rcases hmem with rfl | rfl | rfl <;> rfl
  rw [httl]
  exact ⟨by decide, by decide⟩

theorem exists_encode_repeatedName {text : Bytes}
    (hlength : (txtStrings (text.length + 1) text).length = 16353) :
    ∃ full, (repeatedName text).encode true = some full ∧
      ¬ (repeatedName text).DoesNotFit true ∧
        readMessage full ≠ some (repeatedName text).reading := by
  have houtcome := Message.encodeAll_outcome (validName_repeatedName text) true
  cases hrun : (repeatedName text).encodeQuestion.andThen (repeatedName text).encodeRecords
      (Span.start (bufferSize true none)) with
  | none =>
    have houtcome : Outcome 65535 (Layout.message (repeatedName text)) none := hrun ▸ houtcome
    have hsize : 65535 < (repeatedName text).size := houtcome
    rw [size_repeatedName, hlength] at hsize
    omega
  | some done =>
    obtain ⟨hencode, hfits⟩ := Message.encode_and_fits_iff.mpr ⟨done.2, hrun⟩
    exact ⟨done.1, hencode, hfits, readMessage_repeatedName_ne hlength hrun⟩

theorem repeatedName_misread :
    let m := repeatedName (List.replicate 16289 0)
    (∀ name ∈ m.names, ValidName name) ∧
      (∀ record ∈ m.answers ++ m.authorities, TtlFits record.ttl) ∧
        ∃ full, m.encode true = some full ∧ ¬ m.DoesNotFit true ∧
          readMessage full ≠ some m.reading := by
  have hlength : (txtStrings ((List.replicate 16289 (0 : UInt8)).length + 1)
      (List.replicate 16289 0)).length = 16353 := by
    rw [length_txtStrings (Nat.lt_add_one _), List.length_replicate]
    decide
  exact ⟨validName_repeatedName _, ttlFits_repeatedName _, exists_encode_repeatedName hlength⟩

end SessionRouter.Dns
