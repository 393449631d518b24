import SessionRouter.Lib.DomainName
import SessionRouter.Lib.Table

/-!
# Names on their way into and out of a message
-/

namespace SessionRouter.Dns

open Lib DomainName

structure Pointer where
  labels : List Bytes
  offset : UInt16
deriving DecidableEq

structure Span where
  room : Nat
  prevNames : Table Bytes UInt16
  bufOffset : UInt16
  pointers : List Pointer

abbrev Encoder := Span → Option (Bytes × Span)

namespace Span

def start (room : Nat) : Span :=
  ⟨room, ∅, 0, []⟩

def advance (span : Span) (count : Nat) : Span :=
  { span with
    room := span.room - count
    bufOffset := span.bufOffset + UInt16.ofNat count }

end Span

namespace Encoder

def nothing : Encoder := fun span =>
  some ([], span)

def put (bytes : Bytes) : Encoder := fun span =>
  if bytes.length ≤ span.room then some (bytes, span.advance bytes.length) else none

def writeInts (ints : List (Nat × Nat)) : Encoder :=
  put (ints.flatMap fun int => storeBig int.1 int.2)

def andThen (first second : Encoder) : Encoder := fun span =>
  (first span).bind fun begun => (second begun.2).map fun done => (begun.1 ++ done.1, done.2)

def all (encoders : List Encoder) : Encoder :=
  encoders.foldr andThen nothing

end Encoder

def dropDot (name : Bytes) : Bytes :=
  if name.getLast? = some dot then name.dropLast else name

def partsFrom (part : Bytes) : Bytes → List Bytes
  | [] => [part]
  | byte :: rest =>
    if byte = dot ∧ part ≠ [] then part :: partsFrom [] rest
    else partsFrom (part ++ [byte]) rest

def parts (name : Bytes) : List Bytes :=
  if name = [] then [] else partsFrom [] name

def Span.prevOffset (span : Span) (compress : Bool) (suffix : Bytes) : Option UInt16 :=
  if compress then span.prevNames.find suffix else none

def Span.record (span : Span) (compress : Bool) (suffix : Bytes) : Span :=
  if compress then { span with prevNames := span.prevNames.emplace suffix span.bufOffset }
  else span

def encodePointer (labels : List Bytes) (offset : UInt16) : Encoder := fun span =>
  Encoder.put (storeBig 2 (pointerWord offset.toNat))
    { span with pointers := span.pointers ++ [⟨labels, offset⟩] }

def encodeParts (compress : Bool) : List Bytes → Encoder
  | [], span => Encoder.put [0] span
  | part :: rest, span =>
    match span.prevOffset compress (dotted (part :: rest)) with
    | some offset => encodePointer (part :: rest) offset span
    | none =>
      if 63 < part.length ∨ span.room ≤ part.length then none
      else
        (encodeParts compress rest
          ((span.record compress (dotted (part :: rest))).advance
            (wireLabel part).length)).map
          fun done => (wireLabel part ++ done.1, done.2)

def encodeName (compress : Bool) (name : Bytes) : Encoder :=
  encodeParts compress (parts (dropDot name))

def nameLabels (name : Bytes) : List Bytes :=
  parts (dropDot name)

def extractLabels : Nat → Bytes → Option (List Bytes × Bytes)
  | 0, _ => none
  | _ + 1, [] => none
  | fuel + 1, length :: rest =>
    if length = 0 then some ([], rest)
    else if rest.length ≤ length.toNat then none
    else
      (extractLabels fuel (rest.drop length.toNat)).map fun found =>
        (rest.take length.toNat :: found.1, found.2)

def extractedName (labels : List Bytes) : Bytes :=
  if labels = [] then [dot] else labels.flatMap (· ++ [dot])

def extractName (buf : Bytes) : Option (Bytes × Bytes) :=
  (extractLabels buf.length buf).map fun found => (extractedName found.1, found.2)

theorem partsFrom_ne_nil (part name : Bytes) : partsFrom part name ≠ [] := by
  induction name generalizing part with
  | nil => simp [partsFrom]
  | cons byte name ih =>
    rw [partsFrom]
    split
    · simp
    · exact ih _

theorem dotted_partsFrom (part name : Bytes) : dotted (partsFrom part name) = part ++ name := by
  induction name generalizing part with
  | nil => simp [partsFrom, dotted]
  | cons byte name ih =>
    rw [partsFrom]
    split
    · next hdot => rw [dotted_cons_of_ne_nil _ (partsFrom_ne_nil _ _), ih, hdot.1, List.nil_append]
    · rw [ih, List.append_assoc, List.singleton_append]

theorem dotted_parts (name : Bytes) : dotted (parts name) = name := by
  unfold parts
  split
  · next hempty => rw [hempty, dotted]
  · rw [dotted_partsFrom, List.nil_append]

variable {part name found : Bytes}

theorem dot_notMem_tail_of_mem_partsFrom (hpart : dot ∉ part.tail)
    (h : found ∈ partsFrom part name) : dot ∉ found.tail := by
  induction name generalizing part with
  | nil =>
    rw [partsFrom, List.mem_singleton] at h
    exact h ▸ hpart
  | cons byte name ih =>
    rw [partsFrom] at h
    split at h
    · rcases List.mem_cons.mp h with rfl | h
      · exact hpart
      · exact ih List.not_mem_nil h
    · next hdot =>
      refine ih ?_ h
      cases part with
      | nil => simp
      | cons first part =>
        intro hmem
        rw [List.cons_append, List.tail_cons, List.mem_append, List.mem_singleton] at hmem
        rcases hmem with hmem | hmem
        · exact hpart hmem
        · exact hdot ⟨hmem.symm, by simp⟩

theorem dot_notMem_tail_of_mem_parts (h : found ∈ parts name) : dot ∉ found.tail := by
  unfold parts at h
  split at h
  · cases h
  · exact dot_notMem_tail_of_mem_partsFrom List.not_mem_nil h

variable {bytes : Bytes}

theorem partsFrom_append (hpart : part ≠ []) (hdot : dot ∉ bytes) (rest : Bytes) :
    partsFrom part (bytes ++ rest) = partsFrom (part ++ bytes) rest := by
  induction bytes generalizing part with
  | nil => simp
  | cons byte bytes ih =>
    rw [List.mem_cons, not_or] at hdot
    rw [List.cons_append, partsFrom, if_neg (fun h => hdot.1 h.1.symm),
      ih (by simp) hdot.2, List.append_assoc, List.singleton_append]

/-- A label that comes back as one part. -/
structure PlainLabel (label : Bytes) : Prop where
  nonempty : label ≠ []
  dotFree : dot ∉ label.tail

theorem PlainLabel.partsFrom_append {label : Bytes} (h : PlainLabel label) (rest : Bytes) :
    partsFrom [] (label ++ rest) = partsFrom label rest := by
  cases label with
  | nil => exact absurd rfl h.nonempty
  | cons byte label =>
    have hdot : dot ∉ label := h.dotFree
    rw [List.cons_append, partsFrom, if_neg (fun h => h.2 rfl), List.nil_append,
      Dns.partsFrom_append (List.cons_ne_nil _ _) hdot, List.singleton_append]

variable {labels : List Bytes}

theorem partsFrom_dotted (hne : labels ≠ []) (h : ∀ label ∈ labels, PlainLabel label) :
    partsFrom [] (dotted labels) = labels := by
  induction labels with
  | nil => exact absurd rfl hne
  | cons label labels ih =>
    have hlabel := h label List.mem_cons_self
    cases labels with
    | nil => simpa [dotted, partsFrom] using hlabel.partsFrom_append []
    | cons next labels =>
      rw [dotted, hlabel.partsFrom_append, partsFrom, if_pos ⟨rfl, hlabel.nonempty⟩,
        ih (by simp) fun other hother => h other (List.mem_cons_of_mem _ hother)]

theorem dotted_ne_nil (hne : labels ≠ []) (h : ∀ label ∈ labels, label ≠ []) :
    dotted labels ≠ [] := by
  match labels with
  | [] => exact absurd rfl hne
  | [label] => exact h label List.mem_cons_self
  | label :: next :: rest => simp [dotted]

theorem parts_dotted (h : ∀ label ∈ labels, PlainLabel label) : parts (dotted labels) = labels := by
  cases labels with
  | nil => rfl
  | cons label labels =>
    rw [parts, if_neg (dotted_ne_nil (by simp) fun other hother => (h other hother).nonempty),
      partsFrom_dotted (by simp) h]

theorem flatMap_dot (hne : labels ≠ []) : labels.flatMap (· ++ [dot]) = dotted labels ++ [dot] := by
  induction labels with
  | nil => exact absurd rfl hne
  | cons label labels ih =>
    cases labels with
    | nil => simp [dotted]
    | cons next labels => simp [List.flatMap_cons, ih, dotted]

theorem dropDot_extractedName (labels : List Bytes) :
    dropDot (extractedName labels) = dotted labels := by
  unfold extractedName
  split
  · next hempty => simp [hempty, dropDot, dotted]
  · next hne => simp [flatMap_dot hne, dropDot]

structure Advanced (span : Span) (bytes : Bytes) (after : Span) : Prop where
  room : after.room + bytes.length = span.room
  bufOffset : after.bufOffset = span.bufOffset + UInt16.ofNat bytes.length

def Encoder.Counts (encoder : Encoder) : Prop :=
  ∀ span bytes after, encoder span = some (bytes, after) → Advanced span bytes after

theorem advanced_nil (span : Span) : Advanced span [] span where
  room := by simp
  bufOffset := by simp

variable {span after : Span}

theorem Advanced.trans {middle : Span} {first second : Bytes} (hfirst : Advanced span first middle)
    (hsecond : Advanced middle second after) :
    Advanced span (first ++ second) after where
  room := by
    have := hfirst.room
    have := hsecond.room
    rw [List.length_append]
    omega
  bufOffset := by
    rw [hsecond.bufOffset, hfirst.bufOffset, List.length_append, UInt16.ofNat_add,
      UInt16.add_assoc]

theorem Advanced.offset_toNat (h : Advanced span bytes after)
    (hsmall : span.bufOffset.toNat + span.room < 2 ^ 16) :
    after.bufOffset.toNat = span.bufOffset.toNat + bytes.length ∧
      after.bufOffset.toNat + after.room < 2 ^ 16 := by
  have hroom := h.room
  have hoffset : after.bufOffset.toNat = span.bufOffset.toNat + bytes.length := by
    rw [h.bufOffset, UInt16.toNat_add, UInt16.toNat_ofNat', Nat.add_mod_mod]
    exact Nat.mod_eq_of_lt (by omega)
  exact ⟨hoffset, by omega⟩

namespace Encoder

theorem put_eq_some_iff {bytes written : Bytes} {span after : Span} :
    put bytes span = some (written, after) ↔
      bytes.length ≤ span.room ∧ written = bytes ∧ after = span.advance bytes.length := by
  unfold put
  split
  · next hfits => simp [hfits, eq_comm]
  · next hlong => simp [hlong]

theorem andThen_eq_some_iff {first second : Encoder} {span after : Span} {bytes : Bytes} :
    first.andThen second span = some (bytes, after) ↔
      ∃ begun middle done, first span = some (begun, middle) ∧
        second middle = some (done, after) ∧ bytes = begun ++ done := by
  rw [andThen, Option.bind_eq_some_iff]
  constructor
  · rintro ⟨⟨begun, middle⟩, hfirst, hsecond⟩
    obtain ⟨⟨done, last⟩, hdone, heq⟩ := Option.map_eq_some_iff.mp hsecond
    cases heq
    exact ⟨begun, middle, done, hfirst, hdone, rfl⟩
  · rintro ⟨begun, middle, done, hfirst, hdone, rfl⟩
    exact ⟨(begun, middle), hfirst, Option.map_eq_some_iff.mpr ⟨_, hdone, rfl⟩⟩

theorem advanced_advance {span : Span} {bytes : Bytes} (h : bytes.length ≤ span.room) :
    Advanced span bytes (span.advance bytes.length) where
  room := Nat.sub_add_cancel h
  bufOffset := rfl

theorem counts_put (bytes : Bytes) : (put bytes).Counts := by
  intro span written after h
  obtain ⟨hfits, rfl, rfl⟩ := put_eq_some_iff.mp h
  exact advanced_advance hfits

theorem counts_nothing : nothing.Counts := by
  intro span bytes after h
  cases h
  exact advanced_nil span

theorem Counts.andThen {first second : Encoder} (hfirst : first.Counts)
    (hsecond : second.Counts) : (first.andThen second).Counts := by
  intro span bytes after h
  obtain ⟨begun, middle, done, hbegun, hdone, rfl⟩ := andThen_eq_some_iff.mp h
  exact (hfirst span begun middle hbegun).trans (hsecond middle done after hdone)

end Encoder

open Encoder

section Record

variable (span : Span) (compress : Bool) (suffix : Bytes)

@[simp] theorem record_room : (span.record compress suffix).room = span.room := by
  cases compress <;> rfl

@[simp] theorem record_bufOffset : (span.record compress suffix).bufOffset = span.bufOffset := by
  cases compress <;> rfl

end Record

variable {compress : Bool}

theorem encodeParts_cons_eq_some_iff {rest : List Bytes} :
    encodeParts compress (part :: rest) span = some (bytes, after) ↔
      (∃ offset, span.prevOffset compress (dotted (part :: rest)) = some offset ∧
        encodePointer (part :: rest) offset span = some (bytes, after)) ∨
      (span.prevOffset compress (dotted (part :: rest)) = none ∧ part.length ≤ 63 ∧
        (wireLabel part).length ≤ span.room ∧
        ∃ done, encodeParts compress rest
          ((span.record compress (dotted (part :: rest))).advance (wireLabel part).length) =
            some (done, after) ∧ bytes = wireLabel part ++ done) := by
  rw [encodeParts]
  cases hprev : span.prevOffset compress (dotted (part :: rest)) with
  | some offset => simp
  | none =>
    simp only [reduceCtorEq, false_and, exists_false, false_or, true_and]
    split
    · next hlong =>
      simp only [wireLabel, List.length_cons, reduceCtorEq, false_iff]
      rintro ⟨hshort, hroom, -⟩
      omega
    · next hfits =>
      simp only [wireLabel, List.length_cons, Option.map_eq_some_iff, Prod.mk.injEq] at *
      constructor
      · rintro ⟨⟨done, last⟩, hdone, rfl, rfl⟩
        exact ⟨by omega, by omega, done, hdone, rfl⟩
      · rintro ⟨-, -, done, hdone, rfl⟩
        exact ⟨_, hdone, rfl, rfl⟩

theorem advanced_encodeParts (h : encodeParts compress labels span = some (bytes, after)) :
    Advanced span bytes after := by
  induction labels generalizing span bytes with
  | nil => exact counts_put [0] span bytes after h
  | cons part rest ih =>
    rcases encodeParts_cons_eq_some_iff.mp h with
      ⟨offset, -, hpointer⟩ | ⟨-, -, hfits, done, hdone, rfl⟩
    · have hput := counts_put _ _ bytes after hpointer
      exact ⟨hput.room, hput.bufOffset⟩
    · have hfirst : Advanced span (wireLabel part)
          ((span.record compress (dotted (part :: rest))).advance (wireLabel part).length) :=
        ⟨by simpa [Span.advance] using Nat.sub_add_cancel hfits, by simp [Span.advance]⟩
      exact hfirst.trans (ih hdone)

theorem counts_encodeName (compress : Bool) (name : Bytes) : (encodeName compress name).Counts :=
  fun _ _ _ h => advanced_encodeParts h

def Span.Fresh (span : Span) (compress : Bool) (labels : List Bytes) : Prop :=
  compress = true → ∀ suffix offset, span.prevNames.find suffix = some offset →
    (dotted labels).length < suffix.length

theorem fresh_start (room : Nat) (compress : Bool) (labels : List Bytes) :
    (Span.start room).Fresh compress labels := by
  intro _ suffix offset h
  cases h

theorem length_dotted_lt (label : Bytes) (labels : List Bytes) (hlabel : label ≠ []) :
    (dotted labels).length < (dotted (label :: labels)).length := by
  cases labels with
  | nil => exact List.length_pos_iff.mpr hlabel
  | cons next labels =>
    rw [dotted_cons_of_ne_nil label (List.cons_ne_nil _ _), List.length_append,
      List.length_cons]
    omega

theorem Span.Fresh.prevOffset (h : span.Fresh compress labels) :
    span.prevOffset compress (dotted labels) = none := by
  cases compress with
  | false => rfl
  | true =>
    cases hfind : span.prevNames.find (dotted labels) with
    | none => exact hfind
    | some offset => exact absurd (h rfl _ _ hfind) (lt_irrefl _)

theorem Span.Fresh.tail {label : Bytes} (h : span.Fresh compress (label :: labels))
    (hlabel : label ≠ []) (count : Nat) :
    ((span.record compress (dotted (label :: labels))).advance count).Fresh compress labels := by
  rintro rfl suffix offset hfind
  have hshorter := length_dotted_lt label labels hlabel
  have hemplace : (span.prevNames.emplace (dotted (label :: labels)) span.bufOffset).find suffix =
      some offset := hfind
  rw [Table.find_emplace] at hemplace
  split at hemplace
  · next hsuffix => rwa [hsuffix.1]
  · exact hshorter.trans (h rfl suffix offset hemplace)

theorem wire_cons (label : Bytes) (labels : List Bytes) :
    wire (label :: labels) = wireLabel label ++ wire labels := by
  simp [wire]

theorem encodeParts_fresh_iff (hfresh : span.Fresh compress labels)
    (hinner : ∀ label ∈ labels.dropLast, label ≠ []) :
    (∃ after, encodeParts compress labels span = some (bytes, after)) ↔
      bytes = wire labels ∧ (∀ label ∈ labels, label.length ≤ 63) ∧
        (wire labels).length ≤ span.room := by
  induction labels generalizing span bytes with
  | nil =>
    simp only [encodeParts, put_eq_some_iff]
    constructor
    · rintro ⟨after, hfits, rfl, -⟩
      exact ⟨rfl, nofun, hfits⟩
    · rintro ⟨rfl, -, hfits⟩
      exact ⟨_, hfits, rfl, rfl⟩
  | cons label labels ih =>
    have hnext (hfits : (wireLabel label).length ≤ span.room) (bytes : Bytes) :
        (∃ after, encodeParts compress labels
          ((span.record compress (dotted (label :: labels))).advance (wireLabel label).length) =
            some (bytes, after)) ↔
          bytes = wire labels ∧ (∀ label ∈ labels, label.length ≤ 63) ∧
            (wire labels).length ≤ span.room - (wireLabel label).length := by
      cases labels with
      | nil =>
        simp only [encodeParts, put_eq_some_iff]
        constructor
        · rintro ⟨after, hroom, rfl, -⟩
          exact ⟨rfl, nofun, by simpa [Span.advance, wire] using hroom⟩
        · rintro ⟨rfl, -, hroom⟩
          exact ⟨_, by simpa [Span.advance, wire] using hroom, rfl, rfl⟩
      | cons next labels =>
        rw [List.dropLast_cons_cons] at hinner
        rw [ih (hfresh.tail (hinner label List.mem_cons_self) _)
          fun other hother => hinner other (List.mem_cons_of_mem _ hother)]
        simp [Span.advance]
    simp only [encodeParts_cons_eq_some_iff, hfresh.prevOffset, reduceCtorEq, false_and,
      exists_false, false_or, true_and]
    rw [wire_cons, List.length_append, List.forall_mem_cons]
    constructor
    · rintro ⟨after, hshort, hfits, done, hdone, rfl⟩
      obtain ⟨rfl, hlabels, hroom⟩ := (hnext hfits done).mp ⟨after, hdone⟩
      exact ⟨rfl, ⟨hshort, hlabels⟩, by omega⟩
    · rintro ⟨rfl, ⟨hshort, hlabels⟩, hroom⟩
      obtain ⟨after, hdone⟩ := (hnext (by omega) _).mpr ⟨rfl, hlabels, by omega⟩
      exact ⟨after, hshort, by omega, _, hdone, rfl⟩

theorem ne_nil_of_mem_dropLast_partsFrom (h : found ∈ (partsFrom part name).dropLast) :
    found ≠ [] := by
  induction name generalizing part with
  | nil => simp [partsFrom] at h
  | cons byte name ih =>
    rw [partsFrom] at h
    split at h
    · next hdot =>
      rw [List.dropLast_cons_of_ne_nil (partsFrom_ne_nil _ _)] at h
      rcases List.mem_cons.mp h with rfl | h
      · exact hdot.2
      · exact ih h
    · exact ih h

theorem ne_nil_of_mem_dropLast_nameLabels (h : found ∈ (nameLabels name).dropLast) :
    found ≠ [] := by
  unfold nameLabels parts at h
  split at h
  · cases h
  · exact ne_nil_of_mem_dropLast_partsFrom h

theorem encodeName_fresh_iff (hfresh : span.Fresh compress (nameLabels name)) :
    (∃ after, encodeName compress name span = some (bytes, after)) ↔
      bytes = wire (nameLabels name) ∧ (∀ label ∈ nameLabels name, label.length ≤ 63) ∧
        (wire (nameLabels name)).length ≤ span.room :=
  encodeParts_fresh_iff hfresh fun _ => ne_nil_of_mem_dropLast_nameLabels

end SessionRouter.Dns
