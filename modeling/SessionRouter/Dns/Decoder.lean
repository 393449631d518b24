import SessionRouter.Dns.Record
import SessionRouter.Lib.CompressedName

/-!
# A decoder for whole replies
-/

namespace SessionRouter.Dns

open Lib DomainName Scan

/-- What the data of a record consists of. -/
inductive DataPart where
  | name
  | bytes (count : Nat)
  | rest
deriving DecidableEq

def dataParts (type : Nat) : List DataPart :=
  if type ∈ [2, 3, 4, 5, 7, 8, 9, 12] then [.name]
  else if type = 6 then [.name, .name, .bytes 20]
  else if type = 14 then [.name, .name]
  else if type = 15 then [.bytes 2, .name]
  else if type = 33 then [.bytes 6, .name]
  else [.rest]

inductive WireField where
  | name (name : WireName)
  | bytes (bytes : Bytes)
deriving DecidableEq

structure WireQuestion where
  name : WireName
  type : Nat
  cls : Nat
deriving DecidableEq

structure WireRecord where
  owner : WireName
  type : Nat
  cls : Nat
  ttl : Nat
  data : List WireField
deriving DecidableEq

structure WireMessage where
  questions : List WireQuestion
  answers : List WireRecord
  authorities : List WireRecord
  additional : List WireRecord
deriving DecidableEq

def wireFields : List DataPart → Bytes → Option (List WireField)
  | [], data => if data = [] then some [] else none
  | .name :: parts, data =>
    (wireName data).bind fun found => (wireFields parts found.2).map (.name found.1 :: ·)
  | .bytes count :: parts, data =>
    (bytes count data).bind fun found => (wireFields parts found.2).map (.bytes found.1 :: ·)
  | .rest :: parts, data => (wireFields parts []).map (.bytes data :: ·)

def wireQuestion : Scan WireQuestion := do
  let name ← wireName
  let type ← number 2
  let cls ← number 2
  pure ⟨name, type, cls⟩

def wireRecord : Scan WireRecord := do
  let owner ← wireName
  let type ← number 2
  let cls ← number 2
  let ttl ← number 4
  let length ← number 2
  let data ← bytes length
  let fields ← expect (wireFields (dataParts type) data)
  pure ⟨owner, type, cls, ttl, fields⟩

/-- The counts of the header. -/
structure WireCounts where
  questions : Nat
  answers : Nat
  authorities : Nat
  additional : Nat

def wireCounts : Scan WireCounts := do
  let _id ← number 2
  let _flags ← number 2
  let questions ← number 2
  let answers ← number 2
  let authorities ← number 2
  let additional ← number 2
  pure ⟨questions, answers, authorities, additional⟩

structure WireFront where
  questions : List WireQuestion
  answers : List WireRecord
  authorities : List WireRecord
  additionalCount : Nat

def wireFront : Scan WireFront := do
  let counts ← wireCounts
  let questions ← many wireQuestion counts.questions
  let answers ← many wireRecord counts.answers
  let authorities ← many wireRecord counts.authorities
  pure ⟨questions, answers, authorities, counts.additional⟩

def wireMessage : Scan WireMessage := do
  let front ← wireFront
  let additional ← many wireRecord front.additionalCount
  pure ⟨front.questions, front.answers, front.authorities, additional⟩

inductive DataField where
  | name (labels : List Bytes)
  | bytes (bytes : Bytes)
deriving DecidableEq

structure DecodedRecord where
  owner : List Bytes
  type : Nat
  cls : Nat
  ttl : Nat
  data : List DataField
deriving DecidableEq

structure DecodedMessage where
  questions : List ReadQuestion
  answers : List DecodedRecord
  authorities : List DecodedRecord
  additional : List DecodedRecord
deriving DecidableEq

def WireField.resolve (msg : Bytes) : WireField → Option DataField
  | .name wire => (wire.resolve msg).map .name
  | .bytes data => some (.bytes data)

def WireQuestion.resolve (msg : Bytes) (question : WireQuestion) : Option ReadQuestion := do
  let labels ← question.name.resolve msg
  pure ⟨labels, question.type, question.cls⟩

def WireRecord.resolve (msg : Bytes) (record : WireRecord) : Option DecodedRecord := do
  let owner ← record.owner.resolve msg
  let data ← record.data.mapM (WireField.resolve msg)
  pure ⟨owner, record.type, record.cls, record.ttl, data⟩

def WireMessage.resolve (msg : Bytes) (message : WireMessage) : Option DecodedMessage := do
  let questions ← message.questions.mapM (WireQuestion.resolve msg)
  let answers ← message.answers.mapM (WireRecord.resolve msg)
  let authorities ← message.authorities.mapM (WireRecord.resolve msg)
  let additional ← message.additional.mapM (WireRecord.resolve msg)
  pure ⟨questions, answers, authorities, additional⟩

def decode (msg : Bytes) : Option DecodedMessage := do
  let (message, _) ← wireMessage msg
  message.resolve msg

def WireField.target : WireField → Option Nat
  | .name wire => wire.target
  | .bytes _ => none

def WireRecord.targets (record : WireRecord) : List Nat :=
  record.owner.target.toList ++ record.data.filterMap WireField.target

theorem mapM_eq_some_iff {α β : Type} {f : α → Option β} {values : List α} {results : List β} :
    values.mapM f = some results ↔
      List.Forall₂ (fun value result => f value = some result) values results := by
  induction values generalizing results with
  | nil =>
    rw [List.mapM_nil, List.forall₂_nil_left_iff]
    exact ⟨fun h => (Option.some.inj h).symm, fun h => congrArg some h.symm⟩
  | cons value values ih =>
    rw [List.mapM_cons, List.forall₂_cons_left_iff]
    constructor
    · intro h
      obtain ⟨first, hfirst, h⟩ := Option.bind_eq_some_iff.mp h
      obtain ⟨others, hothers, h⟩ := Option.bind_eq_some_iff.mp h
      cases h
      exact ⟨first, others, hfirst, ih.mp hothers, rfl⟩
    · rintro ⟨first, others, hfirst, hothers, rfl⟩
      exact Option.bind_eq_some_iff.mpr ⟨first, hfirst,
        Option.bind_eq_some_iff.mpr ⟨others, ih.mpr hothers, rfl⟩⟩

theorem mapM_congr_iff {α β : Type} {f g : α → Option β} {condition : α → Prop}
    (hiff : ∀ value result, f value = some result → (g value = some result ↔ condition value))
    {values : List α} {results : List β} (h : values.mapM f = some results) :
    values.mapM g = some results ↔ ∀ value ∈ values, condition value := by
  rw [mapM_eq_some_iff] at h ⊢
  induction h with
  | nil => simp
  | cons hfirst _ ih => rw [List.forall₂_cons, ih, List.forall_mem_cons, hiff _ _ hfirst]

theorem WireField.resolve_eq_iff {msg other : Bytes} {field : WireField} {result : DataField}
    (h : field.resolve msg = some result) :
    field.resolve other = some result ↔
      ∀ target, field.target = some target → labelsAt other target = labelsAt msg target := by
  cases field with
  | bytes data => exact iff_of_true h fun target htarget => nomatch htarget
  | name wire =>
    obtain ⟨labels, hlabels, rfl⟩ := Option.map_eq_some_iff.mp h
    rw [WireField.target, ← wire.resolve_eq_iff hlabels, resolve, Option.map_eq_some_iff]
    constructor
    · rintro ⟨labels', hlabels', heq⟩
      cases heq
      exact hlabels'
    · exact fun hsame => ⟨labels, hsame, rfl⟩

theorem WireRecord.resolve_eq_iff {msg other : Bytes} {record : WireRecord}
    {result : DecodedRecord} (h : record.resolve msg = some result) :
    record.resolve other = some result ↔
      ∀ target ∈ record.targets, labelsAt other target = labelsAt msg target := by
  obtain ⟨owner, howner, h⟩ := Option.bind_eq_some_iff.mp h
  obtain ⟨data, hdata, h⟩ := Option.bind_eq_some_iff.mp h
  cases h
  have htargets : (∀ target ∈ record.targets, labelsAt other target = labelsAt msg target) ↔
      (∀ target, record.owner.target = some target →
        labelsAt other target = labelsAt msg target) ∧
      ∀ field ∈ record.data, ∀ target, field.target = some target →
        labelsAt other target = labelsAt msg target := by
    simp only [targets, List.mem_append, Option.mem_toList, List.mem_filterMap, or_imp,
      forall_and, forall_exists_index, and_imp]
    exact and_congr_right fun _ =>
      ⟨fun hall field hmem target htarget => hall target field hmem htarget,
        fun hall target field hmem htarget => hall field hmem target htarget⟩
  have hfields := mapM_congr_iff
    (fun field result => @WireField.resolve_eq_iff msg other field result)
    hdata
  rw [htargets, ← record.owner.resolve_eq_iff howner, ← hfields]
  constructor
  · intro hother
    obtain ⟨owner', howner', hother⟩ := Option.bind_eq_some_iff.mp hother
    obtain ⟨data', hdata', hother⟩ := Option.bind_eq_some_iff.mp hother
    cases hother
    exact ⟨howner', hdata'⟩
  · rintro ⟨howner', hdata'⟩
    exact Option.bind_eq_some_iff.mpr ⟨owner, howner',
      Option.bind_eq_some_iff.mpr ⟨data, hdata', rfl⟩⟩

end SessionRouter.Dns
