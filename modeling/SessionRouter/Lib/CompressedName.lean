import SessionRouter.Lib.DomainName

/-!
# Compressed names in place
-/

namespace Lib

abbrev Scan := StateT Bytes Option

namespace Scan

variable {α β : Type} {buf : Bytes}

def bytes (count : Nat) : Scan Bytes := fun buf =>
  if buf.length < count then none else some (buf.take count, buf.drop count)

def number (width : Nat) : Scan Nat := do
  let bytes ← bytes width
  pure (loadBig bytes)

def expect (value : Option α) : Scan α := fun buf =>
  value.map fun value => (value, buf)

def many (scan : Scan α) : Nat → Scan (List α)
  | 0 => pure []
  | count + 1 => do
      let first ← scan
      let others ← many scan count
      pure (first :: others)

theorem bind_apply (scan : Scan α) (next : α → Scan β) (buf : Bytes) :
    (scan >>= next) buf = (scan buf).bind fun found => next found.1 found.2 :=
  rfl

theorem pure_apply (value : α) (buf : Bytes) : (pure value : Scan α) buf = some (value, buf) := rfl

variable {scan : Scan α}

theorem bind_eq_some_iff {next : α → Scan β} {result : β × Bytes} :
    (scan >>= next) buf = some result ↔
      ∃ found rest, scan buf = some (found, rest) ∧ next found rest = some result := by
  rw [bind_apply, Option.bind_eq_some_iff]
  exact Prod.exists

variable {rest : Bytes}

variable {width value : Nat} {count : Nat} {values : List α}

theorem bytes_eq_some_iff {found : Bytes} :
    bytes count buf = some (found, rest) ↔ found.length = count ∧ buf = found ++ rest := by
  unfold bytes
  split
  next hshort =>
    refine iff_of_false (fun h => nomatch h) ?_
    rintro ⟨rfl, rfl⟩
    rw [List.length_append] at hshort
    omega
  next henough =>
    rw [Option.some.injEq, Prod.mk.injEq]
    constructor
    · rintro ⟨rfl, rfl⟩
      exact ⟨List.length_take_of_le (Nat.le_of_not_lt henough), (List.take_append_drop _ _).symm⟩
    · rintro ⟨rfl, rfl⟩
      exact ⟨List.take_left, List.drop_left⟩

theorem number_eq_some_iff : number width buf = some (value, rest) ↔
      value < 256 ^ width ∧ buf = storeBig width value ++ rest := by
  rw [number, bind_eq_some_iff]
  constructor
  · rintro ⟨found, after, hfound, hvalue⟩
    obtain ⟨rfl, rfl⟩ := bytes_eq_some_iff.mp hfound
    cases hvalue
    exact ⟨loadBig_lt found, by rw [storeBig_loadBig]⟩
  · rintro ⟨hlt, rfl⟩
    refine ⟨storeBig width value, rest, bytes_eq_some_iff.mpr ⟨length_storeBig _ _, rfl⟩, ?_⟩
    rw [loadBig_storeBig hlt, pure_apply]

theorem expect_eq_some_iff {value : Option α} {found : α} :
    expect value buf = some (found, rest) ↔ value = some found ∧ rest = buf := by
  cases value with
  | none => simp [expect]
  | some value => simp [expect, eq_comm]

theorem many_succ_eq_some_iff : many scan (count + 1) buf = some (values, rest) ↔
      ∃ first middle others, scan buf = some (first, middle) ∧
        many scan count middle = some (others, rest) ∧ values = first :: others := by
  rw [many, bind_eq_some_iff]
  constructor
  · rintro ⟨first, middle, hfirst, hothers⟩
    obtain ⟨others, after, hmany, hpure⟩ := bind_eq_some_iff.mp hothers
    cases hpure
    exact ⟨first, middle, others, hfirst, hmany, rfl⟩
  · rintro ⟨first, middle, others, hfirst, hmany, rfl⟩
    exact ⟨first, middle, hfirst, bind_eq_some_iff.mpr ⟨others, rest, hmany, rfl⟩⟩

theorem length_of_many (h : many scan count buf = some (values, rest)) : values.length = count := by
  induction count generalizing buf values with
  | zero =>
    cases h
    rfl
  | succ count ih =>
    obtain ⟨first, middle, others, -, hothers, rfl⟩ := many_succ_eq_some_iff.mp h
    rw [List.length_cons, ih hothers]

def Reads (scan : Scan α) (piece : Bytes) (value : α) : Prop :=
  ∀ tail, scan (piece ++ tail) = some (value, tail)

theorem reads_pure (value : α) : Reads (pure value) [] value := fun _ => rfl

theorem Reads.bind {next : α → Scan β} {piece others : Bytes} {first : α} {value : β}
    (hfirst : Reads scan piece first) (hnext : Reads (next first) others value) :
    Reads (scan >>= next) (piece ++ others) value := by
  intro tail
  rw [bind_apply, List.append_assoc, hfirst, Option.bind_some, hnext]

theorem reads_bytes (piece : Bytes) : Reads (bytes piece.length) piece piece :=
  fun _ => bytes_eq_some_iff.mpr ⟨rfl, rfl⟩

theorem reads_number (h : value < 256 ^ width) :
    Reads (number width) (storeBig width value) value :=
  fun _ => number_eq_some_iff.mpr ⟨h, rfl⟩

theorem reads_many {pieces : List Bytes} {values : List α}
    (h : List.Forall₂ (Reads scan) pieces values) :
    Reads (many scan values.length) pieces.flatten values := by
  induction h with
  | nil => exact reads_pure []
  | cons hfirst hothers ih =>
    rw [List.flatten_cons, ← List.append_nil (List.flatten _)]
    exact hfirst.bind (ih.bind (reads_pure _))

end Scan
end Lib

namespace Lib.DomainName

open Scan

structure WireName where
  labels : List Bytes
  target : Option Nat
deriving DecidableEq

def takeName : Nat → Bytes → Option (WireName × Bytes)
  | 0, _ => none
  | _ + 1, [] => none
  | fuel + 1, byte :: rest =>
    if byte = 0 then some (⟨[], none⟩, rest)
    else if byte.toNat ≤ 63 then
      if rest.length < byte.toNat then none
      else
        (takeName fuel (rest.drop byte.toNat)).map fun found =>
          (⟨rest.take byte.toNat :: found.1.labels, found.1.target⟩, found.2)
    else if 192 ≤ byte.toNat then
      rest.head?.map fun low => (⟨[], some ((byte.toNat - 192) * 256 + low.toNat)⟩, rest.tail)
    else none

def wireName : Scan WireName := fun buf =>
  takeName buf.length buf

def labelsAt (msg : Bytes) (pos : Nat) : Option (List Bytes) :=
  (readName msg pos).map Prod.fst

def WireName.resolve (msg : Bytes) (name : WireName) : Option (List Bytes) :=
  match name.target with
  | none => some name.labels
  | some target => (labelsAt msg target).map (name.labels ++ ·)

variable {rest : Bytes} {name : WireName}

theorem takeName_succ_eq_some_iff {fuel : Nat} {byte : UInt8} {buf : Bytes} :
    takeName (fuel + 1) (byte :: buf) = some (name, rest) ↔
      (byte = 0 ∧ name = ⟨[], none⟩ ∧ rest = buf) ∨
      (byte ≠ 0 ∧ byte.toNat ≤ 63 ∧ ∃ label after others, label.length = byte.toNat ∧
        buf = label ++ after ∧ takeName fuel after = some (others, rest) ∧
        name = ⟨label :: others.labels, others.target⟩) ∨
      (192 ≤ byte.toNat ∧ ∃ low, buf = low :: rest ∧
        name = ⟨[], some ((byte.toNat - 192) * 256 + low.toNat)⟩) := by
  rw [takeName]
  by_cases hzero : byte = 0
  · subst hzero
    simp [eq_comm]
  rw [if_neg hzero]
  by_cases hlabel : byte.toNat ≤ 63
  · rw [if_pos hlabel]
    have hpointer : ¬192 ≤ byte.toNat := by omega
    simp only [hzero, hlabel, hpointer, false_and, false_or, or_false, true_and, ne_eq,
      not_false_eq_true]
    by_cases hshort : buf.length < byte.toNat
    · rw [if_pos hshort]
      refine iff_of_false (fun h => nomatch h) ?_
      rintro ⟨label, after, others, hlength, rfl, -⟩
      rw [List.length_append] at hshort
      omega
    · rw [if_neg hshort, Option.map_eq_some_iff]
      constructor
      · rintro ⟨⟨others, after⟩, hothers, heq⟩
        cases heq
        exact ⟨_, _, others, List.length_take_of_le (Nat.le_of_not_lt hshort),
          (List.take_append_drop _ _).symm, hothers, rfl⟩
      · rintro ⟨label, after, others, hlength, rfl, hothers, rfl⟩
        refine ⟨(others, rest), ?_, ?_⟩
        · rw [← hlength, List.drop_left, hothers]
        · rw [← hlength, List.take_left]
  · rw [if_neg hlabel]
    simp only [hzero, hlabel, false_and, and_false, false_or]
    by_cases hpointer : 192 ≤ byte.toNat
    · rw [if_pos hpointer]
      cases buf with
      | nil => simp
      | cons low buf => simp [hpointer, eq_comm, and_comm]
    · simp [hpointer]

theorem takeName_piece {fuel : Nat} {buf : Bytes} (h : takeName fuel buf = some (name, rest)) :
    ∃ piece, buf = piece ++ rest ∧
      ∀ tail more, piece.length ≤ more → takeName more (piece ++ tail) = some (name, tail) := by
  induction fuel generalizing buf name with
  | zero => cases h
  | succ fuel ih =>
    cases buf with
    | nil => cases h
    | cons byte buf =>
      -- the piece starts with the length byte, so that it bounds the labels again
      rcases takeName_succ_eq_some_iff.mp h with ⟨rfl, rfl, rfl⟩ |
        ⟨hzero, hshort, label, after, others, hlength, rfl, hothers, rfl⟩ |
        ⟨hpointer, low, rfl, rfl⟩
      · refine ⟨[0], rfl, fun tail more hmore => ?_⟩
        obtain ⟨more, rfl⟩ := Nat.exists_eq_add_of_le' hmore
        exact takeName_succ_eq_some_iff.mpr (Or.inl ⟨rfl, rfl, rfl⟩)
      · obtain ⟨piece, rfl, hpiece⟩ := ih hothers
        refine ⟨byte :: label ++ piece, by simp, fun tail more hmore => ?_⟩
        rw [List.length_append, List.length_cons] at hmore
        obtain ⟨more, rfl⟩ : ∃ fewer, more = fewer + 1 := ⟨more - 1, by omega⟩
        refine takeName_succ_eq_some_iff.mpr (Or.inr (Or.inl ⟨hzero, hshort, label,
          piece ++ tail, others, hlength, by simp, hpiece tail more (by omega), rfl⟩))
      · refine ⟨[byte, low], rfl, fun tail more hmore => ?_⟩
        obtain ⟨more, rfl⟩ := Nat.exists_eq_add_of_le' hmore
        exact takeName_succ_eq_some_iff.mpr (Or.inr (Or.inr ⟨hpointer, low, rfl, rfl⟩))

theorem wireName_piece {buf : Bytes} (h : wireName buf = some (name, rest)) :
    ∃ piece, buf = piece ++ rest ∧ Reads wireName piece name := by
  obtain ⟨piece, hbuf, hpiece⟩ := takeName_piece h
  refine ⟨piece, hbuf, fun tail => hpiece tail _ ?_⟩
  rw [List.length_append]
  omega

theorem takeName_wire {labels : List Bytes} (hshort : ∀ label ∈ labels, label.length ≤ 63)
    {fuel : Nat} {tail : Bytes} (h : takeName fuel (wire labels ++ tail) = some (name, rest)) :
    name = ⟨labels.takeWhile (· ≠ []), none⟩ ∧ ((∀ label ∈ labels, label ≠ []) → rest = tail) := by
  induction labels generalizing fuel name with
  | nil =>
    cases fuel with
    | zero => cases h
    | succ fuel =>
      rcases takeName_succ_eq_some_iff.mp h with ⟨-, rfl, rfl⟩ | ⟨hzero, -⟩ | ⟨hpointer, -⟩
      · exact ⟨rfl, fun _ => rfl⟩
      · exact absurd rfl hzero
      · exact absurd hpointer (by decide)
  | cons label labels ih =>
    obtain ⟨hlabel, hlabels⟩ := List.forall_mem_cons.mp hshort
    have hbytes : wire (label :: labels) ++ tail =
        UInt8.ofNat label.length :: (label ++ (wire labels ++ tail)) := by
      simp [wire, wireLabel, List.flatMap_cons]
    have hlength : (UInt8.ofNat label.length).toNat = label.length := by
      rw [UInt8.toNat_ofNat']
      exact Nat.mod_eq_of_lt (by omega)
    cases fuel with
    | zero => cases h
    | succ fuel =>
      rw [hbytes] at h
      rcases takeName_succ_eq_some_iff.mp h with ⟨hzero, rfl, -⟩ |
        ⟨hzero, -, found, after, others, hfound, hsplit, hothers, rfl⟩ | ⟨hpointer, -⟩
      · have hempty : label = [] := by
          rw [hzero] at hlength
          exact List.length_eq_zero_iff.mp hlength.symm
        subst hempty
        exact ⟨rfl, fun hne => absurd rfl (hne [] List.mem_cons_self)⟩
      · rw [hlength] at hfound
        obtain ⟨rfl, rfl⟩ := List.append_inj hsplit hfound.symm
        have hne : label ≠ [] := by
          rintro rfl
          exact hzero rfl
        obtain ⟨hread, hrest⟩ := ih hlabels hothers
        refine ⟨?_, fun hall => hrest fun other hother =>
          hall other (List.mem_cons_of_mem _ hother)⟩
        rw [hread, List.takeWhile_cons_of_pos (by simpa using hne)]
      · rw [hlength] at hpointer
        omega

theorem WireName.resolve_eq_iff {msg other : Bytes} {labels : List Bytes}
    (h : name.resolve msg = some labels) :
    name.resolve other = some labels ↔
      ∀ target, name.target = some target → labelsAt other target = labelsAt msg target := by
  obtain ⟨own, target⟩ := name
  cases target with
  | none => exact iff_of_true h fun target htarget => nomatch htarget
  | some target =>
    obtain ⟨spelled, hspelled, rfl⟩ := Option.map_eq_some_iff.mp h
    constructor
    · intro hother target' htarget
      cases htarget
      obtain ⟨spelled', hspelled', heq⟩ := Option.map_eq_some_iff.mp hother
      rw [hspelled, hspelled', List.append_cancel_left heq]
    · intro hsame
      show (labelsAt other target).map (own ++ ·) = some (own ++ spelled)
      rw [hsame target rfl, hspelled, Option.map_some]

end Lib.DomainName
