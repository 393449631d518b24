import SessionRouter.Lib.Split

/-!
# SNS names

The names under `.loki` that are looked up.  `isValidSns` checks the characters of the whole name
and the last label before `.loki`; `SnsName` says what such a name is meant to be, a sequence of
labels none of which is empty.
-/

namespace SessionRouter

open Lib Split

def reservedNames : List Bytes :=
  [ascii "localhost", ascii "sesh", ascii "snode", ascii "loki"]

def primaryOk (primaryName : Bytes) : Bool :=
  if reservedNames.contains primaryName then false
  else if 45 ∉ primaryName then primaryName.length ≤ 32
  else if primaryName.head? = some 45 ∨ primaryName.getLast? = some 45 then false
  else if primaryName.length > 63 then false
  else if primaryName.length ≥ 4 ∧ (primaryName.drop 2).take 2 = [45, 45] ∧
      ¬ascii "xn" <+: primaryName then false
  else true

def snsChar (ch : UInt8) : Bool :=
  ch == 45 || ch == 46 || (97 ≤ ch && ch ≤ 122) || (48 ≤ ch && ch ≤ 57)

def isValidSns (snsName : Bytes) : Bool :=
  if ¬ascii ".loki" <:+ snsName then false
  else
    let name := snsName.take (snsName.length - 5)
    if ¬name.all snsChar then false
    -- of the parts only the last one is looked at
    else primaryOk ((name.splitOn 46).getLast?.getD [])

structure PrimaryLabel (label : Bytes) : Prop where
  unreserved : label ∉ reservedNames
  plain : 45 ∉ label → label.length ≤ 32
  dashed : 45 ∈ label → label.length ≤ 63 ∧ label.head? ≠ some 45 ∧ label.getLast? ≠ some 45 ∧
    (label[2]? = some 45 → label[3]? = some 45 → label.take 2 = ascii "xn")

def LabelChars (label : Bytes) : Prop :=
  ∀ ch ∈ label, ch = 45 ∨ (97 ≤ ch ∧ ch ≤ 122) ∨ (48 ≤ ch ∧ ch ≤ 57)

/-- Nonempty labels over the allowed characters, then `.loki`. -/
structure SnsName (snsName name : Bytes) : Prop where
  loki : snsName = name ++ ascii ".loki"
  labels : ∀ label ∈ name.splitOn 46, label ≠ [] ∧ LabelChars label
  primary : PrimaryLabel ((name.splitOn 46).getLast?.getD [])

theorem primaryOk_iff (label : Bytes) : primaryOk label = true ↔ PrimaryLabel label := by
  have hdashes : (label.length ≥ 4 ∧ (label.drop 2).take 2 = [45, 45] ∧ ¬ascii "xn" <+: label) ↔
      ¬(label[2]? = some 45 → label[3]? = some 45 → label.take 2 = ascii "xn") := by
    rw [List.prefix_iff_eq_take, eq_comm (a := ascii "xn"),
      show (ascii "xn").length = 2 from rfl]
    rcases label with _ | ⟨a, _ | ⟨b, _ | ⟨c, _ | ⟨d, rest⟩⟩⟩⟩ <;> simp [and_assoc]
  constructor
  · intro h
    unfold primaryOk at h
    split_ifs at h with hreserved hdash hends hlong hthird
    · rw [not_or] at hends
      exact ⟨mt List.contains_iff_mem.mpr hreserved, fun hplain => absurd hdash hplain, fun _ =>
        ⟨Nat.not_lt.mp hlong, hends.1, hends.2, not_not.mp (mt hdashes.mpr hthird)⟩⟩
    · exact ⟨mt List.contains_iff_mem.mpr hreserved, fun _ => of_decide_eq_true h,
        fun hmem => absurd hmem hdash⟩
  · rintro ⟨hreserved, hplain, hdashed⟩
    unfold primaryOk
    rw [if_neg (mt List.contains_iff_mem.mp hreserved)]
    by_cases hdash : 45 ∈ label
    · obtain ⟨hlength, hhead, hlast, hxn⟩ := hdashed hdash
      rw [if_neg (not_not.mpr hdash), if_neg (not_or.mpr ⟨hhead, hlast⟩),
        if_neg (Nat.not_lt.mpr hlength), if_neg fun hthird => hdashes.mp hthird hxn]
    · rw [if_pos hdash]
      exact decide_eq_true (hplain hdash)

theorem all_intercalate {labels : List Bytes} {sep : UInt8} {p : UInt8 → Bool}
    (hsep : p sep = true) :
    ([sep].intercalate labels).all p = true ↔ ∀ label ∈ labels, ∀ ch ∈ label, p ch = true := by
  induction labels with
  | nil => simp [List.intercalate]
  | cons label rest ih =>
    cases rest with
    | nil => simp [List.intercalate]
    | cons next rest =>
      rw [List.intercalate_cons_cons]
      simp_all

theorem all_snsChar_iff (name : Bytes) :
    name.all snsChar = true ↔ ∀ label ∈ name.splitOn 46, LabelChars label := by
  obtain ⟨-, hpieces, hjoin⟩ := splitOn_eq_iff.mp (rfl : name.splitOn 46 = _)
  conv_lhs => rw [hjoin]
  rw [all_intercalate rfl]
  refine forall₂_congr fun label hlabel => forall₂_congr fun ch hch => ?_
  have hdot := ne_of_mem_of_not_mem hch (hpieces label hlabel)
  simp only [snsChar, Bool.or_eq_true, Bool.and_eq_true, beq_iff_eq, decide_eq_true_eq, ne_eq,
    ← UInt8.toNat_inj, UInt8.le_iff_toNat_le, UInt8.reduceToNat] at hdot ⊢
  omega

theorem take_append_loki (name : Bytes) :
    (name ++ ascii ".loki").take ((name ++ ascii ".loki").length - 5) = name :=
  List.take_left' (by simp [ascii])

theorem isValidSns_append (name : Bytes) : isValidSns (name ++ ascii ".loki") = true ↔
    (∀ label ∈ name.splitOn 46, LabelChars label) ∧
      PrimaryLabel ((name.splitOn 46).getLast?.getD []) := by
  rw [isValidSns, if_neg (not_not.mpr (List.suffix_append name _)), ← all_snsChar_iff,
    ← primaryOk_iff]
  simp only [take_append_loki]
  split
  · next hall => exact iff_of_false Bool.false_ne_true fun h => hall h.1
  · next hall => rw [and_iff_right (not_not.mp hall)]

/-- The validator is right about a string exactly if it is not a `.loki` name that has, besides
allowed characters in all parts and a good last one, an empty part. -/
theorem isValidSns_iff (snsName : Bytes) :
    (isValidSns snsName = true ↔ ∃ name, SnsName snsName name) ↔
      ∀ name, snsName = name ++ ascii ".loki" → (∀ label ∈ name.splitOn 46, LabelChars label) →
        PrimaryLabel ((name.splitOn 46).getLast?.getD []) → [] ∉ name.splitOn 46 := by
  constructor
  · rintro h name rfl hchars hprimary hmem
    obtain ⟨other, hother, hlabels, -⟩ := h.mp ((isValidSns_append name).mpr ⟨hchars, hprimary⟩)
    obtain rfl : name = other := List.append_cancel_right hother
    exact (hlabels [] hmem).1 rfl
  · intro h
    constructor
    · intro hvalid
      by_cases hsuffix : ascii ".loki" <:+ snsName
      · obtain ⟨name, rfl⟩ := hsuffix
        obtain ⟨hchars, hprimary⟩ := (isValidSns_append name).mp hvalid
        have hne := h name rfl hchars hprimary
        exact ⟨name, rfl, fun label hlabel =>
          ⟨fun hnil => hne (hnil ▸ hlabel), hchars label hlabel⟩, hprimary⟩
      · rw [isValidSns, if_pos hsuffix] at hvalid
        cases hvalid
    · rintro ⟨name, rfl, hlabels, hprimary⟩
      exact (isValidSns_append name).mpr ⟨fun label hlabel => (hlabels label hlabel).2, hprimary⟩

theorem emptyLabel_accepted :
    ¬(isValidSns (ascii "a..b.loki") = true ↔ ∃ name, SnsName (ascii "a..b.loki") name) := by
  intro h
  obtain ⟨name, hname, hlabels, -⟩ := h.mp (by decide +kernel)
  obtain rfl : ascii "a..b" = name := List.append_cancel_right hname
  exact (hlabels [] (by decide +kernel)).1 rfl

end SessionRouter
