import SessionRouter.Lib.Split
import SessionRouter.Lib.Wire
import Mathlib.Data.Finset.Card

/-!
# Domain names
-/

namespace Lib.DomainName

def dot : UInt8 := 46

def dotted : List Bytes → Bytes
  | [] => []
  | [label] => label
  | label :: next :: rest => label ++ dot :: dotted (next :: rest)

def wireLabel (label : Bytes) : Bytes :=
  UInt8.ofNat label.length :: label

def wire (labels : List Bytes) : Bytes :=
  labels.flatMap wireLabel ++ [0]

structure ValidLabel (label : Bytes) : Prop where
  nonempty : label ≠ []
  dotFree : dot ∉ label
  short : label.length ≤ 63

theorem dotted_cons_of_ne_nil (label : Bytes) {rest : List Bytes} (h : rest ≠ []) :
    dotted (label :: rest) = label ++ dot :: dotted rest := by
  cases rest with
  | nil => exact absurd rfl h
  | cons next rest => rfl

theorem dotted_append {front back : List Bytes} (hfront : front ≠ []) (hback : back ≠ []) :
    dotted (front ++ back) = dotted front ++ dot :: dotted back := by
  induction front with
  | nil => exact absurd rfl hfront
  | cons label front ih =>
    cases front with
    | nil => exact dotted_cons_of_ne_nil label hback
    | cons next front =>
      rw [List.cons_append, dotted_cons_of_ne_nil label (by simp), ih (List.cons_ne_nil _ _),
        dotted_cons_of_ne_nil label (List.cons_ne_nil _ _), List.append_assoc, List.cons_append]

theorem splitOn_dot_append {label : Bytes} (front : Bytes) (h : dot ∉ label) :
    (front ++ dot :: label).splitOn dot = front.splitOn dot ++ [label] := by
  rw [List.splitOn_eq_splitOnP, List.splitOnP_append_cons _ _ (by simp),
    ← List.splitOn_eq_splitOnP, ← List.splitOn_eq_splitOnP, Split.splitOn_of_notMem h]

/-! ## Reading a name -/

inductive NameStep where
  | root
  | label (label : Bytes) (next : Nat)
  | pointer (target : Nat)

def nameStep (msg : Bytes) (pos : Nat) : Option NameStep :=
  match msg[pos]? with
  | none => none
  | some byte =>
    if byte = 0 then some .root
    else if byte.toNat ≤ 63 then
      (Wire.takeBytes byte.toNat msg (pos + 1)).map fun found => .label found.1 found.2
    else if 192 ≤ byte.toNat then
      (msg[pos + 1]?).map fun low => .pointer ((byte.toNat - 192) * 256 + low.toNat)
    else none

def readNameFrom (msg : Bytes) : Nat → Nat → Option (List Bytes × Nat)
  | 0, _ => none
  | fuel + 1, pos =>
    match nameStep msg pos with
    | none => none
    | some .root => some ([], pos + 1)
    | some (.label label next) =>
      (readNameFrom msg fuel next).map fun rest => (label :: rest.1, rest.2)
    | some (.pointer target) => (readNameFrom msg fuel target).map fun rest => (rest.1, pos + 2)

def readName : Parser (List Bytes) := fun msg pos =>
  readNameFrom msg msg.length pos

variable {msg : Bytes}

def NameStep.next : NameStep → Option Nat
  | .root => none
  | .label _ next => some next
  | .pointer target => some target

def NameStep.finish (pos : Nat) : NameStep → List Bytes × Nat → List Bytes × Nat
  | .root, _ => ([], pos + 1)
  | .label text _, rest => (text :: rest.1, rest.2)
  | .pointer _, rest => (rest.1, pos + 2)

theorem readNameFrom_succ (msg : Bytes) (fuel pos : Nat) :
    readNameFrom msg (fuel + 1) pos =
      (nameStep msg pos).bind fun step =>
        match step.next with
        | none => some ([], pos + 1)
        | some next => (readNameFrom msg fuel next).map (step.finish pos) := by
  rw [readNameFrom]
  rcases nameStep msg pos with _ | _ | _ | _ <;> rfl

variable {pos : Nat}

theorem readNameFrom_mono {fuel more : Nat} {found : List Bytes × Nat}
    (h : readNameFrom msg fuel pos = some found) (hle : fuel ≤ more) :
    readNameFrom msg more pos = some found := by
  induction fuel generalizing more pos found with
  | zero => cases h
  | succ fuel ih =>
    obtain ⟨more, rfl⟩ : ∃ fewer, more = fewer + 1 := ⟨more - 1, by omega⟩
    rw [readNameFrom_succ, Option.bind_eq_some_iff] at h ⊢
    obtain ⟨step, hstep, h⟩ := h
    refine ⟨step, hstep, ?_⟩
    cases hnext : step.next with
    | none => simpa [hnext] using h
    | some next =>
      rw [hnext] at h
      obtain ⟨rest, hrest, rfl⟩ := Option.map_eq_some_iff.mp h
      exact Option.map_eq_some_iff.mpr ⟨rest, ih hrest (by omega), rfl⟩

/-! ### A name that can be read is read in time -/

structure Takes (msg : Bytes) (pos steps : Nat) : Prop where
  enough : readNameFrom msg steps pos ≠ none
  least : ∀ fewer < steps, readNameFrom msg fewer pos = none

variable {steps : Nat}

theorem Takes.unique {others : Nat} (h : Takes msg pos steps) (hother : Takes msg pos others) :
    steps = others := by
  rcases lt_trichotomy steps others with hlt | heq | hgt
  · exact absurd (hother.least steps hlt) h.enough
  · exact heq
  · exact absurd (h.least others hgt) hother.enough

theorem exists_takes {fuel : Nat} (h : readNameFrom msg fuel pos ≠ none) :
    ∃ steps ≤ fuel, Takes msg pos steps := by
  have hexists : ∃ steps, readNameFrom msg steps pos ≠ none := ⟨fuel, h⟩
  refine ⟨Nat.find hexists, Nat.find_min' hexists h, Nat.find_spec hexists, ?_⟩
  intro fewer hfewer
  simpa using Nat.find_min hexists hfewer

theorem Takes.lt_length (h : Takes msg pos steps) : pos < msg.length := by
  by_contra hpos
  apply h.enough
  cases steps with
  | zero => rfl
  | succ steps =>
    have hnone : nameStep msg pos = none := by rw [nameStep, List.getElem?_eq_none (by omega)]
    rw [readNameFrom, hnone]

theorem Takes.next (h : Takes msg pos (steps + 2)) : ∃ next, Takes msg next (steps + 1) := by
  obtain ⟨found, hfound⟩ := Option.ne_none_iff_exists'.mp h.enough
  have hleast (fewer : Nat) (hfewer : fewer < steps + 1) := h.least (fewer + 1) (by omega)
  simp only [readNameFrom_succ] at hleast
  rw [readNameFrom_succ, Option.bind_eq_some_iff] at hfound
  obtain ⟨step, hstep, hfound⟩ := hfound
  simp only [hstep, Option.bind_some] at hleast
  cases hnext : step.next with
  | none => simpa [hnext] using hleast 0 (by omega)
  | some next =>
    rw [hnext] at hfound
    obtain ⟨rest, hrest, -⟩ := Option.map_eq_some_iff.mp hfound
    refine ⟨next, by simp [hrest], fun fewer hfewer => ?_⟩
    simpa [hnext] using hleast fewer hfewer

theorem Takes.exists_of_le (h : Takes msg pos steps) {fewer : Nat} (hpos : 0 < fewer)
    (hle : fewer ≤ steps) : ∃ next, Takes msg next fewer := by
  induction steps generalizing pos with
  | zero => omega
  | succ steps ih =>
    rcases Nat.lt_or_eq_of_le hle with hlt | rfl
    · obtain ⟨before, rfl⟩ : ∃ before, steps = before + 1 := ⟨steps - 1, by omega⟩
      obtain ⟨next, hnext⟩ := h.next
      exact ih hnext (by omega)
    · exact ⟨pos, h⟩

theorem Takes.le_length (h : Takes msg pos steps) : steps ≤ msg.length := by
  have hvisits (step : Nat) (hstep : step < steps) : ∃ at_, Takes msg at_ (step + 1) :=
    h.exists_of_le (by omega) hstep
  choose! at_ hat using hvisits
  have hinj : Set.InjOn at_ (Finset.range steps) := by
    intro first hfirst second hsecond heq
    have htakes := hat first (by simpa using hfirst)
    rw [heq] at htakes
    have hsteps := htakes.unique (hat second (by simpa using hsecond))
    omega
  have himage : (Finset.range steps).image at_ ⊆ Finset.range msg.length := by
    intro pos hpos
    obtain ⟨step, hstep, rfl⟩ := Finset.mem_image.mp hpos
    exact Finset.mem_range.mpr (hat step (Finset.mem_range.mp hstep)).lt_length
  have hcard := Finset.card_le_card himage
  rwa [Finset.card_image_of_injOn hinj, Finset.card_range, Finset.card_range] at hcard

theorem readName_of_readNameFrom {fuel : Nat} {found : List Bytes × Nat}
    (h : readNameFrom msg fuel pos = some found) : readName msg pos = some found := by
  obtain ⟨steps, hle, htakes⟩ := exists_takes (h ▸ Option.some_ne_none found)
  obtain ⟨same, hsame⟩ := Option.ne_none_iff_exists'.mp htakes.enough
  obtain rfl := Option.some.inj ((readNameFrom_mono hsame hle).symm.trans h)
  exact readNameFrom_mono hsame htakes.le_length

theorem readName_eq (msg : Bytes) (pos : Nat) :
    readName msg pos =
      (nameStep msg pos).bind fun step =>
        match step.next with
        | none => some ([], pos + 1)
        | some next => (readName msg next).map (step.finish pos) := by
  apply Option.ext
  intro found
  have hsucc := readNameFrom_succ msg msg.length pos
  constructor
  · intro h
    have hmore := readNameFrom_mono h (Nat.le_succ _)
    rw [hsucc] at hmore
    exact hmore
  · intro h
    exact readName_of_readNameFrom (hsucc.trans h)

/-! ### What can stand in a message -/

open Wire

def pointerWord (offset : Nat) : Nat :=
  0xC000 ||| offset

theorem pointerWord_eq {offset : Nat} (h : offset < 2 ^ 16) :
    pointerWord offset = 0xC000 + offset % 2 ^ 14 := by
  have hadd : 0xC000 + offset % 2 ^ 14 = 0xC000 ||| offset % 2 ^ 14 :=
    Nat.shiftLeft_add_eq_or_of_lt (Nat.mod_lt offset (show 0 < 2 ^ 14 by decide)) 3
  rw [hadd, pointerWord]
  apply Nat.eq_of_testBit_eq
  intro bit
  rw [Nat.testBit_or, Nat.testBit_or, Nat.testBit_mod_two_pow]
  by_cases hlow : bit < 14
  · simp [hlow]
  · by_cases hhigh : bit < 16
    · obtain rfl | rfl : bit = 14 ∨ bit = 15 := by omega
      · rfl
      · rfl
    · have hzero : offset.testBit bit = false :=
        Nat.testBit_lt_two_pow (lt_of_lt_of_le h (Nat.pow_le_pow_right (by decide) (by omega)))
      simp [hzero, hlow]

theorem storeBig_two (value : Nat) :
    storeBig 2 value = [UInt8.ofNat (value / 256 % 256), UInt8.ofNat (value % 256)] := by
  simp [storeBig, storeLittle]

variable {pos : Nat}

theorem readName_root (h : Has msg pos [0]) : readName msg pos = some ([], pos + 1) := by
  rw [readName_eq, nameStep, h.getElem?]
  rfl

theorem readName_label {label : Bytes} (h : Has msg pos (wireLabel label)) (hne : label ≠ [])
    (hshort : label.length ≤ 63) :
    readName msg pos =
      (readName msg (pos + (wireLabel label).length)).map fun rest =>
        (label :: rest.1, rest.2) := by
  have hlength : (UInt8.ofNat label.length).toNat = label.length := by
    rw [UInt8.toNat_ofNat']
    exact Nat.mod_eq_of_lt (by omega)
  have hzero : UInt8.ofNat label.length ≠ 0 := by
    intro hzero
    rw [hzero] at hlength
    exact hne (List.length_eq_zero_iff.mp hlength.symm)
  have htake := Has.takeBytes h.tail h.lt_length
  have hnext : pos + (wireLabel label).length = pos + 1 + label.length := by
    rw [wireLabel, List.length_cons]
    omega
  rw [readName_eq, nameStep, h.getElem?]
  simp only [hzero, hlength, hshort, htake, hnext, if_true, if_false, Option.map_some,
    Option.bind_some]
  rfl

theorem readName_pointer {offset : Nat} (h : Has msg pos (storeBig 2 (pointerWord offset)))
    (hoffset : offset < 2 ^ 16) :
    readName msg pos =
      (readName msg (offset % 2 ^ 14)).map fun rest => (rest.1, pos + 2) := by
  rw [pointerWord_eq hoffset, storeBig_two] at h
  have hlow := h.tail.getElem?
  have hhigh : (UInt8.ofNat ((0xC000 + offset % 2 ^ 14) / 256 % 256)).toNat =
      192 + offset % 2 ^ 14 / 256 := by
    rw [UInt8.toNat_ofNat']
    omega
  have htarget : (192 + offset % 2 ^ 14 / 256 - 192) * 256 +
      (UInt8.ofNat ((0xC000 + offset % 2 ^ 14) % 256)).toNat = offset % 2 ^ 14 := by
    rw [UInt8.toNat_ofNat']
    omega
  have hzero : UInt8.ofNat ((0xC000 + offset % 2 ^ 14) / 256 % 256) ≠ 0 := by
    intro hzero
    rw [hzero, UInt8.toNat_zero] at hhigh
    omega
  have hlong : ¬ 192 + offset % 2 ^ 14 / 256 ≤ 63 := by omega
  rw [readName_eq, nameStep, h.getElem?]
  simp only [hzero, hhigh, hlong, hlow, htarget, Nat.le_add_right, if_true, if_false,
    Option.map_some, Option.bind_some]
  rfl

end Lib.DomainName
