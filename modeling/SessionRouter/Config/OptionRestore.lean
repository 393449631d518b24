import SessionRouter.Config.OptionValue

/-!
# Which values are restored from their text
-/

namespace SessionRouter

open Lib TextLines Binary64

theorem isDigit_of_mem_decimal {n : Nat} {byte : UInt8} (h : byte ∈ Bencode.decimal n) :
    Bencode.isDigit byte = true := by
  induction n using Nat.strong_induction_on with
  | h n ih =>
    by_cases hsmall : n < 10
    · rw [Bencode.decimal_of_lt hsmall, List.mem_singleton] at h
      rw [h]
      exact Bencode.isDigit_ofNat hsmall
    · rw [Bencode.decimal_of_le (by omega), List.mem_append, List.mem_singleton] at h
      rcases h with hfront | rfl
      · exact ih (n / 10) (by omega) hfront
      · exact Bencode.isDigit_ofNat (Nat.mod_lt n (by decide))

theorem decimal_eq_append (n : Nat) :
    ∃ front digit, Bencode.decimal n = front ++ [digit] ∧ Bencode.isDigit digit = true := by
  by_cases hsmall : n < 10
  · exact ⟨[], _, Bencode.decimal_of_lt hsmall, Bencode.isDigit_ofNat hsmall⟩
  · exact ⟨_, _, Bencode.decimal_of_le (by omega), Bencode.isDigit_ofNat (Nat.mod_lt n (by decide))⟩

theorem readDecimal_decimal_nil (n : Nat) :
    Bencode.readDecimal (Bencode.decimal n) 0 = (n, []) := by
  obtain ⟨shift, hshift⟩ := Bencode.readDecimal_decimal_append n []
  have hread := hshift 0
  rwa [List.append_nil, Nat.mul_zero, Nat.zero_add] at hread

def IsWord (text : Bytes) : Prop :=
  ∀ byte ∈ text, isSpace byte = false

theorem isSpace_of_isLineBreak {byte : UInt8} (h : isLineBreak byte = true) :
    isSpace byte = true := by
  rw [isLineBreak, Bool.or_eq_true, beq_iff_eq, beq_iff_eq] at h
  rcases h with rfl | rfl <;> decide

theorem isSpace_of_isDigit {byte : UInt8} (h : Bencode.isDigit byte = true) :
    isSpace byte = false := by
  unfold Bencode.isDigit at h
  unfold isSpace
  grind

theorem IsWord.isLine {text : Bytes} (h : IsWord text) : IsLine isLineBreak text := by
  intro byte hmem
  by_contra hbreak
  have hspace := isSpace_of_isLineBreak (by simpa using hbreak)
  rw [h byte hmem] at hspace
  cases hspace

theorem IsWord.trimmed {text : Bytes} (h : IsWord text) : Trimmed isSpace text where
  front byte hmem := h byte (List.mem_of_mem_head? hmem)
  back byte hmem := h byte (List.mem_of_mem_getLast? hmem)

theorem isWord_append_iff {left right : Bytes} :
    IsWord (left ++ right) ↔ IsWord left ∧ IsWord right := by
  simp [IsWord, or_imp, forall_and]

variable {text path : Bytes} {isSigned : Bool} {bits : Nat} (n : Int)

theorem isWord_integerText : IsWord (integerText n) := by
  refine isWord_append_iff.mpr ⟨?_, fun byte hmem => ?_⟩
  · split
    · unfold IsWord
      decide +kernel
    · nofun
  · exact isSpace_of_isDigit (isDigit_of_mem_decimal hmem)

theorem integerText_eq_append :
    ∃ front digit, integerText n = front ++ [digit] ∧ Bencode.isDigit digit = true := by
  obtain ⟨front, digit, hdecimal, hdigit⟩ := decimal_eq_append n.natAbs
  exact ⟨_ ++ front, digit, by rw [integerText, hdecimal, List.append_assoc], hdigit⟩

theorem takeSign_integerText (allowsPlus : Bool) (n : Int) :
    takeSign allowsPlus (integerText n) = (decide (n < 0), Bencode.decimal n.natAbs) := by
  by_cases hneg : n < 0
  · simp [takeSign, integerText, hneg]
  · have hnot (byte : UInt8) (hbyte : Bencode.isDigit byte = false) :
        (Bencode.decimal n.natAbs).head? ≠ some byte := by
      intro hhead
      rw [isDigit_of_mem_decimal (List.mem_of_mem_head? hhead)] at hbyte
      cases hbyte
    simp [takeSign, integerText, hneg, hnot 0x2d rfl, hnot 0x2b rfl]

theorem isDigit_headD_decimal_nil (n : Nat) :
    Bencode.isDigit ((Bencode.decimal n).headD 0) = true := by
  simpa using Bencode.isDigit_headD_decimal n []

def InRange (isSigned : Bool) (bits : Nat) (n : Int) : Prop :=
  if isSigned then -2 ^ (bits - 1) ≤ n ∧ n < 2 ^ (bits - 1) else 0 ≤ n ∧ n < 2 ^ bits

theorem numberInRange_inRange {negative : Bool}
    {magnitude : Nat} {n : Int} (h : numberInRange isSigned bits negative magnitude = some n) :
    InRange isSigned bits n := by
  have hhalf : (0 : Int) < 2 ^ (bits - 1) := by positivity
  have hsize : (0 : Int) < 2 ^ bits := by positivity
  unfold numberInRange at h
  split at h <;> split at h <;> cases h
  all_goals
    rename_i hmagnitude
    zify at hmagnitude
    simp only [InRange, if_true, Bool.false_eq_true, if_false]
  · omega
  · omega
  · exact ⟨Int.emod_nonneg _ hsize.ne', Int.emod_lt_of_pos _ hsize⟩
  · omega

theorem numberInRange_natAbs {n : Int} :
    numberInRange isSigned bits (decide (n < 0)) n.natAbs = some n ↔ InRange isSigned bits n := by
  refine ⟨numberInRange_inRange, fun h => ?_⟩
  unfold InRange at h
  cases isSigned with
  | true =>
    rw [if_pos rfl] at h
    by_cases hneg : n < 0
    · have hle : n.natAbs ≤ 2 ^ (bits - 1) := by
        zify
        rw [abs_of_neg hneg]
        omega
      simp [numberInRange, hneg, hle, abs_of_neg]
    · have hlt : n.natAbs < 2 ^ (bits - 1) := by
        zify
        rw [abs_of_nonneg (not_lt.mp hneg)]
        exact h.2
      simp [numberInRange, hneg, hlt, abs_of_nonneg (not_lt.mp hneg)]
  | false =>
    rw [if_neg Bool.false_ne_true] at h
    have hlt : n.natAbs < 2 ^ bits := by
      zify
      rw [abs_of_nonneg h.1]
      exact h.2
    simp [numberInRange, not_lt.mpr h.1, hlt, abs_of_nonneg h.1]

theorem extractInteger_inRange {text : Bytes} {n : Int}
    (h : extractInteger isSigned bits text = some n) : InRange isSigned bits n := by
  simp only [extractInteger] at h
  split at h
  · exact numberInRange_inRange h
  · cases h

theorem extractInteger_integerText {n : Int}
    (h : InRange isSigned bits n) : extractInteger isSigned bits (integerText n) = some n := by
  have hfront : (integerText n).dropWhile isSpace = integerText n :=
    dropWhile_eq_self (isWord_integerText n).trimmed.front
  simp only [extractInteger, hfront, takeSign_integerText, isDigit_headD_decimal_nil,
    readDecimal_decimal_nil, if_true]
  exact numberInRange_natAbs.mpr h

theorem parseInt_integerText_eq :
    parseInt (integerText n) = numberInRange true 32 (decide (n < 0)) n.natAbs := by
  simp only [parseInt, takeSign_integerText, isDigit_headD_decimal_nil,
    readDecimal_decimal_nil, and_self, if_true]

theorem parseInt_inRange {text : Bytes} {n : Int} (h : parseInt text = some n) :
    InRange true 32 n := by
  simp only [parseInt] at h
  split at h
  · exact numberInRange_inRange h
  · cases h

theorem parseInt_integerText {n count : Int} :
    parseInt (integerText n) = some count ↔ count = n ∧ InRange true 32 n := by
  rw [parseInt_integerText_eq]
  constructor
  · intro h
    have hcount : count = n := by
      by_cases hneg : n < 0
      · simp only [numberInRange, hneg, decide_true, Option.ite_none_right_eq_some,
          Option.some.injEq] at h
        omega
      · simp only [numberInRange, hneg, decide_false, Option.ite_none_right_eq_some,
          Option.some.injEq] at h
        omega
    subst hcount
    exact ⟨rfl, numberInRange_inRange h⟩
  · rintro ⟨rfl, hrange⟩
    exact numberInRange_natAbs.mpr hrange

theorem ascii_units : ascii "h" = [0x68] ∧ ascii "min" = [0x6d, 0x69, 0x6e] ∧
    ascii "m" = [0x6d] ∧ ascii "ms" = [0x6d, 0x73] ∧ ascii "us" = [0x75, 0x73] ∧
    ascii "ns" = [0x6e, 0x73] ∧ ascii "s" = [0x73] := by
  decide

theorem durationUnit_hours : durationUnit (integerText n ++ ascii "h") = (3600, integerText n) := by
  simp [durationUnit, ascii_units]

theorem durationUnit_minutes :
    durationUnit (integerText n ++ ascii "min") = (60, integerText n) := by
  simp [durationUnit, ascii_units, ← List.reverse_prefix]

theorem durationUnit_seconds : durationUnit (integerText n ++ ascii "s") = (1, integerText n) := by
  -- the byte in front of the suffix is a digit, so that it is no longer suffix
  obtain ⟨front, digit, htext, hdigit⟩ := integerText_eq_append n
  have hne (byte : UInt8) (h : Bencode.isDigit byte = false) : byte ≠ digit := by
    rintro rfl
    rw [hdigit] at h
    cases h
  simp [durationUnit, ascii_units, ← List.reverse_prefix, htext, hne 0x6d rfl, hne 0x75 rfl,
    hne 0x6e rfl]

theorem durationUnit_milliseconds :
    durationUnit (integerText n ++ ascii "ms") = (nearest (1 / 1000), integerText n) := by
  simp [durationUnit, ascii_units, ← List.reverse_prefix]

theorem durationUnit_nanoseconds :
    durationUnit (integerText n ++ ascii "ns") = (nearest (1 / 1000000000), integerText n) := by
  simp [durationUnit, ascii_units, ← List.reverse_prefix]

theorem durationUnit_cases (text : Bytes) :
    ((durationUnit text).1 = 3600 ∨ (durationUnit text).1 = 60 ∨ (durationUnit text).1 = 1) ∨
      (durationUnit text).1 = nearest (1 / 1000) ∨
      (durationUnit text).1 = nearest (1 / 1000000) ∨
      (durationUnit text).1 = nearest (1 / 1000000000) := by
  unfold durationUnit
  split_ifs <;> simp

theorem toTicks_whole {tick unit count perSecond : Int}
    (hscale : (second / tick : ℚ) = perSecond) (hproduct : |count * unit| < 2 ^ 53)
    (hresult : |count * unit * perSecond| < 2 ^ 53) :
    toTicks tick unit count = count * unit * perSecond := by
  have hfirst := nearest_intCast hproduct
  have hsecond := nearest_intCast hresult
  push_cast at hfirst hsecond
  rw [toTicks, hfirst, hscale, hsecond]
  exact_mod_cast roundHalfEven_intCast (count * unit * perSecond)

theorem abs_toTicks_sub_le (tick count : Int) (unit : ℚ) :
    |(toTicks tick (nearest unit) count : ℚ) - count * unit * (second / tick)| ≤
      1 / 2 + |count * unit * (second / tick)| / 2 ^ 50 :=
  (abs_sub_le _ _ _).trans
    (add_le_add (abs_roundHalfEven_sub_le _) (abs_nearest_mul_sub_le count unit _))

theorem toTicks_fraction {tick count n : Int} {unit : ℚ}
    (hexact : (count * unit * (second / tick) : ℚ) = n) (hsmall : |n| ≤ 2 ^ 31) :
    toTicks tick (nearest unit) count = n := by
  have hsmall : |(n : ℚ)| ≤ 2 ^ 31 := by exact_mod_cast hsmall
  refine roundHalfEven_eq ?_
  have herror := abs_nearest_mul_sub_le (count : ℚ) unit (second / tick)
  rw [hexact] at herror
  refine herror.trans_lt ?_
  calc |(n : ℚ)| / 2 ^ 50 ≤ 2 ^ 31 / 2 ^ 50 := div_le_div_of_nonneg_right hsmall (by positivity)
    _ < 1 / 2 := by norm_num

def IsTick (tick : Int) : Prop :=
  tick = second ∨ tick = millisecond

theorem toTicks_mul_tick {tick : Int} (htick : IsTick tick) {unit count : Int}
    (hunit : 0 ≤ unit ∧ unit ≤ 3600) (hcount : InRange true 32 count) :
    toTicks tick unit count * tick = count * (unit * second) := by
  have hrange : -2 ^ 31 ≤ count ∧ count < 2 ^ 31 := hcount
  have hproduct : |count * unit| ≤ 2 ^ 31 * 3600 := by
    rw [abs_mul]
    refine mul_le_mul (abs_le.mpr ⟨hrange.1, hrange.2.le⟩) ?_ (abs_nonneg _) (by norm_num)
    rw [abs_of_nonneg hunit.1]
    exact hunit.2
  rcases htick with rfl | rfl
  · rw [@toTicks_whole _ _ _ 1 (by norm_num [second]) (by omega) (by rw [mul_one]; omega)]
    ring
  · rw [@toTicks_whole _ _ _ 1000 (by norm_num [second, millisecond]) (by omega) ?_]
    · unfold second millisecond
      ring
    · rw [abs_mul (count * unit), abs_of_nonneg (show (0 : Int) ≤ 1000 by norm_num)]
      omega

theorem toTicks_lt {tick count : Int} {unit : ℚ} (hcount : InRange true 32 count)
    (hunit : 0 ≤ unit * (second / tick)) (hsmall : unit * (second / tick) ≤ 1 / 1000) :
    |toTicks tick (nearest unit) count| < 2148000 := by
  have hrange : -2 ^ 31 ≤ count ∧ count < 2 ^ 31 := hcount
  have hcount : |(count : ℚ)| ≤ 2 ^ 31 := by exact_mod_cast abs_le.mpr ⟨hrange.1, hrange.2.le⟩
  have hexact : |count * unit * (second / tick : ℚ)| ≤ 2 ^ 31 * (1 / 1000) := by
    rw [mul_assoc, abs_mul, abs_of_nonneg hunit]
    exact mul_le_mul hcount hsmall hunit (by norm_num)
  have herror := abs_toTicks_sub_le tick count unit
  have htriangle := abs_sub_abs_le_abs_sub (toTicks tick (nearest unit) count : ℚ)
    (count * unit * (second / tick))
  have hbound : |(toTicks tick (nearest unit) count : ℚ)| < 2148000 := by
    generalize |count * unit * (second / tick : ℚ)| = exact at *
    linarith
  exact_mod_cast hbound

theorem readDuration_multiple {tick : Int} (htick : IsTick tick) {text : Bytes} {value : Int}
    (h : readDuration tick text = some value) :
    ∃ count unit, (unit = hour ∨ unit = minute ∨ unit = second ∨ unit = tick) ∧
      value * tick = count * unit ∧ count < 2 ^ 31 := by
  obtain ⟨count, hparse, rfl⟩ := Option.map_eq_some_iff.mp h
  have hcount := parseInt_inRange hparse
  have hrange : -2 ^ 31 ≤ count ∧ count < 2 ^ 31 := hcount
  have hsmall {unit : ℚ} (hunit : |toTicks tick (nearest unit) count| < 2148000) :
      ∃ number size, (size = hour ∨ size = minute ∨ size = second ∨ size = tick) ∧
        toTicks tick (nearest unit) count * tick = number * size ∧ number < 2 ^ 31 :=
    ⟨_, tick, by simp, rfl, lt_trans (lt_of_abs_lt hunit) (by norm_num)⟩
  rcases durationUnit_cases text with (hunit | hunit | hunit) | hunit | hunit | hunit <;>
    rw [hunit]
  · refine ⟨count, hour, by simp, ?_, hrange.2⟩
    exact_mod_cast @toTicks_mul_tick _ htick 3600 count (by norm_num) hcount
  · refine ⟨count, minute, by simp, ?_, hrange.2⟩
    exact_mod_cast @toTicks_mul_tick _ htick 60 count (by norm_num) hcount
  · refine ⟨count, second, by simp, ?_, hrange.2⟩
    have hticks := @toTicks_mul_tick _ htick 1 count (by norm_num) hcount
    rw [one_mul] at hticks
    exact_mod_cast hticks
  · rcases htick with rfl | rfl
    · exact hsmall (toTicks_lt hcount (by norm_num [second]) (by norm_num [second]))
    · refine ⟨count, millisecond, by simp, ?_, hrange.2⟩
      rw [@toTicks_fraction _ count count _ (by norm_num [second, millisecond]; ring)
        (abs_le.mpr ⟨hrange.1, hrange.2.le⟩)]
  · refine hsmall (toTicks_lt hcount ?_ ?_) <;> rcases htick with rfl | rfl <;>
      norm_num [second, millisecond]
  · refine hsmall (toTicks_lt hcount ?_ ?_) <;> rcases htick with rfl | rfl <;>
      norm_num [second, millisecond]

theorem readDuration_integerText_iff {tick : Int} {suffix : Bytes} {unit : ℚ} {n value : Int}
    (h : durationUnit (integerText n ++ suffix) = (unit, integerText n)) :
    readDuration tick (integerText n ++ suffix) = some value ↔
      InRange true 32 n ∧ toTicks tick unit n = value := by
  simp [readDuration, h, parseInt_integerText, and_assoc]

section Restore

variable {tick value : Int}

theorem IsTick.pos (htick : IsTick tick) : 0 < tick := by
  rcases htick with rfl | rfl <;> norm_num [second, millisecond]

theorem readDuration_whole_units (htick : IsTick tick) {suffix : Bytes} {unit : Int}
    (hunit : 0 < unit ∧ unit ≤ 3600)
    (hsuffix : ∀ n, durationUnit (integerText n ++ suffix) = ((unit : ℚ), integerText n))
    (hdvd : value * tick % (unit * second) = 0)
    (hrange : InRange true 32 (value * tick / (unit * second))) :
    readDuration tick (integerText (value * tick / (unit * second)) ++ suffix) = some value := by
  refine (readDuration_integerText_iff (hsuffix _)).mpr ⟨hrange, ?_⟩
  have hticks := toTicks_mul_tick htick ⟨hunit.1.le, hunit.2⟩ hrange
  rw [Int.ediv_mul_cancel (Int.dvd_of_emod_eq_zero hdvd)] at hticks
  exact mul_right_cancel₀ htick.pos.ne' hticks

theorem inRange_div {nanoseconds count unit size : Int} (hpos : 0 < nanoseconds)
    (hmultiple : nanoseconds = count * unit) (hunit : 0 < unit) (hcount : count < 2 ^ 31)
    (hsize : unit ≤ size) : InRange true 32 (nanoseconds / size) := by
  have hless : nanoseconds / size ≤ count := by
    refine Int.le_of_lt_add_one (Int.ediv_lt_of_lt_mul (hunit.trans_le hsize) ?_)
    have hcount : 0 < count := by
      by_contra hnot
      nlinarith
    nlinarith
  have hnonneg : 0 ≤ nanoseconds / size := Int.ediv_nonneg hpos.le (hunit.le.trans hsize)
  show -2 ^ 31 ≤ nanoseconds / size ∧ nanoseconds / size < 2 ^ 31
  omega

theorem IsTick.le_second (htick : IsTick tick) : tick ≤ second := by
  rcases htick with rfl | rfl <;> norm_num [second, millisecond]

theorem readDuration_durationText_pos (htick : IsTick tick) {text : Bytes}
    (haccepted : readDuration tick text = some value) (hpos : 0 < value) :
    readDuration tick (durationText tick value) = some value ↔ second ∣ value * tick := by
  obtain ⟨count, unit, hunit, hmultiple, hcount⟩ := readDuration_multiple htick haccepted
  have hnanoseconds : 0 < value * tick := mul_pos hpos htick.pos
  have hunitpos : 0 < unit := by
    have := htick.pos
    unfold hour minute second at hunit
    omega
  -- the printed unit is the largest one that divides the duration, so at least that of the text
  have hdivides : unit ≤ value * tick ∧ value * tick % unit = 0 := by
    have hdvd : unit ∣ value * tick := hmultiple ▸ Dvd.intro_left count rfl
    exact ⟨Int.le_of_dvd hnanoseconds hdvd, Int.emod_eq_zero_of_dvd hdvd⟩
  have hwhole {suffix : Bytes} {factor : Int} (hfactor : 0 < factor ∧ factor ≤ 3600)
      (hsuffix : ∀ n, durationUnit (integerText n ++ suffix) = ((factor : ℚ), integerText n))
      (hsize : factor * second ≤ value * tick ∧ value * tick % (factor * second) = 0)
      (hle : unit ≤ factor * second) :
      readDuration tick (integerText (value * tick / (factor * second)) ++ suffix) = some value ↔
        second ∣ value * tick := by
    refine iff_of_true (readDuration_whole_units htick hfactor hsuffix hsize.2
      (inRange_div hnanoseconds hmultiple hunitpos hcount hle)) ?_
    exact (Dvd.intro_left factor rfl).trans (Int.dvd_of_emod_eq_zero hsize.2)
  have htickle := htick.le_second
  have hhour : hour = 3600 * second := by norm_num [hour, second]
  have hminute : minute = 60 * second := by norm_num [minute, second]
  have hsecond : second = 1 * second := by norm_num [second]
  simp only [durationText, hpos.ne', if_false]
  split
  · next hhours =>
    rw [hhour] at hhours ⊢
    refine hwhole (by norm_num) (by exact_mod_cast durationUnit_hours) hhours ?_
    unfold hour minute second at *
    omega
  · next hhours =>
    have hunit : unit = minute ∨ unit = second ∨ unit = tick := by
      refine hunit.resolve_left ?_
      rintro rfl
      exact hhours hdivides
    split
    · next hminutes =>
      rw [hminute] at hminutes ⊢
      refine hwhole (by norm_num) (by exact_mod_cast durationUnit_minutes) hminutes ?_
      unfold minute second at *
      omega
    · next hminutes =>
      have hunit : unit = second ∨ unit = tick := by
        refine hunit.resolve_left ?_
        rintro rfl
        exact hminutes hdivides
      split
      · next hseconds =>
        rw [hsecond] at hseconds ⊢
        refine hwhole (by norm_num) (by exact_mod_cast durationUnit_seconds) hseconds ?_
        omega
      · next hseconds =>
        have hnot : ¬ second ∣ value * tick := fun hdvd =>
          hseconds ⟨Int.le_of_dvd hnanoseconds hdvd, Int.emod_eq_zero_of_dvd hdvd⟩
        refine iff_of_false ?_ hnot
        rcases htick with rfl | rfl
        · exact absurd (Dvd.intro_left value rfl) hnot
        · have hms : millisecond ≤ value * millisecond ∧
              value * millisecond % millisecond = 0 :=
            ⟨le_mul_of_one_le_left (by norm_num [millisecond]) hpos, by simp⟩
          rw [if_pos hms, readDuration_integerText_iff (durationUnit_milliseconds _)]
          rintro ⟨hrange, hticks⟩
          have hrange : -2 ^ 31 ≤ value * millisecond / second ∧
            value * millisecond / second < 2 ^ 31 := hrange
          rw [@toTicks_fraction _ _ (value * millisecond / second) _
            (by norm_num [second, millisecond]; ring) (abs_le.mpr ⟨hrange.1, hrange.2.le⟩)]
            at hticks
          unfold second millisecond at hticks
          omega

theorem bmod_nanoseconds {nanoseconds : Int} (h : -2 ^ 62 ≤ nanoseconds ∧ nanoseconds < 2 ^ 62) :
    nanoseconds.bmod (2 ^ 64) = nanoseconds :=
  Int.bmod_eq_of_le (by norm_num; omega) (by norm_num; omega)

theorem readDuration_durationText_neg (htick : IsTick tick) (hneg : value < 0) :
    readDuration tick (durationText tick value) = some value ↔ -2 ^ 31 ≤ value * tick := by
  have hnanoseconds : value * tick < 0 := mul_neg_of_neg_of_pos hneg htick.pos
  have hnot {size : Int} (hsize : 0 ≤ size) : ¬ (size ≤ value * tick ∧ value * tick % size = 0) :=
    fun h => by omega
  simp only [durationText, hneg.ne, if_false]
  rw [if_neg (hnot (by norm_num [hour])), if_neg (hnot (by norm_num [minute])),
    if_neg (hnot (by norm_num [second])), if_neg (hnot (by norm_num [millisecond])),
    if_neg (hnot (by norm_num [microsecond])),
    readDuration_integerText_iff (durationUnit_nanoseconds _)]
  constructor
  · rintro ⟨hrange, hticks⟩
    have hsmall : |value| < 2148000 := by
      rw [← hticks]
      refine toTicks_lt hrange ?_ ?_ <;> rcases htick with rfl | rfl <;>
        norm_num [second, millisecond]
    rw [abs_of_neg hneg] at hsmall
    rw [bmod_nanoseconds] at hrange
    · exact hrange.1
    · have hpos := htick.pos
      have hle := htick.le_second
      unfold second at hle
      constructor <;> nlinarith
  · intro hle
    rw [bmod_nanoseconds (by omega)]
    refine ⟨⟨hle, by omega⟩, toTicks_fraction ?_ ?_⟩
    · have := htick.pos
      push_cast
      field_simp
      norm_num [second]
    · rw [abs_of_neg hneg]
      nlinarith [htick.pos]

def DurationRestored (tick value : Int) : Prop :=
  -2 ^ 31 ≤ value * tick ∧ (0 < value → second ∣ value * tick)

theorem readDuration_durationText_iff (htick : IsTick tick) {text : Bytes}
    (haccepted : readDuration tick text = some value) :
    readDuration tick (durationText tick value) = some value ↔ DurationRestored tick value := by
  unfold DurationRestored
  rcases lt_trichotomy value 0 with hneg | rfl | hpos
  · simp [readDuration_durationText_neg htick hneg, hneg.le]
  · refine iff_of_true ?_ (by norm_num)
    simp only [durationText, if_true]
    rw [readDuration_integerText_iff (durationUnit_seconds 0)]
    exact ⟨⟨by norm_num, by norm_num⟩, by simp [toTicks, nearest, roundHalfEven]⟩
  · have hlow : -2 ^ 31 ≤ value * tick := by
      have := mul_pos hpos htick.pos
      omega
    rw [readDuration_durationText_pos htick haccepted hpos]
    exact ⟨fun hdvd => ⟨hlow, fun _ => hdvd⟩, fun h => h.2 hpos⟩

end Restore

theorem isWord_durationText (tick value : Int) : IsWord (durationText tick value) := by
  have hunit (n : Int) (suffix : Bytes) (h : IsWord suffix) : IsWord (integerText n ++ suffix) :=
    isWord_append_iff.mpr ⟨isWord_integerText n, h⟩
  simp only [durationText]
  split_ifs <;> exact hunit _ _ (by unfold IsWord; decide +kernel)

theorem parseBoolean_boolText (value : Bool) : parseBoolean (boolText value) = some value := by
  cases value <;> decide

theorem isWord_boolText (value : Bool) : IsWord (boolText value) := by
  unfold IsWord
  cases value <;> decide +kernel

theorem length_readQuoted (h : readQuoted text = some path) :
    path.length < text.length := by
  induction text using readQuoted.induct generalizing path with
  | case1 => cases h
  | case2 rest =>
    cases h
    simp
  | case3 byte rest ih =>
    obtain ⟨inner, hinner, rfl⟩ := Option.map_eq_some_iff.mp h
    have := ih hinner
    simp only [List.length_cons]
    omega
  | case4 => cases h
  | case5 byte rest hquote hescape hlast ih =>
    rw [readQuoted.eq_5 _ _ hquote hescape hlast] at h
    obtain ⟨inner, hinner, rfl⟩ := Option.map_eq_some_iff.mp h
    simpa using ih hinner

theorem mem_of_mem_readQuoted (h : readQuoted text = some path) {byte : UInt8}
    (hmem : byte ∈ path) : byte ∈ text := by
  induction text using readQuoted.induct generalizing path with
  | case1 => cases h
  | case2 rest =>
    cases h
    cases hmem
  | case3 first rest ih =>
    obtain ⟨inner, hinner, rfl⟩ := Option.map_eq_some_iff.mp h
    rcases List.mem_cons.mp hmem with rfl | hmem
    · simp
    · simp [ih hinner hmem]
  | case4 => cases h
  | case5 first rest hquote hescape hlast ih =>
    rw [readQuoted.eq_5 _ _ hquote hescape hlast] at h
    obtain ⟨inner, hinner, rfl⟩ := Option.map_eq_some_iff.mp h
    rcases List.mem_cons.mp hmem with rfl | hmem
    · simp
    · simp [ih hinner hmem]

theorem extractPath_cases (h : extractPath text = some path) :
    (∃ rest, text.dropWhile isSpace = 0x22 :: rest ∧ readQuoted rest = some path) ∨
      (text.dropWhile isSpace ≠ [] ∧ (text.dropWhile isSpace).head? ≠ some 0x22 ∧
        path = (text.dropWhile isSpace).takeWhile fun byte => !isSpace byte) := by
  unfold extractPath at h
  split at h
  · cases h
  · next rest hrest => exact .inl ⟨rest, hrest, h⟩
  · next hempty hquote =>
    cases h
    refine .inr ⟨hempty, fun hhead => ?_, rfl⟩
    obtain ⟨rest, hrest⟩ := List.head?_eq_some_iff.mp hhead
    exact hquote rest hrest

theorem isLine_extractPath (h : extractPath text = some path)
    (hline : IsLine isLineBreak text) : IsLine isLineBreak path := by
  have hsub := (List.dropWhile_suffix (l := text) isSpace).subset
  rcases extractPath_cases h with ⟨rest, hrest, hquoted⟩ | ⟨-, -, rfl⟩
  · intro byte hmem
    refine hline byte (hsub ?_)
    rw [hrest]
    exact List.mem_cons_of_mem _ (mem_of_mem_readQuoted hquoted hmem)
  · exact fun byte hmem => hline byte (hsub ((List.takeWhile_prefix _).subset hmem))

theorem extractPath_trim_iff {path : Bytes} :
    extractPath (trim isSpace path) = some path ↔
      path ≠ [] ∧ IsWord path ∧ path.head? ≠ some 0x22 := by
  constructor
  · intro h
    have hfront := dropWhile_eq_self (@trimmed_trim _ isSpace path).front
    have hlength := @length_trim_le _ isSpace path
    rcases extractPath_cases h with ⟨rest, hrest, hquoted⟩ | ⟨hne, hhead, hword⟩
    · have hshorter := length_readQuoted hquoted
      rw [hfront] at hrest
      rw [hrest, List.length_cons] at hlength
      omega
    · rw [hfront] at hne hhead hword
      obtain ⟨first, rest, htext⟩ := List.exists_cons_of_ne_nil hne
      have hspace := (@trimmed_trim _ isSpace path).front first (by simp [htext])
      rw [htext, List.takeWhile_cons_of_pos (by simp [hspace])] at hword
      refine ⟨by simp [hword], ?_, ?_⟩
      · intro byte hmem
        rw [hword, ← List.takeWhile_cons_of_pos (p := fun byte => !isSpace byte)
          (by simp [hspace])] at hmem
        simpa using List.mem_takeWhile_imp hmem
      · rw [hword, List.head?_cons]
        rwa [htext, List.head?_cons] at hhead
  · rintro ⟨hne, hword, hhead⟩
    rw [hword.trimmed.trim_eq, extractPath, dropWhile_eq_self hword.trimmed.front]
    split
    · exact absurd rfl hne
    · simp at hhead
    · rw [List.takeWhile_eq_self_iff.mpr]
      intro byte hmem
      simp [hword byte hmem]

namespace OptionKind

def Restored : (kind : OptionKind) → kind.Value → Prop
  | .string, value => IsLine isLineBreak value ∧ Trimmed isSpace value
  | .seconds, value => DurationRestored second value
  | .milliseconds, value => DurationRestored millisecond value
  | .path, value => value ≠ [] ∧ IsWord value ∧ value.head? ≠ some 0x22
  | _, _ => True

variable {kind : OptionKind}

theorem isLine_valueText {text : Bytes} {value : kind.Value}
    (h : kind.fromString text = some value) (hline : IsLine isLineBreak text) :
    IsLine isLineBreak (kind.valueText value) := by
  cases kind with
  | string =>
    cases h
    exact hline
  | bool => exact (isWord_boolText value).isLine
  | int | uint16 | uint64 => exact (isWord_integerText value).isLine
  | seconds | milliseconds => exact (isWord_durationText _ value).isLine
  | path => exact isLine_extractPath h hline

theorem Restored.isLine_trimmed {value : kind.Value}
    (h : kind.Restored value) :
    IsLine isLineBreak (kind.valueText value) ∧ Trimmed isSpace (kind.valueText value) := by
  have hword {text : Bytes} (h : IsWord text) : IsLine isLineBreak text ∧ Trimmed isSpace text :=
    ⟨h.isLine, h.trimmed⟩
  cases kind with
  | string => exact h
  | bool => exact hword (isWord_boolText value)
  | int | uint16 | uint64 => exact hword (isWord_integerText value)
  | seconds | milliseconds => exact hword (isWord_durationText _ value)
  | path => exact hword h.2.1

theorem fromString_trim_iff {text : Bytes} {value : kind.Value}
    (haccepted : kind.fromString text = some value)
    (hline : IsLine isLineBreak (kind.valueText value)) :
    kind.fromString (trim isSpace (kind.valueText value)) = some value ↔ kind.Restored value := by
  have hinteger {isSigned : Bool} {bits : Nat} {n : Int}
      (h : extractInteger isSigned bits text = some n) :
      extractInteger isSigned bits (trim isSpace (integerText n)) = some n := by
    rw [(isWord_integerText n).trimmed.trim_eq]
    exact extractInteger_integerText (extractInteger_inRange h)
  cases kind with
  | string =>
    simp only [fromString, valueText, Restored, Option.some.injEq, trim_eq_self_iff]
    exact ⟨fun h => ⟨hline, h⟩, And.right⟩
  | bool =>
    refine iff_of_true ?_ trivial
    rw [valueText, (isWord_boolText value).trimmed.trim_eq]
    exact parseBoolean_boolText value
  | int | uint16 | uint64 => exact iff_of_true (hinteger haccepted) trivial
  | seconds =>
    rw [valueText, (isWord_durationText _ value).trimmed.trim_eq]
    exact readDuration_durationText_iff (.inl rfl) haccepted
  | milliseconds =>
    rw [valueText, (isWord_durationText _ value).trimmed.trim_eq]
    exact readDuration_durationText_iff (.inr rfl) haccepted
  | path => exact extractPath_trim_iff

end OptionKind
end SessionRouter
