import SessionRouter.Lib.Bytes

/-!
# Bencoding
-/

namespace Lib
namespace Bencode

def isDigit (byte : UInt8) : Bool :=
  0x30 ≤ byte && byte ≤ 0x39

def decimal (n : Nat) : Bytes :=
  (Nat.toDigits 10 n).map fun c => UInt8.ofNat c.toNat

def encodeString (s : Bytes) : Bytes :=
  decimal s.length ++ 0x3a :: s

def encodeInt (i : Int) : Bytes :=
  0x69 :: ((if i < 0 then [0x2d] else []) ++ decimal i.natAbs ++ [0x65])

def encodeList (values : List Bytes) : Bytes :=
  0x6c :: (values.flatten ++ [0x65])

def encodeEntries (entries : List (Bytes × Bytes)) : Bytes :=
  entries.flatMap fun entry => encodeString entry.1 ++ entry.2

def encodeDict (entries : List (Bytes × Bytes)) : Bytes :=
  0x64 :: (encodeEntries entries ++ [0x65])

def encodeSigned (entries : List (Bytes × Bytes)) (key : Bytes) (sign : Bytes → Bytes) : Bytes :=
  encodeDict (entries ++ [(key, encodeString (sign (0x64 :: encodeEntries entries)))])

def readDecimal : Bytes → Nat → Nat × Bytes
  | [], acc => (acc, [])
  | byte :: rest, acc =>
    if isDigit byte then readDecimal rest (10 * acc + (byte.toNat - 0x30))
    else (acc, byte :: rest)

def readString (bytes : Bytes) : Option (Bytes × Bytes) :=
  if isDigit (bytes.headD 0) then
    match readDecimal bytes 0 with
    | (size, 0x3a :: rest) =>
      if size ≤ rest.length then some (rest.take size, rest.drop size) else none
    | _ => none
  else none

def readFixed (size : Nat) (bytes : Bytes) : Option (FixedBytes size × Bytes) :=
  match readString bytes with
  | none => none
  | some (s, rest) => (FixedBytes.ofBytes? size s).map fun buffer => (buffer, rest)

def readIntBody (bytes : Bytes) : Option (Nat × Bytes) :=
  if isDigit (bytes.headD 0) then
    match readDecimal bytes 0 with
    | (n, 0x65 :: rest) => some (n, rest)
    | _ => none
  else none

def readInt (bytes : Bytes) : Option (Int × Bytes) :=
  match bytes with
  | 0x69 :: 0x2d :: rest => (readIntBody rest).map fun (n, rest) => (-(n : Int), rest)
  | 0x69 :: rest => (readIntBody rest).map fun (n, rest) => ((n : Int), rest)
  | _ => none

mutual

def skipValue : Nat → Bytes → Option Bytes
  | 0, _ => none
  | fuel + 1, bytes =>
    match bytes with
    | 0x69 :: _ => (readInt bytes).map Prod.snd
    | 0x6c :: rest => skipList fuel rest
    | 0x64 :: rest => skipDict fuel rest
    | _ => (readString bytes).map Prod.snd

def skipList : Nat → Bytes → Option Bytes
  | 0, _ => none
  | fuel + 1, bytes =>
    match bytes with
    | 0x65 :: rest => some rest
    | _ =>
      match skipValue fuel bytes with
      | none => none
      | some rest => skipList fuel rest

def skipDict : Nat → Bytes → Option Bytes
  | 0, _ => none
  | fuel + 1, bytes =>
    match bytes with
    | 0x65 :: rest => some rest
    | _ =>
      match readString bytes with
      | none => none
      | some (_, rest) =>
        match skipValue fuel rest with
        | none => none
        | some rest => skipDict fuel rest

end

def skipFuel (bytes : Bytes) : Nat :=
  2 * bytes.length + 2

def readIntIn (low high : Int) (bytes : Bytes) : Option (Int × Bytes) :=
  match readInt bytes with
  | none => none
  | some (i, rest) => if low ≤ i ∧ i ≤ high then some (i, rest) else none

def readUnsigned (bits : Nat) (bytes : Bytes) : Option (Nat × Bytes) :=
  (readIntIn 0 (2 ^ bits - 1) bytes).map fun (i, rest) => (i.toNat, rest)

def readInt64 : Bytes → Option (Int × Bytes) :=
  readIntIn (-2 ^ 63) (2 ^ 63 - 1)

def readSpan (opening : UInt8) (bytes : Bytes) : Option (Bytes × Bytes) :=
  if bytes.head? = some opening then
    (skipValue (skipFuel bytes) bytes).map fun rest =>
      (bytes.take (bytes.length - rest.length), rest)
  else none

def readDictData : Bytes → Option (Bytes × Bytes) :=
  readSpan 0x64

def readItems {α : Type*} (read : Bytes → Option (α × Bytes)) : Nat → Bytes → Option (List α)
  | 0, _ => none
  | fuel + 1, bytes =>
    match bytes with
    | 0x65 :: _ => some []
    | _ =>
      match read bytes with
      | none => none
      | some (a, rest) => (readItems read fuel rest).map (a :: ·)

def readCount {α : Type*} (read : Bytes → Option (α × Bytes)) :
    Nat → Bytes → Option (List α × Bytes)
  | 0, bytes => some ([], bytes)
  | n + 1, bytes =>
    match read bytes with
    | none => none
    | some (a, rest) => (readCount read n rest).map fun (as, rest) => (a :: as, rest)

def readList {α : Type*} (read : Bytes → Option (α × Bytes)) (bytes : Bytes) :
    Option (List α × Bytes) :=
  match readSpan 0x6c bytes with
  | none => none
  | some (span, rest) => (readItems read (skipFuel span) span.tail).map fun items => (items, rest)

structure DictConsumer where
  key : Option (Bytes × Bytes)
  data : Bytes

namespace DictConsumer

def ofBytes : Bytes → Option DictConsumer
  | 0x64 :: rest => some ⟨none, rest⟩
  | _ => none

def consumeKey (c : DictConsumer) : Option DictConsumer :=
  match c.key with
  | some _ => some c
  | none =>
    match c.data with
    | [] => none
    | 0x65 :: _ => some c
    | _ =>
      match readString c.data with
      | none => none
      -- a key must be followed by a value
      | some (_, []) => none
      | some (_, 0x65 :: _) => none
      | some (key, rest) => some ⟨some (key, c.data), rest⟩

def skipUntil (wanted : Bytes) : Nat → DictConsumer → Option (Bool × DictConsumer)
  | 0, _ => none
  | fuel + 1, c =>
    match c.consumeKey with
    | none => none
    | some c =>
      match c.key with
      | none => some (false, c)
      | some (key, _) =>
        if key < wanted then
          match skipValue (skipFuel c.data) c.data with
          | none => none
          | some rest => skipUntil wanted fuel ⟨none, rest⟩
        else some (key = wanted, c)

def seek (wanted : Bytes) (c : DictConsumer) : Option (Option Bytes × DictConsumer) :=
  match skipUntil wanted (skipFuel c.data) c with
  | none => none
  | some (true, c) => some (some c.data, ⟨none, []⟩)
  | some (false, c) => some (none, c)

def require {α : Type*} (read : Bytes → Option (α × Bytes)) (wanted : Bytes)
    (c : DictConsumer) : Option (α × DictConsumer) :=
  match c.seek wanted with
  | some (some value, _) => (read value).map fun (a, rest) => (a, ⟨none, rest⟩)
  | _ => none

def maybe {α : Type*} (read : Bytes → Option (α × Bytes)) (wanted : Bytes)
    (c : DictConsumer) : Option (Option α × DictConsumer) :=
  match c.seek wanted with
  | none => none
  | some (none, c) => some (none, c)
  | some (some value, _) => (read value).map fun (a, rest) => (some a, ⟨none, rest⟩)

def requireSignature (whole wanted : Bytes) (c : DictConsumer) :
    Option ((Bytes × Bytes) × DictConsumer) :=
  match skipUntil wanted (skipFuel c.data) c with
  | some (true, ⟨some (_, start), value⟩) =>
    (readString value).map fun (sig, rest) =>
      ((whole.take (whole.length - start.length), sig), ⟨none, rest⟩)
  | _ => none

def finish (c : DictConsumer) : Bool :=
  match c.key with
  | none => skipDict (skipFuel c.data) c.data == some []
  | some _ =>
    match skipValue (skipFuel c.data) c.data with
    | none => false
    | some rest => skipDict (skipFuel rest) rest == some []

end DictConsumer

def readDict {α : Type} (decode : DictConsumer → Option α) (bytes : Bytes) :
    Option (α × Bytes) := do
  let (span, rest) ← readDictData bytes
  let c ← DictConsumer.ofBytes span
  let a ← decode c
  return (a, rest)

variable (s rest : Bytes) {n : Nat}

theorem decimal_of_lt (h : n < 10) : decimal n = [UInt8.ofNat (0x30 + n)] := by
  rw [decimal, Nat.toDigits_of_lt_base h]
  interval_cases n <;> rfl

theorem decimal_of_le (h : 10 ≤ n) :
    decimal n = decimal (n / 10) ++ [UInt8.ofNat (0x30 + n % 10)] := by
  have hdigit := decimal_of_lt (Nat.mod_lt n (by decide : 0 < 10))
  rw [decimal, Nat.toDigits_of_lt_base (Nat.mod_lt n (by decide : 0 < 10))] at hdigit
  rw [decimal, Nat.toDigits_of_base_le (by decide) h, List.map_append, hdigit]
  rfl

theorem isDigit_ofNat (h : n < 10) : isDigit (UInt8.ofNat (0x30 + n)) = true := by
  interval_cases n <;> rfl

theorem toNat_digit (h : n < 10) : (UInt8.ofNat (0x30 + n)).toNat - 0x30 = n := by
  interval_cases n <;> rfl

theorem readDecimal_decimal_append (n : Nat) (rest : Bytes) :
    ∃ shift, ∀ acc, readDecimal (decimal n ++ rest) acc = readDecimal rest (shift * acc + n) := by
  induction n using Nat.strong_induction_on generalizing rest with
  | h n ih =>
    by_cases hsmall : n < 10
    · refine ⟨10, fun acc => ?_⟩
      rw [decimal_of_lt hsmall]
      simp only [List.singleton_append, readDecimal, isDigit_ofNat hsmall,
        toNat_digit hsmall, if_true]
    · have hmod : n % 10 < 10 := Nat.mod_lt n (by decide)
      obtain ⟨shift, hshift⟩ := ih (n / 10) (by omega)
        (UInt8.ofNat (0x30 + n % 10) :: rest)
      refine ⟨10 * shift, fun acc => ?_⟩
      rw [decimal_of_le (by omega), List.append_assoc, List.singleton_append, hshift]
      simp only [readDecimal, isDigit_ofNat hmod, toNat_digit hmod, if_true]
      congr 1
      rw [Nat.mul_add, Nat.mul_assoc, Nat.add_assoc]
      omega

theorem readDecimal_decimal (n : Nat) (byte : UInt8) (rest : Bytes) (h : isDigit byte = false) :
    readDecimal (decimal n ++ byte :: rest) 0 = (n, byte :: rest) := by
  obtain ⟨shift, hshift⟩ := readDecimal_decimal_append n (byte :: rest)
  rw [hshift, Nat.mul_zero, Nat.zero_add]
  simp [readDecimal, h]

theorem isDigit_headD_decimal (n : Nat) (rest : Bytes) :
    isDigit ((decimal n ++ rest).headD 0) = true := by
  induction n using Nat.strong_induction_on generalizing rest with
  | h n ih =>
    by_cases hsmall : n < 10
    · rw [decimal_of_lt hsmall]
      exact isDigit_ofNat hsmall
    · rw [decimal_of_le (by omega), List.append_assoc]
      exact ih (n / 10) (by omega) _

@[simp] theorem readString_encodeString : readString (encodeString s ++ rest) = some (s, rest) := by
  have hread : readDecimal (encodeString s ++ rest) 0 = (s.length, 0x3a :: (s ++ rest)) := by
    rw [encodeString, List.append_assoc, List.cons_append]
    exact readDecimal_decimal _ _ _ rfl
  have hdigit : isDigit ((encodeString s ++ rest).headD 0) = true := by
    rw [encodeString, List.append_assoc]
    exact isDigit_headD_decimal _ _
  rw [readString, if_pos hdigit, hread]
  simp

@[simp] theorem readFixed_encodeString {size : Nat} (buffer : FixedBytes size) (rest : Bytes) :
    readFixed size (encodeString buffer.data ++ rest) = some (buffer, rest) := by
  simp [readFixed]

theorem readIntBody_decimal (n : Nat) (rest : Bytes) :
    readIntBody (decimal n ++ 0x65 :: rest) = some (n, rest) := by
  rw [readIntBody, if_pos (isDigit_headD_decimal _ _), readDecimal_decimal _ _ _ rfl]
  rfl

@[simp] theorem readInt_encodeInt (i : Int) (rest : Bytes) :
    readInt (encodeInt i ++ rest) = some (i, rest) := by
  by_cases hneg : i < 0
  · have hbytes : encodeInt i ++ rest = 0x69 :: 0x2d :: (decimal i.natAbs ++ 0x65 :: rest) := by
      simp [encodeInt, hneg]
    rw [hbytes, readInt, readIntBody_decimal]
    simp [abs_of_neg hneg]
  · have hbytes : encodeInt i ++ rest = 0x69 :: (decimal i.natAbs ++ 0x65 :: rest) := by
      simp [encodeInt, hneg]
    have hdigit := isDigit_headD_decimal i.natAbs (0x65 :: rest)
    rw [hbytes]
    -- a digit is not a minus sign
    cases hdecimal : decimal i.natAbs ++ 0x65 :: rest with
    | nil => simp at hdecimal
    | cons byte tail =>
      rw [hdecimal] at hdigit
      have hdigit : isDigit byte = true := hdigit
      have hminus : byte ≠ 0x2d := by
        rintro rfl
        exact absurd hdigit (by decide)
      have hbody := readIntBody_decimal i.natAbs rest
      rw [hdecimal] at hbody
      simp [readInt, hminus, hbody, abs_of_nonneg (not_lt.mp hneg)]

theorem readUnsigned_encodeInt {bits n : Nat} (hn : n < 2 ^ bits) (rest : Bytes) :
    readUnsigned bits (encodeInt n ++ rest) = some (n, rest) := by
  have hhigh : (n : Int) ≤ 2 ^ bits - 1 := by
    have : (n : Int) < 2 ^ bits := by exact_mod_cast hn
    omega
  simp [readUnsigned, readIntIn, hhigh]

theorem encodeString_append_cases :
    ∃ byte tail, encodeString s ++ rest = byte :: tail ∧ isDigit byte = true := by
  have hdigit : isDigit ((encodeString s ++ rest).headD 0) = true := by
    rw [encodeString, List.append_assoc]
    exact isDigit_headD_decimal _ _
  cases hbytes : encodeString s ++ rest with
  | nil =>
    rw [hbytes] at hdigit
    exact absurd hdigit (by decide)
  | cons byte tail =>
    rw [hbytes] at hdigit
    exact ⟨byte, tail, rfl, hdigit⟩

/-! ### Lists of strings -/

theorem skipValue_of_readString {bytes s rest : Bytes} (h : readString bytes = some (s, rest))
    (fuel : Nat) : skipValue (fuel + 1) bytes = some rest := by
  unfold skipValue
  split
  · cases h
  · cases h
  · cases h
  · rw [h, Option.map_some]

theorem skipValue_encodeString (fuel : Nat) (s rest : Bytes) :
    skipValue (fuel + 1) (encodeString s ++ rest) = some rest :=
  skipValue_of_readString (readString_encodeString s rest) fuel

theorem readCount_flatten {α : Type*} {read : Bytes → Option (α × Bytes)} {encode : α → Bytes}
    (hread : ∀ a rest, read (encode a ++ rest) = some (a, rest)) (values : List α)
    (rest : Bytes) :
    readCount read values.length ((values.map encode).flatten ++ rest) = some (values, rest) := by
  induction values with
  | nil => rfl
  | cons value values ih =>
    rw [List.map_cons, List.flatten_cons, List.append_assoc, List.length_cons, readCount, hread]
    simp [ih]

@[simp] theorem encodeEntries_nil_append (tail : Bytes) : encodeEntries [] ++ tail = tail := rfl

@[simp] theorem encodeEntries_cons_append (key value : Bytes) (entries : List (Bytes × Bytes))
    (tail : Bytes) :
    encodeEntries ((key, value) :: entries) ++ tail =
      encodeString key ++ (value ++ (encodeEntries entries ++ tail)) := by
  simp [encodeEntries]

namespace DictConsumer

variable (key value : Bytes) (entries : List (Bytes × Bytes))

@[simp] theorem ofBytes_encodeDict :
    ofBytes (encodeDict entries) = some ⟨none, encodeEntries entries ++ [0x65]⟩ :=
  rfl

theorem consumeKey_entry (hvalue : value ≠ []) (hend : value.headD 0 ≠ 0x65) :
    consumeKey ⟨none, encodeString key ++ value⟩ =
      some ⟨some (key, encodeString key ++ value), value⟩ := by
  obtain ⟨byte, tail, hbytes, hdigit⟩ := encodeString_append_cases key value
  have hnotEnd : byte ≠ 0x65 := by
    rintro rfl
    exact absurd hdigit (by decide)
  cases value with
  | nil => exact absurd rfl hvalue
  | cons first others =>
    have hfirst : first ≠ 0x65 := hend
    have hread := readString_encodeString key (first :: others)
    rw [hbytes] at hread ⊢
    simp [consumeKey, hread, hnotEnd, hfirst]

theorem skipUntil_entry (hvalue : value ≠ []) (hend : value.headD 0 ≠ 0x65)
    (fuel : Nat) :
    skipUntil key (fuel + 1) ⟨none, encodeString key ++ value⟩ =
      some (true, ⟨some (key, encodeString key ++ value), value⟩) := by
  simp [skipUntil, consumeKey_entry key value hvalue hend, List.lt_irrefl]

theorem seek_entry (hvalue : value ≠ []) (hend : value.headD 0 ≠ 0x65) :
    seek key ⟨none, encodeString key ++ value⟩ = some (some value, ⟨none, []⟩) := by
  simp [seek, skipFuel, skipUntil_entry key value hvalue hend]

theorem require_entry {α : Type*} (read : Bytes → Option (α × Bytes)) (key value : Bytes)
    (hvalue : value ≠ []) (hend : value.headD 0 ≠ 0x65) :
    require read key ⟨none, encodeString key ++ value⟩ =
      (read value).map fun (a, rest) => (a, ⟨none, rest⟩) := by
  simp [require, seek_entry key value hvalue hend]

theorem encodeString_append_value (s rest : Bytes) :
    encodeString s ++ rest ≠ [] ∧ (encodeString s ++ rest).headD 0 ≠ 0x65 := by
  obtain ⟨byte, tail, hbytes, hdigit⟩ := encodeString_append_cases s rest
  rw [hbytes]
  refine ⟨List.cons_ne_nil _ _, ?_⟩
  rintro hend
  have hend : byte = 0x65 := hend
  rw [hend] at hdigit
  exact absurd hdigit (by decide)

@[simp] theorem require_readString_entry (key s rest : Bytes) :
    require readString key ⟨none, encodeString key ++ (encodeString s ++ rest)⟩ =
      some (s, ⟨none, rest⟩) := by
  have hvalue := encodeString_append_value s rest
  simp [require_entry readString key _ hvalue.1 hvalue.2]

@[simp] theorem require_readFixed_entry {size : Nat} (key rest : Bytes) (buffer : FixedBytes size) :
    require (readFixed size) key ⟨none, encodeString key ++ (encodeString buffer.data ++ rest)⟩ =
      some (buffer, ⟨none, rest⟩) := by
  have hvalue := encodeString_append_value buffer.data rest
  simp [require_entry (readFixed size) key _ hvalue.1 hvalue.2]

theorem require_readUnsigned_entry {bits n : Nat} (hn : n < 2 ^ bits) (key rest : Bytes) :
    require (readUnsigned bits) key ⟨none, encodeString key ++ (encodeInt n ++ rest)⟩ =
      some (n, ⟨none, rest⟩) := by
  rw [require_entry _ _ _ (by simp [encodeInt]) (by simp [encodeInt]),
    readUnsigned_encodeInt hn]
  rfl

theorem encodeSigned_eq (key : Bytes) (sign : Bytes → Bytes) :
    encodeSigned entries key sign = (0x64 :: encodeEntries entries) ++
        (encodeString key ++ (encodeString (sign (0x64 :: encodeEntries entries)) ++ [0x65])) := by
  simp [encodeSigned, encodeDict, encodeEntries]

@[simp] theorem ofBytes_encodeSigned (key : Bytes)
    (sign : Bytes → Bytes) :
    ofBytes (encodeSigned entries key sign) = some ⟨none, encodeEntries entries ++
        (encodeString key ++ (encodeString (sign (0x64 :: encodeEntries entries)) ++ [0x65]))⟩ := by
  rw [encodeSigned_eq]
  rfl

theorem requireSignature_encodeSigned (key : Bytes)
    (sign : Bytes → Bytes) :
    requireSignature (encodeSigned entries key sign) key ⟨none, encodeString key ++
          (encodeString (sign (0x64 :: encodeEntries entries)) ++ [0x65])⟩ =
      some ((0x64 :: encodeEntries entries, sign (0x64 :: encodeEntries entries)),
        ⟨none, [0x65]⟩) := by
  have hvalue := encodeString_append_value (sign (0x64 :: encodeEntries entries)) [0x65]
  rw [encodeSigned_eq, requireSignature, skipFuel, skipUntil_entry key _ hvalue.1 hvalue.2]
  simp only [readString_encodeString, Option.map_some]
  rw [List.length_append, Nat.add_sub_cancel, List.take_left]

@[simp] theorem finish_end : finish ⟨none, [0x65]⟩ = true := by decide

/-! ### Fields on the way -/

section Behind

variable {wanted : Bytes} {c : DictConsumer} {result : Bool × DictConsumer}

theorem skipUntil_add {fuel : Nat} (h : skipUntil wanted fuel c = some result) (more : Nat) :
    skipUntil wanted (fuel + more) c = some result := by
  induction fuel generalizing c with
  | zero => cases h
  | succ fuel ih =>
    rw [Nat.add_right_comm, skipUntil]
    rw [skipUntil] at h
    cases hkey : c.consumeKey with
    | none => simp [hkey] at h
    | some ahead =>
      simp only [hkey] at h ⊢
      split at h
      · next hnone => simpa only [hnone] using h
      · next key start hsome =>
        split at h
        · next hlt =>
          rw [if_pos hlt]
          split at h
          · cases h
          · next rest hskip => simpa only [hskip] using ih h
        · next hlt => rw [if_neg hlt, h]

theorem skipUntil_behind {first : Bytes} (hlt : first < wanted) {fuel fuel' : Nat}
    {field : DictConsumer} {rest : Bytes} (hfirst : skipUntil first fuel c = some (true, field))
    (hvalue : skipValue (skipFuel field.data) field.data = some rest)
    (h : skipUntil wanted fuel' c = some result) :
    ∃ fuel'', skipUntil wanted fuel'' ⟨none, rest⟩ = some result := by
  induction fuel generalizing c fuel' with
  | zero => cases hfirst
  | succ fuel ih =>
    cases fuel' with
    | zero => cases h
    | succ fuel' =>
      rw [skipUntil] at hfirst h
      cases hkey : c.consumeKey with
      | none => simp [hkey] at h
      | some ahead =>
        simp only [hkey] at hfirst h
        split at hfirst
        · cases hfirst
        · next found start hsome =>
          simp only [hsome] at h
          split at hfirst
          · next hbefore =>
            rw [if_pos (List.lt_trans hbefore hlt)] at h
            split at hfirst
            · cases hfirst
            · next behind hskip =>
              rw [hskip] at h
              exact ih hfirst h
          · simp only [Option.some.injEq, Prod.mk.injEq, decide_eq_true_eq] at hfirst
            obtain ⟨rfl, rfl⟩ := hfirst
            rw [if_pos hlt, hvalue] at h
            exact ⟨fuel', h⟩

theorem require_eq_some {α : Type*} {read : Bytes → Option (α × Bytes)} {a : α}
    {after : DictConsumer} (h : c.require read wanted = some (a, after)) :
    ∃ field rest, skipUntil wanted (skipFuel c.data) c = some (true, field) ∧
      read field.data = some (a, rest) ∧ after = ⟨none, rest⟩ := by
  unfold require seek at h
  cases hskip : skipUntil wanted (skipFuel c.data) c with
  | none => simp [hskip] at h
  | some found =>
    obtain ⟨_ | _, field⟩ := found
    · simp [hskip] at h
    · simp only [hskip, Option.map_eq_some_iff] at h
      obtain ⟨⟨_, rest⟩, hread, hresult⟩ := h
      cases hresult
      exact ⟨field, rest, rfl, hread, rfl⟩

theorem require_behind {α β : Type*} {readFirst : Bytes → Option (α × Bytes)}
    {read : Bytes → Option (β × Bytes)} {first : Bytes} (hlt : first < wanted)
    (hskips : ∀ value a rest, readFirst value = some (a, rest) →
      skipValue (skipFuel value) value = some rest)
    {a : α} {b b' : β} {c' behind behind' : DictConsumer}
    (hfirst : c.require readFirst first = some (a, c'))
    (hbehind : c'.require read wanted = some (b, behind))
    (hdirect : c.require read wanted = some (b', behind')) : b = b' := by
  obtain ⟨field, rest, hfield, hread, rfl⟩ := require_eq_some hfirst
  obtain ⟨found, _, hfound, hvalue, -⟩ := require_eq_some hbehind
  obtain ⟨found', _, hfound', hvalue', -⟩ := require_eq_some hdirect
  obtain ⟨fuel, hfuel⟩ := skipUntil_behind hlt hfield (hskips _ _ _ hread) hfound'
  have hsame := skipUntil_add hfuel (skipFuel rest)
  rw [Nat.add_comm, skipUntil_add hfound fuel] at hsame
  cases hsame
  cases hvalue.symm.trans hvalue'
  rfl

end Behind
end DictConsumer
end Bencode
end Lib
