import SessionRouter.Lib.Bencode

/-!
# Nested values
-/

namespace Lib.Bencode

inductive IsValue : Bytes → Prop where
  | string (s : Bytes) : IsValue (encodeString s)
  | int (i : Int) : IsValue (encodeInt i)
  | list {values : List Bytes} (h : ∀ value ∈ values, IsValue value) : IsValue (encodeList values)
  | dict {entries : List (Bytes × Bytes)} (h : ∀ entry ∈ entries, IsValue entry.2) :
      IsValue (encodeDict entries)

variable {value : Bytes}

theorem IsValue.exists_cons (h : IsValue value) :
    ∃ byte tail, value = byte :: tail ∧ byte ≠ 0x65 := by
  cases h with
  | string s =>
    obtain ⟨byte, tail, hbytes, hdigit⟩ := encodeString_append_cases s []
    rw [List.append_nil] at hbytes
    refine ⟨byte, tail, hbytes, ?_⟩
    rintro rfl
    exact absurd hdigit (by decide)
  | int | list | dict => exact ⟨_, _, rfl, by decide⟩

theorem IsValue.length_pos (h : IsValue value) : 0 < value.length := by
  obtain ⟨byte, tail, rfl, -⟩ := h.exists_cons
  exact Nat.succ_pos tail.length

def Skips (value : Bytes) : Prop :=
  ∀ fuel rest, value.length ≤ fuel → skipValue fuel (value ++ rest) = some rest

theorem skipList_values {values : List Bytes}
    (h : ∀ value ∈ values, IsValue value ∧ Skips value) {fuel : Nat}
    (hfuel : values.flatten.length < fuel) (rest : Bytes) :
    skipList fuel (values.flatten ++ 0x65 :: rest) = some rest := by
  induction values generalizing fuel with
  | nil =>
    obtain ⟨fuel, rfl⟩ := Nat.exists_eq_succ_of_ne_zero (Nat.ne_of_gt hfuel)
    rw [List.flatten_nil, List.nil_append, skipList]
  | cons value values ih =>
    rw [List.forall_mem_cons] at h
    obtain ⟨⟨hvalue, hskips⟩, hvalues⟩ := h
    have hpos := hvalue.length_pos
    rw [List.flatten_cons, List.length_append] at hfuel
    obtain ⟨fuel, rfl⟩ : ∃ n, fuel = n + 1 := ⟨fuel - 1, by omega⟩
    have hskip := hskips fuel (values.flatten ++ 0x65 :: rest) (by omega)
    obtain ⟨byte, tail, hbytes, hend⟩ := hvalue.exists_cons
    rw [List.flatten_cons, List.append_assoc]
    rw [hbytes, List.cons_append] at hskip ⊢
    rw [skipList, hskip]
    · exact ih hvalues (by omega)
    · intro _ heq
      exact absurd (List.cons.inj heq).1 hend

theorem skipDict_entries {entries : List (Bytes × Bytes)}
    (h : ∀ entry ∈ entries, Skips entry.2) {fuel : Nat}
    (hfuel : (encodeEntries entries).length < fuel) (rest : Bytes) :
    skipDict fuel (encodeEntries entries ++ 0x65 :: rest) = some rest := by
  induction entries generalizing fuel with
  | nil =>
    obtain ⟨fuel, rfl⟩ := Nat.exists_eq_succ_of_ne_zero (Nat.ne_of_gt hfuel)
    rw [encodeEntries_nil_append, skipDict]
  | cons entry entries ih =>
    obtain ⟨key, value⟩ := entry
    rw [List.forall_mem_cons] at h
    obtain ⟨hskips, hentries⟩ : Skips value ∧ _ := h
    have hlength : (encodeEntries ((key, value) :: entries)).length =
        (encodeString key).length + value.length + (encodeEntries entries).length := by
      simp [encodeEntries, Nat.add_assoc]
    rw [hlength] at hfuel
    have hpos := (IsValue.string key).length_pos
    obtain ⟨fuel, rfl⟩ : ∃ n, fuel = n + 1 := ⟨fuel - 1, by omega⟩
    have hskip := hskips fuel (encodeEntries entries ++ 0x65 :: rest) (by omega)
    have hread := readString_encodeString key (value ++ (encodeEntries entries ++ 0x65 :: rest))
    obtain ⟨byte, tail, hbytes, hend⟩ := (IsValue.string key).exists_cons
    rw [encodeEntries_cons_append]
    rw [hbytes, List.cons_append] at hread ⊢
    rw [skipDict, hread]
    · dsimp only
      rw [hskip]
      exact ih hentries (by omega)
    · intro _ heq
      exact absurd (List.cons.inj heq).1 hend

theorem IsValue.skips (h : IsValue value) : Skips value := by
  induction h with
  | string s =>
    intro fuel rest hfuel
    have hpos := (IsValue.string s).length_pos
    obtain ⟨fuel, rfl⟩ : ∃ n, fuel = n + 1 := ⟨fuel - 1, by omega⟩
    exact skipValue_encodeString fuel s rest
  | int i =>
    intro fuel rest hfuel
    have hpos := (IsValue.int i).length_pos
    obtain ⟨fuel, rfl⟩ : ∃ n, fuel = n + 1 := ⟨fuel - 1, by omega⟩
    have hread := readInt_encodeInt i rest
    rw [encodeInt, List.cons_append] at hread ⊢
    rw [skipValue, hread]
    rfl
  | @list values h ih =>
    intro fuel rest hfuel
    rw [encodeList, List.length_cons, List.length_append, List.length_singleton] at hfuel
    obtain ⟨fuel, rfl⟩ : ∃ n, fuel = n + 1 := ⟨fuel - 1, by omega⟩
    rw [encodeList, List.cons_append, List.append_assoc, skipValue]
    exact skipList_values (fun value hmem => ⟨h value hmem, ih value hmem⟩) (by omega) rest
  | @dict entries h ih =>
    intro fuel rest hfuel
    rw [encodeDict, List.length_cons, List.length_append, List.length_singleton] at hfuel
    obtain ⟨fuel, rfl⟩ : ∃ n, fuel = n + 1 := ⟨fuel - 1, by omega⟩
    rw [encodeDict, List.cons_append, List.append_assoc, skipValue]
    exact skipDict_entries ih (by omega) rest

theorem IsValue.skipValue_skipFuel (h : IsValue value) (rest : Bytes) :
    skipValue (skipFuel (value ++ rest)) (value ++ rest) = some rest := by
  apply h.skips
  rw [skipFuel, List.length_append]
  omega

theorem IsValue.readSpan (h : IsValue value) {opening : UInt8}
    (hopening : value.head? = some opening) (rest : Bytes) :
    readSpan opening (value ++ rest) = some (value, rest) := by
  have hhead : (value ++ rest).head? = some opening := by
    rw [List.head?_append, hopening, Option.some_or]
  rw [Bencode.readSpan, if_pos hhead, h.skipValue_skipFuel, Option.map_some, List.length_append,
    Nat.add_sub_cancel, List.take_left]

structure ReadsBack {α : Type*} (read : Bytes → Option (α × Bytes)) (value : Bytes) (a : α) :
    Prop where
  isValue : IsValue value
  read_append : ∀ rest, read (value ++ rest) = some (a, rest)

namespace ReadsBack

theorem string (s : Bytes) : ReadsBack readString (encodeString s) s :=
  ⟨.string s, readString_encodeString s⟩

theorem fixed {size : Nat} (buffer : FixedBytes size) :
    ReadsBack (readFixed size) (encodeString buffer.data) buffer :=
  ⟨.string buffer.data, readFixed_encodeString buffer⟩

theorem unsigned {bits n : Nat} (hn : n < 2 ^ bits) :
    ReadsBack (readUnsigned bits) (encodeInt n) n :=
  ⟨.int n, readUnsigned_encodeInt hn⟩

theorem int64 {i : Int} (hlow : -2 ^ 63 ≤ i) (hhigh : i < 2 ^ 63) :
    ReadsBack readInt64 (encodeInt i) i := by
  refine ⟨.int i, fun rest => ?_⟩
  have hrange : -2 ^ 63 ≤ i ∧ i ≤ 2 ^ 63 - 1 := ⟨hlow, by omega⟩
  rw [readInt64, readIntIn, readInt_encodeInt]
  exact if_pos hrange

section

variable {α : Type*} {read : Bytes → Option (α × Bytes)} {encode : α → Bytes} {items : List α}

section

variable (h : ∀ a ∈ items, ReadsBack read (encode a) a)

include h

theorem readItems_flatten {fuel : Nat}
    (hfuel : items.length < fuel) (rest : Bytes) :
    readItems read fuel ((items.map encode).flatten ++ 0x65 :: rest) = some items := by
  induction items generalizing fuel with
  | nil =>
    obtain ⟨fuel, rfl⟩ := Nat.exists_eq_succ_of_ne_zero (Nat.ne_of_gt hfuel)
    rw [List.map_nil, List.flatten_nil, List.nil_append, readItems]
  | cons a items ih =>
    rw [List.forall_mem_cons] at h
    obtain ⟨⟨hvalue, hread⟩, hitems⟩ := h
    rw [List.length_cons] at hfuel
    obtain ⟨fuel, rfl⟩ : ∃ n, fuel = n + 1 := ⟨fuel - 1, by omega⟩
    have hread := hread ((items.map encode).flatten ++ 0x65 :: rest)
    obtain ⟨byte, tail, hbytes, hend⟩ := hvalue.exists_cons
    rw [List.map_cons, List.flatten_cons, List.append_assoc]
    rw [hbytes, List.cons_append] at hread ⊢
    rw [readItems, hread]
    · dsimp only
      rw [ih hitems (by omega), Option.map_some]
    · intro _ heq
      exact absurd (List.cons.inj heq).1 hend

theorem length_le_length_flatten : items.length ≤ (items.map encode).flatten.length := by
  induction items with
  | nil => exact Nat.zero_le _
  | cons a items ih =>
    rw [List.forall_mem_cons] at h
    have hpos := h.1.isValue.length_pos
    have hle := ih h.2
    rw [List.map_cons, List.flatten_cons, List.length_append, List.length_cons]
    omega

theorem list : ReadsBack (readList read) (encodeList (items.map encode)) items := by
  have hvalue : IsValue (encodeList (items.map encode)) := by
    refine .list fun value hmem => ?_
    obtain ⟨a, ha, rfl⟩ := List.mem_map.mp hmem
    exact (h a ha).isValue
  refine ⟨hvalue, fun rest => ?_⟩
  have hlength := length_le_length_flatten h
  have hitems : readItems read (skipFuel (encodeList (items.map encode)))
      ((items.map encode).flatten ++ [0x65]) = some items := by
    apply readItems_flatten h
    rw [skipFuel, encodeList, List.length_cons, List.length_append]
    omega
  rw [readList, hvalue.readSpan rfl]
  dsimp only
  rw [encodeList, List.tail_cons, ← encodeList, hitems, Option.map_some]

end

end

theorem dict {α : Type} {decode : DictConsumer → Option α} {entries : List (Bytes × Bytes)} {a : α}
    (hvalues : ∀ entry ∈ entries, IsValue entry.2)
    (hdecode : decode ⟨none, encodeEntries entries ++ [0x65]⟩ = some a) :
    ReadsBack (readDict decode) (encodeDict entries) a := by
  refine ⟨.dict hvalues, fun rest => ?_⟩
  have hspan : readDictData (encodeDict entries ++ rest) = some (encodeDict entries, rest) :=
    (IsValue.dict hvalues).readSpan rfl rest
  simp [readDict, hspan, hdecode]

end ReadsBack

namespace DictConsumer

inductive Before : List (Bytes × Bytes) → DictConsumer → Prop where
  | start (entries) : Before entries ⟨none, encodeEntries entries ++ [0x65]⟩
  | ahead (key value entries) :
      Before ((key, value) :: entries)
        ⟨some (key, encodeString key ++ (value ++ (encodeEntries entries ++ [0x65]))),
          value ++ (encodeEntries entries ++ [0x65])⟩

section

variable {α : Type*} {c : DictConsumer} {key value wanted : Bytes}
  {entries : List (Bytes × Bytes)} {read : Bytes → Option (α × Bytes)} {a : α}

theorem consumeKey_value (hvalue : IsValue value) (rest : Bytes) :
    DictConsumer.consumeKey ⟨none, encodeString key ++ (value ++ rest)⟩ =
      some ⟨some (key, encodeString key ++ (value ++ rest)), value ++ rest⟩ := by
  obtain ⟨byte, tail, rfl, hend⟩ := hvalue.exists_cons
  exact consumeKey_entry key _ (List.cons_ne_nil _ _) hend

section

variable (h : c.Before ((key, value) :: entries))

include h

theorem Before.consumeKey (hvalue : IsValue value) :
    c.consumeKey =
      some ⟨some (key, encodeString key ++ (value ++ (encodeEntries entries ++ [0x65]))),
        value ++ (encodeEntries entries ++ [0x65])⟩ := by
  cases h with
  | start entries =>
    rw [encodeEntries_cons_append]
    exact consumeKey_value hvalue _
  | ahead key value entries => rfl

theorem Before.seek (hvalue : IsValue value) :
    c.seek key = some (some (value ++ (encodeEntries entries ++ [0x65])), ⟨none, []⟩) := by
  simp [DictConsumer.seek, skipFuel, skipUntil, h.consumeKey hvalue, List.lt_irrefl]

theorem Before.require (hread : ReadsBack read value a) :
    c.require read key = some (a, ⟨none, encodeEntries entries ++ [0x65]⟩) := by
  rw [DictConsumer.require, h.seek hread.isValue]
  dsimp only
  rw [hread.read_append, Option.map_some]

theorem Before.maybe (hread : ReadsBack read value a) :
    c.maybe read key = some (some a, ⟨none, encodeEntries entries ++ [0x65]⟩) := by
  rw [DictConsumer.maybe, h.seek hread.isValue]
  dsimp only
  rw [hread.read_append, Option.map_some]

theorem Before.maybe_of_lt (hvalue : IsValue value)
    (hkey : wanted < key) :
    ∃ after, c.maybe read wanted = some (none, after) ∧ after.Before ((key, value) :: entries) := by
  have hnot : ¬key < wanted := fun hlt => List.lt_irrefl _ (List.lt_trans hlt hkey)
  have hne : key ≠ wanted := by
    rintro rfl
    exact List.lt_irrefl _ hkey
  refine ⟨_, ?_, .ahead key value entries⟩
  simp [DictConsumer.maybe, DictConsumer.seek, skipFuel, skipUntil, h.consumeKey hvalue, hnot, hne]

end

theorem Before.maybe_nil (h : c.Before []) : c.maybe read wanted = some (none, c) := by
  cases h with
  | start entries => rfl

theorem Before.maybe_option {encode : α → Bytes} {opt : Option α}
    (h : c.Before ((opt.map fun a => (key, encode a)).toList ++ entries))
    (hread : ∀ a ∈ opt, ReadsBack read (encode a) a)
    (hnext : ∀ entry ∈ entries.head?, IsValue entry.2 ∧ key < entry.1) :
    ∃ after, c.maybe read key = some (opt, after) ∧ after.Before entries := by
  cases opt with
  | some a => exact ⟨_, h.maybe (hread a rfl), .start entries⟩
  | none =>
    cases entries with
    | nil => exact ⟨c, h.maybe_nil, h⟩
    | cons entry entries =>
      obtain ⟨hvalue, hkey⟩ := hnext entry rfl
      exact h.maybe_of_lt hvalue hkey

theorem Before.maybe_last {encode : α → Bytes} {opt : Option α}
    (h : c.Before (opt.map fun a => (key, encode a)).toList)
    (hread : ∀ a ∈ opt, ReadsBack read (encode a) a) :
    ∃ after, c.maybe read key = some (opt, after) ∧ after.Before [] := by
  rw [← List.append_nil (Option.toList _)] at h
  exact h.maybe_option hread fun entry hmem => absurd hmem (Option.not_mem_none entry)

theorem Before.finish (h : c.Before []) : c.finish = true := by
  cases h with
  | start entries => exact finish_end

end

end DictConsumer

theorem length_le_length_encodeEntries (entries : List (Bytes × Bytes)) :
    entries.length ≤ (encodeEntries entries).length := by
  induction entries with
  | nil => exact Nat.zero_le _
  | cons entry entries ih =>
    simp only [encodeEntries, List.flatMap_cons, List.length_append, encodeString,
      List.length_cons] at ih ⊢
    omega

theorem IsValue.append_inj {value other rest rest' : Bytes} (hvalue : IsValue value)
    (hother : IsValue other) (h : value ++ rest = other ++ rest') :
    value = other ∧ rest = rest' := by
  have hskip := hvalue.skipValue_skipFuel rest
  rw [h, hother.skipValue_skipFuel rest', Option.some.injEq] at hskip
  subst hskip
  exact ⟨List.append_cancel_right h, rfl⟩

theorem encodeString_injective : Function.Injective encodeString := by
  intro s s' h
  have hread := readString_encodeString s []
  rw [h, readString_encodeString] at hread
  simpa using hread.symm

theorem encodeEntries_inj {first second : List (Bytes × Bytes)}
    (hfirst : ∀ entry ∈ first, IsValue entry.2) (hsecond : ∀ entry ∈ second, IsValue entry.2)
    {tail : Bytes} (h : encodeEntries first ++ tail = encodeEntries second ++ tail) :
    first = second := by
  have hlong (entry : Bytes × Bytes) (entries : List (Bytes × Bytes)) :
      encodeEntries (entry :: entries) ++ tail ≠ tail := by
    intro heq
    have hlength := congrArg List.length heq
    have hpos := (IsValue.string entry.1).length_pos
    rw [encodeEntries_cons_append] at hlength
    simp only [List.length_append] at hlength
    omega
  induction first generalizing second with
  | nil =>
    cases second with
    | nil => rfl
    | cons entry second => exact absurd h.symm (hlong entry second)
  | cons entry first ih =>
    cases second with
    | nil => exact absurd h (hlong entry first)
    | cons other second =>
      obtain ⟨key, value⟩ := entry
      obtain ⟨key', value'⟩ := other
      rw [List.forall_mem_cons] at hfirst hsecond
      rw [encodeEntries_cons_append, encodeEntries_cons_append] at h
      obtain ⟨hkey, h⟩ := (IsValue.string key).append_inj (.string key') h
      obtain ⟨hvalue, hrest⟩ := hfirst.1.append_inj hsecond.1 h
      rw [encodeString_injective hkey, ih hfirst.2 hsecond.2 hrest]
      exact congrArg (fun value => (key', value) :: second) hvalue

namespace DictConsumer

variable {key value wanted : Bytes} {entries : List (Bytes × Bytes)}

theorem skipUntil_consumeKey {wanted data rest : Bytes} {key : Bytes × Bytes}
    (h : consumeKey ⟨none, data⟩ = some ⟨some key, rest⟩) (fuel : Nat) :
    skipUntil wanted (fuel + 1) ⟨none, data⟩ = skipUntil wanted (fuel + 1) ⟨some key, rest⟩ := by
  have hagain : consumeKey ⟨some key, rest⟩ = some ⟨some key, rest⟩ := rfl
  rw [skipUntil, skipUntil, h, hagain]

theorem skipUntil_of_lt (hvalue : IsValue value) (hkey : key < wanted) (start rest : Bytes)
    (fuel : Nat) :
    skipUntil wanted (fuel + 1) ⟨some (key, start), value ++ rest⟩ =
      skipUntil wanted fuel ⟨none, rest⟩ := by
  simp [skipUntil, DictConsumer.consumeKey, hkey, hvalue.skipValue_skipFuel]

theorem skipUntil_entries (hvalues : ∀ entry ∈ entries, IsValue entry.2)
    (hkeys : ∀ entry ∈ entries, entry.1 < wanted) (hvalue : IsValue value) (rest : Bytes)
    {fuel : Nat} (hfuel : entries.length < fuel) :
    skipUntil wanted fuel
        ⟨none, encodeEntries entries ++ (encodeString wanted ++ (value ++ rest))⟩ =
      some (true, ⟨some (wanted, encodeString wanted ++ (value ++ rest)), value ++ rest⟩) := by
  induction entries generalizing fuel with
  | nil =>
    obtain ⟨fuel, rfl⟩ := Nat.exists_eq_succ_of_ne_zero (Nat.ne_of_gt hfuel)
    rw [encodeEntries_nil_append]
    simp [skipUntil, consumeKey_value hvalue, List.lt_irrefl]
  | cons entry entries ih =>
    obtain ⟨key, first⟩ := entry
    rw [List.forall_mem_cons] at hvalues hkeys
    rw [List.length_cons] at hfuel
    obtain ⟨fuel, rfl⟩ : ∃ n, fuel = n + 1 := ⟨fuel - 1, by omega⟩
    rw [encodeEntries_cons_append, skipUntil_consumeKey (consumeKey_value hvalues.1 _),
      skipUntil_of_lt hvalues.1 hkeys.1]
    exact ih hvalues.2 hkeys.2 (by omega)

end DictConsumer
end Lib.Bencode
