import SessionRouter.Lib.Bytes

/-!
# Reading what has been written
-/

namespace Lib

abbrev Parser := ReaderT Bytes (StateT Nat Option)

namespace Wire

variable {α β : Type} {msg : Bytes}

def Has (msg : Bytes) (pos : Nat) (piece : Bytes) : Prop :=
  piece <+: msg.drop pos

variable {pos : Nat}

theorem has_append_iff {first second : Bytes} :
    Has msg pos (first ++ second) ↔ Has msg pos first ∧ Has msg (pos + first.length) second := by
  constructor
  · rintro ⟨back, hback⟩
    refine ⟨⟨second ++ back, by simp [← hback]⟩, ⟨back, ?_⟩⟩
    rw [← List.drop_drop, ← hback, List.append_assoc, List.drop_left]
  · rintro ⟨⟨back, hback⟩, after, hafter⟩
    refine ⟨after, ?_⟩
    rw [← List.drop_drop, ← hback, List.drop_left] at hafter
    rw [← hback, ← hafter, List.append_assoc]

theorem has_self (msg : Bytes) : Has msg 0 msg := List.prefix_rfl

variable {piece : Bytes}

theorem Has.le_length (h : Has msg pos piece) (hpos : pos ≤ msg.length) :
    pos + piece.length ≤ msg.length := by
  have hlength := List.IsPrefix.length_le h
  rw [List.length_drop] at hlength
  omega

variable {first : Parser β} {parser : Parser α} {byte : UInt8}

section

variable (h : Has msg pos (byte :: piece))

include h

theorem Has.getElem? : msg[pos]? = some byte := by
  obtain ⟨back, hback⟩ := h
  rw [← List.head?_drop, ← hback]
  rfl

theorem Has.lt_length : pos < msg.length :=
  (List.getElem?_eq_some_iff.mp h.getElem?).1

theorem Has.tail : Has msg (pos + 1) piece :=
  (@has_append_iff msg pos [byte] piece).mp h |>.2

end

theorem Has.congr_take (h : Has msg pos piece) {other : Bytes}
    (heq : other.take (pos + piece.length) = msg.take (pos + piece.length)) :
    Has other pos piece := by
  have hdrop (bytes : Bytes) :
      (bytes.drop pos).take piece.length = (bytes.take (pos + piece.length)).drop pos := by
    rw [List.drop_take, Nat.add_sub_cancel_left]
  refine List.prefix_iff_eq_take.mpr ?_
  rw [hdrop, heq, ← hdrop]
  exact List.prefix_iff_eq_take.mp h

def overwrite (msg : Bytes) (pos : Nat) (bytes : Bytes) : Bytes :=
  (msg.take pos ++ bytes ++ msg.drop (pos + bytes.length)).take msg.length

@[simp] theorem length_overwrite (msg : Bytes) (pos : Nat) (bytes : Bytes) :
    (overwrite msg pos bytes).length = msg.length := by
  simp only [overwrite, List.length_take, List.length_append, List.length_drop]
  omega

theorem getElem?_overwrite (msg : Bytes) (pos : Nat) (bytes : Bytes) (i : Nat) :
    (overwrite msg pos bytes)[i]? =
      if i < msg.length ∧ pos ≤ i ∧ i < pos + bytes.length then bytes[i - pos]? else msg[i]? := by
  simp only [overwrite, List.getElem?_take, List.getElem?_append, List.length_append,
    List.length_take, List.getElem?_drop]
  grind

theorem overwrite_overwrite (msg : Bytes) (pos : Nat) {first second : Bytes}
    (h : first.length = second.length) :
    overwrite (overwrite msg pos first) pos second = overwrite msg pos second := by
  apply List.ext_getElem?
  intro i
  simp only [getElem?_overwrite, length_overwrite]
  split
  · rfl
  · rw [if_neg (by omega)]

theorem drop_overwrite (msg : Bytes) {start : Nat} (h : start ≤ pos) (bytes : Bytes) :
    (overwrite msg pos bytes).drop start = overwrite (msg.drop start) (pos - start) bytes := by
  apply List.ext_getElem?
  intro i
  simp only [List.getElem?_drop, getElem?_overwrite, List.length_drop]
  split
  · rw [if_pos (by omega)]
    congr 1
    omega
  · rw [if_neg (by omega)]

theorem has_overwrite {bytes : Bytes} (h : pos + bytes.length ≤ msg.length) :
    Has (overwrite msg pos bytes) pos bytes := by
  have hlength : (msg.take pos).length = pos := by
    rw [List.length_take]
    omega
  refine ⟨msg.drop (pos + bytes.length), ?_⟩
  rw [overwrite, List.take_of_length_le (by simp; omega), List.append_assoc]
  nth_rewrite 2 [← hlength]
  rw [List.drop_left]

theorem take_overwrite {count : Nat} (hpos : pos ≤ msg.length) (h : count ≤ pos) (bytes : Bytes) :
    (overwrite msg pos bytes).take count = msg.take count := by
  rw [overwrite, List.take_take, List.append_assoc, List.take_append_of_le_length (by simp; omega),
    List.take_take]
  congr 1
  omega

def takeBytes (count : Nat) : Parser Bytes := fun msg pos =>
  if pos + count ≤ msg.length then some ((msg.drop pos).take count, pos + count) else none

def number (width : Nat) : Parser Nat := do
  let bytes ← takeBytes width
  pure (loadBig bytes)

def position : Parser Nat := fun _ pos => some (pos, pos)

def reject : Parser α := fun _ _ => none

def many (parser : Parser α) : Nat → Parser (List α)
  | 0 => pure []
  | count + 1 => do
      let first ← parser
      let others ← many parser count
      pure (first :: others)

theorem bind_apply (parser : Parser α) (next : α → Parser β) (pos : Nat) :
    (parser >>= next) msg pos =
      (parser msg pos).bind fun found => next found.1 msg found.2 :=
  rfl

theorem bind_eq_some_iff {next : α → Parser β} {result : β × Nat} :
    (parser >>= next) msg pos = some result ↔
      ∃ found stop, parser msg pos = some (found, stop) ∧ next found msg stop = some result := by
  rw [bind_apply, Option.bind_eq_some_iff]
  exact Prod.exists

theorem pure_apply (value : α) (pos : Nat) :
    (pure value : Parser α) msg pos = some (value, pos) :=
  rfl

theorem Has.takeBytes (h : Has msg pos piece) (hpos : pos ≤ msg.length) :
    takeBytes piece.length msg pos = some (piece, pos + piece.length) := by
  rw [Wire.takeBytes, if_pos (h.le_length hpos), List.prefix_iff_eq_take.mp h]
  simp

theorem Has.number {width value : Nat} (h : Has msg pos (storeBig width value))
    (hwidth : 0 < width) : number width msg pos = some (value % 256 ^ width, pos + width) := by
  have hlength := List.IsPrefix.length_le h
  rw [length_storeBig, List.length_drop] at hlength
  have htake := h.takeBytes (by omega)
  rw [length_storeBig] at htake
  rw [Wire.number, bind_apply, htake, Option.bind_some, pure_apply, loadBig, storeBig,
    List.reverse_reverse, loadLittle_storeLittle]

theorem Has.word {word : UInt16} (h : Has msg pos (storeBig 2 word.toNat)) :
    Wire.number 2 msg pos = some (word.toNat, pos + 2) := by
  rw [h.number (by decide)]
  exact congrArg (fun value => some (value, pos + 2)) (Nat.mod_eq_of_lt word.toNat_lt)

theorem number_next {width value next : Nat} (h : Wire.number width msg pos = some (value, next)) :
    next = pos + width := by
  obtain ⟨bytes, stop, htake, hpure⟩ := bind_eq_some_iff.mp h
  rw [Wire.takeBytes] at htake
  split at htake
  · cases htake
    cases hpure
    rfl
  · cases htake

theorem length_of_many {count next : Nat} {values : List α}
    (h : many parser count msg pos = some (values, next)) : values.length = count := by
  induction count generalizing pos values next with
  | zero =>
    cases h
    rfl
  | succ count ih =>
    rw [many, bind_eq_some_iff] at h
    obtain ⟨first, afterFirst, -, h⟩ := h
    obtain ⟨others, afterOthers, hothers, h⟩ := bind_eq_some_iff.mp h
    cases h
    rw [List.length_cons, ih hothers]

structure ReadsWhen (msg : Bytes) (parser : Parser α) (start stop : Nat) (value : α)
    (condition : Prop) : Prop where
  stops : ∀ found next, parser msg start = some (found, next) → next = stop
  reads_iff : parser msg start = some (value, stop) ↔ condition

variable {start middle stop : Nat} {value : α} {condition : Prop}

theorem ReadsWhen.congr {other : Prop}
    (h : ReadsWhen msg parser start stop value condition) (hiff : condition ↔ other) :
    ReadsWhen msg parser start stop value other :=
  ⟨h.stops, h.reads_iff.trans hiff⟩

theorem readsWhen_pure (found value : α) (pos : Nat) :
    ReadsWhen msg (pure found) pos pos value (found = value) where
  stops _ _ h := by
    rw [pure_apply] at h
    cases h
    rfl
  reads_iff := by
    rw [pure_apply]
    simp

theorem ReadsWhen.bind_of_reads {next : β → Parser α} {read : β}
    (hfirst : first msg start = some (read, middle))
    (hnext : ReadsWhen msg (next read) middle stop value condition) :
    ReadsWhen msg (first >>= next) start stop value condition where
  stops found pos h := by
    rw [bind_apply, hfirst] at h
    exact hnext.stops found pos h
  reads_iff := by
    rw [bind_apply, hfirst]
    exact hnext.reads_iff

theorem ReadsWhen.bind {next : β → Parser α} {read : β} {earlier : Prop}
    (hfirst : ReadsWhen msg first start middle read earlier)
    (hnext : ∀ found, ReadsWhen msg (next found) middle stop value (found = read ∧ condition)) :
    ReadsWhen msg (first >>= next) start stop value (earlier ∧ condition) where
  stops found pos h := by
    obtain ⟨misread, at_, hread, h⟩ := bind_eq_some_iff.mp h
    obtain rfl := hfirst.stops misread at_ hread
    exact (hnext misread).stops found pos h
  reads_iff := by
    rw [bind_eq_some_iff]
    constructor
    · rintro ⟨misread, at_, hread, h⟩
      obtain rfl := hfirst.stops misread at_ hread
      obtain ⟨rfl, hcondition⟩ := (hnext misread).reads_iff.mp h
      exact ⟨hfirst.reads_iff.mp hread, hcondition⟩
    · rintro ⟨hearlier, hcondition⟩
      exact ⟨read, middle, hfirst.reads_iff.mpr hearlier,
        (hnext read).reads_iff.mpr ⟨rfl, hcondition⟩⟩

end Wire
end Lib
