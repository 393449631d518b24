import SessionRouter.Lib.Bytes
import Mathlib.Data.Nat.ModEq

/-!
# Ones' complement checksums
-/

namespace Lib

inductive ByteOrder where
  | little
  | big
  deriving DecidableEq, Repr

namespace ByteOrder

def load : ByteOrder → Bytes → Nat
  | little => loadLittle
  | big => loadBig

def store : ByteOrder → Nat → Nat → Bytes
  | little => storeLittle
  | big => storeBig

variable (order : ByteOrder) (bytes : Bytes)

@[simp] theorem length_store (k value : Nat) :
    (order.store k value).length = k := by
  cases order <;> simp [store]

theorem load_lt : order.load bytes < 256 ^ bytes.length := by
  cases order
  · exact loadLittle_lt bytes
  · exact loadBig_lt bytes

theorem load_store {k value : Nat} (h : value < 256 ^ k) :
    order.load (order.store k value) = value := by
  cases order
  · rw [load, store, loadLittle_storeLittle, Nat.mod_eq_of_lt h]
  · exact loadBig_storeBig h

theorem store_load : order.store bytes.length (order.load bytes) = bytes := by
  cases order
  · exact storeLittle_loadLittle bytes
  · exact storeBig_loadBig bytes

end ByteOrder

namespace OnesComplement

def wordSum (order : ByteOrder) : Bytes → Nat
  | [] => 0
  | [byte] => order.load [byte, 0]
  | first :: second :: rest => order.load [first, second] + wordSum order rest

variable (order : ByteOrder) (bytes : Bytes)

theorem wordSum_append {left : Bytes} (h : left.length % 2 = 0)
    (right : Bytes) : wordSum order (left ++ right) = wordSum order left + wordSum order right := by
  fun_induction wordSum order left with
  | case1 => simp
  | case2 byte => simp at h
  | case3 first second rest ih =>
    have hrest : rest.length % 2 = 0 := by
      simp only [List.length_cons] at h
      omega
    simp only [List.cons_append, wordSum, ih hrest]
    omega

theorem wordSum_of_length_two {bytes : Bytes} (h : bytes.length = 2) :
    wordSum order bytes = order.load bytes := by
  match bytes, h with
  | [_, _], _ => simp [wordSum]

theorem wordSum_big_modEq : wordSum .big bytes ≡ 256 * wordSum .little bytes [MOD 65535] := by
  have hword : ∀ a b : UInt8,
      ByteOrder.big.load [a, b] ≡ 256 * ByteOrder.little.load [a, b] [MOD 65535] := by
    intro a b
    simp only [ByteOrder.load, loadBig, loadLittle, List.reverse_cons, List.reverse_nil,
      List.nil_append, List.cons_append, Nat.ModEq]
    omega
  fun_induction wordSum .big bytes with
  | case1 => rfl
  | case2 byte => exact hword byte 0
  | case3 first second rest ih =>
    rw [wordSum, Nat.mul_add]
    exact (hword first second).add ih

theorem wordSum_mod_eq_zero_iff :
    wordSum .big bytes % 65535 = 0 ↔ wordSum order bytes % 65535 = 0 := by
  cases order with
  | big => rfl
  | little =>
    have h := wordSum_big_modEq bytes
    unfold Nat.ModEq at h
    omega

theorem wordSum_eq_zero_iff : wordSum order bytes = 0 ↔ ∀ byte ∈ bytes, byte = 0 := by
  have hword : ∀ a b : UInt8, order.load [a, b] = 0 ↔ a = 0 ∧ b = 0 := by
    intro a b
    have ha : a = 0 ↔ a.toNat = 0 := by rw [← UInt8.toNat_inj]; rfl
    have hb : b = 0 ↔ b.toNat = 0 := by rw [← UInt8.toNat_inj]; rfl
    rw [ha, hb]
    cases order <;>
      simp only [ByteOrder.load, loadBig, loadLittle, List.reverse_cons, List.reverse_nil,
        List.nil_append, List.cons_append] <;> omega
  fun_induction wordSum order bytes with
  | case1 => simp
  | case2 byte => simp [hword]
  | case3 first second rest ih =>
    simp only [Nat.add_eq_zero_iff, hword, ih, List.forall_mem_cons, and_assoc]

def onesAdd (a b : Nat) : Nat :=
  if a + b < 65536 then a + b else a + b - 65535

def onesSum (start : Nat) : Bytes → Nat
  | [] => start
  | [byte] => onesAdd start (loadBig [byte, 0])
  | first :: second :: rest => onesSum (onesAdd start (loadBig [first, second])) rest

def Checks (bytes : Bytes) : Prop :=
  onesSum 0 bytes = 0xFFFF

instance (bytes : Bytes) : Decidable (Checks bytes) :=
  inferInstanceAs (Decidable (_ = _))

def Folds (word sum : Nat) : Prop :=
  word < 65536 ∧ word ≡ sum [MOD 65535] ∧ (word = 0 ↔ sum = 0)

theorem onesAdd_folds {a b sum : Nat} (ha : Folds a sum) (hb : b < 65536) :
    Folds (onesAdd a b) (sum + b) := by
  obtain ⟨hlt, hmod, hzero⟩ := ha
  unfold onesAdd
  unfold Nat.ModEq at hmod
  split
  · refine ⟨by omega, ?_, by omega⟩
    unfold Nat.ModEq
    omega
  · refine ⟨by omega, ?_, by omega⟩
    unfold Nat.ModEq
    omega

theorem loadBig_word_lt (first second : UInt8) : loadBig [first, second] < 65536 := by
  have h := loadBig_lt [first, second]
  simpa using h

theorem onesSum_folds {start sum : Nat} (h : Folds start sum) (bytes : Bytes) :
    Folds (onesSum start bytes) (sum + wordSum .big bytes) := by
  fun_induction onesSum start bytes generalizing sum with
  | case1 => exact h
  | case2 start byte => exact onesAdd_folds h (loadBig_word_lt byte 0)
  | case3 start first second rest ih =>
    have hnext := ih (onesAdd_folds h (loadBig_word_lt first second))
    rw [wordSum, ← Nat.add_assoc]
    exact hnext

theorem checks_iff : Checks bytes ↔ wordSum order bytes % 65535 = 0 ∧ wordSum order bytes ≠ 0 := by
  have hzero : Folds 0 0 := ⟨by decide, rfl, Iff.rfl⟩
  have hfolds := onesSum_folds hzero bytes
  rw [Nat.zero_add] at hfolds
  obtain ⟨hlt, hmod, hzero⟩ := hfolds
  unfold Nat.ModEq at hmod
  have hsame : wordSum order bytes = 0 ↔ wordSum .big bytes = 0 := by
    rw [wordSum_eq_zero_iff, wordSum_eq_zero_iff]
  rw [← wordSum_mod_eq_zero_iff order, Ne, hsame, Checks]
  omega

def halves (x : UInt32) : UInt32 :=
  (x &&& (0xFFFF : UInt32)) + (x >>> (16 : UInt32))

theorem toNat_halves (x : UInt32) : (halves x).toNat = x.toNat % 65536 + x.toNat / 65536 := by
  have hx := x.toNat_lt
  have hlow : (x &&& 0xFFFF).toNat = x.toNat % 65536 := by
    rw [UInt32.toNat_and]
    exact Nat.and_two_pow_sub_one_eq_mod x.toNat 16
  have hhigh : (x >>> 16).toNat = x.toNat / 65536 := by
    rw [UInt32.toNat_shiftRight]
    exact Nat.shiftRight_eq_div_pow x.toNat 16
  rw [halves, UInt32.toNat_add, hlow, hhigh]
  omega

theorem toNat_halves_load {bytes : Bytes} (h : bytes.length = 4) :
    (halves (UInt32.ofNat (order.load bytes))).toNat = wordSum order bytes := by
  have hlt := order.load_lt bytes
  rw [h] at hlt
  rw [toNat_halves, UInt32.toNat_ofNat_of_lt' hlt]
  match bytes, h with
  | [a, b, c, d], _ =>
    have ha := a.toNat_lt
    have hb := b.toNat_lt
    have hc := c.toNat_lt
    have hd := d.toNat_lt
    cases order <;> simp only [ByteOrder.load, loadBig, loadLittle, wordSum, List.reverse_cons,
        List.reverse_nil, List.nil_append, List.cons_append] <;> omega

theorem toNat_halves_not (x : UInt32) : (halves (~~~x)).toNat + (halves x).toNat = 131070 := by
  have hx := x.toNat_lt
  rw [toNat_halves, toNat_halves, UInt32.toNat_not, show UInt32.size = 4294967296 from rfl]
  omega

theorem carry_eq {x : Nat} (h : x ≤ 131070) :
    (x + x / 65536) % 65536 = if x < 65536 then x else x - 65535 := by
  split
  next hsmall => rw [Nat.div_eq_of_lt hsmall, Nat.add_zero, Nat.mod_eq_of_lt hsmall]
  next hlarge =>
    have hcarry : x / 65536 = 1 := by omega
    rw [hcarry]
    omega

def fold (sum : UInt32) : UInt16 :=
  let sum := halves sum
  let sum := sum + (sum >>> 16)
  (sum &&& 0xFFFF).toUInt16

theorem fold_folds (sum : UInt32) : Folds (fold sum).toNat sum.toNat := by
  have hsum := sum.toNat_lt
  have hhalves := toNat_halves sum
  have hcarry : (halves sum >>> 16).toNat = (halves sum).toNat / 65536 := by
    rw [UInt32.toNat_shiftRight]
    exact Nat.shiftRight_eq_div_pow _ 16
  have hlow : ∀ y : UInt32, (y &&& 0xFFFF).toUInt16.toNat = y.toNat % 65536 := by
    intro y
    rw [UInt32.toNat_toUInt16, UInt32.toNat_and]
    have := Nat.and_two_pow_sub_one_eq_mod y.toNat 16
    change (y.toNat &&& 65535) % 65536 = _
    rw [this]
    exact Nat.mod_mod _ _
  have hvalue : (fold sum).toNat = ((halves sum).toNat + (halves sum).toNat / 65536) % 65536 := by
    rw [fold, hlow, UInt32.toNat_add, hcarry]
    omega
  rw [carry_eq (by omega)] at hvalue
  unfold Folds Nat.ModEq
  split at hvalue <;> omega

end OnesComplement
end Lib
