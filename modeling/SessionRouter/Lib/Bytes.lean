import Mathlib.Data.List.GetD
import Mathlib.Tactic

/-!
# Byte strings, fixed-size buffers and XOR streams
-/

namespace Lib

abbrev Bytes := List UInt8

def ascii (text : String) : Bytes :=
  text.toList.map fun c => UInt8.ofNat c.toNat

@[ext] structure FixedBytes (size : Nat) where
  data : Bytes
  length_data : data.length = size
  deriving DecidableEq

namespace FixedBytes

attribute [simp] length_data

variable {size : Nat}

def zero (size : Nat) : FixedBytes size :=
  ⟨List.replicate size 0, by simp⟩

instance : Inhabited (FixedBytes size) :=
  ⟨zero size⟩

def filled (size : Nat) (byte : UInt8) : FixedBytes size :=
  ⟨List.replicate size byte, by simp⟩

def ofBytes (size : Nat) (bytes : Bytes) : FixedBytes size :=
  ⟨bytes.take size ++ List.replicate (size - bytes.length) 0, by
    simp only [List.length_append, List.length_take, List.length_replicate]
    omega⟩

def ofBytes? (size : Nat) (bytes : Bytes) : Option (FixedBytes size) :=
  if h : bytes.length = size then some ⟨bytes, h⟩ else none

theorem ofBytes_of_length {bytes : Bytes} (h : bytes.length = size) :
    (ofBytes size bytes).data = bytes := by
  subst h
  simp [ofBytes]

@[simp] theorem ofBytes_data (buffer : FixedBytes size) : ofBytes size buffer.data = buffer := by
  ext1
  exact ofBytes_of_length buffer.length_data

@[simp] theorem ofBytes_data_append (buffer : FixedBytes size) (rest : Bytes) :
    ofBytes size (buffer.data ++ rest) = buffer := by
  ext1
  have hlen := buffer.length_data
  simp only [ofBytes, List.length_append, hlen]
  rw [List.take_append_of_le_length (by omega), List.take_of_length_le (by omega)]
  simp

@[simp] theorem drop_data_append (buffer : FixedBytes size) (rest : Bytes) :
    (buffer.data ++ rest).drop size = rest :=
  List.drop_left' buffer.length_data

@[simp] theorem ofBytes?_data (buffer : FixedBytes size) :
    ofBytes? size buffer.data = some buffer := by
  simp [ofBytes?]

instance : XorOp (FixedBytes size) :=
  ⟨fun left right => ⟨List.zipWith (· ^^^ ·) left.data right.data, by simp⟩⟩

theorem xor_data (left right : FixedBytes size) :
    (left ^^^ right).data = List.zipWith (· ^^^ ·) left.data right.data :=
  rfl

theorem ext_getD {left right : FixedBytes size}
    (h : ∀ i < size, left.data.getD i 0 = right.data.getD i 0) :
    left = right := by
  ext1
  apply List.ext_getElem
  · simp
  · intro i hleft hright
    have hi := h i (by simpa using hleft)
    rwa [List.getD_eq_getElem _ _ hleft, List.getD_eq_getElem _ _ hright] at hi

theorem getD_ofBytes_data {i : Nat} (hi : i < size) (bytes : Bytes) :
    (ofBytes size bytes).data.getD i 0 = bytes.getD i 0 := by
  by_cases hlong : i < bytes.length
  · rw [ofBytes, List.getD_append _ _ _ _ (by simp; omega)]
    simp [hi]
  · rw [ofBytes, List.getD_append_right _ _ _ _ (by simp; omega)]
    simp [List.getElem?_replicate, List.getElem?_eq_none (not_lt.mp hlong)]
    split <;> rfl

theorem ofBytes_ofBytes {short long : Nat} (h : short ≤ long) (bytes : Bytes) :
    ofBytes short (ofBytes long bytes).data = ofBytes short bytes := by
  apply ext_getD
  intro i hi
  rw [getD_ofBytes_data hi, getD_ofBytes_data hi, getD_ofBytes_data (by omega)]

theorem getD_xor_data (left right : FixedBytes size) {i : Nat} (hi : i < size) :
    (left ^^^ right).data.getD i 0 = left.data.getD i 0 ^^^ right.data.getD i 0 := by
  rw [List.getD_eq_getElem _ _ (by simpa using hi),
    List.getD_eq_getElem _ _ (by simpa using hi),
    List.getD_eq_getElem _ _ (by simpa using hi)]
  simp [xor_data]

theorem xor_comm (left right : FixedBytes size) : left ^^^ right = right ^^^ left := by
  apply ext_getD
  intro i hi
  rw [getD_xor_data _ _ hi, getD_xor_data _ _ hi]
  exact UInt8.xor_comm _ _

theorem xor_assoc (a b c : FixedBytes size) : a ^^^ b ^^^ c = a ^^^ (b ^^^ c) := by
  apply ext_getD
  intro i hi
  simp only [getD_xor_data _ _ hi]
  exact UInt8.xor_assoc _ _ _

@[simp] theorem xor_self (a : FixedBytes size) : a ^^^ a = zero size := by
  apply ext_getD
  intro i hi
  rw [getD_xor_data _ _ hi, UInt8.xor_self]
  simp [zero, hi]

@[simp] theorem xor_zero (a : FixedBytes size) : a ^^^ zero size = a := by
  apply ext_getD
  intro i hi
  rw [getD_xor_data _ _ hi]
  simp [zero, hi]

@[simp] theorem xor_xor_cancel_right (a b : FixedBytes size) : a ^^^ b ^^^ b = a := by
  rw [xor_assoc, xor_self, xor_zero]

instance : Std.Commutative (α := FixedBytes size) (· ^^^ ·) :=
  ⟨xor_comm⟩

instance : Std.Associative (α := FixedBytes size) (· ^^^ ·) :=
  ⟨xor_assoc⟩

end FixedBytes

def xorStream (stream : Nat → UInt8) (bytes : Bytes) : Bytes :=
  bytes.mapIdx fun i byte => byte ^^^ stream i

variable (k value : Nat) (stream : Nat → UInt8) (bytes : Bytes)

@[simp] theorem length_xorStream : (xorStream stream bytes).length = bytes.length := by
  simp [xorStream]

@[simp] theorem xorStream_xorStream : xorStream stream (xorStream stream bytes) = bytes := by
  apply List.ext_getElem
  · simp
  · intro i _ _
    simp only [xorStream, List.getElem_mapIdx]
    rw [UInt8.xor_assoc, UInt8.xor_self, UInt8.xor_zero]

theorem xorStream_append (left right : Bytes) :
    xorStream stream (left ++ right) = xorStream stream left ++
        xorStream (fun i => stream (i + left.length)) right := by
  simp [xorStream, List.mapIdx_append]

def storeLittle : Nat → Nat → Bytes
  | 0, _ => []
  | k + 1, value => UInt8.ofNat (value % 256) :: storeLittle k (value / 256)

def loadLittle : Bytes → Nat
  | [] => 0
  | byte :: rest => byte.toNat + 256 * loadLittle rest

def storeBig (k value : Nat) : Bytes :=
  (storeLittle k value).reverse

def loadBig (bytes : Bytes) : Nat :=
  loadLittle bytes.reverse

@[simp] theorem length_storeLittle : (storeLittle k value).length = k := by
  induction k generalizing value with
  | zero => rfl
  | succ k ih => simp [storeLittle, ih]

@[simp] theorem length_storeBig : (storeBig k value).length = k := by simp [storeBig]

theorem loadLittle_storeLittle : loadLittle (storeLittle k value) = value % 256 ^ k := by
  induction k generalizing value with
  | zero => simp [storeLittle, loadLittle, Nat.mod_one]
  | succ k ih =>
    have hbyte : (UInt8.ofNat (value % 256)).toNat = value % 256 := by
      rw [UInt8.toNat_ofNat']
      exact Nat.mod_eq_of_lt (Nat.mod_lt _ (by decide))
    simp only [storeLittle, loadLittle, ih, hbyte]
    rw [Nat.pow_succ', Nat.mod_mul]

theorem loadLittle_lt : loadLittle bytes < 256 ^ bytes.length := by
  induction bytes with
  | nil => simp [loadLittle]
  | cons byte bytes ih =>
    have hbyte := byte.toNat_lt
    rw [loadLittle, List.length_cons, Nat.pow_succ']
    omega

theorem storeLittle_loadLittle : storeLittle bytes.length (loadLittle bytes) = bytes := by
  induction bytes with
  | nil => rfl
  | cons byte bytes ih =>
    have hbyte := byte.toNat_lt
    have hlow : (byte.toNat + 256 * loadLittle bytes) % 256 = byte.toNat := by omega
    have hhigh : (byte.toNat + 256 * loadLittle bytes) / 256 = loadLittle bytes := by omega
    rw [List.length_cons, loadLittle, storeLittle, hlow, hhigh, ih, UInt8.ofNat_toNat]

theorem storeBig_loadBig : storeBig bytes.length (loadBig bytes) = bytes := by
  rw [storeBig, loadBig, ← List.length_reverse, storeLittle_loadLittle, List.reverse_reverse]

theorem loadBig_lt : loadBig bytes < 256 ^ bytes.length := by
  simpa [loadBig] using loadLittle_lt bytes.reverse

theorem loadBig_storeBig {k value : Nat} (h : value < 256 ^ k) :
    loadBig (storeBig k value) = value := by
  rw [loadBig, storeBig, List.reverse_reverse, loadLittle_storeLittle]
  exact Nat.mod_eq_of_lt h

end Lib
