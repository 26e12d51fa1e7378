import Mathlib.Data.List.Basic
import Mathlib.Tactic.NormNum

/-! # Words, addresses and byte orders

The fuzz input keeps 256-bit quantities as `EVMU256` (ruint's `Uint<256, 4>`) and
accounts as `EVMAddress` (an `H160`). The environment mutators pass values through
big-endian buffers (`to_be_bytes`, `try_from_be_slice`); the bridge to the native runner
passes them through little-endian buffers (`to_le_bytes`, `as_le_bytes`) and reverses
address bytes.

Both byte orders are the fixed-width base-256 expansion `leBytes`, read forwards or
backwards. Everything the mutator and bridge laws need comes from the two round trips
`ofLeBytes_leBytes` and `leBytes_ofLeBytes`; for words they become
`tryFromBeSlice_toBeBytes` (decoding undoes encoding) and `tryFromBeSlice_of_length`
(every 32-byte buffer is the encoding of the word it decodes to).
-/

namespace Mau

/-- The `width` low base-256 digits of `n`, least significant first. -/
def leBytes : Nat → Nat → List UInt8
  | 0, _ => []
  | width + 1, n => UInt8.ofNat n :: leBytes width (n / 256)

/-- The number whose base-256 digits, least significant first, are the given bytes. -/
def ofLeBytes : List UInt8 → Nat
  | [] => 0
  | digit :: rest => digit.toNat + 256 * ofLeBytes rest

/-- The number whose base-256 digits, most significant first, are the given bytes. -/
def ofBeBytes (bytes : List UInt8) : Nat := ofLeBytes bytes.reverse

@[simp] theorem ofLeBytes_nil : ofLeBytes [] = 0 := rfl

@[simp] theorem ofLeBytes_cons (digit : UInt8) (rest : List UInt8) :
    ofLeBytes (digit :: rest) = digit.toNat + 256 * ofLeBytes rest := rfl

@[simp] theorem length_leBytes (width n : Nat) : (leBytes width n).length = width := by
  induction width generalizing n with
  | zero => rfl
  | succ width ih => simp only [leBytes, List.length_cons, ih]

/-- A byte keeps the residue of the number it is made from. -/
theorem toNat_uint8_ofNat (n : Nat) : (UInt8.ofNat n).toNat = n % 256 :=
  BitVec.toNat_ofNat n 8

theorem ofLeBytes_leBytes (width n : Nat) : ofLeBytes (leBytes width n) = n % 256 ^ width := by
  induction width generalizing n with
  | zero => simp only [leBytes, ofLeBytes_nil, pow_zero, Nat.mod_one]
  | succ width ih =>
    rw [leBytes, ofLeBytes_cons, ih, toNat_uint8_ofNat, pow_succ', Nat.mod_mul]

theorem ofLeBytes_lt (bytes : List UInt8) : ofLeBytes bytes < 256 ^ bytes.length := by
  induction bytes with
  | nil => simp only [ofLeBytes_nil, List.length_nil, pow_zero, Nat.lt_one_iff]
  | cons digit rest ih =>
    have small : digit.toNat < 256 := UInt8.toNat_lt_size digit
    rw [ofLeBytes_cons, List.length_cons, pow_succ']
    omega

theorem leBytes_ofLeBytes (bytes : List UInt8) :
    leBytes bytes.length (ofLeBytes bytes) = bytes := by
  induction bytes with
  | nil => rfl
  | cons digit rest ih =>
    have small : digit.toNat < 256 := UInt8.toNat_lt_size digit
    have low : UInt8.ofNat (digit.toNat + 256 * ofLeBytes rest) = digit :=
      UInt8.toNat.inj (by rw [toNat_uint8_ofNat]; omega)
    have high : (digit.toNat + 256 * ofLeBytes rest) / 256 = ofLeBytes rest := by omega
    rw [List.length_cons, leBytes, ofLeBytes_cons, low, high, ih]

theorem ofLeBytes_append (low high : List UInt8) :
    ofLeBytes (low ++ high) = ofLeBytes low + 256 ^ low.length * ofLeBytes high := by
  induction low with
  | nil => simp
  | cons digit rest ih =>
    rw [List.cons_append, ofLeBytes_cons, ofLeBytes_cons, ih, List.length_cons, pow_succ',
      Nat.mul_add, Nat.mul_assoc, Nat.add_assoc]

@[simp] theorem ofLeBytes_replicate_zero (count : Nat) :
    ofLeBytes (List.replicate count 0) = 0 := by
  induction count with
  | zero => rfl
  | succ count ih => simp [List.replicate_succ, ih]

/-- Leading zero bytes do not change a big-endian value. -/
theorem ofBeBytes_zeros_append (count : Nat) (bytes : List UInt8) :
    ofBeBytes (List.replicate count 0 ++ bytes) = ofBeBytes bytes := by
  simp [ofBeBytes, ofLeBytes_append]

theorem ofBeBytes_lt (bytes : List UInt8) : ofBeBytes bytes < 256 ^ bytes.length := by
  simpa [ofBeBytes] using ofLeBytes_lt bytes.reverse

/-- Unsigned 256-bit words, the crate's `EVMU256`. -/
abbrev EVMU256 := Fin (2 ^ 256)

theorem two_pow_256 : (2 : Nat) ^ 256 = 256 ^ 32 := by norm_num

/-- ruint's `to_le_bytes::<32>` (and `as_le_bytes`): the word's 32 bytes, least significant
first. -/
def toLeBytes (word : EVMU256) : List UInt8 := leBytes 32 word.val

/-- ruint's `to_be_bytes::<32>`: the word's 32 bytes, most significant first. -/
def toBeBytes (word : EVMU256) : List UInt8 := (toLeBytes word).reverse

/-- ruint's `try_from_be_slice`: the big-endian value of a slice of any length, when it is
below `2 ^ 256`. -/
def tryFromBeSlice (bytes : List UInt8) : Option EVMU256 :=
  if fits : ofBeBytes bytes < 2 ^ 256 then some ⟨ofBeBytes bytes, fits⟩ else none

@[simp] theorem length_toLeBytes (word : EVMU256) : (toLeBytes word).length = 32 :=
  length_leBytes 32 word.val

@[simp] theorem length_toBeBytes (word : EVMU256) : (toBeBytes word).length = 32 := by
  simp [toBeBytes]

theorem ofLeBytes_toLeBytes (word : EVMU256) : ofLeBytes (toLeBytes word) = word.val := by
  rw [toLeBytes, ofLeBytes_leBytes, ← two_pow_256, Nat.mod_eq_of_lt word.isLt]

theorem ofBeBytes_toBeBytes (word : EVMU256) : ofBeBytes (toBeBytes word) = word.val := by
  rw [ofBeBytes, toBeBytes, List.reverse_reverse, ofLeBytes_toLeBytes]

/-- Decoding a word's big-endian bytes gives the word back. -/
theorem tryFromBeSlice_toBeBytes (word : EVMU256) :
    tryFromBeSlice (toBeBytes word) = some word := by
  simp [tryFromBeSlice, ofBeBytes_toBeBytes]

theorem toBeBytes_injective : Function.Injective toBeBytes := fun first second same => by
  simpa [tryFromBeSlice_toBeBytes] using congrArg tryFromBeSlice same

/-- Every 32-byte buffer decodes, and it is the big-endian encoding of the word it decodes to. -/
theorem tryFromBeSlice_of_length {bytes : List UInt8} (length : bytes.length = 32) :
    ∃ word, tryFromBeSlice bytes = some word ∧ toBeBytes word = bytes ∧
      word.val = ofBeBytes bytes := by
  have fits : ofBeBytes bytes < 2 ^ 256 := by
    simpa [two_pow_256, length] using ofBeBytes_lt bytes
  refine ⟨⟨ofBeBytes bytes, fits⟩, by rw [tryFromBeSlice, dif_pos fits], ?_, rfl⟩
  have digits := leBytes_ofLeBytes bytes.reverse
  rw [List.length_reverse, length] at digits
  show (leBytes 32 (ofBeBytes bytes)).reverse = bytes
  rw [ofBeBytes, digits, List.reverse_reverse]

/-- A 20-byte account address, the crate's `EVMAddress`. -/
structure EVMAddress where
  /-- The bytes in stored order, as `to_fixed_bytes` returns them. -/
  bytes : List UInt8
  length_bytes : bytes.length = 20
  deriving DecidableEq

/-- `H160::to_fixed_bytes`. -/
def EVMAddress.toFixedBytes (address : EVMAddress) : List UInt8 := address.bytes

end Mau
