import Mathlib.Data.Nat.Digits
import Mau.Mutator

/-! # Corpus file names

libafl stores each corpus entry in a file named by `Input::generate_name`, which for an
`EVMInput` is `format!("input-{:06}.bin", idx)`: the index in decimal, padded with zeros on the
left to six characters, and left as it is when it is longer. The name ignores the input.

Distinct indices get distinct names, padded or not, and every index below a million a name of
sixteen characters (`generateName_distinct`), so no entry's file is written over by another's.
The proof reads the digits back into the index (`digitsValue_toString`) after cancelling the
fixed prefix and suffix; leading zeros do not change what the digits spell
(`digitsValue_zeros_append`).
-/

namespace Mau

/-- The zero padding of `{:06}`: zeros on the left up to `width` characters. -/
def zeroPad (width : Nat) (text : String) : String :=
  String.mk (List.replicate (width - text.length) '0') ++ text

/-- `Input::generate_name`: `format!("input-{:06}.bin", idx)`. -/
def EVMInput.generateName {ABI : Type} (_input : EVMInput ABI) (idx : Nat) : String :=
  "input-" ++ zeroPad 6 (toString idx) ++ ".bin"

/-- The number a list of decimal digit characters spells, most significant first. -/
def digitsValue (digits : List Char) : Nat :=
  digits.foldl (fun value digit => 10 * value + (digit.toNat - '0'.toNat)) 0

theorem digitsValue_append_singleton (digits : List Char) (digit : Char) :
    digitsValue (digits ++ [digit]) = 10 * digitsValue digits + (digit.toNat - '0'.toNat) := by
  simp only [digitsValue, List.foldl_append, List.foldl_cons, List.foldl_nil]

theorem digitsValue_zeros_append (count : Nat) (digits : List Char) :
    digitsValue (List.replicate count '0' ++ digits) = digitsValue digits := by
  have zeros : ∀ count, (List.replicate count '0').foldl
      (fun value digit => 10 * value + (digit.toNat - '0'.toNat)) 0 = 0 := by
    intro count
    induction count with
    | zero => rfl
    | succ count ih => rwa [List.replicate_succ, List.foldl_cons]
  rw [digitsValue, List.foldl_append, zeros]
  rfl

/-- The digit character of a number below ten is read back as that number. -/
theorem digitValue_digitChar :
    ∀ digit, digit < 10 → (Nat.digitChar digit).toNat - '0'.toNat = digit := by
  decide

/-- `Nat.toDigitsCore` puts the digits it produces in front of the ones it is given. -/
theorem toDigitsCore_append : ∀ (fuel number : Nat) (digits : List Char),
    Nat.toDigitsCore 10 fuel number digits = Nat.toDigitsCore 10 fuel number [] ++ digits
  | 0, _, _ => rfl
  | fuel + 1, number, digits => by
    simp only [Nat.toDigitsCore]
    split
    · rfl
    · rw [toDigitsCore_append fuel _ (_ :: digits), toDigitsCore_append fuel _ [_],
        List.append_assoc, List.singleton_append]

theorem digitsValue_toDigitsCore : ∀ (fuel number : Nat), number < fuel →
    digitsValue (Nat.toDigitsCore 10 fuel number []) = number
  | 0, _, empty => absurd empty (Nat.not_lt_zero _)
  | fuel + 1, number, enough => by
    have last := digitValue_digitChar (number % 10) (Nat.mod_lt _ (by decide))
    simp only [Nat.toDigitsCore]
    split
    · rename_i single
      rw [← List.nil_append [_], digitsValue_append_singleton, last]
      simp only [digitsValue, List.foldl_nil]
      omega
    · rename_i more
      rw [toDigitsCore_append, digitsValue_append_singleton, last,
        digitsValue_toDigitsCore fuel (number / 10) (by omega)]
      omega

theorem digitsValue_toString (number : Nat) : digitsValue (toString number).data = number :=
  digitsValue_toDigitsCore (number + 1) number (Nat.lt_succ_self number)

variable {ABI : Type}

theorem generateName_injective (input : EVMInput ABI) :
    Function.Injective input.generateName := by
  intro first second same
  have texts : (zeroPad 6 (toString first)).data = (zeroPad 6 (toString second)).data := by
    have characters := congrArg String.data same
    simp only [EVMInput.generateName, String.data_append] at characters
    exact List.append_cancel_left (List.append_cancel_right characters)
  have values := congrArg digitsValue texts
  simpa only [zeroPad, String.data_append, digitsValue_zeros_append, digitsValue_toString]
    using values

theorem length_generateName (input : EVMInput ABI) {idx : Nat} (small : idx < 10 ^ 6) :
    (input.generateName idx).length = 16 := by
  have digits : (toString idx).length ≤ 6 := Nat.repr_length idx 6 (by decide) small
  have prefixLength : "input-".length = 6 := rfl
  have suffixLength : ".bin".length = 4 := rfl
  simp only [EVMInput.generateName, zeroPad, String.length_append, String.length_mk,
    List.length_replicate, prefixLength, suffixLength]
  omega

/-- **Corpus names do not collide.** `generate_name` gives distinct indices distinct names,
whatever their number of digits, and every index below a million a name of sixteen
characters, `input-`, six digits and `.bin`. -/
theorem generateName_distinct (input : EVMInput ABI) :
    Function.Injective input.generateName ∧
      ∀ idx, idx < 10 ^ 6 → (input.generateName idx).length = 16 :=
  ⟨generateName_injective input, fun _ small => length_generateName input small⟩

/-- The names of entries seven and seventy differ, and that of entry 999999 has sixteen
characters. -/
theorem generateName_distinct_unflaggedInput :
    unflaggedInput.generateName 7 ≠ unflaggedInput.generateName 70 ∧
      (999999 : Nat) < 10 ^ 6 ∧ (unflaggedInput.generateName 999999).length = 16 :=
  ⟨fun same => absurd ((generateName_distinct unflaggedInput).1 same) (by decide), by decide,
    (generateName_distinct unflaggedInput).2 999999 (by decide)⟩

end Mau
