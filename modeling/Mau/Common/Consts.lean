import Mau.Common.Regex

/-! # The patterns of the decompile targets

`common/src/consts.rs` compiles the patterns that heimdall validates a target with: an address,
a transaction hash, or raw bytecode of at most 50000 hexadecimal digits, each with an optional
`0x`; and the pattern for the `0x` and null-byte prefix that is cut off a bytecode text.

The three target patterns share one shape (`hexTarget`), and a text matches it exactly when it
is an optional `0x` followed by a number of hexadecimal digits between the bounds
(`hexTarget_isMatch_iff`, instantiated in `targetRegexes_accept`): the bytecode pattern
accepts the empty text, `0x` alone and an odd number of digits. The leftmost-first match of the
prefix pattern is the `0x` with every `00` pair after it, and a text without `0x` has none
(`reduceHexRegex_find`).
-/

namespace Mau.Common

open Regex

/-- A hexadecimal digit, in either case. -/
def IsHexDigit (c : Char) : Prop := '0' ≤ c ∧ c ≤ '9' ∨ 'a' ≤ c ∧ c ≤ 'f' ∨ 'A' ≤ c ∧ c ≤ 'F'

instance : DecidablePred IsHexDigit := fun _ => inferInstanceAs (Decidable (_ ∨ _ ∨ _))

/-- `[0-9a-fA-F]`. -/
def hexDigit : Regex := .charClass [('0', '9'), ('a', 'f'), ('A', 'F')]

/-- `^(0x)?[0-9a-fA-F]{min,max}$`, the shape of the address, transaction-hash and bytecode
patterns. -/
def hexTarget (min max : Nat) : Pattern where
  body := .concat (.rep (.concat (.char '0') (.char 'x')) 0 (some 1)) (.rep hexDigit min (some max))
  anchoredEnd := true

/-- `ADDRESS_REGEX`, `^(0x)?[0-9a-fA-F]{40}$`. -/
def addressRegex : Pattern := hexTarget 40 40

/-- `TRANSACTION_HASH_REGEX`, `^(0x)?[0-9a-fA-F]{64}$`. -/
def transactionHashRegex : Pattern := hexTarget 64 64

/-- `BYTECODE_REGEX`, `^(0x)?[0-9a-fA-F]{0,50000}$`. -/
def bytecodeRegex : Pattern := hexTarget 0 50000

/-- `REDUCE_HEX_REGEX`, `^0x(00)*`. -/
def reduceHexRegex : Pattern where
  body := .concat (.concat (.char '0') (.char 'x')) (.rep (.concat (.char '0') (.char '0')) 0 none)
  anchoredEnd := false

theorem inClass_hexDigit (c : Char) :
    inClass [('0', '9'), ('a', 'f'), ('A', 'F')] c = true ↔ IsHexDigit c := by
  simp [inClass, IsHexDigit]

/-- The two characters `0x`, and what follows them. -/
def hexPrefixStep (text : List Char) : Option (List Char) :=
  (charStep (· = '0') text).bind (charStep (· = 'x'))

theorem hexPrefixStep_eq_some {text rest : List Char} :
    hexPrefixStep text = some rest ↔ text = '0' :: 'x' :: rest := by
  match text with
  | [] => simp [hexPrefixStep, charStep]
  | [c] => by_cases zero : c = '0' <;> simp [hexPrefixStep, charStep, zero]
  | c :: d :: text =>
    by_cases zero : c = '0' <;> by_cases ex : d = 'x' <;>
      simp [hexPrefixStep, charStep, zero, ex, eq_comm]

theorem hexPrefixStep_eq_none {text : List Char} (bare : text.take 2 ≠ ['0', 'x']) :
    hexPrefixStep text = none :=
  Option.eq_none_iff_forall_not_mem.mpr fun _ stepped =>
    bare (by rw [hexPrefixStep_eq_some.mp stepped]; rfl)

theorem deterministic_hexPrefix :
    (Regex.concat (.char '0') (.char 'x')).Deterministic hexPrefixStep :=
  (deterministic_char '0').concat (deterministic_char 'x')

theorem deterministic_hexDigit :
    hexDigit.Deterministic (charStep (inClass [('0', '9'), ('a', 'f'), ('A', 'F')])) :=
  deterministic_charClass _

/-- A run of hexadecimal digits leaves nothing exactly when its length is within the bounds. -/
theorem nil_mem_hexDigits {min max : Nat} {digits : List Char} :
    [] ∈ repeatEnds hexDigit.ends min max digits ↔
      min ≤ digits.length ∧ digits.length ≤ max ∧ ∀ c ∈ digits, IsHexDigit c := by
  simp only [mem_repeatEnds deterministic_hexDigit, iterate_charStep_eq_some,
    ← inClass_hexDigit]
  constructor
  · rintro ⟨rounds, atLeast, atMost, long, passing, empty⟩
    have whole : rounds = digits.length := by
      have := List.drop_eq_nil_iff.mp empty.symm
      omega
    subst whole
    exact ⟨atLeast, atMost, by simpa using passing⟩
  · rintro ⟨atLeast, atMost, passing⟩
    exact ⟨digits.length, atLeast, atMost, le_rfl, by simpa using passing, by simp⟩

/-- **The target patterns.** A text matches `^(0x)?[0-9a-fA-F]{min,max}$` exactly when it is
an optional `0x` followed by between `min` and `max` hexadecimal digits. -/
theorem hexTarget_isMatch_iff (min max : Nat) (text : String) :
    (hexTarget min max).isMatch text = true ↔
      ∃ digits, (text.toList = '0' :: 'x' :: digits ∨ text.toList = digits) ∧
        min ≤ digits.length ∧ digits.length ≤ max ∧ ∀ c ∈ digits, IsHexDigit c := by
  rw [Pattern.isMatch_of_anchoredEnd rfl]
  simp only [hexTarget, ends_concat, ends_rep_some, List.mem_flatMap,
    mem_repeatEnds deterministic_hexPrefix, nil_mem_hexDigits]
  constructor
  · rintro ⟨digits, ⟨_ | _ | rounds, -, atMost, reached⟩, matched⟩
    · exact ⟨digits, Or.inr (Option.some.inj reached), matched⟩
    · obtain ⟨mid, stepped, reached⟩ := iterate_succ_eq_some.mp reached
      cases reached
      exact ⟨digits, Or.inl (hexPrefixStep_eq_some.mp stepped), matched⟩
    · omega
  · rintro ⟨digits, prefixed | bare, matched⟩
    · exact ⟨digits, ⟨1, Nat.zero_le _, le_rfl,
        iterate_succ_eq_some.mpr ⟨digits, hexPrefixStep_eq_some.mpr prefixed, rfl⟩⟩, matched⟩
    · exact ⟨digits, ⟨0, le_rfl, Nat.zero_le _, congrArg some bare⟩, matched⟩

/-- The address, transaction-hash and bytecode patterns accept exactly an optional `0x`
followed by 40 hexadecimal digits, by 64, and by at most 50000. -/
theorem targetRegexes_accept (text : String) :
    (addressRegex.isMatch text = true ↔ ∃ digits,
      (text.toList = '0' :: 'x' :: digits ∨ text.toList = digits) ∧
        digits.length = 40 ∧ ∀ c ∈ digits, IsHexDigit c) ∧
    (transactionHashRegex.isMatch text = true ↔ ∃ digits,
      (text.toList = '0' :: 'x' :: digits ∨ text.toList = digits) ∧
        digits.length = 64 ∧ ∀ c ∈ digits, IsHexDigit c) ∧
    (bytecodeRegex.isMatch text = true ↔ ∃ digits,
      (text.toList = '0' :: 'x' :: digits ∨ text.toList = digits) ∧
        digits.length ≤ 50000 ∧ ∀ c ∈ digits, IsHexDigit c) := by
  have exactly : ∀ count, (hexTarget count count).isMatch text = true ↔ ∃ digits,
      (text.toList = '0' :: 'x' :: digits ∨ text.toList = digits) ∧
        digits.length = count ∧ ∀ c ∈ digits, IsHexDigit c := fun count => by
    rw [hexTarget_isMatch_iff]
    refine exists_congr fun digits => and_congr_right fun _ => ?_
    constructor
    · rintro ⟨atLeast, atMost, hex⟩
      exact ⟨by omega, hex⟩
    · rintro ⟨counted, hex⟩
      exact ⟨by omega, by omega, hex⟩
  refine ⟨exactly 40, exactly 64, ?_⟩
  rw [bytecodeRegex, hexTarget_isMatch_iff]
  simp only [Nat.zero_le, true_and]

example : bytecodeRegex.isMatch "0x123" = true := by decide

/-- The two characters `00`, and what follows them. -/
def zeroPairStep (text : List Char) : Option (List Char) :=
  (charStep (· = '0') text).bind (charStep (· = '0'))

theorem zeroPairStep_eq_none {text : List Char} :
    zeroPairStep text = none ↔ text.take 2 ≠ ['0', '0'] := by
  match text with
  | [] => simp [zeroPairStep, charStep]
  | [c] => simp [zeroPairStep, charStep]
  | c :: d :: text =>
    by_cases zero : c = '0' <;> by_cases zero' : d = '0' <;>
      simp [zeroPairStep, charStep, zero, zero']

theorem deterministic_zeroPair :
    (Regex.concat (.char '0') (.char '0')).Deterministic zeroPairStep :=
  (deterministic_char '0').concat (deterministic_char '0')

theorem iterate_zeroPairStep (rest : List Char) :
    ∀ pairs, iterate zeroPairStep pairs (List.replicate (2 * pairs) '0' ++ rest) = some rest
  | 0 => rfl
  | pairs + 1 => by
    rw [show 2 * (pairs + 1) = 2 * pairs + 1 + 1 by omega]
    exact iterate_succ_eq_some.mpr
      ⟨_, by simp [zeroPairStep, charStep, List.replicate_succ], iterate_zeroPairStep rest pairs⟩

/-- Every text is a run of `00` pairs followed by a text that does not start with one. -/
theorem exists_zeroPairs : ∀ digits : List Char, ∃ pairs rest,
    digits = List.replicate (2 * pairs) '0' ++ rest ∧ rest.take 2 ≠ ['0', '0']
  | c :: d :: digits => by
    by_cases pair : c = '0' ∧ d = '0'
    · obtain ⟨rfl, rfl⟩ := pair
      obtain ⟨pairs, rest, rfl, stuck⟩ := exists_zeroPairs digits
      refine ⟨pairs + 1, rest, ?_, stuck⟩
      rw [show 2 * (pairs + 1) = 2 * pairs + 1 + 1 by omega]
      rfl
    · exact ⟨0, c :: d :: digits, rfl, fun same => pair (by simpa using same)⟩
  | [c] => ⟨0, [c], rfl, by simp⟩
  | [] => ⟨0, [], rfl, by simp⟩

/-- The prefix pattern's matches: the `0x`, then the greedy rounds of `00`. -/
theorem reduceHexRegex_rests (text : List Char) :
    reduceHexRegex.rests text =
      (hexPrefixStep text).toList.flatMap
        (Regex.rep (.concat (.char '0') (.char '0')) 0 none).ends := by
  rw [Pattern.rests_of_not_anchoredEnd rfl]
  simp only [reduceHexRegex, ends_concat, deterministic_hexPrefix text]

/-- **The null-byte prefix.** `REDUCE_HEX_REGEX` matches only a text that starts with `0x`, and
its leftmost-first match is the `0x` with every `00` pair that follows it. -/
theorem reduceHexRegex_find (text : String) :
    (∀ digits, text.toList = '0' :: 'x' :: digits → ∃ pairs rest,
      digits = List.replicate (2 * pairs) '0' ++ rest ∧ rest.take 2 ≠ ['0', '0'] ∧
        reduceHexRegex.find text = some (2 + 2 * pairs)) ∧
    (text.toList.take 2 ≠ ['0', 'x'] → reduceHexRegex.find text = none) := by
  refine ⟨fun digits prefixed => ?_, fun bare => ?_⟩
  · obtain ⟨pairs, rest, rfl, stuck⟩ := exists_zeroPairs digits
    have greedy := head?_repeatEnds deterministic_zeroPair pairs
      (List.replicate (2 * pairs) '0' ++ rest).length _ rest (by simp; omega)
      (iterate_zeroPairStep rest pairs) (zeroPairStep_eq_none.mpr stuck)
    refine ⟨pairs, rest, rfl, stuck, ?_⟩
    simp only [Pattern.find, reduceHexRegex_rests, prefixed, hexPrefixStep_eq_some.mpr rfl,
      Option.toList_some, List.flatMap_singleton, ends_rep_none, Nat.zero_add, greedy,
      Option.map_some', Option.some.injEq]
    simp only [List.length_cons, List.length_append, List.length_replicate]
    omega
  · simp only [Pattern.find, reduceHexRegex_rests, hexPrefixStep_eq_none bare, Option.toList_none,
      List.flatMap_nil, List.head?_nil, Option.map_none']

example : reduceHexRegex.find "0x0000ab" = some 6 := by decide

end Mau.Common
