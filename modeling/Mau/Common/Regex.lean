import Mathlib.Data.List.Basic

/-! # Patterns anchored at the start of a text

heimdall's `common::consts` checks decompile targets against `regex::Regex` patterns written
with a small part of the crate's syntax: literal characters, character classes, groups, the
repetitions `?`, `*`, `{m}` and `{m,n}`, and the anchors `^` and `$` around the whole pattern.
`Regex` is that part as the crate's HIR has it, every repetition a `rep` with a minimum and an
optional maximum; `Pattern` is a body anchored at the start of the text and possibly at its end.

A regex is read as the texts left over after each way it can match a prefix, in the crate's
leftmost-first order of preference (`Regex.ends`): a greedy repetition prefers one more round to
stopping. `Pattern.isMatch` and `Pattern.find` are the crate's `is_match` and `find`.

A repetition whose body has at most one way to match (`Regex.Deterministic`) leaves exactly
the texts its body reaches in a number of rounds between the bounds (`Regex.mem_repeatEnds`),
and prefers the most rounds it can take (`Regex.head?_repeatEnds`).
-/

namespace Mau.Common

/-- The syntax of the target patterns, as the crate's HIR has it. -/
inductive Regex
  | char (c : Char)
  | charClass (ranges : List (Char × Char))
  | concat (first second : Regex)
  | rep (body : Regex) (min : Nat) (max : Option Nat)
  deriving DecidableEq, Repr

namespace Regex

/-- A character lies in one of a class's ranges. -/
def inClass (ranges : List (Char × Char)) (c : Char) : Bool :=
  ranges.any fun range => range.1 ≤ c && c ≤ range.2

/-- One character that satisfies a test, and what is left after it. -/
def charStep (test : Char → Bool) : List Char → Option (List Char)
  | c :: rest => if test c then some rest else none
  | [] => none

/-- The rounds of a greedy repetition: at least `min` and at most `max` rounds of `step`, most
rounds first. -/
def repeatEnds (step : List Char → List (List Char)) : Nat → Nat → List Char → List (List Char)
  | 0, 0, text => [text]
  | 0, max + 1, text => (step text).flatMap (repeatEnds step 0 max) ++ [text]
  | _ + 1, 0, _ => []
  | min + 1, max + 1, text => (step text).flatMap (repeatEnds step min max)

/-- **Leftmost-first matching.** What is left of the text after each way the regex matches a
prefix of it, the crate's preferred way first. An unbounded repetition takes at most one round
per character, which loses no match when its body never matches the empty text. -/
def ends : Regex → List Char → List (List Char)
  | char c, text => (charStep (· = c) text).toList
  | charClass ranges, text => (charStep (inClass ranges) text).toList
  | concat first second, text => (ends first text).flatMap (ends second)
  | rep body min (some max), text => repeatEnds (ends body) min max text
  | rep body min none, text => repeatEnds (ends body) min (min + text.length) text

@[simp] theorem ends_concat (first second : Regex) (text : List Char) :
    (concat first second).ends text = (first.ends text).flatMap second.ends := rfl

@[simp] theorem ends_rep_some (body : Regex) (min max : Nat) (text : List Char) :
    (rep body min (some max)).ends text = repeatEnds body.ends min max text := rfl

@[simp] theorem ends_rep_none (body : Regex) (min : Nat) (text : List Char) :
    (rep body min none).ends text = repeatEnds body.ends min (min + text.length) text := rfl

/-- `rounds` rounds of a step that has at most one way to go on. -/
def iterate (next : List Char → Option (List Char)) : Nat → List Char → Option (List Char)
  | 0, text => some text
  | rounds + 1, text => (next text).bind (iterate next rounds)

/-- A regex matches each text in at most one way, the one `next` gives. -/
def Deterministic (regex : Regex) (next : List Char → Option (List Char)) : Prop :=
  ∀ text, regex.ends text = (next text).toList

theorem deterministic_char (c : Char) : (char c).Deterministic (charStep (· = c)) :=
  fun _ => rfl

theorem deterministic_charClass (ranges : List (Char × Char)) :
    (charClass ranges).Deterministic (charStep (inClass ranges)) :=
  fun _ => rfl

theorem Deterministic.concat {first second : Regex} {next₁ next₂ : List Char → Option (List Char)}
    (early : first.Deterministic next₁) (late : second.Deterministic next₂) :
    (concat first second).Deterministic fun text => (next₁ text).bind next₂ := fun text => by
  dsimp only
  rw [ends_concat, early text]
  cases next₁ text <;> simp [late _]

@[simp] theorem iterate_zero (next : List Char → Option (List Char)) (text : List Char) :
    iterate next 0 text = some text := rfl

theorem iterate_succ_eq_some {next : List Char → Option (List Char)} {rounds : Nat}
    {text rest : List Char} :
    iterate next (rounds + 1) text = some rest ↔
      ∃ mid, next text = some mid ∧ iterate next rounds mid = some rest :=
  Option.bind_eq_some

/-- Rounds of a one-character test take the characters of a prefix that all pass it. -/
theorem iterate_charStep_eq_some {test : Char → Bool} :
    ∀ (rounds : Nat) (text rest : List Char), iterate (charStep test) rounds text = some rest ↔
      rounds ≤ text.length ∧ (∀ c ∈ text.take rounds, test c) ∧ rest = text.drop rounds
  | 0, text, rest => by
    simp only [iterate_zero, Option.some.injEq, Nat.zero_le, List.take_zero, List.not_mem_nil,
      false_implies, implies_true, List.drop_zero, true_and]
    exact eq_comm
  | rounds + 1, [], rest => by simp [iterate_succ_eq_some, charStep]
  | rounds + 1, c :: text, rest => by
    rw [iterate_succ_eq_some]
    by_cases passes : test c
    · simp [charStep, passes, iterate_charStep_eq_some rounds text rest]
    · simp [charStep, passes]

section Deterministic

variable {body : Regex} {next : List Char → Option (List Char)}

theorem mem_flatMap_ends (deterministic : body.Deterministic next)
    {text rest : List Char} {later : List Char → List (List Char)} :
    rest ∈ (body.ends text).flatMap later ↔ ∃ mid, next text = some mid ∧ rest ∈ later mid := by
  simp [deterministic text]

/-- A repetition of a deterministic body leaves exactly the texts the body reaches in a number
of rounds between the bounds. -/
theorem mem_repeatEnds (deterministic : body.Deterministic next) :
    ∀ (min max : Nat) (text rest : List Char), rest ∈ repeatEnds body.ends min max text ↔
      ∃ rounds, min ≤ rounds ∧ rounds ≤ max ∧ iterate next rounds text = some rest
  | 0, 0, text, rest => by simp [repeatEnds, eq_comm]
  | _ + 1, 0, _, _ => by simp [repeatEnds]; omega
  | 0, max + 1, text, rest => by
    simp only [repeatEnds, List.mem_append, mem_flatMap_ends deterministic,
      mem_repeatEnds deterministic 0 max, List.mem_singleton]
    constructor
    · rintro (⟨mid, stepped, rounds, -, atMost, reached⟩ | rfl)
      · exact ⟨rounds + 1, by omega, by omega, iterate_succ_eq_some.mpr ⟨mid, stepped, reached⟩⟩
      · exact ⟨0, le_rfl, by omega, rfl⟩
    · rintro ⟨_ | rounds, -, atMost, reached⟩
      · exact Or.inr (Option.some.inj reached).symm
      · obtain ⟨mid, stepped, reached⟩ := iterate_succ_eq_some.mp reached
        exact Or.inl ⟨mid, stepped, rounds, Nat.zero_le _, by omega, reached⟩
  | min + 1, max + 1, text, rest => by
    simp only [repeatEnds, mem_flatMap_ends deterministic, mem_repeatEnds deterministic min max]
    constructor
    · rintro ⟨mid, stepped, rounds, atLeast, atMost, reached⟩
      exact ⟨rounds + 1, by omega, by omega, iterate_succ_eq_some.mpr ⟨mid, stepped, reached⟩⟩
    · rintro ⟨_ | rounds, atLeast, atMost, reached⟩
      · omega
      · obtain ⟨mid, stepped, reached⟩ := iterate_succ_eq_some.mp reached
        exact ⟨mid, stepped, rounds, by omega, by omega, reached⟩

/-- **Greedy rounds.** When the body reaches a text it cannot go on from within the bound, the
preferred way of a repetition from zero rounds is to take every one of those rounds. -/
theorem head?_repeatEnds (deterministic : body.Deterministic next) :
    ∀ (rounds max : Nat) (text rest : List Char), rounds ≤ max →
      iterate next rounds text = some rest → next rest = none →
      (repeatEnds body.ends 0 max text).head? = some rest
  | 0, 0, _, _, _, reached, _ => by cases reached; rfl
  | 0, max + 1, _, _, _, reached, stuck => by
    cases reached
    simp [repeatEnds, deterministic _, stuck]
  | rounds + 1, 0, _, _, atMost, _, _ => absurd atMost (by omega)
  | rounds + 1, max + 1, text, rest, atMost, reached, stuck => by
    obtain ⟨mid, stepped, reached⟩ := iterate_succ_eq_some.mp reached
    rw [repeatEnds, deterministic, stepped, Option.toList_some, List.flatMap_singleton,
      List.head?_append,
      head?_repeatEnds deterministic rounds max mid rest (by omega) reached stuck]
    rfl

end Deterministic

end Regex

/-- A pattern anchored at the start of the text: `^body`, or `^body$` when `anchoredEnd`. -/
structure Pattern where
  body : Regex
  anchoredEnd : Bool
  deriving DecidableEq, Repr

namespace Pattern

/-- What a match of the pattern may leave of the text, the preferred match first: under `$`
only the empty text. -/
def rests (pattern : Pattern) (text : List Char) : List (List Char) :=
  (pattern.body.ends text).filter fun rest => !pattern.anchoredEnd || rest.isEmpty

/-- `Regex::is_match`. -/
def isMatch (pattern : Pattern) (text : String) : Bool :=
  !(pattern.rests text.toList).isEmpty

/-- `Regex::find`: the end of the leftmost-first match, which starts at `0`. The offset counts
characters, which are bytes wherever the matched text is ASCII. -/
def find (pattern : Pattern) (text : String) : Option Nat :=
  (pattern.rests text.toList).head?.map fun rest => text.toList.length - rest.length

/-- A pattern anchored at both ends matches the texts its body matches whole. -/
theorem isMatch_of_anchoredEnd {pattern : Pattern} (anchored : pattern.anchoredEnd = true)
    (text : String) : pattern.isMatch text = true ↔ [] ∈ pattern.body.ends text.toList := by
  simp [isMatch, rests, anchored, List.filter_eq_nil_iff]

/-- A pattern anchored only at the start prefers the same match as its body. -/
theorem rests_of_not_anchoredEnd {pattern : Pattern} (open_ : pattern.anchoredEnd = false)
    (text : List Char) : pattern.rests text = pattern.body.ends text := by
  simp [rests, open_]

end Pattern

end Mau.Common
