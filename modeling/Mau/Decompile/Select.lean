import Mau.HashMap

/-! # Decompiled functions and the selection of a signature

`decompile_with_bytecode` (heimdall's `decompile/mod.rs`) analyses each discovered selector
into a `Function` record and, unless resolving is skipped, fills the record's resolved
signatures from signature lookups. The record, the resolved signatures and the raw event
descriptors are declared outside the repository and are modelled from the spec's data model.
The symbolic execution, the lookups and the interactive prompt are collaborators the driver
only calls (`Collaborators`).

The three places where the driver picks one of several candidate signatures run the same code:
prompt with the candidates' texts and the default `(len - 1) as u8`, then take the candidate
at the answer, exiting on an index out of range (`selectMatch`). When the prompt answers its
default, it never exits, and it picks the candidate at `(len - 1) % 256`
(`selectMatch_default`). The three sites sit under `if !skip_resolving`, so
`decompile_with_bytecode`, which sets `skip_resolving`, reaches none of them.
-/

namespace Mau.Decompile

/-- Modelled from the spec: a resolved signature, "text_signature, input type list, optional
human-readable name", as `ResolvedFunction`, `ResolvedError` and `ResolvedLog` carry it. -/
structure ResolvedSignature where
  name : String
  signature : String
  inputs : List String
  deriving DecidableEq

/-- Modelled from the spec: an argument's calldata frame, "slot, mask_size, heuristics". -/
structure CalldataFrame where
  slot : Nat
  maskSize : Nat
  heuristics : List String
  deriving DecidableEq

/-- Modelled from the spec: the raw descriptor of an emitted event, its topics and data. -/
structure Log where
  index : Nat
  topics : List Nat
  data : List UInt8
  deriving DecidableEq

/-- Modelled from the spec: the decompiler's `Function` record. -/
structure Function where
  selector : String
  entryPoint : Nat
  arguments : HashMap Nat (CalldataFrame × List String)
  storage : HashMap String String
  memory : HashMap Nat String
  returns : Option String
  logic : List String
  events : HashMap String (Option ResolvedSignature × Log)
  errors : HashMap String (Option ResolvedSignature)
  resolvedFunction : Option ResolvedSignature
  pure : Bool
  view : Bool
  payable : Bool
  deriving DecidableEq

/-- The record `decompile_with_bytecode` hands to the analysis of a selector. -/
def Function.initial (selector : String) (entryPoint : Nat) : Function where
  selector := selector
  entryPoint := entryPoint
  arguments := HashMap.empty
  storage := HashMap.empty
  memory := HashMap.empty
  returns := none
  logic := []
  events := HashMap.empty
  errors := HashMap.empty
  resolvedFunction := none
  pure := true
  view := true
  payable := false

/-- What the driver calls and does not define: selector discovery, `resolve_entry_point`,
`map_selector` followed by the analysis of its execution tree, the signature lookups,
`match_parameters`, and the logger's prompt `option(.., choices, default, default_val)`. -/
structure Collaborators where
  findFunctionSelectors : String → List String
  resolveEntryPoint : String → Nat
  analyze : String → Nat → Function → Function
  resolveFunctionSelectors : List String → HashMap String (List ResolvedSignature)
  matchParameters : List ResolvedSignature → Function → List ResolvedSignature
  resolveErrorSignature : String → Option (List ResolvedSignature)
  resolveEventSignature : String → Option (List ResolvedSignature)
  option : List String → Option UInt8 → Bool → UInt8

/-- How the driver stops early: `logger.error("invalid selection."); std::process::exit(1)`,
or a panic at an `unwrap` of `None`. -/
inductive DecompileExit
  | invalidSelection
  | panic
  deriving DecidableEq, Repr

/-- The index chosen among the candidates: the prompt's answer when there are several, with
default `(len - 1) as u8`, and `0` otherwise. -/
def selectIndex (option : List String → Option UInt8 → Bool → UInt8) (defaultVal : Bool)
    (candidates : List ResolvedSignature) : UInt8 :=
  if candidates.length > 1 then
    option (candidates.map (·.signature)) (some (UInt8.ofNat (candidates.length - 1))) defaultVal
  else 0

/-- **The selection at the three sites.** The candidate at the chosen index, or the exit on
"invalid selection." when there is none. -/
def selectMatch (option : List String → Option UInt8 → Bool → UInt8) (defaultVal : Bool)
    (candidates : List ResolvedSignature) : Except DecompileExit ResolvedSignature :=
  match candidates[(selectIndex option defaultVal candidates).toNat]? with
  | some selected => .ok selected
  | none => .error .invalidSelection

/-- The selected signature is one of the candidates. -/
theorem selectMatch_mem {option : List String → Option UInt8 → Bool → UInt8} {defaultVal : Bool}
    {candidates : List ResolvedSignature} {selected : ResolvedSignature}
    (chosen : selectMatch option defaultVal candidates = .ok selected) : selected ∈ candidates := by
  unfold selectMatch at chosen
  split at chosen
  · cases chosen
    exact List.getElem?_mem ‹_›
  · cases chosen

/-- The prompt answers with the default it is given whenever default selection is on. -/
def AnswersDefault (option : List String → Option UInt8 → Bool → UInt8) : Prop :=
  ∀ choices index, option choices (some index) true = index

/-- With default selection on, a nonempty candidate list never reaches the exit, and the
candidate taken is the one at `(len - 1) % 256`. -/
theorem selectMatch_default {option : List String → Option UInt8 → Bool → UInt8}
    (defaults : AnswersDefault option) {candidates : List ResolvedSignature}
    (nonempty : candidates ≠ []) :
    ∃ selected, selectMatch option true candidates = .ok selected ∧
      candidates[(candidates.length - 1) % 256]? = some selected := by
  have positive : 0 < candidates.length := List.length_pos.mpr nonempty
  have index : (selectIndex option true candidates).toNat = (candidates.length - 1) % 256 := by
    unfold selectIndex
    split
    · rw [defaults]
      exact BitVec.toNat_ofNat _ 8
    · rw [UInt8.toNat_zero]
      omega
  have inside : (candidates.length - 1) % 256 < candidates.length :=
    lt_of_le_of_lt (Nat.mod_le _ _) (by omega)
  refine ⟨candidates[(candidates.length - 1) % 256], ?_, List.getElem?_eq_getElem inside⟩
  rw [selectMatch, index, List.getElem?_eq_getElem inside]

/-- A resolved signature whose every text is the given one. -/
def signatureOf (text : String) : ResolvedSignature := ⟨text, text, []⟩

end Mau.Decompile
