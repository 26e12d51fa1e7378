import Mau.Mutator

/-! # Mutating an input

`VMInputT::mutate` sends an input either to its payload's own mutator or, outside CUDA mode
with probability about 12% or whenever there is no payload, to
`mutate_env_with_access_pattern`, which runs one environment mutator drawn from those the
input's access pattern enables.

`EVMInput.mutate_cases` and `EVMInput.mutateEnvWithAccessPattern_cases` reduce both to
`EnvMutator.run_cases` and to the payload branch. From them: a call that reports `Skipped`
leaves the input as it was (`EVMInput.skipped_leaves_input`), and a call changes the payload,
or one environment field of a mutator the access pattern enables, and nothing else
(`EVMInput.mutate_frame`). An enabled mutator is not always a flagged one: `call_value` is
also enabled by a transaction value already present
(`EVMInput.mutate_writes_unflagged_txn_value`).
-/

namespace Mau

/-- The payload's mutator leaves its value as it was whenever it reports `Skipped`. -/
def FuzzState.PayloadSkipKeeps {σ ABI : Type} (fuzz : FuzzState σ ABI) : Prop :=
  ∀ state data slots, (fuzz.mutateWithVmSlots state data slots).1 = .skipped →
    (fuzz.mutateWithVmSlots state data slots).2.1 = data

namespace EVMInput

variable {σ ABI : Type} (fuzz : FuzzState σ ABI)

/-- The mutators `mutate_env_with_access_pattern` collects, in order. -/
def envMutators (input : EVMInput ABI) : List EnvMutator :=
  EnvMutator.all.filter (·.enabled input.accessPattern input.txnValue)

/-- `EVMInput::mutate_env_with_access_pattern`: skip when no mutator is enabled, otherwise run
the one at an index drawn below their number. -/
def mutateEnvWithAccessPattern (input : EVMInput ABI) (state : σ) :
    Option (MutationResult × EVMInput ABI × σ) :=
  let mutators := envMutators input
  if mutators.length = 0 then some (.skipped, input, state)
  else
    let (index, state) := fuzz.below state mutators.length
    match mutators[index]? with
    | some mutator => mutator.run fuzz input state
    | none => none

/-- The payload branch of `VMInputT::mutate`: the ABI value's own mutator, given the
contract's storage slots. -/
def mutatePayload (input : EVMInput ABI) (state : σ) :
    Option (MutationResult × EVMInput ABI × σ) :=
  match input.data with
  | some data =>
    let (res, data, state) := fuzz.mutateWithVmSlots state data input.vmSlots
    some (res, { input with data := some data }, state)
  | none => some (.skipped, input, state)

/-- `VMInputT::mutate`: outside CUDA mode a draw above 87 modulo 100, or a missing payload,
sends the input to the environment mutators; otherwise its payload is mutated. -/
def mutate (input : EVMInput ABI) (state : σ) : Option (MutationResult × EVMInput ABI × σ) :=
  if input.isCuda then mutatePayload fuzz input state
  else
    let (draw, state) := fuzz.next state
    if draw % 100 > 87 || input.data.isNone then mutateEnvWithAccessPattern fuzz input state
    else mutatePayload fuzz input state

theorem mem_envMutators {input : EVMInput ABI} {mutator : EnvMutator} :
    mutator ∈ envMutators input ↔ mutator.enabled input.accessPattern input.txnValue := by
  simp [envMutators, EnvMutator.mem_all]

variable {fuzz} {input input' : EVMInput ABI} {state state' : σ} {res : MutationResult}

theorem mutateEnvWithAccessPattern_cases
    (call : mutateEnvWithAccessPattern fuzz input state = some (res, input', state')) :
    res = .skipped ∧ input' = input ∨
      ∃ mutator ∈ envMutators input, ∃ drawn,
        mutator.run fuzz input drawn = some (res, input', state') := by
  simp only [mutateEnvWithAccessPattern] at call
  split at call
  · simp only [Option.some.injEq, Prod.mk.injEq] at call
    exact Or.inl ⟨call.1.symm, call.2.1.symm⟩
  · split at call
    · exact Or.inr ⟨_, List.getElem?_mem ‹_›, _, call⟩
    · cases call

/-- The payload branch writes the payload and nothing else. -/
theorem mutatePayload_writes_data
    (call : mutatePayload fuzz input state = some (res, input', state')) :
    ∃ data, input' = { input with data := data } := by
  unfold mutatePayload at call
  split at call <;> simp only [Option.some.injEq, Prod.mk.injEq] at call
  · exact ⟨_, call.2.1.symm⟩
  · exact ⟨input.data, by rw [← call.2.1]⟩

theorem mutatePayload_skipped (keeps : fuzz.PayloadSkipKeeps)
    (call : mutatePayload fuzz input state = some (.skipped, input', state')) : input' = input := by
  unfold mutatePayload at call
  split at call <;> simp only [Option.some.injEq, Prod.mk.injEq] at call
  · rename_i data present
    rw [← call.2.1, keeps state data input.vmSlots call.1, ← present]
  · exact call.2.1.symm

theorem mutate_cases (call : mutate fuzz input state = some (res, input', state')) :
    (∃ drawn, mutateEnvWithAccessPattern fuzz input drawn = some (res, input', state')) ∨
      ∃ drawn, mutatePayload fuzz input drawn = some (res, input', state') := by
  unfold mutate at call
  split at call
  · exact Or.inr ⟨_, call⟩
  · split at call
    split at call
    · exact Or.inl ⟨_, call⟩
    · exact Or.inr ⟨_, call⟩

theorem run_skipped {mutator : EnvMutator}
    (call : mutator.run fuzz input state = some (.skipped, input', state')) : input' = input := by
  rcases EnvMutator.run_cases call with ⟨_, same⟩ | ⟨mutated, _⟩
  · exact same
  · cases mutated

theorem mutateEnvWithAccessPattern_skipped
    (call : mutateEnvWithAccessPattern fuzz input state = some (.skipped, input', state')) :
    input' = input := by
  rcases mutateEnvWithAccessPattern_cases call with ⟨_, same⟩ | ⟨_, _, _, ran⟩
  · exact same
  · exact run_skipped ran

/-- Whenever a mutator of the family, the access-pattern dispatcher or the top-level mutation
reports `Skipped`, the input is exactly as it was. -/
theorem skipped_leaves_input (keeps : fuzz.PayloadSkipKeeps) (input input' : EVMInput ABI)
    (state state' : σ) :
    (∀ mutator : EnvMutator,
      mutator.run fuzz input state = some (.skipped, input', state') → input' = input) ∧
    (mutateEnvWithAccessPattern fuzz input state = some (.skipped, input', state') →
      input' = input) ∧
    (mutate fuzz input state = some (.skipped, input', state') → input' = input) := by
  refine ⟨fun _ => run_skipped, mutateEnvWithAccessPattern_skipped, fun call => ?_⟩
  rcases mutate_cases call with ⟨_, viaEnv⟩ | ⟨_, viaPayload⟩
  · exact mutateEnvWithAccessPattern_skipped viaEnv
  · exact mutatePayload_skipped keeps viaPayload

/-- The payload mutator of `oneFuzz` keeps its value when it skips, and a CUDA input with a
payload comes out of a skipped mutation unchanged. -/
theorem skipped_leaves_cudaInput :
    oneFuzz.PayloadSkipKeeps ∧ ∃ input', mutate oneFuzz cudaInput () = some (.skipped, input', ()) ∧
      input' = cudaInput :=
  have keeps : oneFuzz.PayloadSkipKeeps := fun _ _ _ _ => rfl
  have call : mutate oneFuzz cudaInput () = some (.skipped, cudaInput, ()) := by decide
  ⟨keeps, cudaInput, call, (skipped_leaves_input keeps cudaInput cudaInput () ()).2.2 call⟩

theorem mutateEnvWithAccessPattern_frame
    (call : mutateEnvWithAccessPattern fuzz input state = some (res, input', state')) :
    input' = input ∨ ∃ mutator : EnvMutator, (mutator.flag input.accessPattern = true ∨
      mutator = .callValue ∧ input.txnValue.isSome = true) ∧ mutator.Writes input input' := by
  rcases mutateEnvWithAccessPattern_cases call with ⟨_, same⟩ | ⟨mutator, collected, _, ran⟩
  · exact Or.inl same
  rcases EnvMutator.run_cases ran with ⟨_, same⟩ | ⟨_, writes⟩
  · exact Or.inl same
  · exact Or.inr ⟨mutator, EnvMutator.enabled_iff.mp (mem_envMutators.mp collected), writes⟩

/-- **The frame of a mutation.** One call changes the payload, or the one field of an
environment mutator whose access-pattern flag is set, or the transaction value when its flag is
set or the input already carries one; every other field keeps its value. -/
theorem mutate_frame :
    (mutateEnvWithAccessPattern fuzz input state = some (res, input', state') →
      input' = input ∨ ∃ mutator : EnvMutator, (mutator.flag input.accessPattern = true ∨
        mutator = .callValue ∧ input.txnValue.isSome = true) ∧ mutator.Writes input input') ∧
    (mutate fuzz input state = some (res, input', state') →
      input' = input ∨ (∃ data, input' = { input with data := data }) ∨
        ∃ mutator : EnvMutator, (mutator.flag input.accessPattern = true ∨
          mutator = .callValue ∧ input.txnValue.isSome = true) ∧ mutator.Writes input input') := by
  refine ⟨mutateEnvWithAccessPattern_frame, fun call => ?_⟩
  rcases mutate_cases call with ⟨_, viaEnv⟩ | ⟨_, viaPayload⟩
  · exact (mutateEnvWithAccessPattern_frame viaEnv).imp_right Or.inr
  · exact Or.inr (Or.inl (mutatePayload_writes_data viaPayload))

end EVMInput

theorem mutate_unflaggedInput :
    EVMInput.mutate oneFuzz unflaggedInput () =
      some (.mutated, { unflaggedInput with txnValue := some 1 }, ()) := by
  decide

/-- With no flag set, a mutation still writes the transaction value, through the `call_value`
mutator that an existing value enables. -/
theorem mutate_writes_unflagged_txn_value :
    ¬ ∀ (fuzz : FuzzState Unit Unit) (input input' : EVMInput Unit) (state state' : Unit)
      (res : MutationResult), EVMInput.mutate fuzz input state = some (res, input', state') →
        input' = input ∨ (∃ data, input' = { input with data := data }) ∨
          ∃ mutator : EnvMutator, mutator.flag input.accessPattern = true ∧
            mutator.Writes input input' := by
  intro frame
  rcases frame oneFuzz unflaggedInput _ () () .mutated mutate_unflaggedInput with
    same | ⟨_, same⟩ | ⟨mutator, flagged, _⟩
  · cases congrArg EVMInput.txnValue same
  · cases congrArg EVMInput.txnValue same
  · cases mutator <;> cases flagged

/-- The frame at the unflagged input: the transaction value it writes is allowed by the value
already present. -/
theorem mutate_frame_unflaggedInput :
    EVMInput.mutate oneFuzz unflaggedInput () =
      some (.mutated, { unflaggedInput with txnValue := some 1 }, ()) ∧
    ({ unflaggedInput with txnValue := some 1 } = unflaggedInput ∨
      (∃ data, { unflaggedInput with txnValue := some 1 } = { unflaggedInput with data := data }) ∨
      ∃ mutator : EnvMutator, (mutator.flag unflaggedInput.accessPattern = true ∨
        mutator = .callValue ∧ unflaggedInput.txnValue.isSome = true) ∧
        mutator.Writes unflaggedInput { unflaggedInput with txnValue := some 1 }) :=
  ⟨mutate_unflaggedInput, EVMInput.mutate_frame.2 mutate_unflaggedInput⟩

end Mau
