import Mau.Mutate

/-! # The transaction value stays below 2^128

`EVMInput::call_value` clears the 16 high bytes of the mutated big-endian buffer before it
decodes it, so the value it stores is below `2 ^ 128` (`Mutator.callValue_mutated`); no other
mutator writes the transaction value, and `set_step` drops it. Over any sequence of calls to
`mutate`, `mutate_env_with_access_pattern`, `call_value` and `set_step`, with any fuzzer
states, an input whose value is absent or below `2 ^ 128` keeps it so
(`runCalls_txnValueBounded`). The one assumption is the byte mutator's: a 32-byte buffer comes
back with 32 bytes (`FuzzState.KeepsWordLength`). Under the same assumption no call panics: every
`unwrap` succeeds, the zeroing loop stays inside the buffer and the drawn index is in range
(`runCalls_isSome`).
-/

namespace Mau

variable {σ ABI : Type}

/-- The byte mutator returns every 32-byte buffer with 32 bytes. -/
def FuzzState.KeepsWordLength (fuzz : FuzzState σ ABI) : Prop :=
  ∀ state bytes slots, bytes.length = 32 → (fuzz.byteMutator state bytes slots).2.1.length = 32

/-- The transaction value is absent or below `2 ^ 128`. -/
def EVMInput.TxnValueBounded (input : EVMInput ABI) : Prop :=
  ∀ value ∈ input.txnValue, value.val < 2 ^ 128

namespace Mutator

/-- One more round of the zeroing loop clears one more byte. -/
theorem set_replicate_append {bytes : List UInt8} {count : Nat} (inside : count < bytes.length) :
    (List.replicate count 0 ++ bytes.drop count).set count 0 =
      List.replicate (count + 1) 0 ++ bytes.drop (count + 1) := by
  rw [List.drop_eq_getElem_cons inside, List.set_append_right _ _ (by simp),
    List.length_replicate, Nat.sub_self, List.set_cons_zero, List.replicate_succ',
    List.append_assoc, List.singleton_append]

/-- The zeroing loop after its first `count` rounds, on a buffer of at least `count` bytes. -/
theorem foldlM_zero_range {bytes : List UInt8} : ∀ count, count ≤ bytes.length →
    (List.range count).foldlM
        (fun inputVec i => if i < inputVec.length then some (inputVec.set i 0) else none) bytes =
      some (List.replicate count 0 ++ bytes.drop count)
  | 0, _ => rfl
  | count + 1, long => by
    have inBytes : count < bytes.length := long
    have inside : count < (List.replicate count 0 ++ bytes.drop count).length := by simp [inBytes]
    rw [List.range_succ, List.foldlM_append, foldlM_zero_range count (Nat.le_of_lt inBytes)]
    simp [inside, inBytes, set_replicate_append inBytes]

theorem zeroFirst16_of_length {bytes : List UInt8} (long : 16 ≤ bytes.length) :
    zeroFirst16 bytes = some (List.replicate 16 0 ++ bytes.drop 16) :=
  foldlM_zero_range 16 long

variable {fuzz : FuzzState σ ABI} {input input' : EVMInput ABI} {state state' : σ}
  {res : MutationResult}

/-- **The stored value.** When the byte mutator reports `Mutated` with a 32-byte buffer,
`call_value` does not panic and stores the big-endian value of the buffer's last 16 bytes. -/
theorem callValue_mutated {buffer : List UInt8}
    (outcome : fuzz.byteMutator state (toBeBytes (input.txnValue.getD 0)) input.vmSlots =
      (.mutated, buffer, state'))
    (length : buffer.length = 32) :
    ∃ value, callValue fuzz input state =
        some (.mutated, { input with txnValue := some value }, state') ∧
      value.val = ofBeBytes (buffer.drop 16) := by
  have cleared : (List.replicate 16 0 ++ buffer.drop 16).length = 32 := by simp [length]
  obtain ⟨value, decodes, _, decoded⟩ := tryFromBeSlice_of_length cleared
  refine ⟨value, ?_, by rw [decoded, ofBeBytes_zeros_append]⟩
  simp only [callValue, outcome, reduceCtorEq, ↓reduceIte, Option.bind_eq_bind,
    zeroFirst16_of_length (by omega : 16 ≤ buffer.length), Option.some_bind, decodes]

theorem callValue_bounded (keeps : fuzz.KeepsWordLength) (bounded : input.TxnValueBounded)
    (call : callValue fuzz input state = some (res, input', state')) : input'.TxnValueBounded := by
  rcases outcome : fuzz.byteMutator state (toBeBytes (input.txnValue.getD 0)) input.vmSlots
    with ⟨drawn, buffer, after⟩
  cases drawn with
  | skipped =>
    simp only [callValue, outcome, ↓reduceIte, Option.some.injEq, Prod.mk.injEq] at call
    rw [← call.2.1]
    exact bounded
  | mutated =>
    have length := keeps state _ input.vmSlots (length_toBeBytes (input.txnValue.getD 0))
    rw [outcome] at length
    obtain ⟨value, stored, decoded⟩ := callValue_mutated outcome length
    simp only [stored, Option.some.injEq, Prod.mk.injEq] at call
    rw [← call.2.1]
    rintro _ ⟨⟩
    rw [decoded]
    simpa [length] using ofBeBytes_lt (buffer.drop 16)

theorem envU256_isSome (keeps : fuzz.KeepsWordLength) (field : EnvU256Field) :
    (envU256 fuzz field input state).isSome := by
  rcases outcome : fuzz.byteMutator state (toBeBytes (field.read input.env)) input.vmSlots
    with ⟨drawn, buffer, after⟩
  cases drawn with
  | skipped => simp [envU256, outcome]
  | mutated =>
    have length := keeps state _ input.vmSlots (length_toBeBytes (field.read input.env))
    rw [outcome] at length
    obtain ⟨_, decodes, _⟩ := tryFromBeSlice_of_length length
    simp [envU256, outcome, decodes]

theorem callValue_isSome (keeps : fuzz.KeepsWordLength) :
    (callValue fuzz input state).isSome := by
  rcases outcome : fuzz.byteMutator state (toBeBytes (input.txnValue.getD 0)) input.vmSlots
    with ⟨drawn, buffer, after⟩
  cases drawn with
  | skipped => simp [callValue, outcome]
  | mutated =>
    have length := keeps state _ input.vmSlots (length_toBeBytes (input.txnValue.getD 0))
    rw [outcome] at length
    obtain ⟨_, ran, _⟩ := callValue_mutated outcome length
    rw [ran]
    rfl

end Mutator

namespace EnvMutator

variable {fuzz : FuzzState σ ABI} {input input' : EVMInput ABI} {state state' : σ}
  {res : MutationResult}

/-- Only `call_value` writes the transaction value. -/
theorem Writes.txnValue_eq {mutator : EnvMutator} (other : mutator ≠ callValue)
    (writes : mutator.Writes input input') : input'.txnValue = input.txnValue := by
  cases mutator
  case callValue => exact absurd rfl other
  case balance | gasPrice | prevrandao => exact congrArg EVMInput.txnValue writes
  all_goals obtain ⟨_, rfl⟩ := writes; rfl

theorem run_txnValueBounded (keeps : fuzz.KeepsWordLength) (bounded : input.TxnValueBounded)
    {mutator : EnvMutator} (call : mutator.run fuzz input state = some (res, input', state')) :
    input'.TxnValueBounded := by
  by_cases value : mutator = callValue
  · subst value
    exact Mutator.callValue_bounded keeps bounded call
  rcases run_cases call with ⟨_, rfl⟩ | ⟨_, writes⟩
  · exact bounded
  · unfold EVMInput.TxnValueBounded
    rw [writes.txnValue_eq value]
    exact bounded

/-- No mutator panics when the byte mutator keeps 32-byte buffers at 32 bytes. -/
theorem run_isSome (keeps : fuzz.KeepsWordLength) (mutator : EnvMutator) :
    (mutator.run fuzz input state).isSome := by
  cases mutator
  case callValue => exact Mutator.callValue_isSome keeps
  case basefee | timestamp | gasLimit | number | chainId => exact Mutator.envU256_isSome keeps _
  case caller =>
    simp only [run, Mutator.caller]
    split_ifs <;> rfl
  case coinbase =>
    simp only [run, Mutator.coinbase]
    split_ifs <;> rfl
  all_goals rfl

end EnvMutator

namespace EVMInput

variable {fuzz : FuzzState σ ABI} {input input' : EVMInput ABI} {state state' : σ}
  {res : MutationResult}

theorem mutateEnvWithAccessPattern_txnValueBounded (keeps : fuzz.KeepsWordLength)
    (bounded : input.TxnValueBounded)
    (call : mutateEnvWithAccessPattern fuzz input state = some (res, input', state')) :
    input'.TxnValueBounded := by
  rcases mutateEnvWithAccessPattern_cases call with ⟨_, rfl⟩ | ⟨_, _, _, ran⟩
  · exact bounded
  · exact EnvMutator.run_txnValueBounded keeps bounded ran

theorem mutate_txnValueBounded (keeps : fuzz.KeepsWordLength) (bounded : input.TxnValueBounded)
    (call : mutate fuzz input state = some (res, input', state')) : input'.TxnValueBounded := by
  rcases mutate_cases call with ⟨_, viaEnv⟩ | ⟨_, viaPayload⟩
  · exact mutateEnvWithAccessPattern_txnValueBounded keeps bounded viaEnv
  · obtain ⟨_, rfl⟩ := mutatePayload_writes_data viaPayload
    exact bounded

theorem mutateEnvWithAccessPattern_isSome (keeps : fuzz.KeepsWordLength) :
    (mutateEnvWithAccessPattern fuzz input state).isSome := by
  simp only [mutateEnvWithAccessPattern]
  split
  · rfl
  · rename_i nonempty
    have drawn := fuzz.below_lt state (envMutators input).length (Nat.pos_of_ne_zero nonempty)
    rw [List.getElem?_eq_getElem drawn]
    exact EnvMutator.run_isSome keeps _

theorem mutate_isSome (keeps : fuzz.KeepsWordLength) : (mutate fuzz input state).isSome := by
  have payload : ∀ drawn, (mutatePayload fuzz input drawn).isSome := fun drawn => by
    unfold mutatePayload
    split <;> rfl
  unfold mutate
  split
  · exact payload state
  · split
    split
    · exact mutateEnvWithAccessPattern_isSome keeps
    · exact payload _

end EVMInput

/-- The calls a run makes on an input, each given the fuzzer state it runs in. -/
inductive Call (σ : Type)
  | mutate (state : σ)
  | mutateEnvWithAccessPattern (state : σ)
  | callValue (state : σ)
  | setStep (gate : Bool)

/-- The input after one call, or `none` when the call panics. -/
def Call.apply (fuzz : FuzzState σ ABI) : Call σ → EVMInput ABI → Option (EVMInput ABI)
  | .mutate state, input => (EVMInput.mutate fuzz input state).map (·.2.1)
  | .mutateEnvWithAccessPattern state, input =>
    (EVMInput.mutateEnvWithAccessPattern fuzz input state).map (·.2.1)
  | .callValue state, input => (Mutator.callValue fuzz input state).map (·.2.1)
  | .setStep gate, input => some (input.setStep gate)

/-- The input after a sequence of calls, or `none` when one of them panics. -/
def runCalls (fuzz : FuzzState σ ABI) : EVMInput ABI → List (Call σ) → Option (EVMInput ABI)
  | input, [] => some input
  | input, call :: calls => (call.apply fuzz input).bind (runCalls fuzz · calls)

variable {fuzz : FuzzState σ ABI}

theorem Call.apply_txnValueBounded (keeps : fuzz.KeepsWordLength) {call : Call σ}
    {input input' : EVMInput ABI} (bounded : input.TxnValueBounded)
    (applied : call.apply fuzz input = some input') : input'.TxnValueBounded := by
  cases call with
  | setStep gate =>
    cases applied
    intro _ absent
    cases absent
  | mutate state =>
    obtain ⟨⟨_, _, _⟩, ran, rfl⟩ := Option.map_eq_some'.mp applied
    exact EVMInput.mutate_txnValueBounded keeps bounded ran
  | mutateEnvWithAccessPattern state =>
    obtain ⟨⟨_, _, _⟩, ran, rfl⟩ := Option.map_eq_some'.mp applied
    exact EVMInput.mutateEnvWithAccessPattern_txnValueBounded keeps bounded ran
  | callValue state =>
    obtain ⟨⟨_, _, _⟩, ran, rfl⟩ := Option.map_eq_some'.mp applied
    exact Mutator.callValue_bounded keeps bounded ran

theorem runCalls_txnValueBounded (keeps : fuzz.KeepsWordLength) :
    ∀ (calls : List (Call σ)) (input input' : EVMInput ABI), input.TxnValueBounded →
      runCalls fuzz input calls = some input' → input'.TxnValueBounded
  | [], _, _, bounded, ran => by cases ran; exact bounded
  | call :: calls, input, input', bounded, ran => by
    obtain ⟨middle, applied, rest⟩ := Option.bind_eq_some.mp ran
    exact runCalls_txnValueBounded keeps calls middle input'
      (Call.apply_txnValueBounded keeps bounded applied) rest

theorem Call.apply_isSome (keeps : fuzz.KeepsWordLength) (call : Call σ) (input : EVMInput ABI) :
    (call.apply fuzz input).isSome := by
  cases call with
  | mutate state =>
    rw [Call.apply, Option.isSome_map']
    exact EVMInput.mutate_isSome keeps
  | mutateEnvWithAccessPattern state =>
    rw [Call.apply, Option.isSome_map']
    exact EVMInput.mutateEnvWithAccessPattern_isSome keeps
  | callValue state =>
    rw [Call.apply, Option.isSome_map']
    exact Mutator.callValue_isSome keeps
  | setStep gate => rfl

theorem runCalls_isSome (keeps : fuzz.KeepsWordLength) :
    ∀ (calls : List (Call σ)) (input : EVMInput ABI), (runCalls fuzz input calls).isSome
  | [], _ => rfl
  | call :: calls, input => by
    obtain ⟨middle, applied⟩ := Option.isSome_iff_exists.mp (Call.apply_isSome keeps call input)
    rw [runCalls, applied, Option.some_bind]
    exact runCalls_isSome keeps calls middle

/-- **The transaction value stays below `2 ^ 128`.** Along any sequence of calls to `mutate`,
`mutate_env_with_access_pattern`, `call_value` and `set_step`, an input whose value is absent
or below `2 ^ 128` reaches only such inputs; and a mutated `call_value` does not panic and
stores the big-endian value of the mutated buffer's last 16 bytes. -/
theorem txnValue_stays_below_2_128 (keeps : fuzz.KeepsWordLength) :
    (∀ (input input' : EVMInput ABI) (calls : List (Call σ)), input.TxnValueBounded →
      runCalls fuzz input calls = some input' → input'.TxnValueBounded) ∧
    (∀ (input : EVMInput ABI) (state state' : σ) (buffer : List UInt8),
      fuzz.byteMutator state (toBeBytes (input.txnValue.getD 0)) input.vmSlots =
        (.mutated, buffer, state') →
      ∃ value, Mutator.callValue fuzz input state =
          some (.mutated, { input with txnValue := some value }, state') ∧
        value.val = ofBeBytes (buffer.drop 16)) := by
  refine ⟨fun input input' calls => runCalls_txnValueBounded keeps calls input input',
    fun input state state' buffer outcome => Mutator.callValue_mutated outcome ?_⟩
  simpa [outcome] using keeps state _ input.vmSlots (length_toBeBytes (input.txnValue.getD 0))

/-- The value one that `oneFuzz` mutates in stays bounded. -/
theorem txnValue_bounded_after_one :
    oneFuzz.KeepsWordLength ∧ unflaggedInput.TxnValueBounded ∧
      runCalls oneFuzz unflaggedInput [.mutate ()] =
        some { unflaggedInput with txnValue := some 1 } ∧
      ({ unflaggedInput with txnValue := some 1 } : EVMInput Unit).TxnValueBounded :=
  have keeps : oneFuzz.KeepsWordLength := fun _ _ _ _ => rfl
  have bounded : unflaggedInput.TxnValueBounded := by
    rintro _ ⟨⟩
    decide
  have ran : runCalls oneFuzz unflaggedInput [.mutate ()] =
      some { unflaggedInput with txnValue := some 1 } := by
    decide
  ⟨keeps, bounded, ran, (txnValue_stays_below_2_128 keeps).1 _ _ _ bounded ran⟩

/-- **No panic.** When the byte mutator keeps 32-byte buffers at 32 bytes, every environment
mutator, `mutate_env_with_access_pattern` and `mutate` return, and so does every run of
calls. -/
theorem mutation_never_panics (keeps : fuzz.KeepsWordLength) (input : EVMInput ABI) (state : σ) :
    (∀ mutator : EnvMutator, (mutator.run fuzz input state).isSome) ∧
    (EVMInput.mutateEnvWithAccessPattern fuzz input state).isSome ∧
    (EVMInput.mutate fuzz input state).isSome ∧
    ∀ calls : List (Call σ), (runCalls fuzz input calls).isSome :=
  ⟨EnvMutator.run_isSome keeps, EVMInput.mutateEnvWithAccessPattern_isSome keeps,
    EVMInput.mutate_isSome keeps, fun calls => runCalls_isSome keeps calls input⟩

/-- At the unflagged input, with a byte mutator that keeps lengths, a mutation returns. -/
theorem mutation_returns_at_unflaggedInput :
    oneFuzz.KeepsWordLength ∧ (EVMInput.mutate oneFuzz unflaggedInput ()).isSome :=
  have keeps : oneFuzz.KeepsWordLength := fun _ _ _ _ => rfl
  ⟨keeps, (mutation_never_panics keeps unflaggedInput ()).2.2.1⟩

end Mau
