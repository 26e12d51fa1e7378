import Mau.TxnValue

/-! # What a run of calls leaves unchanged

A fuzzing campaign derives inputs from inputs by the calls of `Call`. Along any run of them no
call writes the input's target: its contract, staged state and index, access pattern, raw data,
randomness, repeat count, CUDA data and flag, and branch distance
(`runCalls_keeps_target`). Since the access pattern never changes, the caller and every
environment field whose flag it leaves unset keep their values through the whole run
(`runCalls_keeps_unflagged`). The transaction value is the exception: `call_value` is also
enabled by a value already present, and `set_step` drops it.

Both come from one inversion lemma for a call (`Call.apply_cases`), itself assembled from the
frames of `mutate` and of `mutate_env_with_access_pattern`, by induction on the run.
-/

namespace Mau

variable {σ ABI : Type}

/-- `input'` is `input` with at most its caller, payload, transaction value, step flag and
environment changed. -/
def EVMInput.SameTarget (input input' : EVMInput ABI) : Prop :=
  input' = { input with
    caller := input'.caller, data := input'.data, txnValue := input'.txnValue,
    step := input'.step, env := input'.env }

namespace EVMInput

theorem SameTarget.refl (input : EVMInput ABI) : input.SameTarget input := rfl

theorem SameTarget.trans {first second third : EVMInput ABI} (early : first.SameTarget second)
    (late : second.SameTarget third) : first.SameTarget third := by
  unfold SameTarget at early late ⊢
  rw [early] at late
  exact late

theorem SameTarget.accessPattern_eq {input input' : EVMInput ABI} (same : input.SameTarget input') :
    input'.accessPattern = input.accessPattern := by
  unfold SameTarget at same
  rw [same]

end EVMInput

namespace EnvMutator

/-- The field a mutator writes has the same value in both inputs; the unsupported mutators
write none. -/
def Keeps : EnvMutator → EVMInput ABI → EVMInput ABI → Prop
  | caller, input, input' => input'.caller = input.caller
  | callValue, input, input' => input'.txnValue = input.txnValue
  | coinbase, input, input' => input'.env.block.coinbase = input.env.block.coinbase
  | basefee, input, input' => input'.env.block.basefee = input.env.block.basefee
  | timestamp, input, input' => input'.env.block.timestamp = input.env.block.timestamp
  | gasLimit, input, input' => input'.env.block.gasLimit = input.env.block.gasLimit
  | number, input, input' => input'.env.block.number = input.env.block.number
  | chainId, input, input' => input'.env.cfg.chainId = input.env.cfg.chainId
  | balance, _, _ => True
  | gasPrice, _, _ => True
  | prevrandao, _, _ => True

theorem Keeps.refl (mutator : EnvMutator) (input : EVMInput ABI) : mutator.Keeps input input := by
  cases mutator <;> trivial

theorem Keeps.trans {mutator : EnvMutator} {first second third : EVMInput ABI}
    (early : mutator.Keeps first second) (late : mutator.Keeps second third) :
    mutator.Keeps first third := by
  cases mutator <;> first | exact Eq.trans late early | trivial

/-- A payload write keeps every field a mutator writes. -/
theorem Keeps.data (mutator : EnvMutator) (input : EVMInput ABI) (data : Option ABI) :
    mutator.Keeps input { input with data := data } := by
  cases mutator <;> trivial

/-- `set_step` keeps every field a mutator writes but the transaction value. -/
theorem Keeps.setStep {mutator : EnvMutator} (other : mutator ≠ callValue) (input : EVMInput ABI)
    (gate : Bool) : mutator.Keeps input (input.setStep gate) := by
  cases mutator <;> first | exact absurd rfl other | trivial

theorem Writes.sameTarget {mutator : EnvMutator} {input input' : EVMInput ABI}
    (writes : mutator.Writes input input') : input.SameTarget input' := by
  cases mutator
  case balance | gasPrice | prevrandao => subst writes; rfl
  all_goals obtain ⟨_, rfl⟩ := writes; rfl

/-- A mutator's write keeps the field of every other mutator. -/
theorem Writes.keeps {writer mutator : EnvMutator} {input input' : EVMInput ABI}
    (writes : writer.Writes input input') (other : writer ≠ mutator) :
    mutator.Keeps input input' := by
  cases writer
  case balance | gasPrice | prevrandao =>
    subst writes
    exact Keeps.refl _ _
  all_goals
    obtain ⟨_, rfl⟩ := writes
    cases mutator <;> first | exact absurd rfl other | rfl | trivial

end EnvMutator

variable {fuzz : FuzzState σ ABI}

/-- **Everything a call can do.** Leave the input, write its payload, set its step flag, or
write the field of a mutator whose flag is set or of `call_value`. -/
theorem Call.apply_cases {call : Call σ} {input input' : EVMInput ABI}
    (applied : call.apply fuzz input = some input') :
    input' = input ∨ (∃ data, input' = { input with data := data }) ∨
      (∃ gate, input' = input.setStep gate) ∨
      ∃ writer : EnvMutator, (writer.flag input.accessPattern = true ∨ writer = .callValue) ∧
        writer.Writes input input' := by
  have viaEnv : ∀ {state : σ} {res : MutationResult} {state' : σ},
      EVMInput.mutateEnvWithAccessPattern fuzz input state = some (res, input', state') →
      input' = input ∨ ∃ writer : EnvMutator, (writer.flag input.accessPattern = true ∨
        writer = .callValue) ∧ writer.Writes input input' := fun ran =>
    (EVMInput.mutateEnvWithAccessPattern_frame ran).imp_right fun ⟨writer, enabled, writes⟩ =>
      ⟨writer, enabled.imp_right And.left, writes⟩
  cases call with
  | setStep gate => exact Or.inr (Or.inr (Or.inl ⟨gate, (Option.some.inj applied).symm⟩))
  | callValue state =>
    obtain ⟨⟨_, _, _⟩, ran, rfl⟩ := Option.map_eq_some'.mp applied
    rcases EnvMutator.callValue_cases ran with ⟨_, same⟩ | ⟨_, writes⟩
    · exact Or.inl same
    · exact Or.inr (Or.inr (Or.inr ⟨.callValue, Or.inr rfl, writes⟩))
  | mutateEnvWithAccessPattern state =>
    obtain ⟨⟨_, _, _⟩, ran, rfl⟩ := Option.map_eq_some'.mp applied
    exact (viaEnv ran).imp_right fun written => Or.inr (Or.inr written)
  | mutate state =>
    obtain ⟨⟨_, _, _⟩, ran, rfl⟩ := Option.map_eq_some'.mp applied
    rcases EVMInput.mutate_cases ran with ⟨_, ran⟩ | ⟨_, ran⟩
    · exact (viaEnv ran).imp_right fun written => Or.inr (Or.inr written)
    · exact Or.inr (Or.inl (EVMInput.mutatePayload_writes_data ran))

theorem Call.apply_sameTarget {call : Call σ} {input input' : EVMInput ABI}
    (applied : call.apply fuzz input = some input') : input.SameTarget input' := by
  rcases Call.apply_cases applied with rfl | ⟨_, rfl⟩ | ⟨_, rfl⟩ | ⟨_, _, writes⟩
  · rfl
  · rfl
  · rfl
  · exact writes.sameTarget

theorem Call.apply_keeps {call : Call σ} {input input' : EVMInput ABI}
    (applied : call.apply fuzz input = some input') {mutator : EnvMutator}
    (other : mutator ≠ .callValue) (unflagged : mutator.flag input.accessPattern = false) :
    mutator.Keeps input input' := by
  rcases Call.apply_cases applied with rfl | ⟨data, rfl⟩ | ⟨gate, rfl⟩ | ⟨writer, enabled, writes⟩
  · exact EnvMutator.Keeps.refl _ _
  · exact EnvMutator.Keeps.data mutator input data
  · exact EnvMutator.Keeps.setStep other input gate
  · refine writes.keeps fun same => ?_
    subst same
    rcases enabled with flagged | rfl
    · rw [flagged] at unflagged
      cases unflagged
    · exact other rfl

theorem runCalls_sameTarget : ∀ (calls : List (Call σ)) (input input' : EVMInput ABI),
    runCalls fuzz input calls = some input' → input.SameTarget input'
  | [], _, _, ran => by cases ran; rfl
  | _ :: calls, _, input', ran => by
    obtain ⟨middle, applied, rest⟩ := Option.bind_eq_some.mp ran
    exact (Call.apply_sameTarget applied).trans (runCalls_sameTarget calls middle input' rest)

theorem runCalls_keeps {mutator : EnvMutator} (other : mutator ≠ .callValue) :
    ∀ (calls : List (Call σ)) (input input' : EVMInput ABI),
      mutator.flag input.accessPattern = false → runCalls fuzz input calls = some input' →
      mutator.Keeps input input'
  | [], input, _, _, ran => by cases ran; exact EnvMutator.Keeps.refl mutator input
  | _ :: calls, _, input', unflagged, ran => by
    obtain ⟨middle, applied, rest⟩ := Option.bind_eq_some.mp ran
    have stillUnflagged : mutator.flag middle.accessPattern = false := by
      rw [(Call.apply_sameTarget applied).accessPattern_eq]
      exact unflagged
    exact (Call.apply_keeps applied other unflagged).trans
      (runCalls_keeps other calls middle input' stillUnflagged rest)

/-- **The target of a run.** Along any run of calls to `mutate`,
`mutate_env_with_access_pattern`, `call_value` and `set_step`, the input keeps its contract,
staged state and index, access pattern, raw data, randomness, repeat count, CUDA data and flag,
and branch distance. -/
theorem runCalls_keeps_target (fuzz : FuzzState σ ABI) (input input' : EVMInput ABI)
    (calls : List (Call σ)) (ran : runCalls fuzz input calls = some input') :
    input' = { input with
      caller := input'.caller, data := input'.data, txnValue := input'.txnValue,
      step := input'.step, env := input'.env } :=
  runCalls_sameTarget calls input input' ran

/-- **Unflagged fields over a run.** Along any run of calls, the caller and every environment
field whose flag the input's access pattern leaves unset keep their values. -/
theorem runCalls_keeps_unflagged (fuzz : FuzzState σ ABI) (input input' : EVMInput ABI)
    (calls : List (Call σ)) (ran : runCalls fuzz input calls = some input')
    (mutator : EnvMutator) (other : mutator ≠ .callValue)
    (unflagged : mutator.flag input.accessPattern = false) : mutator.Keeps input input' :=
  runCalls_keeps other calls input input' unflagged ran

/-- A run that mutates the unflagged input's transaction value and then sets its step flag. -/
theorem runCalls_unflaggedInput :
    runCalls oneFuzz unflaggedInput [.mutate (), .setStep true] =
      some { unflaggedInput with step := true, txnValue := none } := by
  decide

/-- The run at the unflagged input keeps its target. -/
theorem runCalls_keeps_target_unflaggedInput :
    runCalls oneFuzz unflaggedInput [.mutate (), .setStep true] =
      some { unflaggedInput with step := true, txnValue := none } ∧
    ({ unflaggedInput with step := true, txnValue := none } : EVMInput Unit) =
      { unflaggedInput with
        caller := unflaggedInput.caller, data := unflaggedInput.data, txnValue := none,
        step := true, env := unflaggedInput.env } :=
  ⟨runCalls_unflaggedInput,
    runCalls_keeps_target oneFuzz unflaggedInput _ _ runCalls_unflaggedInput⟩

/-- The run at the unflagged input keeps its timestamp, whose flag is unset. -/
theorem runCalls_keeps_timestamp_unflaggedInput :
    runCalls oneFuzz unflaggedInput [.mutate (), .setStep true] =
      some { unflaggedInput with step := true, txnValue := none } ∧
    EnvMutator.timestamp ≠ .callValue ∧
    EnvMutator.timestamp.flag unflaggedInput.accessPattern = false ∧
    EnvMutator.timestamp.Keeps unflaggedInput
      ({ unflaggedInput with step := true, txnValue := none } : EVMInput Unit) :=
  ⟨runCalls_unflaggedInput, by decide, rfl,
    runCalls_keeps_unflagged oneFuzz unflaggedInput _ _ runCalls_unflaggedInput .timestamp
      (by decide) rfl⟩

end Mau
