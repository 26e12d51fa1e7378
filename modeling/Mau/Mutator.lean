import Mau.Input

/-! # The environment mutators

The associated functions of `impl EVMInput` in `src/evm/input.rs`, each as a function of the
input and the fuzzer state returning the mutation result, the input and the state after the
call, or `none` where the Rust code panics (an `unwrap` on `None`, an index past the end of a
buffer).

The 256-bit fields share one body, the expansion of `impl_env_mutator_u256!`
(`Mutator.envU256`); the coinbase is the one instance of `impl_env_mutator_h160!`, and its
macro compares the drawn address with the input's caller, not with the coinbase
(`Mutator.coinbase`). `EnvMutator` names the eleven mutators in the order
`mutate_env_with_access_pattern` offers them, and `EnvMutator.Writes` says which record field
each may write. The one inversion lemma `EnvMutator.run_cases` then says everything a mutator
call can do: skip and leave the input as it was, or mutate and write its own field.
-/

namespace Mau

namespace Mutator

variable {σ ABI : Type} (fuzz : FuzzState σ ABI)

/-- `impl_env_mutator_u256!($item, $loc)`: hand the field's big-endian bytes to the byte
mutator and decode the result back into the field, unless the byte mutator skipped. -/
def envU256 (field : EnvU256Field) (input : EVMInput ABI) (state : σ) :
    Option (MutationResult × EVMInput ABI × σ) :=
  let (res, inputVec, state) :=
    fuzz.byteMutator state (toBeBytes (field.read input.env)) input.vmSlots
  if res = .skipped then some (res, input, state)
  else (tryFromBeSlice inputVec).map fun value =>
    (res, { input with env := field.write input.env value }, state)

/-- `EVMInput::basefee`. -/
def basefee : EVMInput ABI → σ → Option (MutationResult × EVMInput ABI × σ) :=
  envU256 fuzz .basefee

/-- `EVMInput::timestamp`. -/
def timestamp : EVMInput ABI → σ → Option (MutationResult × EVMInput ABI × σ) :=
  envU256 fuzz .timestamp

/-- `EVMInput::gas_limit`. -/
def gasLimit : EVMInput ABI → σ → Option (MutationResult × EVMInput ABI × σ) :=
  envU256 fuzz .gasLimit

/-- `EVMInput::number`. -/
def number : EVMInput ABI → σ → Option (MutationResult × EVMInput ABI × σ) :=
  envU256 fuzz .number

/-- `EVMInput::chain_id`. -/
def chainId : EVMInput ABI → σ → Option (MutationResult × EVMInput ABI × σ) :=
  envU256 fuzz .chainId

/-- `EVMInput::coinbase`, from `impl_env_mutator_h160!(coinbase, block)`: draw a caller and
skip when it equals the input's caller; otherwise it becomes the coinbase. -/
def coinbase (input : EVMInput ABI) (state : σ) : Option (MutationResult × EVMInput ABI × σ) :=
  let (addr, state) := fuzz.getRandCaller state
  if addr = input.caller then some (.skipped, input, state)
  else some (.mutated, { input with env := { input.env with
    block := { input.env.block with coinbase := addr } } }, state)

/-- `EVMInput::prevrandao`, not supported yet. -/
def prevrandao (input : EVMInput ABI) (state : σ) : Option (MutationResult × EVMInput ABI × σ) :=
  some (.skipped, input, state)

/-- `EVMInput::gas_price`, not supported yet. -/
def gasPrice (input : EVMInput ABI) (state : σ) : Option (MutationResult × EVMInput ABI × σ) :=
  some (.skipped, input, state)

/-- `EVMInput::balance`, not supported yet. -/
def balance (input : EVMInput ABI) (state : σ) : Option (MutationResult × EVMInput ABI × σ) :=
  some (.skipped, input, state)

/-- `EVMInput::caller`: draw a caller and skip when it is the current one. -/
def caller (input : EVMInput ABI) (state : σ) : Option (MutationResult × EVMInput ABI × σ) :=
  let (caller, state) := fuzz.getRandCaller state
  if caller = input.caller then some (.skipped, input, state)
  else some (.mutated, { input with caller := caller }, state)

/-- `for i in 0..16 { input_vec[i] = 0; }`, where indexing past the end panics. -/
def zeroFirst16 (inputVec : List UInt8) : Option (List UInt8) :=
  (List.range 16).foldlM
    (fun inputVec i => if i < inputVec.length then some (inputVec.set i 0) else none) inputVec

/-- `EVMInput::call_value`: mutate the value's big-endian bytes, clear the high 16 bytes and
store the result as the transaction value. -/
def callValue (input : EVMInput ABI) (state : σ) : Option (MutationResult × EVMInput ABI × σ) :=
  let (res, inputVec, state) :=
    fuzz.byteMutator state (toBeBytes (input.txnValue.getD 0)) input.vmSlots
  if res = .skipped then some (res, input, state)
  else do
    let inputVec ← zeroFirst16 inputVec
    let value ← tryFromBeSlice inputVec
    some (res, { input with txnValue := some value }, state)

end Mutator

/-- The environment mutators, in the order `mutate_env_with_access_pattern` collects them. -/
inductive EnvMutator
  | caller
  | balance
  | callValue
  | gasPrice
  | basefee
  | timestamp
  | coinbase
  | gasLimit
  | number
  | chainId
  | prevrandao
  deriving DecidableEq, Repr

namespace EnvMutator

variable {σ ABI : Type}

/-- Every environment mutator, in collection order. -/
def all : List EnvMutator :=
  [caller, balance, callValue, gasPrice, basefee, timestamp, coinbase, gasLimit, number,
    chainId, prevrandao]

theorem mem_all (mutator : EnvMutator) : mutator ∈ all := by
  cases mutator <;> simp [all]

/-- The condition under which `mutate_env_with_access_pattern` collects a mutator: its
access-pattern flag, a nonempty balance list, and for `call_value` also a transaction value
already present. -/
def enabled (ap : AccessPattern) (txnValue : Option EVMU256) : EnvMutator → Bool
  | caller => ap.caller
  | balance => decide (0 < ap.balance.length)
  | callValue => ap.callValue || txnValue.isSome
  | gasPrice => ap.gasPrice
  | basefee => ap.basefee
  | timestamp => ap.timestamp
  | coinbase => ap.coinbase
  | gasLimit => ap.gasLimit
  | number => ap.number
  | chainId => ap.chainId
  | prevrandao => ap.prevrandao

/-- The access-pattern flag of the field a mutator writes: the collection condition of an input
without transaction value, which is the flag of the same name, and a nonempty balance list for
`balance`. -/
def flag (ap : AccessPattern) (mutator : EnvMutator) : Bool := mutator.enabled ap none

/-- A mutator is collected when its flag is set, and `call_value` also when the input already
carries a transaction value. -/
theorem enabled_iff {ap : AccessPattern} {txnValue : Option EVMU256} {mutator : EnvMutator} :
    mutator.enabled ap txnValue = true ↔
      mutator.flag ap = true ∨ mutator = callValue ∧ txnValue.isSome = true := by
  cases mutator <;> simp [enabled, flag]

/-- Call the mutator a name stands for. -/
def run (fuzz : FuzzState σ ABI) : EnvMutator → EVMInput ABI → σ →
    Option (MutationResult × EVMInput ABI × σ)
  | caller => Mutator.caller fuzz
  | balance => Mutator.balance
  | callValue => Mutator.callValue fuzz
  | gasPrice => Mutator.gasPrice
  | basefee => Mutator.basefee fuzz
  | timestamp => Mutator.timestamp fuzz
  | coinbase => Mutator.coinbase fuzz
  | gasLimit => Mutator.gasLimit fuzz
  | number => Mutator.number fuzz
  | chainId => Mutator.chainId fuzz
  | prevrandao => Mutator.prevrandao

/-- The record field a mutator writes, and nothing else: the caller, the transaction value, a
field of the environment, or none for the unsupported mutators. -/
def Writes : EnvMutator → EVMInput ABI → EVMInput ABI → Prop
  | caller, input, input' => ∃ addr, input' = { input with caller := addr }
  | callValue, input, input' => ∃ value, input' = { input with txnValue := some value }
  | coinbase, input, input' => ∃ addr, input' = { input with env := { input.env with
      block := { input.env.block with coinbase := addr } } }
  | basefee, input, input' => ∃ value,
      input' = { input with env := EnvU256Field.basefee.write input.env value }
  | timestamp, input, input' => ∃ value,
      input' = { input with env := EnvU256Field.timestamp.write input.env value }
  | gasLimit, input, input' => ∃ value,
      input' = { input with env := EnvU256Field.gasLimit.write input.env value }
  | number, input, input' => ∃ value,
      input' = { input with env := EnvU256Field.number.write input.env value }
  | chainId, input, input' => ∃ value,
      input' = { input with env := EnvU256Field.chainId.write input.env value }
  | balance, input, input' => input' = input
  | gasPrice, input, input' => input' = input
  | prevrandao, input, input' => input' = input

variable {fuzz : FuzzState σ ABI} {input input' : EVMInput ABI} {state state' : σ}
  {res : MutationResult}

theorem envU256_cases {field : EnvU256Field}
    (call : Mutator.envU256 fuzz field input state = some (res, input', state')) :
    res = .skipped ∧ input' = input ∨
      res = .mutated ∧ ∃ value, input' = { input with env := field.write input.env value } := by
  rcases outcome : fuzz.byteMutator state (toBeBytes (field.read input.env)) input.vmSlots
    with ⟨drawn, buffer, after⟩
  simp only [Mutator.envU256, outcome] at call
  cases drawn with
  | skipped => simp only [↓reduceIte, Option.some.injEq, Prod.mk.injEq] at call; simp [call]
  | mutated =>
    simp only [reduceCtorEq, ↓reduceIte, Option.map_eq_some', Prod.mk.injEq] at call
    obtain ⟨value, _, rfl, rfl, rfl⟩ := call
    exact Or.inr ⟨rfl, value, rfl⟩

/-- A draw of the caller mutator or of the coinbase mutator skips and leaves the input, or
mutates and writes its own field. -/
theorem caller_cases (call : Mutator.caller fuzz input state = some (res, input', state')) :
    res = .skipped ∧ input' = input ∨ res = .mutated ∧ caller.Writes input input' := by
  simp only [Mutator.caller] at call
  split at call <;> simp only [Option.some.injEq, Prod.mk.injEq] at call <;>
    obtain ⟨rfl, rfl, rfl⟩ := call
  · exact Or.inl ⟨rfl, rfl⟩
  · exact Or.inr ⟨rfl, _, rfl⟩

theorem coinbase_cases (call : Mutator.coinbase fuzz input state = some (res, input', state')) :
    res = .skipped ∧ input' = input ∨ res = .mutated ∧ coinbase.Writes input input' := by
  simp only [Mutator.coinbase] at call
  split at call <;> simp only [Option.some.injEq, Prod.mk.injEq] at call <;>
    obtain ⟨rfl, rfl, rfl⟩ := call
  · exact Or.inl ⟨rfl, rfl⟩
  · exact Or.inr ⟨rfl, _, rfl⟩

theorem callValue_cases (call : Mutator.callValue fuzz input state = some (res, input', state')) :
    res = .skipped ∧ input' = input ∨ res = .mutated ∧ callValue.Writes input input' := by
  rcases outcome : fuzz.byteMutator state (toBeBytes (input.txnValue.getD 0)) input.vmSlots
    with ⟨drawn, buffer, after⟩
  simp only [Mutator.callValue, outcome] at call
  cases drawn with
  | skipped => simp only [↓reduceIte, Option.some.injEq, Prod.mk.injEq] at call; simp [call]
  | mutated =>
    simp only [reduceCtorEq, ↓reduceIte, Option.bind_eq_bind, Option.bind_eq_some,
      Option.some.injEq, Prod.mk.injEq] at call
    obtain ⟨_, _, value, _, rfl, rfl, rfl⟩ := call
    exact Or.inr ⟨rfl, value, rfl⟩

/-- **Decoding the mutated buffer.** When the byte mutator reports `Mutated` with a 32-byte
buffer, the `unwrap` of `try_from_be_slice` succeeds and the new input differs from the old one
in its environment only: the field reads the word whose big-endian bytes are the buffer, and
the other 256-bit fields and the coinbase are as they were. A buffer left as it was leaves the
input as it was. -/
theorem envU256_mutated_decodes {field : EnvU256Field} {buffer : List UInt8}
    (outcome : fuzz.byteMutator state (toBeBytes (field.read input.env)) input.vmSlots =
      (.mutated, buffer, state'))
    (length : buffer.length = 32) :
    ∃ input', Mutator.envU256 fuzz field input state = some (.mutated, input', state') ∧
      toBeBytes (field.read input'.env) = buffer ∧
      (∀ other, other ≠ field → other.read input'.env = other.read input.env) ∧
      input'.env.block.coinbase = input.env.block.coinbase ∧
      input' = { input with env := input'.env } ∧
      (buffer = toBeBytes (field.read input.env) → input' = input) := by
  obtain ⟨value, decodes, encodes, _⟩ := tryFromBeSlice_of_length length
  refine ⟨{ input with env := field.write input.env value }, ?_, by simpa using encodes,
    fun _ distinct => EnvU256Field.read_write_of_ne distinct _ _, by simp, rfl, fun same => ?_⟩
  · simp [Mutator.envU256, outcome, decodes]
  · rw [toBeBytes_injective (encodes.trans same), EnvU256Field.write_read]

/-- **Everything a mutator call can do.** It skips and leaves the input as it was, or it
mutates and writes the one field `Writes` names. -/
theorem run_cases {mutator : EnvMutator}
    (call : mutator.run fuzz input state = some (res, input', state')) :
    res = .skipped ∧ input' = input ∨ res = .mutated ∧ mutator.Writes input input' := by
  cases mutator
  case caller => exact caller_cases call
  case callValue => exact callValue_cases call
  case coinbase => exact coinbase_cases call
  case basefee | timestamp | gasLimit | number | chainId => exact envU256_cases call
  all_goals
    simp only [run, Mutator.balance, Mutator.gasPrice, Mutator.prevrandao, Option.some.injEq,
      Prod.mk.injEq] at call
    exact Or.inl ⟨call.1.symm, call.2.1.symm⟩

end EnvMutator

/-- The zero address. -/
def zeroAddress : EVMAddress := ⟨List.replicate 20 0, rfl⟩

/-- The address one. -/
def oneAddress : EVMAddress := ⟨List.replicate 19 0 ++ [1], by decide⟩

/-- An input without payload, with a zero transaction value and nothing set in its access
pattern. -/
def unflaggedInput : EVMInput Unit where
  caller := zeroAddress
  contract := zeroAddress
  data := none
  sstate := ⟨⟨HashMap.empty⟩⟩
  sstateIdx := 0
  txnValue := some 0
  step := false
  env := ⟨⟨0⟩, ⟨0, zeroAddress, 0, 0, 0⟩⟩
  accessPattern := ⟨false, [], false, false, false, false, false, false, false, false, false⟩
  directData := []
  randomness := []
  «repeat» := 1
  cuData := []
  isCuda := false
  branchDistance := 0

/-- A fuzzer state whose draws are all zero and whose byte mutator yields the value one. -/
def oneFuzz : FuzzState Unit Unit where
  getRandCaller _ := (zeroAddress, ())
  next _ := (0, ())
  below _ _ := (0, ())
  below_lt _ _ positive := positive
  byteMutator _ _ _ := (.mutated, List.replicate 31 0 ++ [1], ())
  mutateWithVmSlots _ data _ := (.skipped, data, ())

/-- The unflagged input with the address one as its coinbase. -/
def coinbaseInput : EVMInput Unit :=
  { unflaggedInput with env := ⟨⟨0⟩, ⟨0, oneAddress, 0, 0, 0⟩⟩ }

/-- The unflagged input in CUDA mode, with a payload. -/
def cudaInput : EVMInput Unit := { unflaggedInput with data := some (), isCuda := true }

/-- The timestamp mutator at the unflagged input, where the byte mutator yields the value one:
the new timestamp is one, and the number and the coinbase are kept. -/
theorem timestamp_decodes_one :
    oneFuzz.byteMutator () (toBeBytes (EnvU256Field.timestamp.read unflaggedInput.env))
        unflaggedInput.vmSlots = (.mutated, List.replicate 31 0 ++ [1], ()) ∧
      (List.replicate 31 0 ++ [1] : List UInt8).length = 32 ∧
      ∃ input', Mutator.envU256 oneFuzz .timestamp unflaggedInput () =
          some (.mutated, input', ()) ∧
        toBeBytes (EnvU256Field.timestamp.read input'.env) = List.replicate 31 0 ++ [1] ∧
        (∀ other : EnvU256Field, other ≠ .timestamp →
          other.read input'.env = other.read unflaggedInput.env) ∧
        input'.env.block.coinbase = unflaggedInput.env.block.coinbase ∧
        input' = { unflaggedInput with env := input'.env } ∧
        (List.replicate 31 0 ++ [1] = toBeBytes (EnvU256Field.timestamp.read unflaggedInput.env) →
          input' = unflaggedInput) :=
  ⟨rfl, rfl, EnvMutator.envU256_mutated_decodes rfl rfl⟩

/-- The coinbase mutator skips an address that differs from the coinbase, because it is the
input's caller. -/
theorem coinbase_skips_draw_equal_to_caller :
    (oneFuzz.getRandCaller ()).1 ≠ coinbaseInput.env.block.coinbase ∧
      Mutator.coinbase oneFuzz coinbaseInput () = some (.skipped, coinbaseInput, ()) := by
  decide

end Mau
