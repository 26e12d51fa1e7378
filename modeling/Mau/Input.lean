import Mau.Word
import Mau.HashMap

/-! # The fuzz input record

`EVMInput` (`src/evm/input.rs`) is the fuzzer's unit of work: a call from `caller` to
`contract` carrying an ABI payload `data` (or raw `direct_data` when there is none), an
optional transaction value, the block environment, the staged VM state it runs on, and a
handle to the access pattern recorded when the target function last ran.

The mutators reach the fuzzer state `S` only through the traits they require (`HasCaller`,
`HasRand`) and two external mutators, the byte mutator of `mutation_utils` and the ABI
value's `mutate_with_vm_slots`. `FuzzState` collects these operations; each returns the state
it leaves behind, so a theorem quantified over a `FuzzState` holds for every outcome of the
random draws. The payload type `ABI` is left abstract: the record only stores it and hands it
to its own mutator.
-/

namespace Mau

/-- A contract's storage, slot to value. -/
abbrev Storage := HashMap EVMU256 EVMU256

/-- The part of `EVMState` the input reads: the storage of every contract. -/
structure EVMState where
  state : HashMap EVMAddress Storage
  deriving DecidableEq

/-- `EVMState::get`: the storage of one contract, when the state holds it. -/
def EVMState.get (vmState : EVMState) (address : EVMAddress) : Option Storage :=
  vmState.state.get address

/-- The part of `StagedVMState` the input reads: the VM state itself. -/
structure StagedVMState where
  state : EVMState
  deriving DecidableEq

/-- Modelled from the spec: the `AccessPattern` record of `evm::mutator`, the environment
components the function read ("caller, call_value, balance[], gas_price, basefee, timestamp,
coinbase, gas_limit, number, chain_id, prevrandao"). -/
structure AccessPattern where
  caller : Bool
  balance : List EVMAddress
  callValue : Bool
  gasPrice : Bool
  number : Bool
  coinbase : Bool
  timestamp : Bool
  prevrandao : Bool
  gasLimit : Bool
  chainId : Bool
  basefee : Bool
  deriving DecidableEq

/-- The fields of revm's `BlockEnv` that the input reads or writes. -/
structure BlockEnv where
  number : EVMU256
  coinbase : EVMAddress
  timestamp : EVMU256
  gasLimit : EVMU256
  basefee : EVMU256
  deriving DecidableEq

/-- The field of revm's `CfgEnv` that the input reads or writes. -/
structure CfgEnv where
  chainId : EVMU256
  deriving DecidableEq

/-- revm's `Env`, restricted to the fields above. -/
structure Env where
  cfg : CfgEnv
  block : BlockEnv
  deriving DecidableEq

/-- **The fuzz input.** The fields of `EVMInput` outside the `flashloan_v2` feature. -/
structure EVMInput (ABI : Type) where
  caller : EVMAddress
  contract : EVMAddress
  data : Option ABI
  sstate : StagedVMState
  sstateIdx : Nat
  txnValue : Option EVMU256
  step : Bool
  env : Env
  accessPattern : AccessPattern
  directData : List UInt8
  randomness : List UInt8
  «repeat» : Nat
  cuData : List UInt8
  isCuda : Bool
  branchDistance : Nat
  deriving DecidableEq

/-- libafl's `MutationResult`. -/
inductive MutationResult
  | mutated
  | skipped
  deriving DecidableEq, Repr

/-- What a mutator uses of the fuzzer state `σ`: `HasCaller::get_rand_caller`,
`Rand::next` and `Rand::below` (whose draw stays below a positive bound), the byte mutator of
`mutation_utils`, and the payload's `mutate_with_vm_slots`. -/
structure FuzzState (σ ABI : Type) where
  getRandCaller : σ → EVMAddress × σ
  next : σ → UInt64 × σ
  below : σ → Nat → Nat × σ
  below_lt : ∀ state bound, 0 < bound → (below state bound).1 < bound
  byteMutator : σ → List UInt8 → Option Storage → MutationResult × List UInt8 × σ
  mutateWithVmSlots : σ → ABI → Option Storage → MutationResult × ABI × σ

namespace EVMInput

variable {ABI : Type}

/-- `VMInputT::get_state`. -/
def getState (input : EVMInput ABI) : EVMState := input.sstate.state

/-- The slots every storage-aware mutator is given: the contract's storage in the staged
state, when present. -/
def vmSlots (input : EVMInput ABI) : Option Storage := input.getState.get input.contract

/-- `EVMInputT::get_calldata`: the payload's ABI encoding, or the raw data without one. -/
def getCalldata (getBytes : ABI → List UInt8) (input : EVMInput ABI) : List UInt8 :=
  match input.data with
  | none => input.directData
  | some abi => getBytes abi

/-- `VMInputT::set_step`: resuming from a control leak drops the transaction value. -/
def setStep (input : EVMInput ABI) (gate : Bool) : EVMInput ABI :=
  { input with txnValue := none, step := gate }

end EVMInput

/-- The 256-bit environment fields, one per instantiation of `impl_env_mutator_u256`. -/
inductive EnvU256Field
  | basefee
  | timestamp
  | gasLimit
  | number
  | chainId
  deriving DecidableEq, Repr

namespace EnvU256Field

/-- The field `$loc.$item` of an environment. -/
def read : EnvU256Field → Env → EVMU256
  | basefee, env => env.block.basefee
  | timestamp, env => env.block.timestamp
  | gasLimit, env => env.block.gasLimit
  | number, env => env.block.number
  | chainId, env => env.cfg.chainId

/-- The environment with `$loc.$item` set to a value. -/
def write : EnvU256Field → Env → EVMU256 → Env
  | basefee, env, value => { env with block := { env.block with basefee := value } }
  | timestamp, env, value => { env with block := { env.block with timestamp := value } }
  | gasLimit, env, value => { env with block := { env.block with gasLimit := value } }
  | number, env, value => { env with block := { env.block with number := value } }
  | chainId, env, value => { env with cfg := { env.cfg with chainId := value } }

@[simp] theorem read_write (field : EnvU256Field) (env : Env) (value : EVMU256) :
    field.read (field.write env value) = value := by
  cases field <;> rfl

@[simp] theorem write_read (field : EnvU256Field) (env : Env) :
    field.write env (field.read env) = env := by
  cases field <;> rfl

/-- Writing one field leaves the other 256-bit fields as they were. -/
theorem read_write_of_ne {field other : EnvU256Field} (distinct : other ≠ field) (env : Env)
    (value : EVMU256) : other.read (field.write env value) = other.read env := by
  cases field <;> cases other <;> first | exact absurd rfl distinct | rfl

@[simp] theorem coinbase_write (field : EnvU256Field) (env : Env) (value : EVMU256) :
    (field.write env value).block.coinbase = env.block.coinbase := by
  cases field <;> rfl

end EnvU256Field

end Mau
