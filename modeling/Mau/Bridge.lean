import Mau.Mutator

/-! # The bridge to the native runner

In CUDA mode an input is handed to a separately built `runner` library through three foreign
functions. Each function of `EVMInputT` that calls one is modelled by the buffers and integers
it passes, one per parameter in order; a null pointer is `none`. What the runner makes of them
is not in the repository: `runnerSetEVMEnv`, `readAddressLe`, `readWordLe` and `decodeSlots`
follow the spec's account of its interface, "all multi-byte integers are marshaled
little-endian across this boundary, with addresses byte-reversed".

`cu_load_evm_env` passes the runner exactly the contract, timestamp and block number it reads
(`EVMInput.runnerSetEVMEnv_cuLoadEvmEnv`), and `cu_load_input` the caller and value
(`EVMInput.cuLoadInput_reads`). `set_evm_env` declares `setEVMEnv` with a fourth parameter and
passes unreversed addresses, so the runner cannot read its arguments
(`EVMInput.setEvmEnv_misreads`). `cu_load_storage` lays out every storage slot once, in
64-byte records the runner decodes back into the contract's storage
(`EVMInput.cuLoadStorage_slots`).
-/

namespace Mau

/-- Modelled from the spec: the runner reads a 20-byte address buffer byte-reversed. -/
def readAddressLe (buffer : List UInt8) : Option EVMAddress :=
  if length : buffer.length = 20 then some ⟨buffer.reverse, by simpa using length⟩ else none

/-- Modelled from the spec: the runner reads a 32-byte buffer as a little-endian word. -/
def readWordLe (buffer : List UInt8) : Option EVMU256 :=
  if length : buffer.length = 32 then
    some ⟨ofLeBytes buffer, by simpa [length, two_pow_256] using ofLeBytes_lt buffer⟩
  else none

/-- Modelled from the spec: the runner's `setEVMEnv(to[20], timestamp_le[32], blocknum_le[32])`
reads its three pointer parameters in order. -/
def runnerSetEVMEnv : List (List UInt8) → Option (EVMAddress × EVMU256 × EVMU256)
  | «to» :: timestamp :: blocknum :: _ => do
    let «to» ← readAddressLe «to»
    let timestamp ← readWordLe timestamp
    let blocknum ← readWordLe blocknum
    some («to», timestamp, blocknum)
  | _ => none

/-- Modelled from the spec: the runner's `cuLoadStorage(slots_le_concat, slot_count, state_id)`
reads `slot_count` consecutive 64-byte records, a little-endian key then a little-endian
value. -/
def decodeSlots : Nat → List UInt8 → Option (List (EVMU256 × EVMU256))
  | 0, _ => some []
  | count + 1, bytes => do
    let key ← readWordLe (bytes.take 32)
    let value ← readWordLe ((bytes.drop 32).take 32)
    let rest ← decodeSlots count (bytes.drop 64)
    some ((key, value) :: rest)

theorem readAddressLe_reverse (address : EVMAddress) :
    readAddressLe address.toFixedBytes.reverse = some address := by
  simp [readAddressLe, EVMAddress.toFixedBytes, address.length_bytes]

theorem readWordLe_toLeBytes (word : EVMU256) : readWordLe (toLeBytes word) = some word := by
  simp only [readWordLe, length_toLeBytes, ↓reduceDIte, Option.some.injEq]
  exact Fin.ext (ofLeBytes_toLeBytes word)

/-- The arguments of `cuLoadSeed(caller_ptr, value_ptr, data_ptr, data_size, state_idx,
thread)`. -/
structure CuLoadSeedCall where
  callerPtr : List UInt8
  valuePtr : List UInt8
  dataPtr : List UInt8
  dataSize : UInt32
  stateIdx : UInt32
  thread : UInt32
  deriving DecidableEq

/-- The arguments of `cuLoadStorage(src, slotCnt, state_id)`; `none` is the null pointer. -/
structure CuLoadStorageCall where
  src : Option (List UInt8)
  slotCnt : UInt32
  stateId : UInt32
  deriving DecidableEq

namespace EVMInput

variable {ABI : Type}

/-- `EVMInputT::cu_load_evm_env`: the arguments it passes to `setEVMEnv`, the reversed contract
address and the little-endian timestamp and block number. -/
def cuLoadEvmEnv (input : EVMInput ABI) : List (List UInt8) :=
  let timestamp := toLeBytes input.env.block.timestamp
  let blocknum := toLeBytes input.env.block.number
  let «to» := input.contract.toFixedBytes.reverse
  [«to», timestamp, blocknum]

/-- `VMInputT::set_evm_env`: the arguments it passes to its own declaration
`setEVMEnv(From, To, Timestamp, Blocknum)`, with the addresses in stored order, and the
environment it returns. -/
def setEvmEnv (input : EVMInput ABI) : List (List UInt8) × Env :=
  let timestamp := toLeBytes input.env.block.timestamp
  let blocknum := toLeBytes input.env.block.number
  let «to» := input.contract.toFixedBytes
  let caller := input.caller.toFixedBytes
  ([caller, «to», timestamp, blocknum], input.env)

/-- `EVMInputT::cu_load_input`: the reversed caller, the little-endian value (zero when
absent), the calldata and its length, state index `0`, and the thread. -/
def cuLoadInput (getBytes : ABI → List UInt8) (input : EVMInput ABI) (tid : UInt32) :
    CuLoadSeedCall :=
  let caller := input.caller.toFixedBytes.reverse
  let callvalue := toLeBytes (input.txnValue.getD 0)
  let calldata := input.getCalldata getBytes
  { callerPtr := caller, valuePtr := callvalue, dataPtr := calldata,
    dataSize := UInt32.ofNat calldata.length, stateIdx := 0, thread := tid }

/-- The buffer `cu_load_storage` builds: for each slot in iteration order, the little-endian
key followed by the little-endian value. -/
def storageBytes (slots : List (EVMU256 × EVMU256)) : List UInt8 :=
  slots.foldl (fun bytes slot => bytes ++ (toLeBytes slot.1 ++ toLeBytes slot.2)) []

/-- `EVMInputT::cu_load_storage`: the contract's storage slots and their number, or a null
buffer and `0` when the staged state holds no storage for the contract. -/
def cuLoadStorage (input : EVMInput ABI) (stateId : UInt32) : CuLoadStorageCall :=
  match input.vmSlots with
  | some storage =>
    { src := some (storageBytes storage.entries), slotCnt := UInt32.ofNat storage.len, stateId }
  | none => { src := none, slotCnt := 0, stateId }

theorem readWordLe_of_length_ne {buffer : List UInt8} (length : buffer.length ≠ 32) :
    readWordLe buffer = none := by
  simp [readWordLe, length]

/-- The storage loop started from bytes already laid out appends the slots' records to them. -/
theorem foldl_slotRecords (slots : List (EVMU256 × EVMU256)) (bytes : List UInt8) :
    slots.foldl (fun bytes slot => bytes ++ (toLeBytes slot.1 ++ toLeBytes slot.2)) bytes =
      bytes ++ storageBytes slots := by
  induction slots generalizing bytes with
  | nil => simp [storageBytes]
  | cons head rest ih =>
    rw [storageBytes, List.foldl_cons, List.foldl_cons, ih, ih (List.nil ++ _)]
    simp

theorem storageBytes_cons (slot : EVMU256 × EVMU256) (slots : List (EVMU256 × EVMU256)) :
    storageBytes (slot :: slots) = toLeBytes slot.1 ++ toLeBytes slot.2 ++ storageBytes slots := by
  rw [storageBytes, List.foldl_cons, foldl_slotRecords, List.nil_append]

theorem length_storageBytes (slots : List (EVMU256 × EVMU256)) :
    (storageBytes slots).length = 64 * slots.length := by
  induction slots with
  | nil => rfl
  | cons slot slots ih =>
    simp only [storageBytes_cons, List.length_append, length_toLeBytes, ih, List.length_cons]
    omega

/-- The runner decodes the storage buffer back into the slots it was built from. -/
theorem decodeSlots_storageBytes (slots : List (EVMU256 × EVMU256)) :
    decodeSlots slots.length (storageBytes slots) = some slots := by
  induction slots with
  | nil => rfl
  | cons slot slots ih =>
    rw [storageBytes_cons, List.append_assoc, List.length_cons, decodeSlots,
      List.take_left' (length_toLeBytes _), List.drop_left' (length_toLeBytes _),
      List.take_left' (length_toLeBytes _), show (64 : Nat) = 32 + 32 from rfl, ← List.drop_drop,
      List.drop_left' (length_toLeBytes _), List.drop_left' (length_toLeBytes _)]
    simp [readWordLe_toLeBytes, ih]

/-- The runner reads from `cu_load_evm_env` exactly the input's contract, timestamp and block
number. -/
theorem runnerSetEVMEnv_cuLoadEvmEnv (input : EVMInput ABI) :
    runnerSetEVMEnv input.cuLoadEvmEnv =
      some (input.contract, input.env.block.timestamp, input.env.block.number) := by
  simp [cuLoadEvmEnv, runnerSetEVMEnv, readAddressLe_reverse, readWordLe_toLeBytes]

/-- `set_evm_env` passes the runner's `setEVMEnv` a different argument list from
`cu_load_evm_env`: four buffers, the caller's bytes in the contract's place, and the contract's
20 bytes where the 32-byte timestamp is read, so the runner cannot read it back. -/
theorem setEvmEnv_misreads (input : EVMInput ABI) :
    input.setEvmEnv.1 ≠ input.cuLoadEvmEnv ∧ input.setEvmEnv.1.length = 4 ∧
      runnerSetEVMEnv input.setEvmEnv.1 = none := by
  have narrow : input.contract.toFixedBytes.length ≠ 32 := by
    simp [EVMAddress.toFixedBytes, input.contract.length_bytes]
  refine ⟨fun same => by simpa [setEvmEnv, cuLoadEvmEnv] using congrArg List.length same, rfl, ?_⟩
  simp [setEvmEnv, runnerSetEVMEnv, readWordLe_of_length_ne narrow]

/-- `cu_load_input` passes the runner the input's caller and value (zero when absent), read
back with its convention, the calldata, state index `0` and the given thread. -/
theorem cuLoadInput_reads (getBytes : ABI → List UInt8) (input : EVMInput ABI) (tid : UInt32) :
    readAddressLe (input.cuLoadInput getBytes tid).callerPtr = some input.caller ∧
      readWordLe (input.cuLoadInput getBytes tid).valuePtr = some (input.txnValue.getD 0) ∧
      (input.cuLoadInput getBytes tid).dataPtr = input.getCalldata getBytes ∧
      (input.cuLoadInput getBytes tid).stateIdx = 0 ∧
      (input.cuLoadInput getBytes tid).thread = tid :=
  ⟨readAddressLe_reverse _, readWordLe_toLeBytes _, rfl, rfl, rfl⟩

/-- **The storage layout.** When the staged state holds a storage map with fewer than `2 ^ 32`
slots for the contract, `cu_load_storage` passes a buffer of 64 bytes per slot and the number
of slots, and the runner decodes from it every slot of the map once and nothing else; without a
storage map it passes a null buffer and `0`. -/
theorem cuLoadStorage_slots (input : EVMInput ABI) (stateId : UInt32) :
    (∀ storage, input.getState.get input.contract = some storage → storage.len < 2 ^ 32 →
      ∃ bytes, (input.cuLoadStorage stateId).src = some bytes ∧
        bytes.length = 64 * storage.len ∧
        (input.cuLoadStorage stateId).slotCnt.toNat = storage.len ∧
        decodeSlots (input.cuLoadStorage stateId).slotCnt.toNat bytes = some storage.entries ∧
        storage.entries.Nodup ∧
        ∀ key value, (key, value) ∈ storage.entries ↔ storage.get key = some value) ∧
    (input.getState.get input.contract = none →
      (input.cuLoadStorage stateId).src = none ∧ (input.cuLoadStorage stateId).slotCnt = 0) := by
  refine ⟨fun storage present small => ?_, fun absent => by simp [cuLoadStorage, vmSlots, absent]⟩
  have count : (UInt32.ofNat storage.len).toNat = storage.len := UInt32.toNat_ofNat_of_lt small
  simp only [cuLoadStorage, vmSlots, present, count, Option.some.injEq, exists_eq_left', true_and]
  exact ⟨length_storageBytes _, decodeSlots_storageBytes _,
    storage.nodup_keys.of_map Prod.fst, fun key value => (storage.get_eq_some_iff key value).symm⟩

end EVMInput

/-- A storage map holding the value two at slot one and the value four at slot three. -/
def twoSlotStorage : Storage := ⟨[(1, 2), (3, 4)], by decide⟩

/-- The unflagged input whose contract holds two storage slots. -/
def storedInput : EVMInput Unit :=
  { unflaggedInput with sstate := ⟨⟨⟨[(zeroAddress, twoSlotStorage)], by decide⟩⟩⟩ }

/-- The storage layout at a contract with two slots: both records are concatenated in the
buffer and read back in order. -/
theorem cuLoadStorage_storedInput :
    storedInput.getState.get storedInput.contract = some twoSlotStorage ∧
      twoSlotStorage.len < 2 ^ 32 ∧
      ∃ bytes, (storedInput.cuLoadStorage 0).src = some bytes ∧
        bytes.length = 64 * twoSlotStorage.len ∧
        (storedInput.cuLoadStorage 0).slotCnt.toNat = twoSlotStorage.len ∧
        decodeSlots (storedInput.cuLoadStorage 0).slotCnt.toNat bytes =
          some twoSlotStorage.entries ∧
        twoSlotStorage.entries.Nodup ∧
        ∀ key value, (key, value) ∈ twoSlotStorage.entries ↔ twoSlotStorage.get key = some value :=
  have present : storedInput.getState.get storedInput.contract = some twoSlotStorage := by decide
  have small : twoSlotStorage.len < 2 ^ 32 := by decide
  ⟨present, small, (EVMInput.cuLoadStorage_slots storedInput 0).1 _ present small⟩

end Mau
