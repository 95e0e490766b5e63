import DfcCore.FileAccess
import DfcCore.Outcome

/-!
# Commands on file contents

The handlers of `dfc_emulator_commands_data.c`, `dfc_emulator_commands_records.c`,
`dfc_emulator_commands_transactions.c` and `handle_read_records`, each behind the checks of
the command registry. A handler gives the emulator afterwards with the octets that follow the
status, whole and before secure messaging, or refuses: with a status, the state it leaves and
whether the command may be retried as if it had not been sent.

What a handler meets outside the card image is decided by its environment: what secure
messaging makes of a protected payload, what the renderer of secure dynamic messaging gives,
whether the cipher, an allocation or the protection of the answer fails.
-/
namespace DfcCore
open Der

abbrev dfcStatusMemoryError : UInt8 := 0xEE
abbrev dfcCmdDeleteFile : UInt8 := 0xDF
abbrev dfcCmdCommitTransaction : UInt8 := 0xC7
abbrev dfcCmdAbortTransaction : UInt8 := 0xA7
abbrev dfcCmdCreateTransactionMacFile : UInt8 := 0xCE
abbrev dfcSmMaxCryptoSize : ℕ := dfcMaxFileData + 16
abbrev dfcUpdateRecordHeaderSize : ℕ := 11
abbrev dfcTransactionMacFileLength : ℕ := 12

structure Refusal where
  emulator : DfcEmulator
  status : UInt8
  retryable : Bool := false

/-- The emulator afterwards and the octets behind the status, or a refusal. -/
abbrev Handled := Except Refusal (DfcEmulator × List UInt8)

/-- What secure messaging makes of a protected part of a command. -/
inductive Unwrapped (α : Type) where
  | clear (a : α)
  | lengthError
  | integrityError (endsSession : Bool)
  deriving Repr, DecidableEq

/-- What the renderer of secure dynamic messaging gives: the file as it is to be read, with
the read counter afterwards, or why not. -/
inductive SdmRender where
  | rendered (cache : Mem) (counter : UInt32)
  | limitReached
  | randomExhausted (retryable : Bool)
  | failed

inductive EmissionFailure where
  | boundary | cipher
  deriving Repr, DecidableEq

structure CommandEnv where
  payload : Unwrapped (List UInt8) := .integrityError true
  amount : Unwrapped Int32 := .integrityError true
  sdm : SdmRender := .failed
  cipherFails : Bool := false
  encryptFails : Bool := false
  allocationFails : Bool := false
  emission : Option EmissionFailure := none

def readUint24Le (apdu : List UInt8) (offset : ℕ) : ℕ := leValue ((apdu.drop offset).take 3)

/-- A refusal that leaves the given state. -/
def DfcEmulator.refuse (e : DfcEmulator) (status : UInt8) : Refusal := { emulator := e, status }

/-- Turns a check of a lifecycle command into one that leaves the emulator. -/
def DfcEmulator.require {α : Type} (e : DfcEmulator) : Except UInt8 α → Except Refusal α
  | .ok a => .ok a
  | .error status => .error (e.refuse status)

def findFile (e : DfcEmulator) (fileNo : UInt8) : Except Refusal ℕ :=
  orFail (e.refuse (dfcEmulatorFileLookupFailureStatus fileNo false))
    (dfcCredentialFindFileInApp e.credential e.selectedAppIndex fileNo)

def findRecordFile (e : DfcEmulator) (fileNo : UInt8) : Except Refusal ℕ := do
  let i ← findFile e fileNo
  refuseIf (dfcFileTypeIsRecord (e.credential.files i).type = false)
    (e.refuse (dfcEmulatorFileLookupFailureStatus fileNo true))
  return i

/-- `dfc_emulator_command_unwrap_write_payload`: without a native session the payload stands
in the command. -/
def unwrapWritePayload (e : DfcEmulator) (env : CommandEnv) (apdu : List UInt8) (headerLen : ℕ) :
    Unwrapped (List UInt8) :=
  if apdu.length < 1 + headerLen then .integrityError true
  else if e.nativeSession.isSome then env.payload
  else .clear (apdu.drop (1 + headerLen))

/-- A payload that does not verify is refused, with or without the session. -/
def Unwrapped.orRefuse {α : Type} (e : DfcEmulator) : Unwrapped α → Except Refusal α
  | clear a => .ok a
  | lengthError => .error (e.refuse dfcStatusLengthError)
  | integrityError endsSession =>
    .error ((if endsSession then dfcEmulatorResetSession e else e).refuse dfcStatusIntegrityError)

/-- Room for the pre-images of the application's files. -/
def transactionSnapshotCapacity (c : DfcCredential) (appIndex : ℕ) : Option ℕ :=
  (List.range c.numFiles).foldlM (fun capacity i =>
    let file := c.files i
    if file.appIndex ≠ appIndex ∨ transactionFileHasData file = false then some capacity
    else if dfcFilePoolSize - capacity < file.dataLen then none
    else some (capacity + file.dataLen)) 0

def dfcEmulatorCommandTransactionSnapshotBegin (e : DfcEmulator) (allocationFails : Bool) :
    DfcEmulator × Bool :=
  if e.snapshot.active then (e, e.snapshot.appIndex == e.selectedAppIndex)
  else match transactionSnapshotCapacity e.credential e.selectedAppIndex with
  | none => (e, false)
  | some capacity =>
    if allocationFails then (e, false)
    else
      ({ e with
          snapshot :=
            { active := true
              appIndex := e.selectedAppIndex
              dirty := e.credential.dirty
              hasPool := true
              poolCapacity := if capacity = 0 then 1 else capacity } }, true)

/-- Opens the transaction and captures the file in it. -/
def openJournal (e : DfcEmulator) (allocationFails : Bool) (i : ℕ) : DfcEmulator × Bool :=
  match dfcEmulatorCommandTransactionSnapshotBegin e allocationFails with
  | (e, false) => (e, false)
  | (e, true) => dfcEmulatorTransactionSnapshotCaptureFile e i

/-- A transaction the command itself opened is given up when the command cannot go on. -/
def abandonJournal (e opened : DfcEmulator) : DfcEmulator :=
  if e.snapshot.active then opened else (dfcEmulatorAbortTransactionSnapshot opened).1

def dfcEmulatorCommandTransactionSetRecordOperation (e : DfcEmulator) (i : ℕ)
    (operation : RecordTransaction) (recordNumber : ℕ) : DfcEmulator :=
  if dfcMaxFiles ≤ i then e
  else
    { e with
      snapshot := { e.snapshot with
        entries := Function.update e.snapshot.entries i
          { e.snapshot.entries i with recordOperation := operation, recordNumber } } }

/-- Only a failure of the cipher can be retried. -/
def TransactionMacUpdate.orRefuse (refused : DfcEmulator) :
    TransactionMacUpdate → Except Refusal DfcEmulator
  | ok e => .ok e
  | terminal => .error (refused.refuse dfcStatusBoundaryError)
  | cryptoFailed =>
    .error { emulator := refused, status := dfcStatusBoundaryError, retryable := true }

/-- `dfc_emulator_command_emit_payload_with_chaining_comm` up to secure messaging, as one
logical answer. -/
def emitPayload (e : DfcEmulator) (env : CommandEnv) (payload : List UInt8) : Handled :=
  match env.emission with
  | none => .ok (dfcEmulatorCommandClearPendingChain e, payload)
  | some .boundary =>
    .error ((dfcEmulatorCommandClearPendingChain e).refuse dfcStatusBoundaryError)
  | some .cipher => .error ((dfcEmulatorResetSession e).refuse dfcStatusIntegrityError)

/-- `memcpy` into the slice of a file. -/
def DfcCredential.writeFileData (c : DfcCredential) (start : ℕ) (octets : List UInt8) :
    DfcCredential :=
  { c with filePool := c.filePool.write start octets }

def DfcCredential.setPending (c : DfcCredential) (i : ℕ) : DfcCredential :=
  c.modifyFile i fun file => { file with transactionPending := true }

/-- The octets a read gets from a view of a file. -/
def readView (e : DfcEmulator) (offset length : ℕ) : CommittedData → Option (List UInt8)
  | .absent => if length = 0 then some [] else none
  | .zeros => some (List.replicate length 0)
  | .live start => some (e.credential.filePool.read (start + offset) length)
  | .preimage start => some (e.snapshot.pool.read (start + offset) length)

/-- The view of a file as it stands in the pool. -/
def liveData (c : DfcCredential) (file : DfcFile) : CommittedData :=
  match dfcFileData c file with
  | some start => .live start
  | none => .absent

section
variable (aes : List UInt8 → List UInt8 → List UInt8)

/-- What ReadData reads and the state it leaves: a file under secure dynamic messaging is
rendered, a backup file shows its committed image. -/
def readDataOctets (e : DfcEmulator) (env : CommandEnv) (i offset length : ℕ) :
    Except Refusal (DfcEmulator × List UInt8) := do
  let file := e.credential.files i
  if dfcFileSdmFlagIsSet file .enabled then
    match env.sdm with
    | .limitReached => .error (e.refuse dfcStatusPermissionDenied)
    | .randomExhausted retryable =>
      .error { emulator := e, status := dfcStatusMemoryError, retryable }
    | .failed => .error (e.refuse dfcStatusParameterError)
    | .rendered cache counter =>
      return (e.mapCredential fun c => c.modifyFile i fun file =>
        file.withData { file.state.data with sdmReadCounter := counter }, cache.read offset length)
  else
    let view := if file.type = dfcFileTypeBackupData then
        dfcEmulatorTransactionSnapshotCommittedData e i
      else liveData e.credential file
    let octets ← orFail (e.refuse dfcStatusFileNotFound) (readView e offset length view)
    return (e, octets)

def dfcEmulatorCommandReadData (e : DfcEmulator) (env : CommandEnv) (apdu : List UInt8) :
    Handled := do
  refuseIf (apdu.length < 8) (e.refuse dfcStatusLengthError)
  refuseIf (e.selectedApplication ≠ .app) (e.refuse dfcStatusPermissionDenied)
  refuseIf (apdu.length ≠ 8 ∧ dfcEmulatorAuthenticated e = false) (e.refuse dfcStatusLengthError)
  let fileNo := apdu.getD 1 0
  let i ← findFile e fileNo
  let file := e.credential.files i
  refuseIf (dfcFileTypeIsData file.type = false ∧ file.type ≠ dfcFileTypeTransactionMac)
    (e.refuse dfcStatusPermissionDenied)
  refuseIf (dfcEmulatorFileAccessAllowed e file .read = false)
    (e.refuse (dfcEmulatorCommandFileAccessRefusalStatus file false))
  let offset := readUint24Le apdu 2
  let requestedLen := readUint24Le apdu 5
  refuseIf (file.dataLen < offset ∨ (requestedLen ≠ 0 ∧ file.dataLen < offset + requestedLen))
    (e.refuse dfcStatusBoundaryError)
  let readLen := if requestedLen = 0 then file.dataLen - offset else requestedLen
  refuseIf (file.type ≠ dfcFileTypeTransactionMac ∧
    dfcEmulatorCommandTransactionMacCanAddData e = false) (e.refuse dfcStatusBoundaryError)
  let (e, octets) ← readDataOctets e env i offset readLen
  -- A read of the transaction MAC file is not part of the transaction.
  let e ← if file.type = dfcFileTypeTransactionMac then .ok e
    else (transactionMacAdd aes e env.cipherFails fun a =>
      dfcTransactionMacAccumulatorAddData aes a (apdu.getD 0 0) fileNo offset readLen
        octets).orRefuse e
  emitPayload e env octets

/-- Writes into the slice of a data file; a backup file has the write pending. -/
def storeData (e : DfcEmulator) (i start : ℕ) (octets : List UInt8) : DfcEmulator :=
  let c := e.credential.writeFileData start octets
  if (e.credential.files i).type = dfcFileTypeBackupData then
    { e with credential := { c.setPending i with dirty := true } }
  else
    { dfcEmulatorTransactionSnapshotNotePersistentChange e with
      credential := { c with dirty := true } }

def dfcEmulatorCommandWriteData (e : DfcEmulator) (env : CommandEnv) (apdu : List UInt8) :
    Handled := do
  refuseIf (apdu.length < 8) (e.refuse dfcStatusLengthError)
  refuseIf (e.selectedApplication ≠ .app) (e.refuse dfcStatusPermissionDenied)
  let fileNo := apdu.getD 1 0
  let i ← findFile e fileNo
  let file := e.credential.files i
  refuseIf (dfcFileTypeIsData file.type = false) (e.refuse dfcStatusPermissionDenied)
  refuseIf (dfcEmulatorFileAccessAllowed e file .write = false)
    (e.refuse (dfcEmulatorCommandFileAccessRefusalStatus file true))
  let comm := dfcEmulatorFileEffectiveCommSettings e file .write
  refuseIf (dfcEmulatorChainBufferSize < apdu.length ∨
    (comm = dfcCommEnciphered ∧ dfcSmMaxCryptoSize < apdu.length - 8))
    (e.refuse dfcStatusBoundaryError)
  let offset := readUint24Le apdu 2
  let declaredLen := readUint24Le apdu 5
  refuseIf (file.dataLen < offset ∨ file.dataLen < offset + declaredLen)
    (e.refuse dfcStatusBoundaryError)
  refuseIf (declaredLen = 0) (e.refuse dfcStatusParameterError)
  let clear ← (unwrapWritePayload e env apdu 7).orRefuse e
  refuseIf (clear.length ≠ declaredLen) (e.refuse dfcStatusBoundaryError)
  let start ← orFail (e.refuse dfcStatusFileNotFound) (dfcFileData e.credential file)
  refuseIf (dfcEmulatorCommandTransactionMacCanAddData e = false)
    (e.refuse dfcStatusBoundaryError)
  let (opened, isOpen) := if file.type = dfcFileTypeBackupData then
      openJournal e env.allocationFails i
    else (e, true)
  refuseIf (isOpen = false) (opened.refuse dfcStatusPermissionDenied)
  refuseIf (file.type = dfcFileTypeStandardData ∧
    dfcEmulatorTransactionSnapshotCanMirrorWrite opened i offset clear.length = false)
    (opened.refuse dfcStatusBoundaryError)
  let recorded ← (transactionMacAdd aes opened env.cipherFails fun a =>
    dfcTransactionMacAccumulatorAddData aes a (apdu.getD 0 0) fileNo offset declaredLen
      clear).orRefuse (abandonJournal e opened)
  return (storeData recorded i (start + offset) clear, [])

/-- The committed records of a file: how many there are, and where. -/
def committedRecords (e : DfcEmulator) (i : ℕ) : ℕ × CommittedData :=
  if e.snapshot.active ∧ e.snapshot.appIndex = e.selectedAppIndex then
    (dfcEmulatorTransactionSnapshotCommittedRecordCount e i,
      match dfcEmulatorTransactionSnapshotCommittedData e i with
      | .zeros => .absent
      | view => view)
  else
    ((e.credential.files i).state.record.count, liveData e.credential (e.credential.files i))

def handleReadRecords (e : DfcEmulator) (env : CommandEnv) (apdu : List UInt8) : Handled := do
  refuseIf (apdu.length ≠ 8) (e.refuse dfcStatusLengthError)
  refuseIf (e.selectedApplication ≠ .app) (e.refuse dfcStatusPermissionDenied)
  let fileNo := apdu.getD 1 0
  let i ← findRecordFile e fileNo
  let file := e.credential.files i
  refuseIf (dfcEmulatorFileAccessAllowed e file .read = false)
    (e.refuse (dfcEmulatorCommandFileAccessRefusalStatus file false))
  refuseIf (dfcEmulatorRecordStorageIsConsistent file = false) (e.refuse dfcStatusOutOfEeprom)
  let (recordCount, view) := committedRecords e i
  let size := file.state.record.size
  let firstRecord := readUint24Le apdu 2
  let requestedRecords := readUint24Le apdu 5
  refuseIf (recordCount = 0 ∨ recordCount ≤ firstRecord) (e.refuse dfcStatusBoundaryError)
  let available := recordCount - firstRecord
  let count := if requestedRecords = 0 then available else requestedRecords
  refuseIf (available < count ∨ size = 0 ∨ dfcMaxFileData / size < count)
    (e.refuse dfcStatusBoundaryError)
  -- Record zero is the newest; the records lie oldest first.
  let storedIndex := recordCount - firstRecord - count
  let octets ← orFail (e.refuse dfcStatusFileNotFound)
    (readView e (storedIndex * size) (count * size) view)
  let e ← (transactionMacAdd aes e env.cipherFails fun a =>
    dfcTransactionMacAccumulatorAddData aes a (apdu.getD 0 0) fileNo firstRecord count
      octets).orRefuse e
  emitPayload e env octets

/-- Where the next record goes: a full cyclic file drops its oldest one. -/
def appendRecordSlot (c : DfcCredential) (i start : ℕ) : DfcCredential × ℕ :=
  let file := c.files i
  let record := file.state.record
  let capacity := dfcEmulatorRecordUsableCapacity file
  if file.type = dfcFileTypeCyclicRecord ∧ capacity ≤ record.count then
    ({ c.modifyFile i fun file => file.withRecord { record with count := capacity } with
        filePool := (c.filePool.move start (start + record.size)
          ((capacity - 1) * record.size)).fill (start + (capacity - 1) * record.size)
          record.size 0 }, capacity - 1)
  else
    ({ c.modifyFile i fun file => file.withRecord { record with count := record.count + 1 } with
        filePool := c.filePool.fill (start + record.count * record.size) record.size 0 },
      record.count)

/-- Further writes of a transaction go to the record that the first one created. -/
def storeRecord (e : DfcEmulator) (i start offset : ℕ) (octets : List UInt8) : DfcEmulator :=
  let size := (e.credential.files i).state.record.size
  if (e.snapshot.entry i).recordOperation = .write then
    let index := (e.snapshot.entries i).recordNumber
    e.mapCredential fun c => (c.writeFileData (start + index * size + offset) octets).setPending i
  else
    let (c, index) := appendRecordSlot e.credential i start
    dfcEmulatorCommandTransactionSetRecordOperation
      { e with
        credential := (c.writeFileData (start + index * size + offset) octets).setPending i }
      i .write index

def dfcEmulatorCommandWriteRecord (e : DfcEmulator) (env : CommandEnv) (apdu : List UInt8) :
    Handled := do
  refuseIf (apdu.length < 8) (e.refuse dfcStatusLengthError)
  refuseIf (e.selectedApplication ≠ .app) (e.refuse dfcStatusPermissionDenied)
  refuseIf (dfcEmulatorChainBufferSize < apdu.length) (e.refuse dfcStatusLengthError)
  let fileNo := apdu.getD 1 0
  let i ← findRecordFile e fileNo
  let file := e.credential.files i
  refuseIf (dfcEmulatorFileAccessAllowed e file .write = false)
    (e.refuse (dfcEmulatorCommandFileAccessRefusalStatus file true))
  refuseIf (dfcEmulatorRecordStorageIsConsistent file = false) (e.refuse dfcStatusOutOfEeprom)
  let offset := readUint24Le apdu 2
  let writeLen := readUint24Le apdu 5
  let clear ← (unwrapWritePayload e env apdu 7).orRefuse e
  refuseIf (clear.length ≠ writeLen ∨ file.state.record.size < offset + writeLen)
    (e.refuse dfcStatusBoundaryError)
  refuseIf (dfcEmulatorCommandTransactionMacCanAddData e = false)
    (e.refuse dfcStatusBoundaryError)
  refuseIf (dfcEmulatorRecordUsableCapacity file = 0) (e.refuse dfcStatusBoundaryError)
  let start ← orFail (e.refuse dfcStatusFileNotFound) (dfcFileData e.credential file)
  let (opened, isOpen) := openJournal e env.allocationFails i
  refuseIf (isOpen = false) (opened.refuse dfcStatusPermissionDenied)
  let operation := (opened.snapshot.entry i).recordOperation
  refuseIf (operation = .clear ∨ operation = .update) (opened.refuse dfcStatusPermissionDenied)
  -- A full linear file refuses the first write of a transaction.
  refuseIf (operation ≠ .write ∧ file.state.record.maxRecords ≤ file.state.record.count ∧
    file.type = dfcFileTypeLinearRecord) (opened.refuse dfcStatusBoundaryError)
  let recorded ← (transactionMacAdd aes opened env.cipherFails fun a =>
    dfcTransactionMacAccumulatorAddData aes a (apdu.getD 0 0) fileNo offset writeLen
      clear).orRefuse (abandonJournal e opened)
  return (storeRecord recorded i start offset clear, [])

def dfcEmulatorCommandUpdateRecord (e : DfcEmulator) (env : CommandEnv) (apdu : List UInt8) :
    Handled := do
  refuseIf (e.credential.card.generation = dfcGenerationEv1)
    (e.refuse dfcStatusIllegalCommandCode)
  refuseIf (apdu.length < dfcUpdateRecordHeaderSize) (e.refuse dfcStatusLengthError)
  refuseIf (e.selectedApplication ≠ .app) (e.refuse dfcStatusPermissionDenied)
  refuseIf (dfcEmulatorChainBufferSize < apdu.length) (e.refuse dfcStatusLengthError)
  let fileNo := apdu.getD 1 0
  let i ← findRecordFile e fileNo
  let file := e.credential.files i
  let record := file.state.record
  refuseIf (dfcEmulatorFileAccessAllowed e file .readWrite = false)
    (e.refuse (dfcEmulatorCommandFileReadWriteRefusalStatus file))
  refuseIf (dfcEmulatorRecordStorageIsConsistent file = false) (e.refuse dfcStatusOutOfEeprom)
  let recordNumber := readUint24Le apdu 2
  let offset := readUint24Le apdu 5
  let writeLength := readUint24Le apdu 8
  refuseIf (record.count ≤ recordNumber ∨ record.size ≤ offset ∨ writeLength = 0 ∨
    record.size < offset + writeLength) (e.refuse dfcStatusBoundaryError)
  let clear ← (unwrapWritePayload e env apdu (dfcUpdateRecordHeaderSize - 1)).orRefuse e
  refuseIf (clear.length ≠ writeLength) (e.refuse dfcStatusLengthError)
  refuseIf (dfcEmulatorCommandTransactionMacCanAddData e = false)
    (e.refuse dfcStatusBoundaryError)
  let start ← orFail (e.refuse dfcStatusOutOfEeprom) (dfcFileData e.credential file)
  let (opened, isOpen) := openJournal e env.allocationFails i
  refuseIf (isOpen = false) (opened.refuse dfcStatusOutOfEeprom)
  refuseIf (file.type = dfcFileTypeLinearRecord ∧ record.maxRecords ≤ record.count)
    (opened.refuse dfcStatusBoundaryError)
  let operation := (opened.snapshot.entry i).recordOperation
  refuseIf (operation = .write ∨ operation = .clear ∨
    (operation = .update ∧ (opened.snapshot.entries i).recordNumber ≠ recordNumber))
    (opened.refuse dfcStatusPermissionDenied)
  let recorded ← (transactionMacAdd aes opened env.cipherFails fun a =>
    dfcTransactionMacAccumulatorAddRecordUpdate aes a (apdu.getD 0 0) fileNo recordNumber offset
      writeLength clear).orRefuse (abandonJournal e opened)
  let storedIndex := record.count - recordNumber - 1
  let staged := recorded.mapCredential fun c =>
    (c.writeFileData (start + storedIndex * record.size + offset) clear).setPending i
  return (dfcEmulatorCommandTransactionSetRecordOperation staged i .update recordNumber, [])

def dfcEmulatorCommandClearRecordFile (e : DfcEmulator) (env : CommandEnv) (apdu : List UInt8) :
    Handled := do
  refuseIf (e.selectedApplication ≠ .app) (e.refuse dfcStatusPermissionDenied)
  refuseIf (apdu.length ≠ 2) (e.refuse dfcStatusLengthError)
  let fileNo := apdu.getD 1 0
  let i ← findRecordFile e fileNo
  let file := e.credential.files i
  refuseIf (dfcEmulatorFileAccessAllowed e file .readWrite = false)
    (e.refuse (dfcEmulatorCommandFileReadWriteRefusalStatus file))
  refuseIf (dfcEmulatorRecordStorageIsConsistent file = false) (e.refuse dfcStatusOutOfEeprom)
  refuseIf (dfcEmulatorCommandTransactionMacCanAddData e = false)
    (e.refuse dfcStatusBoundaryError)
  let (opened, isOpen) := openJournal e env.allocationFails i
  refuseIf (isOpen = false) (opened.refuse dfcStatusOutOfEeprom)
  refuseIf ((opened.snapshot.entry i).recordOperation ≠ .none)
    (opened.refuse dfcStatusPermissionDenied)
  let recorded ← (transactionMacAdd aes opened env.cipherFails fun a =>
    dfcTransactionMacAccumulatorAddClearRecord aes a fileNo).orRefuse (abandonJournal e opened)
  let staged := recorded.mapCredential fun c =>
    (c.modifyFile i fun file =>
      file.withRecord { file.state.record with count := 0 }).setPending i
  return (dfcEmulatorCommandTransactionSetRecordOperation staged i .clear 0, [])

def dfcEmulatorCommandGetValue (e : DfcEmulator) (env : CommandEnv) (apdu : List UInt8) :
    Handled := do
  refuseIf (apdu.length < 2) (e.refuse dfcStatusLengthError)
  refuseIf (e.selectedApplication ≠ .app) (e.refuse dfcStatusPermissionDenied)
  let fileNo := apdu.getD 1 0
  let i ← findFile e fileNo
  let file := e.credential.files i
  refuseIf (file.type ≠ dfcFileTypeValue) (e.refuse dfcStatusPermissionDenied)
  refuseIf (dfcEmulatorFileAccessAllowed e file .read = false ∧
    dfcEmulatorFileAccessAllowed e file .write = false ∧
    dfcEmulatorFileAccessAllowed e file .readWrite = false)
    (e.refuse (valueRefusalStatus file true true true))
  let value := leOctets 4 file.state.value.current.toUInt32.toNat
  let e ← (transactionMacAdd aes e env.cipherFails fun a =>
    dfcTransactionMacAccumulatorAddValue aes a dfcCmdGetValue fileNo value).orRefuse e
  refuseIf (env.emission.isSome = true)
    ((dfcEmulatorResetSession e).refuse dfcStatusIntegrityError)
  return (e, value)

/-- The value a delta leads to, where it stays within the limits. -/
def valueDeltaResult (v : DfcValueFileState) (delta : Int) : Option Int32 :=
  let current := if v.pending then
      if v.pendingAbsolute then v.pendingValue.toInt
      else v.current.toInt + v.pendingDelta.toInt
    else v.current.toInt
  let next := current + delta
  if next < v.lowerLimit.toInt ∨ v.upperLimit.toInt < next then none else some (Int32.ofInt next)

/-- Saturates at the ends of the 32-bit range. -/
def clampInt32 (x : Int) : Int32 :=
  if 2147483647 < x then 2147483647
  else if x < -2147483648 then -2147483648 else Int32.ofInt x

/-- The state of a value file with a further delta pending. -/
def DfcValueFileState.stage (v : DfcValueFileState) (next amount : Int32)
    (debit limitedCredit : Bool) : DfcValueFileState :=
  { v with
    pending := true
    pendingValue := next
    pendingAbsolute := true
    pendingDelta := clampInt32 (next.toInt - v.current.toInt)
    limitedCreditPending :=
      if limitedCredit then dfcLimitedCreditTransactionConsumed
      else if debit = true ∧ 0 ≤ v.limitedCreditPending.toInt then
        clampInt32 (v.limitedCreditPending.toInt + amount.toInt)
      else v.limitedCreditPending }

/-- The rights that allow a value command: Credit needs read-and-write, Debit takes any,
LimitedCredit takes write as well. -/
def valueDeltaAllowed (e : DfcEmulator) (file : DfcFile) (debit limitedCredit : Bool) : Bool :=
  if debit then
    dfcEmulatorFileAccessAllowed e file .write || dfcEmulatorFileAccessAllowed e file .read
  else if limitedCredit then dfcEmulatorFileAccessAllowed e file .write
  else dfcEmulatorFileAccessAllowed e file .readWrite

/-- The amount of a value command. -/
def unwrapAmount (e : DfcEmulator) (env : CommandEnv) (apdu : List UInt8) : Unwrapped Int32 :=
  if e.nativeSession.isSome then env.amount
  else if apdu.length ≠ 6 then .lengthError
  else .clear (readInt32Le (apdu.drop 2))

/-- Credit, Debit and LimitedCredit. -/
def dfcEmulatorCommandValueDelta (e : DfcEmulator) (env : CommandEnv) (apdu : List UInt8)
    (cmd : UInt8) (debit limitedCredit : Bool) : Handled := do
  refuseIf (apdu.length < 6) (e.refuse dfcStatusLengthError)
  refuseIf (e.selectedApplication ≠ .app) (e.refuse dfcStatusPermissionDenied)
  let fileNo := apdu.getD 1 0
  let i ← findFile e fileNo
  let file := e.credential.files i
  let v := file.state.value
  refuseIf (file.type ≠ dfcFileTypeValue) (e.refuse dfcStatusPermissionDenied)
  refuseIf (valueDeltaAllowed e file debit limitedCredit = false)
    (e.refuse (valueRefusalStatus file debit (debit || limitedCredit) true))
  let amount ← (unwrapAmount e env apdu).orRefuse e
  refuseIf (amount.toInt < 0) (e.refuse dfcStatusParameterError)
  refuseIf (limitedCredit = true ∧ v.limitedCredit &&& 0x01 = 0)
    (e.refuse dfcStatusPermissionDenied)
  let available := if 0 < v.limitedCreditPending.toInt then v.limitedCreditPending
    else v.limitedCreditValue
  refuseIf (limitedCredit = true ∧ (v.limitedCreditPending = dfcLimitedCreditTransactionConsumed ∨
    available.toInt < amount.toInt)) (e.refuse dfcStatusBoundaryError)
  let next ← orFail (e.refuse dfcStatusBoundaryError)
    (valueDeltaResult v (if debit then -amount.toInt else amount.toInt))
  let e ← (transactionMacAdd aes e env.cipherFails fun a =>
    dfcTransactionMacAccumulatorAddValue aes a cmd fileNo
      (leOctets 4 amount.toUInt32.toNat)).orRefuse e
  return (e.mapCredential fun c => c.modifyFile i fun file =>
    file.withValue (file.state.value.stage next amount debit limitedCredit), [])

/-- The reader identifier of the last transaction, under the key of the next one. -/
def encryptedPreviousReaderId (e : DfcEmulator) (tmac : DfcTransactionMacFileState) :
    List UInt8 :=
  let vector := (transactionVector 0xA5 e.credential.uidOctets (tmac.counter + 1)).take 16
  aes (aesCmac aes tmac.keyOctets vector) (tmac.previousReaderId.read 0 16)

/-- The reader identifier of a CommitReaderID command. -/
def unwrapReaderId (e : DfcEmulator) (env : CommandEnv) (apdu : List UInt8) :
    Except Refusal (List UInt8) :=
  if e.nativeSession.isSome then
    match env.payload with
    | .clear readerId =>
      if readerId.length = dfcTransactionReaderIdLength then .ok readerId
      else .error (e.refuse dfcStatusIntegrityError)
    | _ => .error (e.refuse dfcStatusIntegrityError)
  else .ok (apdu.drop 1)

def dfcEmulatorCommandCommitReaderId (e : DfcEmulator) (env : CommandEnv) (apdu : List UInt8) :
    Handled := do
  refuseIf (e.selectedApplication ≠ .app) (e.refuse dfcStatusPermissionDenied)
  let readerId ← unwrapReaderId e env apdu
  let i ← orFail (e.refuse dfcStatusFileNotFound) (transactionMacFile e)
  let file := e.credential.files i
  let tmac := file.state.transactionMac
  refuseIf (readerId.length ≠ dfcTransactionReaderIdLength) (e.refuse dfcStatusLengthError)
  refuseIf (dfcAccessNibble file.accessRights 4 = dfcAccessDeny ∨
    e.transactionReaderIdPending = true) (e.refuse dfcStatusPermissionDenied)
  refuseIf (dfcEmulatorFileAccessAllowed e file .readWrite = false)
    (e.refuse dfcStatusAuthenticationErr)
  refuseIf (tmac.counter = uint32Max) (e.refuse dfcStatusIntegrityError)
  let authenticated := dfcEmulatorAuthenticated e
  refuseIf (authenticated = true ∧ env.encryptFails = true)
    { emulator := e, status := dfcStatusIntegrityError, retryable := true }
  let encrypted := if authenticated then some (encryptedPreviousReaderId aes e tmac) else none
  let e ← (transactionMacAdd aes e env.cipherFails fun a =>
    dfcTransactionMacAccumulatorAddReaderId aes a readerId encrypted).orRefuse e
  return ({ e with
    transactionPendingReaderId := readerId
    transactionReaderIdPending := true
    transactionReaderIdPersist := authenticated }, encrypted.getD [])

/-- The code of the transaction and the counter it is under. -/
def transactionMacCalculate (e : DfcEmulator) (tmac : DfcTransactionMacFileState) :
    Option (List UInt8 × UInt32) :=
  if tmac.counter = uint32Max then none
  else
    (dfcTransactionMacAccumulatorFinalize aes e.transactionMac).map fun full =>
      (dfcTruncateAesWireMac full, tmac.counter + 1)

/-- Whether a commit has anything to commit. -/
def transactionChanged (e : DfcEmulator) : Bool :=
  e.transactionMac.hasPending || (List.range e.credential.numFiles).any fun i =>
    let file := e.credential.files i
    file.appIndex == e.selectedAppIndex && (file.hasPendingValue || file.transactionPending)

/-- Stores the reader identifier and the counter of a committed transaction. -/
def DfcEmulator.storeTransactionCounter (e : DfcEmulator) (i : ℕ) (persist : Bool)
    (readerId : List UInt8) (counter : UInt32) : DfcEmulator :=
  e.mapCredential fun c => c.modifyFile i fun file =>
    let tmac := file.state.transactionMac
    file.withTransactionMac { tmac with
      counter
      previousReaderId := if persist then tmac.previousReaderId.write 0 readerId
        else tmac.previousReaderId }

def dfcEmulatorCommandCommitTransaction (e : DfcEmulator) (env : CommandEnv)
    (returnTransactionMac : Bool) : Handled := do
  refuseIf (transactionChanged e = false) (e.refuse dfcStatusNoChanges)
  match transactionMacFile e with
  | none => return (dfcEmulatorPublishTransaction e, [])
  | some i =>
    let file := e.credential.files i
    refuseIf (dfcAccessNibble file.accessRights 4 ≠ dfcAccessDeny ∧
      e.transactionReaderIdPending = false) (e.refuse dfcStatusPermissionDenied)
    refuseIf (env.cipherFails = true) (e.refuse dfcStatusIntegrityError)
    let (mac, counter) ← orFail (e.refuse dfcStatusIntegrityError)
      (transactionMacCalculate aes e file.state.transactionMac)
    let published := (dfcEmulatorPublishTransaction e).storeTransactionCounter i
      e.transactionReaderIdPersist e.transactionPendingReaderId counter
    return (published, if returnTransactionMac then leOctets 4 counter.toNat ++ mac else [])

end

/-- What a malformed commit or abort command clears before it is refused. -/
def dfcEmulatorCommandClearSelectedAppPendingValues (e : DfcEmulator) : DfcEmulator :=
  (e.mapCredential fun c => c.mapFilesOf e.selectedAppIndex fun file =>
    if file.type = dfcFileTypeValue then file.dropPendingValue else file).clearTransactionMac

def dfcEmulatorCommandAbortTransaction (e : DfcEmulator) (apdu : List UInt8) : Handled := do
  refuseIf (e.selectedApplication ≠ .app) (e.refuse dfcStatusPermissionDenied)
  refuseIf (apdu.length ≠ 1)
    ((dfcEmulatorCommandClearSelectedAppPendingValues e).refuse dfcStatusLengthError)
  let (aborted, changed) := dfcEmulatorAbortTransaction e
  refuseIf (changed = false) (aborted.refuse dfcStatusNoChanges)
  return (aborted, [])

def dfcEmulatorCommandDeleteFile (e : DfcEmulator) (apdu : List UInt8) : Handled := do
  refuseIf (apdu.length ≠ 2) (e.refuse dfcStatusLengthError)
  refuseIf (e.selectedApplication ≠ .app) (e.refuse dfcStatusPermissionDenied)
  e.require (requireCreateDeleteAccess e)
  let fileNo := apdu.getD 1 0
  let i ← findFile e fileNo
  let e := if (e.credential.files i).type = dfcFileTypeTransactionMac then
      (dfcEmulatorAbortTransaction e).1
    else dfcEmulatorTransactionSnapshotDeleteFile e i
  return ((dfcEmulatorTransactionSnapshotNotePersistentChange (e.mapCredential fun c =>
    (dfcCredentialDeleteFile c e.selectedAppIndex fileNo).1)).markDirty, [])

/-- The record of a new transaction MAC file. -/
def DfcFile.installTransactionMac (file : DfcFile) (apdu : List UInt8) : DfcFile :=
  let tmac := file.state.transactionMac
  { file.withTransactionMac { tmac with
      keyType := apdu.getD 5 0
      key := tmac.key.write 0 ((apdu.drop 6).take 16)
      keyVersion := apdu.getD 22 0 } with
    number := apdu.getD 1 0
    type := dfcFileTypeTransactionMac
    commSettings := apdu.getD 2 0
    accessRights := UInt16.ofNat (leValue ((apdu.drop 3).take 2))
    contentsComplete := true }

def dfcEmulatorCommandCreateTransactionMacFile (e : DfcEmulator) (apdu : List UInt8) :
    Handled := do
  let c := e.credential
  refuseIf (e.selectedApplication ≠ .app) (e.refuse dfcStatusPermissionDenied)
  e.require (requireCreateDeleteAccess e)
  refuseIf (apdu.length ≠ 23 ∨ (transactionMacFile e).isSome = true)
    (e.refuse dfcStatusParameterError)
  let accessRights := UInt16.ofNat (leValue ((apdu.drop 3).take 2))
  refuseIf (dfcCommunicationSettingsIsValid (apdu.getD 2 0) = false ∨
    dfcTransactionMacAccessRightsAreValid accessRights
      (c.apps e.selectedAppIndex).numKeys = false ∨
    dfcTransactionMacKeyTypeIsValid (apdu.getD 5 0) = false) (e.refuse dfcStatusParameterError)
  let fileNo := apdu.getD 1 0
  e.require (newFileNumberIsAvailable e fileNo dfcStatusParameterError)
  e.require (newFileCountIsAvailable e)
  refuseIf (dfcFilePoolSize < c.filePoolUsed ∨
    dfcFilePoolSize - c.filePoolUsed < dfcTransactionMacFileLength)
    (e.refuse dfcStatusOutOfEeprom)
  -- Nothing can fail any more once the transaction boundary has moved.
  let e := (dfcEmulatorAbortTransaction e).1
  match dfcCredentialCreateFile e.credential e.selectedAppIndex fileNo with
  | (c, none) => return ({ e with credential := c }, [])
  | (c, some i) =>
    let c := (dfcFileResize c i dfcTransactionMacFileLength).1
    return (DfcEmulator.markDirty
      { e with credential := c.modifyFile i fun file => file.installTransactionMac apdu }, [])

end DfcCore
