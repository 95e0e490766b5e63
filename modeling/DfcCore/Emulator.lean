import DfcCore.Pools

/-!
# The emulator's card state

The part of `DfcEmulator` that decides what a native command does to the card image:
the selected application, the active session, the open transaction with its journal of
pre-images, and the answer still being sent. The functions are those of `dfc_emulator.c`.
Secure messaging itself is not here: a session is known by the key it was opened with.
The per-file arrays of the journal are one array of records, and a bitmap is a flag of
the record.
-/
namespace DfcCore

abbrev dfcStatusOk : UInt8 := 0x00
abbrev dfcStatusNoChanges : UInt8 := 0x0C
abbrev dfcStatusOutOfEeprom : UInt8 := 0x0E
abbrev dfcStatusIllegalCommandCode : UInt8 := 0x1C
abbrev dfcStatusIntegrityError : UInt8 := 0x1E
abbrev dfcStatusLengthError : UInt8 := 0x7E
abbrev dfcStatusPermissionDenied : UInt8 := 0x9D
abbrev dfcStatusParameterError : UInt8 := 0x9E
abbrev dfcStatusApplicationNotFound : UInt8 := 0xA0
abbrev dfcStatusAuthenticationErr : UInt8 := 0xAE
abbrev dfcCmdAdditionalFrame : UInt8 := 0xAF
abbrev dfcStatusBoundaryError : UInt8 := 0xBE
abbrev dfcStatusCountError : UInt8 := 0xCE
abbrev dfcStatusDuplicateError : UInt8 := 0xDE
abbrev dfcStatusFileNotFound : UInt8 := 0xF0

abbrev dfcEmulatorChainBufferSize : ℕ := dfcMaxFileData + 32

/-- `DFC_LIMITED_CREDIT_TRANSACTION_CONSUMED`. -/
abbrev dfcLimitedCreditTransactionConsumed : Int32 := -1

inductive DfcEmulatorSelectedApplication where
  | none | picc | app
  deriving Repr, DecidableEq

/-- The operation a record file is under in the open transaction. -/
inductive RecordTransaction where
  | none | write | update | clear
  deriving Repr, DecidableEq

/-- What the journal keeps for one file. -/
structure DfcTransactionEntry where
  recordCount : ℕ := 0
  offset : ℕ := 0
  recordOperation : RecordTransaction := .none
  recordNumber : ℕ := 0
  captured : Bool := false
  created : Bool := false
  deriving Repr, DecidableEq

/-- The journal of the open transaction. `pool` holds the captured pre-images. -/
structure DfcTransactionSnapshot where
  active : Bool := false
  appIndex : ℕ := 0
  dirty : Bool := false
  hasPool : Bool := false
  pool : Mem := Mem.zero
  poolLength : ℕ := 0
  poolCapacity : ℕ := 0
  entries : ℕ → DfcTransactionEntry := fun _ => {}

/-- `DfcTransactionMacAccumulator`. -/
structure DfcTransactionMacAccumulator where
  sessionKey : List UInt8 := []
  chain : List UInt8 := List.replicate 16 0
  pending : List UInt8 := List.replicate 16 0
  initialized : Bool := false
  hasPending : Bool := false
  deriving Repr, DecidableEq

/-- A native session: the command that opened it and the key it was opened with. -/
structure DfcNativeSession where
  cipher : UInt8
  keyNo : UInt8
  deriving Repr, DecidableEq

structure DfcEmulator where
  credential : DfcCredential
  selectedApplication : DfcEmulatorSelectedApplication := .picc
  selectedAppIndex : ℕ := 0
  nativeSession : Option DfcNativeSession := none
  ev2AuthenticatedKeyNo : Option UInt8 := none
  snapshot : DfcTransactionSnapshot := {}
  transactionMac : DfcTransactionMacAccumulator := {}
  transactionReaderIdPending : Bool := false
  transactionReaderIdPersist : Bool := false
  transactionPendingReaderId : List UInt8 := []
  /-- The octets of `pending_chain` between `pending_chain_offset` and its end. -/
  pendingChain : List UInt8 := []
  pendingChainFrame : ℕ := 0
  pendingChainLast : ℕ := 0

namespace DfcEmulator

/-- Rewrites the credential in place. -/
def mapCredential (e : DfcEmulator) (f : DfcCredential → DfcCredential) : DfcEmulator :=
  { e with credential := f e.credential }

/-- `dfc_credential_mark_dirty` on the emulator's credential. -/
def markDirty (e : DfcEmulator) : DfcEmulator :=
  e.mapCredential fun c => { c with dirty := true }

end DfcEmulator

def dfcEmulatorIsAuthenticatedWithKey (e : DfcEmulator) (keyNo : UInt8) : Bool :=
  (e.nativeSession.any fun session => session.keyNo == keyNo) ||
    e.ev2AuthenticatedKeyNo == some keyNo

/-- Whether any session is open. -/
def dfcEmulatorAuthenticated (e : DfcEmulator) : Bool :=
  e.nativeSession.isSome || e.ev2AuthenticatedKeyNo.isSome

def dfcEmulatorIsAuthenticatedAsMaster (e : DfcEmulator) : Bool :=
  dfcEmulatorIsAuthenticatedWithKey e 0

def dfcEmulatorCurrentApp (e : DfcEmulator) : Option ℕ :=
  if e.selectedApplication = .app ∧ e.selectedAppIndex < e.credential.numApps then
    some e.selectedAppIndex
  else none

/-- Every object has a master key, also where the credential records none. -/
def dfcEmulatorNumKeys (e : DfcEmulator) : ℕ :=
  match dfcEmulatorCurrentApp e with
  | none => 1
  | some i =>
    if (e.credential.apps i).numKeys = 0 then 1 else (e.credential.apps i).numKeys

def dfcEmulatorCurrentKeySettings1 (e : DfcEmulator) : UInt8 :=
  match dfcEmulatorCurrentApp e with
  | none => e.credential.piccKeySettings1
  | some i => (e.credential.apps i).keySettings1

def transactionFileHasData (file : DfcFile) : Bool :=
  file.type == dfcFileTypeBackupData || dfcFileTypeIsRecord file.type

/-- The journal entry of a file; an index past the array reads as an unused one. -/
def DfcTransactionSnapshot.entry (s : DfcTransactionSnapshot) (i : ℕ) : DfcTransactionEntry :=
  if i < dfcMaxFiles then s.entries i else {}

def dfcEmulatorTransactionSnapshotInsertFile (e : DfcEmulator) (fileIndex : ℕ) :
    DfcEmulator × Bool :=
  if e.snapshot.active = false then (e, true)
  else if e.credential.numFiles ≤ fileIndex then (e, false)
  else
    let file := e.credential.files fileIndex
    let s := e.snapshot
    let fresh : DfcTransactionEntry :=
      { created := file.appIndex == s.appIndex && transactionFileHasData file }
    ({ e with
        snapshot := { s with
          entries := fun i =>
            if i = fileIndex then fresh
            else if fileIndex < i ∧ i < dfcMaxFiles then s.entries (i - 1) else s.entries i } },
      true)

def dfcEmulatorTransactionSnapshotDeleteFile (e : DfcEmulator) (fileIndex : ℕ) : DfcEmulator :=
  if e.snapshot.active = false ∨ e.credential.numFiles ≤ fileIndex then e
  else
    let s := e.snapshot
    let file := e.credential.files fileIndex
    let entry := s.entry fileIndex
    let pool :=
      if entry.captured ∧ entry.offset ≤ s.poolLength ∧ file.dataLen ≤ s.poolLength - entry.offset
      then s.pool.fill entry.offset file.dataLen 0 else s.pool
    { e with
      snapshot := { s with
        pool := pool
        entries := fun i =>
          if i + 1 = dfcMaxFiles then {}
          else if fileIndex ≤ i ∧ i + 1 < dfcMaxFiles then s.entries (i + 1) else s.entries i } }

def dfcEmulatorTransactionSnapshotCaptureFile (e : DfcEmulator) (fileIndex : ℕ) :
    DfcEmulator × Bool :=
  let s := e.snapshot
  let c := e.credential
  let file := c.files fileIndex
  if s.active = false then (e, true)
  else if c.numFiles ≤ fileIndex then (e, false)
  else if file.appIndex ≠ s.appIndex ∨ transactionFileHasData file = false then (e, false)
  else if (s.entry fileIndex).created ∨ (s.entry fileIndex).captured then (e, true)
  else if (file.dataLen ≠ 0 ∧ s.hasPool = false) ∨ s.poolCapacity < file.dataLen ∨
      s.poolCapacity - file.dataLen < s.poolLength then (e, false)
  else match dfcFileData c file, decide (file.dataLen = 0) with
  | none, false => (e, false)
  | data, _ =>
    let preimage := match data with
      | some src => c.filePool.read src file.dataLen
      | none => []
    ({ e with
        snapshot := { s with
          pool := s.pool.write s.poolLength preimage
          poolLength := s.poolLength + file.dataLen
          entries := Function.update s.entries fileIndex
            { s.entries fileIndex with
              offset := u16 s.poolLength
              recordCount :=
                if dfcFileTypeIsRecord file.type then u16 file.state.record.count else 0
              captured := true } } }, true)

/-- The committed contents of a file, as a start in the file pool or in the journal. -/
inductive CommittedData where
  | absent | zeros | live (start : ℕ) | preimage (start : ℕ)
  deriving Repr, DecidableEq

def dfcEmulatorTransactionSnapshotCommittedData (e : DfcEmulator) (fileIndex : ℕ) :
    CommittedData :=
  let s := e.snapshot
  let file := e.credential.files fileIndex
  let live := match dfcFileData e.credential file with
    | some start => CommittedData.live start
    | none => .absent
  if e.credential.numFiles ≤ fileIndex then .absent
  else if s.active = false ∨ file.appIndex ≠ s.appIndex ∨ transactionFileHasData file = false then
    live
  else if (s.entry fileIndex).created then .zeros
  else if (s.entry fileIndex).captured = false then live
  else if file.dataLen = 0 then .absent
  else if s.hasPool = false ∨ s.poolLength < (s.entry fileIndex).offset ∨
      s.poolLength - (s.entry fileIndex).offset < file.dataLen then .absent
  else .preimage (s.entry fileIndex).offset

def dfcEmulatorTransactionSnapshotCommittedRecordCount (e : DfcEmulator) (fileIndex : ℕ) : ℕ :=
  let s := e.snapshot
  let file := e.credential.files fileIndex
  if e.credential.numFiles ≤ fileIndex then 0
  else if s.active = false ∨ file.appIndex ≠ s.appIndex ∨ dfcFileTypeIsRecord file.type = false then
    file.state.record.count
  else if (s.entry fileIndex).created then 0
  else if (s.entry fileIndex).captured then (s.entry fileIndex).recordCount
  else file.state.record.count

def dfcEmulatorTransactionSnapshotNotePersistentChange (e : DfcEmulator) : DfcEmulator :=
  if e.snapshot.active then { e with snapshot := { e.snapshot with dirty := true } } else e

def dfcEmulatorTransactionSnapshotCanMirrorWrite (e : DfcEmulator)
    (fileIndex offset length : ℕ) : Bool :=
  let file := e.credential.files fileIndex
  if e.snapshot.active = false then true
  else if e.credential.numFiles ≤ fileIndex then false
  else file.appIndex == e.snapshot.appIndex && decide (offset ≤ file.dataLen) &&
    decide (length ≤ file.dataLen - offset)

/-- Whether the journal can restore the file at `i`, or need not. -/
def snapshotFileRecoverable (s : DfcTransactionSnapshot) (c : DfcCredential) (i : ℕ) : Bool :=
  let file := c.files i
  let entry := s.entry i
  if file.appIndex ≠ s.appIndex ∨ file.transactionPending = false ∨
      transactionFileHasData file = false ∨ entry.created = true then true
  else
    entry.captured && (file.dataLen == 0 || s.hasPool) && decide (entry.offset ≤ s.poolLength) &&
    decide (file.dataLen ≤ s.poolLength - entry.offset) &&
    (file.dataLen == 0 || (dfcFileData c file).isSome)

/-- Ends what a file holds of the transaction: a record file gets the count, and
nothing is pending. -/
def DfcFile.settle (file : DfcFile) (count : ℕ) : DfcFile :=
  { if dfcFileTypeIsRecord file.type then
      file.withRecord { file.state.record with count := count }
    else file with transactionPending := false }

/-- The `memset` of a file's slice. -/
def eraseFileData (c : DfcCredential) (file : DfcFile) : Mem :=
  match dfcFileData c file with
  | some start => c.filePool.fill start file.dataLen 0
  | none => c.filePool

/-- One turn of the loop that gives up a file whose pre-image cannot be trusted. -/
def snapshotEraseFile (appIndex : ℕ) (c : DfcCredential) (i : ℕ) : DfcCredential :=
  let file := c.files i
  if file.appIndex ≠ appIndex ∨ file.transactionPending = false ∨
      transactionFileHasData file = false then c
  else { c.modifyFile i fun file => file.settle 0 with filePool := eraseFileData c file }

/-- One turn of the loop that restores a file from the journal. -/
def snapshotRestoreFile (s : DfcTransactionSnapshot) (c : DfcCredential) (i : ℕ) :
    DfcCredential :=
  let file := c.files i
  let entry := s.entry i
  let settled := c.modifyFile i fun file => { file with transactionPending := false }
  if file.appIndex ≠ s.appIndex then c
  else if file.transactionPending = false ∨ transactionFileHasData file = false then settled
  else if entry.created then
    { c.modifyFile i fun file => file.settle 0 with filePool := eraseFileData c file }
  else if entry.captured then
    { c.modifyFile i fun file => file.settle entry.recordCount with
      filePool := match dfcFileData c file with
        | some start => c.filePool.write start (s.pool.read entry.offset file.dataLen)
        | none => c.filePool }
  else settled

def dfcEmulatorAbortTransactionSnapshot (e : DfcEmulator) : DfcEmulator × Bool :=
  let s := e.snapshot
  let c := e.credential
  let files := List.range c.numFiles
  if s.active = false then (e, false)
  else if s.poolLength ≤ s.poolCapacity ∧ files.all (snapshotFileRecoverable s c) then
    ({ e with
        credential := { files.foldl (snapshotRestoreFile s) c with dirty := s.dirty }
        snapshot := {} }, true)
  else
    -- The committed pre-image cannot be trusted, so the staged octets are erased.
    ({ e with
        credential := { files.foldl (snapshotEraseFile s.appIndex) c with dirty := true }
        snapshot := {} }, true)

/-- Drops what a value file has pending. -/
def DfcFile.dropPendingValue (file : DfcFile) : DfcFile :=
  file.withValue { file.state.value with
    pending := false, pendingDelta := 0, pendingValue := 0, pendingAbsolute := false,
    limitedCreditPending := 0 }

/-- Rewrites the files of one owner that are in the array. -/
def DfcCredential.mapFilesOf (c : DfcCredential) (appIndex : ℕ) (f : DfcFile → DfcFile) :
    DfcCredential :=
  { c with
    files := fun i =>
      if i < c.numFiles ∧ (c.files i).appIndex = appIndex then f (c.files i) else c.files i }

def DfcFile.hasPendingValue (file : DfcFile) : Bool :=
  file.type == dfcFileTypeValue && file.state.value.pending

/-- Clears the transaction MAC input and the reader identifier awaiting the commit. -/
def DfcEmulator.clearTransactionMac (e : DfcEmulator) : DfcEmulator :=
  { e with
    transactionMac := {}
    transactionReaderIdPending := false
    transactionReaderIdPersist := false
    transactionPendingReaderId := [] }

def dfcEmulatorAbortTransaction (e : DfcEmulator) : DfcEmulator × Bool :=
  let macPending := e.transactionMac.hasPending || e.transactionReaderIdPending
  let e := if macPending then e.clearTransactionMac else e
  let (e, restored) := dfcEmulatorAbortTransactionSnapshot e
  let c := e.credential
  let valuePending := (List.range c.numFiles).any fun i =>
    (c.files i).appIndex == e.selectedAppIndex && (c.files i).hasPendingValue
  (e.mapCredential fun c => c.mapFilesOf e.selectedAppIndex fun file =>
      if file.hasPendingValue then file.dropPendingValue else file,
    macPending || restored || valuePending)

/-- The value of a file once its pending delta is committed. -/
def DfcValueFileState.committed (v : DfcValueFileState) : Int32 :=
  if v.pendingAbsolute then v.pendingValue else Int32.ofInt (v.current.toInt + v.pendingDelta.toInt)

def DfcFile.publishValue (file : DfcFile) : DfcFile :=
  let v := file.state.value
  (file.withValue { v with
    current := v.committed
    limitedCreditValue :=
      if v.limitedCreditPending = dfcLimitedCreditTransactionConsumed then 0
      else if 0 < v.limitedCreditPending then v.limitedCreditPending
      else v.limitedCreditValue }).dropPendingValue

def dfcEmulatorPublishTransaction (e : DfcEmulator) : DfcEmulator :=
  let e := e.mapCredential fun c => c.mapFilesOf e.selectedAppIndex fun file =>
    { if file.hasPendingValue then file.publishValue else file with transactionPending := false }
  let e := if e.snapshot.active ∧ e.snapshot.appIndex = e.selectedAppIndex
    then { e with snapshot := {} } else e
  e.clearTransactionMac.markDirty

def dfcEmulatorCommandClearPendingChain (e : DfcEmulator) : DfcEmulator :=
  { e with pendingChain := [], pendingChainFrame := 0, pendingChainLast := 0 }

def dfcEmulatorRetireAuthentication (e : DfcEmulator) : DfcEmulator :=
  { dfcEmulatorCommandClearPendingChain e with
    nativeSession := none, ev2AuthenticatedKeyNo := none }

def dfcEmulatorResetSession (e : DfcEmulator) : DfcEmulator :=
  dfcEmulatorRetireAuthentication (dfcEmulatorAbortTransaction e).1

def dfcEmulatorSelectApplication (e : DfcEmulator) (selection : DfcEmulatorSelectedApplication)
    (appIndex : ℕ) : DfcEmulator :=
  { dfcEmulatorResetSession e with
    selectedApplication := selection
    selectedAppIndex := if selection = .app then appIndex else 0 }

end DfcCore
