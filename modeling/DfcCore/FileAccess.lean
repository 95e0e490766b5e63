import DfcCore.Lifecycle
import DfcCore.TransactionMac

/-!
# Access to files

Who may do what with a file, and how the answer is protected: `dfc_emulator_access.c` and
the helpers of `dfc_emulator_commands.c` around it. The access rights are four nibbles, each
a key number, free (`0xE`) or denied to all (`0xF`).
-/
namespace DfcCore

inductive DfcFileAccess where
  | read | write | readWrite | change
  deriving Repr, DecidableEq

def dfcEmulatorAccessNibbleAllows (e : DfcEmulator) (nibble : ℕ) : Bool :=
  if nibble = dfcAccessFree then true
  else if nibble = dfcAccessDeny then false
  else dfcEmulatorIsAuthenticatedWithKey e (UInt8.ofNat nibble)

/-- The nibbles that grant an access, the second an alternative to the first. -/
def fileAccessNibbles (file : DfcFile) : DfcFileAccess → ℕ × ℕ
  | .read => (dfcAccessNibble file.accessRights 12, dfcAccessNibble file.accessRights 4)
  | .write => (dfcAccessNibble file.accessRights 8, dfcAccessNibble file.accessRights 4)
  | .readWrite => (dfcAccessNibble file.accessRights 4, dfcAccessDeny)
  | .change => (dfcAccessNibble file.accessRights 0, dfcAccessDeny)

def dfcEmulatorFileAccessAllowed (e : DfcEmulator) (file : DfcFile) (access : DfcFileAccess) :
    Bool :=
  dfcEmulatorAccessNibbleAllows e (fileAccessNibbles file access).1 ||
    dfcEmulatorAccessNibbleAllows e (fileAccessNibbles file access).2

def dfcEmulatorFileAccessIsFree (file : DfcFile) (access : DfcFileAccess) : Bool :=
  (fileAccessNibbles file access).1 == dfcAccessFree ||
    (fileAccessNibbles file access).2 == dfcAccessFree

/-- Whether the session was opened with the key a nibble names. -/
def nibbleIsAuthenticated (e : DfcEmulator) (nibble : ℕ) : Bool :=
  decide (nibble < dfcAccessFree) && dfcEmulatorIsAuthenticatedWithKey e (UInt8.ofNat nibble)

/-- Only the mode bits of the stored octet say how a file is protected. An access that is
free and rests on no key of the session is plain. -/
def dfcEmulatorFileEffectiveCommSettings (e : DfcEmulator) (file : DfcFile)
    (access : DfcFileAccess) : UInt8 :=
  let configured := file.commSettings &&& dfcCommModeMask
  let nibbles := fileAccessNibbles file access
  if dfcEmulatorAuthenticated e = false then configured
  else if dfcEmulatorFileAccessIsFree file access = true ∧
      nibbleIsAuthenticated e nibbles.1 = false ∧ nibbleIsAuthenticated e nibbles.2 = false then
    dfcCommPlain
  else configured

/-- A nibble that names a key invites the reader to authenticate; one that nobody can
satisfy does not. -/
def refusalStatus (nibbles : List ℕ) : UInt8 :=
  if nibbles.any fun nibble => decide (nibble < dfcAccessFree) then dfcStatusAuthenticationErr
  else dfcStatusPermissionDenied

def dfcEmulatorCommandFileAccessRefusalStatus (file : DfcFile) (write : Bool) : UInt8 :=
  refusalStatus [dfcAccessNibble file.accessRights (if write then 8 else 12),
    dfcAccessNibble file.accessRights 4]

def dfcEmulatorCommandFileReadWriteRefusalStatus (file : DfcFile) : UInt8 :=
  refusalStatus [dfcAccessNibble file.accessRights 4]

def valueRefusalStatus (file : DfcFile) (read write rw : Bool) : UInt8 :=
  refusalStatus ((if read then [dfcAccessNibble file.accessRights 12] else []) ++
    (if write then [dfcAccessNibble file.accessRights 8] else []) ++
    if rw then [dfcAccessNibble file.accessRights 4] else [])

/-- A cyclic file keeps one record in reserve. -/
def dfcEmulatorRecordUsableCapacity (file : DfcFile) : ℕ :=
  if file.type = dfcFileTypeCyclicRecord then
    if 1 < file.state.record.maxRecords then file.state.record.maxRecords - 1 else 0
  else file.state.record.maxRecords

/-- Whether the stored octets cover every record the file says it can hold. -/
def dfcEmulatorRecordStorageIsConsistent (file : DfcFile) : Bool :=
  let record := file.state.record
  decide (0 < record.size) && decide (record.count ≤ record.maxRecords) &&
    decide (record.maxRecords * record.size ≤ file.dataLen)

def dfcCredentialFindTransactionMacFile (c : DfcCredential) (appIndex : ℕ) : Option ℕ :=
  (List.range c.numFiles).find? fun i =>
    (c.files i).appIndex == appIndex && (c.files i).type == dfcFileTypeTransactionMac

/-- The transaction MAC file of the selected application. -/
def transactionMacFile (e : DfcEmulator) : Option ℕ :=
  dfcCredentialFindTransactionMacFile e.credential e.selectedAppIndex

/-- The state of the transaction MAC file, if there is one. -/
def transactionMacState (e : DfcEmulator) : Option DfcTransactionMacFileState :=
  (transactionMacFile e).map fun i => (e.credential.files i).state.transactionMac

abbrev uint32Max : UInt32 := 0xFFFFFFFF

def dfcEmulatorCommandTransactionMacCanAddData (e : DfcEmulator) : Bool :=
  (transactionMacState e).all fun tmac => tmac.counter != uint32Max

/-- The identifier of the card. -/
def DfcCredential.uidOctets (c : DfcCredential) : List UInt8 := c.uid.read 0 c.uidLen

/-- The key of a transaction MAC file. -/
def DfcTransactionMacFileState.keyOctets (tmac : DfcTransactionMacFileState) : List UInt8 :=
  tmac.key.read 0 16

/-- How an update of the transaction MAC ends. -/
inductive TransactionMacUpdate where
  | ok (e : DfcEmulator)
  | terminal
  | cryptoFailed

section
variable (aes : List UInt8 → List UInt8 → List UInt8)

/-- The accumulator an operation goes on from: the one in use, or a fresh one under the key
of the next transaction. -/
def transactionMacCandidate (e : DfcEmulator) (tmac : DfcTransactionMacFileState) :
    Option DfcTransactionMacAccumulator :=
  let c := e.credential
  if tmac.counter = uint32Max ∨ (c.uidLen ≠ dfcDesfireUidShortLen ∧ c.uidLen ≠ dfcDesfireUidLen)
  then none
  else if e.transactionMac.initialized then some e.transactionMac
  else
    (dfcTransactionMacDeriveSessionKey aes tmac.keyOctets c.uidOctets (tmac.counter + 1)).map
      dfcTransactionMacAccumulatorInit

/-- `dfc_emulator_command_transaction_mac_add_*`: an operation is recorded where the
application has a transaction MAC file. `cipherFails` tells that the cipher fails on it. -/
def transactionMacAdd (e : DfcEmulator) (cipherFails : Bool)
    (add : DfcTransactionMacAccumulator → Option DfcTransactionMacAccumulator) :
    TransactionMacUpdate :=
  match transactionMacState e with
  | none => .ok e
  | some tmac =>
    match transactionMacCandidate aes e tmac with
    | none => .terminal
    | some candidate =>
      if cipherFails then .cryptoFailed
      else match add candidate with
      | none => .terminal
      | some a => .ok { e with transactionMac := a }

end

end DfcCore
