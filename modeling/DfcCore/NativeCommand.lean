import DfcCore.FileCommands

/-!
# Native commands

The registry entries of the commands on files and transactions, and what
`dfc_emulator_handle_command` does around a handler: a refused command ends the open
transaction and, except under a D40 session, the session, unless the refusal is one that can
be retried or one that the transaction is kept for. A native write that comes in several
frames reaches its handler as the joined command.
-/
namespace DfcCore
open Der

def dfcFileCommandBase (command : UInt8) : UInt8 :=
  if command = dfcCmdReadDataIso then dfcCmdReadData
  else if command = dfcCmdWriteDataIso then dfcCmdWriteData
  else if command = dfcCmdReadRecordsIso then dfcCmdReadRecords
  else if command = dfcCmdWriteRecordIso then dfcCmdWriteRecord
  else if command = dfcCmdUpdateRecordIso then dfcCmdUpdateRecord
  else command

/-- The answer of a life cycle handler, split at its status. -/
def Handled.ofAnswer : Answer → Handled
  | (e, []) => .ok (e, [])
  | (e, status :: payload) =>
    if status = dfcStatusOk ∨ status = dfcCmdAdditionalFrame then .ok (e, payload)
    else .error (e.refuse status)

section
variable (aes : List UInt8 → List UInt8 → List UInt8)

/-- The option octet of a commit may be missing. -/
def commitTransaction (e : DfcEmulator) (env : CommandEnv) (apdu : List UInt8) : Handled := do
  refuseIf (e.selectedApplication ≠ .app) (e.refuse dfcStatusPermissionDenied)
  refuseIf (2 < apdu.length ∨ (apdu.length = 2 ∧ apdu.getD 1 0 ≠ 0 ∧ apdu.getD 1 0 ≠ 1))
    ((dfcEmulatorCommandClearSelectedAppPendingValues e).refuse dfcStatusLengthError)
  dfcEmulatorCommandCommitTransaction aes e env (apdu.length == 2 && apdu.getD 1 0 == 1)

/-- The commands on files and transactions. A frame of none of them is not handled here. -/
def dispatchFileCommand (e : DfcEmulator) (env : CommandEnv) (apdu : List UInt8) :
    Option Handled :=
  let cmd := dfcFileCommandBase (apdu.getD 0 0)
  if apdu = [] then none
  else if cmd = dfcCmdReadData then some (dfcEmulatorCommandReadData aes e env apdu)
  else if cmd = dfcCmdWriteData then some (dfcEmulatorCommandWriteData aes e env apdu)
  else if cmd = dfcCmdReadRecords then some (handleReadRecords aes e env apdu)
  else if cmd = dfcCmdWriteRecord then some (dfcEmulatorCommandWriteRecord aes e env apdu)
  else if cmd = dfcCmdUpdateRecord then some (dfcEmulatorCommandUpdateRecord aes e env apdu)
  else if cmd = dfcCmdClearRecordFile then
    some (dfcEmulatorCommandClearRecordFile aes e env apdu)
  else if cmd = dfcCmdGetValue then some (dfcEmulatorCommandGetValue aes e env apdu)
  else if cmd = dfcCmdCredit ∨ cmd = dfcCmdLimitedCredit ∨ cmd = dfcCmdDebit then
    some (dfcEmulatorCommandValueDelta aes e env apdu cmd (cmd == dfcCmdDebit)
      (cmd == dfcCmdLimitedCredit))
  else if cmd = dfcCmdCommitTransaction then some (commitTransaction aes e env apdu)
  else if cmd = dfcCmdCommitReaderId then some (dfcEmulatorCommandCommitReaderId aes e env apdu)
  else if cmd = dfcCmdAbortTransaction then some (dfcEmulatorCommandAbortTransaction e apdu)
  else if cmd = dfcCmdDeleteFile then some (dfcEmulatorCommandDeleteFile e apdu)
  else if cmd = dfcCmdCreateTransactionMacFile then
    some (dfcEmulatorCommandCreateTransactionMacFile e apdu)
  else if cmd = dfcCmdCreateStdDataFile then
    some (.ofAnswer (dfcEmulatorCommandCreateStdDataFile e apdu dfcFileTypeStandardData))
  else if cmd = dfcCmdCreateBackupDataFile then
    some (.ofAnswer (dfcEmulatorCommandCreateStdDataFile e apdu dfcFileTypeBackupData))
  else if cmd = dfcCmdCreateLinearRecordFile then
    some (.ofAnswer (dfcEmulatorCommandCreateRecordFile e apdu dfcFileTypeLinearRecord))
  else if cmd = dfcCmdCreateCyclicRecordFile then
    some (.ofAnswer (dfcEmulatorCommandCreateRecordFile e apdu dfcFileTypeCyclicRecord))
  else if cmd = dfcCmdCreateValueFile then
    some (.ofAnswer (dfcEmulatorCommandCreateValueFile e apdu))
  else if cmd = dfcCmdGetFileSettings then
    some (.ofAnswer (dfcEmulatorCommandGetFileSettings e apdu))
  else none

/-- The commands whose refusal leaves the transaction open. -/
def preserveTransactionOnFailure (e : DfcEmulator) (apdu : List UInt8) : Bool :=
  apdu.getD 0 0 == dfcCmdCreateTransactionMacFile ||
    (apdu.length == 2 && apdu.getD 0 0 == dfcCmdDeleteFile &&
      decide (e.selectedApplication = .app) &&
      (dfcCredentialFindFileInApp e.credential e.selectedAppIndex (apdu.getD 1 0)).any fun i =>
        (e.credential.files i).type == dfcFileTypeTransactionMac)

def dfcEmulatorClearActiveAuthentication (e : DfcEmulator) : DfcEmulator :=
  { e with nativeSession := none, ev2AuthenticatedKeyNo := none }

/-- `dfc_emulator_command_apply_ev1_response_secure_messaging` on an error status: an EV1
session ends, and with it the transaction. -/
def applyEv1ErrorResponse (e : DfcEmulator) : DfcEmulator :=
  if e.nativeSession.any fun session => session.cipher != dfcCmdAuthenticateLegacy then
    dfcEmulatorResetSession e
  else e

/-- `finalize_native_command` on an error status. -/
def finalizeNativeCommand (e : DfcEmulator) (preserve : Bool) : DfcEmulator :=
  let e := if preserve then e else (dfcEmulatorAbortTransaction e).1
  if e.nativeSession.any fun session => session.cipher == dfcCmdAuthenticateLegacy then e
  else dfcEmulatorClearActiveAuthentication e

/-- The answer to a command: the octets behind a status of success, or the status. -/
inductive Reply where
  | accepted (payload : List UInt8)
  | refused (status : UInt8)
  deriving Repr, DecidableEq

/-- What becomes of the emulator and the answer once a handler is done. -/
def finishCommand (preserve : Bool) : Handled → DfcEmulator × Reply
  | .ok (e, payload) => (e, .accepted payload)
  | .error r =>
    (if r.retryable then r.emulator
      else finalizeNativeCommand (applyEv1ErrorResponse r.emulator) preserve,
      .refused r.status)

/-- `dfc_emulator_handle_command` on the commands on files and transactions. -/
def dfcEmulatorHandleCommand (e : DfcEmulator) (env : CommandEnv) (apdu : List UInt8) :
    Option (DfcEmulator × Reply) :=
  (dispatchFileCommand aes e env apdu).map (finishCommand (preserveTransactionOnFailure e apdu))

end

end DfcCore
