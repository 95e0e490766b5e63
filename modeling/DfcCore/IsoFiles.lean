import DfcCore.NativeCommand
import DfcCore.SecureMessaging

/-!
# ISO 7816 commands on files

The commands of `dfc_virtual_picc.c` that come with the standard class octet: SELECT, READ BINARY,
UPDATE BINARY, READ RECORD and APPEND RECORD. They work on the card and the transaction of the
native commands, and on a current file of their own, which is a position in the array of files. An
early return of the source is an error here; both ends carry the session afterwards and the answer.
-/
namespace DfcCore
open Der

abbrev dfcIso7816ClaStandard : UInt8 := 0x00
abbrev dfcIso7816InsSelect : UInt8 := 0xA4
abbrev dfcIso7816InsReadBinary : UInt8 := 0xB0
abbrev dfcIso7816InsUpdateBinary : UInt8 := 0xD6
abbrev dfcIso7816InsReadRecord : UInt8 := 0xB2
abbrev dfcIso7816InsAppendRecord : UInt8 := 0xE2
abbrev dfcIso7816InsExternalAuthenticate : UInt8 := 0x82
abbrev dfcIso7816InsGetChallenge : UInt8 := 0x84
abbrev dfcIso7816InsInternalAuthenticate : UInt8 := 0x88
abbrev dfcIso7816SelectByFileId : UInt8 := 0x00
abbrev dfcIso7816SelectChildDf : UInt8 := 0x01
abbrev dfcIso7816SelectChildEf : UInt8 := 0x02
abbrev dfcIso7816SelectParent : UInt8 := 0x03
abbrev dfcIso7816SelectByDfName : UInt8 := 0x04
abbrev dfcIso7816SelectPathFromMf : UInt8 := 0x08
abbrev dfcIso7816SelectPathFromDf : UInt8 := 0x09
abbrev dfcIso7816MasterFileId : ℕ := 0x3F00
abbrev dfcIso7816StatusWordLength : ℕ := 2
abbrev dfcIsoAid : List UInt8 := [0xD2, 0x76, 0x00, 0x00, 0x85, 0x01, 0x00]

abbrev dfcIso7816SwOk : UInt8 × UInt8 := (0x90, 0x00)
abbrev dfcIso7816SwEofBeforeLe : UInt8 × UInt8 := (0x62, 0x82)
abbrev dfcIso7816SwMemoryFailure : UInt8 × UInt8 := (0x65, 0x81)
abbrev dfcIso7816SwWrongLength : UInt8 × UInt8 := (0x67, 0x00)
abbrev dfcIso7816SwSecurity : UInt8 × UInt8 := (0x69, 0x82)
abbrev dfcIso7816SwConditionsNotSatisfied : UInt8 × UInt8 := (0x69, 0x85)
abbrev dfcIso7816SwNotFound : UInt8 × UInt8 := (0x6A, 0x82)
abbrev dfcIso7816SwWrongParameters : UInt8 × UInt8 := (0x6A, 0x86)
abbrev dfcIso7816SwInconsistentLc : UInt8 × UInt8 := (0x6A, 0x87)
abbrev dfcIso7816SwWrongLe : UInt8 × UInt8 := (0x6C, 0x00)
abbrev dfcIso7816SwInsNotSupported : UInt8 × UInt8 := (0x6D, 0x00)
abbrev dfcIso7816SwNoDiagnostic : UInt8 × UInt8 := (0x6F, 0x00)

/-- The card, and the current file of the ISO commands. -/
structure IsoSession where
  emulator : DfcEmulator
  isoFileSelected : Bool := false
  isoFileIndex : ℕ := 0

/-- What an ISO command meets outside the card image: the room for its answer, what the renderer of
secure dynamic messaging gives, the code the session puts on an answer, and whether a native
command of several frames, or an authentication, is still under way. -/
structure IsoEnv where
  responseCapacity : ℕ := 256
  sdm : SdmRender := .failed
  responseMac : Option (List UInt8) := none
  nativeWorkPending : Bool := false
  authenticationPending : Bool := false

inductive IsoAnswer where
  | words (data : List UInt8) (status : UInt8 × UInt8)
  | bufferTooSmall
  | protocolError
  deriving Repr, DecidableEq

/-- The session afterwards and the answer. -/
abbrev IsoResult := IsoSession × IsoAnswer

abbrev IsoHandled := Except IsoResult IsoResult

def IsoHandled.result : IsoHandled → IsoResult
  | .ok r => r
  | .error r => r

namespace IsoSession
variable (s : IsoSession) (env : IsoEnv)

/-- `write_status_word`. -/
def writeStatusWord (status : UInt8 × UInt8) : IsoResult :=
  if env.responseCapacity < dfcIso7816StatusWordLength then (s, .bufferTooSmall)
  else (s, .words [] status)

/-- The session with another state of the card. -/
def withEmulator (e : DfcEmulator) : IsoSession := { s with emulator := e }

/-- Applications with a transaction MAC file keep the ISO commands out. -/
def standardIsoFilesBlockedByTransactionMac (appIndex : ℕ) : Bool :=
  (dfcCredentialFindTransactionMacFile s.emulator.credential appIndex).isSome

/-- `ev2_session_active`. -/
def ev2SessionActive : Bool := s.emulator.ev2AuthenticatedKeyNo.isSome

/-- The file of the selected application whose ISO identifier ends in the short one. -/
def lookupIsoFileByShortId (shortId : UInt8) : Option ℕ :=
  let e := s.emulator
  if shortId = 0 ∨ 0x1E < shortId ∨ e.selectedApplication ≠ .app then none
  else (List.range e.credential.numFiles).find? fun i =>
    let file := e.credential.files i
    file.appIndex == e.selectedAppIndex && file.hasIsoFileId &&
      file.isoFileId &&& 0x1F == shortId.toUInt16

def selectFile (i : ℕ) : IsoSession := { s with isoFileSelected := true, isoFileIndex := i }

def dropFile : IsoSession := { s with isoFileSelected := false }

/-- Looks the file up and makes it the current one. -/
def findIsoFileByShortId (shortId : UInt8) : Option (IsoSession × ℕ) :=
  (s.lookupIsoFileByShortId shortId).map fun i => (s.selectFile i, i)

/-- The file a command acts on when it names none. -/
def isoCurrentFile : Option ℕ :=
  let e := s.emulator
  if s.isoFileSelected = false ∨ e.credential.numFiles ≤ s.isoFileIndex ∨
      e.selectedApplication ≠ .app ∨
      (e.credential.files s.isoFileIndex).appIndex ≠ e.selectedAppIndex then none
  else some s.isoFileIndex

/-- The file a command names by a short identifier, which becomes the current one; zero stands for
the current one. -/
def isoFileOf (shortId : UInt8) : Except IsoResult (IsoSession × ℕ) :=
  if shortId ≠ 0 then
    orFail (s.writeStatusWord env dfcIso7816SwNotFound) (s.findIsoFileByShortId shortId)
  else do
    let i ← orFail (s.writeStatusWord env dfcIso7816SwConditionsNotSatisfied) s.isoCurrentFile
    return (s, i)

end IsoSession

/-- The octets of the new record; the length may take three octets. -/
def parseIsoAppendRecordData (command : List UInt8) : Option (List UInt8) :=
  if command.length < 5 then none
  else if command.getD 4 0 = 0 then
    let declared := (command.getD 5 0).toNat * 256 + (command.getD 6 0).toNat
    if command.length < 7 ∨ declared = 0 ∨ command.length ≠ 7 + declared then none
    else some (command.drop 7)
  else if command.length ≠ 5 + (command.getD 4 0).toNat then none
  else some (command.drop 5)

/-- The new record, zeros behind its octets. -/
def appendRecord (c : DfcCredential) (i start : ℕ) (record : List UInt8) : DfcCredential :=
  let size := (c.files i).state.record.size
  let (c, index) := appendRecordSlot c i start
  (c.writeFileData (start + index * size) record).setPending i

def handleIsoAppendRecord (s : IsoSession) (env : IsoEnv) (command : List UInt8) : IsoHandled := do
  let record ← orFail (s.writeStatusWord env dfcIso7816SwWrongLength)
    (parseIsoAppendRecordData command)
  refuseIf (command.getD 2 0 ≠ 0 ∨ command.getD 3 0 &&& 0x07 ≠ 0 ∨ command.getD 3 0 >>> 3 = 0x1F)
    (s.writeStatusWord env dfcIso7816SwWrongParameters)
  refuseIf (env.responseCapacity < dfcIso7816StatusWordLength) (s, .bufferTooSmall)
  refuseIf (s.emulator.selectedApplication ≠ .app)
    (s.writeStatusWord env dfcIso7816SwConditionsNotSatisfied)
  refuseIf (s.ev2SessionActive = true) (s.writeStatusWord env dfcIso7816SwSecurity)
  refuseIf (s.standardIsoFilesBlockedByTransactionMac s.emulator.selectedAppIndex = true)
    (s.writeStatusWord env dfcIso7816SwConditionsNotSatisfied)
  let (s, i) ← s.isoFileOf env (command.getD 3 0 >>> 3)
  let file := s.emulator.credential.files i
  refuseIf (file.appIndex ≠ s.emulator.selectedAppIndex ∨ dfcFileTypeIsRecord file.type = false)
    (s.writeStatusWord env dfcIso7816SwConditionsNotSatisfied)
  refuseIf (file.commSettings &&& dfcCommModeMask ≠ dfcCommPlain ∨
    dfcEmulatorFileAccessAllowed s.emulator file .write = false)
    (s.writeStatusWord env dfcIso7816SwSecurity)
  refuseIf (file.state.record.size < record.length)
    (s.writeStatusWord env dfcIso7816SwConditionsNotSatisfied)
  let operation := (s.emulator.snapshot.entry i).recordOperation
  refuseIf (operation = .update ∨ operation = .clear)
    (s.writeStatusWord env dfcIso7816SwConditionsNotSatisfied)
  -- Native writes that wait for their commit are thrown away before the record is appended.
  let s := s.withEmulator (dfcEmulatorAbortTransaction s.emulator).1
  let c := s.emulator.credential
  let file := c.files i
  let capacity := dfcEmulatorRecordUsableCapacity file
  refuseIf (capacity = 0 ∨
    (file.type = dfcFileTypeLinearRecord ∧ capacity ≤ file.state.record.count))
    (s.writeStatusWord env dfcIso7816SwConditionsNotSatisfied)
  refuseIf (file.dataLen < capacity * file.state.record.size)
    (s.writeStatusWord env dfcIso7816SwMemoryFailure)
  let start ← orFail (s.writeStatusWord env dfcIso7816SwMemoryFailure) (dfcFileData c file)
  let s := s.withEmulator (dfcEmulatorPublishTransaction
    { s.emulator with credential := appendRecord c i start record })
  return s.writeStatusWord env dfcIso7816SwOk

/-- The protection of a read, where the session allows one. -/
def isoFileReadComm (e : DfcEmulator) (file : DfcFile) : Option UInt8 :=
  if dfcEmulatorFileAccessAllowed e file .read = false then none
  else if e.nativeSession = none ∧ dfcEmulatorFileAccessIsFree file .read = true then
    some dfcCommPlain
  else
    let effective := dfcEmulatorFileEffectiveCommSettings e file .read
    let comm :=
      if (e.nativeSession.any fun session => session.cipher != dfcCmdAuthenticateLegacy) = true ∧
          effective ≠ dfcCommEnciphered then dfcCommMac
      else effective
    if comm ≠ dfcCommEnciphered ∧ (comm ≠ dfcCommMac ∨ e.nativeSession.isSome = true) then some comm
    else none

def isoFileMacLen (e : DfcEmulator) : ℕ :=
  if e.nativeSession.any fun session => session.cipher == dfcCmdAuthenticateLegacy then
    dfcSmLegacyMacLength
  else dfcWireMacLength

def isoFileReadFits (e : DfcEmulator) (comm : UInt8) (dataLen responseCapacity : ℕ) : Bool :=
  let macLen := if comm = dfcCommMac then isoFileMacLen e else 0
  decide (dfcIso7816StatusWordLength + macLen ≤ responseCapacity) &&
    decide (dataLen ≤ responseCapacity - dfcIso7816StatusWordLength - macLen)

/-- How many octets an answer has, and whether it ends before the expected length: EV1 warns. -/
def isoFileReadLength (e : DfcEmulator) (comm le : UInt8) (available : ℕ) : Option (ℕ × Bool) :=
  let macLen := isoFileMacLen e
  let ev1 := decide (e.credential.card.generation = dfcGenerationEv1)
  if le = 0 then some (available, false)
  else if comm = dfcCommMac ∧ le.toNat = macLen ∧ ev1 = true then some (available, false)
  else if comm = dfcCommMac ∧ le.toNat ≤ macLen then none
  else
    let requested := if comm = dfcCommMac then le.toNat - macLen else le.toNat
    some (min requested available, ev1 && decide (available < requested))

def isoReadStatus (shortEof : Bool) : UInt8 × UInt8 :=
  if shortEof then dfcIso7816SwEofBeforeLe else dfcIso7816SwOk

/-- `write_iso_file_read_response`: the code of the session follows the octets. -/
def writeIsoFileReadResponse (s : IsoSession) (env : IsoEnv) (comm : UInt8)
    (data : Option (List UInt8)) (status : UInt8 × UInt8) : IsoHandled := do
  let data ← orFail (s.writeStatusWord env dfcIso7816SwNoDiagnostic) data
  if comm = dfcCommMac then
    let mac ← orFail ((s.withEmulator (dfcEmulatorResetSession s.emulator)).writeStatusWord env
      dfcIso7816SwNoDiagnostic)
      (env.responseMac.filter fun mac => mac.length == isoFileMacLen s.emulator)
    return (s, .words (data ++ mac) status)
  else return (s, .words data status)

/-- What a read sees of a file, and of how many records: in an open transaction what is committed.
A file that was created in it cannot be read. -/
def isoReadView (e : DfcEmulator) (i : ℕ) : Option (CommittedData × ℕ) :=
  let file := e.credential.files i
  if e.snapshot.active = true ∧ e.snapshot.appIndex = e.selectedAppIndex then
    match dfcEmulatorTransactionSnapshotCommittedData e i with
    | .zeros => none
    | view => some (view,
        if dfcFileTypeIsRecord file.type then
          dfcEmulatorTransactionSnapshotCommittedRecordCount e i
        else file.state.record.count)
  else some (liveData e.credential file, file.state.record.count)

/-- The offset in P1 and P2, or in P2 alone behind a short identifier. -/
def isoFileOffset (command : List UInt8) : ℕ :=
  if command.getD 2 0 &&& 0x80 ≠ 0 then (command.getD 3 0).toNat
  else (command.getD 2 0).toNat * 256 + (command.getD 3 0).toNat

/-- A read or an update behind the end: generation 3 refuses a read at the end as well. -/
def isoReadOffsetRefusal (c : DfcCredential) (dataLen offset : ℕ) : Option (UInt8 × UInt8) :=
  if c.card.generation = dfcGenerationEv3 then
    if dataLen < offset ∨ (offset = dataLen ∧ 0 < dataLen) then
      some dfcIso7816SwConditionsNotSatisfied
    else none
  else if dataLen < offset then some dfcIso7816SwWrongParameters
  else none

def isoReadBinary (s : IsoSession) (env : IsoEnv) (command : List UInt8) (i : ℕ)
    (view : CommittedData) : IsoHandled := do
  let e := s.emulator
  let file := e.credential.files i
  let comm ← orFail (s.writeStatusWord env dfcIso7816SwSecurity) (isoFileReadComm e file)
  refuseIf (command.length ≠ 5) (s.writeStatusWord env dfcIso7816SwWrongParameters)
  let offset := isoFileOffset command
  match isoReadOffsetRefusal e.credential file.dataLen offset with
  | some status => .error (s.writeStatusWord env status)
  | none =>
    let (requested, shortEof) ← orFail (s.writeStatusWord env dfcIso7816SwWrongLe)
      (isoFileReadLength e comm (command.getD 4 0) (file.dataLen - offset))
    refuseIf (isoFileReadFits e comm requested env.responseCapacity = false) (s, .bufferTooSmall)
    if dfcFileSdmFlagIsSet file .enabled then
      match env.sdm with
      | .randomExhausted _ => .error (s, .protocolError)
      | .rendered cache counter =>
        let counted := e.mapCredential fun c => c.modifyFile i fun file =>
          file.withData { file.state.data with sdmReadCounter := counter }
        writeIsoFileReadResponse (s.withEmulator counted) env comm
          (some (cache.read offset requested)) (isoReadStatus shortEof)
      | _ => .error (s.writeStatusWord env dfcIso7816SwWrongParameters)
    else
      writeIsoFileReadResponse s env comm (readView e offset requested view)
        (isoReadStatus shortEof)

/-- The records of a cyclic file from one number on, newest first, cut at the requested length. -/
def assembleRecords (e : DfcEmulator) (view : CommittedData) (size recordCount firstNumber records
    requested : ℕ) : Option (List UInt8) :=
  (List.range records).foldlM (fun assembled k =>
    if assembled.length < requested then
      (readView e ((recordCount - (firstNumber + k)) * size)
        (min size (requested - assembled.length)) view).map fun chunk => assembled ++ chunk
    else some assembled) []

def isoReadRecord (s : IsoSession) (env : IsoEnv) (command : List UInt8) (i : ℕ)
    (view : CommittedData) (recordCount : ℕ) : IsoHandled := do
  let e := s.emulator
  let file := e.credential.files i
  let comm ← orFail (s.writeStatusWord env dfcIso7816SwSecurity) (isoFileReadComm e file)
  refuseIf (dfcEmulatorRecordStorageIsConsistent file = false)
    (s.writeStatusWord env dfcIso7816SwMemoryFailure)
  let readMode := command.getD 3 0 &&& 0x07
  refuseIf (command.length ≠ 5 ∨ (readMode ≠ 4 ∧ readMode ≠ 5))
    (s.writeStatusWord env dfcIso7816SwWrongParameters)
  let size := file.state.record.size
  let cyclic := decide (file.type = dfcFileTypeCyclicRecord)
  -- Record zero is the last one written.
  let firstNumber :=
    if command.getD 2 0 = 0 then (if cyclic then 1 else recordCount) else (command.getD 2 0).toNat
  refuseIf (recordCount = 0 ∨ recordCount < firstNumber)
    (s.writeStatusWord env dfcIso7816SwConditionsNotSatisfied)
  let records := if readMode = 5 then recordCount - firstNumber + 1 else 1
  let (requested, shortEof) ← orFail (s.writeStatusWord env dfcIso7816SwWrongLe)
    (isoFileReadLength e comm (command.getD 4 0) (records * size))
  let contiguous := decide (records = 1) || !cyclic
  refuseIf (contiguous = false ∧ 256 < requested) (s.writeStatusWord env dfcIso7816SwWrongLength)
  refuseIf (isoFileReadFits e comm requested env.responseCapacity = false) (s, .bufferTooSmall)
  -- Linear files number their records oldest first, as they lie; cyclic files newest first.
  let octets :=
    if contiguous then
      let index := if cyclic then recordCount - firstNumber else firstNumber - 1
      readView e (index * size) requested view
    else assembleRecords e view size recordCount firstNumber records requested
  writeIsoFileReadResponse s env comm octets (isoReadStatus shortEof)

/-- The octets go into the pool at once, and everything that is pending is published with them. -/
def isoUpdateBinary (s : IsoSession) (env : IsoEnv) (command : List UInt8) (i : ℕ) :
    IsoHandled := do
  let e := s.emulator
  let file := e.credential.files i
  refuseIf (dfcEmulatorFileAccessAllowed e file .write = false ∨
    file.commSettings &&& dfcCommModeMask ≠ dfcCommPlain)
    (s.writeStatusWord env dfcIso7816SwSecurity)
  let offset := isoFileOffset command
  let writeLen := (command.getD 4 0).toNat
  refuseIf (command.length ≠ 5 + writeLen) (s.writeStatusWord env dfcIso7816SwWrongParameters)
  refuseIf (writeLen = 0) (s.writeStatusWord env dfcIso7816SwWrongLength)
  refuseIf (file.dataLen < offset ∨ file.dataLen - offset < writeLen)
    (s.writeStatusWord env dfcIso7816SwConditionsNotSatisfied)
  refuseIf (env.responseCapacity < dfcIso7816StatusWordLength) (s, .bufferTooSmall)
  let start ← orFail (s.writeStatusWord env dfcIso7816SwWrongParameters)
    (dfcFileData e.credential file)
  let s := s.withEmulator (dfcEmulatorPublishTransaction
    (e.mapCredential fun c => c.writeFileData (start + offset) (command.drop 5)))
  return s.writeStatusWord env dfcIso7816SwOk

/-- The short identifier in P2 of READ RECORD, or in P1 of the other two. -/
def isoShortId (command : List UInt8) : UInt8 :=
  if command.getD 1 0 = dfcIso7816InsReadRecord then command.getD 3 0 >>> 3
  else if command.getD 2 0 &&& 0x80 ≠ 0 then command.getD 2 0 &&& 0x1F
  else 0

/-- READ BINARY, UPDATE BINARY and READ RECORD. What does not depend on the file that is named is
refused first. -/
def handleIsoFileCommand (s : IsoSession) (env : IsoEnv) (command : List UInt8) : IsoHandled := do
  refuseIf (s.ev2SessionActive = true) (s.writeStatusWord env dfcIso7816SwSecurity)
  refuseIf (s.emulator.selectedApplication = .app ∧
    s.standardIsoFilesBlockedByTransactionMac s.emulator.selectedAppIndex = true)
    (s.writeStatusWord env dfcIso7816SwConditionsNotSatisfied)
  refuseIf (isoShortId command = 0x1F) (s.writeStatusWord env dfcIso7816SwWrongParameters)
  let (s, i) ← s.isoFileOf env (isoShortId command)
  let file := s.emulator.credential.files i
  let (view, recordCount) ← orFail (s.writeStatusWord env dfcIso7816SwConditionsNotSatisfied)
    (isoReadView s.emulator i)
  if command.getD 1 0 = dfcIso7816InsReadBinary ∧ dfcFileTypeIsData file.type = true then
    isoReadBinary s env command i view
  else if command.getD 1 0 = dfcIso7816InsUpdateBinary ∧ 5 ≤ command.length ∧
      dfcFileTypeIsData file.type = true then
    isoUpdateBinary s env command i
  else if command.getD 1 0 = dfcIso7816InsReadRecord ∧ dfcFileTypeIsRecord file.type = true then
    isoReadRecord s env command i view recordCount
  else .error (s.writeStatusWord env dfcIso7816SwConditionsNotSatisfied)

/-- A bare status word other than success ends the transaction. -/
def abortTransactionAfterFailedIsoDataCommand (r : IsoResult) : IsoResult :=
  match r with
  | (s, .words [] status) =>
    (if status = dfcIso7816SwOk then s
      else s.withEmulator (dfcEmulatorAbortTransaction s.emulator).1, .words [] status)
  | r => r

/-- The data field of a SELECT. -/
def isoSelectData (command : List UInt8) : Option (List UInt8) :=
  let lc := (command.getD 4 0).toNat
  if 0 < lc ∧ 5 + lc ≤ command.length then some ((command.drop 5).take lc) else none

def isoFileIdOf (data : List UInt8) : ℕ := (data.getD 0 0).toNat * 256 + (data.getD 1 0).toNat

/-- An application is selected, unless its transaction MAC keeps the ISO commands out. -/
def isoSelectApplication (s : IsoSession) (env : IsoEnv) (app : ℕ) : IsoResult :=
  if s.standardIsoFilesBlockedByTransactionMac app then
    s.writeStatusWord env dfcIso7816SwConditionsNotSatisfied
  else
    (s.withEmulator (dfcEmulatorSelectApplication s.emulator .app app)).dropFile.writeStatusWord env
      dfcIso7816SwOk

def isoSelectPicc (s : IsoSession) (env : IsoEnv) : IsoResult :=
  (s.withEmulator (dfcEmulatorSelectApplication s.emulator .picc 0)).dropFile.writeStatusWord env
    dfcIso7816SwOk

/-- The card level or an application, by its name. -/
def isoSelectByName (s : IsoSession) (env : IsoEnv) (data : List UInt8) : Option IsoResult :=
  let c := s.emulator.credential
  match (List.range c.numApps).find? fun app =>
      decide (0 < (c.apps app).isoAidLen) &&
        (c.apps app).isoAid.read 0 (c.apps app).isoAidLen == data with
  | some app => some (isoSelectApplication s env app)
  | none => if data = dfcIsoAid then some (isoSelectPicc s env) else none

/-- The card level or an application, by its ISO identifier. -/
def isoSelectDfById (s : IsoSession) (env : IsoEnv) (fileId : ℕ) : Option IsoResult :=
  let c := s.emulator.credential
  if fileId = dfcIso7816MasterFileId then some (isoSelectPicc s env)
  else
    ((List.range c.numApps).find? fun app =>
      (c.apps app).hasIsoFileId && (c.apps app).isoFileId.toNat == fileId).map
      (isoSelectApplication s env)

/-- A file of the selected application, by its ISO identifier. -/
def isoSelectEfById (s : IsoSession) (env : IsoEnv) (fileId : ℕ) : Option IsoResult :=
  let e := s.emulator
  if s.standardIsoFilesBlockedByTransactionMac e.selectedAppIndex then
    some (s.writeStatusWord env dfcIso7816SwConditionsNotSatisfied)
  else
    ((List.range e.credential.numFiles).find? fun i =>
      let file := e.credential.files i
      file.appIndex == e.selectedAppIndex && file.hasIsoFileId &&
        file.isoFileId.toNat == fileId).map
      fun i => (s.selectFile i).writeStatusWord env dfcIso7816SwOk

def handleIsoSelect (s : IsoSession) (env : IsoEnv) (command : List UInt8) : IsoHandled := do
  let p1 := command.getD 2 0
  let lc := (command.getD 4 0).toNat
  refuseIf (env.responseCapacity < dfcIso7816StatusWordLength) (s, .bufferTooSmall)
  refuseIf (command.getD 3 0 ≠ 0x00 ∧ command.getD 3 0 ≠ 0x0C)
    (s.writeStatusWord env dfcIso7816SwWrongParameters)
  refuseIf (p1 = dfcIso7816SelectParent ∧ lc = 0) (s.dropFile.writeStatusWord env dfcIso7816SwOk)
  refuseIf (p1 = dfcIso7816SelectParent) (s.writeStatusWord env dfcIso7816SwInconsistentLc)
  refuseIf (p1 = dfcIso7816SelectPathFromMf ∨ p1 = dfcIso7816SelectPathFromDf)
    (s.writeStatusWord env dfcIso7816SwWrongParameters)
  let data ← orFail
    (s.writeStatusWord env
      (if 0 < lc ∨ (p1 = dfcIso7816SelectByDfName ∧ command.length = 4) then
        dfcIso7816SwInconsistentLc
      else dfcIso7816SwNotFound))
    (isoSelectData command)
  let byName := if p1 = dfcIso7816SelectByDfName then isoSelectByName s env data else none
  let byDf :=
    if (p1 = dfcIso7816SelectByFileId ∨ p1 = dfcIso7816SelectChildDf) ∧ lc = 2 then
      isoSelectDfById s env (isoFileIdOf data)
    else none
  let byEf :=
    if (p1 = dfcIso7816SelectByFileId ∨ p1 = dfcIso7816SelectChildEf) ∧ lc = 2 ∧
        s.emulator.selectedApplication = .app then
      isoSelectEfById s env (isoFileIdOf data)
    else none
  match byName <|> byDf <|> byEf with
  | some r => return r
  | none => .error ((s.withEmulator (dfcEmulatorResetSession s.emulator)).writeStatusWord env
      dfcIso7816SwNotFound)

/-- `dfc_emulator_abort_pending_native_work`, where there is some. -/
def isoAbortPendingNativeWork (s : IsoSession) (env : IsoEnv) : Option IsoSession :=
  let e := s.emulator
  if env.nativeWorkPending = true ∨ env.authenticationPending = true ∨ e.pendingChain ≠ [] then
    let e := if env.authenticationPending then dfcEmulatorClearActiveAuthentication e else e
    some (s.withEmulator (dfcEmulatorCommandClearPendingChain e))
  else none

/-- A SELECT that the virtual card answers, `handle_virtual_card_select`. -/
def isVirtualCardSelect (c : DfcCredential) (command : List UInt8) : Bool :=
  let identifierLen := (command.getD 4 0).toNat
  c.virtualCardConfigured && c.virtualCardAuthenticationMandatory &&
    decide (5 ≤ command.length) && decide (5 + identifierLen ≤ command.length) &&
    identifierLen == c.virtualCardInstallationIdLen &&
    (command.drop 5).take identifierLen == c.virtualCardInstallationId.read 0 identifierLen

/-- The commands that authenticate, or select the virtual card. -/
def isIsoAuthentication (c : DfcCredential) (command : List UInt8) : Bool :=
  let ins := command.getD 1 0
  ins == dfcIso7816InsGetChallenge || ins == dfcIso7816InsExternalAuthenticate ||
    ins == dfcIso7816InsInternalAuthenticate ||
    ins == dfcIso7816InsSelect && isVirtualCardSelect c command

/-- `virtual_picc_iso_dep_exchange` on the standard class, up to the commands that authenticate,
which are not handled here. -/
def isoExchange (s : IsoSession) (env : IsoEnv) (command : List UInt8) : Option IsoResult :=
  let ins := command.getD 1 0
  if command = [] ∨ command.getD 0 0 ≠ dfcIso7816ClaStandard then none
  else if command.length < 4 then some (s.writeStatusWord env dfcIso7816SwWrongLength)
  else if isIsoAuthentication s.emulator.credential command then none
  else if env.responseCapacity < dfcIso7816StatusWordLength then some (s, .bufferTooSmall)
  else match isoAbortPendingNativeWork s env with
  | some s => some (s.writeStatusWord env dfcIso7816SwConditionsNotSatisfied)
  | none =>
    if ins = dfcIso7816InsSelect then some (handleIsoSelect s env command).result
    else if ins = dfcIso7816InsAppendRecord then some (handleIsoAppendRecord s env command).result
    else if ins = dfcIso7816InsReadBinary then some (handleIsoFileCommand s env command).result
    else if ins = dfcIso7816InsUpdateBinary ∨ ins = dfcIso7816InsReadRecord then
      some (abortTransactionAfterFailedIsoDataCommand (handleIsoFileCommand s env command).result)
    else some (s.writeStatusWord env dfcIso7816SwInsNotSupported)

end DfcCore
