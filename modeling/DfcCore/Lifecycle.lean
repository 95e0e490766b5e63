import DfcCore.Emulator
import DfcCore.ReaderCommand
import DfcCore.DerReader

/-!
# The life cycle of applications and files

The native command handlers of `dfc_emulator_commands_lifecycle.c` that select, list,
create and delete applications, and create files and report their settings, each behind
the length checks of the command registry. A handler takes the command frame and gives
the emulator afterwards with the answer, the status octet first. The answer is the one
before secure messaging: under a session it is secured as a whole and then sent.
-/
namespace DfcCore
open Der

abbrev dfcKs1FreeDirectoryAccess : UInt8 := 0x02
abbrev dfcKs1FreeCreateDelete : UInt8 := 0x04
abbrev dfcEv1MaxFilesPerApp : ℕ := 32
abbrev dfcEv1PiccStorageBytes : ℕ := 8 * 1024
abbrev dfcEv34kFreeMemoryBytes : ℕ := 5120
abbrev dfcStorage4KByteCount : UInt32 := 4096
abbrev dfcEv1MaxFramePayload : ℕ := 59
abbrev dfcEv3MaxResponsePayload : ℕ := 58
abbrev dfcFileOptionAdditionalRights : UInt8 := 0x80
abbrev dfcFileOptionSdm : UInt8 := 0x40

/-- A native answer: the emulator afterwards and the octets sent. -/
abbrev Answer := DfcEmulator × List UInt8

/-- A failed check answers its status and changes nothing. -/
def DfcEmulator.answer (e : DfcEmulator) : Except UInt8 Answer → Answer
  | .ok r => r
  | .error st => (e, [st])

/-- A check that refuses does so with another status than success. -/
def NeverOk {α : Type} (x : Except UInt8 α) : Prop := ∀ st, x = .error st → st ≠ dfcStatusOk

theorem NeverOk.ok {α : Type} (a : α) : NeverOk (.ok a : Except UInt8 α) := by
  intro st hst
  cases hst

theorem NeverOk.bind {α β : Type} {x : Except UInt8 α} {f : α → Except UInt8 β} (hx : NeverOk x)
    (hf : ∀ a, NeverOk (f a)) : NeverOk (x >>= f) := by
  cases x with
  | error st =>
    intro st' hst
    cases hst
    exact hx st rfl
  | ok a => exact hf a

theorem NeverOk.refuseIf {p : Prop} [Decidable p] {st : UInt8} (hst : st ≠ dfcStatusOk) :
    NeverOk (refuseIf p st) := by
  unfold Der.refuseIf
  split_ifs
  · intro st' h
    cases h
    exact hst
  · exact .ok ()

theorem NeverOk.ite {α : Type} {p : Prop} [Decidable p] {x y : Except UInt8 α} (hx : NeverOk x)
    (hy : NeverOk y) : NeverOk (if p then x else y) := by
  split_ifs
  · exact hx
  · exact hy

theorem DfcEmulator.answer_ok {e : DfcEmulator} {x : Except UInt8 Answer} {e' : DfcEmulator}
    {payload : List UInt8} (h : e.answer x = (e', dfcStatusOk :: payload))
    (hx : NeverOk x) : x = .ok (e', dfcStatusOk :: payload) := by
  cases x with
  | ok r => exact congrArg Except.ok h
  | error st =>
    have hst : [st] = dfcStatusOk :: payload := congrArg Prod.snd h
    exact absurd (List.cons.inj hst).1 (hx st rfl)

def requireCreateDeleteAccess (e : DfcEmulator) : Except UInt8 Unit :=
  refuseIf (¬(dfcEmulatorCurrentKeySettings1 e &&& dfcKs1FreeCreateDelete ≠ 0 ∨
    dfcEmulatorIsAuthenticatedAsMaster e = true)) dfcStatusAuthenticationErr

def requireDirectoryAccess (e : DfcEmulator) : Except UInt8 Unit :=
  refuseIf (¬(dfcEmulatorCurrentKeySettings1 e &&& dfcKs1FreeDirectoryAccess ≠ 0 ∨
    dfcEmulatorIsAuthenticatedAsMaster e = true)) dfcStatusAuthenticationErr

def requireSelectedApplication (e : DfcEmulator) : Except UInt8 Unit :=
  refuseIf (e.selectedApplication ≠ .app) dfcStatusPermissionDenied

def dfcEmulatorFileLookupFailureStatus (fileNumber : UInt8) (isThere : Bool) : UInt8 :=
  if 0x1F < fileNumber then dfcStatusParameterError
  else if isThere then dfcStatusPermissionDenied else dfcStatusFileNotFound

/-- The identifier at the start of a command's data, as sent. -/
def wireAid (apdu : List UInt8) : Mem := fun i => apdu.getD (1 + i) 0

/-- Octets a frame carries: whole entries of a listing. -/
def ev1FramePayload (e : DfcEmulator) (entry : ℕ) : ℕ :=
  let limit := if e.credential.card.generation = dfcGenerationEv3 then dfcEv3MaxResponsePayload
    else dfcEv1MaxFramePayload
  let entry := if entry = 0 then 1 else entry
  limit / entry * entry

def dfcEmulatorCommandEmitPayloadWithChaining (e : DfcEmulator) (payload : List UInt8)
    (entry : ℕ) : Answer :=
  let frame := ev1FramePayload e entry
  let e := { dfcEmulatorCommandClearPendingChain e with
    pendingChainFrame := frame, pendingChainLast := frame }
  if payload.length ≤ frame then (e, dfcStatusOk :: payload)
  else
    ({ e with pendingChain := (payload.drop frame).take dfcEmulatorChainBufferSize },
      dfcCmdAdditionalFrame :: payload.take frame)

def handlePendingChainContinuation (e : DfcEmulator) : Answer :=
  let frame := if e.pendingChainFrame ≠ 0 then e.pendingChainFrame else ev1FramePayload e 1
  let last := if e.pendingChainLast ≠ 0 then e.pendingChainLast else frame
  let remaining := e.pendingChain.length
  let chunk := if remaining ≤ last then remaining else frame
  if e.pendingChain = [] then
    (dfcEmulatorCommandClearPendingChain e, [dfcStatusIllegalCommandCode])
  else if chunk = remaining then
    (dfcEmulatorCommandClearPendingChain e, dfcStatusOk :: e.pendingChain)
  else
    ({ e with pendingChain := e.pendingChain.drop chunk },
      dfcCmdAdditionalFrame :: e.pendingChain.take chunk)

/-- What a reader gathers that asks for further frames while the card announces them.
The fuel bounds the frames asked for. -/
def gatherFrames : ℕ → Answer → Option (List UInt8)
  | _, (_, []) => none
  | 0, (_, status :: payload) => if status = dfcStatusOk then some payload else none
  | fuel + 1, (e, status :: payload) =>
    if status = dfcStatusOk then some payload
    else if status = dfcCmdAdditionalFrame then
      (gatherFrames fuel (handlePendingChainContinuation e)).map (payload ++ ·)
    else none

def dfcEmulatorCommandSelectApplication (e : DfcEmulator) (apdu : List UInt8) : Answer :=
  if apdu.length ≠ 4 then (e, [dfcStatusLengthError])
  else
    let aid := wireAid apdu
    match dfcCredentialFindApplicationDesfireOrder e.credential aid with
    | some i => (dfcEmulatorSelectApplication e .app i, [dfcStatusOk])
    | none =>
      if aid 0 = 0 ∧ aid 1 = 0 ∧ aid 2 = 0 then
        (dfcEmulatorSelectApplication e .picc 0, [dfcStatusOk])
      else
        ({ dfcEmulatorResetSession e with selectedApplication := .picc, selectedAppIndex := 0 },
          [dfcStatusApplicationNotFound])

/-- The identifiers of a card's applications in wire order. -/
def applicationIds (c : DfcCredential) : List UInt8 :=
  (List.range c.numApps).flatMap fun i => [(c.apps i).aid 2, (c.apps i).aid 1, (c.apps i).aid 0]

def dfcEmulatorCommandGetApplicationIds (e : DfcEmulator) : Answer :=
  e.answer do
    refuseIf (e.selectedApplication ≠ .picc) dfcStatusPermissionDenied
    requireDirectoryAccess e
    return dfcEmulatorCommandEmitPayloadWithChaining e (applicationIds e.credential) 3

def isoFileIdInUse (c : DfcCredential) (isoFileId : UInt16) : Bool :=
  (List.range c.numApps).any fun i => (c.apps i).hasIsoFileId && (c.apps i).isoFileId == isoFileId

def isoDfNameInUse (c : DfcCredential) (dfName : List UInt8) : Bool :=
  dfName.length != 0 && (List.range c.numApps).any fun i =>
    (c.apps i).isoAidLen == dfName.length && (c.apps i).isoAid.read 0 dfName.length == dfName

/-- The key-set parameters of a CreateApplication command. -/
structure NewKeySets where
  activeKeySetVersion : UInt8
  keySetCount : UInt8
  maxKeySize : UInt8
  keySetSettings : UInt8
  deriving Repr, DecidableEq

/-- The extended settings, and where the optional parts behind them start. -/
def parseExtendedSettings (apdu : List UInt8) : Except UInt8 (ℕ × Option NewKeySets) := do
  let ks2 := apdu.getD 5 0
  if ks2 &&& dfcKs2ExtendedSettings = 0 then return (6, none)
  refuseIf (apdu.length ≤ 6) dfcStatusLengthError
  if apdu.getD 6 0 &&& dfcExtendedSettingsKeySets = 0 then return (7, none)
  refuseIf (apdu.length < 7 + 4) dfcStatusLengthError
  let sets : NewKeySets :=
    { activeKeySetVersion := apdu.getD 7 0, keySetCount := apdu.getD 8 0
      maxKeySize := apdu.getD 9 0, keySetSettings := apdu.getD 10 0 }
  refuseIf (sets.keySetCount.toNat < dfcKeySetMinimumCount ∨
    dfcMaxKeySets < sets.keySetCount.toNat ∨
    (sets.maxKeySize.toNat ≠ dfcKeySetMaximum16Byte ∧
      sets.maxKeySize.toNat ≠ dfcKeySetMaximum24Byte) ∨
    sets.maxKeySize.toNat < dfcCredentialStoredKeyLength (dfcCredentialKeyLength ks2))
    dfcStatusParameterError
  return (11, some sets)

/-- The ISO file identifier and the name, both optional. -/
def parseIsoIdentity (c : DfcCredential) (apdu : List UInt8) (offset : ℕ) :
    Except UInt8 (Option (UInt16 × List UInt8)) := do
  if apdu.length < offset + 2 then return none
  let isoFileId := UInt16.ofNat (leValue ((apdu.drop offset).take 2))
  let dfName := apdu.drop (offset + 2)
  refuseIf (isoFileIdInUse c isoFileId = true) dfcStatusDuplicateError
  refuseIf (16 < dfName.length) dfcStatusParameterError
  refuseIf (isoDfNameInUse c dfName = true) dfcStatusDuplicateError
  return some (isoFileId, dfName)

/-- The loop that gives every set of a new application its type. -/
def storeKeySetTypes (c : DfcCredential) (i : ℕ) (type : UInt8) : DfcCredential × Bool :=
  (List.range (c.apps i).numKeySets).foldl (fun (acc : DfcCredential × Bool) set =>
    if acc.2 = false then acc
    else match dfcCredentialKeySetType acc.1 (acc.1.apps i) set with
    | none => (acc.1, false)
    | some at' =>
      ({ acc.1 with keySetMetadataPool := acc.1.keySetMetadataPool.write at' [type] }, true))
    (c, true)

/-- Gives the new application its key sets. -/
def installKeySets (c : DfcCredential) (i keyCount : ℕ) (keySettings2 : UInt8)
    (sets : NewKeySets) : DfcCredential × Bool :=
  match dfcCredentialKeySetsResize c i sets.keySetCount.toNat keyCount
      (dfcCredentialKeyLength keySettings2) sets.maxKeySize.toNat with
  | (c, false) => (c, false)
  | (c, true) =>
    let c := c.modifyApp i fun app => { app with keySetSettings := sets.keySetSettings }
    match dfcCredentialKeySetVersion c (c.apps i) 0 with
    | none => (c, false)
    | some at' =>
      storeKeySetTypes
        { c with keySetMetadataPool := c.keySetMetadataPool.write at' [sets.activeKeySetVersion] }
        i ((keySettings2 &&& dfcKeyTypeMask) >>> 6)

/-- A new application without key-set parameters keeps its single set. -/
def installKeySetsIfAny (c : DfcCredential) (i keyCount : ℕ) (keySettings2 : UInt8) :
    Option NewKeySets → DfcCredential × Bool
  | none => (c, true)
  | some sets => installKeySets c i keyCount keySettings2 sets

/-- The settings a new application gets once its keys are in place. -/
def DfcApplication.identify (app : DfcApplication) (iso : Option (UInt16 × List UInt8)) :
    DfcApplication :=
  match iso with
  | none => app
  | some (isoFileId, dfName) =>
    { app with
      hasIsoFileId := true
      isoFileId := isoFileId
      isoAid := app.isoAid.write 0 dfName
      isoAidLen := if dfName.length = 0 then app.isoAidLen else dfName.length }

/-- The state change of CreateApplication, after its checks. -/
def installApplication (c : DfcCredential) (aid : Mem) (keySettings1 keySettings2 : UInt8)
    (sets : Option NewKeySets) (iso : Option (UInt16 × List UInt8)) :
    DfcCredential × UInt8 :=
  -- An identifier for the application implies identifiers for its files.
  let ks2 := if iso.isSome then keySettings2 ||| dfcKs2IsoFileIds else keySettings2
  match dfcCredentialCreateApplicationDesfireOrder c aid keySettings1 ks2 with
  | (c, none) => (c, dfcStatusParameterError)
  | (c, some i) =>
    let c := c.modifyApp i fun app =>
      { app with
        hasAuthCommands := true
        authCommands := dfcCredentialDefaultAuthCommands ks2 c.card.generation |||
          dfcAuthCommandIso7816 }
    match installKeySetsIfAny c i (keySettings2 &&& dfcNumKeysMask).toNat ks2 sets with
    | (c, false) => ((dfcCredentialDeleteApplicationAt c i).1, dfcStatusOutOfEeprom)
    | (c, true) =>
      ({ c.modifyApp i fun app => app.identify iso with dirty := true }, dfcStatusOk)

def dfcEmulatorCommandCreateApplication (e : DfcEmulator) (apdu : List UInt8) : Answer :=
  e.answer do
    refuseIf (apdu.length < 6) dfcStatusLengthError
    refuseIf (e.selectedApplication ≠ .picc) dfcStatusPermissionDenied
    requireCreateDeleteAccess e
    refuseIf (apdu.length ≠ 6 ∧ apdu.length < 8) dfcStatusLengthError
    let c := e.credential
    let aid := wireAid apdu
    refuseIf (aid 0 = 0 ∧ aid 1 = 0 ∧ aid 2 = 0) dfcStatusParameterError
    refuseIf ((dfcCredentialFindApplicationDesfireOrder c aid).isSome = true)
      dfcStatusDuplicateError
    let keyCount := (apdu.getD 5 0 &&& dfcNumKeysMask).toNat
    refuseIf (keyCount = 0 ∨ dfcEv1MaxKeysPerApp < keyCount) dfcStatusParameterError
    refuseIf (dfcMaxApps ≤ c.numApps) dfcStatusCountError
    let (offset, sets) ← parseExtendedSettings apdu
    let iso ← parseIsoIdentity c apdu offset
    let (c, status) := installApplication c aid (apdu.getD 4 0) (apdu.getD 5 0) sets iso
    return ({ e with credential := c }, [status])

def dfcEmulatorCommandDeleteApplication (e : DfcEmulator) (apdu : List UInt8) : Answer :=
  e.answer do
    refuseIf (e.selectedApplication = .picc ∧ dfcEmulatorIsAuthenticatedAsMaster e = false)
      dfcStatusAuthenticationErr
    let i ← orFail dfcStatusApplicationNotFound
      (dfcCredentialFindApplicationDesfireOrder e.credential (wireAid apdu))
    let own := e.selectedApplication = .picc ∨
      (e.selectedApplication = .app ∧ e.selectedAppIndex = i)
    refuseIf (¬(own ∧ dfcEmulatorIsAuthenticatedAsMaster e = true)) dfcStatusAuthenticationErr
    let e := dfcEmulatorSelectApplication e .picc 0
    return ((e.mapCredential fun c => (dfcCredentialDeleteApplicationAt c i).1).markDirty,
      [dfcStatusOk])

def allocatedFileBytes (c : DfcCredential) : ℕ :=
  ((List.range c.numFiles).map fun i =>
    let file := c.files i
    if dfcFileTypeIsData file.type then file.state.data.declaredSize
    else if dfcFileTypeIsRecord file.type then file.state.record.size * file.state.record.maxRecords
    else 0).sum

def cardFileCapacityBytes (card : DfcCard) : ℕ :=
  if card.generation = dfcGenerationEv3 ∧ card.storage = dfcStorage4KByteCount then
    dfcEv34kFreeMemoryBytes
  else if card.storage = 0 then dfcEv1PiccStorageBytes else card.storage.toNat

def hasCardFileCapacity (c : DfcCredential) (allocation : ℕ) : Bool :=
  decide (allocatedFileBytes c ≤ cardFileCapacityBytes c.card) &&
    decide (allocation ≤ cardFileCapacityBytes c.card - allocatedFileBytes c)

def fileIsoIdInUse (c : DfcCredential) (isoFileId : UInt16) : Bool :=
  (List.range c.numFiles).any fun i =>
    (c.files i).hasIsoFileId && (c.files i).isoFileId == isoFileId

def dfcCredentialCountFilesInApp (c : DfcCredential) (appIndex : ℕ) : ℕ :=
  ((List.range c.numFiles).filter fun i => (c.files i).appIndex == appIndex).length

def newFileNumberIsAvailable (e : DfcEmulator) (fileNumber duplicateStatus : UInt8) :
    Except UInt8 Unit := do
  refuseIf (dfcEv1MaxFileNumber < fileNumber.toNat) dfcStatusParameterError
  refuseIf ((dfcCredentialFindFileInApp e.credential e.selectedAppIndex fileNumber).isSome = true)
    duplicateStatus

def newFileCountIsAvailable (e : DfcEmulator) : Except UInt8 Unit :=
  refuseIf (dfcEv1MaxFilesPerApp ≤ dfcCredentialCountFilesInApp e.credential e.selectedAppIndex ∨
    dfcMaxFiles ≤ e.credential.numFiles) dfcStatusCountError

/-- The identifier of a new file needs an application that gives its files one. -/
def newFileIsoIdIsAvailable (e : DfcEmulator) (isoFileId : UInt16) : Except UInt8 Unit := do
  refuseIf (¬(dfcEmulatorCurrentApp e).any fun i =>
    (e.credential.apps i).keySettings2 &&& dfcKs2IsoFileIds != 0) dfcStatusParameterError
  refuseIf (fileIsoIdInUse e.credential isoFileId = true) dfcStatusDuplicateError

def newFileSettingsAreValid (e : DfcEmulator) (commSettings : UInt8) (accessRights : UInt16)
    (sdmFlagAllowed : Bool) : Bool :=
  (sdmFlagAllowed || commSettings &&& dfcFileOptionSdm == 0) &&
    dfcCommunicationSettingsIsValid commSettings &&
    dfcAccessRightsAreValid accessRights (dfcEmulatorNumKeys e)

def publishCreatedFile (e : DfcEmulator) (i : ℕ) : Answer :=
  match dfcEmulatorTransactionSnapshotInsertFile e i with
  | (e, false) =>
    (e.mapCredential fun c =>
      (dfcCredentialDeleteFile c e.selectedAppIndex (c.files i).number).1, [dfcStatusOutOfEeprom])
  | (e, true) =>
    ((dfcEmulatorTransactionSnapshotNotePersistentChange e).markDirty, [dfcStatusOk])

/-- The settings a create command sends for a file. -/
structure NewFile where
  number : UInt8
  type : UInt8
  commSettings : UInt8
  accessRights : UInt16
  isoFileId : Option UInt16 := none

/-- Writes the settings into the record of a fresh file. -/
def NewFile.install (new : NewFile) (file : DfcFile) : DfcFile :=
  { file with
    type := new.type
    commSettings := new.commSettings
    accessRights := new.accessRights
    hasIsoFileId := new.isoFileId.isSome || file.hasIsoFileId
    isoFileId := new.isoFileId.getD file.isoFileId }

/-- The settings at `offset` of a create command, without and with an identifier. -/
def wireNewFile (apdu : List UInt8) (type : UInt8) (hasIsoFileId : Bool) : NewFile :=
  let offset := if hasIsoFileId then 4 else 2
  { number := apdu.getD 1 0
    type := type
    commSettings := apdu.getD offset 0
    accessRights := UInt16.ofNat (leValue ((apdu.drop (offset + 1)).take 2))
    isoFileId := if hasIsoFileId then some (UInt16.ofNat (leValue ((apdu.drop 2).take 2)))
      else none }

/-- The state change of the data file commands, after their checks. -/
def installDataFile (e : DfcEmulator) (new : NewFile) (fileSize : ℕ) : Answer :=
  match dfcCredentialCreateFile e.credential e.selectedAppIndex new.number with
  | (c, none) => ({ e with credential := c }, [dfcStatusParameterError])
  | (c, some i) =>
    match dfcFileSetDataSize (c.modifyFile i new.install) i fileSize with
    | (c, false) =>
      ({ e with credential := (dfcCredentialDeleteFile c e.selectedAppIndex new.number).1 },
        [dfcStatusOutOfEeprom])
    | (c, true) => publishCreatedFile { e with credential := c } i

/-- CreateStdDataFile and CreateBackupDataFile. -/
def dfcEmulatorCommandCreateStdDataFile (e : DfcEmulator) (apdu : List UInt8)
    (fileType : UInt8) : Answer :=
  e.answer do
    refuseIf (apdu.length < 8) dfcStatusLengthError
    requireSelectedApplication e
    requireCreateDeleteAccess e
    refuseIf (apdu.length ≠ 8 ∧ apdu.length ≠ 10) dfcStatusLengthError
    let c := e.credential
    let hasIsoFileId := apdu.length == 10
    let new := wireNewFile apdu fileType hasIsoFileId
    new.isoFileId.elim (.ok ()) (newFileIsoIdIsAvailable e)
    newFileNumberIsAvailable e new.number dfcStatusDuplicateError
    newFileCountIsAvailable e
    let fileSize := leValue ((apdu.drop (if hasIsoFileId then 7 else 5)).take 3)
    refuseIf (fileSize = 0) dfcStatusParameterError
    refuseIf (dfcMaxFileData < fileSize ∨ dfcFilePoolSize < fileSize) dfcStatusOutOfEeprom
    refuseIf (dfcCredentialFilePoolFree c < fileSize ∨ hasCardFileCapacity c fileSize = false)
      dfcStatusOutOfEeprom
    refuseIf (fileType = dfcFileTypeStandardData ∧ new.commSettings &&& dfcFileOptionSdm ≠ 0 ∧
      hasIsoFileId = false) dfcStatusPermissionDenied
    refuseIf (newFileSettingsAreValid e new.commSettings new.accessRights
      (fileType == dfcFileTypeStandardData && hasIsoFileId) = false) dfcStatusParameterError
    return installDataFile e new fileSize

/-- The state change of the record file commands, after their checks. -/
def installRecordFile (e : DfcEmulator) (new : NewFile) (recordSize maxRecords : ℕ) : Answer :=
  match dfcCredentialCreateFile e.credential e.selectedAppIndex new.number with
  | (c, none) => ({ e with credential := c }, [dfcStatusCountError])
  | (c, some i) =>
    let c := c.modifyFile i fun file =>
      (new.install file).withRecord { size := recordSize, maxRecords := maxRecords, count := 0 }
    match dfcFileResize c i (recordSize * maxRecords) with
    | (c, false) =>
      ({ e with credential := (dfcCredentialDeleteFile c e.selectedAppIndex new.number).1 },
        [dfcStatusOutOfEeprom])
    | (c, true) => publishCreatedFile { e with credential := c } i

/-- CreateLinearRecordFile and CreateCyclicRecordFile. -/
def dfcEmulatorCommandCreateRecordFile (e : DfcEmulator) (apdu : List UInt8)
    (fileType : UInt8) : Answer :=
  e.answer do
    requireSelectedApplication e
    requireCreateDeleteAccess e
    refuseIf (apdu.length ≠ 11 ∧ apdu.length ≠ 13) dfcStatusLengthError
    let c := e.credential
    let hasIsoFileId := apdu.length == 13
    let new := wireNewFile apdu fileType hasIsoFileId
    newFileNumberIsAvailable e new.number dfcStatusDuplicateError
    new.isoFileId.elim (.ok ()) (newFileIsoIdIsAvailable e)
    let recordSize := leValue ((apdu.drop (if hasIsoFileId then 7 else 5)).take 3)
    let maxRecords := leValue ((apdu.drop (if hasIsoFileId then 10 else 8)).take 3)
    let allocation := recordSize * maxRecords
    refuseIf (fileType = dfcFileTypeCyclicRecord ∧ maxRecords = 1) dfcStatusParameterError
    refuseIf (recordSize = 0 ∨ maxRecords = 0 ∨ dfcMaxFileData < allocation ∨
      dfcCredentialFilePoolFree c < allocation ∨ hasCardFileCapacity c allocation = false)
      dfcStatusOutOfEeprom
    newFileCountIsAvailable e
    refuseIf (newFileSettingsAreValid e new.commSettings new.accessRights false = false)
      dfcStatusParameterError
    return installRecordFile e new recordSize maxRecords

def readInt32Le (bytes : List UInt8) : Int32 := (UInt32.ofNat (leValue (bytes.take 4))).toInt32

/-- The state change of CreateValueFile, after its checks. -/
def installValueFile (e : DfcEmulator) (new : NewFile) (lowerLimit upperLimit value : Int32)
    (limitedCredit : UInt8) : Answer :=
  match dfcCredentialCreateFile e.credential e.selectedAppIndex new.number with
  | (c, none) => ({ e with credential := c }, [dfcStatusParameterError])
  | (c, some i) =>
    let c := c.modifyFile i fun file =>
      (new.install file).withValue
        { lowerLimit := lowerLimit, upperLimit := upperLimit, current := value,
          limitedCredit := limitedCredit }
    publishCreatedFile { e with credential := c } i

def dfcEmulatorCommandCreateValueFile (e : DfcEmulator) (apdu : List UInt8) : Answer :=
  e.answer do
    refuseIf (apdu.length < 18) dfcStatusLengthError
    requireSelectedApplication e
    requireCreateDeleteAccess e
    let new := wireNewFile apdu dfcFileTypeValue false
    newFileNumberIsAvailable e new.number dfcStatusDuplicateError
    newFileCountIsAvailable e
    let lowerLimit := readInt32Le (apdu.drop 5)
    let upperLimit := readInt32Le (apdu.drop 9)
    let value := readInt32Le (apdu.drop 13)
    refuseIf (upperLimit.toInt < lowerLimit.toInt ∨ value.toInt < lowerLimit.toInt ∨
      upperLimit.toInt < value.toInt) dfcStatusParameterError
    refuseIf (newFileSettingsAreValid e new.commSettings new.accessRights false = false)
      dfcStatusParameterError
    return installValueFile e new lowerLimit upperLimit value (apdu.getD 17 0)

/-- The record count a settings answer reports, the committed one. -/
def reportedRecordCount (e : DfcEmulator) (i : ℕ) : ℕ :=
  if e.snapshot.active ∧ e.snapshot.appIndex = e.selectedAppIndex then
    dfcEmulatorTransactionSnapshotCommittedRecordCount e i
  else (e.credential.files i).state.record.count

/-- The settings of a file on the wire. -/
def fileSettingsOctets (e : DfcEmulator) (i : ℕ) : List UInt8 :=
  let file := e.credential.files i
  file.type :: file.commSettings :: (leOctets 2 file.accessRights.toNat ++
    (if file.type = dfcFileTypeValue then
      let v := file.state.value
      leOctets 4 v.lowerLimit.toUInt32.toNat ++ leOctets 4 v.upperLimit.toUInt32.toNat ++
        leOctets 4 v.limitedCreditValue.toUInt32.toNat ++ [v.limitedCredit]
    else if dfcFileTypeIsRecord file.type then
      leOctets 3 file.state.record.size ++ leOctets 3 file.state.record.maxRecords ++
        leOctets 3 (reportedRecordCount e i)
    else leOctets 3 file.dataLen) ++
    (if file.commSettings &&& dfcFileOptionAdditionalRights ≠ 0 then [0x00] else []))

def dfcEmulatorCommandGetFileSettings (e : DfcEmulator) (apdu : List UInt8) : Answer :=
  e.answer do
    refuseIf (apdu.length < 2 ∨ (apdu.length ≠ 2 ∧ dfcEmulatorAuthenticated e = false))
      dfcStatusLengthError
    requireSelectedApplication e
    requireDirectoryAccess e
    let fileNo := apdu.getD 1 0
    let i ← orFail (dfcEmulatorFileLookupFailureStatus fileNo false)
      (dfcCredentialFindFileInApp e.credential e.selectedAppIndex fileNo)
    return (e, dfcStatusOk :: fileSettingsOctets e i)

/-- The registry entries of these handlers. A frame none of them takes is not answered
here. -/
def dfcEmulatorDispatchLifecycle (e : DfcEmulator) (apdu : List UInt8) : Option Answer :=
  match apdu with
  | [] => none
  | ins :: data =>
    if ins = dfcCmdSelectApplication then some (dfcEmulatorCommandSelectApplication e apdu)
    else if ins = dfcCmdGetApplicationIds then
      if data ≠ [] ∧ dfcEmulatorAuthenticated e = false then some (e, [dfcStatusLengthError])
      else some (dfcEmulatorCommandGetApplicationIds e)
    else if ins = dfcCmdCreateApplication then some (dfcEmulatorCommandCreateApplication e apdu)
    else if ins = dfcCmdDeleteApplication then
      if data.length < 3 then none else some (dfcEmulatorCommandDeleteApplication e apdu)
    else if ins = dfcCmdGetFileSettings then some (dfcEmulatorCommandGetFileSettings e apdu)
    else if ins = dfcCmdCreateStdDataFile then
      some (dfcEmulatorCommandCreateStdDataFile e apdu dfcFileTypeStandardData)
    else if ins = dfcCmdCreateBackupDataFile then
      some (dfcEmulatorCommandCreateStdDataFile e apdu dfcFileTypeBackupData)
    else if ins = dfcCmdCreateLinearRecordFile then
      some (dfcEmulatorCommandCreateRecordFile e apdu dfcFileTypeLinearRecord)
    else if ins = dfcCmdCreateCyclicRecordFile then
      some (dfcEmulatorCommandCreateRecordFile e apdu dfcFileTypeCyclicRecord)
    else if ins = dfcCmdCreateValueFile then some (dfcEmulatorCommandCreateValueFile e apdu)
    else none

end DfcCore
