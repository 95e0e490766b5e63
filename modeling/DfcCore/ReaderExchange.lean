import DfcCore.Ev2Crypto

/-!
# Reader exchanges

The reader's side of a command, `dfc_reader.c`: a command is put under the session's secure
messaging when its exchange begins, `dfc_reader_step` hands out its frames one by one and takes
the answers, and the last answer is checked and unwrapped. A streamed write goes on with the
command of its next piece as long as the card answers success. Command and answer share a
buffer in the source and are never there together; here each has its own. The exchanges of the
authentications are not here, so every exchange is one of a command.
-/
namespace DfcCore
open Der

abbrev dfcReaderMaxResponse : ℕ := 600
abbrev dfcReaderMaxCommand : ℕ := 520
abbrev dfcReaderStreamChunk : ℕ := 152
abbrev dfcReaderMaxClearHeaderLength : ℕ := dfcUpdateRecordHeaderSize - 1
abbrev dfcCommandApduOverhead : ℕ := 6
abbrev dfcEv2FileHeaderLength : ℕ := 7
abbrev dfcEv2UpdateRecordHeaderLength : ℕ := dfcUpdateRecordHeaderSize - 1
abbrev dfcEv2ValueHeaderLength : ℕ := 1
abbrev dfcEv2SetConfigurationHeaderLength : ℕ := 1
abbrev dfcEv2CreateTransactionMacHeaderLength : ℕ := 5
abbrev dfcEv2ChangeKeyHeaderLength : ℕ := 2
abbrev dfcEv2ChangeFileSettingsHeaderLength : ℕ := 1
abbrev dfcIso7816ClaWrapper : UInt8 := 0x90
abbrev wrappedSw1 : UInt8 := 0x91

abbrev dfcCmdGetVersion : UInt8 := 0x60
abbrev dfcCmdGetCardUid : UInt8 := 0x51
abbrev dfcCmdChangeKey : UInt8 := 0xC4
abbrev dfcCmdChangeKeyEv2 : UInt8 := 0xC6
abbrev dfcCmdChangeKeySettings : UInt8 := 0x54
abbrev dfcCmdChangeFileSettings : UInt8 := 0x5F
abbrev dfcCmdSetConfiguration : UInt8 := 0x5C
abbrev dfcCmdCreateDelegatedApplication : UInt8 := 0xC9
abbrev dfcCmdReadSignature : UInt8 := 0x3C
abbrev dfcCmdPrepareProximityCheck : UInt8 := 0xF0
abbrev dfcCmdProximityCheck : UInt8 := 0xF2
abbrev dfcCmdVerifyProximityCheck : UInt8 := 0xFD
abbrev dfcStatusSpecialSuccess : UInt8 := 0x90
abbrev dfcKeySetNumberMask : UInt8 := 0x0F

/-- `file_range`. -/
def fileRange (ins fileNo : UInt8) (first second : ℕ) (content : List UInt8) :
    Except DfcCommandError DfcCommand :=
  if validFileNumber fileNo = false then .error .invalid
  else if dfcCommandUint24Max < first ∨ dfcCommandUint24Max < second then .error .invalid
  else ((((Builder.start ins).putByte fileNo).putU24 first).putU24 second |>.put content).finish

def dfcCommandWriteData (fileNo : UInt8) (offset : ℕ) (data : List UInt8) :
    Except DfcCommandError DfcCommand :=
  if dfcCommandMaxData - dfcEv2FileHeaderLength < data.length then .error .tooLong
  else fileRange dfcCmdWriteData fileNo offset data.length data

def dfcCommandWriteRecord (fileNo : UInt8) (offset : ℕ) (data : List UInt8) (isoChaining : Bool) :
    Except DfcCommandError DfcCommand :=
  if dfcCommandMaxData - dfcEv2FileHeaderLength < data.length then .error .tooLong
  else fileRange (if isoChaining then dfcCmdWriteRecordIso else dfcCmdWriteRecord) fileNo offset
    data.length data

def dfcCommandUpdateRecord (fileNo : UInt8) (recordNo offset : ℕ) (data : List UInt8)
    (isoChaining : Bool) : Except DfcCommandError DfcCommand :=
  if validFileNumber fileNo = false then .error .invalid
  else if dfcCommandUint24Max < recordNo ∨ dfcCommandUint24Max < offset ∨
      dfcCommandUint24Max < data.length then .error .invalid
  else
    let cmd := if isoChaining then dfcCmdUpdateRecordIso else dfcCmdUpdateRecord
    ((((Builder.start cmd).putByte fileNo).putU24 recordNo).putU24 offset).putU24 data.length
      |>.put data |>.finish

structure DfcEv2CommandMetadata where
  file : Bool := false
  fileRead : Bool := false
  targetsFile : Bool := false
  supportsEffectivePlain : Bool := false
  readerBypass : Bool := false
  emulatorBypass : Bool := false
  encryptedHeaderLength : Option ℕ := none
  deriving Repr, DecidableEq

/-- What follows from the command a file command is a variant of. -/
def ev2FileCommandMetadata (base : UInt8) : DfcEv2CommandMetadata :=
  if base = dfcCmdReadData ∨ base = dfcCmdReadRecords ∨ base = dfcCmdGetValue then
    { file := true, fileRead := true, targetsFile := true, supportsEffectivePlain := true }
  else if base = dfcCmdWriteData ∨ base = dfcCmdWriteRecord then
    { file := true, targetsFile := true, supportsEffectivePlain := true
      encryptedHeaderLength := some dfcEv2FileHeaderLength }
  else if base = dfcCmdUpdateRecord then
    { file := true, targetsFile := true, supportsEffectivePlain := true
      encryptedHeaderLength := some dfcEv2UpdateRecordHeaderLength }
  else if base = dfcCmdCredit ∨ base = dfcCmdDebit ∨ base = dfcCmdLimitedCredit then
    { file := true, targetsFile := true, supportsEffectivePlain := true
      encryptedHeaderLength := some dfcEv2ValueHeaderLength }
  else if base = dfcCmdGetFileCounters then { targetsFile := true }
  else if base = dfcCmdChangeFileSettings then
    { targetsFile := true, supportsEffectivePlain := true
      encryptedHeaderLength := some dfcEv2ChangeFileSettingsHeaderLength }
  else {}

def dfcEv2CommandMetadata (command : UInt8) : DfcEv2CommandMetadata :=
  let metadata := ev2FileCommandMetadata (dfcFileCommandBase command)
  if command = dfcCmdSetConfiguration then
    { metadata with encryptedHeaderLength := some dfcEv2SetConfigurationHeaderLength }
  else if command = dfcCmdCreateTransactionMacFile then
    { metadata with encryptedHeaderLength := some dfcEv2CreateTransactionMacHeaderLength }
  else if command = dfcCmdChangeKeyEv2 then
    { metadata with encryptedHeaderLength := some dfcEv2ChangeKeyHeaderLength }
  else if command = dfcCmdChangeKeySettings then
    { metadata with encryptedHeaderLength := some 0 }
  else if command = dfcCmdAdditionalFrame ∨ command = dfcCmdAuthenticateEv2First ∨
      command = dfcCmdAuthenticateEv2NonFirst ∨ command = dfcCmdCreateDelegatedApplication then
    { metadata with readerBypass := true, emulatorBypass := true }
  else if command = dfcCmdAuthenticateLegacy ∨ command = dfcCmdAuthenticateIso ∨
      command = dfcCmdAuthenticateAes then
    { metadata with emulatorBypass := true }
  else metadata

def isFileRead (ins : UInt8) : Bool := (dfcEv2CommandMetadata ins).fileRead

def isFileCommand (ins : UInt8) : Bool := (dfcEv2CommandMetadata ins).file

def responseIsAlwaysFull (ins : UInt8) : Bool := ins == dfcCmdGetCardUid

/-- Clear head of a command whose data field a Full file enciphers. -/
def fileHeaderLength (ins : UInt8) : Option ℕ :=
  if isFileCommand ins ∧ isFileRead ins = false then
    (dfcEv2CommandMetadata ins).encryptedHeaderLength
  else none

/-- Clear head of a command whose data field EV2 enciphers whatever the file says. -/
def ev2AlwaysEncryptedHeader (ins : UInt8) : Option ℕ :=
  if isFileCommand ins then none else (dfcEv2CommandMetadata ins).encryptedHeaderLength

def commandRequiresResponseData (command : DfcCommand) : Bool :=
  command.ins == dfcCmdGetValue || responseIsAlwaysFull command.ins ||
    command.ins == dfcCmdReadRecords || command.ins == dfcCmdReadRecordsIso ||
    ((command.ins == dfcCmdReadData || command.ins == dfcCmdReadDataIso) &&
      decide (dfcEv2FileHeaderLength ≤ command.data.length) &&
      (command.data.getD 4 0 != 0 || command.data.getD 5 0 != 0 || command.data.getD 6 0 != 0))

def isSpecialSuccess (ins status : UInt8) : Bool :=
  status == dfcStatusSpecialSuccess &&
    (ins == dfcCmdReadSignature || ins == dfcCmdPrepareProximityCheck ||
      ins == dfcCmdProximityCheck || ins == dfcCmdVerifyProximityCheck)

def usesNativeCommandChaining (ins : UInt8) : Bool :=
  ins == dfcCmdWriteData || ins == dfcCmdWriteRecord || ins == dfcCmdUpdateRecord

inductive DfcReaderStatus where
  | ok | pending | invalid | bufferTooSmall | protocolError | integrityError | cardError
  | unsupported
  deriving Repr, DecidableEq

inductive DfcReaderFraming where
  | iso7816 | native
  deriving Repr, DecidableEq

/-- Session keys of an EV2 authentication. -/
structure DfcEv2SessionKeys where
  encryptionKey : List UInt8
  macKey : List UInt8
  encryptionKeyLength : encryptionKey.length = dfcAesKeyLength
  macKeyLength : macKey.length = dfcAesKeyLength

/-- What a session holds of its authentication. The two families share storage. -/
inductive DfcReaderKeys where
  | none
  | native (sm : DfcSecureMessaging)
  | ev2 (keys : DfcEv2SessionKeys)

structure DfcReaderSession where
  keys : DfcReaderKeys := .none
  keyNo : UInt8 := 0
  selectedApplicationIsPicc : Bool := true
  ev2TransactionIdentifier : List UInt8 := List.replicate dfcEv2TransactionIdentifierLength 0
  ev2CommandCounter : UInt16 := 0

def dfcReaderSessionClear (session : DfcReaderSession) : DfcReaderSession :=
  { selectedApplicationIsPicc := session.selectedApplicationIsPicc }

def DfcReaderSession.isLegacy (session : DfcReaderSession) : Bool :=
  match session.keys with
  | .native sm => sm.cipher == .legacy
  | _ => false

def DfcReaderSession.isEv2 (session : DfcReaderSession) : Bool :=
  match session.keys with
  | .ev2 _ => true
  | _ => false

inductive ReaderPhase where
  | start | commandFrames | response | done
  deriving Repr, DecidableEq

/-- How the final answer is checked and unwrapped. -/
inductive ResponsePlan where
  | plain | ev1Cmac | ev1GetVersion | ev1Decrypt | d40Mac | d40Decrypt | ev2Plain | ev2Mac
  | ev2MacDecrypt
  deriving Repr, DecidableEq

inductive StreamKind where
  | writeData | writeRecord | updateRecord
  deriving Repr, DecidableEq

/-- The rest of a streamed write: the caller's octets, and how many of them commands were made
of. -/
structure DfcReaderStream where
  data : List UInt8
  offset : ℕ := 0
  baseOffset : ℕ
  recordNumber : ℕ
  fileNumber : UInt8
  commMode : UInt8
  kind : StreamKind

structure DfcReaderExchange where
  session : DfcReaderSession
  framing : DfcReaderFraming
  phase : ReaderPhase := .start
  ins : UInt8 := 0
  commMode : UInt8 := 0
  responsePlan : ResponsePlan := .plain
  status : UInt8 := 0
  invalidatesSession : Bool := false
  selectsPicc : Bool := false
  specialSuccess : Bool := false
  requiresResponseData : Bool := false
  frame : List UInt8 := []
  frameOffset : ℕ := 0
  firstFrameLen : ℕ := 0
  commandFrameLen : ℕ := 0
  stream : Option DfcReaderStream := none
  data : List UInt8 := []

structure DfcReaderOptions where
  commMode : UInt8 := dfcCommPlain
  headerLen : Option UInt8 := none

/-- Why an exchange could not begin, and the session that leaves. -/
structure ReaderFailure where
  session : DfcReaderSession
  status : DfcReaderStatus

namespace DfcReaderExchange

def fail (ex : DfcReaderExchange) (status : DfcReaderStatus) : ReaderFailure :=
  { session := ex.session, status }

/-- The session after an operation under its native keys. -/
def withSm (ex : DfcReaderExchange) (sm : DfcSecureMessaging) : DfcReaderExchange :=
  { ex with session := { ex.session with keys := .native sm } }

/-- `set_frame`. -/
def setFrame (ex : DfcReaderExchange) (octets : List UInt8) :
    Except ReaderFailure DfcReaderExchange :=
  if dfcReaderMaxCommand < octets.length then .error (ex.fail .invalid)
  else .ok { ex with frame := octets }

/-- `clear_command_transients`. -/
def clearCommandTransients (ex : DfcReaderExchange) : DfcReaderExchange :=
  { ex with frame := [], frameOffset := 0, firstFrameLen := 0, commandFrameLen := 0 }

end DfcReaderExchange

def invalidatesSession (session : DfcReaderSession) (command : DfcCommand) : Bool :=
  if command.ins = dfcCmdSelectApplication ∨ command.ins = dfcCmdDeleteApplication then true
  else if command.ins = dfcCmdFormatPicc then session.selectedApplicationIsPicc
  else if command.ins = dfcCmdChangeKey then
    decide (0 < command.data.length) &&
      command.data.getD 0 0 &&& 0x3F == session.keyNo &&& 0x3F
  else if command.ins = dfcCmdChangeKeyEv2 then
    session.isEv2 && decide (1 < command.data.length) &&
      command.data.getD 0 0 &&& dfcKeySetNumberMask == 0 && command.data.getD 1 0 == session.keyNo
  else false

section
variable (des : BlockCipher 8) (aes : BlockCipher 16)

/-- The body of a command in the session's MAC or enciphered form. -/
def wrapCommandBody (sm : DfcSecureMessaging) (commMode : UInt8) (head body : List UInt8)
    (outCapacity : ℕ) : List UInt8 × DfcSecureMessaging :=
  if commMode = dfcCommMac then
    ((dfcSecureMessagingWrapD40CommandMac des sm body outCapacity).getD [], sm)
  else dfcSecureMessagingWrap des aes sm dfcCommEnciphered head body outCapacity

/-- `prepare_wrapped_file_write`: the head stays clear, the body is wrapped. -/
def prepareWrappedFileWrite (ex : DfcReaderExchange) (sm : DfcSecureMessaging)
    (command : DfcCommand) (commMode : UInt8) (headerLen : Option ℕ) :
    Except ReaderFailure DfcReaderExchange := do
  let headerLen ← orFail (ex.fail .invalid) headerLen
  refuseIf (dfcReaderMaxClearHeaderLength < headerLen ∨ command.data.length < headerLen)
    (ex.fail .invalid)
  let head := command.data.take headerLen
  let body := command.data.drop headerLen
  let wireLen ← orFail (ex.fail .invalid)
    (dfcSecureMessagingCommandPayloadLength (some sm) commMode body.length)
  refuseIf (dfcReaderMaxCommand - headerLen < wireLen) (ex.fail .invalid)
  let (wrapped, next) := wrapCommandBody des aes sm commMode (command.ins :: head) body
    (dfcReaderMaxCommand - headerLen)
  refuseIf (wrapped = [] ∨ wrapped.length ≠ wireLen) ((ex.withSm next).fail .integrityError)
  return { ex.withSm next with frame := head ++ wrapped }

/-- `prepare_legacy`. -/
def prepareLegacy (ex : DfcReaderExchange) (sm : DfcSecureMessaging) (command : DfcCommand)
    (headerLen : Option ℕ) : Except ReaderFailure DfcReaderExchange :=
  let ins := command.ins
  if ins = dfcCmdSetConfiguration then
    if ex.commMode ≠ dfcCommEnciphered then .error (ex.fail .invalid)
    else prepareWrappedFileWrite des aes ex sm command dfcCommEnciphered
      (some dfcEv2SetConfigurationHeaderLength)
  else if ins = dfcCmdCommitReaderId then
    if ex.commMode ≠ dfcCommMac then .error (ex.fail .invalid)
    else prepareWrappedFileWrite des aes ex sm command dfcCommMac (some 0)
  else if isFileCommand ins ∧ isFileRead ins = false ∧ ex.commMode ≠ dfcCommPlain then
    prepareWrappedFileWrite des aes ex sm command ex.commMode headerLen
  else
    let plan :=
      if responseIsAlwaysFull ins ∨ (isFileRead ins ∧ ex.commMode = dfcCommEnciphered) then
        ResponsePlan.d40Decrypt
      else if isFileRead ins ∧ ex.commMode = dfcCommMac then .d40Mac else ex.responsePlan
    { ex with responsePlan := plan }.setFrame command.data

/-- `ev1_cmac_segments`: the code becomes the next chaining value. -/
def ev1Cmac (sm : DfcSecureMessaging) (message : List UInt8) :
    List UInt8 × DfcSecureMessaging :=
  let full := sm.fullCmac des aes message
  (full, sm.setIv full)

/-- The cryptogram of a ChangeKey is already chained from the session's value; its last block
is the value the card goes on with. -/
def prepareChangeKeyEv1 (ex : DfcReaderExchange) (sm : DfcSecureMessaging) (command : DfcCommand) :
    Except ReaderFailure DfcReaderExchange :=
  if command.data.length ≤ 1 ∨ (command.data.length - 1) % sm.blockSize ≠ 0 then
    .error (ex.fail .invalid)
  else (ex.withSm (sm.setIv (command.data.drop (command.data.length - sm.blockSize)))).setFrame
    command.data

/-- `prepare_ev1`. -/
def prepareEv1 (ex : DfcReaderExchange) (sm : DfcSecureMessaging) (command : DfcCommand)
    (headerLen : Option ℕ) : Except ReaderFailure DfcReaderExchange :=
  let ins := command.ins
  let planned : DfcReaderExchange :=
    { ex with responsePlan := if ins = dfcCmdGetVersion then .ev1GetVersion else .ev1Cmac }
  if dfcSecureMessagingAppliesEv1 sm.cipher ins = false then ex.setFrame command.data
  else if dfcReaderMaxCommand < command.data.length then .error (ex.fail .invalid)
  else if ins = dfcCmdSetConfiguration then
    if ex.commMode ≠ dfcCommEnciphered then .error (ex.fail .invalid)
    else prepareWrappedFileWrite des aes planned sm command dfcCommEnciphered
      (some dfcEv2SetConfigurationHeaderLength)
  else if ins = dfcCmdChangeKey then prepareChangeKeyEv1 planned sm command
  else if isFileCommand ins ∧ isFileRead ins = false ∧ ex.commMode = dfcCommEnciphered then
    prepareWrappedFileWrite des aes planned sm command dfcCommEnciphered headerLen
  else
    let transmitsMac := ex.commMode == dfcCommMac && dfcSecureMessagingEv1TransmitsCommandMac ins
    if transmitsMac ∧ dfcReaderMaxCommand - command.data.length < dfcWorkerCmacSize then
      .error (ex.fail .invalid)
    else
      let (full, next) := ev1Cmac des aes sm (ins :: command.data)
      if transmitsMac then
        (planned.withSm next).setFrame (command.data ++ full.take dfcWorkerCmacSize)
      else
        let plan := if responseIsAlwaysFull ins ∨
            (isFileRead ins ∧ ex.commMode = dfcCommEnciphered) then ResponsePlan.ev1Decrypt
          else planned.responsePlan
        { planned.withSm next with responsePlan := plan }.setFrame command.data

/-- The data field of a command in the form EV2 sends it, before the MAC. -/
def ev2SecuredField (ex : DfcReaderExchange) (keys : DfcEv2SessionKeys) (command : DfcCommand)
    (encryptedHeader : Option ℕ) : Except ReaderFailure (List UInt8) :=
  match encryptedHeader, isFileRead command.ins with
  | some header, false => do
    refuseIf (command.data.length ≤ header) (ex.fail .invalid)
    let wireLen ← orFail (ex.fail .invalid) (dfcSecureMessagingCommandPayloadLength none
      dfcCommEnciphered (command.data.length - header))
    refuseIf (dfcReaderMaxCommand < header + wireLen) (ex.fail .invalid)
    let encrypted ← orFail (ex.fail .integrityError) (dfcEv2EncryptData aes keys.encryptionKey
      .command ex.session.ev2CommandCounter.toNat ex.session.ev2TransactionIdentifier
      (command.data.drop header) (dfcReaderMaxCommand - header - dfcWireMacLength))
    return command.data.take header ++ encrypted
  | _, _ => do
    let wireLen ← orFail (ex.fail .invalid)
      (dfcSecureMessagingCommandPayloadLength none dfcCommMac command.data.length)
    refuseIf (dfcReaderMaxCommand < wireLen) (ex.fail .invalid)
    return command.data

/-- `prepare_ev2`. -/
def prepareEv2 (ex : DfcReaderExchange) (keys : DfcEv2SessionKeys) (command : DfcCommand)
    (headerLen : Option ℕ) : Except ReaderFailure DfcReaderExchange :=
  let ins := command.ins
  if (dfcEv2CommandMetadata ins).readerBypass then ex.setFrame command.data
  else if (dfcEv2CommandMetadata ins).supportsEffectivePlain ∧ ex.commMode = dfcCommPlain then
    if ex.session.ev2CommandCounter = 0xFFFF then .error (ex.fail .protocolError)
    else { ex with responsePlan := .ev2Plain }.setFrame command.data
  else
    let encryptedHeader := (ev2AlwaysEncryptedHeader ins).or
      (if ex.commMode = dfcCommEnciphered then headerLen else none)
    let plan := if responseIsAlwaysFull ins ∨
        (isFileRead ins ∧ ex.commMode = dfcCommEnciphered) then ResponsePlan.ev2MacDecrypt
      else .ev2Mac
    do
      let secured ← ev2SecuredField aes ex keys command encryptedHeader
      let mac ← orFail (ex.fail .integrityError) (dfcEv2Mac aes keys.macKey ins
        ex.session.ev2CommandCounter.toNat ex.session.ev2TransactionIdentifier secured)
      { ex with responsePlan := plan }.setFrame (secured ++ mac)

/-- The command under the keys of the session. -/
def prepareCommand (ex : DfcReaderExchange) (command : DfcCommand) (headerLen : Option ℕ) :
    Except ReaderFailure DfcReaderExchange :=
  match ex.session.keys with
  | .none => ex.setFrame command.data
  | .native sm =>
    if sm.cipher = .legacy then prepareLegacy des aes ex sm command headerLen
    else prepareEv1 des aes ex sm command headerLen
  | .ev2 keys => prepareEv2 aes ex keys command headerLen

/-- What `reader_exchange_begin` refuses before it touches anything. -/
def readerExchangeAdmits (session : DfcReaderSession) (command : DfcCommand)
    (options : DfcReaderOptions) : Bool :=
  decide (command.data.length ≤ dfcCommandMaxData) && commModeIsValid options.commMode &&
    (options.headerLen.all fun length => decide (length.toNat ≤ dfcReaderMaxClearHeaderLength)) &&
    command.ins != dfcCmdAuthenticateLegacy && command.ins != dfcCmdAuthenticateIso &&
    command.ins != dfcCmdAuthenticateAes && command.ins != dfcCmdAuthenticateEv2First &&
    command.ins != dfcCmdAuthenticateEv2NonFirst &&
    (match session.keys with
      | .none => true
      | _ => command.ins != dfcCmdCommitReaderId || options.commMode == dfcCommMac)

/-- The exchange before its command is put under the session. -/
def freshExchange (session : DfcReaderSession) (framing : DfcReaderFraming) (command : DfcCommand)
    (commMode : UInt8) : DfcReaderExchange where
  session := session
  framing := framing
  ins := command.ins
  commMode := commMode
  requiresResponseData := commandRequiresResponseData command
  invalidatesSession := invalidatesSession session command
  selectsPicc := command.ins == dfcCmdSelectApplication && command.data == [0, 0, 0]

/-- A native write longer than a frame is sent in several. -/
def DfcReaderExchange.chainFrames (ex : DfcReaderExchange) : DfcReaderExchange :=
  if ex.session.isEv2 = false ∧ usesNativeCommandChaining ex.ins ∧
      dfcEv1MaxFramePayload < ex.frame.length then
    { ex with firstFrameLen := dfcEv1MaxFramePayload, commandFrameLen := dfcEv1MaxFramePayload }
  else ex

/-- `reader_exchange_begin`. Whether the buffers of an earlier piece are cleared makes no
difference to what can be read of them. -/
def readerExchangeBegin (session : DfcReaderSession) (framing : DfcReaderFraming)
    (command : DfcCommand) (options : DfcReaderOptions) :
    Except ReaderFailure DfcReaderExchange := do
  refuseIf (readerExchangeAdmits session command options = false)
    { session := session, status := .invalid }
  let ex ← prepareCommand des aes (freshExchange session framing command options.commMode) command
    ((options.headerLen.map UInt8.toNat).or (fileHeaderLength command.ins))
  return ex.chainFrames

/-- The octets the next command of a stream carries. -/
def DfcReaderStream.chunk (stream : DfcReaderStream) : List UInt8 :=
  (stream.data.drop stream.offset).take dfcReaderStreamChunk

/-- The command of the next piece of a stream. -/
def DfcReaderStream.command (stream : DfcReaderStream) : Except DfcCommandError DfcCommand :=
  let offset := stream.baseOffset + stream.offset
  match stream.kind with
  | .writeData => dfcCommandWriteData stream.fileNumber offset stream.chunk
  | .writeRecord => dfcCommandWriteRecord stream.fileNumber offset stream.chunk false
  | .updateRecord =>
    dfcCommandUpdateRecord stream.fileNumber stream.recordNumber offset stream.chunk false

/-- `begin_stream_chunk`. -/
def beginStreamChunk (session : DfcReaderSession) (framing : DfcReaderFraming)
    (stream : DfcReaderStream) : Except ReaderFailure DfcReaderExchange :=
  match stream.command with
  | .error _ => .error { session := session, status := .invalid }
  | .ok command => do
    let ex ← readerExchangeBegin des aes session framing command { commMode := stream.commMode }
    return { ex with
      stream := some { stream with offset := stream.offset + stream.chunk.length } }

/-- `begin_stream`. -/
def beginStream (session : DfcReaderSession) (framing : DfcReaderFraming) (kind : StreamKind)
    (fileNumber : UInt8) (recordNumber offset : ℕ) (data : List UInt8) (commMode : UInt8) :
    Except ReaderFailure DfcReaderExchange :=
  if commModeIsValid commMode = false ∨ dfcCommandUint24Max < offset ∨
      dfcMaxFileData < data.length ∨ dfcCommandUint24Max - offset < data.length ∨
      dfcCommandUint24Max < recordNumber then .error { session := session, status := .invalid }
  else beginStreamChunk des aes session framing
    { data := data, baseOffset := offset, recordNumber := recordNumber
      fileNumber := fileNumber, commMode := commMode, kind := kind }

def dfcReaderWriteDataBegin (session : DfcReaderSession) (framing : DfcReaderFraming)
    (fileNumber : UInt8) (offset : ℕ) (data : List UInt8) (commMode : UInt8) :
    Except ReaderFailure DfcReaderExchange :=
  beginStream des aes session framing .writeData fileNumber 0 offset data commMode

def dfcReaderWriteRecordBegin (session : DfcReaderSession) (framing : DfcReaderFraming)
    (fileNumber : UInt8) (offset : ℕ) (data : List UInt8) (commMode : UInt8) :
    Except ReaderFailure DfcReaderExchange :=
  beginStream des aes session framing .writeRecord fileNumber 0 offset data commMode

def dfcReaderUpdateRecordBegin (session : DfcReaderSession) (framing : DfcReaderFraming)
    (fileNumber : UInt8) (recordNumber offset : ℕ) (data : List UInt8) (commMode : UInt8) :
    Except ReaderFailure DfcReaderExchange :=
  beginStream des aes session framing .updateRecord fileNumber recordNumber offset data commMode

/-- Octets a frame takes under a framing. -/
def emitRequiredCapacity (framing : DfcReaderFraming) (dataLen : ℕ) : ℕ :=
  match framing with
  | .iso7816 => if dataLen = 0 then 5 else dataLen + dfcCommandApduOverhead
  | .native => dataLen + 1

/-- The octets of a frame. -/
def frameOctets (framing : DfcReaderFraming) (ins : UInt8) (data : List UInt8) : List UInt8 :=
  match framing with
  | .iso7816 => [dfcIso7816ClaWrapper, ins, 0, 0, UInt8.ofNat data.length] ++ data ++
      (if data = [] then [] else [0])
  | .native => ins :: data

/-- `parse_answer`: the status and the data of an answer. -/
def parseAnswer (framing : DfcReaderFraming) (response : List UInt8) :
    Option (UInt8 × List UInt8) :=
  match framing with
  | .iso7816 =>
    if response.length < 2 ∨ response.getD (response.length - 2) 0 ≠ wrappedSw1 then none
    else some (response.getD (response.length - 1) 0, response.take (response.length - 2))
  | .native => match response with
    | [] => none
    | status :: data => some (status, data)

/-- What a step leaves: the exchange, the result and the octets to send. -/
structure StepResult where
  exchange : DfcReaderExchange
  status : DfcReaderStatus
  out : List UInt8 := []

namespace DfcReaderExchange

/-- `append_data`. -/
def appendData (ex : DfcReaderExchange) (octets : List UInt8) : Option DfcReaderExchange :=
  if dfcReaderMaxResponse - ex.data.length < octets.length then none
  else some { ex with data := ex.data ++ octets }

/-- A terminal result: the command is not retryable any more. -/
def finishCommand (ex : DfcReaderExchange) (status : DfcReaderStatus) : StepResult :=
  { exchange := { ex.clearCommandTransients with phase := .done }, status }

def clearSession (ex : DfcReaderExchange) : DfcReaderExchange :=
  { ex with session := dfcReaderSessionClear ex.session }

/-- `card_error`. -/
def cardError (ex : DfcReaderExchange) : StepResult :=
  let ex' := if ex.data ≠ [] ∨ ex.session.isLegacy = false then ex.clearSession else ex
  ex'.finishCommand (if ex.data ≠ [] then .protocolError else .cardError)

/-- `emit`, once the capacity is known to be there. -/
def emit (ex : DfcReaderExchange) (ins : UInt8) (octets : List UInt8) (cap : ℕ) : StepResult :=
  if dfcCommandMaxData < octets.length ∨ cap < emitRequiredCapacity ex.framing octets.length then
    { exchange := ex, status := .bufferTooSmall }
  else { exchange := ex, status := .pending, out := frameOctets ex.framing ins octets }

/-- Octets the next frame of the command may carry. -/
def frameLimit (ex : DfcReaderExchange) : ℕ :=
  if ex.frameOffset = 0 ∧ ex.firstFrameLen ≠ 0 then ex.firstFrameLen
  else if ex.commandFrameLen ≠ 0 then ex.commandFrameLen else dfcCommandMaxData

/-- `emit_command_frame`. -/
def emitCommandFrame (ex : DfcReaderExchange) (cap : ℕ) : StepResult :=
  let chunk := (ex.frame.drop ex.frameOffset).take ex.frameLimit
  let ins := if ex.frameOffset = 0 then ex.ins else dfcCmdAdditionalFrame
  if cap < emitRequiredCapacity ex.framing chunk.length then
    { exchange := ex, status := .bufferTooSmall }
  else
    let sent := ex.emit ins chunk cap
    if sent.status ≠ .pending then sent
    else if ex.frameOffset + chunk.length < ex.frame.length then
      { sent with exchange :=
          { ex with frameOffset := ex.frameOffset + chunk.length, phase := .commandFrames } }
    else { sent with exchange := { ex with frame := [], frameOffset := 0, phase := .response } }

end DfcReaderExchange

/-- `verify_ev1_frame`: the CMAC that closes the octets from `frameStart` on. -/
def verifyEv1Frame (ex : DfcReaderExchange) (sm : DfcSecureMessaging) (frameStart : ℕ)
    (status : UInt8) : DfcReaderExchange × DfcReaderStatus :=
  let body := (ex.data.drop frameStart).take (ex.data.length - frameStart - dfcWorkerCmacSize)
  let (full, next) := ev1Cmac des aes sm (body ++ [status])
  if ex.data.length - frameStart < dfcWorkerCmacSize then (ex.clearSession, .protocolError)
  else if ex.data.drop (frameStart + body.length) = full.take dfcWorkerCmacSize then
    ({ ex.withSm next with data := ex.data.take (frameStart + body.length) }, .ok)
  else (ex.clearSession, .integrityError)

/-- The answer to a read under a legacy session or an enciphered one under EV1. -/
def finishUnwrapped (ex : DfcReaderExchange) (sm : DfcSecureMessaging) : StepResult :=
  let mac := ex.responsePlan == .d40Mac
  if ex.data = [] ∧ mac = false then ex.finishCommand .ok
  else if mac ∧ ex.requiresResponseData ∧ ex.data.length = dfcSmLegacyMacLength then
    { ex.clearSession with data := [] }.finishCommand .protocolError
  else if dfcSmMaxCryptoSize < ex.data.length then ex.clearSession.finishCommand .protocolError
  else
    let (unwrapped, next) := if mac then
        (d40MacVerify des sm ex.data dfcReaderMaxResponse, sm)
      else dfcSecureMessagingUnwrap des aes sm dfcCommEnciphered ex.status ex.data
        dfcReaderMaxResponse
    match unwrapped with
    | none => ex.clearSession.finishCommand .integrityError
    | some clear => { ex.withSm next with data := clear }.finishCommand .ok

/-- The answer to a command under EV2 that carries a MAC. -/
def finishEv2 (ex : DfcReaderExchange) (keys : DfcEv2SessionKeys) : StepResult :=
  let session := ex.session
  let next := session.ev2CommandCounter + 1
  let body := ex.data.take (ex.data.length - dfcWireMacLength)
  if ex.data.length < dfcWireMacLength ∨ session.ev2CommandCounter = 0xFFFF then
    ex.clearSession.finishCommand .protocolError
  else if dfcEv2Mac aes keys.macKey ex.status next.toNat session.ev2TransactionIdentifier body ≠
      some (ex.data.drop body.length) then
    ex.clearSession.finishCommand .integrityError
  else
    let counted := { ex with
      session := { session with ev2CommandCounter := next }
      data := body }
    if ex.responsePlan = .ev2MacDecrypt ∧ body ≠ [] then
      match dfcEv2DecryptData aes keys.encryptionKey .response next.toNat
        session.ev2TransactionIdentifier body false with
      | none => counted.clearSession.finishCommand .integrityError
      | some clear => { counted with data := clear }.finishCommand .ok
    else counted.finishCommand .ok

/-- The check of a complete answer by its plan. A plan that does not belong to the session's
keys is refused. -/
def finishByPlan (ex : DfcReaderExchange) : StepResult :=
  match ex.responsePlan, ex.session.keys with
  | .plain, _ => ex.finishCommand .ok
  | .ev2Plain, _ =>
    { ex with session :=
        { ex.session with ev2CommandCounter := ex.session.ev2CommandCounter + 1 } }.finishCommand
      .ok
  | .ev1Cmac, .native sm | .ev1GetVersion, .native sm =>
    let (verified, status) := verifyEv1Frame des aes ex sm 0 ex.status
    verified.finishCommand status
  | .ev1Decrypt, .native sm | .d40Decrypt, .native sm | .d40Mac, .native sm =>
    finishUnwrapped des aes ex sm
  | .ev2Mac, .ev2 keys | .ev2MacDecrypt, .ev2 keys => finishEv2 aes ex keys
  | _, _ => ex.finishCommand .invalid

/-- `finish_answer`: the reassembled answer is complete. -/
def finishAnswer (ex : DfcReaderExchange) : StepResult :=
  let ev2Plan := ex.responsePlan == .ev2Plain || ex.responsePlan == .ev2Mac ||
    ex.responsePlan == .ev2MacDecrypt
  if ex.specialSuccess ∧ ev2Plan = false then ex.finishCommand .ok
  else if ex.status ≠ dfcStatusOk ∧ ex.specialSuccess = false then ex.cardError
  else if ex.invalidatesSession then
    let cleared := ex.clearSession
    { cleared with session := { cleared.session with
        selectedApplicationIsPicc := if ex.ins = dfcCmdSelectApplication then ex.selectsPicc
          else cleared.session.selectedApplicationIsPicc } }.finishCommand .ok
  else finishByPlan des aes ex

/-- An answer while frames of the command are still to be sent: the card asks for the next
one, or the command ends. -/
def stepCommandFrames (ex : DfcReaderExchange) (status : UInt8) (data : List UInt8) (cap : ℕ) :
    StepResult :=
  if status ≠ dfcCmdAdditionalFrame ∨ data ≠ [] then
    let retired : DfcReaderExchange :=
      { ex with frame := [], frameOffset := 0, phase := .response, status := status }
    match retired.appendData data with
    | none => retired.clearSession.finishCommand .protocolError
    | some answered =>
      if status = dfcCmdAdditionalFrame then answered.finishCommand .protocolError
      else answered.cardError
  else ex.emitCommandFrame cap

/-- An answer to GetVersion under EV1: every continuation advances the chaining value. -/
def stepGetVersion (ex : DfcReaderExchange) (status : UInt8) (data : List UInt8) (cap : ℕ) :
    StepResult :=
  match ex.appendData data, ex.session.keys with
  | none, _ => ex.clearSession.finishCommand .protocolError
  | some answered, .native sm =>
    if status ≠ dfcStatusOk ∧ status ≠ dfcCmdAdditionalFrame then answered.cardError
    else if status = dfcStatusOk then
      let (verified, result) := verifyEv1Frame des aes answered sm ex.data.length status
      verified.finishCommand result
    else (answered.withSm (ev1Cmac des aes sm [dfcCmdAdditionalFrame]).2).emit
      dfcCmdAdditionalFrame [] cap
  | some answered, _ => answered.finishCommand .integrityError

/-- An answer once the whole command is sent. -/
def stepResponse (ex : DfcReaderExchange) (status : UInt8) (data : List UInt8) (cap : ℕ) :
    StepResult :=
  if status = dfcCmdAdditionalFrame ∧ cap < emitRequiredCapacity ex.framing 0 then
    { exchange := ex, status := .bufferTooSmall }
  else
    let ex := { ex with status := status }
    if ex.responsePlan = .ev1GetVersion then stepGetVersion des aes ex status data cap
    else
      let ex := { ex with specialSuccess := ex.specialSuccess || isSpecialSuccess ex.ins status }
      match ex.appendData data with
      | none => ex.clearSession.finishCommand .protocolError
      | some answered =>
        if status = dfcCmdAdditionalFrame then answered.emit dfcCmdAdditionalFrame [] cap
        else finishAnswer des aes answered

/-- `step_command`. -/
def stepCommand (ex : DfcReaderExchange) (response : List UInt8) (cap : ℕ) : StepResult :=
  match ex.phase with
  | .done => { exchange := ex, status := .invalid }
  | .start =>
    if dfcCommandMaxData < ex.frame.length ∧ ex.firstFrameLen = 0 ∧ ex.session.isEv2 = false then
      ex.finishCommand .invalid
    else ex.emitCommandFrame cap
  | .commandFrames => match parseAnswer ex.framing response with
    | none => ex.finishCommand .protocolError
    | some (status, data) => stepCommandFrames ex status data cap
  | .response => match parseAnswer ex.framing response with
    | none => ex.finishCommand .protocolError
    | some (status, data) => stepResponse des aes ex status data cap

/-- `next_stream_emit_capacity`: what the first frame of the next command will need, found out
before the session moves on. -/
def nextStreamEmitCapacity (ex : DfcReaderExchange) (stream : DfcReaderStream) : ℕ :=
  let headerLen := if stream.kind = .updateRecord then dfcEv2UpdateRecordHeaderLength
    else dfcEv2FileHeaderLength
  let bodyLen := stream.chunk.length
  let wireLen := match ex.session.keys with
    | .none => bodyLen
    | .native sm =>
      if sm.cipher = .legacy ∧ stream.commMode = dfcCommPlain then bodyLen
      else (dfcSecureMessagingCommandPayloadLength (some sm) stream.commMode bodyLen).getD 0
    | .ev2 _ =>
      if stream.commMode = dfcCommPlain then bodyLen
      else (dfcSecureMessagingCommandPayloadLength none stream.commMode bodyLen).getD 0
  let frameLen := headerLen + wireLen
  emitRequiredCapacity ex.framing
    (if ex.session.isEv2 = false ∧ dfcEv1MaxFramePayload < frameLen then dfcEv1MaxFramePayload
      else frameLen)

/-- Whether the answer ends a command of a stream that has more to send than the buffer for
the next frame holds. -/
def streamNeedsRoom (ex : DfcReaderExchange) (response : List UInt8) (cap : ℕ) : Bool :=
  match ex.phase, ex.stream, parseAnswer ex.framing response with
  | .response, some stream, some (status, _) =>
    decide (stream.offset < stream.data.length) && status != dfcCmdAdditionalFrame &&
      (status == dfcStatusOk || isSpecialSuccess ex.ins status) &&
      decide (cap < nextStreamEmitCapacity ex stream)
  | _, _, _ => false

/-- What becomes of a stream once a command of it has been stepped. -/
def continueStream (stepped : StepResult) (cap : ℕ) : StepResult :=
  let dropped := { stepped.exchange with stream := none }
  match stepped.exchange.stream with
  | none => stepped
  | some stream =>
    if stepped.status ≠ .ok ∨ stream.data.length ≤ stream.offset then
      if stepped.status = .pending ∨ stepped.status = .bufferTooSmall then stepped
      else { stepped with exchange := dropped }
    else match beginStreamChunk des aes dropped.session dropped.framing stream with
      | .error failure =>
        { exchange := { dropped with session := failure.session, phase := .done }
          status := failure.status }
      | .ok next => stepCommand des aes next [] cap

/-- `dfc_reader_step` on the exchange of a command. Without an answer only a first step is
taken. -/
def dfcReaderStep (ex : DfcReaderExchange) (response : Option (List UInt8)) (cap : ℕ) :
    StepResult :=
  if ex.phase = .done ∨ (ex.phase ≠ .start ∧ response = none) then
    { exchange := ex, status := .invalid }
  else if streamNeedsRoom ex (response.getD []) cap then
    { exchange := ex, status := .bufferTooSmall }
  else continueStream des aes (stepCommand des aes ex (response.getD []) cap) cap

end

end DfcCore
