import DfcCore.JournalSettled
import DfcCore.SecureMessaging

/-!
# Commands on file contents under secure messaging

What `dfc_emulator_handle_command` does with a frame that belongs to a data, record or value
command: long writes are gathered from several frames, the payload is taken out of its secure
messaging, the handler runs, the answer is protected and split, and what the command leaves of
the session, the transaction and the rendered file is settled. A session advances its chaining
value while a payload is unwrapped; a failure that can be retried gives the old value back.

Frames of other commands are not handled here. Communication settings are one of three modes.
-/
namespace DfcCore
open Der

abbrev dfcStatusCommandAborted : UInt8 := 0xCA
abbrev dfcSmMaxCipherBlockSize : ℕ := 16
abbrev dfcBytebufMax : ℕ := 256

/-- `DFC_ISO_DEP_RESPONSE_PENDING`: the largest size of the platform. -/
abbrev dfcIsoDepResponsePending : ℕ := 2 ^ 64 - 1

/-- A write that is gathered: the octets so far, and how many there will be. -/
structure CommandChain where
  octets : List UInt8
  expected : ℕ
  deriving Repr, DecidableEq

/-- The emulator with the session's secrets, the write being gathered, the file as it was last
rendered, and whether an authentication or another exchange waits for its next frame. -/
structure NativeCard where
  emulator : DfcEmulator
  secureMessaging : Option DfcSecureMessaging := none
  commandChain : Option CommandChain := none
  sdmReadCache : DfcSdmReadCache := {}
  authenticationPending : Bool := false
  otherWorkPending : Bool := false

/-- What a command meets outside the card: whether the block cipher fails while the operation
is recorded for the transaction MAC, whether memory runs out, and what the random source gives. -/
structure CommandInput where
  transactionMacFails : Bool := false
  allocationFails : Bool := false
  chainAllocationFails : Bool := false
  random : Option Mem := none
  randomRetryable : Bool := false

section
variable (des : BlockCipher 8) (aes : BlockCipher 16)

def dfcSecureMessagingUpdateEv1Command (sm : DfcSecureMessaging) (cmd : UInt8)
    (data : List UInt8) : DfcSecureMessaging :=
  if sm.cipher = .legacy ∨
      (cmd ≠ dfcCmdAdditionalFrame ∧ dfcSecureMessagingAppliesEv1 sm.cipher cmd = false) then sm
  else sm.setIv (sm.fullCmac des aes (cmd :: data))

/-- The data without its MAC, and the session that goes on. -/
def dfcSecureMessagingVerifyEv1TransmittedCommandMac (sm : DfcSecureMessaging) (cmd : UInt8)
    (data : List UInt8) : Option (List UInt8) × DfcSecureMessaging :=
  let plain := data.take (data.length - dfcWorkerCmacSize)
  let full := sm.fullCmac des aes (cmd :: plain)
  if data.length < dfcWorkerCmacSize then (none, sm)
  else if full.take dfcWorkerCmacSize = data.drop plain.length then (some plain, sm.setIv full)
  else (none, sm)

/-- An enciphered body; one that does not decipher is no body. -/
def verifyEncipheredBody (sm : DfcSecureMessaging) (head wrapped : List UInt8) :
    Option (List UInt8) × DfcSecureMessaging :=
  let (clear, next) := dfcSecureMessagingVerifyCommand des aes sm dfcCommEnciphered head wrapped
    dfcEmulatorChainBufferSize
  if clear = [] ∧ wrapped ≠ [] then (none, next) else (some clear, next)

/-- `dfc_emulator_command_unwrap_write_payload` under a native session. -/
def unwrapProtectedPayload (sm : DfcSecureMessaging) (comm : UInt8) (apdu : List UInt8)
    (headerLen : ℕ) : Option (List UInt8) × DfcSecureMessaging :=
  let cmd := apdu.getD 0 0
  let ev1 := dfcSecureMessagingAppliesEv1 sm.cipher cmd
  let wrapped := apdu.drop (1 + headerLen)
  if apdu.length < 1 + headerLen then (none, sm)
  else if ev1 = true ∧ comm = dfcCommMac ∧ dfcSecureMessagingEv1TransmitsCommandMac cmd = true then
    match dfcSecureMessagingVerifyEv1TransmittedCommandMac des aes sm cmd (apdu.drop 1) with
    | (none, next) => (none, next)
    | (some body, next) =>
      if body.length < headerLen then (none, next) else (some (body.drop headerLen), next)
  else if ev1 = true ∧ comm = dfcCommEnciphered then
    verifyEncipheredBody des aes sm (apdu.take (1 + headerLen)) wrapped
  else if ev1 then
    (some wrapped, dfcSecureMessagingUpdateEv1Command des aes sm cmd (apdu.drop 1))
  else if comm = dfcCommPlain then (some wrapped, sm)
  else if comm = dfcCommMac then (d40MacVerify des sm wrapped dfcEmulatorChainBufferSize, sm)
  else verifyEncipheredBody des aes sm (apdu.take (1 + headerLen)) wrapped

/-- `dfc_emulator_file_effective_comm_settings_for_rights` under the file's own settings: plain
where a free right allows the command and no key does. -/
def fileEffectiveCommSettingsForRights (e : DfcEmulator) (file : DfcFile)
    (read write rw : Bool) : UInt8 :=
  let configured := file.commSettings &&& dfcCommModeMask
  let nibbles :=
    [if read then dfcAccessNibble file.accessRights 12 else dfcAccessDeny,
      if write then dfcAccessNibble file.accessRights 8 else dfcAccessDeny,
      if rw then dfcAccessNibble file.accessRights 4 else dfcAccessDeny]
  if dfcEmulatorAuthenticated e = false then configured
  else if nibbles.any (· == dfcAccessFree) = true ∧ nibbles.any (nibbleIsAuthenticated e) = false
  then dfcCommPlain
  else configured

/-- The amount of a value command of an EV1 session. -/
def unwrapEv1Amount (sm : DfcSecureMessaging) (comm cmd : UInt8) (body : List UInt8) :
    Unwrapped Int32 × DfcSecureMessaging :=
  if comm = dfcCommMac ∧ dfcSecureMessagingEv1TransmitsCommandMac cmd = true then
    match dfcSecureMessagingVerifyEv1TransmittedCommandMac des aes sm cmd body with
    | (none, next) => (.integrityError true, next)
    | (some clear, next) =>
      if clear.length < 5 then (.integrityError true, next)
      else (.clear (readInt32Le (body.drop 1)), next)
  else if comm = dfcCommEnciphered then
    if body.length < 9 ∨ dfcSmMaxCipherBlockSize < body.length - 1 then (.lengthError, sm)
    else
      let (clear, next) := dfcSecureMessagingVerifyCommand des aes sm dfcCommEnciphered
        [cmd, body.getD 0 0] (body.drop 1) dfcSmMaxCipherBlockSize
      if clear.length < 4 then (.integrityError true, next)
      else (.clear (readInt32Le clear), next)
  else
    let next := dfcSecureMessagingUpdateEv1Command des aes sm cmd body
    if body.length < 5 then (.lengthError, next) else (.clear (readInt32Le (body.drop 1)), next)

/-- The amount of a value command of a legacy session. -/
def unwrapLegacyAmount (sm : DfcSecureMessaging) (comm cmd : UInt8) (body : List UInt8) :
    Unwrapped Int32 × DfcSecureMessaging :=
  if body.length < 1 ∨ dfcSmMaxCipherBlockSize < body.length - 1 then (.lengthError, sm)
  else if comm = dfcCommMac then
    match d40MacVerify des sm (body.drop 1) dfcSmMaxCipherBlockSize with
    | none => (.integrityError false, sm)
    | some clear =>
      if clear.length < 4 then (.integrityError false, sm) else (.clear (readInt32Le clear), sm)
  else if comm = dfcCommEnciphered then
    if (body.length - 1) % sm.blockSize ≠ 0 then (.lengthError, sm)
    else
      let (clear, next) := dfcSecureMessagingVerifyCommand des aes sm dfcCommEnciphered
        [cmd, body.getD 0 0] (body.drop 1) dfcSmMaxCipherBlockSize
      if clear.length < 4 then (.integrityError false, next)
      else (.clear (readInt32Le clear), next)
  else if body.length ≠ 5 then (.lengthError, sm)
  else (.clear (readInt32Le (body.drop 1)), sm)

/-- The file a command names in its second octet. -/
def commandFile (e : DfcEmulator) (apdu : List UInt8) : Option ℕ :=
  dfcCredentialFindFileInApp e.credential e.selectedAppIndex (apdu.getD 1 0)

/-- How a command that names the file is protected. -/
def commandComm (e : DfcEmulator) (apdu : List UInt8) (comm : DfcFile → UInt8) : UInt8 :=
  match commandFile e apdu with
  | none => dfcCommPlain
  | some i => comm (e.credential.files i)

/-- A payload whose check fails ends an EV1 session; a record command ends any. -/
def Unwrapped.ofPayload (endsSession : Bool) : Option (List UInt8) → Unwrapped (List UInt8)
  | some octets => .clear octets
  | none => .integrityError endsSession

/-- What becomes of the protected parts of a command, and of the session with them. -/
structure Unsealed where
  payload : Unwrapped (List UInt8) := .integrityError true
  amount : Unwrapped Int32 := .integrityError true
  session : DfcSecureMessaging

/-- The command side of secure messaging. A command that neither carries a MAC nor is
enciphered only advances the chaining value. -/
def unsealCommand (e : DfcEmulator) (sm : DfcSecureMessaging) (apdu : List UInt8) : Unsealed :=
  let cmd := dfcFileCommandBase (apdu.getD 0 0)
  let ev1 := dfcSecureMessagingAppliesEv1 sm.cipher (apdu.getD 0 0)
  if cmd = dfcCmdWriteData ∨ cmd = dfcCmdWriteRecord then
    let comm := commandComm e apdu fun file => dfcEmulatorFileEffectiveCommSettings e file .write
    let (octets, next) := unwrapProtectedPayload des aes sm comm apdu 7
    { payload := .ofPayload (ev1 || cmd == dfcCmdWriteRecord) octets, session := next }
  else if cmd = dfcCmdUpdateRecord then
    let comm := commandComm e apdu fun file =>
      dfcEmulatorFileEffectiveCommSettings e file .readWrite
    let (octets, next) := unwrapProtectedPayload des aes sm comm apdu
      (dfcUpdateRecordHeaderSize - 1)
    { payload := .ofPayload true octets, session := next }
  else if cmd = dfcCmdCredit ∨ cmd = dfcCmdLimitedCredit ∨ cmd = dfcCmdDebit then
    let comm := commandComm e apdu fun file => fileEffectiveCommSettingsForRights e file
      (cmd == dfcCmdDebit) (cmd != dfcCmdCredit) true
    let (amount, next) := if ev1 then unwrapEv1Amount des aes sm comm cmd (apdu.drop 1)
      else unwrapLegacyAmount des aes sm comm cmd (apdu.drop 1)
    { amount, session := next }
  else { session := dfcSecureMessagingUpdateEv1Command des aes sm (apdu.getD 0 0) (apdu.drop 1) }

/-- What ReadData gets from the renderer, and the cache afterwards. A valid copy is served also
when the counter has reached its limit. -/
def renderForRead (input : CommandInput) (e : DfcEmulator) (cache : DfcSdmReadCache)
    (cmd : UInt8) (i : ℕ) : SdmRender × DfcSdmReadCache :=
  let data := (e.credential.files i).state.data
  if cache.valid = false ∧ dfcFileSdmFlagIsSet (e.credential.files i) .counterLimit = true ∧
      data.sdm.counterLimit ≤ data.sdmReadCounter then (.limitReached, cache)
  else if e.pendingChain ≠ [] then (.failed, cache)
  else
    match renderSdmReadInPlace aes input.random e cache i
      (if cmd = dfcCmdReadDataIso then .nativeIsoDep else .native) with
    | .error .randomExhausted => (.randomExhausted input.randomRetryable, cache)
    | .error _ => (.failed, cache)
    | .ok (rendered, cache) =>
      (.rendered cache.octets (rendered.credential.files i).state.data.sdmReadCounter, cache)

/-- What the command's file renders to, where there is one. -/
def renderForCommand (input : CommandInput) (card : NativeCard) (apdu : List UInt8) :
    SdmRender × DfcSdmReadCache :=
  match commandFile card.emulator apdu with
  | none => (.failed, card.sdmReadCache)
  | some i => renderForRead aes input card.emulator card.sdmReadCache (apdu.getD 0 0) i

/-- The payload of an answer under the session, whether it is protected, and the session that
goes on. -/
def secureAnswer (sm : Option DfcSecureMessaging) (cmd comm : UInt8) (payload : List UInt8)
    (lengthUnknown : Bool) :
    Except EmissionFailure (List UInt8 × Bool × Option DfcSecureMessaging) :=
  match sm with
  | none => .ok (payload, false, none)
  | some sm =>
    let enciphered := dfcSecureMessagingGenerateResponseWithLengthMarker des aes sm
      dfcCommEnciphered dfcStatusOk payload dfcEmulatorChainBufferSize lengthUnknown
    if dfcSecureMessagingAppliesEv1 sm.cipher cmd then
      if comm = dfcCommEnciphered then
        if dfcEmulatorChainBufferSize - dfcSmMaxCipherBlockSize < payload.length then
          .error .boundary
        else if enciphered.1 = [] then .error .cipher
        else .ok (enciphered.1, true, some enciphered.2)
      else if dfcEmulatorChainBufferSize - dfcWorkerCmacSize < payload.length then .error .boundary
      else
        let full := sm.fullCmac des aes (payload ++ [dfcStatusOk])
        .ok (payload ++ full.take dfcWorkerCmacSize, true, some (sm.setIv full))
    else if comm = dfcCommPlain then .ok (payload, false, some sm)
    else if dfcEmulatorChainBufferSize - dfcSmMaxCipherBlockSize < payload.length then
      .error .boundary
    else if comm = dfcCommMac then
      match dfcSecureMessagingWrapD40CommandMac des sm payload dfcEmulatorChainBufferSize with
      | none => .error .cipher
      | some octets => .ok (octets, true, some sm)
    else if enciphered.1 = [] then .error .cipher
    else .ok (enciphered.1, true, some enciphered.2)

/-- An answer that is on its way: its first frame, and the emulator with the rest. -/
structure Emitted where
  emulator : DfcEmulator
  frame : List UInt8
  secured : Bool
  session : Option DfcSecureMessaging

/-- Splits the answer of a read into frames. A protected one ends its frames on cipher blocks,
and its last frame may be full. `isoTransport` tells that the transport sends the whole answer. -/
def splitAnswer (e : DfcEmulator) (cmd : UInt8) (isoTransport : Bool) (octets : List UInt8)
    (secured : Bool) (session : Option DfcSecureMessaging) : Except EmissionFailure Emitted :=
  let limit := if e.credential.card.generation = dfcGenerationEv3 then dfcEv3MaxResponsePayload
    else dfcEv1MaxFramePayload
  let block := match session with
    | some sm => sm.blockSize
    | none => 1
  let frame := if secured then limit / block * block else limit
  let last := if secured then limit else frame
  let cleared := dfcEmulatorCommandClearPendingChain e
  if cmd = dfcCmdReadDataIso ∨ cmd = dfcCmdReadRecordsIso then
    if isoTransport then
      if dfcEmulatorChainBufferSize - 2 < octets.length then .error .boundary
      else
        .ok
          { emulator := { cleared with
              pendingChain := octets, pendingChainFrame := dfcIsoDepResponsePending }
            frame := [dfcStatusOk], secured, session }
    else if dfcBytebufMax ≤ octets.length then .error .boundary
    else .ok { emulator := cleared, frame := dfcStatusOk :: octets, secured, session }
  else
    let sending := { cleared with pendingChainFrame := frame, pendingChainLast := last }
    if octets.length ≤ last then
      .ok { emulator := sending, frame := dfcStatusOk :: octets, secured, session }
    else
      .ok
        { emulator := { sending with
            pendingChain := if secured then octets.drop frame
              else (octets.drop frame).take dfcEmulatorChainBufferSize }
          frame := dfcCmdAdditionalFrame :: octets.take frame, secured, session }

/-- `dfc_emulator_command_emit_payload_with_chaining_comm` for the reads. -/
def emitRead (e : DfcEmulator) (sm : Option DfcSecureMessaging) (cmd comm : UInt8)
    (isoTransport : Bool) (payload : List UInt8) (lengthUnknown : Bool) :
    Except EmissionFailure Emitted := do
  let (octets, secured, session) ← secureAnswer des aes sm cmd comm payload lengthUnknown
  splitAnswer e cmd isoTransport octets secured session

/-- `dfc_emulator_command_emit_zero_payload_with_chaining_comm`: zeros that do not fit the buffer
are sent only in clear, and only in frames of the shorter size. -/
def emitZeroRead (e : DfcEmulator) (sm : Option DfcSecureMessaging) (cmd comm : UInt8)
    (isoTransport : Bool) (payload : List UInt8) : Except EmissionFailure Emitted :=
  let frame := ev1FramePayload e 1
  if payload.length ≤ dfcEmulatorChainBufferSize then
    emitRead des aes e sm cmd comm isoTransport payload false
  else if sm.isSome = true ∨ comm ≠ dfcCommPlain ∨ cmd = dfcCmdReadDataIso ∨
      cmd = dfcCmdReadRecordsIso ∨ dfcEv3MaxResponsePayload < frame then .error .boundary
  else
    .ok
      { emulator := { dfcEmulatorCommandClearPendingChain e with
          pendingChain := payload.drop frame, pendingChainFrame := frame,
          pendingChainLast := frame }
        frame := dfcCmdAdditionalFrame :: payload.take frame, secured := false, session := none }

/-- The answer of GetValue is enciphered here, or carries the MAC of a legacy session. -/
def emitValue (e : DfcEmulator) (sm : Option DfcSecureMessaging) (comm : UInt8)
    (payload : List UInt8) : Except EmissionFailure Emitted :=
  match sm with
  | none =>
    .ok { emulator := e, frame := dfcStatusOk :: payload, secured := false, session := none }
  | some sm =>
    let ev1 := dfcSecureMessagingAppliesEv1 sm.cipher dfcCmdGetValue
    if comm ≠ dfcCommPlain ∧ (ev1 = false ∨ comm = dfcCommEnciphered) then
      let (wrapped, next) :=
        if comm = dfcCommMac then
          ((dfcSecureMessagingWrapD40CommandMac des sm payload dfcSmMaxCipherBlockSize).getD [], sm)
        else dfcSecureMessagingGenerateResponseWithLengthMarker des aes sm dfcCommEnciphered
          dfcStatusOk payload dfcSmMaxCipherBlockSize false
      if wrapped = [] then .error .cipher
      else
        .ok { emulator := e, frame := dfcStatusOk :: wrapped, secured := true,
              session := some next }
    else
      .ok { emulator := e, frame := dfcStatusOk :: payload, secured := false, session := some sm }

/-- Whether a read shows a backup file created in the open transaction, which is all zeros. -/
def readsZeros (e : DfcEmulator) (i : ℕ) : Bool :=
  dfcFileSdmFlagIsSet (e.credential.files i) .enabled == false &&
    (e.credential.files i).type == dfcFileTypeBackupData &&
    dfcEmulatorTransactionSnapshotCommittedData e i == .zeros

/-- The answer of an accepted command. `e` is the emulator the handler left, `before` the one it
was given. -/
def emitAnswer (before e : DfcEmulator) (sm : Option DfcSecureMessaging) (apdu : List UInt8)
    (payload : List UInt8) : Except EmissionFailure Emitted :=
  let raw := apdu.getD 0 0
  let cmd := dfcFileCommandBase raw
  let isoTransport := before.pendingChainLast == dfcIsoDepResponsePending
  if cmd = dfcCmdReadData ∨ cmd = dfcCmdReadRecords then
    let comm := commandComm before apdu fun file =>
      dfcEmulatorFileEffectiveCommSettings before file .read
    if cmd = dfcCmdReadData ∧ (commandFile before apdu).any (readsZeros before) = true then
      emitZeroRead des aes e sm raw comm isoTransport payload
    else emitRead des aes e sm raw comm isoTransport payload (readUint24Le apdu 5 == 0)
  else if cmd = dfcCmdGetValue then
    let comm := commandComm before apdu fun file =>
      fileEffectiveCommSettingsForRights before file true true true
    emitValue des aes e sm comm payload
  else
    .ok { emulator := e, frame := dfcStatusOk :: payload, secured := false, session := sm }

/-- `dfc_emulator_command_apply_ev1_response_secure_messaging` on an accepted command. -/
def applyEv1ResponseSecureMessaging (cmd : UInt8) (emitted : Emitted) : Emitted :=
  match emitted.session with
  | none => emitted
  | some sm =>
    if dfcSecureMessagingAppliesEv1 sm.cipher cmd = false ∨ emitted.secured = true then emitted
    else
      let full := sm.fullCmac des aes (emitted.frame.drop 1 ++ emitted.frame.take 1)
      { emitted with
        frame := emitted.frame ++ full.take dfcWorkerCmacSize
        secured := true
        session := some (sm.setIv full) }

/-- A frame that was handled: the card afterwards, the answer, and whether the command failed
in a way that leaves it to be sent again. -/
structure Outcome where
  card : NativeCard
  answer : List UInt8
  retryable : Bool := false

/-- A refusal that may be retried takes nothing else with it. Another one ends an EV1 session
and the transaction, and what the end of the command ends. The rendered file goes with the
session. -/
def refuseCommand (card : NativeCard) (cmd : UInt8) (preserve : Bool) (cache : DfcSdmReadCache)
    (r : Refusal) : Outcome :=
  if r.retryable then
    { card := { card with emulator := r.emulator, sdmReadCache := cache }
      answer := [r.status]
      retryable := true }
  else
    let ev1 := card.secureMessaging.any fun sm => dfcSecureMessagingAppliesEv1 sm.cipher cmd
    let e := finalizeNativeCommand
      (if r.emulator.nativeSession.isSome && ev1 then dfcEmulatorResetSession r.emulator
        else r.emulator) preserve
    { card := { card with
        emulator := e
        secureMessaging := if e.nativeSession.isSome then card.secureMessaging else none
        sdmReadCache :=
          if card.emulator.nativeSession.isSome && e.nativeSession.isNone then {} else cache }
      answer := [r.status] }

/-- The data, record and value commands. -/
def isTransferCommand (cmd : UInt8) : Bool :=
  cmd == dfcCmdReadData || cmd == dfcCmdWriteData || cmd == dfcCmdReadRecords ||
    cmd == dfcCmdWriteRecord || cmd == dfcCmdUpdateRecord || cmd == dfcCmdClearRecordFile ||
    cmd == dfcCmdGetValue || cmd == dfcCmdCredit || cmd == dfcCmdLimitedCredit ||
    cmd == dfcCmdDebit

/-- The rendered copy of the command's file is the cache from the moment the read counter
counts it. -/
def cacheAfter (before e : DfcEmulator) (apdu : List UInt8) (cache rendered : DfcSdmReadCache) :
    DfcSdmReadCache :=
  match commandFile before apdu with
  | none => cache
  | some i =>
    if (e.credential.files i).state.data.sdmReadCounter =
        (before.credential.files i).state.data.sdmReadCounter then cache
    else rendered

/-- What the handler of a command meets. -/
def commandEnv (input : CommandInput) (card : NativeCard) (apdu : List UInt8) : CommandEnv :=
  let unsealed := card.secureMessaging.map fun sm => unsealCommand des aes card.emulator sm apdu
  { payload := (unsealed.map Unsealed.payload).getD (.integrityError true)
    amount := (unsealed.map Unsealed.amount).getD (.integrityError true)
    sdm := if dfcFileCommandBase (apdu.getD 0 0) = dfcCmdReadData then
        (renderForCommand aes input card apdu).1
      else .failed
    cipherFails := input.transactionMacFails
    allocationFails := input.allocationFails }

/-- An answer that cannot be protected ends the session; one that is too long does not. -/
def refuseEmission (e : DfcEmulator) : EmissionFailure → Refusal
  | .boundary => e.refuse dfcStatusBoundaryError
  | .cipher => (dfcEmulatorResetSession e).refuse dfcStatusIntegrityError

/-- What becomes of the card once the handler is done. Every command but a read of data retires
the rendered file. -/
def settleCommand (input : CommandInput) (card : NativeCard) (apdu : List UInt8) :
    Handled → Outcome
  | .error r =>
    refuseCommand card (apdu.getD 0 0) false
      (cacheAfter card.emulator r.emulator apdu card.sdmReadCache
        (renderForCommand aes input card apdu).2) r
  | .ok (e, payload) =>
    let isRead := dfcFileCommandBase (apdu.getD 0 0) == dfcCmdReadData
    let session := card.secureMessaging.map fun sm =>
      (unsealCommand des aes card.emulator sm apdu).session
    let cache := cacheAfter card.emulator e apdu card.sdmReadCache
      (renderForCommand aes input card apdu).2
    match emitAnswer des aes card.emulator e session apdu payload with
    | .error failure => refuseCommand card (apdu.getD 0 0) false cache (refuseEmission e failure)
    | .ok emitted =>
      let emitted := applyEv1ResponseSecureMessaging des aes (apdu.getD 0 0) emitted
      { card := { card with
          emulator := emitted.emulator
          secureMessaging := emitted.session
          sdmReadCache := if isRead then cache else {} }
        answer := emitted.frame }

/-- A command that has arrived whole. -/
def handleWholeCommand (input : CommandInput) (card : NativeCard) (apdu : List UInt8) :
    Option Outcome :=
  if isTransferCommand (dfcFileCommandBase (apdu.getD 0 0)) then
    (dispatchFileCommand aes.encrypt card.emulator (commandEnv des aes input card apdu) apdu).map
      (settleCommand des aes input card apdu)
  else none

def chainedWriteHeaderLen (cmd : UInt8) : ℕ :=
  if cmd = dfcCmdWriteData ∨ cmd = dfcCmdWriteRecord then 7
  else if cmd = dfcCmdUpdateRecord then 10 else 0

/-- Octets of the command once its frames are joined. There is no answer before the header is
there, and zero is one that cannot be gathered. -/
def chainedWriteExpectedLen (card : NativeCard) (frame : List UInt8) : Option ℕ :=
  let e := card.emulator
  let cmd := frame.getD 0 0
  let headerLen := chainedWriteHeaderLen cmd
  let clearLen := readUint24Le frame (if cmd = dfcCmdUpdateRecord then 8 else 5)
  let room := dfcEmulatorChainBufferSize - headerLen - 1
  if headerLen = 0 ∨ frame.length < headerLen + 1 then none
  else if room < clearLen then some 0
  else match if e.selectedApplication = .app then commandFile e frame else none with
  | none => some frame.length
  | some i =>
    let comm := dfcEmulatorFileEffectiveCommSettings e (e.credential.files i)
      (if cmd = dfcCmdUpdateRecord then .readWrite else .write)
    let wireLen :=
      if e.ev2AuthenticatedKeyNo.isSome = true ∧ comm ≠ dfcCommPlain then
        dfcSecureMessagingCommandPayloadLength none comm clearLen
      else match card.secureMessaging with
      | some sm => dfcSecureMessagingCommandPayloadLength (some sm) comm clearLen
      | none => some clearLen
    match wireLen with
    | none => some 0
    | some wireLen => if room < wireLen then some 0 else some (1 + headerLen + wireLen)

/-- What a first frame is. -/
inductive ChainStart where
  | whole
  | refused (status : UInt8)
  | begun (chain : CommandChain)
  deriving Repr, DecidableEq

def beginOrRejectCommandChain (input : CommandInput) (card : NativeCard) (frame : List UInt8) :
    ChainStart :=
  if card.emulator.ev2AuthenticatedKeyNo.isSome = true ∧
      frame.length < dfcEv1MaxFramePayload + 1 then .whole
  else match chainedWriteExpectedLen card frame with
  | none => .whole
  | some expected =>
    if expected = 0 ∨ dfcEv1MaxFramePayload + 1 < frame.length ∨ expected < frame.length then
      .refused dfcStatusLengthError
    else if frame.length = expected then .whole
    else if input.chainAllocationFails then .refused dfcStatusOutOfEeprom
    else .begun { octets := frame, expected }

/-- Whether an exchange waits for its next frame. -/
def NativeCard.workPending (card : NativeCard) : Bool :=
  card.authenticationPending || card.otherWorkPending || !card.emulator.pendingChain.isEmpty

/-- `dfc_emulator_abort_pending_native_work`. -/
def abortPendingNativeWork (card : NativeCard) : NativeCard :=
  let cleared := dfcEmulatorCommandClearPendingChain card.emulator
  { card with
    emulator := if card.authenticationPending then dfcEmulatorClearActiveAuthentication cleared
      else cleared
    authenticationPending := false
    otherWorkPending := false }

/-- A frame refused before it reached a handler. -/
def refuseFrame (card : NativeCard) (frame : List UInt8) (status : UInt8) : Outcome :=
  refuseCommand card (frame.getD 0 0) (preserveTransactionOnFailure card.emulator frame)
    card.sdmReadCache (card.emulator.refuse status)

/-- A further frame of a write that is gathered. -/
def continueCommandChain (input : CommandInput) (card : NativeCard) (chain : CommandChain)
    (frame : List UInt8) : Option Outcome :=
  let discarded := { card with commandChain := none }
  let octets := chain.octets ++ frame.drop 1
  if frame.getD 0 0 ≠ dfcCmdAdditionalFrame then
    some (refuseFrame discarded frame dfcStatusCommandAborted)
  else if frame.drop 1 = [] ∨ dfcEv1MaxFramePayload < (frame.drop 1).length ∨
      chain.expected - chain.octets.length < (frame.drop 1).length then
    some (refuseFrame discarded frame dfcStatusLengthError)
  else if octets.length < chain.expected then
    some
      { card := { card with commandChain := some { chain with octets } }
        answer := [dfcCmdAdditionalFrame] }
  else handleWholeCommand des aes input discarded octets

/-- A frame of a data, record or value command. -/
def handleFrame (input : CommandInput) (card : NativeCard) (frame : List UInt8) :
    Option Outcome :=
  match card.commandChain with
  | some chain => continueCommandChain des aes input card chain frame
  | none =>
    if isTransferCommand (dfcFileCommandBase (frame.getD 0 0)) = false then none
    else if card.workPending then
      some (refuseFrame (abortPendingNativeWork card) frame dfcStatusCommandAborted)
    else match beginOrRejectCommandChain input card frame with
    | .refused status => some (refuseFrame card frame status)
    | .begun chain =>
      some
        { card := { card with commandChain := some chain }
          answer := [dfcCmdAdditionalFrame] }
    | .whole => handleWholeCommand des aes input card frame

/-- The frames of one command: every frame but the last leaves the card gathering. -/
def sendFrames (input : CommandInput) : NativeCard → List (List UInt8) → Option Outcome
  | _, [] => none
  | card, [frame] => handleFrame des aes input card frame
  | card, frame :: next :: frames =>
    (handleFrame des aes input card frame).bind fun outcome =>
      if outcome.card.commandChain.isSome then sendFrames input outcome.card (next :: frames)
      else none

end

end DfcCore
