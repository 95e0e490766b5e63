import DfcCore.Memory

/-!
# The ISO-DEP block layer of the virtual card

The frame entry point of `dfc_virtual_picc.c`: activation by RATS, reassembly of a
chained request, execution of a complete command, and the chained response. What runs
a command is a parameter: the emulator together with its credential is a state `σ`, and
an `Executor` answers a command or fails. A buffer is the list of the octets in use. Of the
command-chain buffer the part the block layer borrows is kept here; a buffer that belongs
to a native command chain belongs to `σ`.
-/
namespace DfcCore.IsoDep

abbrev dfcIsoDepIBlock : UInt8 := 0x02
abbrev dfcIsoDepRBlock : UInt8 := 0xA2
abbrev dfcIsoDepSBlock : UInt8 := 0xC2
abbrev dfcIsoDepRNak : UInt8 := 0x10
abbrev dfcIsoDepBlockMask : UInt8 := 0xC0
abbrev dfcIsoDepCid : UInt8 := 0x08
abbrev dfcIsoDepNad : UInt8 := 0x04
abbrev dfcIsoDepMore : UInt8 := 0x10
abbrev dfcIsoDepSequenceBit : UInt8 := 0x01
abbrev dfcIsoDepMaxInf : ℕ := 48
abbrev dfcVirtualPiccMaxBlockSize : ℕ := 51
abbrev dfcBytebufMax : ℕ := 256
abbrev dfcEmulatorChainBufferSize : ℕ := 2080
/-- Size of `pending_command`: the native command capacity, a wrapped header and Le. -/
abbrev pendingCommandSize : ℕ := 128 + 6
/-- Size of `pending_response_prefix`. -/
abbrev pendingResponsePrefixSize : ℕ := 3
/-- `SIZE_MAX`, the offset that marks a response kept for a direct retry. -/
abbrev dfcDirectResponsePending : ℕ := 2 ^ 64 - 1

inductive DfcVirtualPiccStatus where
  | ok | noCard | unsupportedProtocol | bufferTooSmall | protocolError
  deriving Repr, DecidableEq

/-- The answer of a command, in the transmit buffer or in the chain buffer the emulator
lends (`staged`). It fits the buffer that holds it. -/
structure Answer where
  octets : List UInt8
  staged : Bool
  fits : octets.length ≤ if staged then dfcEmulatorChainBufferSize else dfcBytebufMax
  nonempty : staged = true → octets ≠ []

/-- What became of a complete command. -/
inductive Outcome (σ : Type) where
  | answered (emulator : σ) (answer : Answer)
  /-- There is no answer to send. A `retryable` failure is one for want of random octets
  (`dfc_random_failure_is_retryable`), before the command had an effect. Any other leaves the
  effects the command had: a response that EV2 cannot protect fails after its command. -/
  | failed (emulator : σ) (status : DfcVirtualPiccStatus) (retryable : Bool)

/-- The emulator and its credential, as far as the block layer sees them. -/
structure Executor (σ : Type) where
  run : σ → List UInt8 → Outcome σ
  /-- `command_chain_active`: the command-chain buffer belongs to a native chain. -/
  commandChainActive : σ → Bool
  resetActivation : σ → σ
  piccAts : σ → List UInt8

structure Session (σ : Type) where
  emulator : σ
  /-- `command_chain` while no native chain owns it, up to `command_chain_len`. -/
  commandChain : Option (List UInt8) := none
  txBuffer : List UInt8 := []
  /-- `pending_chain` while it is lent as a response. -/
  isoResponse : Option (List UInt8) := none
  pendingCommand : List UInt8 := []
  pendingCommandLen : ℕ := 0
  pendingResponseLen : ℕ := 0
  pendingResponseOffset : ℕ := 0
  pendingResponsePrefix : List UInt8 := []
  pendingResponseStaged : Bool := false
  lastPiccBlock : List UInt8 := []
  activated : Bool := false
  isoDepSelected : Bool := false
  isoDepCid : UInt8 := 0
  isoDepMaxInf : UInt8 := 0
  expectedPcdSequence : Bool := false
  /-- The number the next block of the card will carry. -/
  piccSequence : Bool := false

variable {σ : Type} (E : Executor σ)

def directResponseIsPending (s : Session σ) : Bool :=
  s.pendingResponseOffset == dfcDirectResponsePending

def responseStorage (s : Session σ) : List UInt8 :=
  if s.pendingResponseStaged then s.isoResponse.getD [] else s.txBuffer

def releaseIsoResponse (s : Session σ) : Session σ :=
  { s with isoResponse := none, pendingResponseStaged := false }

/-- Whether the block layer holds the command-chain buffer. -/
def borrowsChain (s : Session σ) : Bool :=
  !E.commandChainActive s.emulator && s.commandChain.isSome

/-- Wipes the octets from `start` up to `stop`. -/
def wipe (octets : List UInt8) (start stop : ℕ) : List UInt8 :=
  octets.mapIdx fun i octet => if start ≤ i ∧ i < stop then 0 else octet

def truncatePendingCommand (s : Session σ) (retainedLen : ℕ) : Session σ :=
  { s with
    pendingCommand := wipe s.pendingCommand retainedLen s.pendingCommandLen
    -- The length of the borrowed buffer is left as it was.
    commandChain :=
      if !borrowsChain E s then s.commandChain
      else if retainedLen = 0 then none
      else s.commandChain.map fun octets => wipe octets retainedLen s.pendingCommandLen
    pendingCommandLen := retainedLen }

/-- The staged octets, in whichever part holds them. -/
def pendingCommandData (s : Session σ) : Option (List UInt8) :=
  if pendingCommandSize < s.pendingCommandLen then
    s.commandChain.map (List.take s.pendingCommandLen)
  else some (s.pendingCommand.take s.pendingCommandLen)

def pendingCommandIsValid (s : Session σ) : Bool :=
  if s.pendingCommandLen ≤ pendingCommandSize then true
  else !E.commandChainActive s.emulator &&
    decide (s.pendingCommandLen ≤ dfcEmulatorChainBufferSize) &&
    match s.commandChain with
    | some octets => octets.length == s.pendingCommandLen
    | none => false

def stagePendingCommand (s : Session σ) (command : List UInt8) : Option (Session σ) :=
  if command.length = 0 ∨ dfcEmulatorChainBufferSize < command.length ∨
      E.commandChainActive s.emulator = true then none
  else if command.length ≤ pendingCommandSize then
    some { s with commandChain := none, pendingCommand := command,
                  pendingCommandLen := command.length }
  else
    some { s with commandChain := some command, pendingCommandLen := command.length }

/-- `dfc_command_uses_iso_dep_request_chaining`. -/
def dfcCommandUsesIsoDepRequestChaining (command : UInt8) : Bool :=
  command == 0x8D || command == 0x8B || command == 0xBA

def commandCanUseLargeIsoDepStorage (command : List UInt8) : Bool :=
  match command with
  | cla :: ins :: _ =>
    if dfcCommandUsesIsoDepRequestChaining cla then true
    else if cla == 0x00 then ins == 0xE2 || ins == 0xD6
    else cla == 0x90 && dfcCommandUsesIsoDepRequestChaining ins
  | _ => false

/-- What the block layer relies on in the command layer. Every command gets a status octet or a
status word. The commands that may be large are writes: they draw no random octets, a native one
begins no native chain, and one of ISO 7816 always ends in a status word. A command that runs
out of random octets leaves the native chain as it was, and a reset ends it. -/
structure Executor.Contract (E : Executor σ) : Prop where
  nonempty : ∀ {emulator command emulator' answer},
    E.run emulator command = .answered emulator' answer → answer.octets ≠ []
  random : ∀ {emulator command emulator' status},
    E.run emulator command = .failed emulator' status true →
      commandCanUseLargeIsoDepStorage command = false ∧
      E.commandChainActive emulator' = E.commandChainActive emulator
  large : ∀ {emulator command emulator' status retryable},
    E.run emulator command = .failed emulator' status retryable →
      commandCanUseLargeIsoDepStorage command = true →
        command.headD 0 ≠ 0x00 ∧ E.commandChainActive emulator' = false
  reset : ∀ emulator, E.commandChainActive (E.resetActivation emulator) = false

/-- The end of `reassemble_pending_command` when the request lives in the borrowed buffer,
which now holds `chain`. -/
def appendToChain (s : Session σ) (chain inf : List UInt8) (more : Bool) :
    Session σ × Except DfcVirtualPiccStatus (List UInt8) :=
  let s := { s with commandChain := some chain }
  if dfcEmulatorChainBufferSize < s.pendingCommandLen then
    (truncatePendingCommand E s 0, .error .protocolError)
  else if more || s.pendingCommandLen != 0 then
    if dfcEmulatorChainBufferSize - s.pendingCommandLen < inf.length then
      (s, .error .bufferTooSmall)
    else
      let octets := chain.take s.pendingCommandLen ++ inf
      ({ s with commandChain := some octets,
                pendingCommandLen := s.pendingCommandLen + inf.length }, .ok octets)
  else (s, .ok inf)

/-- The same when the request lives in the fixed array. -/
def appendInline (s : Session σ) (inf : List UInt8) (more : Bool) :
    Session σ × Except DfcVirtualPiccStatus (List UInt8) :=
  if pendingCommandSize < s.pendingCommandLen then
    (truncatePendingCommand E s 0, .error .protocolError)
  else if more || s.pendingCommandLen != 0 then
    if pendingCommandSize - s.pendingCommandLen < inf.length then (s, .error .bufferTooSmall)
    else
      let octets := s.pendingCommand.take s.pendingCommandLen ++ inf
      ({ s with pendingCommand := octets,
                pendingCommandLen := s.pendingCommandLen + inf.length }, .ok octets)
  else (s, .ok inf)

/-- `reassemble_pending_command`: appends one received INF to the request and reports the
command to execute. -/
def reassemblePendingCommand (s : Session σ) (inf : List UInt8) (more responseFits : Bool) :
    Session σ × Except DfcVirtualPiccStatus (List UInt8) :=
  if more && !responseFits then (s, .error .bufferTooSmall)
  else if decide (pendingCommandSize < s.pendingCommandLen) &&
      !(E.commandChainActive s.emulator || s.commandChain.isSome) then
    (truncatePendingCommand E s 0, .error .protocolError)
  else if !E.commandChainActive s.emulator && (s.commandChain.isSome ||
      decide (pendingCommandSize - s.pendingCommandLen < inf.length)) then
    match s.commandChain with
    | some chain => appendToChain E s chain inf more
    | none =>
      -- The request moves to the borrowed buffer now, if its command may be large.
      let staged := s.pendingCommand.take s.pendingCommandLen
      if !commandCanUseLargeIsoDepStorage (if s.pendingCommandLen = 0 then inf else staged) then
        (s, .error .bufferTooSmall)
      else appendToChain E s staged inf more
  else appendInline E s inf more

def discardPendingCommand (s : Session σ) : Session σ :=
  { s with
    pendingCommand := []
    commandChain := if borrowsChain E s then none else s.commandChain
    pendingCommandLen := 0 }

def clearTransportStorage (s : Session σ) : Session σ :=
  { discardPendingCommand E (releaseIsoResponse s) with
    txBuffer := []
    pendingResponsePrefix := []
    lastPiccBlock := []
    pendingResponseLen := 0
    pendingResponseOffset := 0 }

def pendingResponseIsValid (s : Session σ) : Bool :=
  pendingCommandIsValid E s &&
  decide (s.pendingResponsePrefix.length ≤ pendingResponsePrefixSize) &&
  decide (s.lastPiccBlock.length ≤ dfcVirtualPiccMaxBlockSize) &&
  (directResponseIsPending s || decide (s.pendingResponseOffset ≤ s.pendingResponseLen)) &&
  if s.pendingResponseStaged then
    match s.isoResponse with
    | some octets =>
      decide (0 < s.pendingResponseLen) && s.pendingResponseLen == octets.length &&
      decide (s.pendingResponseLen ≤ dfcEmulatorChainBufferSize)
    | none => false
  else
    decide (s.pendingResponseLen ≤ dfcBytebufMax) &&
    (s.pendingResponseLen == 0 || s.txBuffer.length == s.pendingResponseLen)

def isRats (frame : List UInt8) : Bool :=
  decide (2 ≤ frame.length) && frame.headD 0 &&& 0xF0 == 0xE0

def isIBlock (pcb : UInt8) : Bool := pcb &&& dfcIsoDepBlockMask == 0x00
def isRBlock (pcb : UInt8) : Bool := pcb &&& dfcIsoDepBlockMask == 0x80
def isSBlock (pcb : UInt8) : Bool := pcb &&& dfcIsoDepBlockMask == 0xC0

/-- Whether a bit of a protocol control octet is set. -/
def hasBit (pcb bit : UInt8) : Bool := pcb &&& bit != 0

/-- The bit a condition sets in a protocol control octet. -/
def bitIf (b : Bool) (bit : UInt8) : UInt8 := if b then bit else 0

def isoDepCidMatches (s : Session σ) (frame : List UInt8) : Bool :=
  if hasBit (frame.headD 0) dfcIsoDepCid then
    decide (2 ≤ frame.length) && frame.getD 1 0 == s.isoDepCid
  else s.isoDepCid == 0

/-- Largest INF for the frame size the reader announced, before CID and the card's own
limit. -/
def isoDepMaxInfForFsdi (fsdi : UInt8) : UInt8 :=
  let frameSize := [16, 24, 32, 40, 48, 64, 96, 128, 256].getD fsdi.toNat 256
  UInt8.ofNat (frameSize - 3)

def isoDepChunkLimit (s : Session σ) : ℕ :=
  if s.isoDepMaxInf = 0 then dfcIsoDepMaxInf
  else
    let limit := s.isoDepMaxInf.toNat
    -- A block with a CID needs one more octet.
    let limit := if 1 < s.pendingResponsePrefix.length then limit - 1 else limit
    min limit dfcIsoDepMaxInf

/-- The result of handling a frame: the session, the status and the octets sent. -/
abbrev Exchange (σ : Type) := Session σ × DfcVirtualPiccStatus × List UInt8

def fail (s : Session σ) (status : DfcVirtualPiccStatus) : Exchange σ := (s, status, [])

def toggleSequence (s : Session σ) : Session σ := { s with piccSequence := !s.piccSequence }

def buildIsoDepIBlock (s : Session σ) (inf : List UInt8) (more : Bool) (capacity : ℕ) :
    Exchange σ :=
  if capacity < inf.length + 1 then fail s .bufferTooSmall
  else
    let pcb := dfcIsoDepIBlock ||| bitIf s.piccSequence dfcIsoDepSequenceBit |||
      bitIf more dfcIsoDepMore
    (toggleSequence s, .ok, pcb :: inf)

/-- The octets of an R-block. -/
def isoDepRBlock (sequence nak useCid : Bool) (cid : UInt8) : List UInt8 :=
  let pcb := dfcIsoDepRBlock ||| bitIf sequence dfcIsoDepSequenceBit ||| bitIf nak dfcIsoDepRNak
  if useCid then [pcb ||| dfcIsoDepCid, cid] else [pcb]

def buildIsoDepRBlock (s : Session σ) (sequence nak useCid : Bool) (capacity : ℕ) : Exchange σ :=
  if capacity < (if useCid then 2 else 1) then fail s .bufferTooSmall
  else (s, .ok, isoDepRBlock sequence nak useCid s.isoDepCid)

def buildIsoDepRAckAdvancing (s : Session σ) (useCid : Bool) (capacity : ℕ) : Exchange σ :=
  match buildIsoDepRBlock s s.piccSequence false useCid capacity with
  | (s, .ok, block) => ({ toggleSequence s with lastPiccBlock := block }, .ok, block)
  | (s, status, _) => fail s status

def buildIsoDepEmptyIBlock (s : Session σ) (useCid : Bool) (capacity : ℕ) : Exchange σ :=
  if capacity < (if useCid then 2 else 1) then fail s .bufferTooSmall
  else
    let pcb := dfcIsoDepIBlock ||| bitIf s.piccSequence dfcIsoDepSequenceBit
    let block := if useCid then [pcb ||| dfcIsoDepCid, s.isoDepCid] else [pcb]
    ({ toggleSequence s with lastPiccBlock := block }, .ok, block)

def retireFinishedResponseStorage (s : Session σ) : Session σ :=
  releaseIsoResponse (if s.pendingResponseStaged then s else { s with txBuffer := [] })

/-- The session after the last block of a response was copied out. -/
def finishResponse (s : Session σ) : Session σ :=
  { retireFinishedResponseStorage s with
    pendingResponseLen := 0, pendingResponseOffset := 0, pendingResponsePrefix := [] }

def writeNextIsoDepResponseBlock (s : Session σ) (capacity : ℕ) : Exchange σ :=
  if !pendingResponseIsValid E s then fail (clearTransportStorage E s) .protocolError
  else
    let done := decide (s.pendingResponseLen ≤ s.pendingResponseOffset)
    let remaining := s.pendingResponseLen - s.pendingResponseOffset
    let chunkLen := min remaining (isoDepChunkLimit s)
    let more := decide (s.pendingResponseOffset + chunkLen < s.pendingResponseLen)
    let chunk := ((responseStorage s).drop s.pendingResponseOffset).take chunkLen
    match s.pendingResponsePrefix with
    | first :: rest =>
      let pcb := dfcIsoDepIBlock ||| bitIf s.piccSequence dfcIsoDepSequenceBit |||
        (first &&& dfcIsoDepCid)
      if done then
        if capacity < s.pendingResponsePrefix.length then fail s .bufferTooSmall
        else (toggleSequence { s with pendingResponsePrefix := [] }, .ok, pcb :: rest)
      else if capacity < s.pendingResponsePrefix.length + chunkLen then fail s .bufferTooSmall
      else
        let s := toggleSequence
          { s with pendingResponseOffset := s.pendingResponseOffset + chunkLen }
        (if more then s else finishResponse s, .ok,
          (pcb ||| bitIf more dfcIsoDepMore) :: rest ++ chunk)
    | [] =>
      if done then buildIsoDepIBlock s [] false capacity
      else match buildIsoDepIBlock s chunk more capacity with
      | (s, .ok, block) =>
        let s := { s with pendingResponseOffset := s.pendingResponseOffset + chunkLen }
        (if more then s else finishResponse s, .ok, block)
      | (s, status, _) => fail s status

def writeAndRememberIsoDepResponseBlock (s : Session σ) (capacity : ℕ) : Exchange σ :=
  match writeNextIsoDepResponseBlock E s capacity with
  | (s, .ok, block) =>
    (if block.length ≤ dfcVirtualPiccMaxBlockSize then { s with lastPiccBlock := block } else s,
      .ok, block)
  | (s, status, _) => fail s status

def isoDepResponseChainIsPending (s : Session σ) : Bool :=
  decide (0 < s.pendingResponseLen) && !directResponseIsPending s

def isoDepInitialResponseIsStaged (s : Session σ) : Bool :=
  decide (0 < s.pendingCommandLen) && isoDepResponseChainIsPending s

def replayStagedIsoDepResponse (s : Session σ) (frame : List UInt8) (capacity : ℕ) : Exchange σ :=
  if pendingCommandData s != some frame then fail s .protocolError
  else match writeAndRememberIsoDepResponseBlock E s capacity with
  | (s, .ok, block) =>
    ({ truncatePendingCommand E s 0 with
        expectedPcdSequence := !hasBit (frame.headD 0) dfcIsoDepSequenceBit }, .ok, block)
  | (s, status, _) => fail s status

/-- `clear_protocol`, as far as the block layer is concerned. -/
def clearProtocol (s : Session σ) : Session σ :=
  { clearTransportStorage E s with
    isoDepSelected := false, isoDepCid := 0, isoDepMaxInf := 0, expectedPcdSequence := false,
    piccSequence := false }

/-- RATS: the first frame of an activation. -/
def handleRats (s : Session σ) (frame : List UInt8) (capacity : ℕ) : Exchange σ :=
  if s.isoDepSelected then fail s .protocolError
  else
    let ats := E.piccAts s.emulator
    if capacity < ats.length then fail s .bufferTooSmall
    else
      let parameter := frame.getD 1 0
      ({ clearTransportStorage E s with
          isoDepSelected := true
          isoDepCid := parameter &&& 0x0F
          isoDepMaxInf := isoDepMaxInfForFsdi (parameter >>> 4)
          expectedPcdSequence := false
          piccSequence := false
          -- Before it has sent anything the card repeats an empty I-block numbered 1.
          lastPiccBlock := [dfcIsoDepIBlock ||| dfcIsoDepSequenceBit] }, .ok, ats)

/-- A complete command: execution and the first block of the response. -/
def handleCommand (s : Session σ) (frame command : List UInt8) (offset lenBefore capacity : ℕ) :
    Exchange σ :=
  match E.run s.emulator command with
  | .failed emulator status retryable =>
    let s := { s with
      emulator := emulator
      -- A native command, wrapped or not, retires the borrowed buffer at its end.
      commandChain := if command.headD 0 = 0x00 then s.commandChain else none }
    if retryable then fail (truncatePendingCommand E s lenBefore) .protocolError
    else if decide (pendingCommandSize < s.pendingCommandLen) &&
        !(E.commandChainActive s.emulator || s.commandChain.isSome) then
      fail (truncatePendingCommand E s 0) status
    else fail (truncatePendingCommand E s lenBefore) status
  | .answered emulator answer =>
    let s := { s with
      emulator := emulator
      txBuffer := answer.octets
      isoResponse := if answer.staged then some answer.octets else none
      pendingResponseStaged := answer.staged
      -- A buffer a native chain owns is part of the emulator.
      commandChain := none }
    let s := { truncatePendingCommand E s 0 with
      pendingResponseLen := answer.octets.length
      pendingResponseOffset := 0
      pendingResponsePrefix := if 1 < offset then frame.take offset else [] }
    match writeAndRememberIsoDepResponseBlock E s capacity with
    | (s, .ok, block) =>
      ({ s with expectedPcdSequence := !hasBit (frame.headD 0) dfcIsoDepSequenceBit }, .ok, block)
    | (s, .bufferTooSmall, _) =>
      match stagePendingCommand E s frame with
      | some s => fail s .bufferTooSmall
      | none => fail (clearTransportStorage E s) .protocolError
    | (s, status, _) => fail s status

def handleIBlock (s : Session σ) (frame : List UInt8) (capacity : ℕ) : Exchange σ :=
  let pcb := frame.headD 0
  if hasBit pcb dfcIsoDepNad then fail s .protocolError
  else if !isoDepCidMatches s frame then fail s .protocolError
  else
    let useCid := hasBit pcb dfcIsoDepCid
    let sequence := hasBit pcb dfcIsoDepSequenceBit
    let more := hasBit pcb dfcIsoDepMore
    let offset := if useCid then 2 else 1
    let inf := frame.drop offset
    -- A response chain is advanced by R-blocks only, and a direct retry owns the storage.
    if isoDepResponseChainIsPending s then fail s .protocolError
    else if directResponseIsPending s then fail s .protocolError
    else if inf.length == 0 && !more && s.pendingCommandLen == 0 then
      match buildIsoDepEmptyIBlock s useCid capacity with
      | (s, .ok, block) => ({ s with expectedPcdSequence := !sequence }, .ok, block)
      | (s, status, _) => fail s status
    else
      let lenBefore := s.pendingCommandLen
      match reassemblePendingCommand E s inf more (decide (offset ≤ capacity)) with
      | (s, .error status) => fail s status
      | (s, .ok command) =>
        if more then
          buildIsoDepRAckAdvancing { s with expectedPcdSequence := !sequence } useCid capacity
        else handleCommand E s frame command offset lenBefore capacity

def handleRBlock (s : Session σ) (frame : List UInt8) (capacity : ℕ) : Exchange σ :=
  let pcb := frame.headD 0
  if !isoDepCidMatches s frame then fail s .protocolError
  else if directResponseIsPending s then fail s .protocolError
  else if s.lastPiccBlock.length = 0 then fail s .protocolError
  else if hasBit pcb dfcIsoDepSequenceBit == !s.piccSequence then
    -- The number of the last block: that block is sent again.
    if capacity < s.lastPiccBlock.length then fail s .bufferTooSmall
    else (s, .ok, s.lastPiccBlock)
  else if hasBit pcb dfcIsoDepRNak then
    buildIsoDepRBlock s (!s.piccSequence) false (hasBit pcb dfcIsoDepCid) capacity
  else if s.pendingResponseLen = 0 then fail s .protocolError
  else writeAndRememberIsoDepResponseBlock E s capacity

/-- S(DESELECT) is valid in every phase. -/
def isDeselect (pcb : UInt8) : Bool := isSBlock pcb && pcb &&& ~~~dfcIsoDepCid == dfcIsoDepSBlock

def handleDeselect (s : Session σ) (frame : List UInt8) (capacity : ℕ) : Exchange σ :=
  if !isoDepCidMatches s frame then fail s .protocolError
  else if capacity < frame.length then fail s .bufferTooSmall
  else (clearProtocol E { s with emulator := E.resetActivation s.emulator }, .ok, frame)

/-- `dfc_virtual_picc_iso_dep_frame_exchange`. -/
def dfcVirtualPiccIsoDepFrameExchange (s : Session σ) (frame : List UInt8) (capacity : ℕ) :
    Exchange σ :=
  let pcb := frame.headD 0
  if !s.activated then fail s .noCard
  else if isRats frame then handleRats E s frame capacity
  else if !s.isoDepSelected || frame.isEmpty then fail s .protocolError
  else if !pendingResponseIsValid E s then fail (clearTransportStorage E s) .protocolError
  else if isDeselect pcb then handleDeselect E s frame capacity
  else if isoDepInitialResponseIsStaged s then
    if !isIBlock pcb then fail s .protocolError
    else replayStagedIsoDepResponse E s frame capacity
  else if isIBlock pcb then handleIBlock E s frame capacity
  else if isRBlock pcb then handleRBlock E s frame capacity
  else fail s .protocolError

end DfcCore.IsoDep
