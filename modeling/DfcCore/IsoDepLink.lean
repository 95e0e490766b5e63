import DfcCore.IsoDep

/-!
# A reader on a lossy link

The other end of the block layer: a reader that follows the recovery rules of
ISO/IEC 14443-4 on which the block numbering of the card relies, and a link that may lose
any frame in either direction. The reader sends its payloads in order, each cut into
fragments; its block number starts at zero and toggles on each accepted block. An
executor can be made to keep a log of the commands it carried out.
-/
namespace DfcCore.IsoDep

/-- The CID the reader uses in its frames, if it uses one. -/
structure Addressing where
  useCid : Bool
  cid : UInt8
  deriving Repr, DecidableEq

/-- The head of a frame: the control octet and the CID. -/
def Addressing.head (a : Addressing) (pcb : UInt8) : List UInt8 :=
  if a.useCid then [pcb ||| dfcIsoDepCid, a.cid] else [pcb]

/-- What the reader has on the air. -/
inductive Sending where
  | iBlock | rNak | rAck
  deriving Repr, DecidableEq

/-- A reader in the middle of an exchange: the fragments of the payload that the card
acknowledged, the one in the last I-block, and those still to send. -/
structure Request where
  sent : List (List UInt8)
  current : List UInt8
  rest : List (List UInt8)
  deriving Repr, DecidableEq

/-- The octets of the command. -/
def Request.payload (r : Request) : List UInt8 := (r.sent ++ r.current :: r.rest).flatten

/-- The command was staged, and was too long for the array of the card that stages one. -/
def Request.outgrown (r : Request) : Bool :=
  !r.sent.flatten.isEmpty && decide (pendingCommandSize < r.payload.length)

structure Reader where
  number : Bool := false
  /-- The exchange under way; none when everything was sent and answered. -/
  request : Option Request := none
  /-- Octets of the response received so far, while a response chain is received. -/
  receiving : Option (List UInt8) := none
  sending : Sending := .iBlock
  /-- Payloads still to come, cut into fragments. -/
  todo : List (List (List UInt8)) := []
  /-- Completed exchanges: the payload and the response. -/
  done : List (List UInt8 × List UInt8) := []
  deriving Repr, DecidableEq

/-- Takes up the next payload. A payload without a fragment is one empty fragment. -/
def Reader.next (r : Reader) : Reader :=
  match r.todo with
  | [] => { r with request := none, receiving := none, sending := .iBlock }
  | fragments :: todo =>
    { r with
      request := some { sent := [], current := fragments.headD [], rest := fragments.tail }
      receiving := none
      sending := .iBlock
      todo := todo }

/-- The reader after activation. -/
def Reader.start (payloads : List (List (List UInt8))) : Reader :=
  Reader.next { todo := payloads }

def Reader.frame (a : Addressing) (r : Reader) (q : Request) : List UInt8 :=
  let sequence := bitIf r.number dfcIsoDepSequenceBit
  match r.sending with
  | .iBlock =>
    a.head (dfcIsoDepIBlock ||| sequence ||| bitIf (!q.rest.isEmpty) dfcIsoDepMore) ++ q.current
  | .rNak => a.head (dfcIsoDepRBlock ||| sequence ||| dfcIsoDepRNak)
  | .rAck => a.head (dfcIsoDepRBlock ||| sequence)

/-- A block of the card, as the reader reads it. -/
structure Block where
  isI : Bool
  number : Bool
  more : Bool
  inf : List UInt8
  deriving Repr, DecidableEq

def parseBlock (frame : List UInt8) : Option Block :=
  let pcb := frame.headD 0
  let inf := frame.drop (if hasBit pcb dfcIsoDepCid then 2 else 1)
  if frame.isEmpty then none
  else if isIBlock pcb then
    some { isI := true, number := hasBit pcb dfcIsoDepSequenceBit, more := hasBit pcb dfcIsoDepMore,
           inf := inf }
  else if isRBlock pcb && !hasBit pcb dfcIsoDepRNak then
    some { isI := false, number := hasBit pcb dfcIsoDepSequenceBit, more := false, inf := [] }
  else none

/-- No usable answer: R(ACK) while a response chain is received, R(NAK) otherwise. -/
def Reader.timeout (r : Reader) : Reader :=
  { r with sending := if r.receiving.isSome then .rAck else .rNak }

/-- The reader after a block arrived. -/
def Reader.receive (r : Reader) (q : Request) (b : Block) : Reader :=
  if b.isI then
    if b.number != r.number || !q.rest.isEmpty then r.timeout
    else
      let response := r.receiving.getD [] ++ b.inf
      if b.more then
        { r with number := !r.number, receiving := some response, sending := .rAck }
      else
        Reader.next { r with number := !r.number, done := r.done ++ [(q.payload, response)] }
  else if r.receiving.isSome then r.timeout
  else if b.number != r.number then
    -- The card has not seen the last I-block.
    { r with sending := .iBlock }
  else match q.rest with
  | [] => r.timeout
  | fragment :: rest =>
    { r with
      number := !r.number
      request := some { sent := q.sent ++ [q.current], current := fragment, rest := rest }
      sending := .iBlock }

/-- What the link does with one frame and its answer. -/
inductive Delivery where
  | delivered | frameLost | answerLost
  deriving Repr, DecidableEq

structure Link (σ : Type) where
  reader : Reader
  card : Session σ

variable {σ : Type} (E : Executor σ) (a : Addressing) (capacity : ℕ)

/-- One turn: the reader sends, the card handles what arrives, the reader goes on with
what comes back. -/
def Link.step (l : Link σ) (delivery : Delivery) : Link σ :=
  match l.reader.request with
  | none => l
  | some q =>
    match delivery with
    | .frameLost => { l with reader := l.reader.timeout }
    | .answerLost =>
      { reader := l.reader.timeout
        card := (dfcVirtualPiccIsoDepFrameExchange E l.card (l.reader.frame a q) capacity).1 }
    | .delivered =>
      let (card, status, answer) :=
        dfcVirtualPiccIsoDepFrameExchange E l.card (l.reader.frame a q) capacity
      match status, parseBlock answer with
      | .ok, some block => { reader := l.reader.receive q block, card := card }
      | _, _ => { reader := l.reader.timeout, card := card }

def Link.run (l : Link σ) (deliveries : List Delivery) : Link σ :=
  deliveries.foldl (Link.step E a capacity) l

section
variable [DecidableEq σ]

/-- The command fails with an effect, or takes with it the fragments the card has staged. A
failure for want of random octets does neither. -/
def Executor.failsHalfway (emulator : σ) (q : Request) : Bool :=
  match E.run emulator q.payload with
  | .failed emulator' _ false => decide (emulator' ≠ emulator) || q.outgrown
  | _ => false

/-- No last fragment that reaches the card brings a command that fails half way. -/
def Link.runsClean : Link σ → List Delivery → Prop
  | _, [] => True
  | l, delivery :: deliveries =>
    (delivery ≠ .frameLost → ∀ q, l.reader.request = some q → q.rest = [] →
      l.reader.sending = .iBlock → E.failsHalfway l.card.emulator q = false) ∧
    Link.runsClean (l.step E a capacity delivery) deliveries

/-- The executor that keeps the commands it carried out, with their responses. One that failed
without an effect was not carried out; one that failed otherwise has no response. -/
def Executor.logged : Executor (σ × List (List UInt8 × List UInt8)) where
  run s command :=
    match E.run s.1 command with
    | .answered emulator answer =>
      .answered (emulator, s.2 ++ [(command, answer.octets)]) answer
    | .failed emulator status retryable =>
      .failed (emulator, if retryable ∨ emulator = s.1 then s.2 else s.2 ++ [(command, [])]) status
        retryable
  commandChainActive s := E.commandChainActive s.1
  resetActivation s := (E.resetActivation s.1, s.2)
  piccAts s := E.piccAts s.1

end

end DfcCore.IsoDep
