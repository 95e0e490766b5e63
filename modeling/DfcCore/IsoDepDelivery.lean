import DfcCore.IsoDepFrames

/-!
# Delivery over a lossy link

`Sync` lists the six ways a reader and a card can stand to each other. A turn of the link
leads from one of them to another, whatever is lost, because the card keeps its last block
and numbers its blocks by itself. With an executor that keeps a log this gives the contract
of the block layer: each command is executed at most once, in order and with the octets the
reader sent, and what the reader assembles is the response of that execution.
-/
namespace DfcCore.IsoDep
variable {σ : Type} {E : Executor σ} {a : Addressing} {capacity : ℕ}

/-- The exchanges in which a command was executed: an empty payload is only echoed. -/
def executed (exchanges : List (List UInt8 × List UInt8)) : List (List UInt8 × List UInt8) :=
  exchanges.filter fun e => !e.1.isEmpty

section
variable {l : Link σ} {q : Request} {card : Session σ}

theorem Link.step_frameLost (hq : l.reader.request = some q) :
    l.step E a capacity .frameLost = { l with reader := l.reader.timeout } := by
  rw [Link.step, hq]

theorem Link.step_answerLost {status : DfcVirtualPiccStatus} {block : List UInt8}
    (hq : l.reader.request = some q)
    (hx : dfcVirtualPiccIsoDepFrameExchange E l.card (l.reader.frame a q) capacity =
      (card, status, block)) :
    l.step E a capacity .answerLost = { reader := l.reader.timeout, card := card } := by
  simp only [Link.step, hq, hx]

/-- Without an answer there is nothing to lose. -/
theorem Link.step_silent {status : DfcVirtualPiccStatus} (hq : l.reader.request = some q)
    (hx : dfcVirtualPiccIsoDepFrameExchange E l.card (l.reader.frame a q) capacity =
      (card, status, [])) :
    l.step E a capacity .delivered = { reader := l.reader.timeout, card := card } := by
  have hnone : parseBlock [] = none := rfl
  simp only [Link.step, hq, hx, hnone]

theorem Link.step_delivered {block : List UInt8} {b : Block} (hq : l.reader.request = some q)
    (hx : dfcVirtualPiccIsoDepFrameExchange E l.card (l.reader.frame a q) capacity =
      (card, .ok, block)) (hb : parseBlock block = some b) :
    l.step E a capacity .delivered = { reader := l.reader.receive q b, card := card } := by
  simp only [Link.step, hq, hx, hb]

end

theorem Reader.frame_iBlock {r : Reader} (h : r.sending = .iBlock) (q : Request) :
    r.frame a q = a.head (iPcb r.number (!q.rest.isEmpty)) ++ q.current := by
  simp only [Reader.frame, h, iPcb]

theorem Reader.frame_rNak {r : Reader} (h : r.sending = .rNak) (q : Request) :
    r.frame a q = a.head (rPcb r.number true) := by
  simp only [Reader.frame, h, rPcb, bitIf, if_true]

theorem Reader.frame_rAck {r : Reader} (h : r.sending = .rAck) (q : Request) :
    r.frame a q = a.head (rPcb r.number false) := by
  simp only [Reader.frame, h, rPcb, bitIf, Bool.false_eq_true, if_false, UInt8.or_zero]

/-- A frame with an R-block, of either kind. -/
theorem Reader.frame_rBlock {r : Reader} (h : r.sending ≠ .iBlock) (q : Request) :
    ∃ nak, r.frame a q = a.head (rPcb r.number nak) := by
  cases hs : r.sending with
  | iBlock => exact absurd hs h
  | rNak => exact ⟨true, Reader.frame_rNak hs q⟩
  | rAck => exact ⟨false, Reader.frame_rAck hs q⟩

/-- The commands of the reader: those done, the one under way and those to come. -/
def Reader.commands (r : Reader) : List (List UInt8) :=
  r.done.map Prod.fst ++ (r.request.map Request.payload).toList ++ r.todo.map List.flatten

theorem Reader.commands_next (r : Reader) :
    r.next.commands = r.done.map Prod.fst ++ r.todo.map List.flatten := by
  cases htodo : r.todo with
  | nil => simp [Reader.next, Reader.commands, htodo]
  | cons fragments todo =>
    cases fragments with
    | nil => simp [Reader.next, Reader.commands, htodo, Request.payload]
    | cons fragment fragments => simp [Reader.next, Reader.commands, htodo, Request.payload]

theorem Reader.commands_start (payloads : List (List (List UInt8))) :
    (Reader.start payloads).commands = payloads.map List.flatten := by
  rw [Reader.start, Reader.commands_next]
  rfl

theorem Reader.commands_timeout (r : Reader) : r.timeout.commands = r.commands := rfl

/-- No block makes the reader lose, repeat or reorder a command. -/
theorem Reader.commands_receive {r : Reader} {q : Request} (hq : r.request = some q) (b : Block) :
    (r.receive q b).commands = r.commands := by
  have hcommands : r.commands =
      r.done.map Prod.fst ++ [q.payload] ++ r.todo.map List.flatten := by
    simp [Reader.commands, hq]
  rw [Reader.receive]
  split
  · split
    · exact r.commands_timeout
    · dsimp only
      split
      · rfl
      · rw [Reader.commands_next, hcommands]
        simp
  · split
    · exact r.commands_timeout
    · split
      · rfl
      · split
        · exact r.commands_timeout
        · rename_i fragment rest hrest
          rw [hcommands]
          simp [Reader.commands, Request.payload, hrest]

theorem Link.commands_step {l : Link σ} (delivery : Delivery) :
    (l.step E a capacity delivery).reader.commands = l.reader.commands := by
  cases hq : l.reader.request with
  | none => rw [Link.step, hq]
  | some q =>
    rw [Link.step, hq]
    cases delivery with
    | frameLost => exact l.reader.commands_timeout
    | answerLost => exact l.reader.commands_timeout
    | delivered =>
      dsimp only
      split
      · exact Reader.commands_receive hq _
      · exact l.reader.commands_timeout

theorem Link.commands_run {l : Link σ} (deliveries : List Delivery) :
    (l.run E a capacity deliveries).reader.commands = l.reader.commands := by
  induction deliveries generalizing l with
  | nil => rfl
  | cons delivery deliveries ih =>
    rw [Link.run, List.foldl_cons]
    exact ih.trans (Link.commands_step delivery)

theorem executed_commands (exchanges : List (List UInt8 × List UInt8)) :
    (executed exchanges).map Prod.fst =
      (exchanges.map Prod.fst).filter fun command => !command.isEmpty := by
  rw [executed, List.filter_map]
  rfl

theorem CardAnswers.open {s : Session σ} {n : Bool} {response received chunk rest : List UInt8}
    (h : CardAnswers E a s n response received chunk rest) : Open E a s := by
  by_cases hrest : rest = []
  · exact (h.finished hrest).open h.ready h.holds.valid
  · exact (h.pending hrest).open h.ready h.holds

/-- The emulator, its credential and the staged request are the same. -/
structure SameRequest (s s' : Session σ) : Prop where
  emulator : s'.emulator = s.emulator
  pendingCommand : s'.pendingCommand = s.pendingCommand
  pendingCommandLen : s'.pendingCommandLen = s.pendingCommandLen
  commandChain : s'.commandChain = s.commandChain

theorem SameRequest.refl (s : Session σ) : SameRequest s s := ⟨rfl, rfl, rfl, rfl⟩

theorem sameRequest_finish (s : Session σ) : SameRequest s (finishResponse s) := by
  rw [finishResponse, retireFinishedResponseStorage, releaseIsoResponse]
  split_ifs <;> exact ⟨rfl, rfl, rfl, rfl⟩

theorem SameRequest.trans {s s' s'' : Session σ} (h : SameRequest s s') (h' : SameRequest s' s'') :
    SameRequest s s'' :=
  ⟨h'.emulator.trans h.emulator, h'.pendingCommand.trans h.pendingCommand,
    h'.pendingCommandLen.trans h.pendingCommandLen, h'.commandChain.trans h.commandChain⟩

theorem sameRequest_buildI (s : Session σ) (inf : List UInt8) (more : Bool) :
    SameRequest s (buildIsoDepIBlock s inf more capacity).1 := by
  rw [buildIsoDepIBlock]
  split
  · exact SameRequest.refl s
  · exact ⟨rfl, rfl, rfl, rfl⟩

theorem sameRequest_advance {s s' : Session σ} (h : SameRequest s s') (more : Bool) :
    SameRequest s (if more then s' else finishResponse s') := by
  split
  · exact h
  · exact h.trans (sameRequest_finish s')

theorem sameRequest_writeNext {s : Session σ} (hv : pendingResponseIsValid E s = true) :
    SameRequest s (writeNextIsoDepResponseBlock E s capacity).1 := by
  rw [writeNextIsoDepResponseBlock, hv]
  simp only [Bool.not_true, Bool.false_eq_true, if_false]
  cases s.pendingResponsePrefix with
  | cons first rest =>
    dsimp only
    split
    · split
      · exact SameRequest.refl s
      · exact ⟨rfl, rfl, rfl, rfl⟩
    · split
      · exact SameRequest.refl s
      · refine sameRequest_advance ?_ _
        exact ⟨rfl, rfl, rfl, rfl⟩
  | nil =>
    dsimp only
    split
    · exact sameRequest_buildI s _ _
    · generalize hb : buildIsoDepIBlock s _ _ capacity = r
      have hbuild : SameRequest s r.1 := hb ▸ sameRequest_buildI s _ _
      obtain ⟨s', status, block⟩ := r
      cases status with
      | ok =>
        refine sameRequest_advance ?_ _
        exact ⟨hbuild.emulator, hbuild.pendingCommand, hbuild.pendingCommandLen,
          hbuild.commandChain⟩
      | _ => exact hbuild

theorem sameRequest_write {s : Session σ} (hv : pendingResponseIsValid E s = true) :
    SameRequest s (writeAndRememberIsoDepResponseBlock E s capacity).1 := by
  have hnext : SameRequest s (writeNextIsoDepResponseBlock E s capacity).1 :=
    sameRequest_writeNext hv
  rw [writeAndRememberIsoDepResponseBlock]
  generalize writeNextIsoDepResponseBlock E s capacity = r at hnext
  obtain ⟨s', status, block⟩ := r
  cases status with
  | ok =>
    dsimp only
    split
    · exact ⟨hnext.emulator, hnext.pendingCommand, hnext.pendingCommandLen, hnext.commandChain⟩
    · exact hnext
  | _ => exact hnext

/-- An R-block changes neither the emulator nor the staged request. -/
theorem sameRequest_rBlock {s : Session σ} (hv : pendingResponseIsValid E s = true)
    {frame : List UInt8} (hr : isRBlock (frame.headD 0) = true) :
    SameRequest s (dfcVirtualPiccIsoDepFrameExchange E s frame capacity).1 := by
  obtain ⟨hi, hd, hrats⟩ := isRBlock_kinds hr
  rw [dfcVirtualPiccIsoDepFrameExchange, isRats_eq_false _ hrats]
  simp only [hi, hd, hr, hv, Bool.not_true, Bool.not_false, Bool.false_eq_true, if_false, if_true]
  split
  · exact SameRequest.refl s
  split
  · exact SameRequest.refl s
  split
  · exact SameRequest.refl s
  rw [handleRBlock]
  split
  · exact SameRequest.refl s
  split
  · exact SameRequest.refl s
  split
  · exact SameRequest.refl s
  split
  · split <;> exact SameRequest.refl s
  split
  · rw [buildIsoDepRBlock]
    split_ifs <;> exact SameRequest.refl s
  split
  · exact SameRequest.refl s
  · exact sameRequest_write hv

/-- A card that is in the field and has not answered RATS. A native chain does not share the
command-chain buffer. -/
structure Selectable (E : Executor σ) (s : Session σ) : Prop where
  activated : s.activated = true
  notSelected : s.isoDepSelected = false
  chainOwned : E.commandChainActive s.emulator = true → s.commandChain = none

theorem isoDepMaxInfForFsdi_ge (fsdi : UInt8) : 2 ≤ (isoDepMaxInfForFsdi fsdi).toNat :=
  forall_octet (p := fun fsdi => 2 ≤ (isoDepMaxInfForFsdi fsdi).toNat) (by decide +kernel) fsdi

/-- After RATS the card waits for block zero of the reader that assigned its CID. -/
theorem Selectable.rats {s card : Session σ} {rats ats : List UInt8} {n : ℕ}
    (hs : Selectable E s) (hrats : isRats rats = true)
    (hx : dfcVirtualPiccIsoDepFrameExchange E s rats n = (card, .ok, ats))
    (hcid : rats.getD 1 0 &&& 0x0F = if a.useCid then a.cid else 0) :
    CardWaits E a card [] false ∧ card.emulator = s.emulator := by
  simp only [dfcVirtualPiccIsoDepFrameExchange, hs.activated, hrats, handleRats, hs.notSelected,
    Bool.not_true, Bool.false_eq_true, if_false, if_true] at hx
  split at hx
  · simp [fail] at hx
  rw [Prod.mk.injEq] at hx
  obtain ⟨rfl, -⟩ := hx
  refine ⟨⟨⟨hs.activated, rfl, hcid, isoDepMaxInfForFsdi_ge _, by simp⟩, ?_, ⟨rfl, rfl, rfl, rfl⟩,
    by simp, rfl⟩, rfl⟩
  refine .ofInline rfl ?_ (by simp) (Nat.zero_le _)
  cases hchain : s.commandChain with
  | none => simp [clearTransportStorage, discardPendingCommand, releaseIsoResponse, hchain]
  | some chain =>
    cases hact : E.commandChainActive s.emulator with
    | true => simp [hs.chainOwned hact] at hchain
    | false => simp [clearTransportStorage, discardPendingCommand, borrowsChain,
        releaseIsoResponse, hact, hchain]

variable [DecidableEq σ]

/-- How the reader and the card can stand to each other. The log of the card is ahead of the
exchanges of the reader by at most the one under way. -/
inductive Sync (E : Executor σ) (a : Addressing) :
    Link (σ × List (List UInt8 × List UInt8)) → Prop
  /-- Everything was sent and answered. -/
  | finished {l} (request : l.reader.request = none)
      (card : CardWaits E.logged a l.card [] l.reader.number)
      (log : l.card.emulator.2 = executed l.reader.done) : Sync E a l
  /-- The card has not seen the current fragment. -/
  | waiting {l q} (request : l.reader.request = some q) (receiving : l.reader.receiving = none)
      (sending : l.reader.sending ≠ .rAck)
      (card : CardWaits E.logged a l.card q.sent.flatten l.reader.number)
      (log : l.card.emulator.2 = executed l.reader.done) : Sync E a l
  /-- The card has not the room for the current fragment and never will have. -/
  | stuck {l q} (request : l.reader.request = some q) (receiving : l.reader.receiving = none)
      (sending : l.reader.sending ≠ .rAck) (stage : q.rest ≠ [] ∨ q.sent.flatten ≠ [])
      (card : CardStuck E.logged a l.card q.sent.flatten q.current l.reader.number)
      (log : l.card.emulator.2 = executed l.reader.done) : Sync E a l
  /-- The card acknowledged the current fragment and the reader does not know. -/
  | acknowledged {l q} (request : l.reader.request = some q)
      (receiving : l.reader.receiving = none) (sending : l.reader.sending = .rNak)
      (unfinished : q.rest ≠ [])
      (card : CardWaits E.logged a l.card (q.sent ++ [q.current]).flatten !l.reader.number)
      (last : l.card.lastPiccBlock = a.head (rPcb l.reader.number false))
      (log : l.card.emulator.2 = executed l.reader.done) : Sync E a l
  /-- The card sent a block of the response and the reader does not have it. -/
  | answered {l q} {response chunk rest : List UInt8} (request : l.reader.request = some q)
      (complete : q.rest = [])
      (sending : l.reader.sending = if l.reader.receiving.isSome then .rAck else .rNak)
      (card : CardAnswers E.logged a l.card l.reader.number response
        (l.reader.receiving.getD []) chunk rest)
      (log : l.card.emulator.2 = executed (l.reader.done ++ [(q.payload, response)])) : Sync E a l
  /-- The reader has all that was sent of the response, and more is to come. -/
  | continuing {l q} {response received : List UInt8} (request : l.reader.request = some q)
      (complete : q.rest = []) (receiving : l.reader.receiving = some received)
      (sending : l.reader.sending = .rAck)
      (ready : Ready a l.card) (holds : Holds E.logged l.card [])
      (sequence : l.card.piccSequence = l.reader.number) (last : l.card.lastPiccBlock ≠ [])
      (loaded : Loaded a l.card response received.length)
      (more : received.length < response.length)
      (start : response.take received.length = received)
      (log : l.card.emulator.2 = executed (l.reader.done ++ [(q.payload, response)])) : Sync E a l

/-- A frame or an answer that got lost leaves the two ends in step. -/
theorem Sync.timeout {l : Link (σ × List (List UInt8 × List UInt8))} (h : Sync E a l) :
    Sync E a { l with reader := l.reader.timeout } := by
  cases h with
  | finished request card log => exact .finished request card log
  | waiting request receiving sending card log =>
    exact .waiting request receiving (by simp [Reader.timeout, receiving]) card log
  | stuck request receiving sending stage card log =>
    exact .stuck request receiving (by simp [Reader.timeout, receiving]) stage card log
  | acknowledged request receiving sending unfinished card last log =>
    exact .acknowledged request receiving (by simp [Reader.timeout, receiving]) unfinished card last
      log
  | answered request complete sending card log =>
    exact .answered request complete rfl card log
  | continuing request complete receiving sending ready holds sequence last loaded more start log =>
    exact .continuing request complete receiving (by simp [Reader.timeout, receiving]) ready holds
      sequence last loaded more start log

variable {l : Link (σ × List (List UInt8 × List UInt8))}

/-- The next payload, after an exchange the card has nothing left to send for. -/
theorem Sync.next {r : Reader} {card : Session (σ × List (List UInt8 × List UInt8))}
    (hcard : CardWaits E.logged a card [] r.number) (hlog : card.emulator.2 = executed r.done) :
    Sync E a { reader := r.next, card := card } := by
  cases htodo : r.todo with
  | nil =>
    have hnext : r.next = { r with request := none, receiving := none, sending := .iBlock } := by
      rw [Reader.next, htodo]
    rw [hnext]
    exact .finished rfl hcard hlog
  | cons fragments todo =>
    have hnext : r.next = { r with
        request := some { sent := [], current := fragments.headD [], rest := fragments.tail }
        receiving := none
        sending := .iBlock
        todo := todo } := by
      rw [Reader.next, htodo]
    rw [hnext]
    exact .waiting rfl rfl (by simp) hcard hlog

/-- A block of the response that arrives. -/
theorem Sync.receiveAnswer {r : Reader} {q : Request} {response chunk rest : List UInt8}
    {card : Session (σ × List (List UInt8 × List UInt8))} (hq : r.request = some q)
    (hcomplete : q.rest = [])
    (hcard : CardAnswers E.logged a card r.number response (r.receiving.getD []) chunk rest)
    (hlog : card.emulator.2 = executed (r.done ++ [(q.payload, response)])) :
    Sync E a
      { reader := r.receive q
          { isI := true, number := r.number, more := !rest.isEmpty, inf := chunk }
        card := card } := by
  have hsplit := hcard.split
  simp only [Reader.receive, hcomplete, bne_self_eq_false, List.isEmpty_nil, Bool.not_true,
    Bool.or_false, Bool.false_eq_true, if_true, if_false]
  cases rest with
  | nil =>
    rw [List.append_nil] at hsplit
    have hquiet := hcard.finished rfl
    have hlast : card.lastPiccBlock ≠ [] := by
      rw [hcard.last]
      simp [head_ne_nil]
    simp only [List.isEmpty_nil, Bool.not_true, Bool.false_eq_true, if_false, ← hsplit]
    exact Sync.next ⟨hcard.ready, hcard.holds.requests_nil, hquiet, hlast, hcard.sequence⟩ hlog
  | cons octet rest =>
    have hlast : card.lastPiccBlock ≠ [] := by
      rw [hcard.last]
      simp [head_ne_nil]
    simp only [List.isEmpty_cons, Bool.not_false, if_true]
    refine .continuing hq hcomplete rfl rfl hcard.ready hcard.holds hcard.sequence hlast
      (hcard.pending (by simp)) ?_ ?_ hlog
    · rw [hsplit]
      simp
    · rw [hsplit]
      exact List.take_left

/-- A turn in which the card stays silent. -/
theorem Sync.silent {q : Request} {card : Session (σ × List (List UInt8 × List UInt8))}
    {status : DfcVirtualPiccStatus} (h : Sync E a l) (hq : l.reader.request = some q)
    (hx : dfcVirtualPiccIsoDepFrameExchange E.logged l.card (l.reader.frame a q) capacity =
      (card, status, []))
    (hlost : Sync E a { reader := l.reader.timeout, card := card }) (delivery : Delivery) :
    Sync E a (l.step E.logged a capacity delivery) := by
  cases delivery with
  | frameLost => exact Link.step_frameLost (E := E.logged) hq ▸ h.timeout
  | answerLost => exact Link.step_answerLost hq hx ▸ hlost
  | delivered => exact Link.step_silent hq hx ▸ hlost

/-- A turn in which the card answers. -/
theorem Sync.turn {q : Request} {card : Session (σ × List (List UInt8 × List UInt8))}
    {block : List UInt8} {b : Block} (h : Sync E a l) (hq : l.reader.request = some q)
    (hx : dfcVirtualPiccIsoDepFrameExchange E.logged l.card (l.reader.frame a q) capacity =
      (card, .ok, block))
    (hb : parseBlock block = some b)
    (hlost : Sync E a { reader := l.reader.timeout, card := card })
    (hreceived : Sync E a { reader := l.reader.receive q b, card := card }) (delivery : Delivery) :
    Sync E a (l.step E.logged a capacity delivery) := by
  cases delivery with
  | frameLost => exact Link.step_frameLost (E := E.logged) hq ▸ h.timeout
  | answerLost => exact Link.step_answerLost hq hx ▸ hlost
  | delivered => exact Link.step_delivered hq hx hb ▸ hreceived

/-- The acknowledgement of the current fragment takes the reader to the next one. -/
theorem Sync.receiveAck {r : Reader} {q : Request}
    {card : Session (σ × List (List UInt8 × List UInt8))} (hreceiving : r.receiving = none)
    (hrest : q.rest ≠ [])
    (hcard : CardWaits E.logged a card (q.sent ++ [q.current]).flatten !r.number)
    (hlog : card.emulator.2 = executed r.done) :
    Sync E a
      { reader := r.receive q { isI := false, number := r.number, more := false, inf := [] }
        card := card } := by
  obtain ⟨fragment, rest, hrest⟩ := List.exists_cons_of_ne_nil hrest
  simp only [Reader.receive, hreceiving, hrest, bne_self_eq_false, Option.isSome_none,
    Bool.false_eq_true, if_false]
  exact .waiting rfl rfl (by simp) hcard hlog

theorem logged_answered {s s' : σ × List (List UInt8 × List UInt8)} {command : List UInt8}
    {answer : Answer} (h : E.logged.run s command = .answered s' answer) :
    s'.2 = s.2 ++ [(command, answer.octets)] := by
  cases hr : E.run s.1 command with
  | failed emulator reason retryable => simp [Executor.logged, hr] at h
  | answered emulator answer' =>
    simp only [Executor.logged, hr, Outcome.answered.injEq] at h
    rw [← h.1, ← h.2]

theorem logged_retryable {s s' : σ × List (List UInt8 × List UInt8)} {command : List UInt8}
    {reason : DfcVirtualPiccStatus} (h : E.logged.run s command = .failed s' reason true) :
    s'.2 = s.2 := by
  cases hr : E.run s.1 command with
  | answered emulator answer' => simp [Executor.logged, hr] at h
  | failed emulator reason' retryable =>
    simp only [Executor.logged, hr, Outcome.failed.injEq] at h
    obtain ⟨rfl, -, rfl⟩ := h
    simp

theorem Executor.Contract.logged (hE : E.Contract) : E.logged.Contract where
  nonempty {s command s' answer} h := by
    cases hr : E.run s.1 command with
    | answered emulator answer' =>
      simp only [Executor.logged, hr, Outcome.answered.injEq] at h
      exact h.2 ▸ hE.nonempty hr
    | failed emulator reason retryable => simp [Executor.logged, hr] at h
  random {s command s' status} h := by
    cases hr : E.run s.1 command with
    | answered emulator answer' => simp [Executor.logged, hr] at h
    | failed emulator reason retryable =>
      simp only [Executor.logged, hr, Outcome.failed.injEq] at h
      obtain ⟨rfl, -, rfl⟩ := h
      exact hE.random hr
  large {s command s' status retryable} h hlarge := by
    cases hr : E.run s.1 command with
    | answered emulator answer' => simp [Executor.logged, hr] at h
    | failed emulator reason retryable' =>
      simp only [Executor.logged, hr, Outcome.failed.injEq] at h
      obtain ⟨rfl, -, -⟩ := h
      exact hE.large hr hlarge
  reset s := hE.reset s.1

theorem harmless_of_not_halfway {emulator emulator' : σ} {q : Request}
    {reason : DfcVirtualPiccStatus} (h : E.failsHalfway emulator q = false)
    (hr : E.run emulator q.payload = .failed emulator' reason false) :
    emulator' = emulator ∧ (q.sent.flatten = [] ∨ q.payload.length ≤ pendingCommandSize) := by
  simpa [Executor.failsHalfway, hr, Request.outgrown, imp_iff_not_or] using h

/-- The turn of a fragment the card has not seen. -/
theorem Sync.step_fragment {q : Request} (h : Sync E a l)
    (hcap : dfcVirtualPiccMaxBlockSize ≤ capacity) (hq : l.reader.request = some q)
    (hreceiving : l.reader.receiving = none) (hsending : l.reader.sending = .iBlock)
    (hrest : q.rest ≠ []) (hcard : CardWaits E.logged a l.card q.sent.flatten l.reader.number)
    (hlog : l.card.emulator.2 = executed l.reader.done) (delivery : Delivery) :
    Sync E a (l.step E.logged a capacity delivery) := by
  have htimeout : l.reader.timeout.sending = .rNak := by simp [Reader.timeout, hreceiving]
  have hframe : l.reader.frame a q = a.head (iPcb l.reader.number true) ++ q.current := by
    have hmore : q.rest.isEmpty = false := by simpa using hrest
    rw [Reader.frame_iBlock hsending, hmore]
    rfl
  obtain ⟨card, status, hx, hcard', he⟩ | ⟨card, hx, hcard', hlast, he⟩ :=
    hcard.fragment q.current hcap
  · rw [← hframe] at hx
    refine h.silent hq hx ?_ delivery
    obtain hwaits | hstuck := hcard'
    · exact .waiting hq hreceiving (by simp [htimeout]) hwaits (he ▸ hlog)
    · exact .stuck hq hreceiving (by simp [htimeout]) (.inl hrest) hstuck (he ▸ hlog)
  · rw [← hframe] at hx
    have hsent : q.sent.flatten ++ q.current = (q.sent ++ [q.current]).flatten := by simp
    rw [hsent] at hcard'
    refine h.turn hq hx (parseBlock_r a _) ?_ ?_ delivery
    · exact .acknowledged hq hreceiving htimeout hrest hcard' hlast (he ▸ hlog)
    · exact Sync.receiveAck hreceiving hrest hcard' (he ▸ hlog)

/-- The turn of the fragment that completes a request. -/
theorem Sync.step_complete {q : Request} (h : Sync E a l) (hE : E.Contract)
    (hcap : dfcVirtualPiccMaxBlockSize ≤ capacity) (hq : l.reader.request = some q)
    (hreceiving : l.reader.receiving = none) (hsending : l.reader.sending = .iBlock)
    (hrest : q.rest = []) (hcard : CardWaits E.logged a l.card q.sent.flatten l.reader.number)
    (hlog : l.card.emulator.2 = executed l.reader.done) (delivery : Delivery)
    (hclean : delivery ≠ .frameLost → E.logged.failsHalfway l.card.emulator q = false) :
    Sync E a (l.step E.logged a capacity delivery) := by
  by_cases hlost : delivery = .frameLost
  · rw [hlost, Link.step_frameLost (E := E.logged) hq]
    exact h.timeout
  have htimeout : l.reader.timeout.sending = .rNak := by simp [Reader.timeout, hreceiving]
  have hframe : l.reader.frame a q = a.head (iPcb l.reader.number false) ++ q.current := by
    rw [Reader.frame_iBlock hsending]
    simp [hrest]
  have hpayload : q.sent.flatten ++ q.current = q.payload := by simp [Request.payload, hrest]
  have hcompleted := hcard.complete hE.logged q.current hcap fun hrun => by
    rw [hpayload] at hrun ⊢
    exact harmless_of_not_halfway (hclean hlost) hrun
  -- The answer is on its way: the reader gets it, or asks for it again.
  have hanswer {card : Session (σ × List (List UInt8 × List UInt8))}
      {response chunk rest : List UInt8}
      (hx : dfcVirtualPiccIsoDepFrameExchange E.logged l.card (l.reader.frame a q) capacity =
        (card, .ok, card.lastPiccBlock))
      (hc : CardAnswers E.logged a card l.reader.number response [] chunk rest)
        (hlog' : card.emulator.2 = executed (l.reader.done ++ [(q.payload, response)])) :
      Sync E a (l.step E.logged a capacity delivery) := by
    have hc' : CardAnswers E.logged a card l.reader.number response (l.reader.receiving.getD [])
        chunk rest := by rw [hreceiving]; exact hc
    rw [hc.last] at hx
    refine h.turn hq hx (parseBlock_i a _ _ _) ?_ ?_ delivery
    · exact .answered hq hrest rfl hc' hlog'
    · exact Sync.receiveAnswer hq hrest hc' hlog'
  rw [hpayload, ← hframe] at hcompleted
  generalize hx : dfcVirtualPiccIsoDepFrameExchange E.logged l.card (l.reader.frame a q) capacity =
    x at hcompleted
  cases hcompleted with
  | refused card emulator =>
    refine h.silent hq hx (.waiting hq hreceiving (by simp [htimeout]) card ?_) delivery
    obtain he | ⟨reason, he⟩ := emulator
    · exact he ▸ hlog
    · exact (logged_retryable he).trans hlog
  | stuck appended stage card emulator =>
    rw [← hpayload, List.append_cancel_left_eq] at appended
    subst appended
    exact h.silent hq hx (.stuck hq hreceiving (by simp [htimeout]) (.inr stage) card
      (emulator ▸ hlog)) delivery
  | empty nothing card emulator =>
    refine hanswer hx card ?_
    rw [emulator, hlog, nothing]
    simp [executed]
  | answered nonempty run card =>
    refine hanswer hx card ?_
    rw [logged_answered run, hlog]
    simp [executed, nonempty]

/-- The turn in which the next block of a response is asked for. -/
theorem Sync.step_continuing {q : Request} {response received : List UInt8} (h : Sync E a l)
    (hcap : dfcVirtualPiccMaxBlockSize ≤ capacity) (hq : l.reader.request = some q)
    (hcomplete : q.rest = []) (hreceiving : l.reader.receiving = some received)
    (hsending : l.reader.sending = .rAck) (hready : Ready a l.card)
    (hholds : Holds E.logged l.card []) (hsequence : l.card.piccSequence = l.reader.number)
    (hlast : l.card.lastPiccBlock ≠ []) (hloaded : Loaded a l.card response received.length)
    (hmore : received.length < response.length)
    (hstart : response.take received.length = received)
    (hlog : l.card.emulator.2 = executed (l.reader.done ++ [(q.payload, response)]))
    (delivery : Delivery) : Sync E a (l.step E.logged a capacity delivery) := by
  obtain ⟨card, chunk, rest, hdrop, hwrite, hsent⟩ := hloaded.write hready hholds hmore hcap
  have hlen : l.card.pendingResponseLen ≠ 0 := by
    rw [hloaded.len]
    omega
  have hx := (hloaded.open hready hholds).ackNext capacity hlast hsequence hlen
  rw [hwrite, ← Reader.frame_rAck hsending q] at hx
  have hsplit : response = received ++ chunk ++ rest := by
    rw [List.append_assoc, ← hdrop]
    conv_rhs => rw [← hstart, List.length_take, Nat.min_eq_left hmore.le]
    exact (List.take_append_drop _ _).symm
  rw [← List.length_append] at hsent
  have hcard := hsent.answers hsplit
  have hcard' : CardAnswers E.logged a card l.reader.number response (l.reader.receiving.getD [])
      chunk rest := by
    rw [hreceiving, ← hsequence]
    exact hcard
  have hlog' : card.emulator.2 = executed (l.reader.done ++ [(q.payload, response)]) := by
    rw [hsent.emulator]
    exact hlog
  rw [hsequence] at hx
  refine h.turn hq hx (parseBlock_i a _ _ _) ?_ ?_ delivery
  · exact .answered hq hcomplete rfl hcard' hlog'
  · exact Sync.receiveAnswer hq hcomplete hcard' hlog'

/-- A turn keeps the two ends in step. -/
theorem Sync.step (h : Sync E a l) (hE : E.Contract) (hcap : dfcVirtualPiccMaxBlockSize ≤ capacity)
    (delivery : Delivery)
    (hclean : delivery ≠ .frameLost → ∀ q, l.reader.request = some q → q.rest = [] →
      l.reader.sending = .iBlock → E.logged.failsHalfway l.card.emulator q = false) :
    Sync E a (l.step E.logged a capacity delivery) := by
  have hsync := h
  cases h with
  | finished request card log =>
    have hstay : l.step E.logged a capacity delivery = l := by rw [Link.step, request]
    rw [hstay]
    exact hsync
  | @waiting q request receiving sending card log =>
    cases hs : l.reader.sending with
    | rAck => exact absurd hs sending
    | iBlock =>
      by_cases hrest : q.rest = []
      · exact hsync.step_complete hE hcap request receiving hs hrest card log delivery
          fun hlost => hclean hlost q request hrest hs
      · exact hsync.step_fragment hcap request receiving hs hrest card log delivery
    | rNak =>
      -- The card tells the reader that it has not seen the fragment.
      have hx := card.open.nakNext hcap card.last card.sequence
      rw [← Reader.frame_rNak hs q] at hx
      refine hsync.turn request hx (parseBlock_r a _) hsync.timeout ?_ delivery
      simp only [Reader.receive, receiving, Option.isSome_none, Bool.false_eq_true, if_false,
        Bool.not_bne_self, if_true]
      exact .waiting request rfl (by simp) card log
  | @stuck q request receiving sending stage card log =>
    cases hs : l.reader.sending with
    | rAck => exact absurd hs sending
    | iBlock =>
      have hstage : (!q.rest.isEmpty) = true ∨ q.sent.flatten ≠ [] := by simpa using stage
      have hx := card.refuses hstage capacity
      rw [← Reader.frame_iBlock hs] at hx
      exact hsync.silent request hx hsync.timeout delivery
    | rNak =>
      have hx := card.open.nakNext hcap card.last card.sequence
      rw [← Reader.frame_rNak hs q] at hx
      refine hsync.turn request hx (parseBlock_r a _) hsync.timeout ?_ delivery
      simp only [Reader.receive, receiving, Option.isSome_none, Bool.false_eq_true, if_false,
        Bool.not_bne_self, if_true]
      exact .stuck request rfl (by simp) stage card log
  | @acknowledged q request receiving sending unfinished card last log =>
    have hx := card.open.repeats true hcap card.last card.sequence
    rw [← Reader.frame_rNak sending q, last] at hx
    exact hsync.turn request hx (parseBlock_r a _) hsync.timeout
      (Sync.receiveAck receiving unfinished card log) delivery
  | @answered q response chunk rest request complete sending card log =>
    have hne : l.reader.sending ≠ .iBlock := by
      rw [sending]
      split_ifs <;> decide
    have hlast : l.card.lastPiccBlock ≠ [] := by
      rw [card.last]
      simp [head_ne_nil]
    obtain ⟨nak, hframe⟩ := Reader.frame_rBlock (a := a) hne q
    have hx := card.open.repeats nak hcap hlast card.sequence
    rw [← hframe, card.last] at hx
    exact hsync.turn request hx (parseBlock_i a _ _ _) hsync.timeout
      (Sync.receiveAnswer request complete card log) delivery
  | continuing request complete receiving sending ready holds sequence last loaded more start log =>
    exact hsync.step_continuing hcap request complete receiving sending ready holds sequence last
      loaded more start log delivery

theorem Sync.run (h : Sync E a l) (hE : E.Contract) (hcap : dfcVirtualPiccMaxBlockSize ≤ capacity)
    (deliveries : List Delivery) (hclean : l.runsClean E.logged a capacity deliveries) :
    Sync E a (l.run E.logged a capacity deliveries) := by
  induction deliveries generalizing l with
  | nil => exact h
  | cons delivery deliveries ih =>
    obtain ⟨hfirst, hrest⟩ := hclean
    exact ih (h.step hE hcap delivery hfirst) hrest

/-- The log holds the exchanges of the reader, and at most the command under way beyond. -/
theorem Sync.log_cases (h : Sync E a l) :
    l.card.emulator.2 = executed l.reader.done ∨
    ∃ q response, l.reader.request = some q ∧
      l.card.emulator.2 = executed (l.reader.done ++ [(q.payload, response)]) := by
  cases h with
  | finished request card log => exact .inl log
  | waiting request receiving sending card log => exact .inl log
  | stuck request receiving sending stage card log => exact .inl log
  | acknowledged request receiving sending unfinished card last log => exact .inl log
  | answered request complete sending card log => exact .inr ⟨_, _, request, log⟩
  | continuing request complete receiving sending ready holds sequence last loaded more start log =>
    exact .inr ⟨_, _, request, log⟩

/-- The commands of the log are the first of those the reader was given. -/
theorem Sync.log_isPrefix (h : Sync E a l) :
    l.card.emulator.2.map Prod.fst <+:
      l.reader.commands.filter fun command => !command.isEmpty := by
  obtain hlog | ⟨q, response, hq, hlog⟩ := h.log_cases
  · rw [hlog, executed_commands]
    refine List.IsPrefix.filter _ ?_
    rw [Reader.commands, List.append_assoc]
    exact List.prefix_append _ _
  · rw [hlog, executed_commands]
    refine List.IsPrefix.filter _ ?_
    rw [Reader.commands, hq, List.map_append]
    exact List.prefix_append _ _

theorem Sync.done_isPrefix (h : Sync E a l) : executed l.reader.done <+: l.card.emulator.2 := by
  obtain hlog | ⟨q, response, -, hlog⟩ := h.log_cases
  · rw [hlog]
  · rw [hlog]
    exact List.IsPrefix.filter _ (List.prefix_append _ _)

theorem Sync.card_valid (h : Sync E a l) : pendingResponseIsValid E.logged l.card = true := by
  cases h with
  | finished request card log => exact card.open.valid
  | waiting request receiving sending card log => exact card.open.valid
  | stuck request receiving sending stage card log => exact card.open.valid
  | acknowledged request receiving sending unfinished card last log => exact card.open.valid
  | answered request complete sending card log => exact card.open.valid
  | continuing request complete receiving sending ready holds sequence last loaded more start log =>
    exact loaded.valid ready holds

/-- Over a link that may lose any frame in either direction, and as long as no command fails half
way, each command is executed at most once, in the order of the payloads and with exactly their
octets; the responses the reader assembled are those of the executions; and R-blocks leave the
emulator and the staged request alone. -/
theorem isoDep_deliversOnce (E : Executor σ) (hE : E.Contract) (a : Addressing)
    (idle card : Session (σ × List (List UInt8 × List UInt8))) (rats ats : List UInt8)
    (ratsCapacity capacity : ℕ) (hidle : Selectable E.logged idle) (hlog : idle.emulator.2 = [])
    (hrats : isRats rats = true)
    (hx : dfcVirtualPiccIsoDepFrameExchange E.logged idle rats ratsCapacity = (card, .ok, ats))
    (hcid : rats.getD 1 0 &&& 0x0F = if a.useCid then a.cid else 0)
    (hcap : dfcVirtualPiccMaxBlockSize ≤ capacity) (payloads : List (List (List UInt8)))
    (deliveries : List Delivery)
    (hclean : Link.runsClean E.logged a capacity
      { reader := Reader.start payloads, card := card } deliveries) :
    let l := Link.run E.logged a capacity { reader := Reader.start payloads, card := card }
      deliveries
    l.card.emulator.2.map Prod.fst <+:
        ((payloads.map List.flatten).filter fun command => !command.isEmpty) ∧
      executed l.reader.done <+: l.card.emulator.2 ∧
      l.reader.done.map Prod.fst <+: payloads.map List.flatten ∧
      ∀ frame n, isRBlock (frame.headD 0) = true →
        SameRequest l.card (dfcVirtualPiccIsoDepFrameExchange E.logged l.card frame n).1 := by
  intro l
  obtain ⟨hcard, he⟩ := hidle.rats hrats hx hcid
  have hstart : Sync E a { reader := Reader.start payloads, card := card } := by
    refine Sync.next hcard ?_
    rw [he, hlog]
    rfl
  have hsync : Sync E a l := hstart.run hE hcap deliveries hclean
  have hcommands : l.reader.commands = payloads.map List.flatten :=
    (Link.commands_run deliveries).trans (Reader.commands_start payloads)
  refine ⟨?_, hsync.done_isPrefix, ?_, fun frame n hr => sameRequest_rBlock hsync.card_valid hr⟩
  · rw [← hcommands]
    exact hsync.log_isPrefix
  · rw [← hcommands, Reader.commands, List.append_assoc]
    exact List.prefix_append _ _

/-- A card without applications, as far as GetApplicationIDs and other commands tell. -/
def blankCard : Executor Unit where
  run s command :=
    .answered s { octets := if command = [0x6A] then [0x00] else [0x1C], staged := false,
                  fits := by split_ifs <;> decide, nonempty := by simp }
  commandChainActive _ := false
  resetActivation s := s
  piccAts _ := [0x06, 0x75, 0x77, 0x81, 0x02, 0x80]

theorem blankCard_contract : blankCard.Contract where
  nonempty {_ command _ answer} h := by
    simp only [blankCard, Outcome.answered.injEq] at h
    rw [← h.2]
    dsimp only
    split_ifs <;> simp
  random h := by simp [blankCard] at h
  large h := by simp [blankCard] at h
  reset _ := rfl

/-- The answer to GetApplicationIDs gets lost, and so does the reader's first request for it. -/
theorem isoDep_deliversOnce_getApplicationIds :
    let card := (dfcVirtualPiccIsoDepFrameExchange blankCard.logged
      { emulator := ((), []), activated := true } [0xE0, 0x80] 64).1
    let l := Link.run blankCard.logged { useCid := false, cid := 0 } 51
      { reader := Reader.start [[[0x6A]]], card := card } [.answerLost, .frameLost, .delivered]
    l.reader.done = [([0x6A], [0x00])] ∧ l.card.emulator.2.map Prod.fst <+: [[0x6A]] := by
  intro card l
  have h := isoDep_deliversOnce blankCard blankCard_contract { useCid := false, cid := 0 }
    { emulator := ((), []), activated := true } card [0xE0, 0x80]
    [0x06, 0x75, 0x77, 0x81, 0x02, 0x80] 64 51 ⟨rfl, rfl, by decide⟩ rfl (by decide) rfl (by decide)
    (by decide) [[[0x6A]]] [.answerLost, .frameLost, .delivered]
    ⟨fun _ _ _ _ _ => rfl, fun _ _ _ _ _ => rfl, fun _ _ _ _ _ => rfl, trivial⟩
  exact ⟨by decide +kernel, h.1⟩

/-- A card whose EV2 session has used up its command counter: a Credit is carried out and its
response cannot be protected. The state counts the credits. -/
def spentCounterCard : Executor ℕ where
  run credits _ := .failed (credits + 1) .protocolError false
  commandChainActive _ := false
  resetActivation credits := credits
  piccAts _ := [0x06, 0x75, 0x77, 0x81, 0x02, 0x80]

/-- No frame is lost and the card credits twice: it answers nothing, confirms to R(NAK) that it
has no new block, and gets the same I-block again. -/
theorem isoDep_creditsTwice :
    let credit := [0x0C, 0x01, 0x05, 0, 0, 0, 0xA1, 0xA2, 0xA3, 0xA4, 0xA5, 0xA6, 0xA7, 0xA8]
    let card := (dfcVirtualPiccIsoDepFrameExchange spentCounterCard.logged
      { emulator := (0, []), activated := true } [0xE0, 0x80] 64).1
    let l := Link.run spentCounterCard.logged { useCid := false, cid := 0 } 51
      { reader := Reader.start [[credit]], card := card } [.delivered, .delivered, .delivered]
    l.card.emulator.1 = 2 ∧ ¬ l.card.emulator.2.map Prod.fst <+: [credit] := by
  decide +kernel

end DfcCore.IsoDep
