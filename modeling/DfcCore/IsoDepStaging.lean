import DfcCore.IsoDepDelivery

/-!
# What the staging area holds

The staged octets over any sequence of frames and capacities. `Staged` says what they should
be: the fragments accepted since the last command that was answered or given up, or the frame
whose response is ready and did not fit the caller's buffer. It follows from what each call
returned and from what became of the command it ran, which a traced executor notes. The two
places of the code agree with it as long as no fragment makes a request move to the borrowed
buffer that cannot take it.
-/
namespace DfcCore.IsoDep
variable {σ : Type}

/-- What became of the command a call ran. -/
inductive Ran where
  | answered
  | failed (retryable : Bool)
  deriving Repr, DecidableEq

/-- The executor that notes what became of the last command. -/
def Executor.traced (E : Executor σ) : Executor (σ × Option Ran) where
  run s command :=
    match E.run s.1 command with
    | .answered emulator answer => .answered (emulator, some .answered) answer
    | .failed emulator status retryable =>
      .failed (emulator, some (.failed retryable)) status retryable
  commandChainActive s := E.commandChainActive s.1
  resetActivation s := (E.resetActivation s.1, s.2)
  piccAts s := E.piccAts s.1

/-- What the staging area is for at a moment. -/
inductive Staged where
  /-- The fragments of a request that is not complete. -/
  | fragments (accepted : List (List UInt8))
  /-- The frame that brought a command whose first response block did not fit. -/
  | frame (octets : List UInt8)
  deriving Repr, DecidableEq

def Staged.octets : Staged → List UInt8
  | .fragments accepted => accepted.flatten
  | .frame octets => octets

/-- The INF of an I-block. -/
def infOf (frame : List UInt8) : List UInt8 :=
  frame.drop (if hasBit (frame.headD 0) dfcIsoDepCid then 2 else 1)

/-- What should be staged after a call, from its status and the command it ran, if any. -/
def Staged.next (staged : Staged) (frame : List UInt8) (status : DfcVirtualPiccStatus) :
    Option Ran → Staged
  | some .answered => if status = .bufferTooSmall then .frame frame else .fragments []
  | some (.failed true) => staged
  -- A request that outgrew the fixed array is given up with its command.
  | some (.failed false) =>
    if pendingCommandSize < (staged.octets ++ infOf frame).length then .fragments [] else staged
  | none =>
    if status ≠ .ok ∨ isRBlock (frame.headD 0) = true then staged
    else match staged with
    | .frame _ => .fragments []
    | .fragments accepted =>
      if isIBlock (frame.headD 0) ∧ hasBit (frame.headD 0) dfcIsoDepMore then
        .fragments (accepted ++ [infOf frame])
      -- RATS, DESELECT, or an I-block without a command.
      else .fragments []

/-- The session with the note about the last command taken out. -/
def unnoted (s : Session (σ × Option Ran)) : Session (σ × Option Ran) :=
  { s with emulator := (s.emulator.1, none) }

variable (E : Executor σ)

/-- One call of the frame entry point, with a frame and the capacity for the response. -/
def stagingCall (p : Session (σ × Option Ran) × Staged) (call : List UInt8 × ℕ) :
    Session (σ × Option Ran) × Staged :=
  let x := dfcVirtualPiccIsoDepFrameExchange E.traced (unnoted p.1) call.1 call.2
  (x.1, p.2.next call.1 x.2.1 x.1.emulator.2)

def stagingRun (p : Session (σ × Option Ran) × Staged) (calls : List (List UInt8 × ℕ)) :
    Session (σ × Option Ran) × Staged :=
  calls.foldl (stagingCall E) p

/-- A card in the field, before RATS. -/
def inField (emulator : σ) : Session (σ × Option Ran) × Staged :=
  ({ emulator := (emulator, none), activated := true }, .fragments [])

/-- The fragment makes the request move to the borrowed buffer, which cannot take it. -/
def overrunsMove (s : Session (σ × Option Ran)) (frame : List UInt8) : Bool :=
  isIBlock (frame.headD 0) && !E.commandChainActive s.emulator.1 && s.commandChain.isNone &&
  (hasBit (frame.headD 0) dfcIsoDepMore || s.pendingCommandLen != 0) &&
  commandCanUseLargeIsoDepStorage (if s.pendingCommandLen = 0 then infOf frame
    else s.pendingCommand.take s.pendingCommandLen) &&
  decide (dfcEmulatorChainBufferSize - s.pendingCommandLen < (infOf frame).length)

/-- No call of the run brings such a fragment. -/
def movesFit : Session (σ × Option Ran) × Staged → List (List UInt8 × ℕ) → Prop
  | _, [] => True
  | p, call :: calls => overrunsMove E p.1 call.1 = false ∧ movesFit (stagingCall E p call) calls

/-- Where reassembly finds the staged octets and appends to them. -/
def stagedStorage {σ : Type} (s : Session σ) : List UInt8 :=
  match s.commandChain with
  | some octets => octets.take s.pendingCommandLen
  | none => s.pendingCommand.take s.pendingCommandLen

/-- Neither place holds more than its capacity. -/
structure Bounded {σ : Type} (s : Session σ) : Prop where
  inline : s.pendingCommand.length ≤ pendingCommandSize
  chain : ∀ octets, s.commandChain = some octets → octets.length ≤ dfcEmulatorChainBufferSize

section
variable {σ : Type} {E : Executor σ} {s s' : Session σ} {capacity : ℕ}

/-- The response fields are as the checks in front of a frame want them. -/
structure ResponseOk (s : Session σ) : Prop where
  head : s.pendingResponsePrefix.length ≤ pendingResponsePrefixSize
  last : s.lastPiccBlock.length ≤ dfcVirtualPiccMaxBlockSize
  offset : s.pendingResponseOffset ≤ s.pendingResponseLen
  lent : s.pendingResponseStaged = true → ∃ octets, s.isoResponse = some octets ∧
    0 < s.pendingResponseLen ∧ s.pendingResponseLen = octets.length ∧
    s.pendingResponseLen ≤ dfcEmulatorChainBufferSize
  own : s.pendingResponseStaged = false → s.pendingResponseLen ≤ dfcBytebufMax ∧
    (s.pendingResponseLen = 0 ∨ s.txBuffer.length = s.pendingResponseLen)

theorem ResponseOk.length_le (h : ResponseOk s) :
    s.pendingResponseLen ≤ dfcEmulatorChainBufferSize := by
  cases hs : s.pendingResponseStaged with
  | true =>
    obtain ⟨octets, -, -, -, hle⟩ := h.lent hs
    exact hle
  | false =>
    have := (h.own hs).1
    simp only [dfcBytebufMax, dfcEmulatorChainBufferSize] at this ⊢
    omega

theorem ResponseOk.notDirect (h : ResponseOk s) : directResponseIsPending s = false := by
  have hlen := h.length_le
  have hoffset := h.offset
  simp only [dfcEmulatorChainBufferSize] at hlen
  rw [directResponseIsPending, beq_eq_false_iff_ne]
  simp only [dfcDirectResponsePending]
  omega

theorem ResponseOk.valid (h : ResponseOk s) (hv : pendingCommandIsValid E s = true) :
    pendingResponseIsValid E s = true := by
  have hhead := h.head
  have hlast := h.last
  have hoffset := h.offset
  rw [pendingResponseIsValid, hv, h.notDirect]
  cases hs : s.pendingResponseStaged with
  | true =>
    obtain ⟨octets, hiso, hpos, hlen, hle⟩ := h.lent hs
    rw [hlen] at hpos hle hoffset
    simp [hhead, hlast, hoffset, hiso, hlen, hle, hpos]
  | false =>
    obtain ⟨hle, htx⟩ := h.own hs
    simp [hhead, hlast, hoffset, hle, htx]

theorem ResponseOk.congr (h : ResponseOk s) (hs : SameButStaging s s') : ResponseOk s' where
  head := by rw [hs.responsePrefix]; exact h.head
  last := by rw [hs.last]; exact h.last
  offset := by rw [hs.responseOffset, hs.responseLen]; exact h.offset
  lent := by rw [hs.responseStaged, hs.isoResponse, hs.responseLen]; exact h.lent
  own := by rw [hs.responseStaged, hs.txBuffer, hs.responseLen]; exact h.own

theorem ResponseOk.finish (hlast : s.lastPiccBlock.length ≤ dfcVirtualPiccMaxBlockSize) :
    ResponseOk (finishResponse s) := by
  have hlast' : (finishResponse s).lastPiccBlock = s.lastPiccBlock := by
    rw [finishResponse, retireFinishedResponseStorage, releaseIsoResponse]
    split_ifs <;> rfl
  refine ⟨Nat.zero_le _, by rw [hlast']; exact hlast, le_rfl, fun hs => ?_, fun _ => ?_⟩
  · cases hs
  · exact ⟨Nat.zero_le _, .inl rfl⟩

theorem ResponseOk.advance (h : ResponseOk s) (more : Bool) :
    ResponseOk (if more then s else finishResponse s) := by
  cases more with
  | true => exact h
  | false => exact .finish h.last

/-- Sending the next block keeps the response fields in order; a block that does not fit changes
nothing. -/
theorem ResponseOk.writeNext (h : ResponseOk s) (hv : pendingCommandIsValid E s = true)
    (capacity : ℕ) :
    writeNextIsoDepResponseBlock E s capacity = (s, .bufferTooSmall, []) ∨
      ∃ s' block, writeNextIsoDepResponseBlock E s capacity = (s', .ok, block) ∧ ResponseOk s' := by
  have hoffset := h.offset
  rw [writeNextIsoDepResponseBlock, h.valid hv]
  simp only [Bool.not_true, Bool.false_eq_true, if_false]
  generalize hk : min (s.pendingResponseLen - s.pendingResponseOffset) (isoDepChunkLimit s) = k
  have hnext : s.pendingResponseOffset + k ≤ s.pendingResponseLen := by omega
  cases hhead : s.pendingResponsePrefix with
  | cons first rest =>
    dsimp only
    split
    · split
      · exact .inl rfl
      · exact .inr ⟨_, _, rfl, ⟨Nat.zero_le _, h.last, hoffset, h.lent, h.own⟩⟩
    · split
      · exact .inl rfl
      · refine .inr ⟨_, _, rfl, ResponseOk.advance ?_ _⟩
        exact ⟨hhead ▸ h.head, h.last, hnext, h.lent, h.own⟩
  | nil =>
    dsimp only [buildIsoDepIBlock]
    split
    · split
      · exact .inl rfl
      · exact .inr ⟨_, _, rfl, ⟨hhead ▸ h.head, h.last, hoffset, h.lent, h.own⟩⟩
    · by_cases hroom : capacity < (List.take k (List.drop s.pendingResponseOffset
          (responseStorage s))).length + 1
      · rw [if_pos hroom]
        exact .inl rfl
      · rw [if_neg hroom]
        refine .inr ⟨_, _, rfl, ResponseOk.advance ?_ _⟩
        exact ⟨hhead ▸ h.head, h.last, hnext, h.lent, h.own⟩

theorem ResponseOk.write (h : ResponseOk s) (hv : pendingCommandIsValid E s = true)
    (capacity : ℕ) :
    writeAndRememberIsoDepResponseBlock E s capacity = (s, .bufferTooSmall, []) ∨
      ∃ s' block, writeAndRememberIsoDepResponseBlock E s capacity = (s', .ok, block) ∧
        ResponseOk s' ∧ SameRequest s s' := by
  have hsame : SameRequest s (writeAndRememberIsoDepResponseBlock E s capacity).1 :=
    sameRequest_write (h.valid hv)
  rw [writeAndRememberIsoDepResponseBlock] at hsame ⊢
  obtain hw | ⟨s', block, hw, hok⟩ := h.writeNext hv capacity
  · rw [hw]
    exact .inl rfl
  · rw [hw] at hsame ⊢
    refine .inr ⟨_, block, rfl, ?_, hsame⟩
    split_ifs with hlen
    · exact ⟨hok.head, hlen, hok.offset, hok.lent, hok.own⟩
    · exact hok

theorem Bounded.same (h : Bounded s) (hs : SameRequest s s') : Bounded s' where
  inline := hs.pendingCommand ▸ h.inline
  chain := hs.commandChain ▸ h.chain

theorem Bounded.truncate (h : Bounded s) (n : ℕ) : Bounded (truncatePendingCommand E s n) := by
  refine ⟨by simp [truncatePendingCommand, h.inline], fun octets hc => ?_⟩
  simp only [truncatePendingCommand] at hc
  split_ifs at hc
  · exact h.chain octets hc
  · rw [Option.map_eq_some_iff] at hc
    obtain ⟨chain, hchain, rfl⟩ := hc
    rw [length_wipe]
    exact h.chain chain hchain

theorem Bounded.appendInline (h : Bounded s) (inf : List UInt8) (more : Bool) :
    Bounded (appendInline E s inf more).1 := by
  rw [IsoDep.appendInline]
  split
  · exact h.truncate 0
  split
  · split
    · exact h
    · refine ⟨?_, h.chain⟩
      simp only [List.length_append, List.length_take]
      omega
  · exact h

theorem Bounded.appendToChain (h : Bounded s) {chain : List UInt8}
    (hchain : chain.length ≤ dfcEmulatorChainBufferSize) (inf : List UInt8) (more : Bool) :
    Bounded (appendToChain E s chain inf more).1 := by
  have hs : Bounded { s with commandChain := some chain } :=
    ⟨h.inline, fun octets hc => Option.some.inj hc ▸ hchain⟩
  rw [IsoDep.appendToChain]
  dsimp only
  split
  · exact hs.truncate 0
  split
  · split
    · exact hs
    · refine ⟨h.inline, fun octets hc => ?_⟩
      simp only [Option.some.injEq] at hc
      rw [← hc, List.length_append, List.length_take]
      omega
  · exact hs

/-- Reassembly writes within the capacity of the place it writes to. -/
theorem Bounded.reassemble (h : Bounded s) (inf : List UInt8) (more fits : Bool) :
    Bounded (reassemblePendingCommand E s inf more fits).1 := by
  have hstaged :
      (s.pendingCommand.take s.pendingCommandLen).length ≤ dfcEmulatorChainBufferSize := by
    have := h.inline
    simp only [pendingCommandSize] at this
    simp only [List.length_take, dfcEmulatorChainBufferSize]
    omega
  rw [reassemblePendingCommand]
  split
  · exact h
  split
  · exact h.truncate 0
  split
  · cases hc : s.commandChain with
    | some chain => exact h.appendToChain (h.chain chain hc) inf more
    | none =>
      dsimp only
      by_cases hsmall : (!commandCanUseLargeIsoDepStorage (if s.pendingCommandLen = 0 then inf
          else s.pendingCommand.take s.pendingCommandLen)) = true
      · rw [if_pos hsmall]
        exact h
      · rw [if_neg hsmall]
        exact h.appendToChain hstaged inf more
  · exact h.appendInline inf more

/-- The staging area holds what it should, and what it holds tells a request under way from a
response kept for a repetition. -/
structure Stages (E : Executor σ) (s : Session σ) (staged : Staged) : Prop where
  bounded : Bounded s
  response : ResponseOk s
  holds : Holds E s staged.octets
  request : ∀ accepted, staged = .fragments accepted →
    (s.commandChain ≠ none → commandCanUseLargeIsoDepStorage accepted.flatten = true) ∧
      (accepted.flatten ≠ [] → s.pendingResponseLen = 0)
  kept : ∀ octets, staged = .frame octets → octets ≠ [] ∧ 0 < s.pendingResponseLen

theorem Stages.ofRequests {accepted : List (List UInt8)} (hb : Bounded s) (hr : ResponseOk s)
    (hh : Requests E s accepted.flatten)
    (hl : accepted.flatten ≠ [] → s.pendingResponseLen = 0) : Stages E s (.fragments accepted) where
  bounded := hb
  response := hr
  holds := hh.toHolds
  request accepted' heq := by
    cases heq
    exact ⟨hh.large, hl⟩
  kept octets heq := by cases heq

theorem Stages.requests {accepted : List (List UInt8)} (h : Stages E s (.fragments accepted)) :
    Requests E s accepted.flatten := ⟨h.holds, (h.request accepted rfl).1⟩

theorem Stages.valid {staged : Staged} (h : Stages E s staged) :
    pendingResponseIsValid E s = true := h.response.valid h.holds.valid

theorem Stages.owned {staged : Staged} (h : Stages E s staged) (hc : s.commandChain ≠ none) :
    E.commandChainActive s.emulator = false := by
  obtain ⟨octets, ho⟩ := Option.ne_none_iff_exists'.mp hc
  exact (h.holds.chain octets ho).1

/-- An emptied staging area. -/
theorem Stages.ofEmpty (hb : Bounded s) (hr : ResponseOk s) (hh : Requests E s []) :
    Stages E s (.fragments []) := .ofRequests hb hr hh fun hne => absurd rfl hne

/-- A response that is kept is told by the two lengths. -/
theorem Stages.initial_iff {staged : Staged} (h : Stages E s staged) :
    isoDepInitialResponseIsStaged s = true ↔ ∃ octets, staged = .frame octets := by
  rw [isoDepInitialResponseIsStaged, isoDepResponseChainIsPending,
    h.response.notDirect, h.holds.len]
  cases staged with
  | frame octets =>
    obtain ⟨hne, hpos⟩ := h.kept octets rfl
    simp [Staged.octets, hpos, List.length_pos_iff, hne]
  | fragments accepted =>
    have hlen := (h.request accepted rfl).2
    simp only [Staged.octets, Bool.not_false, Bool.and_true, Bool.and_eq_true, decide_eq_true_eq,
      List.length_pos_iff, reduceCtorEq, exists_const, iff_false, not_and]
    intro hne
    rw [hlen hne]
    exact lt_irrefl 0

/-- Clearing the transport storage. -/
theorem stages_clear (hc : s.commandChain ≠ none → E.commandChainActive s.emulator = false) :
    Stages E (clearTransportStorage E s) (.fragments []) := by
  have hnone : (clearTransportStorage E s).commandChain = none := by
    cases hchain : s.commandChain with
    | none => simp [clearTransportStorage, discardPendingCommand, releaseIsoResponse, hchain]
    | some chain =>
      have hact := hc (by simp [hchain])
      simp [clearTransportStorage, discardPendingCommand, borrowsChain, releaseIsoResponse, hact,
        hchain]
  refine .ofEmpty ⟨Nat.zero_le _, fun octets ho => by simp [hnone] at ho⟩ ?_
    (.ofInline rfl hnone rfl (Nat.zero_le _))
  refine ⟨Nat.zero_le _, Nat.zero_le _, le_rfl, fun hs => ?_, fun _ => ?_⟩
  · cases hs
  · exact ⟨Nat.zero_le _, .inl rfl⟩

end

section
variable {E : Executor σ} {s s' : Session (σ × Option Ran)} {staged : Staged}
  {accepted : List (List UInt8)} {frame inf command : List UInt8} {capacity : ℕ}

/-- The result of a call leaves the staging area as it should be. -/
def Settles (E : Executor σ) (staged : Staged) (frame : List UInt8)
    (x : Exchange (σ × Option Ran)) : Prop :=
  Stages E.traced x.1 (staged.next frame x.2.1 x.1.emulator.2)

theorem Staged.next_stays {status : DfcVirtualPiccStatus}
    (h : status ≠ .ok ∨ isRBlock (frame.headD 0) = true) :
    staged.next frame status none = staged := if_pos h

/-- An accepted frame that brought the rest of a kept response, or ended the exchange. -/
theorem Staged.next_frame (octets : List UInt8) (hr : isRBlock (frame.headD 0) = false) :
    (Staged.frame octets).next frame .ok none = .fragments [] := by
  have hcond : ¬ (DfcVirtualPiccStatus.ok ≠ .ok ∨ isRBlock (frame.headD 0) = true) := by
    simp only [hr]
    decide
  exact if_neg hcond

/-- An accepted frame that ran no command while a request was under way. -/
theorem Staged.next_fragments (accepted : List (List UInt8))
    (hr : isRBlock (frame.headD 0) = false) :
    (Staged.fragments accepted).next frame .ok none =
      if isIBlock (frame.headD 0) ∧ hasBit (frame.headD 0) dfcIsoDepMore then
        .fragments (accepted ++ [infOf frame])
      else .fragments [] := by
  have hcond : ¬ (DfcVirtualPiccStatus.ok ≠ .ok ∨ isRBlock (frame.headD 0) = true) := by
    simp only [hr]
    decide
  exact if_neg hcond

/-- A call that runs no command and is refused. -/
theorem Stages.fails (h : Stages E.traced s staged) (hnote : s.emulator.2 = none)
    {status : DfcVirtualPiccStatus} (hstatus : status ≠ .ok) :
    Settles E staged frame (fail s status) := by
  show Stages E.traced s (staged.next frame status s.emulator.2)
  rw [hnote, Staged.next_stays (.inl hstatus)]
  exact h

/-- A frame that is neither an I-block nor an R-block and is accepted empties the area. -/
theorem Staged.next_control (hi : isIBlock (frame.headD 0) = false)
    (hr : isRBlock (frame.headD 0) = false) : staged.next frame .ok none = .fragments [] := by
  cases staged with
  | frame octets => exact Staged.next_frame octets hr
  | fragments accepted =>
    rw [Staged.next_fragments accepted hr, if_neg]
    rw [hi]
    simp

theorem rats_bits (h : isRats frame = true) :
    isIBlock (frame.headD 0) = false ∧ isRBlock (frame.headD 0) = false := by
  rw [isRats, Bool.and_eq_true] at h
  exact isSBlock_kinds (isSBlock_of_rats h.2)

theorem deselect_bits (h : isDeselect (frame.headD 0) = true) :
    isIBlock (frame.headD 0) = false ∧ isRBlock (frame.headD 0) = false :=
  isSBlock_kinds (isSBlock_of_isDeselect h)

theorem Stages.rats (h : Stages E.traced s staged) (hnote : s.emulator.2 = none)
    (hrats : isRats frame = true) :
    Settles E staged frame (handleRats E.traced s frame capacity) := by
  rw [handleRats]
  split
  · exact h.fails hnote (by decide)
  dsimp only
  split
  · exact h.fails hnote (by decide)
  have hclear := stages_clear h.owned
  have hnext : staged.next frame .ok s.emulator.2 = .fragments [] := by
    rw [hnote]
    exact Staged.next_control (rats_bits hrats).1 (rats_bits hrats).2
  show Stages E.traced _ (staged.next frame .ok s.emulator.2)
  rw [hnext]
  refine .ofEmpty ⟨hclear.bounded.inline, hclear.bounded.chain⟩ ?_
    (hclear.requests.congr rfl rfl rfl rfl)
  exact ⟨hclear.response.head, by simp, hclear.response.offset, hclear.response.lent,
    hclear.response.own⟩

theorem Stages.deselect (h : Stages E.traced s staged) (hE : E.traced.Contract)
    (hnote : s.emulator.2 = none) (hd : isDeselect (frame.headD 0) = true) :
    Settles E staged frame (handleDeselect E.traced s frame capacity) := by
  rw [handleDeselect]
  split
  · exact h.fails hnote (by decide)
  split
  · exact h.fails hnote (by decide)
  have hclear : Stages E.traced (clearTransportStorage E.traced
      { s with emulator := E.traced.resetActivation s.emulator }) (.fragments []) :=
    stages_clear fun _ => hE.reset s.emulator
  have hnext : staged.next frame .ok s.emulator.2 = .fragments [] := by
    rw [hnote]
    exact Staged.next_control (deselect_bits hd).1 (deselect_bits hd).2
  show Stages E.traced _ (staged.next frame .ok s.emulator.2)
  rw [hnext]
  refine .ofEmpty ⟨hclear.bounded.inline, hclear.bounded.chain⟩ ?_
    (hclear.requests.congr rfl rfl rfl rfl)
  exact ⟨hclear.response.head, hclear.response.last, hclear.response.offset,
    hclear.response.lent, hclear.response.own⟩

/-- The repetition of a frame whose response was kept. -/
theorem Stages.replay {octets : List UInt8} (h : Stages E.traced s (.frame octets))
    (hnote : s.emulator.2 = none) (hi : isIBlock (frame.headD 0) = true) :
    Settles E (.frame octets) frame (replayStagedIsoDepResponse E.traced s frame capacity) := by
  rw [replayStagedIsoDepResponse]
  split
  · exact h.fails hnote (by decide)
  obtain hw | ⟨s', block, hw, hok, hsame⟩ := h.response.write h.holds.valid capacity
  · rw [hw]
    exact h.fails hnote (by decide)
  rw [hw]
  have hnotR : isRBlock (frame.headD 0) = false := isRBlock_of_isIBlock hi
  have hnext : (Staged.frame octets).next frame .ok s'.emulator.2 = .fragments [] := by
    rw [hsame.emulator, hnote]
    exact Staged.next_frame octets hnotR
  have howned : s'.commandChain ≠ none → E.traced.commandChainActive s'.emulator = false := by
    rw [hsame.commandChain, hsame.emulator]
    exact h.owned
  have hbounded : Bounded s' := h.bounded.same hsame
  show Stages E.traced _ ((Staged.frame octets).next frame .ok s'.emulator.2)
  rw [hnext]
  refine .ofEmpty ?_ ?_ ((Requests.discard howned).congr rfl rfl rfl rfl)
  · exact ⟨(hbounded.truncate (E := E.traced) 0).inline,
      (hbounded.truncate (E := E.traced) 0).chain⟩
  · exact ⟨hok.head, hok.last, hok.offset, hok.lent, hok.own⟩

/-- An R-block leaves the request alone. -/
theorem Stages.rBlock (h : Stages E.traced s (.fragments accepted)) (hnote : s.emulator.2 = none)
    (hr : isRBlock (frame.headD 0) = true) :
    Settles E (.fragments accepted) frame (handleRBlock E.traced s frame capacity) := by
  have hstay (status : DfcVirtualPiccStatus) :
      (Staged.fragments accepted).next frame status none = .fragments accepted :=
    Staged.next_stays (.inr hr)
  have hkeep (status : DfcVirtualPiccStatus) (block : List UInt8) :
      Settles E (.fragments accepted) frame (s, status, block) := by
    show Stages E.traced s ((Staged.fragments accepted).next frame status s.emulator.2)
    rw [hnote, hstay]
    exact h
  rw [handleRBlock]
  split
  · exact hkeep _ _
  split
  · exact hkeep _ _
  split
  · exact hkeep _ _
  split
  · split <;> exact hkeep _ _
  split
  · rw [buildIsoDepRBlock]
    split_ifs <;> exact hkeep _ _
  split
  · exact hkeep _ _
  rename_i hpending
  obtain hw | ⟨s', block, hw, hok, hsame⟩ := h.response.write h.holds.valid capacity
  · rw [hw]
    exact hkeep _ _
  rw [hw]
  show Stages E.traced s' ((Staged.fragments accepted).next frame .ok s'.emulator.2)
  rw [hsame.emulator, hnote, hstay]
  exact .ofRequests (h.bounded.same hsame) hok
    (h.requests.congr hsame.pendingCommandLen hsame.pendingCommand
      hsame.commandChain hsame.emulator)
    fun hne => absurd ((h.request accepted rfl).2 hne) hpending

theorem handleCommand_failed {σ : Type} {E : Executor σ} {s₁ s₂ : Session σ}
    {command : List UInt8} {emulator : σ} {reason : DfcVirtualPiccStatus} {retryable : Bool}
    (hrun : E.run s₁.emulator command = .failed emulator reason retryable)
    (hs₂ : { s₁ with
      emulator := emulator
      commandChain := if command.headD 0 = 0x00 then s₁.commandChain else none } = s₂)
    (offset lenBefore capacity : ℕ) :
    handleCommand E s₁ frame command offset lenBefore capacity =
      if retryable then fail (truncatePendingCommand E s₂ lenBefore) .protocolError
      else if decide (pendingCommandSize < s₂.pendingCommandLen) &&
          !(E.commandChainActive s₂.emulator || s₂.commandChain.isSome) then
        fail (truncatePendingCommand E s₂ 0) reason
      else fail (truncatePendingCommand E s₂ lenBefore) reason := by
  rw [handleCommand, hrun, ← hs₂]

/-- A command that fails for good retires the borrowed buffer. -/
theorem Appended.chain_retired {s₁ : Session (σ × Option Ran)} (hE : E.traced.Contract)
    (hs : Appended E.traced s₁ accepted.flatten (infOf frame)) {emulator : σ × Option Ran}
    {reason : DfcVirtualPiccStatus}
    (hrun : E.traced.run s₁.emulator (accepted.flatten ++ infOf frame) =
      .failed emulator reason false) :
    (if (accepted.flatten ++ infOf frame).headD 0 = 0x00 then s₁.commandChain else none) =
      none := by
  by_cases hne : s₁.commandChain = none
  · rw [hne, ite_self]
  refine if_neg ?_
  obtain hh | ⟨hd, -, hlarge⟩ := hs
  · exact (hE.large hrun (hh.large hne)).1
  · refine (hE.large hrun ?_).1
    rw [hd]
    exact (hlarge hne).2

/-- A command without an answer. -/
theorem Appended.fails {s₁ : Session (σ × Option Ran)} (hE : E.traced.Contract)
    (hs : Appended E.traced s₁ accepted.flatten (infOf frame)) (hb : Bounded s₁)
    (hr : ResponseOk s₁) (hquiet : accepted.flatten ≠ [] → s₁.pendingResponseLen = 0)
    {emulator : σ × Option Ran} {reason : DfcVirtualPiccStatus} {retryable : Bool}
    (hrun : E.traced.run s₁.emulator (accepted.flatten ++ infOf frame) =
      .failed emulator reason retryable)
    (hnote : emulator.2 = some (.failed retryable)) (offset capacity : ℕ) :
    Settles E (.fragments accepted) frame (handleCommand E.traced s₁ frame
      (accepted.flatten ++ infOf frame) offset accepted.flatten.length capacity) := by
  obtain ⟨s₂, hs₂⟩ : ∃ s₂ : Session (σ × Option Ran), { s₁ with
    emulator := emulator
    commandChain := if (accepted.flatten ++ infOf frame).headD 0 = 0x00 then s₁.commandChain
      else none } = s₂ := ⟨_, rfl⟩
  rw [handleCommand_failed hrun hs₂]
  have hlen : s₂.pendingCommandLen = s₁.pendingCommandLen := by rw [← hs₂]
  have hemulator : s₂.emulator = emulator := by rw [← hs₂]
  have hbounded : Bounded s₂ := by
    rw [← hs₂]
    refine ⟨hb.inline, fun octets hc => ?_⟩
    dsimp only at hc
    split_ifs at hc
    exact hb.chain octets hc
  have hresponse (n : ℕ) : ResponseOk (truncatePendingCommand E.traced s₂ n) := by
    rw [← hs₂]
    exact ⟨hr.head, hr.last, hr.offset, hr.lent, hr.own⟩
  have hback (hh : Requests E.traced
      (truncatePendingCommand E.traced s₂ accepted.flatten.length) accepted.flatten) :
      Stages E.traced (truncatePendingCommand E.traced s₂ accepted.flatten.length)
        (.fragments accepted) := by
    refine .ofRequests (hbounded.truncate _) (hresponse _) hh fun hne => ?_
    rw [← hs₂]
    exact hquiet hne
  cases retryable with
  | true =>
    simp only [if_true]
    show Stages E.traced _ ((Staged.fragments accepted).next frame .protocolError s₂.emulator.2)
    rw [hemulator, hnote]
    refine hback ?_
    rw [← hs₂]
    exact hs.retryable hE hrun
  | false =>
    have hchain : s₂.commandChain = none := by
      rw [← hs₂]
      exact hs.chain_retired hE hrun
    have hnext (status : DfcVirtualPiccStatus) :
        (Staged.fragments accepted).next frame status (some (.failed false)) =
          if pendingCommandSize < (accepted.flatten ++ infOf frame).length then .fragments []
          else .fragments accepted := rfl
    have hempty : Requests E.traced (truncatePendingCommand E.traced s₂ 0) [] :=
      Requests.discard fun hne => absurd hchain hne
    simp only [Bool.false_eq_true, if_false, hchain, Option.isSome_none, Bool.or_false, hlen]
    obtain hh | ⟨hd, hzero, -⟩ := hs
    · by_cases hlong : pendingCommandSize < (accepted.flatten ++ infOf frame).length
      · -- The command retired the borrowed buffer; the whole request goes.
        have hact : E.traced.commandChainActive s₂.emulator = false := by
          have hne : s₁.commandChain ≠ none := by
            intro hnone
            have := (hh.inline hnone).2
            omega
          rw [hemulator]
          exact (hE.large hrun (hh.large hne)).2
        rw [hh.len, hact, if_pos (by simpa using hlong)]
        show Stages E.traced _ ((Staged.fragments accepted).next frame reason s₂.emulator.2)
        rw [hemulator, hnote, hnext, if_pos hlong]
        exact .ofEmpty (hbounded.truncate _) (hresponse _) hempty
      · have hnone := hh.chain_of_short (by omega)
        obtain ⟨htake, hshort⟩ := hh.inline hnone
        rw [hh.len, if_neg (by simp only [Bool.and_eq_true, decide_eq_true_eq]; omega)]
        show Stages E.traced _ ((Staged.fragments accepted).next frame reason s₂.emulator.2)
        rw [hemulator, hnote, hnext, if_neg hlong]
        exact hback (Requests.truncate hchain (hs₂ ▸ htake) hshort)
    · rw [hzero, if_neg (by simp)]
      rw [hd, List.length_nil] at hback ⊢
      show Stages E.traced _ ((Staged.fragments accepted).next frame reason s₂.emulator.2)
      rw [hemulator, hnote, hnext]
      split_ifs
      · exact .ofEmpty (hbounded.truncate _) (hresponse _) hempty
      · exact hback hempty

/-- A frame kept for a repetition. -/
theorem stages_keepFrame {σ : Type} {E : Executor σ} {s s' : Session σ} (hb : Bounded s)
    (hr : ResponseOk s) (hpos : 0 < s.pendingResponseLen) (hframe : frame ≠ [])
    (h : stagePendingCommand E s frame = some s') :
    Stages E s' (.frame frame) ∧ s'.emulator = s.emulator := by
  have hkept : ∀ octets, Staged.frame frame = .frame octets → octets ≠ [] ∧
      0 < s.pendingResponseLen := by
    intro octets heq
    cases heq
    exact ⟨hframe, hpos⟩
  have hresponse (t : Session σ) (ht : SameButStaging s t) : ResponseOk t := hr.congr ht
  rw [stagePendingCommand] at h
  split_ifs at h with hrefuse hshort
  · rw [Option.some.injEq] at h
    subst h
    refine ⟨⟨⟨hshort, ?_⟩, ?_, ⟨rfl, ?_, ?_⟩, ?_, hkept⟩, rfl⟩
    · intro octets hc
      cases hc
    · exact hresponse _ ⟨rfl, rfl, rfl, rfl, rfl, rfl, rfl, rfl, rfl, rfl, rfl, rfl, rfl⟩
    · intro _
      exact ⟨List.take_length, hshort⟩
    · intro octets hc
      cases hc
    · intro accepted heq
      cases heq
  · rw [Option.some.injEq] at h
    subst h
    simp only [not_or, not_lt, Bool.not_eq_true] at hrefuse
    obtain ⟨-, hsize, hact⟩ := hrefuse
    refine ⟨⟨⟨hb.inline, ?_⟩, ?_, ⟨rfl, ?_, ?_⟩, ?_, hkept⟩, rfl⟩
    · intro octets hc
      cases hc
      exact hsize
    · exact hresponse _ ⟨rfl, rfl, rfl, rfl, rfl, rfl, rfl, rfl, rfl, rfl, rfl, rfl, rfl⟩
    · intro hc
      cases hc
    · intro octets hc
      cases hc
      exact ⟨hact, rfl, not_le.mp hshort, hsize⟩
    · intro accepted heq
      cases heq

/-- A command with an answer. -/
theorem answered_settles {s₁ : Session (σ × Option Ran)} (hE : E.traced.Contract)
    (hb : Bounded s₁) (hr : ResponseOk s₁) (hframe : frame ≠ [])
    {emulator : σ × Option Ran} {answer : Answer} (hrun : E.traced.run s₁.emulator command =
      .answered emulator answer)
    (hnote : emulator.2 = some .answered) {offset : ℕ} (hoffset : offset ≤ 2)
    (lenBefore capacity : ℕ) :
    Settles E (.fragments accepted) frame
      (handleCommand E.traced s₁ frame command offset lenBefore capacity) := by
  have hnonempty := hE.nonempty hrun
  have hnext (status : DfcVirtualPiccStatus) :
      (Staged.fragments accepted).next frame status (some .answered) =
        if status = .bufferTooSmall then .frame frame else .fragments [] := rfl
  rw [handleCommand, hrun]
  dsimp only
  generalize hs₃ : { truncatePendingCommand E.traced { s₁ with
      emulator := emulator
      txBuffer := answer.octets
      isoResponse := if answer.staged then some answer.octets else none
      pendingResponseStaged := answer.staged
      commandChain := none } 0 with
    pendingResponseLen := answer.octets.length
    pendingResponseOffset := 0
    pendingResponsePrefix := if 1 < offset then frame.take offset else [] } = s₃
  have hemulator : s₃.emulator = emulator := by rw [← hs₃]; rfl
  have hchain : s₃.commandChain = none := by
    rw [← hs₃]
    simp [truncatePendingCommand, borrowsChain]
  have hlength : s₃.pendingResponseLen = answer.octets.length := by rw [← hs₃]
  have hbounded : Bounded s₃ := by
    refine ⟨?_, fun octets hc => by simp [hchain] at hc⟩
    rw [← hs₃]
    simpa [truncatePendingCommand] using hb.inline
  have hrequests : Requests E.traced s₃ [] :=
    .ofInline (by rw [← hs₃]; rfl) hchain (by simp) (Nat.zero_le _)
  have hresponse : ResponseOk s₃ := by
    have hfits := answer.fits
    rw [← hs₃]
    refine ⟨?_, hr.last, Nat.zero_le _, fun hst => ?_, fun hst => ?_⟩
    · dsimp only [pendingResponsePrefixSize]
      split_ifs
      · rw [List.length_take]
        omega
      · exact Nat.zero_le _
    · have hst' : answer.staged = true := hst
      rw [hst'] at hfits
      exact ⟨answer.octets, by simp [truncatePendingCommand, hst'],
        List.length_pos_iff.mpr hnonempty, rfl, hfits⟩
    · have hst' : answer.staged = false := hst
      rw [hst'] at hfits
      exact ⟨hfits, .inr rfl⟩
  obtain hw | ⟨s₄, block, hw, hok, hsame⟩ := hresponse.write hrequests.valid capacity
  · rw [hw]
    dsimp only
    have hpos : 0 < s₃.pendingResponseLen := by
      rw [hlength]
      exact List.length_pos_iff.mpr hnonempty
    cases hkeep : stagePendingCommand E.traced s₃ frame with
    | none =>
      show Stages E.traced _ ((Staged.fragments accepted).next frame .protocolError s₃.emulator.2)
      rw [hemulator, hnote, hnext, if_neg (by decide)]
      exact stages_clear fun hne => absurd hchain hne
    | some s₄ =>
      obtain ⟨hstages, he⟩ := stages_keepFrame hbounded hresponse hpos hframe hkeep
      show Stages E.traced s₄ ((Staged.fragments accepted).next frame .bufferTooSmall s₄.emulator.2)
      rw [he, hemulator, hnote, hnext, if_pos rfl]
      exact hstages
  · rw [hw]
    show Stages E.traced _ ((Staged.fragments accepted).next frame .ok s₄.emulator.2)
    rw [hsame.emulator, hemulator, hnote, hnext, if_neg (by decide)]
    have hkept : Bounded s₄ := hbounded.same hsame
    refine .ofEmpty ⟨hkept.inline, hkept.chain⟩ ?_ ((hrequests.congr hsame.pendingCommandLen
      hsame.pendingCommand hsame.commandChain hsame.emulator).congr rfl rfl rfl rfl)
    exact ⟨hok.head, hok.last, hok.offset, hok.lent, hok.own⟩

theorem traced_run (emulator : σ × Option Ran) (command : List UInt8) :
    (∃ emulator' answer, E.traced.run emulator command = .answered emulator' answer ∧
      emulator'.2 = some .answered) ∨
    ∃ emulator' reason retryable,
      E.traced.run emulator command = .failed emulator' reason retryable ∧
      emulator'.2 = some (.failed retryable) := by
  cases hr : E.run emulator.1 command with
  | answered emulator' answer =>
    exact .inl ⟨(emulator', some .answered), answer, by simp [Executor.traced, hr], rfl⟩
  | failed emulator' reason retryable =>
    exact .inr ⟨(emulator', some (.failed retryable)), reason, retryable,
      by simp [Executor.traced, hr], rfl⟩

/-- A fragment that fits is refused with the request as it was, and in one place. -/
theorem Stages.refuses (h : Stages E.traced s (.fragments accepted))
    (hi : isIBlock (frame.headD 0) = true) (hfit : overrunsMove E s frame = false) {fits : Bool}
    {s₁ : Session (σ × Option Ran)} {status : DfcVirtualPiccStatus}
    (hx : reassemblePendingCommand E.traced s (infOf frame)
      (hasBit (frame.headD 0) dfcIsoDepMore) fits = (s₁, .error status)) :
    Stages E.traced s₁ (.fragments accepted) := by
  have hre := h.requests.reassemble (infOf frame) (hasBit (frame.headD 0) dfcIsoDepMore) fits
  have hb := h.bounded.reassemble (E := E.traced) (infOf frame)
    (hasBit (frame.headD 0) dfcIsoDepMore) fits
  have hsame := sameButStaging_reassemble (E := E.traced) s (infOf frame)
    (hasBit (frame.headD 0) dfcIsoDepMore) fits
  rw [hx] at hre hb hsame
  have hlen (hne : accepted.flatten ≠ []) : s₁.pendingResponseLen = 0 :=
    hsame.responseLen.trans ((h.request accepted rfl).2 hne)
  obtain hrequests | ⟨hstage, hstuck⟩ := hre.refused status rfl
  · exact .ofRequests hb (h.response.congr hsame) hrequests hlen
  -- The fragment would have been one that overruns the move.
  have hnone : s.commandChain = none := h.holds.chain_of_short hstuck.short
  have hinactive : E.commandChainActive s.emulator.1 = false := by
    rw [← hsame.emulator]
    exact hstuck.inactive
  have hstages := stages_iff.mpr hstage
  have hlarge := hstuck.large
  have hover := hstuck.overrun
  have htake := (h.holds.inline hnone).1
  have hs : s.pendingCommandLen = accepted.flatten.length := h.holds.len
  have htrue : overrunsMove E s frame = true := by
    rw [overrunsMove, hi, hinactive, hnone, hs, hstages]
    rw [show s.pendingCommand.take accepted.flatten.length = accepted.flatten from htake]
    simp only [Bool.not_false, Option.isNone_none, Bool.and_self, Bool.true_and, Bool.and_eq_true,
      decide_eq_true_eq]
    exact ⟨hlarge, hover⟩
  rw [hfit] at htrue
  cases htrue

theorem reassemble_error {σ : Type} {E : Executor σ} {s s₁ : Session σ} {more fits : Bool}
    {status : DfcVirtualPiccStatus}
    (hx : reassemblePendingCommand E s inf more fits = (s₁, .error status)) : status ≠ .ok := by
  have hchain (chain : List UInt8) (h : appendToChain E s chain inf more = (s₁, .error status)) :
      status ≠ .ok := by
    rw [appendToChain] at h
    dsimp only at h
    split_ifs at h <;> simp only [Prod.mk.injEq, Except.error.injEq, reduceCtorEq, and_false] at h
    · rw [← h.2]
      decide
    · rw [← h.2]
      decide
  rw [reassemblePendingCommand] at hx
  split at hx
  · simp only [Prod.mk.injEq, Except.error.injEq] at hx
    rw [← hx.2]
    decide
  split at hx
  · simp only [Prod.mk.injEq, Except.error.injEq] at hx
    rw [← hx.2]
    decide
  split at hx
  · cases hc : s.commandChain with
    | some chain =>
      rw [hc] at hx
      exact hchain chain hx
    | none =>
      rw [hc] at hx
      dsimp only at hx
      by_cases hsmall : (!commandCanUseLargeIsoDepStorage (if s.pendingCommandLen = 0 then inf
          else s.pendingCommand.take s.pendingCommandLen)) = true
      · rw [if_pos hsmall] at hx
        simp only [Prod.mk.injEq, Except.error.injEq] at hx
        rw [← hx.2]
        decide
      · rw [if_neg hsmall] at hx
        exact hchain _ hx
  · rw [appendInline] at hx
    split_ifs at hx <;> simp only [Prod.mk.injEq, Except.error.injEq, reduceCtorEq, and_false] at hx
    · rw [← hx.2]
      decide
    · rw [← hx.2]
      decide

/-- The handling of an I-block with its INF and the length of its head named. -/
theorem handleIBlock_eq {σ : Type} {E : Executor σ} {s : Session σ} {o : ℕ}
    (ho : (if hasBit (frame.headD 0) dfcIsoDepCid then 2 else 1) = o) :
    handleIBlock E s frame capacity =
      if hasBit (frame.headD 0) dfcIsoDepNad then fail s .protocolError
      else if !isoDepCidMatches s frame then fail s .protocolError
      else if isoDepResponseChainIsPending s then fail s .protocolError
      else if directResponseIsPending s then fail s .protocolError
      else if (infOf frame).length == 0 && !hasBit (frame.headD 0) dfcIsoDepMore &&
          s.pendingCommandLen == 0 then
        match buildIsoDepEmptyIBlock s (hasBit (frame.headD 0) dfcIsoDepCid) capacity with
        | (s, .ok, block) =>
          ({ s with expectedPcdSequence := !hasBit (frame.headD 0) dfcIsoDepSequenceBit },
            .ok, block)
        | (s, status, _) => fail s status
      else match reassemblePendingCommand E s (infOf frame)
          (hasBit (frame.headD 0) dfcIsoDepMore) (decide (o ≤ capacity)) with
        | (s, .error status) => fail s status
        | (s₁, .ok command) =>
          if hasBit (frame.headD 0) dfcIsoDepMore then
            buildIsoDepRAckAdvancing
              { s₁ with expectedPcdSequence := !hasBit (frame.headD 0) dfcIsoDepSequenceBit }
              (hasBit (frame.headD 0) dfcIsoDepCid) capacity
          else handleCommand E s₁ frame command o s.pendingCommandLen capacity := by
  subst ho
  rfl

/-- An I-block while a request is under way or nothing is. -/
theorem Stages.iBlock (h : Stages E.traced s (.fragments accepted)) (hE : E.traced.Contract)
    (hnote : s.emulator.2 = none) (hframe : frame ≠ []) (hi : isIBlock (frame.headD 0) = true)
    (hfit : overrunsMove E s frame = false) :
    Settles E (.fragments accepted) frame (handleIBlock E.traced s frame capacity) := by
  have hnotR : isRBlock (frame.headD 0) = false := isRBlock_of_isIBlock hi
  have hnext := @Staged.next_fragments frame accepted hnotR
  have hs : s.pendingCommandLen = accepted.flatten.length := h.holds.len
  obtain ⟨o, ho⟩ : ∃ o, (if hasBit (frame.headD 0) dfcIsoDepCid then 2 else 1) = o := ⟨_, rfl⟩
  have ho' : o ≤ 2 := by
    rw [← ho]
    split_ifs <;> omega
  rw [handleIBlock_eq ho]
  split
  · exact h.fails hnote (by decide)
  split
  · exact h.fails hnote (by decide)
  split
  · exact h.fails hnote (by decide)
  rename_i hchain
  split
  · exact h.fails hnote (by decide)
  split
  · -- An I-block that brings nothing is answered with one.
    rename_i hempty
    simp only [Bool.and_eq_true, Bool.not_eq_true', beq_iff_eq] at hempty
    obtain ⟨⟨-, hmore⟩, hzero⟩ := hempty
    have hnil : accepted.flatten = [] := List.length_eq_zero_iff.mp (hs ▸ hzero)
    rw [buildIsoDepEmptyIBlock, ho]
    by_cases hroom : capacity < o
    · rw [if_pos hroom]
      exact h.fails hnote (by decide)
    · rw [if_neg hroom]
      show Stages E.traced _ ((Staged.fragments accepted).next frame .ok s.emulator.2)
      rw [hnote, hnext, if_neg (by rw [hmore]; simp)]
      refine .ofEmpty ⟨h.bounded.inline, h.bounded.chain⟩ ?_
        ((hnil ▸ h.requests).congr rfl rfl rfl rfl)
      refine ⟨h.response.head, ?_, h.response.offset, h.response.lent, h.response.own⟩
      dsimp only [dfcVirtualPiccMaxBlockSize]
      split_ifs
      · exact Nat.le_of_ble_eq_true rfl
      · exact Nat.le_of_ble_eq_true rfl
  have hre := h.requests.reassemble (infOf frame) (hasBit (frame.headD 0) dfcIsoDepMore)
    (decide (o ≤ capacity))
  have hb := h.bounded.reassemble (E := E.traced) (infOf frame)
    (hasBit (frame.headD 0) dfcIsoDepMore) (decide (o ≤ capacity))
  have hsame := sameButStaging_reassemble (E := E.traced) s (infOf frame)
    (hasBit (frame.headD 0) dfcIsoDepMore) (decide (o ≤ capacity))
  generalize hx : reassemblePendingCommand E.traced s (infOf frame)
    (hasBit (frame.headD 0) dfcIsoDepMore) (decide (o ≤ capacity)) = r at hre hb hsame
  obtain ⟨s₁, status | command⟩ := r
  · exact (h.refuses hi hfit hx).fails (by rw [hsame.emulator]; exact hnote) (reassemble_error hx)
  have hnote₁ : s₁.emulator.2 = none := by rw [hsame.emulator]; exact hnote
  have hresponse := h.response.congr hsame
  have hquiet : s₁.pendingResponseLen = 0 := by
    rw [hsame.responseLen]
    simpa [isoDepResponseChainIsPending, h.response.notDirect] using hchain
  obtain rfl := hre.command command rfl
  dsimp only
  by_cases hmore : hasBit (frame.headD 0) dfcIsoDepMore = true
  · have hroom : ¬ capacity < o := by
      intro hshort
      have hnofit : (true && !decide (o ≤ capacity)) = true := by simpa using hshort
      rw [hmore, reassemblePendingCommand, if_pos hnofit] at hx
      simp at hx
    have hstaged := hre.staged _ rfl (.inl hmore)
    rw [if_pos hmore, buildIsoDepRAckAdvancing, buildIsoDepRBlock, ho, if_neg hroom]
    show Stages E.traced _ ((Staged.fragments accepted).next frame .ok s₁.emulator.2)
    rw [hnote₁, hnext, if_pos ⟨hi, hmore⟩]
    refine .ofRequests ⟨hb.inline, hb.chain⟩ ?_ ?_ fun _ => hquiet
    · refine ⟨hresponse.head, ?_, hresponse.offset, hresponse.lent, hresponse.own⟩
      dsimp only [isoDepRBlock, dfcVirtualPiccMaxBlockSize]
      split_ifs
      · exact Nat.le_of_ble_eq_true rfl
      · exact Nat.le_of_ble_eq_true rfl
    · rw [List.flatten_append, List.flatten_singleton]
      exact hstaged.congr rfl rfl rfl rfl
  · rw [if_neg hmore]
    rw [Bool.not_eq_true] at hmore
    rw [hmore] at hre
    rw [hs]
    obtain ⟨emulator, answer, hrun, hran⟩ | ⟨emulator, reason, retryable, hrun, hran⟩ :=
      traced_run (E := E) s₁.emulator (accepted.flatten ++ infOf frame)
    · exact answered_settles hE hb hresponse hframe hrun hran ho' _ _
    · exact hre.appended.fails hE hb hresponse (fun _ => hquiet) hrun hran _ _

theorem Executor.Contract.traced (hE : E.Contract) : E.traced.Contract where
  nonempty {s command s' answer} h := by
    cases hr : E.run s.1 command with
    | answered emulator answer' =>
      simp only [Executor.traced, hr, Outcome.answered.injEq] at h
      exact h.2 ▸ hE.nonempty hr
    | failed emulator reason retryable => simp [Executor.traced, hr] at h
  random {s command s' status} h := by
    cases hr : E.run s.1 command with
    | answered emulator answer' => simp [Executor.traced, hr] at h
    | failed emulator reason retryable =>
      simp only [Executor.traced, hr, Outcome.failed.injEq] at h
      obtain ⟨rfl, -, rfl⟩ := h
      exact hE.random hr
  large {s command s' status retryable} h hlarge := by
    cases hr : E.run s.1 command with
    | answered emulator answer' => simp [Executor.traced, hr] at h
    | failed emulator reason retryable' =>
      simp only [Executor.traced, hr, Outcome.failed.injEq] at h
      obtain ⟨rfl, -, -⟩ := h
      exact hE.large hr hlarge
  reset s := hE.reset s.1

/-- Any frame leaves the staging area as it should be. -/
theorem Stages.exchange (h : Stages E.traced s staged) (hE : E.Contract)
    (hnote : s.emulator.2 = none) (hfit : overrunsMove E s frame = false) :
    Settles E staged frame (dfcVirtualPiccIsoDepFrameExchange E.traced s frame capacity) := by
  rw [dfcVirtualPiccIsoDepFrameExchange]
  split
  · exact h.fails hnote (by decide)
  split
  · rename_i hrats
    exact h.rats hnote hrats
  split
  · exact h.fails hnote (by decide)
  rename_i hopen
  have hframe : frame ≠ [] := by
    rintro rfl
    simp at hopen
  rw [h.valid]
  simp only [Bool.not_true, Bool.false_eq_true, if_false]
  split
  · rename_i hd
    exact h.deselect hE.traced hnote hd
  cases staged with
  | frame octets =>
    rw [if_pos (h.initial_iff.mpr ⟨octets, rfl⟩)]
    by_cases hi : isIBlock (frame.headD 0) = true
    · rw [hi]
      exact h.replay hnote hi
    · rw [Bool.not_eq_true] at hi
      rw [hi]
      exact h.fails hnote (by decide)
  | fragments accepted =>
    have hinitial : ¬ isoDepInitialResponseIsStaged s = true := by
      rw [h.initial_iff]
      simp
    rw [if_neg hinitial]
    split
    · rename_i hi
      exact h.iBlock hE.traced hnote hframe hi hfit
    split
    · rename_i hr
      exact h.rBlock hnote hr
    · exact h.fails hnote (by decide)

theorem Stages.unnoted (h : Stages E.traced s staged) : Stages E.traced (unnoted s) staged where
  bounded := ⟨h.bounded.inline, h.bounded.chain⟩
  response := ⟨h.response.head, h.response.last, h.response.offset, h.response.lent, h.response.own⟩
  holds := ⟨h.holds.len, h.holds.inline, h.holds.chain⟩
  request := h.request
  kept := h.kept

theorem Stages.call {p : Session (σ × Option Ran) × Staged} (h : Stages E.traced p.1 p.2)
    (hE : E.Contract) {call : List UInt8 × ℕ} (hfit : overrunsMove E p.1 call.1 = false) :
    Stages E.traced (stagingCall E p call).1 (stagingCall E p call).2 :=
  h.unnoted.exchange hE rfl hfit

theorem Stages.run {p : Session (σ × Option Ran) × Staged} (h : Stages E.traced p.1 p.2)
    (hE : E.Contract) (calls : List (List UInt8 × ℕ)) (hfit : movesFit E p calls) :
    Stages E.traced (stagingRun E p calls).1 (stagingRun E p calls).2 := by
  induction calls generalizing p with
  | nil => exact h
  | cons call calls ih =>
    obtain ⟨hfirst, hrest⟩ := hfit
    exact ih (h.call hE hfirst) hrest

theorem stages_inField (emulator : σ) :
    Stages E.traced (inField emulator).1 (inField emulator).2 := by
  refine .ofEmpty ⟨Nat.zero_le _, fun octets hc => ?_⟩ ?_ (.ofInline rfl rfl rfl (Nat.zero_le _))
  · cases hc
  · refine ⟨Nat.zero_le _, Nat.zero_le _, le_rfl, fun hs => ?_, fun _ => ⟨Nat.zero_le _, .inl rfl⟩⟩
    cases hs

/-- The place reassembly appends to is the one the comparison with a repetition reads. -/
theorem Holds.storage {σ : Type} {E : Executor σ} {s : Session σ} {d : List UInt8}
    (h : Holds E s d) : stagedStorage s = d ∧ pendingCommandData s = some d := by
  rw [stagedStorage, pendingCommandData, h.len]
  cases hc : s.commandChain with
  | none =>
    obtain ⟨htake, hshort⟩ := h.inline hc
    rw [if_neg (by omega)]
    exact ⟨htake, congrArg some htake⟩
  | some octets =>
    obtain ⟨-, rfl, hlong, -⟩ := h.chain octets hc
    rw [if_pos hlong]
    exact ⟨List.take_length, congrArg some List.take_length⟩

/-- After any frames, at any capacities, of which none overruns the move to the borrowed buffer:
the staged octets are the fragments accepted since the last command that was answered or given
up, or the frame whose response waits for a larger buffer; both readers find them; nothing was
written beyond the capacity of its place; and a further fragment that is refused, or a command
that is taken back, leaves them as they are. -/
theorem staging_holdsAccepted (hE : E.Contract) (emulator : σ) (calls : List (List UInt8 × ℕ))
    (hfit : movesFit E (inField emulator) calls) :
    let p := stagingRun E (inField emulator) calls
    pendingCommandIsValid E.traced p.1 = true ∧
    stagedStorage p.1 = p.2.octets ∧ pendingCommandData p.1 = some p.2.octets ∧
    Bounded p.1 ∧
    (∀ inf more fits, Bounded (reassemblePendingCommand E.traced p.1 inf more fits).1) ∧
    ∀ frame capacity, overrunsMove E p.1 frame = false →
      let x := dfcVirtualPiccIsoDepFrameExchange E.traced (unnoted p.1) frame capacity
      x.1.emulator.2 = none ∧ x.2.1 ≠ .ok ∨ x.1.emulator.2 = some (.failed true) ∨
        x.1.emulator.2 = some (.failed false) ∧
          (p.2.octets ++ infOf frame).length ≤ pendingCommandSize →
      stagedStorage x.1 = stagedStorage p.1 := by
  intro p
  have h : Stages E.traced p.1 p.2 := (stages_inField emulator).run hE calls hfit
  obtain ⟨hstorage, hdata⟩ := h.holds.storage
  refine ⟨h.holds.valid, hstorage, hdata, h.bounded,
    fun inf more fits => h.bounded.reassemble inf more fits, ?_⟩
  intro frame capacity hframe x hrefused
  have hx : Stages E.traced x.1 (p.2.next frame x.2.1 x.1.emulator.2) :=
    h.unnoted.exchange hE rfl hframe
  have hnext : p.2.next frame x.2.1 x.1.emulator.2 = p.2 := by
    obtain ⟨hnote, hstatus⟩ | hnote | ⟨hnote, hshort⟩ := hrefused
    · rw [hnote]
      exact Staged.next_stays (.inl hstatus)
    · rw [hnote]
      rfl
    · rw [hnote]
      exact if_neg (by omega)
  rw [hnext] at hx
  rw [hx.holds.storage.1, hstorage]

end

/-- Two fragments of WriteData under way, the second of which a caller without room for the
acknowledgement had refused first. -/
theorem staging_holdsAccepted_twoFragments :
    let calls := [([0xE0, 0x80], 64), ([0x12, 0x8D, 0x01], 16), ([0x13, 0x00], 0),
      ([0x13, 0x00], 16)]
    let p := stagingRun blankCard (inField ()) calls
    p.2 = .fragments [[0x8D, 0x01], [0x00]] ∧ stagedStorage p.1 = [0x8D, 0x01, 0x00] := by
  intro calls p
  have hp : p.2 = .fragments [[0x8D, 0x01], [0x00]] := by decide +kernel
  have h := staging_holdsAccepted blankCard_contract () calls
    ⟨by decide +kernel, by decide +kernel, by decide +kernel, by decide +kernel, trivial⟩
  have hstorage : stagedStorage p.1 = p.2.octets := h.2.1
  rw [hp] at hstorage
  exact ⟨hp, hstorage⟩

/-- An answered command whose response does not fit leaves its frame in the staging area. A
command that fails after the request outgrew the fixed array takes all its fragments along. -/
theorem staging_notOnlyFragments :
    let kept := stagingRun blankCard (inField ()) [([0xE0, 0x80], 64), ([0x02, 0x6A], 1)]
    let fragment := List.replicate 60 (0x8D : UInt8)
    let calls := [([0xE0, 0x80], 64), (0x12 :: fragment, 64), (0x13 :: fragment, 64)]
    let before := stagingRun spentCounterCard (inField 0) calls
    let after := stagingCall spentCounterCard before (0x02 :: fragment, 64)
    (kept.1.emulator.2 = some .answered ∧ stagedStorage kept.1 = [0x02, 0x6A]) ∧
      stagedStorage before.1 = fragment ++ fragment ∧
      after.1.emulator.2 = some (.failed false) ∧ stagedStorage after.1 = [] := by
  decide +kernel

/-- A fragment that overruns the move leaves the buffer borrowed. The fragment accepted next goes
there alone, and is lost when the command that follows fails and retires the buffer. -/
theorem staging_overrun_losesFragment :
    let start := List.replicate 50 (0x8D : UInt8)
    let calls := [([0xE0, 0x80], 64), (0x12 :: start, 64), (0x13 :: List.replicate 2100 0, 64),
      ([0x13, 1, 2, 3], 64), ([0x02, 4], 64)]
    let p := stagingRun spentCounterCard (inField 0) calls
    p.2 = .fragments [start, [1, 2, 3]] ∧ p.1.pendingCommandLen = 53 ∧
    stagedStorage p.1 = start := by
  decide +kernel

end DfcCore.IsoDep
