import DfcCore.IsoDepCard

/-!
# The frames of the reader at the card

What the card answers to each kind of frame a reader may send, and in which state that
leaves it: an R-block repeats the last block or asks for the next one, a fragment is
acknowledged, and the last fragment of a request brings its execution and the first block
of the response. The card ignores the number of an I-block; `CardWaits` and `CardAnswers`
record which number it will use itself.
-/
namespace DfcCore.IsoDep
variable {σ : Type} {E : Executor σ} {a : Addressing} {s : Session σ} {d inf : List UInt8}
  {n more nak : Bool} {capacity : ℕ}

theorem iFrame_eq (a : Addressing) (n more : Bool) (inf : List UInt8) :
    a.head (iPcb n more) ++ inf = (iPcb n more ||| bitIf a.useCid dfcIsoDepCid) ::
      ((if a.useCid then [a.cid] else []) ++ inf) := by
  rw [a.head_eq, List.cons_append]

/-- What follows the head of a frame. -/
theorem drop_head (a : Addressing) (pcb : UInt8) (inf : List UInt8) :
    (a.head pcb ++ inf).drop (if a.useCid then 2 else 1) = inf := by
  cases hu : a.useCid <;> simp [Addressing.head, hu]

theorem parseBlock_i (a : Addressing) (n more : Bool) (inf : List UInt8) :
    parseBlock (a.head (iPcb n more) ++ inf) =
      some { isI := true, number := n, more := more, inf := inf } := by
  have hbits := iPcb_bits n more a.useCid
  have hdrop := drop_head a (iPcb n more) inf
  rw [iFrame_eq] at hdrop ⊢
  simp only [parseBlock, List.headD_cons, hbits.cid, hdrop, List.isEmpty_cons, Bool.false_eq_true,
    if_false, hbits.iBlock, if_true, hbits.sequence, hbits.more rfl]

theorem parseBlock_r (a : Addressing) (n : Bool) :
    parseBlock (a.head (rPcb n false)) =
      some { isI := false, number := n, more := false, inf := [] } := by
  have hbits := rPcb_bits n false a.useCid
  rw [a.head_eq]
  simp only [parseBlock, List.headD_cons, List.isEmpty_cons, Bool.false_eq_true, if_false,
    hbits.iBlock, hbits.rBlock, hbits.nak rfl, hbits.sequence, Bool.not_false, Bool.and_self,
    if_true]

theorem head_ne_nil (a : Addressing) (pcb : UInt8) : a.head pcb ≠ [] := by
  rw [a.head_eq]
  simp

theorem isoDepRBlock_eq (hr : Ready a s) (n : Bool) :
    isoDepRBlock n false a.useCid s.isoDepCid = a.head (rPcb n false) := by
  rw [hr.cid, isoDepRBlock, Addressing.head, rPcb]
  cases a.useCid <;> rfl

theorem Ready.cidMatches (hr : Ready a s) (inf : List UInt8) {pcb : UInt8}
    (hbit : hasBit (pcb ||| bitIf a.useCid dfcIsoDepCid) dfcIsoDepCid = a.useCid) :
    isoDepCidMatches s (a.head pcb ++ inf) = true := by
  have hcid := hr.cid
  rw [a.head_eq, isoDepCidMatches, List.cons_append, List.headD_cons, hbit]
  cases hu : a.useCid <;> simp [hu] at hcid ⊢ <;> simp [hcid]

/-- The checks in front of a block find nothing to object to. -/
structure Open (E : Executor σ) (a : Addressing) (s : Session σ) : Prop where
  ready : Ready a s
  valid : pendingResponseIsValid E s = true
  notStaged : isoDepInitialResponseIsStaged s = false
  notDirect : directResponseIsPending s = false

theorem Quiet.open (hq : Quiet s) (hr : Ready a s) (hv : pendingCommandIsValid E s = true) :
    Open E a s where
  ready := hr
  valid := hq.valid hr hv
  notStaged := by simp [isoDepInitialResponseIsStaged, isoDepResponseChainIsPending, hq.len]
  notDirect := by simp [directResponseIsPending, hq.offset]

theorem Loaded.open {response : List UInt8} {o : ℕ} (hl : Loaded a s response o) (hr : Ready a s)
    (hh : Holds E s []) : Open E a s where
  ready := hr
  valid := hl.valid hr hh
  notStaged := by simp [isoDepInitialResponseIsStaged, hh.len]
  notDirect := hl.notDirect

theorem isRBlock_of_isIBlock {pcb : UInt8} (hi : isIBlock pcb = true) : isRBlock pcb = false := by
  rw [isIBlock, beq_iff_eq] at hi
  rw [isRBlock, hi]
  rfl

theorem isIBlock_of_isRBlock {pcb : UInt8} (hr : isRBlock pcb = true) : isIBlock pcb = false := by
  rw [isRBlock, beq_iff_eq] at hr
  rw [isIBlock, hr]
  rfl

theorem isSBlock_kinds {pcb : UInt8} (hs : isSBlock pcb = true) :
    isIBlock pcb = false ∧ isRBlock pcb = false := by
  rw [isSBlock, beq_iff_eq] at hs
  constructor
  · rw [isIBlock, hs]
    rfl
  · rw [isRBlock, hs]
    rfl

/-- RATS shares its two leading bits with an S-block. -/
theorem isSBlock_of_rats {pcb : UInt8} (h : (pcb &&& 0xF0 == 0xE0) = true) :
    isSBlock pcb = true := by
  rw [beq_iff_eq] at h
  have hmask : pcb &&& dfcIsoDepBlockMask = pcb &&& 0xF0 &&& dfcIsoDepBlockMask := by
    rw [UInt8.and_assoc]
    rfl
  rw [isSBlock, hmask, h]
  rfl

theorem isSBlock_of_isDeselect {pcb : UInt8} (h : isDeselect pcb = true) : isSBlock pcb = true := by
  rw [isDeselect, Bool.and_eq_true] at h
  exact h.1

theorem isRBlock_kinds {pcb : UInt8} (hr : isRBlock pcb = true) :
    isIBlock pcb = false ∧ isDeselect pcb = false ∧ (pcb &&& 0xF0 == 0xE0) = false := by
  have hs : isSBlock pcb = false := by
    by_contra hs
    have hk := (isSBlock_kinds (Bool.eq_true_of_not_eq_false hs)).2
    rw [hr] at hk
    cases hk
  refine ⟨isIBlock_of_isRBlock hr, ?_, ?_⟩
  · rw [isDeselect, hs, Bool.false_and]
  · by_contra h
    rw [isSBlock_of_rats (Bool.eq_true_of_not_eq_false h)] at hs
    cases hs

theorem isRats_eq_false (frame : List UInt8) (h : (frame.headD 0 &&& 0xF0 == 0xE0) = false) :
    isRats frame = false := by rw [isRats, h, Bool.and_false]

theorem Open.exchange_i (ho : Open E a s) :
    dfcVirtualPiccIsoDepFrameExchange E s (a.head (iPcb n more) ++ inf) capacity =
      handleIBlock E s (a.head (iPcb n more) ++ inf) capacity := by
  have hbits := iPcb_bits n more a.useCid
  have hhead : (a.head (iPcb n more) ++ inf).headD 0 =
      iPcb n more ||| bitIf a.useCid dfcIsoDepCid := by rw [iFrame_eq]; rfl
  have hne : (a.head (iPcb n more) ++ inf).isEmpty = false := by rw [iFrame_eq]; rfl
  rw [dfcVirtualPiccIsoDepFrameExchange, isRats_eq_false _ (by rw [hhead]; exact hbits.noRats)]
  simp only [hhead, hne, ho.ready.activated, ho.ready.selected, ho.valid, ho.notStaged,
    hbits.noDeselect, hbits.iBlock, Bool.not_true, Bool.or_false, Bool.false_eq_true, if_false,
    if_true]

theorem Open.exchange_r (ho : Open E a s) :
    dfcVirtualPiccIsoDepFrameExchange E s (a.head (rPcb n nak)) capacity =
      handleRBlock E s (a.head (rPcb n nak)) capacity := by
  have hbits := rPcb_bits n nak a.useCid
  have hhead : (a.head (rPcb n nak)).headD 0 = rPcb n nak ||| bitIf a.useCid dfcIsoDepCid := by
    rw [a.head_eq]; rfl
  have hne : (a.head (rPcb n nak)).isEmpty = false := by rw [a.head_eq]; rfl
  rw [dfcVirtualPiccIsoDepFrameExchange, isRats_eq_false _ (by rw [hhead]; exact hbits.noRats)]
  simp only [hhead, hne, ho.ready.activated, ho.ready.selected, ho.valid, ho.notStaged,
    hbits.noDeselect, hbits.iBlock, hbits.rBlock, Bool.not_true, Bool.not_false, Bool.or_false,
    Bool.false_eq_true, if_false, if_true]

/-- An R-block with the number of the last block brings that block again. -/
theorem Open.repeats (ho : Open E a s) (nak : Bool) (hcap : dfcVirtualPiccMaxBlockSize ≤ capacity)
    (hlast : s.lastPiccBlock ≠ []) (hn : s.piccSequence = !n) :
    dfcVirtualPiccIsoDepFrameExchange E s (a.head (rPcb n nak)) capacity =
      (s, .ok, s.lastPiccBlock) := by
  have hbits := rPcb_bits n nak a.useCid
  have hmatch := ho.ready.cidMatches [] hbits.cid
  have hle := ho.ready.last
  rw [List.append_nil] at hmatch
  rw [ho.exchange_r, handleRBlock, hmatch, ho.notDirect, a.head_eq, List.headD_cons, hbits.sequence]
  simp [hn, hlast, show ¬ capacity < s.lastPiccBlock.length by omega]

/-- R(NAK) with the number the card will use next is answered with R(ACK) of the other one. -/
theorem Open.nakNext (ho : Open E a s) (hcap : dfcVirtualPiccMaxBlockSize ≤ capacity)
    (hlast : s.lastPiccBlock ≠ []) (hn : s.piccSequence = n) :
    dfcVirtualPiccIsoDepFrameExchange E s (a.head (rPcb n true)) capacity =
      (s, .ok, a.head (rPcb (!n) false)) := by
  have hbits := rPcb_bits n true a.useCid
  have hmatch := ho.ready.cidMatches [] hbits.cid
  rw [List.append_nil] at hmatch
  have hroom : ¬ capacity < if a.useCid then 2 else 1 := by
    simp only [dfcVirtualPiccMaxBlockSize] at hcap
    split_ifs <;> omega
  rw [ho.exchange_r, handleRBlock, hmatch, ho.notDirect, a.head_eq, List.headD_cons, hbits.sequence,
    hbits.cid, hbits.nak rfl, buildIsoDepRBlock, if_neg hroom, hn, isoDepRBlock_eq ho.ready,
    a.head_eq]
  simp [hlast]

/-- R(ACK) with the number the card will use next asks for the next block of the response. -/
theorem Open.ackNext (ho : Open E a s) (capacity : ℕ) (hlast : s.lastPiccBlock ≠ [])
    (hn : s.piccSequence = n)
    (hlen : s.pendingResponseLen ≠ 0) :
    dfcVirtualPiccIsoDepFrameExchange E s (a.head (rPcb n false)) capacity =
      writeAndRememberIsoDepResponseBlock E s capacity := by
  have hbits := rPcb_bits n false a.useCid
  have hmatch := ho.ready.cidMatches [] hbits.cid
  rw [List.append_nil] at hmatch
  rw [ho.exchange_r, handleRBlock, hmatch, ho.notDirect, a.head_eq, List.headD_cons, hbits.sequence,
    hbits.nak rfl]
  simp [hlast, hn, hlen]

/-- The card waits for block `n` of the reader and holds the request octets `d`. -/
structure CardWaits (E : Executor σ) (a : Addressing) (s : Session σ) (d : List UInt8) (n : Bool) :
    Prop where
  ready : Ready a s
  holds : Requests E s d
  quiet : Quiet s
  last : s.lastPiccBlock ≠ []
  sequence : s.piccSequence = n

/-- The card waits for block `n` of the reader with the fragment `inf`, which it cannot take. -/
structure CardStuck (E : Executor σ) (a : Addressing) (s : Session σ) (d inf : List UInt8)
    (n : Bool) : Prop where
  ready : Ready a s
  stuck : Stuck E s d inf
  quiet : Quiet s
  last : s.lastPiccBlock ≠ []
  sequence : s.piccSequence = n

theorem CardWaits.open (hw : CardWaits E a s d n) : Open E a s :=
  hw.quiet.open hw.ready hw.holds.valid

theorem CardStuck.open (hw : CardStuck E a s d inf n) : Open E a s :=
  hw.quiet.open hw.ready hw.stuck.valid

theorem SameButStaging.ready {s' : Session σ} (hs : SameButStaging s s') (hr : Ready a s) :
    Ready a s' where
  activated := hs.activated.trans hr.activated
  selected := hs.selected.trans hr.selected
  cid := hs.cid.trans hr.cid
  maxInf := by rw [hs.maxInf]; exact hr.maxInf
  last := by rw [hs.last]; exact hr.last

theorem SameButStaging.quiet {s' : Session σ} (hs : SameButStaging s s') (hq : Quiet s) :
    Quiet s' where
  len := hs.responseLen.trans hq.len
  offset := hs.responseOffset.trans hq.offset
  head := hs.responsePrefix.trans hq.head
  staged := hs.responseStaged.trans hq.staged

theorem CardWaits.ofStaging {s' : Session σ} (hw : CardWaits E a s d n) (hs : SameButStaging s s')
    {d' : List UInt8} (hh : Requests E s' d') : CardWaits E a s' d' n where
  ready := hs.ready hw.ready
  holds := hh
  quiet := hs.quiet hw.quiet
  last := by rw [hs.last]; exact hw.last
  sequence := hs.sequence.trans hw.sequence

theorem CardWaits.stuck {s' : Session σ} (hw : CardWaits E a s d n) (hs : SameButStaging s s')
    (hh : Stuck E s' d inf) : CardStuck E a s' d inf n where
  ready := hs.ready hw.ready
  stuck := hh
  quiet := hs.quiet hw.quiet
  last := by rw [hs.last]; exact hw.last
  sequence := hs.sequence.trans hw.sequence

/-- An I-block of the reader, with the parts of its frame read off. -/
theorem Open.readsFrame (ho : Open E a s) (hq : Quiet s) (n more : Bool) (inf : List UInt8) :
    dfcVirtualPiccIsoDepFrameExchange E s (a.head (iPcb n more) ++ inf) capacity =
      if inf.length == 0 && !more && s.pendingCommandLen == 0 then
        match buildIsoDepEmptyIBlock s a.useCid capacity with
        | (s, .ok, block) => ({ s with expectedPcdSequence := !n }, .ok, block)
        | (s, status, _) => fail s status
      else
        match reassemblePendingCommand E s inf more
          (decide ((if a.useCid then 2 else 1) ≤ capacity)) with
        | (s, .error status) => fail s status
        | (s', .ok command) =>
          if more then
            buildIsoDepRAckAdvancing { s' with expectedPcdSequence := !n } a.useCid capacity
          else handleCommand E s' (a.head (iPcb n more) ++ inf) command
            (if a.useCid then 2 else 1) s.pendingCommandLen capacity := by
  have hbits := iPcb_bits n more a.useCid
  have hhead : (a.head (iPcb n more) ++ inf).headD 0 =
      iPcb n more ||| bitIf a.useCid dfcIsoDepCid := by rw [iFrame_eq]; rfl
  have hchain : isoDepResponseChainIsPending s = false := by
    simp [isoDepResponseChainIsPending, hq.len]
  have hread : dfcVirtualPiccIsoDepFrameExchange E s (a.head (iPcb n more) ++ inf) capacity =
      handleIBlock E s (a.head (iPcb n more) ++ inf) capacity := ho.exchange_i
  rw [handleIBlock] at hread
  simp only [hhead, hbits.noNad, hbits.cid, hbits.sequence, hbits.more rfl, hchain, ho.notDirect,
    ho.ready.cidMatches inf hbits.cid, drop_head, Bool.not_true, Bool.false_eq_true, if_false]
    at hread
  exact hread

/-- The fragment that did not fit does not fit the next time either. -/
theorem CardStuck.refuses (hw : CardStuck E a s d inf n) {more : Bool}
    (hstage : more = true ∨ d ≠ []) (capacity : ℕ) :
    dfcVirtualPiccIsoDepFrameExchange E s (a.head (iPcb n more) ++ inf) capacity =
      (s, .bufferTooSmall, []) := by
  have hbusy : ¬ (inf.length == 0 && !more && s.pendingCommandLen == 0) = true := by
    rw [hw.stuck.len]
    obtain rfl | hd := hstage
    · simp
    · simp [hd]
  rw [hw.open.readsFrame hw.quiet, if_neg hbusy, hw.stuck.reassemble hstage]
  rfl

/-- A fragment that is not the last is refused or acknowledged. -/
theorem CardWaits.fragment (hw : CardWaits E a s d n) (inf : List UInt8)
    (hcap : dfcVirtualPiccMaxBlockSize ≤ capacity) :
    (∃ s' status, dfcVirtualPiccIsoDepFrameExchange E s (a.head (iPcb n true) ++ inf) capacity =
        (s', status, []) ∧ (CardWaits E a s' d n ∨ CardStuck E a s' d inf n) ∧
        s'.emulator = s.emulator) ∨
    (∃ s', dfcVirtualPiccIsoDepFrameExchange E s (a.head (iPcb n true) ++ inf) capacity =
        (s', .ok, a.head (rPcb n false)) ∧ CardWaits E a s' (d ++ inf) (!n) ∧
        s'.lastPiccBlock = a.head (rPcb n false) ∧ s'.emulator = s.emulator) := by
  have hroom : ¬ capacity < if a.useCid then 2 else 1 := by
    simp only [dfcVirtualPiccMaxBlockSize] at hcap
    split_ifs <;> omega
  have hre := hw.holds.reassemble inf true (decide ((if a.useCid then 2 else 1) ≤ capacity))
  have hsame := sameButStaging_reassemble (E := E) s inf true
    (decide ((if a.useCid then 2 else 1) ≤ capacity))
  rw [hw.open.readsFrame hw.quiet]
  simp only [Bool.not_true, Bool.and_false, Bool.false_and, Bool.false_eq_true, if_false, if_true]
  generalize reassemblePendingCommand E s inf true
    (decide ((if a.useCid then 2 else 1) ≤ capacity)) = r at hre hsame
  obtain ⟨s₁, status | command⟩ := r
  · left
    refine ⟨s₁, status, rfl, ?_, hsame.emulator⟩
    obtain h | ⟨-, h⟩ := hre.refused status rfl
    · exact .inl (hw.ofStaging hsame h)
    · exact .inr (hw.stuck hsame h)
  · right
    have hw₁ := hw.ofStaging hsame (hre.staged command rfl (.inl rfl))
    have hack : isoDepRBlock s₁.piccSequence false a.useCid s₁.isoDepCid =
        a.head (rPcb n false) := by
      rw [isoDepRBlock_eq hw₁.ready, hw₁.sequence]
    dsimp only [buildIsoDepRAckAdvancing, buildIsoDepRBlock]
    rw [if_neg hroom, hack]
    refine ⟨_, rfl, ⟨⟨hw₁.ready.activated, hw₁.ready.selected, hw₁.ready.cid, hw₁.ready.maxInf, ?_⟩,
      hw₁.holds.congr rfl rfl rfl rfl, ⟨hw₁.quiet.len, hw₁.quiet.offset, hw₁.quiet.head,
        hw₁.quiet.staged⟩, head_ne_nil a _, ?_⟩, rfl, hsame.emulator⟩
    · exact le_trans (a.length_head _) (by decide)
    · exact congrArg Bool.not hw₁.sequence

/-- The session in which the card has answered a command: the block `n` it sent last carries
`chunk`, and `rest` is still to come of the response. -/
structure CardAnswers (E : Executor σ) (a : Addressing) (s : Session σ) (n : Bool)
    (response received chunk rest : List UInt8) : Prop where
  ready : Ready a s
  holds : Holds E s []
  sequence : s.piccSequence = !n
  last : s.lastPiccBlock = a.head (iPcb n (!rest.isEmpty)) ++ chunk
  split : response = received ++ chunk ++ rest
  finished : rest = [] → Quiet s
  pending : rest ≠ [] → Loaded a s response (received ++ chunk).length

/-- What the last fragment of a request leads to, unless its command fails half way. -/
inductive Completed (E : Executor σ) (a : Addressing) (s : Session σ) (d command : List UInt8)
    (n : Bool) : Exchange σ → Prop
  | refused {s' status} (card : CardWaits E a s' d n)
      (emulator : s'.emulator = s.emulator ∨
        ∃ reason, E.run s.emulator command = .failed s'.emulator reason true) :
      Completed E a s d command n (s', status, [])
  | stuck {s' status inf} (appended : command = d ++ inf) (stage : d ≠ [])
      (card : CardStuck E a s' d inf n) (emulator : s'.emulator = s.emulator) :
      Completed E a s d command n (s', status, [])
  | empty {s'} (nothing : command = []) (card : CardAnswers E a s' n [] [] [] [])
      (emulator : s'.emulator = s.emulator) :
      Completed E a s d command n (s', .ok, s'.lastPiccBlock)
  | answered {s' answer} {chunk rest : List UInt8} (nonempty : command ≠ [])
      (run : E.run s.emulator command = .answered s'.emulator answer)
      (card : CardAnswers E a s' n answer.octets [] chunk rest) :
      Completed E a s d command n (s', .ok, s'.lastPiccBlock)

/-- The request was appended to, or its only fragment was executed from the frame. -/
def Appended (E : Executor σ) (s₁ : Session σ) (d inf : List UInt8) : Prop :=
  Requests E s₁ (d ++ inf) ∨ d = [] ∧ s₁.pendingCommandLen = 0 ∧ (s₁.commandChain ≠ none →
    E.commandChainActive s₁.emulator = false ∧ commandCanUseLargeIsoDepStorage inf = true)

theorem Reassembled.appended {s₁ : Session σ} {command : List UInt8}
    (h : Reassembled E d inf false (s₁, .ok command)) : Appended E s₁ d inf := by
  by_cases hd : d = []
  · exact .inr ⟨hd, h.direct _ rfl rfl hd⟩
  · exact .inl (h.staged _ rfl (.inr hd))

theorem Appended.large {s₁ : Session σ} (h : Appended E s₁ d inf) (hne : s₁.commandChain ≠ none) :
    commandCanUseLargeIsoDepStorage (d ++ inf) = true := by
  obtain hh | ⟨rfl, -, hchain⟩ := h
  · exact hh.large hne
  · exact (hchain hne).2

/-- Going back to the octets `d` after a command that left them in the fixed array, or that had
none staged. -/
theorem Appended.rewind {s₁ : Session σ} (h : Appended E s₁ d inf) (emulator : σ)
    {chain : Option (List UInt8)} (hinline : d ≠ [] → s₁.commandChain = none ∧ chain = none)
    (hinactive : chain ≠ none → E.commandChainActive emulator = false) :
    Requests E (truncatePendingCommand E
      { s₁ with emulator := emulator, commandChain := chain } d.length) d := by
  by_cases hd : d = []
  · subst hd
    exact Requests.discard hinactive
  · obtain ⟨hnone, rfl⟩ := hinline hd
    obtain hh | ⟨rfl, -, -⟩ := h
    · obtain ⟨htake, hshort⟩ := hh.inline hnone
      exact Requests.truncate rfl htake hshort
    · exact absurd rfl hd

/-- Going back to the octets `d` after a command that ran out of random octets. -/
theorem Appended.retryable {s₁ : Session σ} (h : Appended E s₁ d inf) (hE : E.Contract)
    {emulator : σ} {reason : DfcVirtualPiccStatus}
    (hrun : E.run s₁.emulator (d ++ inf) = .failed emulator reason true) :
    Requests E (truncatePendingCommand E { s₁ with
      emulator := emulator
      commandChain := if (d ++ inf).headD 0 = 0x00 then s₁.commandChain else none }
      d.length) d := by
  have hnone : s₁.commandChain = none := by
    by_contra hne
    cases (hE.random hrun).1.symm.trans (h.large hne)
  have hafter : (if (d ++ inf).headD 0 = 0x00 then s₁.commandChain else none) = none := by
    rw [hnone, ite_self]
  exact h.rewind emulator (fun _ => ⟨hnone, hafter⟩) fun hne => absurd hafter hne

/-- Going back to the octets `d` after a command that failed without an effect. -/
theorem Appended.harmless {s₁ : Session σ} (h : Appended E s₁ d inf) (hE : E.Contract)
    {reason : DfcVirtualPiccStatus} {retryable : Bool}
    (hrun : E.run s₁.emulator (d ++ inf) = .failed s₁.emulator reason retryable)
    (hshort : d = [] ∨ (d ++ inf).length ≤ pendingCommandSize) :
    Requests E (truncatePendingCommand E { s₁ with
      commandChain := if (d ++ inf).headD 0 = 0x00 then s₁.commandChain else none }
      d.length) d := by
  refine h.rewind s₁.emulator (fun hd => ?_) fun hne => ?_
  · have hnone : s₁.commandChain = none := by
      obtain hh | ⟨rfl, -, -⟩ := h
      · exact hh.chain_of_short (hshort.resolve_left hd)
      · exact absurd rfl hd
    rw [hnone, ite_self]
    exact ⟨rfl, rfl⟩
  · -- A command that may be large is a native one, and that takes the borrowed buffer along.
    by_cases hhead : (d ++ inf).headD 0 = 0x00
    · rw [if_pos hhead] at hne
      exact absurd hhead (hE.large hrun (h.large hne)).1
    · exact absurd (if_neg hhead) hne

/-- The card after a command ran out of random octets holds what it held before the last
fragment. -/
theorem handleCommand_retryable (hE : E.Contract) {s₁ : Session σ} {emulator : σ}
    {reason : DfcVirtualPiccStatus} (frame : List UInt8) (offset capacity : ℕ)
    (hrun : E.run s₁.emulator (d ++ inf) = .failed emulator reason true)
    (hstaged : Appended E s₁ d inf) :
    ∃ s', handleCommand E s₁ frame (d ++ inf) offset d.length capacity =
        (s', .protocolError, []) ∧
      SameButStaging { s₁ with emulator := emulator } s' ∧ Requests E s' d := by
  rw [handleCommand, hrun]
  simp only [if_true]
  exact ⟨_, rfl, ⟨rfl, rfl, rfl, rfl, rfl, rfl, rfl, rfl, rfl, rfl, rfl, rfl, rfl⟩,
    hstaged.retryable hE hrun⟩

/-- So it does after a command that failed without an effect. -/
theorem handleCommand_harmless (hE : E.Contract) {s₁ : Session σ} {reason : DfcVirtualPiccStatus}
    (frame : List UInt8) (offset capacity : ℕ)
    (hrun : E.run s₁.emulator (d ++ inf) = .failed s₁.emulator reason false)
    (hstaged : Appended E s₁ d inf) (hshort : d = [] ∨ (d ++ inf).length ≤ pendingCommandSize) :
    ∃ s', handleCommand E s₁ frame (d ++ inf) offset d.length capacity = (s', reason, []) ∧
      SameButStaging s₁ s' ∧ Requests E s' d := by
  refine ⟨_, ?_, ?_, hstaged.harmless hE hrun hshort⟩
  swap
  · exact ⟨rfl, rfl, rfl, rfl, rfl, rfl, rfl, rfl, rfl, rfl, rfl, rfl, rfl⟩
  rw [handleCommand, hrun]
  simp only [Bool.false_eq_true, if_false]
  refine ite_eq_right_iff.mpr fun hlost => ?_
  -- A command in one fragment has nothing staged to go back to.
  have hnil : d = [] := by
    refine hshort.resolve_right fun hle => ?_
    simp only [Bool.and_eq_true, decide_eq_true_eq] at hlost
    obtain hh | ⟨-, hlen, -⟩ := hstaged
    · rw [hh.len] at hlost
      omega
    · omega
  rw [hnil]
  rfl

theorem Sent.answers {s₁ s' : Session σ} {response chunk rest received : List UInt8}
    (hs : Sent E a s₁ s' [] response (a.head (iPcb s₁.piccSequence (!rest.isEmpty)) ++ chunk)
      (received ++ chunk).length rest) (hsplit : response = received ++ chunk ++ rest) :
    CardAnswers E a s' s₁.piccSequence response received chunk rest :=
  ⟨hs.ready, hs.holds, hs.sequence, hs.last, hsplit, hs.finished, hs.pending⟩

theorem CardAnswers.expecting {response received chunk rest : List UInt8}
    (h : CardAnswers E a s n response received chunk rest) (sequence : Bool) :
    CardAnswers E a { s with expectedPcdSequence := sequence } n response received chunk rest where
  ready := ⟨h.ready.activated, h.ready.selected, h.ready.cid, h.ready.maxInf, h.ready.last⟩
  holds := h.holds.congr rfl rfl rfl rfl
  sequence := h.sequence
  last := h.last
  split := h.split
  finished hnil := ⟨(h.finished hnil).len, (h.finished hnil).offset, (h.finished hnil).head,
    (h.finished hnil).staged⟩
  pending hne := ⟨(h.pending hne).len, (h.pending hne).offset, (h.pending hne).le,
    (h.pending hne).head, (h.pending hne).storage, (h.pending hne).lent, (h.pending hne).own⟩

/-- The head of the frame that carried the command is kept for the response. -/
theorem take_head (a : Addressing) (pcb : UInt8) (inf : List UInt8) :
    (if 1 < (if a.useCid then 2 else 1) then
      (a.head pcb ++ inf).take (if a.useCid then 2 else 1) else []) =
      if a.useCid then [pcb ||| dfcIsoDepCid, a.cid] else [] := by
  cases hu : a.useCid <;> simp [Addressing.head, hu]

/-- The card after a command was answered has sent the first block of the response. -/
theorem handleCommand_answered {s₁ : Session σ} {command : List UInt8} {emulator : σ}
    {answer : Answer} (inf : List UInt8) (lenBefore : ℕ) (hready : Ready a s₁)
    (hseq : s₁.piccSequence = n)
    (hrun : E.run s₁.emulator command = .answered emulator answer)
    (hcap : dfcVirtualPiccMaxBlockSize ≤ capacity) :
    ∃ s' chunk rest,
      handleCommand E s₁ (a.head (iPcb n false) ++ inf) command (if a.useCid then 2 else 1)
        lenBefore capacity = (s', .ok, s'.lastPiccBlock) ∧ s'.emulator = emulator ∧
      CardAnswers E a s' n answer.octets [] chunk rest := by
  subst hseq
  rw [handleCommand, hrun, take_head]
  dsimp only
  generalize hs₃ : { truncatePendingCommand E { s₁ with
      emulator := emulator
      txBuffer := answer.octets
      isoResponse := if answer.staged then some answer.octets else none
      pendingResponseStaged := answer.staged
      commandChain := none } 0 with
    pendingResponseLen := answer.octets.length
    pendingResponseOffset := 0
    pendingResponsePrefix :=
      if a.useCid then [iPcb s₁.piccSequence false ||| dfcIsoDepCid, a.cid] else [] } = s₃
  have hready₃ : Ready a s₃ := by
    subst hs₃
    exact ⟨hready.activated, hready.selected, hready.cid, hready.maxInf, hready.last⟩
  have hholds₃ : Holds E s₃ [] := by
    subst hs₃
    refine ⟨rfl, fun _ => ⟨by simp, by simp⟩, fun octets hc => ?_⟩
    simp [truncatePendingCommand, borrowsChain] at hc
  have hseq₃ : s₃.piccSequence = s₁.piccSequence := by subst hs₃; rfl
  have hemulator₃ : s₃.emulator = emulator := by subst hs₃; rfl
  have hloaded : Loaded a s₃ answer.octets 0 := by
    subst hs₃
    have hfits := answer.fits
    refine ⟨rfl, rfl, Nat.zero_le _, ⟨_, ?_, rfl⟩, ?_, fun hst => ?_, fun hst => ?_⟩
    · cases s₁.piccSequence <;> decide
    · cases hst : answer.staged <;> simp [responseStorage, truncatePendingCommand]
    · have hst' : answer.staged = true := hst
      rw [hst'] at hfits
      exact ⟨by simp [truncatePendingCommand, hst'], answer.nonempty hst', hfits⟩
    · have hst' : answer.staged = false := hst
      rw [hst'] at hfits
      exact hfits
  -- An empty answer has a block of its own, any other a first chunk.
  obtain ⟨s', chunk, rest, hwrite, hsent, hsplit⟩ : ∃ s' chunk rest,
      writeAndRememberIsoDepResponseBlock E s₃ capacity =
        (s', .ok, a.head (iPcb s₃.piccSequence (!rest.isEmpty)) ++ chunk) ∧
      Sent E a s₃ s' [] answer.octets (a.head (iPcb s₃.piccSequence (!rest.isEmpty)) ++ chunk)
        ([] ++ chunk).length rest ∧ answer.octets = chunk ++ rest := by
    by_cases hempty : answer.octets = []
    · rw [hempty] at hloaded ⊢
      obtain ⟨s', hwrite, hsent⟩ := hloaded.writeEmpty hready₃ hholds₃ hcap
      exact ⟨s', [], [], by simpa using hwrite, by simpa using hsent, rfl⟩
    · obtain ⟨s', chunk, rest, hsplit, hwrite, hsent⟩ :=
        hloaded.write hready₃ hholds₃ (List.length_pos_iff.mpr hempty) hcap
      exact ⟨s', chunk, rest, hwrite, by simpa using hsent, by simpa using hsplit⟩
  have hanswers := hsent.answers (by rw [List.nil_append]; exact hsplit)
  rw [← hsent.last] at hwrite
  rw [hseq₃] at hanswers
  rw [hwrite]
  exact ⟨_, chunk, rest, rfl, hsent.emulator.trans hemulator₃, hanswers.expecting _⟩

/-- The answer to an I-block without a command. -/
theorem CardWaits.emptyBlock (hw : CardWaits E a s [] n)
    (hcap : dfcVirtualPiccMaxBlockSize ≤ capacity) :
    ∃ s', buildIsoDepEmptyIBlock s a.useCid capacity = (s', .ok, s'.lastPiccBlock) ∧
      s'.emulator = s.emulator ∧ CardAnswers E a s' n [] [] [] [] := by
  have hroom : ¬ capacity < if a.useCid then 2 else 1 := by
    simp only [dfcVirtualPiccMaxBlockSize] at hcap
    split_ifs <;> omega
  have hblock : (if a.useCid then [dfcIsoDepIBlock ||| bitIf s.piccSequence dfcIsoDepSequenceBit |||
      dfcIsoDepCid, s.isoDepCid] else
      [dfcIsoDepIBlock ||| bitIf s.piccSequence dfcIsoDepSequenceBit]) =
      a.head (iPcb n false) := by
    rw [hw.ready.cid, hw.sequence, Addressing.head, iPcb]
    cases a.useCid <;> simp [bitIf]
  rw [buildIsoDepEmptyIBlock, if_neg hroom]
  dsimp only
  rw [hblock]
  refine ⟨_, rfl, rfl, ?_⟩
  refine ⟨⟨hw.ready.activated, hw.ready.selected, hw.ready.cid, hw.ready.maxInf,
    le_trans (a.length_head _) (by decide)⟩, hw.holds.toHolds.congr rfl rfl rfl rfl,
    congrArg Bool.not hw.sequence, by simp, rfl, fun _ => ?_, fun h => absurd rfl h⟩
  exact ⟨hw.quiet.len, hw.quiet.offset, hw.quiet.head, hw.quiet.staged⟩

/-- The last fragment of a request whose command is answered, runs out of random octets or fails
without an effect. -/
theorem CardWaits.complete (hw : CardWaits E a s d n) (hE : E.Contract) (inf : List UInt8)
    (hcap : dfcVirtualPiccMaxBlockSize ≤ capacity)
    (hclean : ∀ {emulator reason}, E.run s.emulator (d ++ inf) = .failed emulator reason false →
      emulator = s.emulator ∧ (d = [] ∨ (d ++ inf).length ≤ pendingCommandSize)) :
    Completed E a s d (d ++ inf) n
      (dfcVirtualPiccIsoDepFrameExchange E s (a.head (iPcb n false) ++ inf) capacity) := by
  rw [hw.open.readsFrame hw.quiet]
  by_cases hnone : (inf.length == 0 && !false && s.pendingCommandLen == 0) = true
  · rw [if_pos hnone]
    simp only [hw.holds.len, Bool.not_false, Bool.and_true, Bool.and_eq_true, beq_iff_eq,
      List.length_eq_zero_iff] at hnone
    obtain ⟨rfl, rfl⟩ := hnone
    obtain ⟨s', hs', hemulator, hcard⟩ := hw.emptyBlock hcap
    rw [hs']
    exact .empty rfl (hcard.expecting _) hemulator
  rw [if_neg hnone]
  simp only [Bool.not_false, Bool.and_true, Bool.and_eq_true, beq_iff_eq, hw.holds.len,
    List.length_eq_zero_iff, not_and] at hnone
  have hne : d ++ inf ≠ [] := by
    intro h
    rw [List.append_eq_nil_iff] at h
    exact hnone h.2 h.1
  have hre := hw.holds.reassemble inf false (decide ((if a.useCid then 2 else 1) ≤ capacity))
  have hsame := sameButStaging_reassemble (E := E) s inf false
    (decide ((if a.useCid then 2 else 1) ≤ capacity))
  generalize reassemblePendingCommand E s inf false
    (decide ((if a.useCid then 2 else 1) ≤ capacity)) = r at hre hsame
  obtain ⟨s₁, status | command⟩ := r
  · obtain h | ⟨hstage, h⟩ := hre.refused status rfl
    · exact .refused (hw.ofStaging hsame h) (.inl hsame.emulator)
    · exact .stuck rfl (hstage.resolve_left Bool.false_ne_true) (hw.stuck hsame h) hsame.emulator
  obtain rfl := hre.command command rfl
  have hready : Ready a s₁ := hsame.ready hw.ready
  have hquiet : Quiet s₁ := hsame.quiet hw.quiet
  have hseq : s₁.piccSequence = n := hsame.sequence.trans hw.sequence
  have hlast : s₁.lastPiccBlock = s.lastPiccBlock := hsame.last
  have hemulator : s₁.emulator = s.emulator := hsame.emulator
  simp only [Bool.false_eq_true, if_false, hw.holds.len]
  cases hrun : E.run s₁.emulator (d ++ inf) with
  | failed emulator reason retryable =>
    have hwaits {s' : Session σ} (hsame' : SameButStaging { s₁ with emulator := emulator } s')
        (hholds : Requests E s' d) : CardWaits E a s' d n := by
      refine ⟨?_, hholds, ?_, ?_, hsame'.sequence.trans hseq⟩
      · exact hsame'.ready
          ⟨hready.activated, hready.selected, hready.cid, hready.maxInf, hready.last⟩
      · exact hsame'.quiet ⟨hquiet.len, hquiet.offset, hquiet.head, hquiet.staged⟩
      · rw [hsame'.last]
        exact hlast ▸ hw.last
    cases retryable with
    | true =>
      obtain ⟨s', hs', hsame', hholds⟩ := handleCommand_retryable hE
        (a.head (iPcb n false) ++ inf) (if a.useCid then 2 else 1) capacity hrun hre.appended
      rw [hs']
      refine .refused (hwaits hsame' hholds) (.inr ⟨reason, ?_⟩)
      rw [hsame'.emulator, ← hemulator]
      exact hrun
    | false =>
      obtain ⟨he, hshort⟩ := hclean (hemulator ▸ hrun)
      rw [← hemulator] at he
      subst he
      obtain ⟨s', hs', hsame', hholds⟩ := handleCommand_harmless hE
        (a.head (iPcb n false) ++ inf) (if a.useCid then 2 else 1) capacity hrun hre.appended hshort
      rw [hs']
      exact .refused (hwaits hsame' hholds) (.inl (hsame'.emulator.trans hemulator))
  | answered emulator answer =>
    obtain ⟨s', chunk, rest, hs', he, hcard⟩ :=
      handleCommand_answered inf d.length hready hseq hrun hcap
    rw [hs']
    rw [hemulator, ← he] at hrun
    exact .answered hne hrun hcard

end DfcCore.IsoDep
