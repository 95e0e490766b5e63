import DfcCore.IsoDepLink

/-!
# What the card does with a block

Each function of the block layer has one lemma here that says what it does in the states a
reader can bring about. `Holds` says which request octets are staged, `Quiet` that no
response is pending, and `Loaded` that one is pending from a given octet on.
-/
namespace DfcCore.IsoDep
variable {σ : Type} {E : Executor σ} {a : Addressing} {s s' : Session σ} {d inf : List UInt8}

/-- The control octet of an I-block. -/
def iPcb (sequence more : Bool) : UInt8 :=
  dfcIsoDepIBlock ||| bitIf sequence dfcIsoDepSequenceBit ||| bitIf more dfcIsoDepMore

/-- The control octet of an R-block. -/
def rPcb (sequence nak : Bool) : UInt8 :=
  dfcIsoDepRBlock ||| bitIf sequence dfcIsoDepSequenceBit ||| bitIf nak dfcIsoDepRNak

/-- What the bits of a control octet say, whether or not it announces a CID. -/
structure PcbBits (pcb : UInt8) (useCid sequence more nak isI : Bool) : Prop where
  cid : hasBit pcb dfcIsoDepCid = useCid
  sequence : hasBit pcb dfcIsoDepSequenceBit = sequence
  more : isI = true → hasBit pcb dfcIsoDepMore = more
  nak : isI = false → hasBit pcb dfcIsoDepRNak = nak
  noNad : hasBit pcb dfcIsoDepNad = false
  iBlock : isIBlock pcb = isI
  rBlock : isRBlock pcb = !isI
  noDeselect : isDeselect pcb = false
  noRats : (pcb &&& 0xF0 == 0xE0) = false

theorem iPcb_bits (sequence more useCid : Bool) :
    PcbBits (iPcb sequence more ||| bitIf useCid dfcIsoDepCid) useCid sequence more false true := by
  constructor <;> revert sequence more useCid <;> decide

theorem rPcb_bits (sequence nak useCid : Bool) :
    PcbBits (rPcb sequence nak ||| bitIf useCid dfcIsoDepCid) useCid sequence false nak false := by
  constructor <;> revert sequence nak useCid <;> decide

theorem Addressing.head_eq (a : Addressing) (pcb : UInt8) :
    a.head pcb = (pcb ||| bitIf a.useCid dfcIsoDepCid) :: if a.useCid then [a.cid] else [] := by
  cases h : a.useCid <;> simp [Addressing.head, bitIf, h]

/-- The staged octets are `d`, in the fixed array as long as they fit it and in the borrowed
buffer from then on. -/
structure Holds (E : Executor σ) (s : Session σ) (d : List UInt8) : Prop where
  len : s.pendingCommandLen = d.length
  inline : s.commandChain = none →
    s.pendingCommand.take d.length = d ∧ d.length ≤ pendingCommandSize
  chain : ∀ octets, s.commandChain = some octets →
    E.commandChainActive s.emulator = false ∧ octets = d ∧ pendingCommandSize < d.length ∧
      d.length ≤ dfcEmulatorChainBufferSize

/-- The staged octets are those of a request received so far. -/
structure Requests (E : Executor σ) (s : Session σ) (d : List UInt8) : Prop extends
    Holds E s d where
  large : s.commandChain ≠ none → commandCanUseLargeIsoDepStorage d = true

/-- The request moved to the borrowed buffer and the fragment then did not fit there either: the
request is in both places. -/
structure Stuck (E : Executor σ) (s : Session σ) (d inf : List UInt8) : Prop where
  len : s.pendingCommandLen = d.length
  chain : s.commandChain = some d
  inactive : E.commandChainActive s.emulator = false
  inline : s.pendingCommand.take d.length = d
  short : d.length ≤ pendingCommandSize
  large : commandCanUseLargeIsoDepStorage (if d.length = 0 then inf else d) = true
  overrun : dfcEmulatorChainBufferSize - d.length < inf.length

/-- Nothing but the staged request differs. -/
structure SameButStaging (s s' : Session σ) : Prop where
  emulator : s'.emulator = s.emulator
  txBuffer : s'.txBuffer = s.txBuffer
  isoResponse : s'.isoResponse = s.isoResponse
  responseLen : s'.pendingResponseLen = s.pendingResponseLen
  responseOffset : s'.pendingResponseOffset = s.pendingResponseOffset
  responsePrefix : s'.pendingResponsePrefix = s.pendingResponsePrefix
  responseStaged : s'.pendingResponseStaged = s.pendingResponseStaged
  last : s'.lastPiccBlock = s.lastPiccBlock
  activated : s'.activated = s.activated
  selected : s'.isoDepSelected = s.isoDepSelected
  cid : s'.isoDepCid = s.isoDepCid
  maxInf : s'.isoDepMaxInf = s.isoDepMaxInf
  sequence : s'.piccSequence = s.piccSequence

theorem SameButStaging.refl (s : Session σ) : SameButStaging s s :=
  ⟨rfl, rfl, rfl, rfl, rfl, rfl, rfl, rfl, rfl, rfl, rfl, rfl, rfl⟩

theorem sameButStaging_truncate (s : Session σ) (n : ℕ) :
    SameButStaging s (truncatePendingCommand E s n) :=
  ⟨rfl, rfl, rfl, rfl, rfl, rfl, rfl, rfl, rfl, rfl, rfl, rfl, rfl⟩

theorem valid_of_short (hl : s.pendingCommandLen ≤ pendingCommandSize) :
    pendingCommandIsValid E s = true := by
  rw [pendingCommandIsValid, if_pos hl]

theorem Holds.valid (h : Holds E s d) : pendingCommandIsValid E s = true := by
  cases hc : s.commandChain with
  | none => exact valid_of_short (h.len ▸ (h.inline hc).2)
  | some octets =>
    obtain ⟨hact, rfl, hlarge, hsize⟩ := h.chain octets hc
    rw [pendingCommandIsValid, h.len, if_neg (by omega)]
    simp [hact, hsize, hc]

theorem Stuck.valid (h : Stuck E s d inf) : pendingCommandIsValid E s = true :=
  valid_of_short (h.len ▸ h.short)

theorem Holds.chain_of_short (h : Holds E s d) (hl : d.length ≤ pendingCommandSize) :
    s.commandChain = none := by
  cases hc : s.commandChain with
  | none => rfl
  | some octets =>
    obtain ⟨-, -, hlarge, -⟩ := h.chain octets hc
    omega

theorem Holds.requests_nil (h : Holds E s []) : Requests E s [] :=
  ⟨h, fun hc => absurd (h.chain_of_short (Nat.zero_le _)) hc⟩

/-- Octets in the fixed array. -/
theorem Requests.ofInline (hl : s.pendingCommandLen = d.length) (hc : s.commandChain = none)
    (ht : s.pendingCommand.take d.length = d) (hs : d.length ≤ pendingCommandSize) :
    Requests E s d :=
  ⟨⟨hl, fun _ => ⟨ht, hs⟩, fun octets ho => by simp [hc] at ho⟩, fun hne => absurd hc hne⟩

/-- Whether a command may be large shows in its first two octets. -/
theorem canUseLarge_append (h : commandCanUseLargeIsoDepStorage d = true) (inf : List UInt8) :
    commandCanUseLargeIsoDepStorage (d ++ inf) = true := by
  match d with
  | [] => simp [commandCanUseLargeIsoDepStorage] at h
  | [_] => simp [commandCanUseLargeIsoDepStorage] at h
  | cla :: ins :: rest => exact h

@[simp] theorem length_wipe (octets : List UInt8) (start stop : ℕ) :
    (wipe octets start stop).length = octets.length := by simp [wipe]

theorem take_wipe (octets : List UInt8) (start stop : ℕ) :
    (wipe octets start stop).take start = octets.take start := by
  apply List.ext_getElem
  · simp
  · intro i h₁ h₂
    have hi : i < start := by simp at h₁; omega
    simp [wipe, show ¬ start ≤ i by omega]

/-- Emptying the staging area. -/
theorem Requests.discard
    (h : s.commandChain ≠ none → E.commandChainActive s.emulator = false) :
    Requests E (truncatePendingCommand E s 0) [] := by
  refine .ofInline rfl ?_ (by simp) (Nat.zero_le _)
  cases hc : s.commandChain with
  | none => simp [truncatePendingCommand, borrowsChain, hc]
  | some octets =>
    have hact := h (by simp [hc])
    simp [truncatePendingCommand, borrowsChain, hc, hact]

theorem take_of_take_append {octets : List UInt8} (h : octets.take (d ++ inf).length = d ++ inf) :
    octets.take d.length = d := by
  have hle : min d.length (d ++ inf).length = d.length := by simp
  rw [← hle, ← List.take_take, h]
  simp

/-- Going back to the octets `d` of the fixed array after `inf` was appended to them. -/
theorem Requests.truncate (hc : s.commandChain = none)
    (ht : s.pendingCommand.take (d ++ inf).length = d ++ inf)
    (hs : (d ++ inf).length ≤ pendingCommandSize) :
    Requests E (truncatePendingCommand E s d.length) d := by
  rw [List.length_append] at hs
  refine .ofInline rfl (by simp [truncatePendingCommand, borrowsChain, hc]) ?_ (by omega)
  simp only [truncatePendingCommand]
  rw [take_wipe]
  exact take_of_take_append ht

/-- What one INF does to a request that holds `d`: it is appended and the command is the
whole of it, or it is refused and nothing is lost. -/
structure Reassembled (E : Executor σ) (d inf : List UInt8) (more : Bool)
    (r : Session σ × Except DfcVirtualPiccStatus (List UInt8)) : Prop where
  refused : ∀ status, r.2 = .error status →
    Requests E r.1 d ∨ (more = true ∨ d ≠ []) ∧ Stuck E r.1 d inf
  command : ∀ command, r.2 = .ok command → command = d ++ inf
  staged : ∀ command, r.2 = .ok command → more = true ∨ d ≠ [] → Requests E r.1 (d ++ inf)
  direct : ∀ command, r.2 = .ok command → more = false → d = [] →
    r.1.pendingCommandLen = 0 ∧ (r.1.commandChain ≠ none →
      E.commandChainActive r.1.emulator = false ∧ commandCanUseLargeIsoDepStorage inf = true)

theorem Reassembled.ofRefused {status : DfcVirtualPiccStatus} {more : Bool} (h : Requests E s d) :
    Reassembled E d inf more (s, .error status) :=
  ⟨fun _ _ => .inl h, fun _ hc => by simp at hc, fun _ hc => by simp at hc,
    fun _ hc => by simp at hc⟩

theorem Reassembled.ofDirect (hl : s.pendingCommandLen = 0)
    (hc : s.commandChain ≠ none →
      E.commandChainActive s.emulator = false ∧ commandCanUseLargeIsoDepStorage inf = true) :
    Reassembled E [] inf false (s, .ok inf) :=
  ⟨fun _ hc => by simp at hc, fun _ hc => by simpa using hc.symm, fun _ _ hh => by simp at hh,
    fun _ _ _ _ => ⟨hl, hc⟩⟩

theorem Reassembled.ofStaged {more : Bool} (hstage : more = true ∨ d ≠ [])
    (h : Requests E s (d ++ inf)) : Reassembled E d inf more (s, .ok (d ++ inf)) :=
  ⟨fun _ hc => by simp at hc, fun _ hc => by simpa using hc.symm, fun _ _ _ => h,
    fun _ _ hm hd => by simp [hm, hd] at hstage⟩

theorem stages_iff {more : Bool} : (more || d.length != 0) = true ↔ more = true ∨ d ≠ [] := by
  cases more <;> cases d <;> simp

/-- The end of the reassembly in the borrowed buffer, where the request is or has just moved to. -/
theorem reassembled_chain (hact : E.commandChainActive s.emulator = false)
    (hlen : s.pendingCommandLen = d.length) (hsize : d.length ≤ dfcEmulatorChainBufferSize)
    (more : Bool) (hlarge : commandCanUseLargeIsoDepStorage (d ++ inf) = true)
    (hover : pendingCommandSize < (d ++ inf).length)
    (hstay : dfcEmulatorChainBufferSize - d.length < inf.length →
      Requests E { s with commandChain := some d } d ∨
        Stuck E { s with commandChain := some d } d inf) :
    Reassembled E d inf more (appendToChain E s d inf more) := by
  have hbound : ¬ dfcEmulatorChainBufferSize < s.pendingCommandLen := by omega
  rw [appendToChain]
  dsimp only
  rw [if_neg hbound]
  by_cases hstage : (more || s.pendingCommandLen != 0) = true
  swap
  · rw [if_neg hstage]
    rw [hlen, stages_iff, not_or, Bool.not_eq_true, not_not] at hstage
    obtain ⟨rfl, rfl⟩ := hstage
    exact .ofDirect hlen fun _ => ⟨hact, hlarge⟩
  rw [if_pos hstage]
  rw [hlen, stages_iff] at hstage
  by_cases hroom : dfcEmulatorChainBufferSize - s.pendingCommandLen < inf.length
  · rw [if_pos hroom]
    rw [hlen] at hroom
    refine ⟨fun _ _ => ?_, fun _ hc => by simp at hc, fun _ hc => by simp at hc,
      fun _ hc => by simp at hc⟩
    exact (hstay hroom).imp_right fun h => ⟨hstage, h⟩
  rw [if_neg hroom, hlen, List.take_length]
  rw [hlen] at hroom
  refine .ofStaged hstage ⟨⟨by simp, fun hc => by simp at hc, fun octets hc => ?_⟩, fun _ => hlarge⟩
  simp only [Option.some.injEq] at hc
  rw [List.length_append] at hover ⊢
  exact ⟨hact, hc.symm, by omega, by omega⟩

theorem reassembled_inline (h : Requests E s d) (hchain : s.commandChain = none) (more : Bool) :
    Reassembled E d inf more (appendInline E s inf more) := by
  obtain ⟨htake, hsize⟩ := h.inline hchain
  simp only [appendInline, h.len]
  rw [if_neg (by omega)]
  by_cases hstage : (more || d.length != 0) = true
  swap
  · rw [if_neg hstage]
    rw [stages_iff, not_or, Bool.not_eq_true, not_not] at hstage
    obtain ⟨rfl, rfl⟩ := hstage
    exact .ofDirect h.len fun hne => absurd hchain hne
  rw [if_pos hstage]
  rw [stages_iff] at hstage
  by_cases hroom : pendingCommandSize - d.length < inf.length
  · rw [if_pos hroom]
    exact Reassembled.ofRefused h
  rw [if_neg hroom, htake]
  exact .ofStaged hstage (.ofInline (by simp) hchain (by simp) (by simp; omega))

theorem Requests.reassemble (h : Requests E s d) (inf : List UInt8) (more fits : Bool) :
    Reassembled E d inf more (reassemblePendingCommand E s inf more fits) := by
  rw [reassemblePendingCommand]
  by_cases h₁ : (more && !fits) = true
  · rw [if_pos h₁]
    exact Reassembled.ofRefused h
  rw [if_neg h₁]
  by_cases h₂ : (decide (pendingCommandSize < s.pendingCommandLen) &&
      !(E.commandChainActive s.emulator || s.commandChain.isSome)) = true
  · -- A request that long is in the borrowed buffer.
    simp only [h.len, Bool.and_eq_true, decide_eq_true_eq, Bool.not_eq_true', Bool.or_eq_false_iff,
      Option.isSome_eq_false_iff, Option.isNone_iff_eq_none] at h₂
    have := (h.inline h₂.2.2).2
    omega
  rw [if_neg h₂]
  cases hc : s.commandChain with
  | some chain =>
    obtain ⟨hact, rfl, hlarge, hsize⟩ := h.chain chain hc
    have hself : { s with commandChain := some chain } = s := by rw [← hc]
    simp only [hact, Option.isSome_some, Bool.true_or, Bool.not_false, Bool.and_self, if_true]
    refine reassembled_chain hact h.len hsize more
      (canUseLarge_append (h.large (by simp [hc])) inf) (by simp; omega) fun _ => .inl ?_
    rw [hself]
    exact h
  | none =>
    obtain ⟨htake, hsize⟩ := h.inline hc
    by_cases h₃ : (!E.commandChainActive s.emulator && ((none : Option (List UInt8)).isSome ||
        decide (pendingCommandSize - s.pendingCommandLen < inf.length))) = true
    · rw [if_pos h₃]
      simp only [h.len, Option.isSome_none, Bool.false_or, Bool.and_eq_true, Bool.not_eq_true',
        decide_eq_true_eq] at h₃
      dsimp only
      by_cases h₄ : (!commandCanUseLargeIsoDepStorage (if s.pendingCommandLen = 0 then inf
          else s.pendingCommand.take s.pendingCommandLen)) = true
      · rw [if_pos h₄]
        exact Reassembled.ofRefused h
      rw [if_neg h₄]
      rw [h.len, htake] at h₄ ⊢
      have hlarge : commandCanUseLargeIsoDepStorage (d ++ inf) = true := by
        cases hd : d with
        | nil => simpa [hd] using h₄
        | cons octet rest =>
          rw [hd] at h₄
          exact canUseLarge_append (by simpa using h₄) inf
      refine reassembled_chain h₃.1 h.len ?_ more hlarge (by simp; omega) fun hover => .inr ?_
      · simp only [dfcEmulatorChainBufferSize, pendingCommandSize] at hsize ⊢
        omega
      · exact ⟨h.len, rfl, h₃.1, htake, hsize, by simpa using h₄, hover⟩
    · rw [if_neg h₃]
      exact reassembled_inline h hc more

/-- The fragment that did not fit is refused again. -/
theorem Stuck.reassemble (h : Stuck E s d inf) {more : Bool} (hstage : more = true ∨ d ≠ [])
    (fits : Bool) :
    reassemblePendingCommand E s inf more fits = (s, .error .bufferTooSmall) := by
  have hlen := h.len
  have hshort := h.short
  have hover := h.overrun
  have hself : { s with commandChain := some d } = s := by rw [← h.chain]
  have hbound : ¬ dfcEmulatorChainBufferSize < s.pendingCommandLen := by
    simp only [dfcEmulatorChainBufferSize, pendingCommandSize] at hshort ⊢
    omega
  rw [← stages_iff, ← hlen] at hstage
  rw [reassemblePendingCommand]
  by_cases h₁ : (more && !fits) = true
  · rw [if_pos h₁]
  rw [if_neg h₁, if_neg (by simp [hlen, hshort])]
  simp only [h.chain, h.inactive, Option.isSome_some, Bool.true_or, Bool.not_false, Bool.and_self,
    if_true, appendToChain, hself]
  rw [if_neg hbound, if_pos hstage, if_pos (hlen ▸ hover)]

theorem sameButStaging_chain (s : Session σ) (chain inf : List UInt8) (more : Bool) :
    SameButStaging s (appendToChain E s chain inf more).1 := by
  rw [appendToChain]
  dsimp only
  split_ifs <;> exact ⟨rfl, rfl, rfl, rfl, rfl, rfl, rfl, rfl, rfl, rfl, rfl, rfl, rfl⟩

theorem sameButStaging_inline (s : Session σ) (inf : List UInt8) (more : Bool) :
    SameButStaging s (appendInline E s inf more).1 := by
  rw [appendInline]
  dsimp only
  split_ifs <;> exact ⟨rfl, rfl, rfl, rfl, rfl, rfl, rfl, rfl, rfl, rfl, rfl, rfl, rfl⟩

theorem sameButStaging_reassemble (s : Session σ) (inf : List UInt8) (more fits : Bool) :
    SameButStaging s (reassemblePendingCommand E s inf more fits).1 := by
  rw [reassemblePendingCommand]
  split
  · exact SameButStaging.refl s
  split
  · exact sameButStaging_truncate s 0
  split
  · split
    · exact sameButStaging_chain s _ inf more
    · dsimp only
      by_cases h₄ : (!commandCanUseLargeIsoDepStorage (if s.pendingCommandLen = 0 then inf
          else s.pendingCommand.take s.pendingCommandLen)) = true
      · rw [if_pos h₄]
        exact SameButStaging.refl s
      · rw [if_neg h₄]
        exact sameButStaging_chain s _ inf more
  · exact sameButStaging_inline s inf more

/-- The staged octets are the same in a session that keeps its storage. -/
theorem Holds.congr (h : Holds E s d) (hl : s'.pendingCommandLen = s.pendingCommandLen)
    (hp : s'.pendingCommand = s.pendingCommand) (hc : s'.commandChain = s.commandChain)
    (he : s'.emulator = s.emulator) : Holds E s' d where
  len := hl.trans h.len
  inline hn := by rw [hp]; exact h.inline (hc ▸ hn)
  chain octets ho := by rw [he]; exact h.chain octets (hc ▸ ho)

theorem Requests.congr (h : Requests E s d) (hl : s'.pendingCommandLen = s.pendingCommandLen)
    (hp : s'.pendingCommand = s.pendingCommand) (hc : s'.commandChain = s.commandChain)
    (he : s'.emulator = s.emulator) : Requests E s' d where
  toHolds := h.toHolds.congr hl hp hc he
  large hne := h.large (hc ▸ hne)

/-- The card is activated for the reader's CID, and its last block can be repeated. -/
structure Ready (a : Addressing) (s : Session σ) : Prop where
  activated : s.activated = true
  selected : s.isoDepSelected = true
  cid : s.isoDepCid = if a.useCid then a.cid else 0
  maxInf : 2 ≤ s.isoDepMaxInf.toNat
  last : s.lastPiccBlock.length ≤ dfcVirtualPiccMaxBlockSize

/-- No response is pending. -/
structure Quiet (s : Session σ) : Prop where
  len : s.pendingResponseLen = 0
  offset : s.pendingResponseOffset = 0
  head : s.pendingResponsePrefix = []
  staged : s.pendingResponseStaged = false

/-- The response is pending from octet `o` on. -/
structure Loaded (a : Addressing) (s : Session σ) (response : List UInt8) (o : ℕ) : Prop where
  len : s.pendingResponseLen = response.length
  offset : s.pendingResponseOffset = o
  le : o ≤ response.length
  head : ∃ pcb, hasBit pcb dfcIsoDepCid = true ∧
    s.pendingResponsePrefix = if a.useCid then [pcb, a.cid] else []
  storage : responseStorage s = response
  lent : s.pendingResponseStaged = true →
    s.isoResponse = some response ∧ response ≠ [] ∧ response.length ≤ dfcEmulatorChainBufferSize
  own : s.pendingResponseStaged = false → response.length ≤ dfcBytebufMax

theorem Quiet.valid (hq : Quiet s) (hr : Ready a s) (hv : pendingCommandIsValid E s = true) :
    pendingResponseIsValid E s = true := by
  have hlast := hr.last
  simp [pendingResponseIsValid, hv, hq.len, hq.offset, hq.head, hq.staged, hlast]

theorem Loaded.length_le {response : List UInt8} {o : ℕ} (hl : Loaded a s response o) :
    response.length ≤ dfcEmulatorChainBufferSize := by
  cases hs : s.pendingResponseStaged with
  | true => exact (hl.lent hs).2.2
  | false =>
    have := hl.own hs
    simp only [dfcBytebufMax, dfcEmulatorChainBufferSize] at this ⊢
    omega

theorem Loaded.notDirect {response : List UInt8} {o : ℕ} (hl : Loaded a s response o) :
    directResponseIsPending s = false := by
  have hle := hl.length_le
  have ho := hl.le
  simp only [dfcEmulatorChainBufferSize] at hle
  rw [directResponseIsPending, hl.offset, beq_eq_false_iff_ne]
  simp only [dfcDirectResponsePending]
  omega

theorem Loaded.valid {response : List UInt8} {o : ℕ} (hl : Loaded a s response o)
    (hr : Ready a s) (hh : Holds E s d) : pendingResponseIsValid E s = true := by
  have hlast := hr.last
  have hle := hl.le
  obtain ⟨pcb, -, hp⟩ := hl.head
  have hplen : s.pendingResponsePrefix.length ≤ pendingResponsePrefixSize := by
    rw [hp]
    split_ifs
    · exact Nat.le_succ 2
    · exact Nat.zero_le _
  rw [pendingResponseIsValid, hh.valid, hl.notDirect, hl.len, hl.offset]
  cases hs : s.pendingResponseStaged with
  | true =>
    obtain ⟨hiso, hne, hsize⟩ := hl.lent hs
    simp [hplen, hlast, hle, hiso, hsize, List.length_pos_iff, hne]
  | false =>
    have hsize := hl.own hs
    have hst := hl.storage
    simp only [responseStorage, hs, Bool.false_eq_true, if_false] at hst
    simp [hplen, hlast, hle, hsize, hst]

/-- A block carries at least one octet and at most what the card allows itself. -/
theorem chunkLimit_bounds (hr : Ready a s) :
    0 < isoDepChunkLimit s ∧ isoDepChunkLimit s ≤ dfcIsoDepMaxInf := by
  have hm := hr.maxInf
  have hne : s.isoDepMaxInf ≠ 0 := by
    intro h0
    rw [h0] at hm
    simp at hm
  rw [isoDepChunkLimit, if_neg hne]
  simp only [dfcIsoDepMaxInf]
  split_ifs <;> omega

/-- What sending the next block of a response leaves. -/
structure Sent (E : Executor σ) (a : Addressing) (s s' : Session σ) (d response block : List UInt8)
    (o : ℕ) (rest : List UInt8) : Prop where
  ready : Ready a s'
  holds : Holds E s' d
  emulator : s'.emulator = s.emulator
  sequence : s'.piccSequence = !s.piccSequence
  last : s'.lastPiccBlock = block
  finished : rest = [] → Quiet s'
  pending : rest ≠ [] → Loaded a s' response o

theorem iPcb_cid (sequence more : Bool) {pcb : UInt8} (h : hasBit pcb dfcIsoDepCid = true) :
    dfcIsoDepIBlock ||| bitIf sequence dfcIsoDepSequenceBit ||| (pcb &&& dfcIsoDepCid) |||
      bitIf more dfcIsoDepMore = iPcb sequence more ||| dfcIsoDepCid := by
  have hcid : pcb &&& dfcIsoDepCid = dfcIsoDepCid := by
    revert h
    exact forall_octet (p := fun pcb => hasBit pcb dfcIsoDepCid = true →
      pcb &&& dfcIsoDepCid = dfcIsoDepCid) (by decide +kernel) pcb
  rw [hcid, iPcb]
  cases sequence <;> cases more <;> decide

/-- The next block of a response that is not exhausted. -/
theorem Loaded.writeNext {response : List UInt8} {o capacity : ℕ} (hl : Loaded a s response o)
    (hr : Ready a s) (hh : Holds E s d) (ho : o < response.length)
    (hcap : dfcVirtualPiccMaxBlockSize ≤ capacity) :
    ∃ s₁, writeNextIsoDepResponseBlock E s capacity = (s₁, .ok,
        a.head (iPcb s.piccSequence
          (decide (o + min (response.length - o) (isoDepChunkLimit s) < response.length))) ++
        (response.drop o).take (min (response.length - o) (isoDepChunkLimit s))) ∧
      s₁ = if o + min (response.length - o) (isoDepChunkLimit s) < response.length then
          toggleSequence { s with
            pendingResponseOffset := o + min (response.length - o) (isoDepChunkLimit s) }
        else finishResponse (toggleSequence { s with
            pendingResponseOffset := o + min (response.length - o) (isoDepChunkLimit s) }) := by
  obtain ⟨hpos, hmax⟩ := chunkLimit_bounds hr
  simp only [dfcIsoDepMaxInf, dfcVirtualPiccMaxBlockSize] at hmax hcap
  obtain ⟨pcb, hpcb, hp⟩ := hl.head
  rw [writeNextIsoDepResponseBlock, hl.valid hr hh]
  simp only [Bool.not_true, Bool.false_eq_true, if_false, hl.len, hl.offset, hl.storage]
  generalize hk : min (response.length - o) (isoDepChunkLimit s) = k
  have hkmax : k ≤ 48 := by omega
  cases hu : a.useCid with
  | true =>
    rw [hu] at hp
    simp only [if_true] at hp
    rw [hp]
    simp only [show ¬ response.length ≤ o by omega, decide_false, Bool.false_eq_true, if_false,
      List.length_cons, List.length_nil]
    rw [if_neg (by omega), iPcb_cid _ _ hpcb]
    refine ⟨_, ?_, rfl⟩
    simp [Addressing.head, hu]
  | false =>
    rw [hu] at hp
    simp only [Bool.false_eq_true, if_false] at hp
    rw [hp]
    have hchunk : ((response.drop o).take k).length ≤ 48 := by
      rw [List.length_take]
      omega
    simp only [show ¬ response.length ≤ o by omega, decide_false, Bool.false_eq_true, if_false,
      buildIsoDepIBlock]
    rw [if_neg (by omega)]
    refine ⟨_, ?_, rfl⟩
    simp [Addressing.head, hu, iPcb, toggleSequence, hl.offset, hl.len, hp]

theorem Addressing.length_head (a : Addressing) (pcb : UInt8) : (a.head pcb).length ≤ 2 := by
  rw [Addressing.head]
  split_ifs <;> simp

/-- The next block of a response that is not exhausted, kept for a repetition. -/
theorem Loaded.write {response : List UInt8} {o capacity : ℕ} (hl : Loaded a s response o)
    (hr : Ready a s) (hh : Holds E s d) (ho : o < response.length)
    (hcap : dfcVirtualPiccMaxBlockSize ≤ capacity) :
    ∃ s' chunk rest, response.drop o = chunk ++ rest ∧
      writeAndRememberIsoDepResponseBlock E s capacity =
        (s', .ok, a.head (iPcb s.piccSequence (!rest.isEmpty)) ++ chunk) ∧
      Sent E a s s' d response (a.head (iPcb s.piccSequence (!rest.isEmpty)) ++ chunk)
        (o + chunk.length) rest := by
  obtain ⟨hpos, hmax⟩ := chunkLimit_bounds hr
  simp only [dfcIsoDepMaxInf] at hmax
  obtain ⟨s₁, hw, hs₁⟩ := hl.writeNext hr hh ho hcap
  generalize hk : min (response.length - o) (isoDepChunkLimit s) = k at hw hs₁
  have hsplit : response.drop o = (response.drop o).take k ++ response.drop (o + k) := by
    rw [← List.drop_drop, List.take_append_drop]
  have hlen : ((response.drop o).take k).length = k := by
    rw [List.length_take, List.length_drop]
    omega
  have hmore : decide (o + k < response.length) = !(response.drop (o + k)).isEmpty := by
    by_cases h : o + k < response.length
    · simp [h, List.drop_eq_nil_iff]
    · simp [h, List.isEmpty_iff, List.drop_eq_nil_iff]
      omega
  have hblock : (a.head (iPcb s.piccSequence (!(response.drop (o + k)).isEmpty)) ++
      (response.drop o).take k).length ≤ dfcVirtualPiccMaxBlockSize := by
    have := a.length_head (iPcb s.piccSequence (!(response.drop (o + k)).isEmpty))
    simp only [List.length_append, hlen, dfcVirtualPiccMaxBlockSize]
    omega
  rw [hmore] at hw
  refine ⟨{ s₁ with
      lastPiccBlock := a.head (iPcb s.piccSequence (!(response.drop (o + k)).isEmpty)) ++
        (response.drop o).take k },
    (response.drop o).take k, response.drop (o + k), hsplit, ?_, ?_⟩
  · rw [writeAndRememberIsoDepResponseBlock, hw]
    dsimp only
    rw [if_pos hblock]
  · rw [hlen]
    by_cases hlast : o + k < response.length
    · rw [if_pos hlast] at hs₁
      subst hs₁
      refine ⟨⟨hr.activated, hr.selected, hr.cid, hr.maxInf, hblock⟩, hh.congr rfl rfl rfl rfl, rfl,
        rfl, rfl, fun hnil => ?_, fun _ => ?_⟩
      · rw [List.drop_eq_nil_iff] at hnil
        omega
      · exact ⟨hl.len, rfl, by omega, hl.head, hl.storage, hl.lent, hl.own⟩
    · rw [if_neg hlast] at hs₁
      subst hs₁
      have hfin (t : Session σ) : (finishResponse t).activated = t.activated ∧
          (finishResponse t).isoDepSelected = t.isoDepSelected ∧
          (finishResponse t).isoDepCid = t.isoDepCid ∧
          (finishResponse t).isoDepMaxInf = t.isoDepMaxInf ∧
          (finishResponse t).pendingCommandLen = t.pendingCommandLen ∧
          (finishResponse t).pendingCommand = t.pendingCommand ∧
          (finishResponse t).commandChain = t.commandChain ∧
          (finishResponse t).emulator = t.emulator ∧
          (finishResponse t).piccSequence = t.piccSequence := by
        simp only [finishResponse, retireFinishedResponseStorage, releaseIsoResponse]
        split_ifs <;> exact ⟨rfl, rfl, rfl, rfl, rfl, rfl, rfl, rfl, rfl⟩
      obtain ⟨h₁, h₂, h₃, h₄, h₅, h₆, h₇, h₈, h₉⟩ := hfin (toggleSequence { s with
        pendingResponseOffset := o + k })
      refine ⟨⟨h₁.trans hr.activated, h₂.trans hr.selected, h₃.trans hr.cid,
        by show 2 ≤ (finishResponse _).isoDepMaxInf.toNat; rw [h₄]; exact hr.maxInf, hblock⟩,
        hh.congr h₅ h₆ h₇ h₈, h₈, h₉, rfl, fun _ => ⟨rfl, rfl, rfl, rfl⟩, fun hne => ?_⟩
      exact absurd (List.drop_eq_nil_iff.mpr (by omega)) hne

/-- The block of an empty response. -/
theorem Loaded.writeEmpty {capacity : ℕ} (hl : Loaded a s [] 0) (hr : Ready a s)
    (hh : Holds E s d) (hcap : dfcVirtualPiccMaxBlockSize ≤ capacity) :
    ∃ s', writeAndRememberIsoDepResponseBlock E s capacity =
        (s', .ok, a.head (iPcb s.piccSequence false)) ∧
      Sent E a s s' d [] (a.head (iPcb s.piccSequence false)) 0 [] := by
  simp only [dfcVirtualPiccMaxBlockSize] at hcap
  obtain ⟨pcb, hpcb, hp⟩ := hl.head
  have hstaged : s.pendingResponseStaged = false := by
    cases hs : s.pendingResponseStaged with
    | true => exact absurd rfl (hl.lent hs).2.1
    | false => rfl
  have hblock : (a.head (iPcb s.piccSequence false)).length ≤ dfcVirtualPiccMaxBlockSize :=
    le_trans (a.length_head _) (by decide)
  have hwrite : writeNextIsoDepResponseBlock E s capacity =
      (toggleSequence { s with pendingResponsePrefix := [] }, .ok,
        a.head (iPcb s.piccSequence false)) := by
    generalize ht : toggleSequence { s with pendingResponsePrefix := [] } = t
    rw [writeNextIsoDepResponseBlock, hl.valid hr hh]
    simp only [Bool.not_true, Bool.false_eq_true, if_false, hl.len, hl.offset, List.length_nil,
      le_refl, decide_true, if_true]
    cases hu : a.useCid with
    | true =>
      rw [hu] at hp
      simp only [if_true] at hp
      have hbits := iPcb_cid s.piccSequence false hpcb
      rw [hp]
      simp only [List.length_cons, List.length_nil]
      rw [if_neg (by omega)]
      simp only [bitIf, Bool.false_eq_true, if_false, UInt8.or_zero] at hbits
      simp only [Addressing.head, hu, if_true, bitIf, hbits, ← ht, hl.len, hl.offset,
        List.length_nil]
    | false =>
      rw [hu] at hp
      simp only [Bool.false_eq_true, if_false] at hp
      rw [hp]
      simp only [buildIsoDepIBlock, List.length_nil]
      rw [if_neg (by omega)]
      have hkeep : { s with pendingResponsePrefix := [] } = s := by rw [← hp]
      rw [hkeep] at ht
      simp only [Addressing.head, hu, Bool.false_eq_true, if_false, iPcb, ht]
  refine ⟨{ toggleSequence { s with pendingResponsePrefix := [] } with
    lastPiccBlock := a.head (iPcb s.piccSequence false) }, ?_, ?_⟩
  · rw [writeAndRememberIsoDepResponseBlock, hwrite]
    dsimp only
    rw [if_pos hblock]
  · exact ⟨⟨hr.activated, hr.selected, hr.cid, hr.maxInf, hblock⟩, hh.congr rfl rfl rfl rfl, rfl,
      rfl, rfl, fun _ => ⟨hl.len, hl.offset, rfl, hstaged⟩, fun hne => absurd rfl hne⟩

end DfcCore.IsoDep
