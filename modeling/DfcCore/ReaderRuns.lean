import DfcCore.Outcome
import DfcCore.ReaderSteps

/-!
# Runs of a reader exchange

What every run of `dfc_reader_step` keeps. No buffer is overrun and no step hands out more octets
than its caller has room for. A step refused for want of room leaves the exchange and its session
as they were, so it can be taken again. The frames of a command join to the command, and a streamed
write answers `ok` only once its last octet is in a command that succeeded.
-/
namespace DfcCore
open Der

/-- An exchange as its command begins it. -/
structure Begins (session : DfcReaderSession) (framing : DfcReaderFraming)
    (ex : DfcReaderExchange) : Prop where
  phase : ex.phase = .start
  framing : ex.framing = framing
  kind : ex.session.kind = session.kind
  unsent : ex.frameOffset = 0
  unanswered : ex.data = [] ∧ ex.specialSuccess = false
  frameFits : ex.frame.length ≤ dfcReaderMaxCommand
  limits : ex.firstFrameLen = 0 ∧ ex.commandFrameLen = 0 ∧
      (ex.session.isEv2 = true ∨ usesNativeCommandChaining ex.ins = false ∨
        ex.frame.length ≤ dfcEv1MaxFramePayload) ∨
    ex.firstFrameLen = dfcEv1MaxFramePayload ∧ ex.commandFrameLen = dfcEv1MaxFramePayload ∧
      ex.session.isEv2 = false ∧ dfcEv1MaxFramePayload < ex.frame.length

section
variable {des : BlockCipher 8} {aes : BlockCipher 16} {session : DfcReaderSession}
  {framing : DfcReaderFraming} {command : DfcCommand} {options : DfcReaderOptions}
  {ex : DfcReaderExchange}

theorem Prepared.begins {commMode : UInt8}
    (h : Prepared (freshExchange session framing command commMode) ex) :
    Begins session framing ex.chainFrames ∧ ex.chainFrames.ins = command.ins ∧
      ex.chainFrames.frame = ex.frame ∧ ex.chainFrames.stream = none ∧
      ex.chainFrames.invalidatesSession = invalidatesSession session command := by
  obtain ⟨s, plan, frame, rfl, hkind, hlength⟩ := h
  unfold DfcReaderExchange.chainFrames
  split_ifs with hchain
  · exact ⟨⟨rfl, rfl, hkind, rfl, ⟨rfl, rfl⟩, hlength, .inr ⟨rfl, rfl, hchain.1, hchain.2.2⟩⟩,
      rfl, rfl, rfl, rfl⟩
  · refine ⟨⟨rfl, rfl, hkind, rfl, ⟨rfl, rfl⟩, hlength, .inl ⟨rfl, rfl, ?_⟩⟩, rfl, rfl, rfl, rfl⟩
    by_contra hall
    simp only [not_or, Bool.not_eq_true, Bool.not_eq_false, Nat.not_le] at hall
    exact hchain hall

/-- The exchange of a command begins with sound buffers. -/
theorem Begins.sound (h : Begins session framing ex) (hstreams : ∀ stream ∈ ex.stream,
    ex.Streams stream) : ex.Sound := by
  obtain ⟨hdata, hspecial⟩ := h.unanswered
  refine ⟨by simp [hdata], h.frameFits, by simp [h.unsent], ?_, ?_, fun _ => hspecial, hstreams⟩
  · rcases h.limits with ⟨hfirst, hcommand, -⟩ | ⟨hfirst, hcommand, -⟩
    · exact .inl ⟨hfirst, hcommand⟩
    · exact .inr ⟨hfirst, hcommand⟩
  · rw [h.phase]
    simp

theorem readerExchangeBegin_sound
    (h : readerExchangeBegin des aes session framing command options = .ok ex) :
    ex.Sound ∧ ex.phase = .start ∧ ex.stream = none := by
  unfold readerExchangeBegin at h
  simp only [bind_eq_ok, refuseIf_eq_ok, pure_eq_ok, exists_const] at h
  obtain ⟨-, prepared, hprepare, rfl⟩ := h
  obtain ⟨hbegins, -, -, hstream, -⟩ := (prepareCommand_prepared hprepare).begins
  exact ⟨hbegins.sound (by simp [hstream]), hbegins.phase, hstream⟩

/-- The first frame of a command whose frames are chained. -/
theorem Begins.length_nextFrame (h : Begins session framing ex)
    (hchained : usesNativeCommandChaining ex.ins = true)
    (hev2 : ex.session.isEv2 = true → ex.frame.length ≤ dfcCommandMaxData) :
    ex.nextFrame.length = firstFrameLength session ex.frame.length := by
  have hkind := DfcReaderSession.isEv2_of_kind h.kind
  unfold DfcReaderExchange.nextFrame DfcReaderExchange.rest firstFrameLength
  rw [h.unsent, List.drop_zero, List.length_take, ← hkind]
  rcases h.limits with ⟨hfirst, hcommand, hshort⟩ | ⟨hfirst, hcommand, hnative, hlong⟩
  · have hmax : ex.frame.length ≤ dfcCommandMaxData := by
      rcases hshort with hshort | hshort | hshort
      · exact hev2 hshort
      · exact absurd (hshort.symm.trans hchained) Bool.false_ne_true
      · exact hshort.trans (by decide)
    rw [DfcReaderExchange.frameLimit_of_single hfirst hcommand, Nat.min_eq_right hmax, if_neg]
    rintro ⟨hnative, hlong⟩
    rcases hshort with hshort | hshort | hshort
    · exact absurd (hnative.symm.trans hshort) Bool.false_ne_true
    · exact absurd (hshort.symm.trans hchained) Bool.false_ne_true
    · exact absurd hlong (Nat.not_lt.mpr hshort)
  · rw [DfcReaderExchange.frameLimit_of_chained hfirst hcommand, if_pos ⟨hnative, hlong⟩,
      Nat.min_eq_left hlong.le]

end

section
variable {des : BlockCipher 8} {aes : BlockCipher 16} {session : DfcReaderSession}
  {framing : DfcReaderFraming} {stream : DfcReaderStream} {ex : DfcReaderExchange}

/-- The next piece of a stream begins an exchange whose first frame takes what was foreseen. -/
theorem beginStreamChunk_begins (hvalid : commModeIsValid stream.commMode = true)
    (h : beginStreamChunk des aes session framing stream = .ok ex) :
    Begins session framing ex ∧
      ex.stream = some { stream with offset := stream.offset + stream.chunk.length } ∧
      ex.invalidatesSession = false ∧ usesNativeCommandChaining ex.ins = true ∧
      ex.nextFrame.length = firstFrameLength session
        (stream.kind.header + wireLength session.keys stream.commMode stream.chunk.length) := by
  unfold beginStreamChunk at h
  cases hcommand : stream.command with
  | error err =>
    rw [hcommand] at h
    cases h
  | ok command =>
    simp only [hcommand, bind_eq_ok, pure_eq_ok] at h
    obtain ⟨begun, hbegin, rfl⟩ := h
    obtain ⟨hins, hlength⟩ := DfcReaderStream.command_ok hcommand
    unfold readerExchangeBegin at hbegin
    simp only [bind_eq_ok, refuseIf_eq_ok, pure_eq_ok, exists_const] at hbegin
    obtain ⟨-, prepared, hprepare, rfl⟩ := hbegin
    obtain ⟨hbegins, hbegunIns, hframe, -, hinvalidates⟩ :=
      (prepareCommand_prepared hprepare).begins
    have hbegins : Begins session framing
        { prepared.chainFrames with
          stream := some { stream with offset := stream.offset + stream.chunk.length } } :=
      { hbegins with }
    have hwire : prepared.chainFrames.frame.length = stream.kind.header +
        wireLength session.keys stream.commMode stream.chunk.length := by
      rw [Option.map_none, Option.none_or, hins, stream.kind.headerLength] at hprepare
      have hframeLength := prepareCommand_length hvalid hins (by omega) hprepare
      rw [hlength, Nat.add_sub_cancel_left] at hframeLength
      rw [hframe]
      exact hframeLength
    have hchained : usesNativeCommandChaining prepared.chainFrames.ins = true := by
      rw [hbegunIns, hins]
      exact stream.kind.chained
    refine ⟨hbegins, rfl, hinvalidates.trans (stream.kind.keepsSession session hins), hchained, ?_⟩
    rw [hbegins.length_nextFrame hchained ?_, ← hwire]
    intro hev2
    have hsession := (DfcReaderSession.isEv2_of_kind hbegins.kind).symm.trans hev2
    exact hwire.trans_le (stream.wire_ev2_le hsession hvalid)

end

@[simp] theorem isFailure_refusals : DfcReaderStatus.invalid.isFailure = true ∧
    DfcReaderStatus.protocolError.isFailure = true ∧
    DfcReaderStatus.integrityError.isFailure = true := ⟨rfl, rfl, rfl⟩

/-- A command that cannot be put under the session fails for good. -/
abbrev FailsForGood {α : Type} (x : Except ReaderFailure α) : Prop :=
  StopsWith (fun failure => failure.status.isFailure = true) x

section
variable (des : BlockCipher 8) (aes : BlockCipher 16) (ex : DfcReaderExchange)
  (sm : DfcSecureMessaging) (command : DfcCommand) (headerLen : Option ℕ)

@[simp] theorem failsForGood_setFrame (octets : List UInt8) :
    FailsForGood (ex.setFrame octets) := by
  simp [DfcReaderExchange.setFrame, DfcReaderExchange.fail]

@[simp] theorem failsForGood_prepareWrappedFileWrite (commMode : UInt8) :
    FailsForGood (prepareWrappedFileWrite des aes ex sm command commMode headerLen) := by
  simp [prepareWrappedFileWrite, DfcReaderExchange.fail]

theorem failsForGood_prepareEv2 (keys : DfcEv2SessionKeys) :
    FailsForGood (prepareEv2 aes ex keys command headerLen) := by
  have hfield (encryptedHeader : Option ℕ) :
      FailsForGood (ev2SecuredField aes ex keys command encryptedHeader) := by
    unfold ev2SecuredField
    split <;> simp [DfcReaderExchange.fail]
  simp [prepareEv2, hfield, DfcReaderExchange.fail]

theorem failsForGood_prepareCommand :
    FailsForGood (prepareCommand des aes ex command headerLen) := by
  unfold prepareCommand
  split
  · exact failsForGood_setFrame ex command.data
  · simp [prepareLegacy, prepareEv1, prepareChangeKeyEv1, DfcReaderExchange.fail]
  · exact failsForGood_prepareEv2 aes ex command headerLen _

theorem failsForGood_beginStreamChunk (session : DfcReaderSession) (framing : DfcReaderFraming)
    (stream : DfcReaderStream) :
    FailsForGood (beginStreamChunk des aes session framing stream) := by
  unfold beginStreamChunk
  split
  · simp
  · simp [readerExchangeBegin, failsForGood_prepareCommand]

end

section
variable {des : BlockCipher 8} {aes : BlockCipher 16} {ex : DfcReaderExchange} {cap : ℕ}

theorem DfcReaderExchange.Sound.afterFrame (h : ex.Sound)
    (hphase : ex.phase = .start ∨ ex.phase = .commandFrames) : ex.afterFrame.Sound := by
  have hundecided : ex.specialSuccess = false := h.undecided fun hdone => by
    rw [hdone] at hphase
    simp at hphase
  have hstreams : ∀ stream ∈ ex.stream, commModeIsValid stream.commMode = true ∧
      stream.offset ≤ stream.data.length ∧ ex.invalidatesSession = false := fun stream hstream =>
    ⟨(h.streams stream hstream).validMode, (h.streams stream hstream).inside,
      (h.streams stream hstream).keepsSession⟩
  unfold DfcReaderExchange.afterFrame
  split_ifs with hmore
  · exact ⟨h.dataFits, h.frameFits, hmore.le, h.limits, by simp, fun _ => hundecided,
      fun stream hstream => ⟨by simp, (hstreams stream hstream).1, (hstreams stream hstream).2.1,
        (hstreams stream hstream).2.2⟩⟩
  · exact ⟨h.dataFits, Nat.zero_le _, Nat.zero_le _, h.limits, fun _ => rfl, fun _ => hundecided,
      fun stream hstream => ⟨by simp, (hstreams stream hstream).1, (hstreams stream hstream).2.1,
        (hstreams stream hstream).2.2⟩⟩

/-- An exchange that is over: nothing of its command is left. -/
structure DfcReaderExchange.Over (ex : DfcReaderExchange) : Prop where
  phase : ex.phase = .done
  retired : ex.frame = [] ∧ ex.frameOffset = 0 ∧ ex.firstFrameLen = 0 ∧ ex.commandFrameLen = 0
  dataFits : ex.data.length ≤ dfcReaderMaxResponse
  stream : ex.stream = none

theorem DfcReaderExchange.Over.sound (h : ex.Over) : ex.Sound := by
  obtain ⟨hframe, hoffset, hfirst, hcommand⟩ := h.retired
  exact ⟨h.dataFits, by simp [hframe], by simp [hoffset], .inl ⟨hfirst, hcommand⟩, fun _ => hframe,
    fun hopen => absurd h.phase hopen, by simp [h.stream]⟩

/-- What a step of an exchange does: what a step of its command does, or it hands out the first
frame of the next piece of a stream. -/
inductive ReaderStepped (ex : DfcReaderExchange) (response : Option (List UInt8)) (cap : ℕ) :
    StepResult → Prop
  | refused (h : ex.phase = .done ∨ response = none) :
    ReaderStepped ex response cap { exchange := ex, status := .invalid }
  | short (h : cap < dfcCommandMaxData + dfcCommandApduOverhead) :
    ReaderStepped ex response cap { exchange := ex, status := .bufferTooSmall }
  | frame (h : ex.phase = .start ∨ ex.phase = .commandFrames)
    (hcap : emitRequiredCapacity ex.framing ex.nextFrame.length ≤ cap) :
    ReaderStepped ex response cap
      { exchange := ex.afterFrame, status := .pending
        out := frameOctets ex.framing ex.nextIns ex.nextFrame }
  | more (session : DfcReaderSession) (data : List UInt8) (h : ex.phase = .response)
    (hkind : session.kind = ex.session.kind) (hdata : data.length ≤ dfcReaderMaxResponse)
    (hcap : emitRequiredCapacity ex.framing 0 ≤ cap) :
    ReaderStepped ex response cap
      { exchange :=
          { ex with session := session, status := dfcCmdAdditionalFrame, data := data }
        status := .pending, out := frameOctets ex.framing dfcCmdAdditionalFrame [] }
  | ended (r : StepResult) (h : r.exchange.Over)
    (hterminal : r.status = .ok ∨ r.status.isFailure = true) (hsilent : r.out = [])
    (hok : r.status = .ok → ex.phase = .response ∧ AnswersOk ex (response.getD []) ∧
      ∀ stream ∈ ex.stream, stream.offset = stream.data.length) :
    ReaderStepped ex response cap r
  | piece (stream : DfcReaderStream) (next : DfcReaderExchange) (hphase : ex.phase = .response)
    (hanswer : AnswersOk ex (response.getD []))
    (hstream : ex.stream = some stream) (hleft : stream.offset < stream.data.length)
    (hnext : next.Sound) (hbegins : next.phase = .start ∧ next.frameOffset = 0)
    (hmoved : next.stream = some { stream with offset := stream.offset + stream.chunk.length })
    (hcap : emitRequiredCapacity next.framing next.nextFrame.length ≤ cap) :
    ReaderStepped ex response cap
      { exchange := next.afterFrame, status := .pending
        out := frameOctets next.framing next.nextIns next.nextFrame }

theorem continueStream_open {stepped : StepResult}
    (h : stepped.status = .pending ∨ stepped.status = .bufferTooSmall) :
    continueStream des aes stepped cap = stepped := by
  have hok : stepped.status ≠ .ok := by
    rintro hok
    rw [hok] at h
    simp at h
  unfold continueStream
  split
  · rfl
  · rw [if_pos (.inl hok), if_pos h]

/-- The step of a stream that goes on was refused before if the next frame does not fit. -/
theorem nextStreamEmitCapacity_le {response : List UInt8} {stream : DfcReaderStream}
    (hroom : streamNeedsRoom ex response cap = false) (hphase : ex.phase = .response)
    (hanswer : AnswersOk ex response) (hstream : ex.stream = some stream)
    (hleft : stream.offset < stream.data.length) : nextStreamEmitCapacity ex stream ≤ cap := by
  obtain ⟨status, data, hparse, hlast, hsuccess⟩ := hanswer
  have hok : (status == dfcStatusOk || isSpecialSuccess ex.ins status) = true := by
    simpa using hsuccess
  simpa [streamNeedsRoom, hphase, hstream, hparse, hleft, hlast, hok] using hroom

variable (des aes) in
/-- The first frame of the next piece fits, since it is what was foreseen. -/
theorem stepCommand_piece {session : DfcReaderSession} {stream : DfcReaderStream}
    {next : DfcReaderExchange} (hkind : session.kind = ex.session.kind)
    (hvalid : commModeIsValid stream.commMode = true)
    (hinside : stream.offset ≤ stream.data.length)
    (hroom : nextStreamEmitCapacity ex stream ≤ cap)
    (h : beginStreamChunk des aes session ex.framing stream = .ok next) :
    next.Sound ∧ next.phase = .start ∧ next.frameOffset = 0 ∧
      next.stream = some { stream with offset := stream.offset + stream.chunk.length } ∧
      emitRequiredCapacity next.framing next.nextFrame.length ≤ cap ∧
      stepCommand des aes next [] cap =
        { exchange := next.afterFrame, status := .pending
          out := frameOctets next.framing next.nextIns next.nextFrame } := by
  obtain ⟨hbegins, hmoved, hkeeps, hchained, hlength⟩ := beginStreamChunk_begins hvalid h
  have hchunk : stream.chunk.length ≤ stream.data.length - stream.offset := by
    rw [DfcReaderStream.chunk, List.length_take, List.length_drop]
    exact Nat.min_le_right _ _
  have hsound : next.Sound := by
    refine hbegins.sound fun moved hstream => ?_
    obtain rfl : moved = _ := (Option.some.inj (hmoved.symm.trans hstream)).symm
    exact ⟨by simp [hbegins.phase], hvalid, by simp only; omega, hkeeps⟩
  have hcap : emitRequiredCapacity next.framing next.nextFrame.length ≤ cap := by
    rw [nextStreamEmitCapacity_eq, ← wireLength_of_kind hkind] at hroom
    rw [hbegins.framing, hlength]
    unfold firstFrameLength at hroom ⊢
    rwa [DfcReaderSession.isEv2_of_kind hkind]
  refine ⟨hsound, hbegins.phase, hbegins.unsent, hmoved, hcap, ?_⟩
  have hlong : ¬(dfcCommandMaxData < next.frame.length ∧ next.firstFrameLen = 0 ∧
      next.session.isEv2 = false) := by
    rintro ⟨hlong, hfirst, hnative⟩
    rcases hbegins.limits with ⟨-, -, hev2 | hother | hshort⟩ | ⟨hlimit, -⟩
    · exact absurd (hnative.symm.trans hev2) Bool.false_ne_true
    · exact absurd (hother.symm.trans hchained) Bool.false_ne_true
    · simp only [dfcCommandMaxData, dfcEv1MaxFramePayload] at hlong hshort
      omega
    · exact absurd (hfirst.symm.trans hlimit) (by decide)
  unfold stepCommand
  simp only [hbegins.phase]
  rw [if_neg hlong, hsound.emitCommandFrame_eq, if_neg (Nat.not_lt.mpr hcap)]

theorem Finishes.isOver {r : StepResult} (h : Finishes ex r) {session : DfcReaderSession} :
    DfcReaderExchange.Over { r.exchange with stream := none, session := session } :=
  ⟨h.ended, h.retired, h.dataFits, rfl⟩

/-- Behind the end of a command its stream ends or goes on with the next piece. -/
theorem continueStream_stepped {r : StepResult} {response : Option (List UInt8)} (h : ex.Sound)
    (hroom : streamNeedsRoom ex (response.getD []) cap = false) (hends : Finishes ex r)
    (hok : r.status = .ok → ex.phase = .response ∧ AnswersOk ex (response.getD [])) :
    ReaderStepped ex response cap (continueStream des aes r cap) := by
  unfold continueStream
  cases hstream : ex.stream with
  | none =>
    have hnone : r.exchange.stream = none := hends.stream.trans hstream
    simp only [hnone]
    exact .ended r ⟨hends.ended, hends.retired, hends.dataFits, hnone⟩ hends.terminal hends.silent
      fun hr => ⟨(hok hr).1, (hok hr).2, by simp [hstream]⟩
  | some stream =>
    have hsome : r.exchange.stream = some stream := hends.stream.trans hstream
    have hstreams := h.streams stream hstream
    have hclosed : ¬(r.status = .pending ∨ r.status = .bufferTooSmall) := by
      rintro (hopen | hopen) <;> have hterminal := hends.terminal <;> rw [hopen] at hterminal <;>
        simp [DfcReaderStatus.isFailure] at hterminal
    simp only [hsome]
    by_cases hlast : r.status ≠ .ok ∨ stream.data.length ≤ stream.offset
    · rw [if_pos hlast, if_neg hclosed]
      refine .ended _ hends.isOver hends.terminal hends.silent fun hr =>
        ⟨(hok hr).1, (hok hr).2, ?_⟩
      intro stream' hstream'
      obtain rfl := Option.some.inj (hstream.symm.trans hstream')
      exact le_antisymm hstreams.inside (hlast.resolve_left (not_not.mpr hr))
    · rw [if_neg hlast]
      rw [not_or, not_not, Nat.not_le] at hlast
      obtain ⟨hr, hleft⟩ := hlast
      obtain ⟨hphase, hanswer⟩ := hok hr
      have hkind := hends.authenticated hr hstreams.keepsSession
      have hcap := nextStreamEmitCapacity_le hroom hphase hanswer hstream hleft
      rw [hends.framing]
      cases hbegin : beginStreamChunk des aes r.exchange.session ex.framing stream with
      | error failure =>
        have hfailure := (failsForGood_beginStreamChunk des aes r.exchange.session ex.framing
          stream).of_error hbegin
        refine .ended _ ⟨rfl, hends.retired, hends.dataFits, rfl⟩ (.inr hfailure) rfl fun hst => ?_
        rw [show failure.status = .ok from hst] at hfailure
        cases hfailure
      | ok next =>
        obtain ⟨hnext, hstart, hoffset, hmoved, hfits, hstep⟩ := stepCommand_piece des aes
          hkind hstreams.validMode hstreams.inside hcap hbegin
        simp only
        rw [hstep]
        exact .piece stream next hphase hanswer hstream hleft hnext ⟨hstart, hoffset⟩ hmoved hfits

variable (des aes) in
/-- What a step of an exchange can do. -/
theorem dfcReaderStep_stepped (h : ex.Sound) (response : Option (List UInt8)) (cap : ℕ) :
    ReaderStepped ex response cap (dfcReaderStep des aes ex response cap) := by
  unfold dfcReaderStep
  by_cases hrefused : ex.phase = .done ∨ (ex.phase ≠ .start ∧ response = none)
  · rw [if_pos hrefused]
    exact .refused (hrefused.imp_right And.right)
  rw [if_neg hrefused]
  cases hroom : streamNeedsRoom ex (response.getD []) cap with
  | true =>
    rw [if_pos rfl]
    unfold streamNeedsRoom at hroom
    split at hroom
    · rename_i stream status data hphase hstream hparse
      simp only [Bool.and_eq_true, decide_eq_true_eq] at hroom
      have hframe := nextStreamEmitCapacity_le_frame ex (h.streams stream hstream).validMode
      exact .short (hroom.2.trans_le hframe)
    · cases hroom
  | false =>
    rw [if_neg Bool.false_ne_true]
    have hstep := stepCommand_stepped des aes h (response.getD []) cap
    generalize stepCommand des aes ex (response.getD []) cap = r at hstep ⊢
    cases hstep with
    | ended hdone => exact absurd (.inl hdone) hrefused
    | short hcap _ =>
      rw [continueStream_open (.inr rfl)]
      exact .short hcap
    | frame hphase hcap =>
      rw [continueStream_open (.inl rfl)]
      exact .frame hphase hcap
    | more session data hphase hkind hdata hcap =>
      rw [continueStream_open (.inl rfl)]
      exact .more session data hphase hkind hdata hcap
    | finished _ hends hphase hok => exact continueStream_stepped h hroom hends hok

end

section
variable {des : BlockCipher 8} {aes : BlockCipher 16} {ex ex' : DfcReaderExchange} {cap : ℕ}
  {response : Option (List UInt8)}

variable (des aes) in
/-- A step keeps the buffers sound and hands out no more than its caller has room for. -/
theorem dfcReaderStep_sound (h : ex.Sound) (response : Option (List UInt8)) (cap : ℕ) :
    (dfcReaderStep des aes ex response cap).exchange.Sound ∧
      (dfcReaderStep des aes ex response cap).out.length ≤ cap := by
  have hstep := dfcReaderStep_stepped des aes h response cap
  generalize dfcReaderStep des aes ex response cap = r at hstep ⊢
  cases hstep with
  | refused _ => exact ⟨h, Nat.zero_le _⟩
  | short _ => exact ⟨h, Nat.zero_le _⟩
  | frame hphase hcap => exact ⟨h.afterFrame hphase, (length_frameOctets ..).trans_le hcap⟩
  | more session data hphase hkind hdata hcap =>
    refine ⟨⟨hdata, h.frameFits, h.inside, h.limits, h.sent, h.undecided, fun stream hstream => ?_⟩,
      (length_frameOctets ..).trans_le hcap⟩
    have hstreams := h.streams stream hstream
    exact ⟨hstreams.unfinished, hstreams.validMode, hstreams.inside, hstreams.keepsSession⟩
  | ended _ hover _ hsilent _ =>
    rw [hsilent]
    exact ⟨hover.sound, Nat.zero_le _⟩
  | piece stream next _ _ _ _ hnext hbegins _ hcap =>
    exact ⟨hnext.afterFrame (.inl hbegins.1), (length_frameOctets ..).trans_le hcap⟩

/-- A step refused for want of room leaves the exchange and its session as they were, and is not
refused to a caller with room for any frame. -/
theorem dfcReaderStep_retry (h : ex.Sound)
    (hshort : (dfcReaderStep des aes ex response cap).status = .bufferTooSmall) :
    (dfcReaderStep des aes ex response cap).exchange = ex ∧
      cap < dfcCommandMaxData + dfcCommandApduOverhead := by
  have hstep := dfcReaderStep_stepped des aes h response cap
  generalize dfcReaderStep des aes ex response cap = r at hstep hshort ⊢
  cases hstep with
  | short hcap => exact ⟨rfl, hcap⟩
  | ended _ _ hterminal _ _ =>
    rw [hshort] at hterminal
    simp [DfcReaderStatus.isFailure] at hterminal
  | refused | frame | more | piece => cases hshort

/-- An answer given to an exchange, and the room for what comes of it. -/
abbrev ReaderInput := Option (List UInt8) × ℕ

/-- An exchange after a list of steps, with the octets each handed out. -/
def readerRun (des : BlockCipher 8) (aes : BlockCipher 16) (ex : DfcReaderExchange) :
    List ReaderInput → DfcReaderExchange × List (List UInt8)
  | [] => (ex, [])
  | (response, cap) :: inputs =>
    let stepped := dfcReaderStep des aes ex response cap
    let (last, outs) := readerRun des aes stepped.exchange inputs
    (last, stepped.out :: outs)

variable (des aes) in
/-- Whatever the answers are, no buffer of an exchange is overrun, its caller's neither. -/
theorem readerRun_sound (h : ex.Sound) (inputs : List ReaderInput) :
    (readerRun des aes ex inputs).1.Sound ∧
      List.Forall₂ (fun out input => out.length ≤ input.2) (readerRun des aes ex inputs).2
        inputs := by
  induction inputs generalizing ex with
  | nil => exact ⟨h, .nil⟩
  | cons input inputs ih =>
    obtain ⟨response, cap⟩ := input
    obtain ⟨hnext, hout⟩ := dfcReaderStep_sound des aes h response cap
    exact ⟨(ih hnext).1, .cons hout (ih hnext).2⟩

end

/-- The octets of a command in a frame. -/
def framePayload (framing : DfcReaderFraming) (out : List UInt8) : List UInt8 :=
  match framing with
  | .iso7816 => (out.drop 5).take (out.getD 4 0).toNat
  | .native => out.tail

theorem framePayload_frameOctets (framing : DfcReaderFraming) (ins : UInt8) {data : List UInt8}
    (h : data.length ≤ dfcCommandMaxData) :
    framePayload framing (frameOctets framing ins data) = data := by
  cases framing with
  | native => rfl
  | iso7816 =>
    have hlength : (UInt8.ofNat data.length).toNat = data.length := by
      simp only [dfcCommandMaxData] at h
      simp only [UInt8.toNat_ofNat']
      omega
    simp [framePayload, frameOctets, hlength]

/-- A frame takes its octets off what is to be sent. -/
theorem DfcReaderExchange.nextFrame_append_rest (ex : DfcReaderExchange) :
    ex.nextFrame ++ ex.afterFrame.rest = ex.rest := by
  have hrest : ex.rest.length = ex.frame.length - ex.frameOffset := List.length_drop ..
  have hnext : ex.nextFrame.length = min ex.frameLimit ex.rest.length := List.length_take ..
  unfold afterFrame
  split_ifs with hmore
  · have hlimit : ex.nextFrame.length = ex.frameLimit := by omega
    have hleft : ex.frame.drop (ex.frameOffset + ex.nextFrame.length) =
        ex.rest.drop ex.frameLimit := by
      rw [hlimit, rest, List.drop_drop]
    calc ex.nextFrame ++ ex.frame.drop (ex.frameOffset + ex.nextFrame.length)
      _ = ex.rest.take ex.frameLimit ++ ex.rest.drop ex.frameLimit := by rw [hleft, nextFrame]
      _ = ex.rest := List.take_append_drop ..
  · have hall : ex.rest.length ≤ ex.frameLimit := by omega
    rw [nextFrame, List.take_of_length_le hall]
    exact List.append_nil _

/-- The steps that hand out the frames of a command, with what they hand out. -/
inductive Sends (des : BlockCipher 8) (aes : BlockCipher 16) :
    DfcReaderExchange → List (List UInt8) → DfcReaderExchange → Prop
  | none (ex : DfcReaderExchange) : Sends des aes ex [] ex
  | frame {ex ex' : DfcReaderExchange} {outs : List (List UInt8)} (response : Option (List UInt8))
    (cap : ℕ) (hphase : ex.phase = .start ∨ ex.phase = .commandFrames)
    (hpending : (dfcReaderStep des aes ex response cap).status = .pending)
    (hrest : Sends des aes (dfcReaderStep des aes ex response cap).exchange outs ex') :
    Sends des aes ex ((dfcReaderStep des aes ex response cap).out :: outs) ex'

section
variable {des : BlockCipher 8} {aes : BlockCipher 16} {ex ex' : DfcReaderExchange} {cap : ℕ}
  {response : Option (List UInt8)}

/-- While a command is being sent a step that does not end it hands out the next frame. -/
theorem dfcReaderStep_frame (h : ex.Sound)
    (hphase : ex.phase = .start ∨ ex.phase = .commandFrames)
    (hpending : (dfcReaderStep des aes ex response cap).status = .pending) :
    dfcReaderStep des aes ex response cap =
      { exchange := ex.afterFrame, status := .pending
        out := frameOctets ex.framing ex.nextIns ex.nextFrame } := by
  have hother : ex.phase ≠ .response := by
    rintro hresponse
    rw [hresponse] at hphase
    simp at hphase
  have hstep := dfcReaderStep_stepped des aes h response cap
  generalize dfcReaderStep des aes ex response cap = r at hstep hpending ⊢
  cases hstep with
  | frame _ _ => rfl
  | more _ _ hresponse => exact absurd hresponse hother
  | piece _ _ hresponse => exact absurd hresponse hother
  | ended _ _ hterminal =>
    rw [hpending] at hterminal
    simp [DfcReaderStatus.isFailure] at hterminal
  | refused | short => cases hpending

/-- The frames of a command join to what was to be sent of it, whatever their sizes. -/
theorem Sends.join {outs : List (List UInt8)} (h : Sends des aes ex outs ex') (hsound : ex.Sound) :
    (outs.map (framePayload ex.framing)).flatten ++ ex'.rest = ex.rest := by
  induction h with
  | none ex => rfl
  | @frame ex ex' outs response cap hphase hpending hrest ih =>
    have hstep := dfcReaderStep_frame hsound hphase hpending
    rw [hstep] at ih ⊢
    have hjoin := ih (hsound.afterFrame hphase)
    rw [ex.afterFrame_framing] at hjoin
    rw [List.map_cons, List.flatten_cons, List.append_assoc, hjoin,
      framePayload_frameOctets _ _ hsound.length_nextFrame_le]
    exact ex.nextFrame_append_rest

theorem Sends.sound {outs : List (List UInt8)} (h : Sends des aes ex outs ex')
    (hsound : ex.Sound) : ex'.Sound := by
  induction h with
  | none ex => exact hsound
  | frame response cap _ _ _ ih => exact ih (dfcReaderStep_sound des aes hsound response cap).1

/-- A command that is sent to its end is sent octet for octet. -/
theorem Sends.complete {outs : List (List UInt8)} (h : Sends des aes ex outs ex')
    (hsound : ex.Sound) (hstart : ex.frameOffset = 0) (hsent : ex'.phase = .response) :
    (outs.map (framePayload ex.framing)).flatten = ex.frame := by
  have hjoin := h.join hsound
  rw [DfcReaderExchange.rest, DfcReaderExchange.rest, (h.sound hsound).sent (.inl hsent),
    hstart] at hjoin
  simpa using hjoin

/-- How far a stream of `data` is, as long as its exchange is not over. -/
def StreamAt (data : List UInt8) (offset : ℕ) (ex : DfcReaderExchange) : Prop :=
  ex.Over ∨ ∃ stream, ex.stream = some stream ∧ stream.data = data ∧ offset ≤ stream.offset

/-- A step leaves the stream where it is, takes it to its next piece, or ends the exchange. -/
theorem dfcReaderStep_streamAt {data : List UInt8} {offset : ℕ} (h : ex.Sound)
    (hat : StreamAt data offset ex) (response : Option (List UInt8)) (cap : ℕ) :
    StreamAt data offset (dfcReaderStep des aes ex response cap).exchange := by
  have hstep := dfcReaderStep_stepped des aes h response cap
  generalize dfcReaderStep des aes ex response cap = r at hstep ⊢
  cases hstep with
  | refused | short => exact hat
  | ended _ hover => exact .inl hover
  | frame hphase =>
    rcases hat with hover | hat
    · rw [hover.phase] at hphase
      simp at hphase
    · exact .inr (ex.afterFrame_stream ▸ hat)
  | more _ _ hphase =>
    rcases hat with hover | hat
    · exact absurd (hover.phase.symm.trans hphase) (by decide)
    · exact .inr hat
  | piece stream next hphase _ hstream _ _ _ hmoved =>
    rcases hat with hover | ⟨stream', hstream', hdata, hoffset⟩
    · exact absurd (hover.phase.symm.trans hphase) (by decide)
    · obtain rfl := Option.some.inj (hstream.symm.trans hstream')
      exact .inr ⟨_, next.afterFrame_stream.trans hmoved, hdata,
        hoffset.trans (Nat.le_add_right _ _)⟩

variable (des aes) in
theorem readerRun_streamAt {data : List UInt8} {offset : ℕ} (h : ex.Sound)
    (hat : StreamAt data offset ex) (inputs : List ReaderInput) :
    StreamAt data offset (readerRun des aes ex inputs).1 := by
  induction inputs generalizing ex with
  | nil => exact hat
  | cons input inputs ih =>
    exact ih (dfcReaderStep_sound des aes h input.1 input.2).1 (dfcReaderStep_streamAt h hat _ _)

/-- A streamed write that answers `ok` has put its last octet into a command, and the card has
answered that command with success. -/
theorem readerRun_stream_ok {stream : DfcReaderStream} (h : ex.Sound)
    (hstream : ex.stream = some stream) (inputs : List ReaderInput)
    (hok : (dfcReaderStep des aes (readerRun des aes ex inputs).1 response cap).status = .ok) :
    AnswersOk (readerRun des aes ex inputs).1 (response.getD []) ∧
      ∃ last, (readerRun des aes ex inputs).1.stream = some last ∧ last.data = stream.data ∧
        last.offset = stream.data.length := by
  have hsound := (readerRun_sound des aes h inputs).1
  have hat := readerRun_streamAt des aes h
    (.inr ⟨stream, hstream, rfl, le_rfl⟩) inputs
  have hstep := dfcReaderStep_stepped des aes hsound response cap
  generalize readerRun des aes ex inputs = run at hat hstep hok ⊢
  generalize dfcReaderStep des aes run.1 response cap = r at hstep hok
  cases hstep with
  | ended _ _ _ _ hdone =>
    obtain ⟨hphase, hanswer, hall⟩ := hdone hok
    rcases hat with hover | ⟨last, hlast, hdata, -⟩
    · exact absurd (hover.phase.symm.trans hphase) (by decide)
    · exact ⟨hanswer, last, hlast, hdata, hdata ▸ hall last hlast⟩
  | refused | short | frame | more | piece => cases hok

theorem beginStream_sound {session : DfcReaderSession} {framing : DfcReaderFraming}
    {kind : StreamKind} {fileNumber commMode : UInt8} {recordNumber offset : ℕ} {data : List UInt8}
    (h : beginStream des aes session framing kind fileNumber recordNumber offset data commMode =
      .ok ex) : ex.Sound ∧ ∃ stream, ex.stream = some stream ∧ stream.data = data := by
  unfold beginStream at h
  split_ifs at h with hrefused
  have hvalid : commModeIsValid commMode = true := by
    rw [← Bool.not_eq_false]
    exact fun hinvalid => hrefused (.inl hinvalid)
  obtain ⟨hbegins, hmoved, hkeeps, -, -⟩ := beginStreamChunk_begins hvalid h
  refine ⟨hbegins.sound fun stream hstream => ?_, _, hmoved, rfl⟩
  obtain rfl := Option.some.inj (hmoved.symm.trans hstream)
  refine ⟨by simp [hbegins.phase], hvalid, ?_, hkeeps⟩
  simp [DfcReaderStream.chunk]

/-- Whatever the card answers and whatever room the caller has, a streamed write that answers `ok`
has sent all of its data. -/
theorem beginStream_ok {session : DfcReaderSession} {framing : DfcReaderFraming}
    {kind : StreamKind} {fileNumber commMode : UInt8} {recordNumber offset : ℕ} {data : List UInt8}
    (h : beginStream des aes session framing kind fileNumber recordNumber offset data commMode =
      .ok ex) (inputs : List ReaderInput)
    (hok : (dfcReaderStep des aes (readerRun des aes ex inputs).1 response cap).status = .ok) :
    ∃ last, (readerRun des aes ex inputs).1.stream = some last ∧ last.data = data ∧
      last.offset = data.length := by
  obtain ⟨hsound, stream, hstream, rfl⟩ := beginStream_sound h
  exact (readerRun_stream_ok hsound hstream inputs hok).2

end

end DfcCore
