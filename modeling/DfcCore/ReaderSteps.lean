import DfcCore.ReaderWire

/-!
# Steps of a reader exchange

What a step of a command can do, said once: it is refused and changes nothing, hands out the next
frame, asks for more of the answer, or ends the exchange. The buffers of an exchange are never
overrun on the way.
-/
namespace DfcCore
open Der

namespace DfcReaderExchange

section
variable (ex : DfcReaderExchange)

/-- The octets of the command that are still to be sent. -/
def rest : List UInt8 := ex.frame.drop ex.frameOffset

/-- The octets of the next frame. -/
def nextFrame : List UInt8 := ex.rest.take ex.frameLimit

def nextIns : UInt8 := if ex.frameOffset = 0 then ex.ins else dfcCmdAdditionalFrame

/-- The exchange once its next frame is handed out. -/
def afterFrame : DfcReaderExchange :=
  if ex.frameOffset + ex.nextFrame.length < ex.frame.length then
    { ex with frameOffset := ex.frameOffset + ex.nextFrame.length, phase := .commandFrames }
  else { ex with frame := [], frameOffset := 0, phase := .response }

theorem afterFrame_framing : ex.afterFrame.framing = ex.framing := by
  unfold afterFrame
  split_ifs <;> rfl

theorem afterFrame_stream : ex.afterFrame.stream = ex.stream := by
  unfold afterFrame
  split_ifs <;> rfl

/-- What holds of an exchange that streams. -/
structure Streams (stream : DfcReaderStream) : Prop where
  unfinished : ex.phase ≠ .done
  validMode : commModeIsValid stream.commMode = true
  inside : stream.offset ≤ stream.data.length
  keepsSession : ex.invalidatesSession = false

/-- What holds of an exchange between two steps. -/
structure Sound : Prop where
  dataFits : ex.data.length ≤ dfcReaderMaxResponse
  frameFits : ex.frame.length ≤ dfcReaderMaxCommand
  inside : ex.frameOffset ≤ ex.frame.length
  limits : ex.firstFrameLen = 0 ∧ ex.commandFrameLen = 0 ∨
    ex.firstFrameLen = dfcEv1MaxFramePayload ∧ ex.commandFrameLen = dfcEv1MaxFramePayload
  sent : ex.phase = .response ∨ ex.phase = .done → ex.frame = []
  undecided : ex.phase ≠ .done → ex.specialSuccess = false
  streams : ∀ stream ∈ ex.stream, ex.Streams stream

end

variable {ex : DfcReaderExchange}

theorem frameLimit_of_single (hfirst : ex.firstFrameLen = 0) (hcommand : ex.commandFrameLen = 0) :
    ex.frameLimit = dfcCommandMaxData := by
  simp [frameLimit, hfirst, hcommand]

theorem frameLimit_of_chained (hfirst : ex.firstFrameLen = dfcEv1MaxFramePayload)
    (hcommand : ex.commandFrameLen = dfcEv1MaxFramePayload) :
    ex.frameLimit = dfcEv1MaxFramePayload := by
  unfold frameLimit
  rw [hfirst, hcommand, if_pos (by decide : dfcEv1MaxFramePayload ≠ 0), ite_self]

theorem Sound.frameLimit_pos_le (h : ex.Sound) :
    0 < ex.frameLimit ∧ ex.frameLimit ≤ dfcCommandMaxData := by
  rcases h.limits with ⟨hfirst, hcommand⟩ | ⟨hfirst, hcommand⟩
  · rw [frameLimit_of_single hfirst hcommand]
    decide
  · rw [frameLimit_of_chained hfirst hcommand]
    decide

theorem Sound.length_nextFrame_le (h : ex.Sound) : ex.nextFrame.length ≤ dfcCommandMaxData :=
  (List.length_take_le _ _).trans h.frameLimit_pos_le.2

/-- A frame is refused for want of room or handed out. -/
theorem Sound.emitCommandFrame_eq (h : ex.Sound) (cap : ℕ) :
    ex.emitCommandFrame cap =
      if cap < emitRequiredCapacity ex.framing ex.nextFrame.length then
        { exchange := ex, status := .bufferTooSmall }
      else
        { exchange := ex.afterFrame, status := .pending
          out := frameOctets ex.framing ex.nextIns ex.nextFrame } := by
  have hmax := h.length_nextFrame_le
  have hemit (hcap : ¬cap < emitRequiredCapacity ex.framing ex.nextFrame.length) :
      ex.emit ex.nextIns ex.nextFrame cap =
        { exchange := ex, status := .pending
          out := frameOctets ex.framing ex.nextIns ex.nextFrame } :=
    if_neg (not_or.mpr ⟨Nat.not_lt.mpr hmax, hcap⟩)
  unfold emitCommandFrame afterFrame
  simp only
  rw [← rest, ← nextFrame, ← nextIns]
  by_cases hcap : cap < emitRequiredCapacity ex.framing ex.nextFrame.length
  · rw [if_pos hcap, if_pos hcap]
  · rw [if_neg hcap, if_neg hcap, hemit hcap, if_neg (by simp)]
    split_ifs <;> rfl

end DfcReaderExchange

/-- The results that end an exchange without success. -/
def DfcReaderStatus.isFailure : DfcReaderStatus → Bool
  | .ok | .pending | .bufferTooSmall => false
  | .invalid | .protocolError | .integrityError | .cardError | .unsupported => true

/-- An answer that a command may succeed with. -/
def AnswersOk (ex : DfcReaderExchange) (response : List UInt8) : Prop :=
  ∃ status data, parseAnswer ex.framing response = some (status, data) ∧
    status ≠ dfcCmdAdditionalFrame ∧ (status = dfcStatusOk ∨ isSpecialSuccess ex.ins status = true)

/-- A result that ends the exchange of a command. -/
structure Finishes (ex : DfcReaderExchange) (r : StepResult) : Prop where
  ended : r.exchange.phase = .done
  retired : r.exchange.frame = [] ∧ r.exchange.frameOffset = 0 ∧ r.exchange.firstFrameLen = 0 ∧
    r.exchange.commandFrameLen = 0
  dataFits : r.exchange.data.length ≤ dfcReaderMaxResponse
  framing : r.exchange.framing = ex.framing
  stream : r.exchange.stream = ex.stream
  silent : r.out = []
  terminal : r.status = .ok ∨ r.status.isFailure = true
  authenticated : r.status = .ok → ex.invalidatesSession = false →
    r.exchange.session.kind = ex.session.kind

/-- What a step of a command does. -/
inductive Stepped (ex : DfcReaderExchange) (response : List UInt8) (cap : ℕ) : StepResult → Prop
  | ended (h : ex.phase = .done) : Stepped ex response cap { exchange := ex, status := .invalid }
  | short (h : cap < dfcCommandMaxData + dfcCommandApduOverhead) (hphase : ex.phase ≠ .done) :
    Stepped ex response cap { exchange := ex, status := .bufferTooSmall }
  | frame (h : ex.phase = .start ∨ ex.phase = .commandFrames)
    (hcap : emitRequiredCapacity ex.framing ex.nextFrame.length ≤ cap) :
    Stepped ex response cap
      { exchange := ex.afterFrame, status := .pending
        out := frameOctets ex.framing ex.nextIns ex.nextFrame }
  | more (session : DfcReaderSession) (data : List UInt8) (h : ex.phase = .response)
    (hkind : session.kind = ex.session.kind) (hdata : data.length ≤ dfcReaderMaxResponse)
    (hcap : emitRequiredCapacity ex.framing 0 ≤ cap) :
    Stepped ex response cap
      { exchange :=
          { ex with session := session, status := dfcCmdAdditionalFrame, data := data }
        status := .pending, out := frameOctets ex.framing dfcCmdAdditionalFrame [] }
  | finished (r : StepResult) (h : Finishes ex r) (hphase : ex.phase ≠ .done)
    (hok : r.status = .ok → ex.phase = .response ∧ AnswersOk ex response) :
    Stepped ex response cap r

/-- What an answer changes of an exchange is held in its buffer. -/
structure Holds (ex ex' : DfcReaderExchange) : Prop where
  framing : ex'.framing = ex.framing
  stream : ex'.stream = ex.stream
  dataFits : ex'.data.length ≤ dfcReaderMaxResponse

section
variable {des : BlockCipher 8} {aes : BlockCipher 16} {ex ex' : DfcReaderExchange}
  {sm : DfcSecureMessaging} {response : List UInt8} {cap : ℕ}

theorem Holds.succeed (h : Holds ex ex')
    (hkind : ex.invalidatesSession = false → ex'.session.kind = ex.session.kind) :
    Finishes ex (ex'.finishCommand .ok) :=
  ⟨rfl, ⟨rfl, rfl, rfl, rfl⟩, h.dataFits, h.framing, h.stream, rfl, .inl rfl, fun _ => hkind⟩

/-- A failure says nothing about the session it leaves. -/
theorem Holds.fail {status : DfcReaderStatus} (h : Holds ex ex')
    (hstatus : status.isFailure = true) : Finishes ex (ex'.finishCommand status) := by
  refine ⟨rfl, ⟨rfl, rfl, rfl, rfl⟩, h.dataFits, h.framing, h.stream, rfl, .inr hstatus,
    fun hok => ?_⟩
  rw [show status = .ok from hok] at hstatus
  cases hstatus

theorem holds_self (h : ex.data.length ≤ dfcReaderMaxResponse) : Holds ex ex := ⟨rfl, rfl, h⟩

theorem finishes_cardError (h : ex.data.length ≤ dfcReaderMaxResponse) :
    Finishes ex ex.cardError := by
  have hself : Holds ex ex := holds_self h
  have hcleared : Holds ex ex.clearSession := ⟨rfl, rfl, h⟩
  unfold DfcReaderExchange.cardError
  split_ifs
  · exact hcleared.fail rfl
  · exact hcleared.fail rfl
  · exact hself.fail rfl
  · exact hself.fail rfl

variable (des aes) in
theorem verifyEv1Frame_holds (hkeys : ex.session.keys = .native sm)
    (h : ex.data.length ≤ dfcReaderMaxResponse) (start : ℕ) (status : UInt8) :
    Holds ex (verifyEv1Frame des aes ex sm start status).1 ∧
      ((verifyEv1Frame des aes ex sm start status).2 = .ok ∧
        (verifyEv1Frame des aes ex sm start status).1.session.kind = ex.session.kind ∨
      (verifyEv1Frame des aes ex sm start status).2.isFailure = true) := by
  unfold verifyEv1Frame
  simp only
  split_ifs
  · exact ⟨⟨rfl, rfl, h⟩, .inr rfl⟩
  · refine ⟨⟨rfl, rfl, (List.length_take_le' _ _).trans h⟩, .inl ⟨rfl, ?_⟩⟩
    exact DfcReaderExchange.kind_withSm hkeys rfl
  · exact ⟨⟨rfl, rfl, h⟩, .inr rfl⟩

/-- The end of an exchange whose last answer carries a CMAC. -/
theorem finishes_verified (hkeys : ex.session.keys = .native sm)
    (h : ex.data.length ≤ dfcReaderMaxResponse) (start : ℕ) (status : UInt8) :
    Finishes ex ((verifyEv1Frame des aes ex sm start status).1.finishCommand
      (verifyEv1Frame des aes ex sm start status).2) := by
  obtain ⟨hholds, ⟨hok, hkind⟩ | hfailed⟩ := verifyEv1Frame_holds des aes hkeys h
    start status
  · rw [hok]
    exact hholds.succeed fun _ => hkind
  · exact hholds.fail hfailed

theorem finishes_finishUnwrapped (hkeys : ex.session.keys = .native sm)
    (h : ex.data.length ≤ dfcReaderMaxResponse) :
    Finishes ex (finishUnwrapped des aes ex sm) := by
  have hcleared : Holds ex ex.clearSession := ⟨rfl, rfl, h⟩
  unfold finishUnwrapped
  simp only
  split_ifs with hempty hshort hlong hmac
  · exact (holds_self h).succeed fun _ => rfl
  · exact (show Holds ex { ex.clearSession with data := [] } from ⟨rfl, rfl, by simp⟩).fail
      rfl
  · exact hcleared.fail rfl
  · cases hverify : d40MacVerify des sm ex.data dfcReaderMaxResponse with
    | none => exact hcleared.fail rfl
    | some clear =>
      have hholds : Holds ex { ex.withSm sm with data := clear } :=
        ⟨rfl, rfl, length_d40MacVerify hverify⟩
      exact hholds.succeed fun _ => DfcReaderExchange.kind_withSm hkeys rfl
  · obtain ⟨hlength, hcipher⟩ := dfcSecureMessagingUnwrap_spec des aes sm
      dfcCommEnciphered ex.status ex.data dfcReaderMaxResponse
    cases hunwrap : dfcSecureMessagingUnwrap des aes sm dfcCommEnciphered ex.status ex.data
        dfcReaderMaxResponse with
    | mk unwrapped next =>
      rw [hunwrap] at hlength hcipher
      cases unwrapped with
      | none => exact hcleared.fail rfl
      | some clear =>
        have hholds : Holds ex { ex.withSm next with data := clear } :=
          ⟨rfl, rfl, hlength clear rfl⟩
        exact hholds.succeed fun _ => DfcReaderExchange.kind_withSm hkeys hcipher

theorem finishes_finishEv2 {keys : DfcEv2SessionKeys} (h : ex.data.length ≤ dfcReaderMaxResponse) :
    Finishes ex (finishEv2 aes ex keys) := by
  have hcleared : Holds ex ex.clearSession := ⟨rfl, rfl, h⟩
  have hbody : (ex.data.take (ex.data.length - dfcWireMacLength)).length ≤ dfcReaderMaxResponse :=
    (List.length_take_le' _ _).trans h
  unfold finishEv2
  simp only
  split_ifs with hshort hmac hdecrypt
  · exact hcleared.fail rfl
  · exact hcleared.fail rfl
  · split
    · exact Holds.fail ⟨rfl, rfl, hbody⟩ rfl
    · rename_i clear hclear
      have hlength := (length_dfcEv2DecryptData hclear).1
      exact Holds.succeed ⟨rfl, rfl, (Nat.le_of_lt hlength).trans hbody⟩ fun _ => rfl
  · exact Holds.succeed ⟨rfl, rfl, hbody⟩ fun _ => rfl

theorem finishes_finishByPlan (h : ex.data.length ≤ dfcReaderMaxResponse) :
    Finishes ex (finishByPlan des aes ex) := by
  have hself : Holds ex ex := holds_self h
  unfold finishByPlan
  split
  · exact hself.succeed fun _ => rfl
  · exact Holds.succeed ⟨rfl, rfl, h⟩ fun _ => rfl
  · exact finishes_verified (by assumption) h 0 ex.status
  · exact finishes_verified (by assumption) h 0 ex.status
  · exact finishes_finishUnwrapped (by assumption) h
  · exact finishes_finishUnwrapped (by assumption) h
  · exact finishes_finishUnwrapped (by assumption) h
  · exact finishes_finishEv2 h
  · exact finishes_finishEv2 h
  · exact hself.fail rfl

theorem finishes_finishAnswer (h : ex.data.length ≤ dfcReaderMaxResponse) :
    Finishes ex (finishAnswer des aes ex) := by
  unfold finishAnswer
  simp only
  split_ifs with hspecial hstatus hinvalidates
  · exact (holds_self h).succeed fun _ => rfl
  · exact finishes_cardError h
  · exact Holds.succeed ⟨rfl, rfl, h⟩ fun hkeeps =>
      absurd (hkeeps.symm.trans hinvalidates) Bool.false_ne_true
  · exact Holds.succeed ⟨rfl, rfl, h⟩ fun hkeeps =>
      absurd (hkeeps.symm.trans hinvalidates) Bool.false_ne_true
  · exact finishes_finishByPlan h

end

/-- An exchange with the octets of an answer taken in. -/
structure Answered (ex ex' : DfcReaderExchange) : Prop extends Holds ex ex' where
  invalidates : ex'.invalidatesSession = ex.invalidatesSession
  kind : ex'.session.kind = ex.session.kind

section
variable {des : BlockCipher 8} {aes : BlockCipher 16} {ex ex' : DfcReaderExchange}
  {response : List UInt8} {cap : ℕ}

/-- The end of an exchange is seen from where the answer found it. -/
theorem Finishes.of_answered {r : StepResult} (h : Finishes ex' r) (hanswered : Answered ex ex') :
    Finishes ex r :=
  { h with
    framing := h.framing.trans hanswered.framing
    stream := h.stream.trans hanswered.stream
    authenticated := fun hok hkeeps =>
      (h.authenticated hok (hanswered.invalidates.trans hkeeps)).trans hanswered.kind }

theorem DfcReaderExchange.appendData_eq {octets : List UInt8}
    (h : ex.appendData octets = some ex') (hdata : ex.data.length ≤ dfcReaderMaxResponse) :
    ex' = { ex with data := ex.data ++ octets } ∧ Answered ex ex' := by
  unfold appendData at h
  split_ifs at h with hroom
  obtain rfl := Option.some.inj h
  refine ⟨rfl, ⟨rfl, rfl, ?_⟩, rfl, rfl⟩
  rw [List.length_append]
  omega

/-- The card is asked for the next part of its answer. -/
theorem stepped_more (hphase : ex.phase = .response)
    (hcap : emitRequiredCapacity ex.framing 0 ≤ cap)
    (heq : ex' = { ex with
      session := ex'.session, status := dfcCmdAdditionalFrame, data := ex'.data })
    (hanswered : Answered ex ex') :
    Stepped ex response cap (ex'.emit dfcCmdAdditionalFrame [] cap) := by
  have hemit : ex'.emit dfcCmdAdditionalFrame [] cap =
      { exchange := ex', status := .pending
        out := frameOctets ex.framing dfcCmdAdditionalFrame [] } := by
    rw [← hanswered.framing] at hcap ⊢
    exact if_neg (not_or.mpr ⟨by decide, Nat.not_lt.mpr hcap⟩)
  have hmore : Stepped ex response cap _ := .more ex'.session ex'.data hphase hanswered.kind
    hanswered.dataFits hcap
  rw [← heq] at hmore
  rw [hemit]
  exact hmore

/-- An answer that does not fit the buffer ends the exchange and the session. -/
theorem finishes_overflow (h : ex.data.length ≤ dfcReaderMaxResponse) :
    Finishes ex (ex.clearSession.finishCommand .protocolError) :=
  Holds.fail ⟨rfl, rfl, h⟩ rfl

theorem cardError_status : ex.cardError.status ≠ .ok := by
  unfold DfcReaderExchange.cardError DfcReaderExchange.finishCommand
  split_ifs <;> simp

theorem stepped_emitCommandFrame (h : ex.Sound)
    (hphase : ex.phase = .start ∨ ex.phase = .commandFrames) :
    Stepped ex response cap (ex.emitCommandFrame cap) := by
  rw [h.emitCommandFrame_eq cap]
  split_ifs with hcap
  · have hmax := h.length_nextFrame_le
    have hneed := emitRequiredCapacity_le ex.framing ex.nextFrame.length
    refine .short (by omega) fun hdone => ?_
    rw [hdone] at hphase
    simp at hphase
  · exact .frame hphase (Nat.not_lt.mp hcap)

theorem stepped_commandFrames (h : ex.Sound) (hphase : ex.phase = .commandFrames)
    (status : UInt8) (data : List UInt8) :
    Stepped ex response cap (stepCommandFrames ex status data cap) := by
  have hfailed (r : StepResult) (hr : Finishes ex r) (hst : r.status ≠ .ok) :
      Stepped ex response cap r :=
    .finished r hr (by simp [hphase]) fun hok => absurd hok hst
  unfold stepCommandFrames
  by_cases hends : status ≠ dfcCmdAdditionalFrame ∨ data ≠ []
  · simp only [if_pos hends]
    generalize hretired : { ex with
      frame := [], frameOffset := 0, phase := .response, status := status } = retired
    have hstart : Answered ex retired := by
      rw [← hretired]
      exact ⟨⟨rfl, rfl, h.dataFits⟩, rfl, rfl⟩
    cases happend : retired.appendData data with
    | none =>
      exact hfailed _ ((finishes_overflow hstart.dataFits).of_answered hstart)
        (by simp [DfcReaderExchange.finishCommand])
    | some answered =>
      have hanswered := (DfcReaderExchange.appendData_eq happend hstart.dataFits).2
      simp only
      split_ifs
      · have hfinish : Finishes retired (answered.finishCommand .protocolError) :=
          hanswered.fail rfl
        exact hfailed _ (hfinish.of_answered hstart) (by simp [DfcReaderExchange.finishCommand])
      · exact hfailed _ (((finishes_cardError hanswered.dataFits).of_answered hanswered).of_answered
          hstart) cardError_status
  · rw [if_neg hends]
    exact stepped_emitCommandFrame h (.inr hphase)

theorem isSpecialSuccess_more (ins : UInt8) :
    isSpecialSuccess ins dfcCmdAdditionalFrame = false := by
  rw [isSpecialSuccess, show (dfcCmdAdditionalFrame == dfcStatusSpecialSuccess) = false by decide,
    Bool.false_and]

theorem stepped_getVersion {status : UInt8} {data : List UInt8} (h : ex.Sound)
    (hphase : ex.phase = .response)
    (hparse : parseAnswer ex.framing response = some (status, data))
    (hroom : ¬(status = dfcCmdAdditionalFrame ∧ cap < emitRequiredCapacity ex.framing 0)) :
    Stepped ex response cap
      (stepGetVersion des aes { ex with status := status } status data cap) := by
  have hnotDone : ex.phase ≠ .done := by simp [hphase]
  have hfailed (r : StepResult) (hr : Finishes ex r) (hst : r.status ≠ .ok) :
      Stepped ex response cap r := .finished r hr hnotDone fun hok => absurd hok hst
  have hstart : Answered ex { ex with status := status } := ⟨⟨rfl, rfl, h.dataFits⟩, rfl, rfl⟩
  unfold stepGetVersion
  cases happend : DfcReaderExchange.appendData { ex with status := status } data with
  | none =>
    exact hfailed _ ((finishes_overflow hstart.dataFits).of_answered hstart)
      (by simp [DfcReaderExchange.finishCommand])
  | some answered =>
    obtain ⟨heq, hanswered⟩ := DfcReaderExchange.appendData_eq happend hstart.dataFits
    have hbad : Stepped ex response cap (answered.finishCommand .integrityError) :=
      hfailed _ ((hanswered.toHolds.fail rfl).of_answered hstart)
        (by simp [DfcReaderExchange.finishCommand])
    cases hkeys : ex.session.keys with
    | none => simpa only using hbad
    | ev2 keys => simpa only using hbad
    | native sm =>
      have hkeys' : answered.session.keys = .native sm := by rw [heq]; exact hkeys
      simp only
      split_ifs with herror hlast
      · exact hfailed _ (((finishes_cardError hanswered.dataFits).of_answered
          hanswered).of_answered hstart) cardError_status
      · refine .finished _ (((finishes_verified hkeys' hanswered.dataFits _ _).of_answered
          hanswered).of_answered hstart) hnotDone fun _ => ⟨hphase, status, data, hparse, ?_⟩
        rw [hlast]
        exact ⟨by decide, .inl rfl⟩
      · obtain rfl : status = dfcCmdAdditionalFrame := by
          by_contra hmore
          exact herror ⟨hlast, hmore⟩
        have hcap : emitRequiredCapacity ex.framing 0 ≤ cap :=
          Nat.not_lt.mp fun hshort => hroom ⟨rfl, hshort⟩
        refine stepped_more hphase hcap (by rw [heq]; rfl) ⟨⟨?_, ?_, ?_⟩, ?_, ?_⟩
        · exact hanswered.framing
        · exact hanswered.stream
        · exact hanswered.dataFits
        · exact hanswered.invalidates
        · exact (DfcReaderExchange.kind_withSm hkeys' rfl).trans hanswered.kind

theorem stepped_response (h : ex.Sound) (hphase : ex.phase = .response) {status : UInt8}
    {data : List UInt8} (hparse : parseAnswer ex.framing response = some (status, data)) :
    Stepped ex response cap (stepResponse des aes ex status data cap) := by
  have hnotDone : ex.phase ≠ .done := by simp [hphase]
  have hundecided := h.undecided hnotDone
  unfold stepResponse
  by_cases hroom : status = dfcCmdAdditionalFrame ∧ cap < emitRequiredCapacity ex.framing 0
  · rw [if_pos hroom]
    have hneed := emitRequiredCapacity_le ex.framing 0
    exact .short (by omega) hnotDone
  rw [if_neg hroom]
  simp only
  by_cases hversion : ex.responsePlan = .ev1GetVersion
  · rw [if_pos hversion]
    exact stepped_getVersion h hphase hparse hroom
  rw [if_neg hversion]
  generalize hex : { ex with
    status := status
    specialSuccess := ex.specialSuccess || isSpecialSuccess ex.ins status } = taken
  have hstart : Answered ex taken := by
    rw [← hex]
    exact ⟨⟨rfl, rfl, h.dataFits⟩, rfl, rfl⟩
  cases happend : taken.appendData data with
  | none =>
    refine .finished _ ((finishes_overflow hstart.dataFits).of_answered hstart) hnotDone ?_
    simp [DfcReaderExchange.finishCommand]
  | some answered =>
    obtain ⟨heq, hanswered⟩ := DfcReaderExchange.appendData_eq happend hstart.dataFits
    simp only
    split_ifs with hmore
    · have hcap : emitRequiredCapacity ex.framing 0 ≤ cap :=
        Nat.not_lt.mp fun hshort => hroom ⟨hmore, hshort⟩
      have htaken : answered = { ex with
          session := answered.session, status := dfcCmdAdditionalFrame
          data := answered.data } := by
        rw [heq, ← hex, hmore, isSpecialSuccess_more, Bool.or_false]
      exact stepped_more hphase hcap htaken
        ⟨⟨hanswered.framing.trans hstart.framing, hanswered.stream.trans hstart.stream,
          hanswered.dataFits⟩, hanswered.invalidates.trans hstart.invalidates,
          hanswered.kind.trans hstart.kind⟩
    · refine .finished _ (((finishes_finishAnswer hanswered.dataFits).of_answered
        hanswered).of_answered hstart) hnotDone fun hok => ⟨hphase, status, data, hparse, hmore, ?_⟩
      by_contra hfailed
      rw [not_or, Bool.not_eq_true] at hfailed
      have hspecial : answered.specialSuccess = false := by
        rw [heq, ← hex]
        simp [hundecided, hfailed.2]
      have hstatus : answered.status ≠ dfcStatusOk := by
        rw [heq, ← hex]
        exact hfailed.1
      rw [finishAnswer, hspecial] at hok
      simp only [Bool.false_eq_true, false_and, if_false, and_true, if_pos hstatus] at hok
      exact cardError_status hok

variable (des aes) in
/-- What a step of a command can do. -/
theorem stepCommand_stepped (h : ex.Sound) (response : List UInt8) (cap : ℕ) :
    Stepped ex response cap (stepCommand des aes ex response cap) := by
  unfold stepCommand
  cases hphase : ex.phase with
  | done => exact .ended hphase
  | start =>
    simp only
    split_ifs with hlong
    · refine .finished _ (Holds.fail (holds_self h.dataFits) rfl) (by simp [hphase]) ?_
      simp [DfcReaderExchange.finishCommand]
    · exact stepped_emitCommandFrame h (.inl hphase)
  | commandFrames =>
    simp only
    split
    · refine .finished _ (Holds.fail (holds_self h.dataFits) rfl) (by simp [hphase]) ?_
      simp [DfcReaderExchange.finishCommand]
    · exact stepped_commandFrames h hphase _ _
  | response =>
    simp only
    split
    · refine .finished _ (Holds.fail (holds_self h.dataFits) rfl) (by simp [hphase]) ?_
      simp [DfcReaderExchange.finishCommand]
    · exact stepped_response h hphase (by assumption)

end

end DfcCore
