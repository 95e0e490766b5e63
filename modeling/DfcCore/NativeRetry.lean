import DfcCore.Aes
import DfcCore.CipherRetry
import DfcCore.TransactionMacRuns

/-!
# Retried commands under secure messaging

A data, record or value command during which the cipher fails while the operation is recorded
leaves the session, its chaining value, the accumulator and the contents of the card as they
were, and the frames of the command sent again give the answer and the card that they would
have given without the failure. This holds at every point of a run.
-/
namespace DfcCore
open Der

variable {des : BlockCipher 8} {aes : BlockCipher 16} {input : CommandInput}
  {card card' : NativeCard} {apdu frame : List UInt8} {outcome : Outcome}

theorem refuseCommand_commandChain (card : NativeCard) (cmd : UInt8) (preserve : Bool)
    (cache : DfcSdmReadCache) (r : Refusal) :
    (refuseCommand card cmd preserve cache r).card.commandChain = card.commandChain := by
  unfold refuseCommand
  split_ifs
  · rfl
  · rfl

theorem handleWholeCommand_commandChain
    (h : handleWholeCommand des aes input card apdu = some outcome) :
    outcome.card.commandChain = card.commandChain := by
  unfold handleWholeCommand at h
  split_ifs at h
  obtain ⟨handled, -, rfl⟩ := Option.map_eq_some_iff.1 h
  unfold settleCommand
  cases handled with
  | error r => exact refuseCommand_commandChain _ _ _ _ r
  | ok done =>
    dsimp only
    split
    · exact refuseCommand_commandChain _ _ _ _ _
    · rfl

/-- The card goes on gathering. -/
def gathering (card : NativeCard) (chain : CommandChain) : Outcome :=
  { card := { card with commandChain := some chain }, answer := [dfcCmdAdditionalFrame] }

/-- A further frame completes the command, is added to it, or is refused, whatever else the
card holds. -/
theorem continueCommandChain_cases (des : BlockCipher 8) (aes : BlockCipher 16)
    (chain : CommandChain) (frame : List UInt8) :
    (∃ octets, ∀ (input : CommandInput) (card : NativeCard),
      continueCommandChain des aes input card chain frame =
        handleWholeCommand des aes input { card with commandChain := none } octets) ∨
    (∃ chain', ∀ (input : CommandInput) (card : NativeCard),
      continueCommandChain des aes input card chain frame = some (gathering card chain')) ∨
    ∃ status, ∀ (input : CommandInput) (card : NativeCard),
      continueCommandChain des aes input card chain frame =
        some (refuseFrame { card with commandChain := none } frame status) := by
  unfold continueCommandChain
  dsimp only
  split_ifs with hcmd hlen hmore
  · exact .inr (.inr ⟨_, fun _ _ => rfl⟩)
  · exact .inr (.inr ⟨_, fun _ _ => rfl⟩)
  · exact .inr (.inl ⟨_, fun _ _ => rfl⟩)
  · exact .inl ⟨_, fun _ _ => rfl⟩

/-- Once a frame has ended the command, no further frame belongs to it. -/
theorem sendFrames_ended {next : List UInt8} {frames : List (List UInt8)}
    (h : ∀ outcome, handleFrame des aes input card frame = some outcome →
      outcome.card.commandChain = none) :
    sendFrames des aes input card (frame :: next :: frames) = none := by
  unfold sendFrames
  rw [Option.bind_eq_none_iff]
  intro outcome houtcome
  rw [h outcome houtcome]
  rfl

theorem sendFrames_gathering {next : List UInt8} {frames : List (List UInt8)}
    {chain : CommandChain}
    (h : handleFrame des aes input card frame = some (gathering card chain)) :
    sendFrames des aes input card (frame :: next :: frames) =
      sendFrames des aes input { card with commandChain := some chain } (next :: frames) := by
  conv_lhs => unfold sendFrames
  rw [h]
  rfl

/-- The further frames of a command come to the whole command, or do not meet the cipher. -/
theorem sendFrames_gathered (des : BlockCipher 8) (aes : BlockCipher 16) (chain : CommandChain)
    (frames : List (List UInt8)) :
    (∃ octets, ∀ (input : CommandInput) (card : NativeCard),
      sendFrames des aes input { card with commandChain := some chain } frames =
        handleWholeCommand des aes input { card with commandChain := none } octets) ∨
    ∀ (input input' : CommandInput) (card : NativeCard),
      sendFrames des aes input { card with commandChain := some chain } frames =
        sendFrames des aes input' { card with commandChain := some chain } frames := by
  induction frames generalizing chain with
  | nil => exact .inr fun _ _ _ => rfl
  | cons frame frames ih =>
    have hframe (input : CommandInput) (card : NativeCard) :
        handleFrame des aes input { card with commandChain := some chain } frame =
          continueCommandChain des aes input { card with commandChain := some chain } chain
            frame := rfl
    obtain ⟨octets, hwhole⟩ | ⟨chain', hmore⟩ | ⟨status, hrefused⟩ :=
      continueCommandChain_cases des aes chain frame
    · cases frames with
      | nil => exact .inl ⟨octets, fun input card => (hframe input card).trans (hwhole _ _)⟩
      | cons next frames =>
        refine .inr fun input input' card => ?_
        have hended (input : CommandInput) : sendFrames des aes input
            { card with commandChain := some chain } (frame :: next :: frames) = none :=
          sendFrames_ended fun outcome houtcome =>
            handleWholeCommand_commandChain ((hwhole _ _).symm.trans houtcome)
        rw [hended, hended]
    · cases frames with
      | nil =>
        refine .inr fun input input' card => ?_
        exact ((hframe input card).trans (hmore _ _)).trans
          ((hframe input' card).trans (hmore _ _)).symm
      | cons next frames =>
        have hsend (input : CommandInput) (card : NativeCard) : sendFrames des aes input
            { card with commandChain := some chain } (frame :: next :: frames) =
            sendFrames des aes input { card with commandChain := some chain' } (next :: frames) :=
          sendFrames_gathering ((hframe input card).trans (hmore _ _))
        simp only [hsend]
        exact ih chain'
    · refine .inr fun input input' card => ?_
      cases frames with
      | nil =>
        exact ((hframe input card).trans (hrefused _ _)).trans
          ((hframe input' card).trans (hrefused _ _)).symm
      | cons next frames =>
        have hended (input : CommandInput) : sendFrames des aes input
            { card with commandChain := some chain } (frame :: next :: frames) = none := by
          refine sendFrames_ended fun outcome houtcome => ?_
          obtain rfl := Option.some.inj ((hrefused _ _).symm.trans houtcome)
          exact refuseCommand_commandChain _ _ _ _ _
        rw [hended, hended]

/-- A card that takes the first frame of a command alike: whole, refused, or gathered. -/
structure SameFraming (input : CommandInput) (card : NativeCard) (input' : CommandInput)
    (card' : NativeCard) : Prop where
  commandChain : card'.commandChain = none
  workPending : card'.workPending = card.workPending
  begins : ∀ frame, beginOrRejectCommandChain input' card' frame =
    beginOrRejectCommandChain input card frame

/-- A first frame is the whole command, the first part of one, or does not meet the cipher. -/
theorem handleFrame_cases (des : BlockCipher 8) (aes : BlockCipher 16) (input : CommandInput)
    (card : NativeCard) (frame : List UInt8) :
    (∀ input' card', SameFraming input card input' card' →
      handleFrame des aes input' card' frame = handleWholeCommand des aes input' card' frame) ∨
    (∃ chain, ∀ input' card', SameFraming input card input' card' →
      handleFrame des aes input' card' frame = some (gathering card' chain)) ∨
    ∃ answer : NativeCard → Option Outcome, (∀ input' card', SameFraming input card input' card' →
      handleFrame des aes input' card' frame = answer card') ∧
      ∀ card' outcome, answer card' = some outcome →
        outcome.card.commandChain = card'.commandChain := by
  unfold handleFrame
  by_cases htransfer : isTransferCommand (dfcFileCommandBase (frame.getD 0 0)) = false
  · refine .inr (.inr ⟨fun _ => none, fun input' card' hsame => ?_, fun card' outcome h => ?_⟩)
    · rw [hsame.commandChain]
      dsimp only
      rw [if_pos htransfer]
    · cases h
  by_cases hpending : card.workPending = true
  · refine .inr (.inr ⟨fun card' =>
      some (refuseFrame (abortPendingNativeWork card') frame dfcStatusCommandAborted),
      fun input' card' hsame => ?_, fun card' outcome h => ?_⟩)
    · rw [hsame.commandChain]
      dsimp only
      rw [if_neg htransfer, hsame.workPending, if_pos hpending]
    · obtain rfl := Option.some.inj h
      exact refuseCommand_commandChain _ _ _ _ _
  have hstart {input' : CommandInput} {card' : NativeCard}
      (hsame : SameFraming input card input' card') {start : ChainStart}
      (h : beginOrRejectCommandChain input card frame = start) :
      beginOrRejectCommandChain input' card' frame = start := (hsame.begins frame).trans h
  cases h : beginOrRejectCommandChain input card frame with
  | whole =>
    refine .inl fun input' card' hsame => ?_
    rw [hsame.commandChain]
    dsimp only
    rw [if_neg htransfer, hsame.workPending, if_neg hpending, hstart hsame h]
  | begun chain =>
    refine .inr (.inl ⟨chain, fun input' card' hsame => ?_⟩)
    rw [hsame.commandChain]
    dsimp only
    rw [if_neg htransfer, hsame.workPending, if_neg hpending, hstart hsame h]
    rfl
  | refused status =>
    refine .inr (.inr ⟨fun card' => some (refuseFrame card' frame status),
      fun input' card' hsame => ?_, fun card' outcome houtcome => ?_⟩)
    · rw [hsame.commandChain]
      dsimp only
      rw [if_neg htransfer, hsame.workPending, if_neg hpending, hstart hsame h]
    · obtain rfl := Option.some.inj houtcome
      exact refuseCommand_commandChain _ _ _ _ _

/-- The frames of a command come to the whole command, or do not meet the cipher. -/
theorem sendFrames_cases (des : BlockCipher 8) (aes : BlockCipher 16) (input : CommandInput)
    (card : NativeCard) (frames : List (List UInt8)) :
    (∃ octets, ∀ input' card', SameFraming input card input' card' →
      sendFrames des aes input' card' frames = handleWholeCommand des aes input' card' octets) ∨
    ∀ input' input'' card', SameFraming input card input' card' →
      SameFraming input card input'' card' →
      sendFrames des aes input' card' frames = sendFrames des aes input'' card' frames := by
  cases frames with
  | nil => exact .inr fun _ _ _ _ _ => rfl
  | cons frame frames =>
    obtain hwhole | ⟨chain, hmore⟩ | ⟨answer, hsame, hended⟩ :=
      handleFrame_cases des aes input card frame
    · cases frames with
      | nil => exact .inl ⟨frame, hwhole⟩
      | cons next frames =>
        refine .inr fun input' input'' card' h' h'' => ?_
        have hended {input' : CommandInput} (h : SameFraming input card input' card') :
            sendFrames des aes input' card' (frame :: next :: frames) = none := by
          refine sendFrames_ended fun outcome houtcome => ?_
          rw [hwhole input' card' h] at houtcome
          exact (handleWholeCommand_commandChain houtcome).trans h.commandChain
        rw [hended h', hended h'']
    · cases frames with
      | nil => exact .inr fun _ _ _ h' h'' => (hmore _ _ h').trans (hmore _ _ h'').symm
      | cons next frames =>
        obtain ⟨octets, hoctets⟩ | hsame := sendFrames_gathered des aes chain (next :: frames)
        · refine .inl ⟨octets, fun input' card' h => ?_⟩
          rw [sendFrames_gathering (hmore input' card' h), hoctets]
          -- The card that has gathered and given up its chain is the card before the first frame.
          rw [← h.commandChain]
        · refine .inr fun input' input'' card' h' h'' => ?_
          rw [sendFrames_gathering (hmore input' card' h'),
            sendFrames_gathering (hmore input'' card' h'')]
          exact hsame input' input'' card'
    · refine .inr fun input' input'' card' h' h'' => ?_
      cases frames with
      | nil => exact (hsame _ _ h').trans (hsame _ _ h'').symm
      | cons next frames =>
        have hnone {input' : CommandInput} (h : SameFraming input card input' card') :
            sendFrames des aes input' card' (frame :: next :: frames) = none := by
          refine sendFrames_ended fun outcome houtcome => ?_
          rw [hsame input' card' h] at houtcome
          exact (hended card' outcome houtcome).trans h.commandChain
        rw [hnone h', hnone h'']

/-- Two states that secure messaging and the framing of a command do not tell apart. -/
structure SealsAlike (e e' : DfcEmulator) : Prop where
  find : ∀ apdu, commandFile e' apdu = commandFile e apdu
  comm : ∀ i access, dfcEmulatorFileEffectiveCommSettings e' (e'.credential.files i) access =
    dfcEmulatorFileEffectiveCommSettings e (e.credential.files i) access
  valueComm : ∀ i read write rw,
    fileEffectiveCommSettingsForRights e' (e'.credential.files i) read write rw =
      fileEffectiveCommSettingsForRights e (e.credential.files i) read write rw
  selectedApplication : e'.selectedApplication = e.selectedApplication
  ev2AuthenticatedKeyNo : e'.ev2AuthenticatedKeyNo = e.ev2AuthenticatedKeyNo
  pendingChain : e'.pendingChain = e.pendingChain
  pendingChainLast : e'.pendingChainLast = e.pendingChainLast

theorem withJournal_sealsAlike (e : DfcEmulator) (s : { s // JournalKept e.snapshot s }) :
    SealsAlike e (withJournal e s) :=
  ⟨fun _ => rfl, fun _ _ => rfl, fun _ _ _ _ => rfl, rfl, rfl, rfl, rfl⟩

theorem countRead_sealsAlike (i : ℕ) (e : DfcEmulator) (counter : UInt32) :
    SealsAlike e (countRead i e counter) where
  find apdu := countRead_findFile (apdu.getD 1 0)
  comm j access := countRead_view
    (f := fun file => dfcEmulatorFileEffectiveCommSettings e file access) (fun _ _ => rfl) j
  valueComm j read write rw := countRead_view
    (f := fun file => fileEffectiveCommSettingsForRights e file read write rw)
    (fun _ _ => rfl) j
  selectedApplication := rfl
  ev2AuthenticatedKeyNo := rfl
  pendingChain := rfl
  pendingChainLast := rfl

namespace SealsAlike
variable {e e' : DfcEmulator}

theorem commandComm (h : SealsAlike e e') (access : DfcFileAccess) :
    commandComm e' apdu (fun file => dfcEmulatorFileEffectiveCommSettings e' file access) =
      DfcCore.commandComm e apdu
        (fun file => dfcEmulatorFileEffectiveCommSettings e file access) := by
  unfold DfcCore.commandComm
  rw [h.find]
  cases DfcCore.commandFile e apdu with
  | none => rfl
  | some i => exact h.comm i access

theorem commandValueComm (h : SealsAlike e e') (read write rw : Bool) :
    DfcCore.commandComm e' apdu
        (fun file => fileEffectiveCommSettingsForRights e' file read write rw) =
      DfcCore.commandComm e apdu
        (fun file => fileEffectiveCommSettingsForRights e file read write rw) := by
  unfold DfcCore.commandComm
  rw [h.find]
  cases DfcCore.commandFile e apdu with
  | none => rfl
  | some i => exact h.valueComm i read write rw

theorem unsealCommand (h : SealsAlike e e') (sm : DfcSecureMessaging) :
    unsealCommand des aes e' sm apdu = unsealCommand des aes e sm apdu := by
  unfold DfcCore.unsealCommand
  dsimp only
  rw [h.commandComm .write, h.commandComm .readWrite, h.commandValueComm]

theorem chainedWriteExpectedLen (h : SealsAlike card.emulator card'.emulator)
    (hsm : card'.secureMessaging = card.secureMessaging) :
    chainedWriteExpectedLen card' frame = chainedWriteExpectedLen card frame := by
  unfold DfcCore.chainedWriteExpectedLen
  dsimp only
  simp only [h.selectedApplication, h.find, h.comm, h.ev2AuthenticatedKeyNo, hsm]

/-- The frames of a command are taken alike. -/
theorem sameFraming (h : SealsAlike card.emulator card'.emulator) {input' : CommandInput}
    (hsm : card'.secureMessaging = card.secureMessaging)
    (hinput : input'.chainAllocationFails = input.chainAllocationFails)
    (hchain : card'.commandChain = none)
    (hpending : card'.authenticationPending = card.authenticationPending)
    (hother : card'.otherWorkPending = card.otherWorkPending) :
    SameFraming input card input' card' where
  commandChain := hchain
  workPending := by
    unfold NativeCard.workPending
    rw [hpending, hother, h.pendingChain]
  begins frame := by
    unfold beginOrRejectCommandChain
    rw [h.chainedWriteExpectedLen hsm, h.ev2AuthenticatedKeyNo, hinput]

/-- The answer is protected and split alike, where a read shows zeros on both or on neither. -/
theorem emitAnswer (h : SealsAlike e e') {after : DfcEmulator} {sm : Option DfcSecureMessaging}
    {payload : List UInt8}
    (hzeros : dfcFileCommandBase (apdu.getD 0 0) = dfcCmdReadData →
      (commandFile e apdu).any (readsZeros e') = (commandFile e apdu).any (readsZeros e)) :
    emitAnswer des aes e' after sm apdu payload = emitAnswer des aes e after sm apdu payload := by
  unfold DfcCore.emitAnswer
  dsimp only
  rw [h.commandComm .read, h.commandValueComm, h.pendingChainLast, h.find]
  by_cases hread : dfcFileCommandBase (apdu.getD 0 0) = dfcCmdReadData
  · rw [hzeros hread]
  · rw [if_neg (c := _ ∧ _) fun hboth => hread hboth.1,
      if_neg (c := _ ∧ _) fun hboth => hread hboth.1]

end SealsAlike

/-- The rendering does not look into the journal. -/
theorem renderSdmReadInPlace_withJournal {e : DfcEmulator} {s : { s // JournalKept e.snapshot s }}
    (random : Option Mem) (cache : DfcSdmReadCache) (i : ℕ) (family : DfcSdmReadFamily) :
    renderSdmReadInPlace aes random (withJournal e s) cache i family =
      (fun rendered => ({ rendered.1 with snapshot := s.1 }, rendered.2)) <$>
        renderSdmReadInPlace aes random e cache i family := by
  unfold renderSdmReadInPlace
  dsimp only [withJournal]
  split_ifs
  · rfl
  · simp only [map_bind, map_pure]
    rfl

theorem renderForCommand_withJournal {s : { s // JournalKept card.emulator.snapshot s }} :
    renderForCommand aes input { card with emulator := withJournal card.emulator s } apdu =
      renderForCommand aes input card apdu := by
  unfold renderForCommand
  rw [(withJournal_sealsAlike card.emulator s).find]
  cases commandFile card.emulator apdu with
  | none => rfl
  | some i =>
    dsimp only
    unfold renderForRead
    rw [renderSdmReadInPlace_withJournal]
    cases renderSdmReadInPlace aes input.random card.emulator card.sdmReadCache i
      (if apdu.getD 0 0 = dfcCmdReadDataIso then .nativeIsoDep else .native) with
    | error status => rfl
    | ok rendered => rfl

theorem commandEnv_withJournal {s : { s // JournalKept card.emulator.snapshot s }} :
    commandEnv des aes input { card with emulator := withJournal card.emulator s } apdu =
      commandEnv des aes input card apdu := by
  unfold commandEnv
  dsimp only
  rw [renderForCommand_withJournal]
  simp only [(withJournal_sealsAlike card.emulator s).unsealCommand]

/-- A command that does not read data comes to the same end with more captured in the journal. -/
theorem settleCommand_withJournal {s : { s // JournalKept card.emulator.snapshot s }}
    (hcmd : dfcFileCommandBase (apdu.getD 0 0) ≠ dfcCmdReadData) (handled : Handled) :
    settleCommand des aes input { card with emulator := withJournal card.emulator s } apdu handled =
      settleCommand des aes input card apdu handled := by
  have halike := withJournal_sealsAlike card.emulator s
  unfold settleCommand
  rw [renderForCommand_withJournal]
  cases handled with
  | error r => rfl
  | ok done =>
    obtain ⟨e, payload⟩ := done
    dsimp only
    simp only [halike.unsealCommand]
    rw [halike.emitAnswer fun hread => absurd hread hcmd]
    rfl

/-- Either the copy was there, or the new one is of this file and family. -/
theorem renderSdmReadInPlace_matches {e rendered : DfcEmulator} {random : Option Mem}
    {cache cache' : DfcSdmReadCache} {i : ℕ} {family : DfcSdmReadFamily}
    (h : renderSdmReadInPlace aes random e cache i family = .ok (rendered, cache')) :
    rendered = e ∨ sdmReadCacheMatches cache' (e.credential.files i) family = true := by
  unfold renderSdmReadInPlace at h
  dsimp only at h
  split_ifs at h with hmatches
  · obtain ⟨rfl, rfl⟩ := Prod.mk.injEq .. ▸ Except.ok.inj h
    exact .inl rfl
  · simp only [bind_eq_ok, refuseIf_eq_ok, orFail_eq_ok, exists_const, pure_eq_ok,
      Prod.mk.injEq] at h
    obtain ⟨-, -, -, -, -, -, -, -, -, -, -, rfl⟩ := h
    refine .inr ?_
    unfold sdmReadCacheMatches
    simp only [beq_self_eq_true, Bool.and_self]

/-- A file that has been rendered is served from the copy. -/
theorem renderForRead_counted {e : DfcEmulator} {cache cache' : DfcSdmReadCache} {cmd : UInt8}
    {i : ℕ} {octets : Mem} {counter : UInt32}
    (h : renderForRead aes input e cache cmd i = (.rendered octets counter, cache'))
    (hcounted : counter ≠ (e.credential.files i).state.data.sdmReadCounter) :
    renderForRead aes input (countRead i e counter) cache' cmd i =
      (.rendered octets counter, cache') := by
  unfold renderForRead at h
  dsimp only at h
  split at h
  · cases congrArg Prod.fst h
  by_cases hpending : e.pendingChain ≠ []
  · rw [if_pos hpending] at h
    cases congrArg Prod.fst h
  rw [if_neg hpending] at h
  cases hinPlace : renderSdmReadInPlace aes input.random e cache i
    (if cmd = dfcCmdReadDataIso then .nativeIsoDep else .native) with
  | error status =>
    rw [hinPlace] at h
    cases status with
    | randomExhausted => cases congrArg Prod.fst h
    | failed => cases congrArg Prod.fst h
    | ok => cases congrArg Prod.fst h
  | ok both =>
    obtain ⟨rendered, copy⟩ := both
    rw [hinPlace] at h
    obtain ⟨hrendered, rfl⟩ := Prod.mk.injEq .. ▸ h
    obtain ⟨rfl, hcounter⟩ := SdmRender.rendered.injEq .. ▸ hrendered
    obtain rfl | hmatches := renderSdmReadInPlace_matches hinPlace
    · exact absurd hcounter.symm hcounted
    · have hvalid : copy.valid = true := by
        unfold sdmReadCacheMatches at hmatches
        simp only [Bool.and_eq_true] at hmatches
        exact hmatches.1.1
      have hfile := countRead_file_self i e counter
      have hserved : renderSdmReadInPlace aes input.random (countRead i e counter) copy i
          (if cmd = dfcCmdReadDataIso then .nativeIsoDep else .native) =
          .ok (countRead i e counter, copy) := by
        unfold renderSdmReadInPlace
        dsimp only
        rw [if_pos]
        rw [hfile]
        exact hmatches
      unfold renderForRead
      dsimp only
      have hsending : (countRead i e counter).pendingChain = e.pendingChain := rfl
      rw [if_neg (by simp [hvalid]), hsending, if_neg hpending, hserved]
      dsimp only
      rw [hfile]
      rfl

theorem renderForCommand_counted {i : ℕ} {octets : Mem} {counter : UInt32}
    (hfind : commandFile card.emulator apdu = some i)
    (hrender : (renderForCommand aes input card apdu).1 = .rendered octets counter)
    (hcounted : counter ≠ (card.emulator.credential.files i).state.data.sdmReadCounter) :
    renderForCommand aes input
      { card with
        emulator := countRead i card.emulator counter
        sdmReadCache := (renderForCommand aes input card apdu).2 } apdu =
      renderForCommand aes input card apdu := by
  have hread : renderForCommand aes input card apdu =
      renderForRead aes input card.emulator card.sdmReadCache (apdu.getD 0 0) i := by
    unfold renderForCommand
    rw [hfind]
  rw [hread] at hrender ⊢
  have heq : renderForRead aes input card.emulator card.sdmReadCache (apdu.getD 0 0) i =
      (.rendered octets counter,
        (renderForRead aes input card.emulator card.sdmReadCache (apdu.getD 0 0) i).2) :=
    Prod.ext hrender rfl
  unfold renderForCommand
  rw [(countRead_sealsAlike i card.emulator counter).find, hfind]
  exact (renderForRead_counted heq hcounted).trans heq.symm

section
variable {i : ℕ} {octets : Mem} {counter : UInt32}

/-- The card a read leaves that was rendered and counted. -/
def counted (aes : BlockCipher 16) (input : CommandInput) (card : NativeCard) (apdu : List UInt8)
    (i : ℕ) (counter : UInt32) : NativeCard :=
  { card with
    emulator := countRead i card.emulator counter
    sdmReadCache := (renderForCommand aes input card apdu).2 }

theorem commandEnv_counted (hfind : commandFile card.emulator apdu = some i)
    (hrender : (renderForCommand aes input card apdu).1 = .rendered octets counter)
    (hcounted : counter ≠ (card.emulator.credential.files i).state.data.sdmReadCounter) :
    commandEnv des aes input (counted aes input card apdu i counter) apdu =
      commandEnv des aes input card apdu := by
  unfold commandEnv counted
  dsimp only
  rw [renderForCommand_counted hfind hrender hcounted]
  simp only [(countRead_sealsAlike i card.emulator counter).unsealCommand]

/-- Either the command counts the file once more, or its copy is the cache already. -/
theorem cacheAfter_counted {e : DfcEmulator} (hfind : commandFile card.emulator apdu = some i)
    (hcounted : counter ≠ (card.emulator.credential.files i).state.data.sdmReadCounter)
    (hafter : (e.credential.files i).state.data.sdmReadCounter = counter)
    (cache rendered : DfcSdmReadCache) :
    cacheAfter (countRead i card.emulator counter) e apdu rendered rendered =
      cacheAfter card.emulator e apdu cache rendered := by
  unfold cacheAfter
  rw [(countRead_sealsAlike i card.emulator counter).find, hfind]
  dsimp only
  rw [ite_self, if_neg]
  rw [hafter]
  exact hcounted

/-- A rendered file is not one that shows zeros. -/
theorem readsZeros_rendered {e : DfcEmulator} (hfind : commandFile e apdu = some i)
    (hsdm : dfcFileSdmFlagIsSet (e.credential.files i) .enabled = true) :
    (commandFile e apdu).any (readsZeros e) = false := by
  rw [hfind, Option.any_some]
  unfold readsZeros
  rw [hsdm]
  rfl

/-- A read comes to the same end once its file has been rendered and counted. -/
theorem settleCommand_counted (hfind : commandFile card.emulator apdu = some i)
    (hsdm : dfcFileSdmFlagIsSet (card.emulator.credential.files i) .enabled = true)
    (hrender : (renderForCommand aes input card apdu).1 = .rendered octets counter)
    (hcounted : counter ≠ (card.emulator.credential.files i).state.data.sdmReadCounter)
    {handled : Handled}
    (hafter : Ensures (fun done => (done.1.credential.files i).state.data.sdmReadCounter = counter)
      (fun r => (r.emulator.credential.files i).state.data.sdmReadCounter = counter) handled) :
    settleCommand des aes input (counted aes input card apdu i counter) apdu handled =
      settleCommand des aes input card apdu handled := by
  have halike := countRead_sealsAlike i card.emulator counter
  have hagain := renderForCommand_counted hfind hrender hcounted
  unfold settleCommand counted
  rw [hagain]
  cases handled with
  | error r =>
    dsimp only
    rw [cacheAfter_counted hfind hcounted hafter card.sdmReadCache]
    rfl
  | ok done =>
    obtain ⟨e, payload⟩ := done
    dsimp only
    rw [cacheAfter_counted hfind hcounted hafter card.sdmReadCache]
    simp only [halike.unsealCommand]
    have hzeros : (commandFile card.emulator apdu).any
        (readsZeros (countRead i card.emulator counter)) =
        (commandFile card.emulator apdu).any (readsZeros card.emulator) := by
      rw [readsZeros_rendered hfind hsdm, ← halike.find]
      refine readsZeros_rendered ((halike.find apdu).trans hfind) ?_
      exact (countRead_view (f := (dfcFileSdmFlagIsSet · .enabled)) (fun _ _ => rfl) i).trans hsdm
    rw [halike.emitAnswer fun _ => hzeros]
    rfl

end

/-- All a failed command may leave behind: a file captured in the open journal, or the read
counter of a file that was rendered. Everything else of the emulator is as it was. -/
inductive Untouched (e : DfcEmulator) : DfcEmulator → Prop where
  | journal (s : { s // JournalKept e.snapshot s }) : Untouched e (withJournal e s)
  | counted {i : ℕ} (counter : UInt32) :
      dfcFileSdmFlagIsSet (e.credential.files i) .enabled = true →
      Untouched e (countRead i e counter)

theorem Untouched.same (e : DfcEmulator) : Untouched e e :=
  .journal ⟨e.snapshot, .refl _⟩

theorem Untouched.sealsAlike {e e' : DfcEmulator} (h : Untouched e e') : SealsAlike e e' := by
  cases h with
  | journal s => exact withJournal_sealsAlike e s
  | counted counter => exact countRead_sealsAlike _ e counter

theorem LeftBy.untouched {e e' : DfcEmulator} {env : CommandEnv} (h : LeftBy e env apdu e') :
    Untouched e e' := by
  cases h with
  | same => exact .same e
  | journal s => exact .journal s
  | counted _ _ hsdm => exact .counted _ hsdm

/-- A command that failed for a retry: the session and what is pending are as they were. -/
structure LeftUntouched (card : NativeCard) (failed : Outcome) : Prop where
  retryable : failed.retryable = true
  answer : failed.answer = [dfcStatusBoundaryError]
  card : ∃ e cache, Untouched card.emulator e ∧
    failed.card = { card with emulator := e, sdmReadCache := cache }

theorem cacheAfter_same {e e' : DfcEmulator} (cache rendered : DfcSdmReadCache)
    (h : ∀ i, (e'.credential.files i).state.data.sdmReadCounter =
      (e.credential.files i).state.data.sdmReadCounter) :
    cacheAfter e e' apdu cache rendered = cache := by
  unfold cacheAfter
  cases commandFile e apdu with
  | none => rfl
  | some i => exact if_pos (h i)

/-- The command as its handler meets it under a working cipher. -/
def workingEnv (des : BlockCipher 8) (aes : BlockCipher 16) (input : CommandInput)
    (card : NativeCard) (apdu : List UInt8) : CommandEnv :=
  { commandEnv des aes input card apdu with cipherFails := false }

theorem handleWholeCommand_congr
    (henv : commandEnv des aes input card' apdu = commandEnv des aes input card apdu)
    (hdispatch : dispatchFileCommand aes.encrypt card'.emulator (workingEnv des aes input card apdu)
        apdu =
      dispatchFileCommand aes.encrypt card.emulator (workingEnv des aes input card apdu) apdu)
    (hsettle : ∀ handled, dispatchFileCommand aes.encrypt card.emulator
        (workingEnv des aes input card apdu) apdu = some handled →
      settleCommand des aes input card' apdu handled =
        settleCommand des aes input card apdu handled) :
    handleWholeCommand des aes { input with transactionMacFails := false } card' apdu =
      handleWholeCommand des aes { input with transactionMacFails := false } card apdu := by
  unfold handleWholeCommand
  split_ifs
  · change (dispatchFileCommand aes.encrypt card'.emulator
        { commandEnv des aes input card' apdu with cipherFails := false } apdu).map
          (settleCommand des aes input card' apdu) =
      (dispatchFileCommand aes.encrypt card.emulator (workingEnv des aes input card apdu) apdu).map
          (settleCommand des aes input card apdu)
    rw [henv]
    change (dispatchFileCommand aes.encrypt card'.emulator (workingEnv des aes input card apdu)
      apdu).map _ = _
    rw [hdispatch]
    cases hhandled : dispatchFileCommand aes.encrypt card.emulator
      (workingEnv des aes input card apdu) apdu with
    | none => rfl
    | some handled => exact congrArg some (hsettle handled hhandled)
  · rfl

/-- The card a failed command leaves: the copy of a rendered file is kept once it is counted. -/
def failedCard (aes : BlockCipher 16) (input : CommandInput) (card : NativeCard)
    (apdu : List UInt8) (e' : DfcEmulator) : NativeCard :=
  { card with
    emulator := e'
    sdmReadCache := cacheAfter card.emulator e' apdu card.sdmReadCache
      (renderForCommand aes input card apdu).2 }

theorem failedCard_same {e' : DfcEmulator}
    (h : ∀ i, (e'.credential.files i).state.data.sdmReadCounter =
      (card.emulator.credential.files i).state.data.sdmReadCounter) :
    failedCard aes input card apdu e' = { card with emulator := e' } := by
  unfold failedCard
  rw [cacheAfter_same _ _ h]

theorem failedCard_counted {i : ℕ} {counter : UInt32}
    (hfind : commandFile card.emulator apdu = some i)
    (hcounted : counter ≠ (card.emulator.credential.files i).state.data.sdmReadCounter) :
    failedCard aes input card apdu (countRead i card.emulator counter) =
      counted aes input card apdu i counter := by
  have hafter : ((countRead i card.emulator counter).credential.files
      i).state.data.sdmReadCounter = counter := by
    rw [countRead_file_self]
    rfl
  unfold failedCard counted cacheAfter
  rw [hfind]
  dsimp only
  rw [hafter, if_neg hcounted]

/-- Sent again to the card it failed on, a command does what it would have done. -/
theorem handleWholeCommand_again {e' : DfcEmulator}
    (hleft : LeftBy card.emulator (commandEnv des aes input card apdu) apdu e')
    (hagain : dispatchFileCommand aes.encrypt e' (workingEnv des aes input card apdu) apdu =
      dispatchFileCommand aes.encrypt card.emulator (workingEnv des aes input card apdu) apdu) :
    handleWholeCommand des aes { input with transactionMacFails := false }
        (failedCard aes input card apdu e') apdu =
      handleWholeCommand des aes { input with transactionMacFails := false } card apdu := by
  cases hleft with
  | same => rw [failedCard_same fun _ => rfl]
  | journal s hcmd =>
    have hsame : failedCard aes input card apdu (withJournal card.emulator s) =
        { card with emulator := withJournal card.emulator s } := failedCard_same fun _ => rfl
    rw [hsame]
    exact handleWholeCommand_congr commandEnv_withJournal hagain fun handled _ =>
      settleCommand_withJournal hcmd handled
  | @counted i cache counter hcmd hfind hsdm hrender =>
    have hrender' : (renderForCommand aes input card apdu).1 = .rendered cache counter := by
      unfold commandEnv at hrender
      dsimp only at hrender
      rw [if_pos hcmd] at hrender
      exact hrender
    by_cases hcounted : counter = (card.emulator.credential.files i).state.data.sdmReadCounter
    · -- The copy was there already: nothing has changed.
      have hsame : countRead i card.emulator counter = card.emulator := by
        rw [hcounted]
        unfold countRead DfcEmulator.mapCredential
        dsimp only
        rw [modifyFile_self rfl]
      rw [hsame, failedCard_same fun _ => rfl]
    · rw [failedCard_counted hfind hcounted]
      refine handleWholeCommand_congr (commandEnv_counted hfind hrender' hcounted) hagain ?_
      intro handled hhandled
      refine settleCommand_counted hfind hsdm hrender' hcounted ?_
      have hne : apdu ≠ [] := by
        rintro rfl
        cases hhandled
      rw [← hagain, dispatch_readData hne hcmd] at hhandled
      obtain rfl := Option.some.inj hhandled
      have halike := countRead_sealsAlike i card.emulator counter
      refine readData_counter aes.encrypt ((halike.find apdu).trans hfind) ?_ _ hrender rfl ?_
      · exact (countRead_view (f := (dfcFileSdmFlagIsSet · .enabled)) (fun _ _ => rfl) i).trans hsdm
      · rw [countRead_file_self]
        rfl

/-- A whole command under a failing cipher: it ends as under a working one, or it is left to be
sent again and then ends so. -/
theorem handleWholeCommand_reruns (h : JournalSettled card.emulator) {failed : Outcome}
    (hrun : handleWholeCommand des aes { input with transactionMacFails := true } card apdu =
      some failed) :
    handleWholeCommand des aes { input with transactionMacFails := false } card apdu =
        some failed ∨
      LeftUntouched card failed ∧
        handleWholeCommand des aes { input with transactionMacFails := false } failed.card apdu =
          handleWholeCommand des aes { input with transactionMacFails := false } card apdu := by
  have htransfer : isTransferCommand (dfcFileCommandBase (apdu.getD 0 0)) = true := by
    unfold handleWholeCommand at hrun
    by_contra hother
    rw [if_neg hother] at hrun
    cases hrun
  have hsettle : (dispatchFileCommand aes.encrypt card.emulator
      { commandEnv des aes input card apdu with cipherFails := true } apdu).map
        (settleCommand des aes input card apdu) = some failed := by
    unfold handleWholeCommand at hrun
    rw [if_pos htransfer] at hrun
    exact hrun
  have hreruns : DispatchReruns aes.encrypt card.emulator (commandEnv des aes input card apdu)
      apdu := dispatch_reruns h htransfer
  obtain hsame | ⟨e', hleft, hfailing, hagain⟩ := hreruns
  · left
    rw [hsame] at hsettle
    unfold handleWholeCommand
    rw [if_pos htransfer]
    exact hsettle
  · right
    rw [hfailing] at hsettle
    obtain rfl := Option.some.inj hsettle
    refine ⟨⟨rfl, rfl, e', _, hleft.untouched, rfl⟩, ?_⟩
    exact handleWholeCommand_again hleft hagain

theorem JournalSettled.refuseCommand {cmd : UInt8} {preserve : Bool} {cache : DfcSdmReadCache}
    {r : Refusal} (h : JournalSettled r.emulator) :
    JournalSettled (refuseCommand card cmd preserve cache r).card.emulator := by
  unfold DfcCore.refuseCommand
  split_ifs
  · exact h
  · refine JournalSettled.finalizeNative ?_ preserve
    split_ifs
    · exact h.resetSession
    · exact h

/-- An answer that leaves the contents and the journal of the emulator alone. -/
def LeavesJournal (e : DfcEmulator) (answer : Except EmissionFailure Emitted) : Prop :=
  Ensures (fun emitted => emitted.emulator.credential = e.credential ∧
    emitted.emulator.snapshot = e.snapshot) (fun _ => True) answer

theorem splitAnswer_leavesJournal {e : DfcEmulator} {cmd : UInt8} {isoTransport secured : Bool}
    {octets : List UInt8} {session : Option DfcSecureMessaging} :
    LeavesJournal e (splitAnswer e cmd isoTransport octets secured session) := by
  refine .ite (fun _ => .ite (fun _ => ?_) fun _ => ?_) fun _ => ?_
  · exact .ite (fun _ => trivial) fun _ => ⟨rfl, rfl⟩
  · exact .ite (fun _ => trivial) fun _ => ⟨rfl, rfl⟩
  · exact .ite (fun _ => ⟨rfl, rfl⟩) fun _ => ⟨rfl, rfl⟩

theorem emitRead_leavesJournal {e : DfcEmulator} {sm : Option DfcSecureMessaging}
    {cmd comm : UInt8} {isoTransport lengthUnknown : Bool} {payload : List UInt8} :
    LeavesJournal e (emitRead des aes e sm cmd comm isoTransport payload lengthUnknown) := by
  unfold emitRead
  cases secureAnswer des aes sm cmd comm payload lengthUnknown with
  | error failure => trivial
  | ok secured => exact splitAnswer_leavesJournal

theorem emitAnswer_leavesJournal {before e : DfcEmulator} {sm : Option DfcSecureMessaging}
    {payload : List UInt8} : LeavesJournal e (emitAnswer des aes before e sm apdu payload) := by
  refine .ite (fun _ => .ite (fun _ => ?_) fun _ => emitRead_leavesJournal) fun _ => ?_
  · refine .ite (fun _ => emitRead_leavesJournal) fun _ => ?_
    exact .ite (fun _ => trivial) fun _ => ⟨rfl, rfl⟩
  · refine .ite (fun _ => ?_) fun _ => ⟨rfl, rfl⟩
    cases sm with
    | none => exact ⟨rfl, rfl⟩
    | some sm =>
      exact .ite (fun _ => .ite (fun _ => trivial) fun _ => ⟨rfl, rfl⟩) fun _ => ⟨rfl, rfl⟩

theorem applyEv1ResponseSecureMessaging_emulator (cmd : UInt8) (emitted : Emitted) :
    (applyEv1ResponseSecureMessaging des aes cmd emitted).emulator = emitted.emulator := by
  unfold applyEv1ResponseSecureMessaging
  split
  · rfl
  · split_ifs
    · rfl
    · rfl

theorem JournalSettled.wholeCommand (h : JournalSettled card.emulator)
    (hrun : handleWholeCommand des aes input card apdu = some outcome) :
    JournalSettled outcome.card.emulator := by
  unfold handleWholeCommand at hrun
  split_ifs at hrun
  obtain ⟨handled, hdispatch, rfl⟩ := Option.map_eq_some_iff.1 hrun
  cases handled with
  | error r => exact (h.left (dispatchFileCommand_refused hdispatch).1).refuseCommand
  | ok done =>
    obtain ⟨e, payload⟩ := done
    have hdone := h.accepted (dispatchFileCommand_ok hdispatch)
    unfold settleCommand
    dsimp only
    split
    next failure _ =>
      refine JournalSettled.refuseCommand ?_
      cases failure with
      | boundary => exact hdone
      | cipher => exact hdone.resetSession
    next emitted hemit =>
      obtain ⟨hcredential, hsnapshot⟩ := emitAnswer_leavesJournal.of_ok hemit
      dsimp only
      rw [applyEv1ResponseSecureMessaging_emulator]
      refine hdone.sameMarks (hsnapshot ▸ .refl _) ?_
      rw [hcredential]

theorem JournalSettled.nativeFrame (h : JournalSettled card.emulator)
    (hrun : handleFrame des aes input card frame = some outcome) :
    JournalSettled outcome.card.emulator := by
  unfold handleFrame at hrun
  split at hrun
  · unfold continueCommandChain at hrun
    dsimp only at hrun
    split_ifs at hrun
    · obtain rfl := Option.some.inj hrun
      exact JournalSettled.refuseCommand h
    · obtain rfl := Option.some.inj hrun
      exact JournalSettled.refuseCommand h
    · obtain rfl := Option.some.inj hrun
      exact h
    · have hdiscarded :
          JournalSettled ({ card with commandChain := none } : NativeCard).emulator := h
      exact hdiscarded.wholeCommand hrun
  · split_ifs at hrun
    · obtain rfl := Option.some.inj hrun
      refine JournalSettled.refuseCommand ?_
      have hcleared : JournalSettled (dfcEmulatorCommandClearPendingChain card.emulator) :=
        h.sameMarks (.refl _) rfl
      unfold abortPendingNativeWork DfcEmulator.refuse
      dsimp only
      split_ifs
      · exact hcleared.clearActiveAuthentication
      · exact hcleared
    · split at hrun
      · obtain rfl := Option.some.inj hrun
        exact JournalSettled.refuseCommand h
      · obtain rfl := Option.some.inj hrun
        exact h
      · exact h.wholeCommand hrun

/-- One step of the card: a frame of a data, record or value command, or anything else that
happens to the emulator. -/
inductive NativeStep (des : BlockCipher 8) (aes : BlockCipher 16) : NativeCard → NativeCard → Prop
    where
  | frame {input : CommandInput} {card : NativeCard} {frame : List UInt8} {outcome : Outcome}
      (h : handleFrame des aes input card frame = some outcome) :
      NativeStep des aes card outcome.card
  | other {card card' : NativeCard} (h : JournalStep aes.encrypt card.emulator card'.emulator) :
      NativeStep des aes card card'

def NativeRun (des : BlockCipher 8) (aes : BlockCipher 16) : NativeCard → NativeCard → Prop :=
  Relation.ReflTransGen (NativeStep des aes)

theorem JournalSettled.nativeRun {start : NativeCard} (hon : SwitchedOn start.emulator)
    (hrun : NativeRun des aes start card) : JournalSettled card.emulator := by
  induction hrun with
  | refl => exact .of_idle hon.snapshot hon.count hon.files
  | tail _ hstep ih =>
    cases hstep with
    | frame h => exact ih.nativeFrame h
    | other h => exact ih.step h

/-- At every point of a run and for every command on file contents, whole or in several frames:
a cipher that fails while the operation is recorded is not met, or the command is left to be
sent again. The card then keeps its contents, journal notes, accumulator, session and chaining
value, and the command sent again under a working cipher ends as it would have ended. -/
theorem transactionMacFailure_harmless {start : NativeCard} (hon : SwitchedOn start.emulator)
    (hrun : NativeRun des aes start card) (hidle : card.commandChain = none)
    (input : CommandInput) (frames : List (List UInt8)) {failed : Outcome}
    (hfailed : sendFrames des aes { input with transactionMacFails := true } card frames =
      some failed) :
    sendFrames des aes { input with transactionMacFails := false } card frames = some failed ∨
      LeftUntouched card failed ∧
        sendFrames des aes { input with transactionMacFails := false } failed.card frames =
          sendFrames des aes { input with transactionMacFails := false } card frames := by
  have hsettled := JournalSettled.nativeRun hon hrun
  have hframing (fails : Bool) : SameFraming { input with transactionMacFails := true } card
      { input with transactionMacFails := fails } card :=
    ⟨hidle, rfl, fun _ => rfl⟩
  obtain ⟨octets, hwhole⟩ | hsame :=
    sendFrames_cases des aes { input with transactionMacFails := true } card frames
  · rw [hwhole _ _ (hframing true)] at hfailed
    rw [hwhole _ _ (hframing false)]
    obtain hunmet | ⟨hleft, hagain⟩ := handleWholeCommand_reruns hsettled hfailed
    · exact .inl hunmet
    · refine .inr ⟨hleft, ?_⟩
      obtain ⟨e, cache, huntouched, hcard⟩ := hleft.card
      rw [hwhole, hagain]
      rw [hcard]
      exact huntouched.sealsAlike.sameFraming rfl rfl hidle rfl rfl
  · exact .inl ((hsame _ _ card (hframing false) (hframing true)).trans hfailed)

/-- A card with a value file and a transaction MAC file, under an EV1 session. -/
def sessionCard : NativeCard :=
  { emulator := { macCard with nativeSession := some { keyNo := 0, cipher := 0xAA } }
    secureMessaging := some
      { cipher := .aes, sessionKey := List.replicate 16 0x5A, iv := List.replicate 16 0x01
        pcd := false, keyLength := rfl, ivLength := rfl } }

theorem transactionMacFailure_harmless_getValue :
    ∃ failed, sendFrames (identityCipher 8) Aes.aesCipher { transactionMacFails := true }
      sessionCard
        [[dfcCmdGetValue, 0x01]] = some failed ∧
      LeftUntouched sessionCard failed ∧
      sendFrames (identityCipher 8) Aes.aesCipher {} failed.card [[dfcCmdGetValue, 0x01]] =
        sendFrames (identityCipher 8) Aes.aesCipher {} sessionCard [[dfcCmdGetValue, 0x01]] := by
  have hworks : (sendFrames (identityCipher 8) Aes.aesCipher {} sessionCard
      [[dfcCmdGetValue, 0x01]]).map Outcome.retryable = some false := by decide +kernel
  have hmet : (sendFrames (identityCipher 8) Aes.aesCipher { transactionMacFails := true }
      sessionCard [[dfcCmdGetValue, 0x01]]).map Outcome.retryable = some true := by decide +kernel
  obtain ⟨failed, hfailed, hretryable⟩ := Option.map_eq_some_iff.1 hmet
  have hon : SwitchedOn sessionCard.emulator :=
    ⟨rfl, by decide, fun i _ => by cases i <;> rfl⟩
  refine ⟨failed, hfailed, ?_⟩
  obtain hunmet | hleft := transactionMacFailure_harmless hon .refl rfl {}
    [[dfcCmdGetValue, 0x01]] hfailed
  · rw [hunmet, Option.map_some, hretryable] at hworks
    cases hworks
  · exact hleft

end DfcCore
