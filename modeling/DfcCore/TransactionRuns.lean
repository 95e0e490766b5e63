import DfcCore.CommandRefusals
import Mathlib.Logic.Relation

/-!
# Runs of commands

The system the commands drive: an emulator that is sent commands one after the other, in any
order and with any outcome of what lies outside the card image, with the record a reader keeps
of it. The reader notes every operation the card accepted, empties its notes when the
transaction is over, and files them when it was committed.
-/
namespace DfcCore
open Der

section
variable (aes : List UInt8 → List UInt8 → List UInt8) (e : DfcEmulator) (env : CommandEnv)
  (apdu : List UInt8)

/-- The handler an accepted command went to. -/
inductive AcceptedBy (e' : DfcEmulator) (payload : List UInt8) : Prop where
  | readData (hcmd : dfcFileCommandBase (apdu.getD 0 0) = dfcCmdReadData)
      (h : dfcEmulatorCommandReadData aes e env apdu = .ok (e', payload))
  | writeData (hcmd : dfcFileCommandBase (apdu.getD 0 0) = dfcCmdWriteData)
      (h : dfcEmulatorCommandWriteData aes e env apdu = .ok (e', payload))
  | readRecords (hcmd : dfcFileCommandBase (apdu.getD 0 0) = dfcCmdReadRecords)
      (h : handleReadRecords aes e env apdu = .ok (e', payload))
  | writeRecord (hcmd : dfcFileCommandBase (apdu.getD 0 0) = dfcCmdWriteRecord)
      (h : dfcEmulatorCommandWriteRecord aes e env apdu = .ok (e', payload))
  | updateRecord (hcmd : dfcFileCommandBase (apdu.getD 0 0) = dfcCmdUpdateRecord)
      (h : dfcEmulatorCommandUpdateRecord aes e env apdu = .ok (e', payload))
  | clearRecordFile (hcmd : dfcFileCommandBase (apdu.getD 0 0) = dfcCmdClearRecordFile)
      (h : dfcEmulatorCommandClearRecordFile aes e env apdu = .ok (e', payload))
  | getValue (hcmd : dfcFileCommandBase (apdu.getD 0 0) = dfcCmdGetValue)
      (h : dfcEmulatorCommandGetValue aes e env apdu = .ok (e', payload))
  | valueDelta (hcmd : dfcFileCommandBase (apdu.getD 0 0) = dfcCmdCredit ∨
        dfcFileCommandBase (apdu.getD 0 0) = dfcCmdLimitedCredit ∨
        dfcFileCommandBase (apdu.getD 0 0) = dfcCmdDebit)
      (h : dfcEmulatorCommandValueDelta aes e env apdu (dfcFileCommandBase (apdu.getD 0 0))
        (dfcFileCommandBase (apdu.getD 0 0) == dfcCmdDebit)
        (dfcFileCommandBase (apdu.getD 0 0) == dfcCmdLimitedCredit) = .ok (e', payload))
  | commit (hcmd : dfcFileCommandBase (apdu.getD 0 0) = dfcCmdCommitTransaction)
      (h : commitTransaction aes e env apdu = .ok (e', payload))
  | commitReaderId (hcmd : dfcFileCommandBase (apdu.getD 0 0) = dfcCmdCommitReaderId)
      (h : dfcEmulatorCommandCommitReaderId aes e env apdu = .ok (e', payload))
  | abort (hcmd : dfcFileCommandBase (apdu.getD 0 0) = dfcCmdAbortTransaction)
      (h : dfcEmulatorCommandAbortTransaction e apdu = .ok (e', payload))
  | deleteFile (hcmd : dfcFileCommandBase (apdu.getD 0 0) = dfcCmdDeleteFile)
      (h : dfcEmulatorCommandDeleteFile e apdu = .ok (e', payload))
  | createTransactionMacFile
      (hcmd : dfcFileCommandBase (apdu.getD 0 0) = dfcCmdCreateTransactionMacFile)
      (h : dfcEmulatorCommandCreateTransactionMacFile e apdu = .ok (e', payload))
  | create {type : UInt8} (htype : type ≠ dfcFileTypeTransactionMac)
      (hcmd : dfcFileCommandBase (apdu.getD 0 0) ∈ [dfcCmdCreateStdDataFile,
        dfcCmdCreateBackupDataFile, dfcCmdCreateLinearRecordFile, dfcCmdCreateCyclicRecordFile,
        dfcCmdCreateValueFile])
      (h : MayCreate e type e')
  | settings (hcmd : dfcFileCommandBase (apdu.getD 0 0) = dfcCmdGetFileSettings) (h : e' = e)

end

variable {aes : List UInt8 → List UInt8 → List UInt8} {e e' : DfcEmulator} {env : CommandEnv}
  {apdu payload : List UInt8}

/-- A chain of conditions is read one at a time. -/
theorem of_ite_eq {α : Type} {p P : Prop} [Decidable p] {x y z : α} (hx : p → x = z → P)
    (hy : ¬p → y = z → P) (h : (if p then x else y) = z) : P := by
  split_ifs at h with hp
  · exact hx hp h
  · exact hy hp h

theorem dispatchFileCommand_ok
    (h : dispatchFileCommand aes e env apdu = some (.ok (e', payload))) :
    AcceptedBy aes e env apdu e' payload := by
  -- The registry is walked once, from its first entry to its last.
  revert h
  unfold dispatchFileCommand
  refine of_ite_eq (fun _ h => by cases h) fun _ => ?_
  refine of_ite_eq (fun hcmd h => .readData hcmd (Option.some.inj h)) fun _ => ?_
  refine of_ite_eq (fun hcmd h => .writeData hcmd (Option.some.inj h)) fun _ => ?_
  refine of_ite_eq (fun hcmd h => .readRecords hcmd (Option.some.inj h)) fun _ => ?_
  refine of_ite_eq (fun hcmd h => .writeRecord hcmd (Option.some.inj h)) fun _ => ?_
  refine of_ite_eq (fun hcmd h => .updateRecord hcmd (Option.some.inj h)) fun _ => ?_
  refine of_ite_eq (fun hcmd h => .clearRecordFile hcmd (Option.some.inj h)) fun _ => ?_
  refine of_ite_eq (fun hcmd h => .getValue hcmd (Option.some.inj h)) fun _ => ?_
  refine of_ite_eq (fun hcmd h => .valueDelta hcmd (Option.some.inj h)) fun _ => ?_
  refine of_ite_eq (fun hcmd h => .commit hcmd (Option.some.inj h)) fun _ => ?_
  refine of_ite_eq (fun hcmd h => .commitReaderId hcmd (Option.some.inj h)) fun _ => ?_
  refine of_ite_eq (fun hcmd h => .abort hcmd (Option.some.inj h)) fun _ => ?_
  refine of_ite_eq (fun hcmd h => .deleteFile hcmd (Option.some.inj h)) fun _ => ?_
  refine of_ite_eq (fun hcmd h => .createTransactionMacFile hcmd (Option.some.inj h)) fun _ => ?_
  have hcreate {r : Answer} {type : UInt8} (htype : type ≠ dfcFileTypeTransactionMac)
      (hmay : MayCreate e type r.1) (hcmd : dfcFileCommandBase (apdu.getD 0 0) ∈
        [dfcCmdCreateStdDataFile, dfcCmdCreateBackupDataFile, dfcCmdCreateLinearRecordFile,
          dfcCmdCreateCyclicRecordFile, dfcCmdCreateValueFile])
      (h : some (Handled.ofAnswer r) = some (.ok (e', payload))) :
      AcceptedBy aes e env apdu e' payload := by
    rw [← Handled.ofAnswer_ok (Option.some.inj h)] at hmay
    exact .create htype hcmd hmay
  refine of_ite_eq (fun hcmd h => hcreate (by decide) (createStdDataFile_mayCreate e apdu _)
    (by rw [hcmd]; decide) h) fun _ => ?_
  refine of_ite_eq (fun hcmd h => hcreate (by decide) (createStdDataFile_mayCreate e apdu _)
    (by rw [hcmd]; decide) h) fun _ => ?_
  refine of_ite_eq (fun hcmd h => hcreate (by decide) (createRecordFile_mayCreate e apdu _)
    (by rw [hcmd]; decide) h) fun _ => ?_
  refine of_ite_eq (fun hcmd h => hcreate (by decide) (createRecordFile_mayCreate e apdu _)
    (by rw [hcmd]; decide) h) fun _ => ?_
  refine of_ite_eq (fun hcmd h => hcreate (by decide) (createValueFile_mayCreate e apdu)
    (by rw [hcmd]; decide) h) fun _ => ?_
  refine of_ite_eq (fun hcmd h => .settings hcmd ?_) fun _ h => by cases h
  rw [Handled.ofAnswer_ok (Option.some.inj h), getFileSettings_state]

/-- What a command that creates a file answers, and the type of the file. -/
inductive FileCreation (e : DfcEmulator) (apdu : List UInt8) : UInt8 → Answer → Prop where
  | data {type : UInt8} (h : type = dfcFileTypeStandardData ∨ type = dfcFileTypeBackupData) :
      FileCreation e apdu type (dfcEmulatorCommandCreateStdDataFile e apdu type)
  | record {type : UInt8} (h : type = dfcFileTypeLinearRecord ∨ type = dfcFileTypeCyclicRecord) :
      FileCreation e apdu type (dfcEmulatorCommandCreateRecordFile e apdu type)
  | value : FileCreation e apdu dfcFileTypeValue (dfcEmulatorCommandCreateValueFile e apdu)

theorem FileCreation.mayCreate {type : UInt8} {a : Answer} (h : FileCreation e apdu type a) :
    type ≠ dfcFileTypeTransactionMac ∧ MayCreate e type a.1 := by
  cases h with
  | data htype =>
    refine ⟨?_, createStdDataFile_mayCreate e apdu _⟩
    obtain rfl | rfl := htype <;> decide
  | record htype =>
    refine ⟨?_, createRecordFile_mayCreate e apdu _⟩
    obtain rfl | rfl := htype <;> decide
  | value => exact ⟨by decide, createValueFile_mayCreate e apdu⟩

theorem dispatchFileCommand_refusedTo {retry left : DfcEmulator → Prop} {r : Refusal}
    (hstates : RefusalStates aes e retry left)
    (hcreate : ∀ type a, FileCreation e apdu type a → Handled.ofAnswer a = .error r → left a.1)
    (h : dispatchFileCommand aes e env apdu = some (.error r)) : RefusedTo retry left r := by
  have hof {x : Handled} (hx : Checks retry left x) (heq : some x = some (.error r)) :
      RefusedTo retry left r := by
    rw [Option.some.inj heq] at hx
    exact hx
  have hcreated {a : Answer} {type : UInt8} (ha : FileCreation e apdu type a)
      (heq : some (Handled.ofAnswer a) = some (.error r)) : RefusedTo retry left r := by
    exact hof (checks_ofAnswer (hcreate type a ha (Option.some.inj heq))) heq
  revert h
  unfold dispatchFileCommand
  refine of_ite_eq (fun _ h => by cases h) fun _ => ?_
  refine of_ite_eq (fun _ => hof (checks_readData hstates env apdu)) fun _ => ?_
  refine of_ite_eq (fun _ => hof (checks_writeData hstates env apdu)) fun _ => ?_
  refine of_ite_eq (fun _ => hof (checks_readRecords hstates env apdu)) fun _ => ?_
  refine of_ite_eq (fun _ => hof (checks_writeRecord hstates env apdu)) fun _ => ?_
  refine of_ite_eq (fun _ => hof (checks_updateRecord hstates env apdu)) fun _ => ?_
  refine of_ite_eq (fun _ => hof (checks_clearRecordFile hstates env apdu)) fun _ => ?_
  refine of_ite_eq (fun _ => hof (checks_getValue hstates env apdu)) fun _ => ?_
  refine of_ite_eq (fun _ => hof (checks_valueDelta hstates env apdu _ _ _)) fun _ => ?_
  refine of_ite_eq (fun _ => hof (checks_commitTransaction hstates env apdu)) fun _ => ?_
  refine of_ite_eq (fun _ => hof (checks_commitReaderId hstates env apdu)) fun _ => ?_
  refine of_ite_eq (fun _ => hof (checks_abortTransaction hstates apdu)) fun _ => ?_
  refine of_ite_eq (fun _ h => (deleteFile_refused (Option.some.inj h)).refusedTo hstates)
    fun _ => ?_
  refine of_ite_eq (fun _ h =>
    (createTransactionMacFile_refused (Option.some.inj h)).refusedTo hstates) fun _ => ?_
  refine of_ite_eq (fun _ => hcreated (.data (.inl rfl))) fun _ => ?_
  refine of_ite_eq (fun _ => hcreated (.data (.inr rfl))) fun _ => ?_
  refine of_ite_eq (fun _ => hcreated (.record (.inl rfl))) fun _ => ?_
  refine of_ite_eq (fun _ => hcreated (.record (.inr rfl))) fun _ => ?_
  refine of_ite_eq (fun _ => hcreated .value) fun _ => ?_
  refine of_ite_eq (fun _ => hof (checks_ofAnswer ?_)) fun _ h => by cases h
  rw [getFileSettings_state]
  exact hstates.ofRetry hstates.same

theorem dispatchFileCommand_refused {r : Refusal}
    (h : dispatchFileCommand aes e env apdu = some (.error r)) : RefusedFrom aes e r :=
  dispatchFileCommand_refusedTo (leftStates aes e)
    (fun _ _ hcreate _ => .created hcreate.mayCreate.1 hcreate.mayCreate.2) h

/-- The commands that create files answer by their handlers. -/
theorem dispatchFileCommand_creation (hcmd : dfcFileCommandBase (apdu.getD 0 0) ∈
    [dfcCmdCreateStdDataFile, dfcCmdCreateBackupDataFile, dfcCmdCreateLinearRecordFile,
      dfcCmdCreateCyclicRecordFile, dfcCmdCreateValueFile]) :
    ∃ type a, FileCreation e apdu type a ∧
      dispatchFileCommand aes e env apdu = some (.ofAnswer a) := by
  have hne : apdu ≠ [] := by
    rintro rfl
    exact absurd hcmd (by decide)
  have hdispatch {type : UInt8} {a : Answer} (ha : FileCreation e apdu type a)
      (h : dispatchFileCommand aes e env apdu = some (.ofAnswer a)) :
      ∃ type a, FileCreation e apdu type a ∧
        dispatchFileCommand aes e env apdu = some (.ofAnswer a) := ⟨type, a, ha, h⟩
  simp only [List.mem_cons, List.not_mem_nil, or_false] at hcmd
  obtain hbase | hbase | hbase | hbase | hbase := hcmd
  · refine hdispatch (.data (.inl rfl)) ?_
    unfold dispatchFileCommand
    rw [hbase, if_neg hne]
    rfl
  · refine hdispatch (.data (.inr rfl)) ?_
    unfold dispatchFileCommand
    rw [hbase, if_neg hne]
    rfl
  · refine hdispatch (.record (.inl rfl)) ?_
    unfold dispatchFileCommand
    rw [hbase, if_neg hne]
    rfl
  · refine hdispatch (.record (.inr rfl)) ?_
    unfold dispatchFileCommand
    rw [hbase, if_neg hne]
    rfl
  · refine hdispatch .value ?_
    unfold dispatchFileCommand
    rw [hbase, if_neg hne]
    rfl

/-- Where the transaction is kept, the refusal changed nothing. -/
theorem dispatchFileCommand_preserved {r : Refusal}
    (h : dispatchFileCommand aes e env apdu = some (.error r))
    (hpreserve : preserveTransactionOnFailure e apdu = true) : LeftAlone e r := by
  unfold preserveTransactionOnFailure at hpreserve
  rw [Bool.or_eq_true, beq_iff_eq] at hpreserve
  obtain hcreate | hdelete := hpreserve
  · have hdispatch : dispatchFileCommand aes e env apdu =
        some (dfcEmulatorCommandCreateTransactionMacFile e apdu) := by
      have hne : apdu ≠ [] := by
        rintro rfl
        exact absurd hcreate (by decide)
      have hbase : dfcFileCommandBase (apdu.getD 0 0) = dfcCmdCreateTransactionMacFile := by
        rw [hcreate]
        decide
      unfold dispatchFileCommand
      rw [hbase, if_neg hne]
      rfl
    rw [hdispatch] at h
    exact createTransactionMacFile_refused (Option.some.inj h)
  · simp only [Bool.and_eq_true, beq_iff_eq] at hdelete
    have hdispatch : dispatchFileCommand aes e env apdu =
        some (dfcEmulatorCommandDeleteFile e apdu) := by
      have hne : apdu ≠ [] := by
        rintro rfl
        exact absurd hdelete.1.1.1 (by decide)
      have hbase : dfcFileCommandBase (apdu.getD 0 0) = dfcCmdDeleteFile := by
        rw [hdelete.1.1.2]
        decide
      unfold dispatchFileCommand
      rw [hbase, if_neg hne]
      rfl
    rw [hdispatch] at h
    exact deleteFile_refused (Option.some.inj h)

/-- A transaction is open as long as AbortTransaction has something to undo. -/
def transactionOpen (e : DfcEmulator) : Bool := (dfcEmulatorAbortTransaction e).2

/-- What tells that a value is pending. -/
def pendingView (file : DfcFile) : ℕ × Bool := (file.appIndex, file.hasPendingValue)

theorem pendingView_journalBlind : JournalBlind pendingView := ⟨fun _ _ => rfl, fun _ _ => rfl⟩

/-- Whether a value is pending in the application. -/
def valuePending (c : DfcCredential) (appIndex : ℕ) : Bool :=
  (fileViews pendingView c).any fun view => view.1 == appIndex && view.2

theorem valuePending_eq (c : DfcCredential) (appIndex : ℕ) :
    valuePending c appIndex = (List.range c.numFiles).any fun i =>
      (c.files i).appIndex == appIndex && (c.files i).hasPendingValue := by
  unfold valuePending fileViews
  rw [List.any_map]
  rfl

/-- The abort of everything but the values. -/
def abortJournalAndMac (e : DfcEmulator) : DfcEmulator :=
  (dfcEmulatorAbortTransactionSnapshot
    (if e.transactionMac.hasPending || e.transactionReaderIdPending then e.clearTransactionMac
      else e)).1

theorem abortTransaction_fst (e : DfcEmulator) :
    (dfcEmulatorAbortTransaction e).1 = (abortJournalAndMac e).mapCredential fun c =>
      c.mapFilesOf (abortJournalAndMac e).selectedAppIndex fun file =>
        if file.hasPendingValue then file.dropPendingValue else file :=
  rfl

/-- Nothing but the card image and the journal is touched by restoring. -/
theorem abortSnapshot_frame (e : DfcEmulator) :
    (dfcEmulatorAbortTransactionSnapshot e).1 =
      { e with
        credential := (dfcEmulatorAbortTransactionSnapshot e).1.credential
        snapshot := (dfcEmulatorAbortTransactionSnapshot e).1.snapshot } := by
  unfold dfcEmulatorAbortTransactionSnapshot
  dsimp only
  split_ifs <;> rfl

theorem abortSnapshot_inactive (e : DfcEmulator) :
    (dfcEmulatorAbortTransactionSnapshot e).1.snapshot.active = false := by
  unfold dfcEmulatorAbortTransactionSnapshot
  dsimp only
  split_ifs with h
  · exact h
  · rfl
  · rfl

theorem abortSnapshot_snd (e : DfcEmulator) :
    (dfcEmulatorAbortTransactionSnapshot e).2 = e.snapshot.active := by
  unfold dfcEmulatorAbortTransactionSnapshot
  dsimp only
  split_ifs with h
  · exact h.symm
  · simpa using h
  · simpa using h

theorem abortJournalAndMac_selectedAppIndex (e : DfcEmulator) :
    (abortJournalAndMac e).selectedAppIndex = e.selectedAppIndex := by
  rw [abortJournalAndMac, abortSnapshot_frame]
  dsimp only
  split_ifs <;> rfl

theorem abortJournalAndMac_views {β : Type} {view : DfcFile → β} (h : JournalBlind view)
    (e : DfcEmulator) :
    fileViews view (abortJournalAndMac e).credential = fileViews view e.credential := by
  rw [abortJournalAndMac, h.abortSnapshot]
  split_ifs <;> rfl

theorem transactionOpen_eq (e : DfcEmulator) :
    transactionOpen e = (e.transactionMac.hasPending || e.transactionReaderIdPending ||
      e.snapshot.active || valuePending e.credential e.selectedAppIndex) := by
  have hsnapshot : (dfcEmulatorAbortTransactionSnapshot
      (if e.transactionMac.hasPending || e.transactionReaderIdPending then e.clearTransactionMac
        else e)).2 = e.snapshot.active := by
    rw [abortSnapshot_snd]
    split_ifs <;> rfl
  have hvalue : valuePending (abortJournalAndMac e).credential e.selectedAppIndex =
      valuePending e.credential e.selectedAppIndex := by
    unfold valuePending
    rw [abortJournalAndMac_views pendingView_journalBlind]
  have hopen : transactionOpen e = (e.transactionMac.hasPending || e.transactionReaderIdPending ||
      (dfcEmulatorAbortTransactionSnapshot
        (if e.transactionMac.hasPending || e.transactionReaderIdPending then e.clearTransactionMac
          else e)).2 ||
      (List.range (abortJournalAndMac e).credential.numFiles).any fun i =>
        ((abortJournalAndMac e).credential.files i).appIndex ==
          (abortJournalAndMac e).selectedAppIndex &&
        ((abortJournalAndMac e).credential.files i).hasPendingValue) := rfl
  rw [hopen, hsnapshot, ← valuePending_eq, abortJournalAndMac_selectedAppIndex, hvalue]

theorem restoreFile_uid (s : DfcTransactionSnapshot) (c : DfcCredential) (i : ℕ) :
    (snapshotRestoreFile s c i).uid = c.uid ∧ (snapshotRestoreFile s c i).uidLen = c.uidLen := by
  unfold snapshotRestoreFile
  dsimp only
  split_ifs <;> exact ⟨rfl, rfl⟩

theorem eraseFile_uid (appIndex : ℕ) (c : DfcCredential) (i : ℕ) :
    (snapshotEraseFile appIndex c i).uid = c.uid ∧
      (snapshotEraseFile appIndex c i).uidLen = c.uidLen := by
  unfold snapshotEraseFile
  dsimp only
  split_ifs <;> exact ⟨rfl, rfl⟩

theorem foldl_uid {f : DfcCredential → ℕ → DfcCredential}
    (h : ∀ c i, (f c i).uid = c.uid ∧ (f c i).uidLen = c.uidLen) (c : DfcCredential)
    (files : List ℕ) :
    (files.foldl f c).uid = c.uid ∧ (files.foldl f c).uidLen = c.uidLen := by
  induction files generalizing c with
  | nil => exact ⟨rfl, rfl⟩
  | cons i files ih =>
    have hstep := h c i
    have hrest := ih (f c i)
    exact ⟨hrest.1.trans hstep.1, hrest.2.trans hstep.2⟩

theorem abortSnapshot_uid (e : DfcEmulator) :
    (dfcEmulatorAbortTransactionSnapshot e).1.credential.uid = e.credential.uid ∧
      (dfcEmulatorAbortTransactionSnapshot e).1.credential.uidLen = e.credential.uidLen := by
  unfold dfcEmulatorAbortTransactionSnapshot
  dsimp only
  split_ifs
  · exact ⟨rfl, rfl⟩
  · exact foldl_uid (restoreFile_uid _) _ _
  · exact foldl_uid (eraseFile_uid _) _ _

theorem abortTransaction_uid (e : DfcEmulator) :
    (dfcEmulatorAbortTransaction e).1.credential.uid = e.credential.uid ∧
      (dfcEmulatorAbortTransaction e).1.credential.uidLen = e.credential.uidLen := by
  have h := abortSnapshot_uid
    (if e.transactionMac.hasPending || e.transactionReaderIdPending then e.clearTransactionMac
      else e)
  have hsame : (if e.transactionMac.hasPending || e.transactionReaderIdPending then
      e.clearTransactionMac else e).credential = e.credential := by
    split_ifs <;> rfl
  rw [hsame] at h
  exact h

theorem abortTransaction_selectedAppIndex (e : DfcEmulator) :
    (dfcEmulatorAbortTransaction e).1.selectedAppIndex = e.selectedAppIndex :=
  abortJournalAndMac_selectedAppIndex e

theorem abortTransaction_transactionMac (e : DfcEmulator) :
    (dfcEmulatorAbortTransaction e).1.transactionMac =
        (if e.transactionMac.hasPending || e.transactionReaderIdPending then {}
          else e.transactionMac) ∧
      (dfcEmulatorAbortTransaction e).1.transactionReaderIdPending = false := by
  rw [abortTransaction_fst]
  show (abortJournalAndMac e).transactionMac = _ ∧
    (abortJournalAndMac e).transactionReaderIdPending = false
  rw [abortJournalAndMac, abortSnapshot_frame]
  dsimp only
  split_ifs with hp
  · exact ⟨rfl, rfl⟩
  · rw [Bool.or_eq_true, not_or] at hp
    exact ⟨rfl, by simpa using hp.2⟩

theorem hasPendingValue_dropPendingValue (file : DfcFile) :
    file.dropPendingValue.hasPendingValue = false := by
  unfold DfcFile.hasPendingValue DfcFile.dropPendingValue
  exact Bool.and_false _

/-- An abort drops the pending values of the application it is in. -/
theorem valuePending_mapFilesOf (c : DfcCredential) (appIndex : ℕ) :
    valuePending (c.mapFilesOf appIndex fun file =>
      if file.hasPendingValue then file.dropPendingValue else file) appIndex = false := by
  rw [valuePending_eq, List.any_eq_false]
  intro i hi
  have hlt : i < c.numFiles := List.mem_range.1 hi
  unfold DfcCredential.mapFilesOf
  dsimp only
  split_ifs with hown hpending
  · simp [hasPendingValue_dropPendingValue]
  · simp [hpending]
  · simp only [hlt, true_and] at hown
    simp [hown]

/-- After an abort nothing is left to undo. -/
theorem transactionOpen_abort (e : DfcEmulator) :
    transactionOpen (dfcEmulatorAbortTransaction e).1 = false := by
  obtain ⟨hmac, hreader⟩ := abortTransaction_transactionMac e
  have hsnapshot : (dfcEmulatorAbortTransaction e).1.snapshot.active = false :=
    abortSnapshot_inactive _
  have hvalue : valuePending (dfcEmulatorAbortTransaction e).1.credential
      (dfcEmulatorAbortTransaction e).1.selectedAppIndex = false :=
    valuePending_mapFilesOf (abortJournalAndMac e).credential _
  rw [transactionOpen_eq, hreader, hsnapshot, hvalue, hmac]
  split_ifs with hp
  · rfl
  · rw [Bool.or_eq_true, not_or] at hp
    simpa using hp.1

/-- A file of the application once its transaction is published. -/
def DfcFile.published (file : DfcFile) : DfcFile :=
  { if file.hasPendingValue then file.publishValue else file with transactionPending := false }

theorem publishTransaction_credential (e : DfcEmulator) :
    (dfcEmulatorPublishTransaction e).credential =
      { e.credential.mapFilesOf e.selectedAppIndex DfcFile.published with dirty := true } := by
  unfold dfcEmulatorPublishTransaction
  dsimp only
  split_ifs <;> rfl

theorem publishTransaction_selectedAppIndex (e : DfcEmulator) :
    (dfcEmulatorPublishTransaction e).selectedAppIndex = e.selectedAppIndex := by
  unfold dfcEmulatorPublishTransaction
  dsimp only
  split_ifs <;> rfl

/-- What the reader itself sent under protection. -/
def Unwrapped.sent {α : Type} (nothing : α) : Unwrapped α → α
  | clear a => a
  | lengthError => nothing
  | integrityError _ => nothing

/-- The record size of a file, as GetFileSettings tells it. -/
def recordSizeOf (e : DfcEmulator) (fileNo : UInt8) : ℕ :=
  ((dfcCredentialFindFileInApp e.credential e.selectedAppIndex fileNo).map fun i =>
    (e.credential.files i).state.record.size).getD 0

/-- The operation an accepted command was, as the reader knows it: the octets it sent, before
protection, and the octets it got. -/
def acceptedOperation (e : DfcEmulator) (env : CommandEnv) (apdu payload : List UInt8) :
    Option TransactionMacOperation :=
  let cmd := apdu.getD 0 0
  let base := dfcFileCommandBase cmd
  let fileNo := apdu.getD 1 0
  if base = dfcCmdReadData then
    some (.data cmd fileNo (readUint24Le apdu 2) payload.length payload)
  else if base = dfcCmdReadRecords then
    some (.data cmd fileNo (readUint24Le apdu 2) (payload.length / recordSizeOf e fileNo) payload)
  else if base = dfcCmdWriteData ∨ base = dfcCmdWriteRecord then
    some (.data cmd fileNo (readUint24Le apdu 2) (readUint24Le apdu 5)
      ((unwrapWritePayload e env apdu 7).sent []))
  else if base = dfcCmdUpdateRecord then
    some (.recordUpdate cmd fileNo (readUint24Le apdu 2) (readUint24Le apdu 5)
      (readUint24Le apdu 8)
      ((unwrapWritePayload e env apdu (dfcUpdateRecordHeaderSize - 1)).sent []))
  else if base = dfcCmdClearRecordFile then some (.clearRecord fileNo)
  else if base = dfcCmdGetValue then some (.value base fileNo (UInt32.ofNat (leValue payload)))
  else if base = dfcCmdCredit ∨ base = dfcCmdLimitedCredit ∨ base = dfcCmdDebit then
    some (.value base fileNo ((unwrapAmount e env apdu).sent 0).toUInt32)
  else if base = dfcCmdCommitReaderId then
    match unwrapReaderId e env apdu with
    | .ok readerId =>
      some (.readerId readerId (if dfcEmulatorAuthenticated e then some payload else none))
    | .error _ => none
  else none

/-- Whether a ReadData command reads a transaction MAC file. -/
def readsMacFile (e : DfcEmulator) (apdu : List UInt8) : Bool :=
  dfcFileCommandBase (apdu.getD 0 0) == dfcCmdReadData &&
    (dfcCredentialFindFileInApp e.credential e.selectedAppIndex (apdu.getD 1 0)).any fun i =>
      (e.credential.files i).type == dfcFileTypeTransactionMac

structure Note where
  appIndex : ℕ
  operation : TransactionMacOperation
  ofMacFile : Bool
  deriving Repr, DecidableEq

/-- The notes on the transaction that is open, and those on the committed ones. -/
structure Notes where
  current : List Note := []
  committed : List Note := []
  deriving Repr, DecidableEq

def noteOf (e : DfcEmulator) (env : CommandEnv) (apdu payload : List UInt8) : Option Note :=
  (acceptedOperation e env apdu payload).map fun operation =>
    { appIndex := e.selectedAppIndex, operation, ofMacFile := readsMacFile e apdu }

/-- The commands that end the transaction when they are accepted. Creating or deleting a
transaction MAC file does. -/
def endsTransaction (e : DfcEmulator) (apdu : List UInt8) : Bool :=
  apdu.getD 0 0 == dfcCmdCommitTransaction || apdu.getD 0 0 == dfcCmdAbortTransaction ||
    preserveTransactionOnFailure e apdu

def Notes.close (notes : Notes) : Notes := { notes with current := [] }

/-- The notes after a command and its answer. -/
def Notes.next (notes : Notes) (e : DfcEmulator) (env : CommandEnv) (apdu : List UInt8)
    (e' : DfcEmulator) : Reply → Notes
  | .refused _ => if transactionOpen e' then notes else notes.close
  | .accepted payload =>
    if apdu.getD 0 0 = dfcCmdCommitTransaction then
      { current := [], committed := notes.committed ++ notes.current }
    else if endsTransaction e apdu then notes.close
    else { notes with current := notes.current ++ (noteOf e env apdu payload).toList }

/-- What the commands on values and transactions see of a file. -/
def transactionView (file : DfcFile) :
    ℕ × UInt8 × UInt8 × DfcValueFileState × DfcTransactionMacFileState :=
  (file.appIndex, file.number, file.type, file.state.value, file.state.transactionMac)

/-- A command that neither belongs to the transaction nor ends it. Keys, settings, sessions
and the contents of other files may change. -/
structure Unrelated (e e' : DfcEmulator) : Prop where
  selectedAppIndex : e'.selectedAppIndex = e.selectedAppIndex
  transactionMac : e'.transactionMac = e.transactionMac
  uid : e'.credential.uid = e.credential.uid
  uidLen : e'.credential.uidLen = e.credential.uidLen
  views : fileViews transactionView e'.credential = fileViews transactionView e.credential

/-- What happens to the card. -/
inductive CardEvent where
  | command (env : CommandEnv) (apdu : List UInt8)
  | unrelated
  | abort
  | select (selection : DfcEmulatorSelectedApplication) (appIndex : ℕ)

section
variable (aes : List UInt8 → List UInt8 → List UInt8)

/-- One step of the card, with the reader's notes. -/
inductive CardStep : CardEvent → DfcEmulator × Notes → DfcEmulator × Notes → Prop where
  | command {e e' : DfcEmulator} {notes : Notes} {env : CommandEnv} {apdu : List UInt8}
      {reply : Reply} (h : dfcEmulatorHandleCommand aes e env apdu = some (e', reply)) :
      CardStep (.command env apdu) (e, notes) (e', notes.next e env apdu e' reply)
  | unrelated {e e' : DfcEmulator} {notes : Notes} (h : Unrelated e e') :
      CardStep .unrelated (e, notes) (e', notes)
  | abort {e : DfcEmulator} {notes : Notes} :
      CardStep .abort (e, notes) ((dfcEmulatorAbortTransaction e).1, notes.close)
  | select {e : DfcEmulator} {notes : Notes} (selection : DfcEmulatorSelectedApplication)
      (appIndex : ℕ) :
      CardStep (.select selection appIndex) (e, notes)
        (dfcEmulatorSelectApplication e selection appIndex, notes.close)

/-- The runs all of whose events are allowed where they happen. -/
def CardRunOf (allowed : DfcEmulator → CardEvent → Prop) :
    DfcEmulator × Notes → DfcEmulator × Notes → Prop :=
  Relation.ReflTransGen fun s s' => ∃ event, allowed s.1 event ∧ CardStep aes event s s'

def CardRun : DfcEmulator × Notes → DfcEmulator × Notes → Prop :=
  CardRunOf aes fun _ _ => True

end

/-- What every allowed step keeps, every run keeps. -/
theorem CardRunOf.invariant {allowed : DfcEmulator → CardEvent → Prop}
    {Inv : DfcEmulator × Notes → Prop}
    (hstep : ∀ s s' event, allowed s.1 event → CardStep aes event s s' → Inv s → Inv s')
    {s s' : DfcEmulator × Notes} (hrun : CardRunOf aes allowed s s') (h : Inv s) : Inv s' := by
  induction hrun with
  | refl => exact h
  | tail _ hlast ih =>
    obtain ⟨event, hallowed, hlast⟩ := hlast
    exact hstep _ _ event hallowed hlast ih

theorem fileCommandBase_eq (command : UInt8) :
    (dfcFileCommandBase command = dfcCmdReadData →
      command = dfcCmdReadData ∨ command = dfcCmdReadDataIso) ∧
    (dfcFileCommandBase command = dfcCmdReadRecords →
      command = dfcCmdReadRecords ∨ command = dfcCmdReadRecordsIso) ∧
    (dfcFileCommandBase command = dfcCmdWriteData →
      command = dfcCmdWriteData ∨ command = dfcCmdWriteDataIso) ∧
    (dfcFileCommandBase command = dfcCmdWriteRecord →
      command = dfcCmdWriteRecord ∨ command = dfcCmdWriteRecordIso) ∧
    (dfcFileCommandBase command = dfcCmdUpdateRecord →
      command = dfcCmdUpdateRecord ∨ command = dfcCmdUpdateRecordIso) := by
  revert command
  exact forall_octet (by decide +kernel)

/-- The commands that end a transaction have no second code. -/
theorem fileCommandBase_ending (command : UInt8) :
    ∀ ending ∈ [dfcCmdCommitTransaction, dfcCmdAbortTransaction, dfcCmdCreateTransactionMacFile,
      dfcCmdDeleteFile], dfcFileCommandBase command = ending ↔ command = ending := by
  have hall : ∀ command : UInt8, [dfcCmdCommitTransaction, dfcCmdAbortTransaction,
      dfcCmdCreateTransactionMacFile, dfcCmdDeleteFile].all fun ending =>
        dfcFileCommandBase command = ending ↔ command = ending :=
    forall_octet (by decide +kernel)
  simpa only [List.all_eq_true, decide_eq_true_eq] using hall command

/-- A command of another kind adds its note, if it has one. -/
theorem Notes.next_accepted {notes : Notes}
    (h : dfcFileCommandBase (apdu.getD 0 0) ∉ [dfcCmdCommitTransaction, dfcCmdAbortTransaction,
      dfcCmdCreateTransactionMacFile, dfcCmdDeleteFile]) :
    notes.next e env apdu e' (.accepted payload) =
      { notes with current := notes.current ++ (noteOf e env apdu payload).toList } := by
  have hne : ∀ command ∈ [dfcCmdCommitTransaction, dfcCmdAbortTransaction,
      dfcCmdCreateTransactionMacFile, dfcCmdDeleteFile], apdu.getD 0 0 ≠ command := by
    intro command hmem heq
    rw [(fileCommandBase_ending _ command hmem).2 heq] at h
    exact h hmem
  have hcommit := hne dfcCmdCommitTransaction (by decide)
  have habort := hne dfcCmdAbortTransaction (by decide)
  have hcreate := hne dfcCmdCreateTransactionMacFile (by decide)
  have hdelete := hne dfcCmdDeleteFile (by decide)
  have hends : endsTransaction e apdu = false := by
    simp only [endsTransaction, preserveTransactionOnFailure, Bool.or_eq_false_iff,
      Bool.and_eq_false_iff, beq_eq_false_iff_ne]
    exact ⟨⟨hcommit, habort⟩, hcreate, .inl (.inl (.inr hdelete))⟩
  rw [Notes.next, if_neg hcommit, hends]
  rfl

/-- An accepted command is its handler's doing; a refused one ends as its refusal says. -/
theorem handleCommand_cases {reply : Reply}
    (h : dfcEmulatorHandleCommand aes e env apdu = some (e', reply)) :
    (∃ payload, reply = .accepted payload ∧ AcceptedBy aes e env apdu e' payload) ∨
    ∃ r, reply = .refused r.status ∧ RefusedFrom aes e r ∧
      (preserveTransactionOnFailure e apdu = true → LeftAlone e r) ∧
      e' = if r.retryable then r.emulator
        else finalizeNativeCommand (applyEv1ErrorResponse r.emulator)
          (preserveTransactionOnFailure e apdu) := by
  unfold dfcEmulatorHandleCommand at h
  rw [Option.map_eq_some_iff] at h
  obtain ⟨handled, hdispatch, hfinish⟩ := h
  cases handled with
  | ok s =>
    obtain ⟨e₁, payload⟩ := s
    obtain ⟨rfl, rfl⟩ := Prod.mk.injEq .. ▸ hfinish
    exact .inl ⟨payload, rfl, dispatchFileCommand_ok hdispatch⟩
  | error r =>
    obtain ⟨rfl, rfl⟩ := Prod.mk.injEq .. ▸ hfinish
    exact .inr ⟨r, rfl, dispatchFileCommand_refused hdispatch,
      dispatchFileCommand_preserved hdispatch, rfl⟩

end DfcCore
