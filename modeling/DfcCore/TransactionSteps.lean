import DfcCore.Aes
import DfcCore.TransactionRuns

/-!
# Steps of a transaction

What the handlers do beside their own purpose. Opening the journal, storing octets and moving
records belong to no value and to no transaction MAC. An accepted operation is then three
steps: some that are unrelated, the operation taken in by the accumulator, some that are
unrelated again.
-/
namespace DfcCore
open Der

theorem transactionView_journalBlind : JournalBlind transactionView :=
  ⟨fun _ _ => rfl, fun _ _ => rfl⟩

theorem Unrelated.refl (e : DfcEmulator) : Unrelated e e := ⟨rfl, rfl, rfl, rfl, rfl⟩

theorem Unrelated.trans {a b c : DfcEmulator} (h : Unrelated a b) (h' : Unrelated b c) :
    Unrelated a c :=
  ⟨h'.selectedAppIndex.trans h.selectedAppIndex, h'.transactionMac.trans h.transactionMac,
    h'.uid.trans h.uid, h'.uidLen.trans h.uidLen, h'.views.trans h.views⟩

theorem snapshotBegin_frame (e : DfcEmulator) (allocationFails : Bool) :
    (dfcEmulatorCommandTransactionSnapshotBegin e allocationFails).1 =
      { e with snapshot :=
          (dfcEmulatorCommandTransactionSnapshotBegin e allocationFails).1.snapshot } := by
  unfold dfcEmulatorCommandTransactionSnapshotBegin
  by_cases hactive : e.snapshot.active
  · rw [if_pos hactive]
  · rw [if_neg hactive]
    cases transactionSnapshotCapacity e.credential e.selectedAppIndex with
    | none => rfl
    | some capacity => cases allocationFails <;> rfl

theorem captureFile_frame (e : DfcEmulator) (i : ℕ) :
    (dfcEmulatorTransactionSnapshotCaptureFile e i).1 =
      { e with snapshot := (dfcEmulatorTransactionSnapshotCaptureFile e i).1.snapshot } := by
  unfold dfcEmulatorTransactionSnapshotCaptureFile
  dsimp only
  split
  · rfl
  split
  · rfl
  split
  · rfl
  split
  · rfl
  split
  · rfl
  split <;> rfl

/-- Opening the journal touches the journal only. -/
theorem openJournal_frame {e opened : DfcEmulator} {allocationFails isOpen : Bool} {i : ℕ}
    (h : openJournal e allocationFails i = (opened, isOpen)) :
    opened = { e with snapshot := opened.snapshot } := by
  unfold openJournal at h
  cases hbegin : dfcEmulatorCommandTransactionSnapshotBegin e allocationFails with
  | mk begun ok =>
    have hbegun := snapshotBegin_frame e allocationFails
    rw [hbegin] at h hbegun
    dsimp only at hbegun
    cases ok with
    | false =>
      obtain rfl := congrArg Prod.fst h
      exact hbegun
    | true =>
      change dfcEmulatorTransactionSnapshotCaptureFile begun i = _ at h
      have hcapture := captureFile_frame begun i
      rw [h] at hcapture
      calc opened = { begun with snapshot := opened.snapshot } := hcapture
        _ = { e with snapshot := opened.snapshot } := by rw [hbegun]

theorem Unrelated.openJournal {e opened : DfcEmulator} {allocationFails isOpen : Bool} {i : ℕ}
    (h : openJournal e allocationFails i = (opened, isOpen)) : Unrelated e opened := by
  rw [openJournal_frame h]
  exact ⟨rfl, rfl, rfl, rfl, rfl⟩

theorem Unrelated.abortSnapshot (e : DfcEmulator) :
    Unrelated e (dfcEmulatorAbortTransactionSnapshot e).1 := by
  have huid := abortSnapshot_uid e
  refine ⟨?_, ?_, huid.1, huid.2, transactionView_journalBlind.abortSnapshot e⟩
  · rw [abortSnapshot_frame]
  · rw [abortSnapshot_frame]

theorem Unrelated.readDataFrom {e e' : DfcEmulator} {i : ℕ} (h : ReadDataFrom e i e') :
    Unrelated e e' := by
  obtain rfl | ⟨-, counter, rfl⟩ := h
  · exact .refl e'
  · refine ⟨rfl, rfl, rfl, rfl, ?_⟩
    exact fileViews_modifyFile e.credential i (f := fun file => file.withData _) rfl

theorem Unrelated.leftForRetry {e e' : DfcEmulator} (h : LeftForRetry e e') : Unrelated e e' := by
  cases h with
  | same => exact .refl e
  | abandoned hopen =>
    unfold abandonJournal
    split_ifs
    · exact .openJournal hopen
    · exact (Unrelated.openJournal hopen).trans (.abortSnapshot _)
  | read hread => exact .readDataFrom hread

theorem Unrelated.storeData (e : DfcEmulator) (i start : ℕ) (octets : List UInt8) :
    Unrelated e (storeData e i start octets) := by
  unfold DfcCore.storeData dfcEmulatorTransactionSnapshotNotePersistentChange
  dsimp only
  split_ifs
  · exact ⟨rfl, rfl, rfl, rfl,
      transactionView_journalBlind.setPending (e.credential.writeFileData start octets) i⟩
  · exact ⟨rfl, rfl, rfl, rfl, rfl⟩
  · exact ⟨rfl, rfl, rfl, rfl, rfl⟩

theorem Unrelated.setRecordOperation (e : DfcEmulator) (i : ℕ) (operation : RecordTransaction)
    (recordNumber : ℕ) :
    Unrelated e (dfcEmulatorCommandTransactionSetRecordOperation e i operation recordNumber) := by
  unfold dfcEmulatorCommandTransactionSetRecordOperation
  split_ifs
  · exact .refl e
  · exact ⟨rfl, rfl, rfl, rfl, rfl⟩

theorem appendRecordSlot_kept (c : DfcCredential) (i start : ℕ) :
    fileViews transactionView (appendRecordSlot c i start).1 = fileViews transactionView c ∧
      (appendRecordSlot c i start).1.uid = c.uid ∧
      (appendRecordSlot c i start).1.uidLen = c.uidLen := by
  unfold appendRecordSlot
  dsimp only
  split_ifs
  · exact ⟨fileViews_modifyFile c i (f := fun file => file.withRecord _) rfl, rfl, rfl⟩
  · exact ⟨fileViews_modifyFile c i (f := fun file => file.withRecord _) rfl, rfl, rfl⟩

theorem Unrelated.storeRecord (e : DfcEmulator) (i start offset : ℕ) (octets : List UInt8) :
    Unrelated e (storeRecord e i start offset octets) := by
  unfold DfcCore.storeRecord
  dsimp only
  split_ifs
  · exact ⟨rfl, rfl, rfl, rfl,
      transactionView_journalBlind.setPending (e.credential.writeFileData _ octets) i⟩
  · obtain ⟨hviews, huid, hlen⟩ := appendRecordSlot_kept e.credential i start
    refine Unrelated.trans ?_ (.setRecordOperation _ i _ _)
    refine ⟨rfl, rfl, huid, hlen, ?_⟩
    exact (transactionView_journalBlind.setPending
      ((appendRecordSlot e.credential i start).1.writeFileData _ octets) i).trans hviews

theorem snapshotDeleteFile_frame (e : DfcEmulator) (i : ℕ) :
    dfcEmulatorTransactionSnapshotDeleteFile e i =
      { e with snapshot := (dfcEmulatorTransactionSnapshotDeleteFile e i).snapshot } := by
  unfold dfcEmulatorTransactionSnapshotDeleteFile
  split_ifs <;> rfl

theorem Unrelated.snapshotDeleteFile (e : DfcEmulator) (i : ℕ) :
    Unrelated e (dfcEmulatorTransactionSnapshotDeleteFile e i) := by
  rw [snapshotDeleteFile_frame]
  exact ⟨rfl, rfl, rfl, rfl, rfl⟩

theorem Unrelated.notePersistentChange (e : DfcEmulator) :
    Unrelated e (dfcEmulatorTransactionSnapshotNotePersistentChange e).markDirty := by
  unfold dfcEmulatorTransactionSnapshotNotePersistentChange
  split_ifs
  · exact ⟨rfl, rfl, rfl, rfl, rfl⟩
  · exact ⟨rfl, rfl, rfl, rfl, rfl⟩

/-- At most the session ends once the transaction is dealt with. -/
theorem finalizeNativeCommand_cases (e : DfcEmulator) (preserve : Bool) :
    finalizeNativeCommand e preserve = (if preserve then e else (dfcEmulatorAbortTransaction e).1) ∨
      finalizeNativeCommand e preserve = dfcEmulatorClearActiveAuthentication
        (if preserve then e else (dfcEmulatorAbortTransaction e).1) := by
  unfold finalizeNativeCommand
  exact (ite_eq_or_eq _ _ _)

theorem applyEv1ErrorResponse_cases (e : DfcEmulator) :
    applyEv1ErrorResponse e = dfcEmulatorResetSession e ∨ applyEv1ErrorResponse e = e := by
  unfold applyEv1ErrorResponse
  exact (ite_eq_or_eq _ _ _)

theorem Unrelated.finalizePreserved (e : DfcEmulator) :
    Unrelated e (finalizeNativeCommand e true) := by
  obtain h | h := finalizeNativeCommand_cases e true
  · rw [h]
    exact .refl e
  · rw [h]
    exact ⟨rfl, rfl, rfl, rfl, rfl⟩

section
variable (aes : List UInt8 → List UInt8 → List UInt8)

/-- The operation is taken in between two unrelated steps. -/
def RecordsOperation (op : TransactionMacOperation) (e e' : DfcEmulator) : Prop :=
  ∃ e₁ e₂, Unrelated e e₁ ∧ MacTaken aes op e₁ e₂ ∧ Unrelated e₂ e'

/-- An accepted command that is an operation and changes no value. A read of the transaction
MAC file is not taken in. -/
def Recorded (e : DfcEmulator) (env : CommandEnv) (apdu payload : List UInt8) (e' : DfcEmulator) :
    Prop :=
  ∃ op, acceptedOperation e env apdu payload = some op ∧ op.IsReportable ∧
    if readsMacFile e apdu then Unrelated e e' else RecordsOperation aes op e e'

end

variable {aes : List UInt8 → List UInt8 → List UInt8} {e e' : DfcEmulator} {env : CommandEnv}
  {apdu payload : List UInt8}

/-- The commands that read something else. -/
theorem Recorded.intro {op : TransactionMacOperation}
    (hcmd : dfcFileCommandBase (apdu.getD 0 0) ≠ dfcCmdReadData)
    (hop : acceptedOperation e env apdu payload = some op) (hreport : op.IsReportable)
    (h : RecordsOperation aes op e e') : Recorded aes e env apdu payload e' := by
  have hreads : readsMacFile e apdu = false := by
    rw [readsMacFile, beq_eq_false_iff_ne.2 hcmd]
    rfl
  refine ⟨op, hop, hreport, ?_⟩
  rw [hreads]
  exact h

theorem readData_recorded (hcmd : dfcFileCommandBase (apdu.getD 0 0) = dfcCmdReadData)
    (hok : dfcEmulatorCommandReadData aes e env apdu = .ok (e', payload)) :
    Recorded aes e env apdu payload e' := by
  obtain ⟨i, e₁, e₂, hfind, -, -, -, -, hfrom, htaken, rfl⟩ := readData_ok hok
  have hop : acceptedOperation e env apdu payload = some (.data (apdu.getD 0 0) (apdu.getD 1 0)
      (readUint24Le apdu 2) payload.length payload) := by
    rw [acceptedOperation, hcmd]
    rfl
  have hreads : readsMacFile e apdu =
      ((e.credential.files i).type == dfcFileTypeTransactionMac) := by
    rw [readsMacFile, hcmd, hfind]
    rfl
  have hafter : Unrelated e₂ (dfcEmulatorCommandClearPendingChain e₂) := ⟨rfl, rfl, rfl, rfl, rfl⟩
  refine ⟨_, hop, ?_, ?_⟩
  · refine .inl ⟨?_, rfl⟩
    obtain hc | hc := (fileCommandBase_eq _).1 hcmd <;> rw [hc] <;> decide
  · simp only [hreads, beq_iff_eq]
    split_ifs at htaken ⊢
    · subst htaken
      exact (Unrelated.readDataFrom hfrom).trans hafter
    · exact ⟨e₁, e₂, .readDataFrom hfrom, htaken, hafter⟩

theorem writeData_recorded (hcmd : dfcFileCommandBase (apdu.getD 0 0) = dfcCmdWriteData)
    (hok : dfcEmulatorCommandWriteData aes e env apdu = .ok (e', payload)) :
    Recorded aes e env apdu payload e' := by
  obtain ⟨i, start, clear, opened, recorded, -, -, -, hclear, hlen, -, hopen, htaken, rfl, rfl⟩ :=
    writeData_ok hok
  have hbefore : Unrelated e opened := by
    split_ifs at hopen
    · exact .openJournal hopen
    · rw [hopen]
      exact .refl e
  refine .intro (by rw [hcmd]; decide) ?_ ?_ ⟨_, _, hbefore, htaken, .storeData _ _ _ _⟩
  · rw [acceptedOperation, hcmd, hclear, hlen]
    rfl
  · refine .inl ⟨?_, rfl⟩
    obtain hc | hc := (fileCommandBase_eq _).2.2.1 hcmd <;> rw [hc] <;> decide

theorem readRecords_recorded (hcmd : dfcFileCommandBase (apdu.getD 0 0) = dfcCmdReadRecords)
    (hok : handleReadRecords aes e env apdu = .ok (e', payload)) :
    Recorded aes e env apdu payload e' := by
  obtain ⟨i, count, e₁, hfind, -, -, hsize, -, -, -, -, hlen, htaken, rfl⟩ := readRecords_ok hok
  have hcount : payload.length / recordSizeOf e (apdu.getD 1 0) = count := by
    rw [recordSizeOf, hfind, hlen]
    exact Nat.mul_div_cancel count hsize
  refine .intro (by rw [hcmd]; decide) ?_ ?_
    ⟨_, _, .refl e, htaken, rfl, rfl, rfl, rfl, rfl⟩
  · rw [acceptedOperation, hcmd, hcount]
    rfl
  · exact .inr ((fileCommandBase_eq _).2.1 hcmd)

theorem writeRecord_recorded (hcmd : dfcFileCommandBase (apdu.getD 0 0) = dfcCmdWriteRecord)
    (hok : dfcEmulatorCommandWriteRecord aes e env apdu = .ok (e', payload)) :
    Recorded aes e env apdu payload e' := by
  obtain ⟨i, start, clear, opened, recorded, -, -, -, hclear, hlen, -, -, -, hopen, -, -, htaken,
    rfl, rfl⟩ := writeRecord_ok hok
  refine .intro (by rw [hcmd]; decide) ?_ ?_
    ⟨_, _, .openJournal hopen, htaken, .storeRecord _ _ _ _ _⟩
  · rw [acceptedOperation, hcmd, hclear, hlen]
    rfl
  · refine .inl ⟨?_, rfl⟩
    obtain hc | hc := (fileCommandBase_eq _).2.2.2.1 hcmd <;> rw [hc] <;> decide

theorem updateRecord_recorded (hcmd : dfcFileCommandBase (apdu.getD 0 0) = dfcCmdUpdateRecord)
    (hok : dfcEmulatorCommandUpdateRecord aes e env apdu = .ok (e', payload)) :
    Recorded aes e env apdu payload e' := by
  obtain ⟨i, start, clear, opened, recorded, -, -, -, -, hclear, hlen, -, -, hopen, -, htaken,
    rfl, rfl⟩ := updateRecord_ok hok
  refine .intro (by rw [hcmd]; decide) ?_ ?_ ⟨_, _, .openJournal hopen, htaken, ?_⟩
  · rw [acceptedOperation, hcmd, hclear, hlen]
    rfl
  · exact ⟨(fileCommandBase_eq _).2.2.2.2 hcmd, rfl⟩
  · refine Unrelated.trans ?_ (.setRecordOperation _ _ _ _)
    exact ⟨rfl, rfl, rfl, rfl,
      transactionView_journalBlind.setPending (recorded.credential.writeFileData _ clear) i⟩

theorem clearRecordFile_recorded
    (hcmd : dfcFileCommandBase (apdu.getD 0 0) = dfcCmdClearRecordFile)
    (hok : dfcEmulatorCommandClearRecordFile aes e env apdu = .ok (e', payload)) :
    Recorded aes e env apdu payload e' := by
  obtain ⟨i, opened, recorded, -, -, -, hopen, -, htaken, rfl, rfl⟩ := clearRecordFile_ok hok
  refine .intro (by rw [hcmd]; decide) ?_ ?_ ⟨_, _, .openJournal hopen, htaken, ?_⟩
  · rw [acceptedOperation, hcmd]
    rfl
  · trivial
  · refine Unrelated.trans ?_ (.setRecordOperation _ _ _ _)
    refine ⟨rfl, rfl, rfl, rfl, (transactionView_journalBlind.setPending _ i).trans ?_⟩
    exact fileViews_modifyFile recorded.credential i (f := fun file => file.withRecord _) rfl

theorem getValue_recorded (hcmd : dfcFileCommandBase (apdu.getD 0 0) = dfcCmdGetValue)
    (hok : dfcEmulatorCommandGetValue aes e env apdu = .ok (e', payload)) :
    Recorded aes e env apdu payload e' := by
  obtain ⟨i, -, -, rfl, htaken⟩ := getValue_ok hok
  refine .intro (by rw [hcmd]; decide) ?_ ?_ ⟨_, _, .refl e, htaken, .refl e'⟩
  · rw [acceptedOperation, hcmd, leValue_leOctets_of_lt (UInt32.toNat_lt _), UInt32.ofNat_toNat]
    rfl
  · exact .inl rfl

theorem commitReaderId_recorded
    (hcmd : dfcFileCommandBase (apdu.getD 0 0) = dfcCmdCommitReaderId)
    (hok : dfcEmulatorCommandCommitReaderId aes e env apdu = .ok (e', payload)) :
    Recorded aes e env apdu payload e' := by
  obtain ⟨readerId, tmac, recorded, hreader, -, -, htaken, rfl⟩ := commitReaderId_ok hok
  refine .intro (by rw [hcmd]; decide) ?_ ?_ ⟨_, _, .refl e, htaken, rfl, rfl, rfl, rfl, rfl⟩
  · rw [acceptedOperation, hcmd, hreader]
    rfl
  · trivial

/-- The operation of an accepted value command. -/
theorem valueDelta_operation {amount : Int32}
    (hcmd : dfcFileCommandBase (apdu.getD 0 0) = dfcCmdCredit ∨
      dfcFileCommandBase (apdu.getD 0 0) = dfcCmdLimitedCredit ∨
      dfcFileCommandBase (apdu.getD 0 0) = dfcCmdDebit)
    (hamount : unwrapAmount e env apdu = .clear amount) :
    acceptedOperation e env apdu payload = some (.value (dfcFileCommandBase (apdu.getD 0 0))
      (apdu.getD 1 0) amount.toUInt32) ∧ readsMacFile e apdu = false := by
  rw [acceptedOperation, hamount, readsMacFile]
  obtain hc | hc | hc := hcmd <;> rw [hc] <;> exact ⟨rfl, rfl⟩

/-- The commands that are no operation add no note. -/
theorem noteOf_eq_none (h : dfcFileCommandBase (apdu.getD 0 0) ∈ [dfcCmdCreateStdDataFile,
      dfcCmdCreateBackupDataFile, dfcCmdCreateLinearRecordFile, dfcCmdCreateCyclicRecordFile,
      dfcCmdCreateValueFile, dfcCmdGetFileSettings]) : noteOf e env apdu payload = none := by
  unfold noteOf acceptedOperation
  dsimp only
  generalize dfcFileCommandBase (apdu.getD 0 0) = base at h
  simp only [List.mem_cons, List.not_mem_nil, or_false] at h
  obtain rfl | rfl | rfl | rfl | rfl | rfl := h <;> rfl

section
variable (aes : List UInt8 → List UInt8 → List UInt8)

/-- What an accepted command was for the transaction. -/
inductive AcceptedAs (e : DfcEmulator) (env : CommandEnv) (apdu : List UInt8) (e' : DfcEmulator)
    (payload : List UInt8) : Prop where
  | recorded (hnot : apdu.getD 0 0 ≠ dfcCmdCommitTransaction)
      (hnext : ∀ notes : Notes, notes.next e env apdu e' (.accepted payload) =
        { notes with current := notes.current ++ (noteOf e env apdu payload).toList })
      (hbase : dfcFileCommandBase (apdu.getD 0 0) ∉ [dfcCmdCredit, dfcCmdLimitedCredit,
        dfcCmdDebit])
      (h : Recorded aes e env apdu payload e')
  | valueDelta (hnot : apdu.getD 0 0 ≠ dfcCmdCommitTransaction)
      (hnext : ∀ notes : Notes, notes.next e env apdu e' (.accepted payload) =
        { notes with current := notes.current ++ (noteOf e env apdu payload).toList })
      (hcmd : dfcFileCommandBase (apdu.getD 0 0) = dfcCmdCredit ∨
        dfcFileCommandBase (apdu.getD 0 0) = dfcCmdLimitedCredit ∨
        dfcFileCommandBase (apdu.getD 0 0) = dfcCmdDebit)
      (h : dfcEmulatorCommandValueDelta aes e env apdu (dfcFileCommandBase (apdu.getD 0 0))
        (dfcFileCommandBase (apdu.getD 0 0) == dfcCmdDebit)
        (dfcFileCommandBase (apdu.getD 0 0) == dfcCmdLimitedCredit) = .ok (e', payload))
  | commit (hnext : ∀ notes : Notes, notes.next e env apdu e' (.accepted payload) =
        { current := [], committed := notes.committed ++ notes.current })
      (hcmd : apdu.getD 0 0 = dfcCmdCommitTransaction)
      (h : commitTransaction aes e env apdu = .ok (e', payload))
  | aborted (hnot : apdu.getD 0 0 ≠ dfcCmdCommitTransaction)
      (hnext : ∀ notes : Notes, notes.next e env apdu e' (.accepted payload) = notes.close)
      (h : e' = (dfcEmulatorAbortTransaction e).1)
  | macFileCreated (hnot : apdu.getD 0 0 ≠ dfcCmdCommitTransaction)
      (hnext : ∀ notes : Notes, notes.next e env apdu e' (.accepted payload) = notes.close)
      (h : dfcEmulatorCommandCreateTransactionMacFile e apdu = .ok (e', payload))
  | fileDeleted {i : ℕ} (hcmd : apdu.getD 0 0 = dfcCmdDeleteFile)
      (hfind : dfcCredentialFindFileInApp e.credential e.selectedAppIndex (apdu.getD 1 0) = some i)
      (hnext : ∀ notes : Notes, notes.next e env apdu e' (.accepted payload) =
        if (e.credential.files i).type = dfcFileTypeTransactionMac then notes.close else notes)
      (h : e' = (dfcEmulatorTransactionSnapshotNotePersistentChange
        ((beforeDelete e i).mapCredential fun c => (dfcCredentialDeleteFile c
          (beforeDelete e i).selectedAppIndex (apdu.getD 1 0)).1)).markDirty)
  | fileCreated {type : UInt8} (hnot : apdu.getD 0 0 ≠ dfcCmdCommitTransaction)
      (hnext : ∀ notes : Notes, notes.next e env apdu e' (.accepted payload) = notes)
      (htype : type ≠ dfcFileTypeTransactionMac) (h : MayCreate e type e')

end

/-- A command that ends the transaction without a commit empties the notes. -/
theorem Notes.next_ended (h : apdu.getD 0 0 = dfcCmdAbortTransaction ∨
      apdu.getD 0 0 = dfcCmdCreateTransactionMacFile) (notes : Notes) :
    notes.next e env apdu e' (.accepted payload) = notes.close := by
  have hnot : apdu.getD 0 0 ≠ dfcCmdCommitTransaction := by
    obtain hc | hc := h <;> rw [hc] <;> decide
  have hends : endsTransaction e apdu = true := by
    rw [endsTransaction, preserveTransactionOnFailure]
    obtain hc | hc := h <;> rw [hc] <;> rfl
  rw [Notes.next, if_neg hnot, if_pos hends]

theorem deleteFile_acceptedAs (hcmd : dfcFileCommandBase (apdu.getD 0 0) = dfcCmdDeleteFile)
    (hok : dfcEmulatorCommandDeleteFile e apdu = .ok (e', payload)) :
    AcceptedAs aes e env apdu e' payload := by
  obtain ⟨i, hlen, happ, hfind, rfl, rfl⟩ := deleteFile_ok hok
  have hraw : apdu.getD 0 0 = dfcCmdDeleteFile :=
    (fileCommandBase_ending _ _ (by decide)).1 hcmd
  refine .fileDeleted hraw hfind (fun notes => ?_) rfl
  have hnone : noteOf e env apdu [] = none := by
    rw [noteOf, acceptedOperation, hcmd]
    rfl
  have hends : endsTransaction e apdu =
      ((e.credential.files i).type == dfcFileTypeTransactionMac) := by
    rw [endsTransaction, preserveTransactionOnFailure, hraw, hlen, happ, hfind]
    rfl
  rw [Notes.next, if_neg (by rw [hraw]; decide), hends, hnone]
  simp only [beq_iff_eq, Option.toList_none, List.append_nil]

theorem AcceptedBy.acceptedAs (h : AcceptedBy aes e env apdu e' payload) :
    AcceptedAs aes e env apdu e' payload := by
  have hnot (hcmd : dfcFileCommandBase (apdu.getD 0 0) ≠ dfcCmdCommitTransaction) :
      apdu.getD 0 0 ≠ dfcCmdCommitTransaction := fun heq =>
    hcmd ((fileCommandBase_ending _ _ (by decide)).2 heq)
  have hrecorded {base : UInt8} (hcmd : dfcFileCommandBase (apdu.getD 0 0) = base)
      (hending : base ∉ [dfcCmdCommitTransaction, dfcCmdAbortTransaction,
        dfcCmdCreateTransactionMacFile, dfcCmdDeleteFile])
      (hbase : base ∉ [dfcCmdCredit, dfcCmdLimitedCredit, dfcCmdDebit])
      (hrec : Recorded aes e env apdu payload e') : AcceptedAs aes e env apdu e' payload := by
    rw [← hcmd] at hending hbase
    exact .recorded (hnot fun heq => hending (heq ▸ List.mem_cons_self))
      (fun _ => Notes.next_accepted hending) hbase hrec
  cases h with
  | readData hcmd hok => exact hrecorded hcmd (by decide) (by decide) (readData_recorded hcmd hok)
  | writeData hcmd hok => exact hrecorded hcmd (by decide) (by decide) (writeData_recorded hcmd hok)
  | readRecords hcmd hok =>
    exact hrecorded hcmd (by decide) (by decide) (readRecords_recorded hcmd hok)
  | writeRecord hcmd hok =>
    exact hrecorded hcmd (by decide) (by decide) (writeRecord_recorded hcmd hok)
  | updateRecord hcmd hok =>
    exact hrecorded hcmd (by decide) (by decide) (updateRecord_recorded hcmd hok)
  | clearRecordFile hcmd hok =>
    exact hrecorded hcmd (by decide) (by decide) (clearRecordFile_recorded hcmd hok)
  | getValue hcmd hok => exact hrecorded hcmd (by decide) (by decide) (getValue_recorded hcmd hok)
  | commitReaderId hcmd hok =>
    exact hrecorded hcmd (by decide) (by decide) (commitReaderId_recorded hcmd hok)
  | valueDelta hcmd hok =>
    have hother : dfcFileCommandBase (apdu.getD 0 0) ∉ [dfcCmdCommitTransaction,
        dfcCmdAbortTransaction, dfcCmdCreateTransactionMacFile, dfcCmdDeleteFile] := by
      obtain hc | hc | hc := hcmd <;> rw [hc] <;> decide
    exact .valueDelta (hnot fun heq => hother (heq ▸ List.mem_cons_self))
      (fun _ => Notes.next_accepted hother) hcmd hok
  | commit hcmd hok =>
    have hraw := (fileCommandBase_ending _ _ (by decide)).1 hcmd
    exact .commit (fun _ => by rw [Notes.next, if_pos hraw]) hraw hok
  | abort hcmd hok =>
    have hraw := (fileCommandBase_ending _ _ (by decide)).1 hcmd
    obtain ⟨habort, -⟩ := abortTransaction_ok hok
    exact .aborted (by rw [hraw]; decide) (Notes.next_ended (.inl hraw))
      (congrArg Prod.fst habort).symm
  | deleteFile hcmd hok => exact deleteFile_acceptedAs hcmd hok
  | createTransactionMacFile hcmd hok =>
    have hraw := (fileCommandBase_ending _ _ (by decide)).1 hcmd
    exact .macFileCreated (by rw [hraw]; decide) (Notes.next_ended (.inr hraw)) hok
  | create htype hcmd hmay =>
    have hnone : noteOf e env apdu payload = none :=
      noteOf_eq_none (List.mem_append_left [dfcCmdGetFileSettings] hcmd)
    have hother : dfcFileCommandBase (apdu.getD 0 0) ∉ [dfcCmdCommitTransaction,
        dfcCmdAbortTransaction, dfcCmdCreateTransactionMacFile, dfcCmdDeleteFile] := by
      generalize dfcFileCommandBase (apdu.getD 0 0) = base at hcmd
      simp only [List.mem_cons, List.not_mem_nil, or_false] at hcmd
      obtain rfl | rfl | rfl | rfl | rfl := hcmd <;> decide
    refine .fileCreated (hnot fun heq => hother (heq ▸ List.mem_cons_self)) (fun notes => ?_) htype
      hmay
    rw [Notes.next_accepted hother, hnone, Option.toList_none, List.append_nil]
  | settings hcmd heq =>
    have hnone : noteOf e env apdu payload = none := noteOf_eq_none (by rw [hcmd]; decide)
    have htype : dfcFileTypeValue ≠ dfcFileTypeTransactionMac := by decide
    refine .fileCreated (hnot (by rw [hcmd]; decide)) (fun notes => ?_) htype ?_
    · rw [Notes.next_accepted (by rw [hcmd]; decide), hnone, Option.toList_none, List.append_nil]
    · rw [heq]
      exact .refl e dfcFileTypeValue

theorem transactionOpen_clearActiveAuthentication (e : DfcEmulator) :
    transactionOpen (dfcEmulatorClearActiveAuthentication e) = transactionOpen e := by
  rw [transactionOpen_eq, transactionOpen_eq]
  rfl

theorem transactionOpen_finalizePreserved (e : DfcEmulator) :
    transactionOpen (finalizeNativeCommand e true) = transactionOpen e := by
  obtain h | h := finalizeNativeCommand_cases e true
  · rw [h]
    rfl
  · rw [h, transactionOpen_clearActiveAuthentication]
    rfl

theorem transactionOpen_resetSession (e : DfcEmulator) :
    transactionOpen (dfcEmulatorResetSession e) = false := by
  have h := transactionOpen_abort e
  rw [transactionOpen_eq] at h ⊢
  exact h

/-- What became of a refused command: nothing that belongs to the transaction, or its end. -/
inductive RefusedAs (aes : List UInt8 → List UInt8 → List UInt8) (e e' : DfcEmulator) : Prop where
  | kept (h : Unrelated e e')
  | ended {e₁ : DfcEmulator} (hleft : Left aes e e₁)
      (h : Unrelated (dfcEmulatorAbortTransaction e₁).1 e') (hclosed : transactionOpen e' = false)

/-- A refusal that the transaction is not kept for ends it. -/
theorem Unrelated.finalizeEnded (e : DfcEmulator) :
    Unrelated (dfcEmulatorAbortTransaction e).1 (finalizeNativeCommand e false) ∧
      transactionOpen (finalizeNativeCommand e false) = false := by
  obtain h | h := finalizeNativeCommand_cases e false
  · rw [h]
    exact ⟨.refl _, transactionOpen_abort e⟩
  · rw [h, transactionOpen_clearActiveAuthentication]
    exact ⟨⟨rfl, rfl, rfl, rfl, rfl⟩, transactionOpen_abort e⟩

/-- A command is accepted for what it does, or refused and done with. -/
theorem handleCommand_outcome {reply : Reply}
    (h : dfcEmulatorHandleCommand aes e env apdu = some (e', reply)) :
    (∃ payload, reply = .accepted payload ∧ AcceptedAs aes e env apdu e' payload) ∨
      ∃ status, reply = .refused status ∧ RefusedAs aes e e' := by
  obtain ⟨payload, rfl, hacc⟩ | ⟨r, rfl, hr, hpreserved, he'⟩ := handleCommand_cases h
  · exact .inl ⟨payload, rfl, hacc.acceptedAs⟩
  refine .inr ⟨r.status, rfl, ?_⟩
  by_cases hretry : r.retryable = true
  · rw [if_pos hretry] at he'
    rw [he']
    exact .kept (.leftForRetry (hr.2 hretry))
  rw [if_neg hretry] at he'
  cases hpreserve : preserveTransactionOnFailure e apdu with
  | false =>
    have hleft : Left aes e (applyEv1ErrorResponse r.emulator) := by
      obtain hev1 | hev1 := applyEv1ErrorResponse_cases r.emulator
      · rw [hev1]
        exact .reset hr.1
      · rw [hev1]
        exact hr.1
    obtain ⟨hended, hclosed⟩ := Unrelated.finalizeEnded (applyEv1ErrorResponse r.emulator)
    rw [he', hpreserve]
    exact .ended hleft hended hclosed
  | true =>
    rw [he', hpreserve, (hpreserved hpreserve).1]
    obtain hev1 | hev1 := applyEv1ErrorResponse_cases e
    · -- The end of an EV1 session takes the transaction with it.
      rw [hev1]
      have hreset : Unrelated (dfcEmulatorAbortTransaction e).1 (dfcEmulatorResetSession e) :=
        ⟨rfl, rfl, rfl, rfl, rfl⟩
      refine .ended .same (hreset.trans (.finalizePreserved _)) ?_
      rw [transactionOpen_finalizePreserved, transactionOpen_resetSession]
    · rw [hev1]
      exact .kept (.finalizePreserved e)

/-- The state a command leaves. -/
def afterCommand (e : DfcEmulator) (apdu : List UInt8) : DfcEmulator :=
  ((dfcEmulatorHandleCommand Aes.encrypt e {} apdu).map Prod.fst).getD e

theorem afterCommand_eq {apdu : List UInt8} {reply : Reply}
    (h : (dfcEmulatorHandleCommand Aes.encrypt e {} apdu).map Prod.snd = some reply) :
    dfcEmulatorHandleCommand Aes.encrypt e {} apdu = some (afterCommand e apdu, reply) := by
  obtain ⟨r, hr, hreply⟩ := Option.map_eq_some_iff.1 h
  rw [afterCommand, hr, ← hreply]
  rfl

/-- A command in the clear, with the reader's notes. -/
def playCommand (s : DfcEmulator × Notes) (apdu : List UInt8) : DfcEmulator × Notes :=
  match dfcEmulatorHandleCommand Aes.encrypt s.1 {} apdu with
  | none => s
  | some (e', reply) => (e', s.2.next s.1 {} apdu e' reply)

theorem playCommand_run {allowed : DfcEmulator → CardEvent → Prop} {s : DfcEmulator × Notes}
    {apdu : List UInt8} (h : allowed s.1 (.command {} apdu)) :
    CardRunOf Aes.encrypt allowed s (playCommand s apdu) := by
  unfold playCommand
  cases hcommand : dfcEmulatorHandleCommand Aes.encrypt s.1 {} apdu with
  | none => exact .refl
  | some r =>
    obtain ⟨e', reply⟩ := r
    exact .single ⟨_, h, CardStep.command hcommand⟩

/-- Commands in the clear, one after the other. -/
theorem playCommands_run {allowed : DfcEmulator → CardEvent → Prop} {commands : List (List UInt8)}
    (h : ∀ e, ∀ apdu ∈ commands, allowed e (.command {} apdu)) (s : DfcEmulator × Notes) :
    CardRunOf Aes.encrypt allowed s (commands.foldl playCommand s) := by
  induction commands generalizing s with
  | nil => exact .refl
  | cons apdu commands ih =>
    have hfirst := playCommand_run (h s.1 apdu List.mem_cons_self)
    exact hfirst.trans (ih (fun e apdu' hmem => h e apdu' (List.mem_cons_of_mem _ hmem)) _)

end DfcCore
