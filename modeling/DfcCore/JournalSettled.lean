import DfcCore.TransactionSteps

/-!
# The journal between commands

What holds of the journal whenever no command is being handled: a journal that is not open is
empty, a file with a write pending belongs to the application the journal is open for, and the
journal has an entry for every file. It holds of a card that has been switched on, and every
command keeps it.
-/
namespace DfcCore
open Der

/-- What a file shows of a pending write: its application, whether there is one, and whether
the file is of a kind the journal restores. -/
def journalMark (file : DfcFile) : ℕ × Bool × Bool :=
  (file.appIndex, file.transactionPending, transactionFileHasData file)

/-- A pending write belongs to the journal. -/
def MarkOwned (s : DfcTransactionSnapshot) (mark : ℕ × Bool × Bool) : Prop :=
  mark.2.1 = true → s.active = true ∧ mark.1 = s.appIndex ∧ mark.2.2 = true

structure JournalSettled (e : DfcEmulator) : Prop where
  idle : e.snapshot.active = false → e.snapshot = {}
  owned : ∀ mark ∈ fileViews journalMark e.credential, MarkOwned e.snapshot mark
  count : e.credential.numFiles ≤ dfcMaxFiles

theorem journalMark_placementBlind : PlacementBlind journalMark := fun _ _ _ => rfl

variable {aes : List UInt8 → List UInt8 → List UInt8} {e e' : DfcEmulator} {env : CommandEnv}
  {apdu payload : List UInt8}

/-- No new write is pending. -/
theorem JournalSettled.congr (h : JournalSettled e) (hjournal : SameJournal e.snapshot e'.snapshot)
    (hmarks : ∀ mark ∈ fileViews journalMark e'.credential,
      mark ∈ fileViews journalMark e.credential ∨ mark.2.1 = false)
    (hcount : e'.credential.numFiles ≤ dfcMaxFiles) : JournalSettled e' where
  count := hcount
  idle hidle := by
    have hbefore : e.snapshot.active = false := hjournal.active ▸ hidle
    exact (hjournal.idle hbefore).trans (h.idle hbefore)
  owned mark hmark hpending := by
    obtain hold | hnone := hmarks mark hmark
    · rw [hjournal.active, hjournal.appIndex]
      exact h.owned mark hold hpending
    · rw [hpending] at hnone
      cases hnone

theorem JournalSettled.sameMarks (h : JournalSettled e)
    (hjournal : SameJournal e.snapshot e'.snapshot)
    (hmarks : fileViews journalMark e'.credential = fileViews journalMark e.credential) :
    JournalSettled e' := by
  refine h.congr hjournal (fun _ hmark => .inl (hmarks ▸ hmark)) ?_
  have hlength := congrArg List.length hmarks
  simp only [fileViews, List.length_map, List.length_range] at hlength
  rw [hlength]
  exact h.count

/-- A file that is in the array has its mark among the marks. -/
theorem mark_mem {c : DfcCredential} {i : ℕ} (hi : i < c.numFiles) :
    journalMark (c.files i) ∈ fileViews journalMark c :=
  List.mem_map.2 ⟨i, List.mem_range.2 hi, rfl⟩

/-- Without a journal nothing is pending. -/
theorem JournalSettled.not_pending (h : JournalSettled e) (hidle : e.snapshot.active = false)
    {i : ℕ} (hi : i < e.credential.numFiles) :
    (e.credential.files i).transactionPending = false := by
  cases hpending : (e.credential.files i).transactionPending with
  | false => rfl
  | true =>
    have hopen := (h.owned _ (mark_mem hi) hpending).1
    rw [hidle] at hopen
    cases hopen

theorem captureFile_journal (e : DfcEmulator) (i : ℕ) :
    SameJournal e.snapshot (dfcEmulatorTransactionSnapshotCaptureFile e i).1.snapshot := by
  unfold dfcEmulatorTransactionSnapshotCaptureFile
  dsimp only
  by_cases hactive : e.snapshot.active = false
  · rw [if_pos hactive]
    exact .refl _
  rw [if_neg hactive]
  have hopen {s : DfcTransactionSnapshot} (h : s.active = e.snapshot.active)
      (h' : s.appIndex = e.snapshot.appIndex) : SameJournal e.snapshot s :=
    ⟨h, h', fun hidle => absurd hidle hactive⟩
  split
  · exact .refl _
  split
  · exact .refl _
  split
  · exact .refl _
  split
  · exact .refl _
  split
  · exact .refl _
  · exact hopen rfl rfl

/-- A file is captured only into a journal of its own application. -/
theorem captureFile_true {i : ℕ} {captured : DfcEmulator}
    (h : dfcEmulatorTransactionSnapshotCaptureFile e i = (captured, true))
    (hactive : e.snapshot.active = true) :
    i < e.credential.numFiles ∧ (e.credential.files i).appIndex = e.snapshot.appIndex ∧
      transactionFileHasData (e.credential.files i) = true := by
  unfold dfcEmulatorTransactionSnapshotCaptureFile at h
  dsimp only at h
  rw [if_neg (by rw [hactive]; decide)] at h
  by_cases hi : e.credential.numFiles ≤ i
  · rw [if_pos hi] at h
    exact absurd (congrArg Prod.snd h) Bool.false_ne_true
  rw [if_neg hi] at h
  by_cases hforeign : (e.credential.files i).appIndex ≠ e.snapshot.appIndex ∨
      transactionFileHasData (e.credential.files i) = false
  · rw [if_pos hforeign] at h
    exact absurd (congrArg Prod.snd h) Bool.false_ne_true
  rw [not_or, not_not, Bool.not_eq_false] at hforeign
  exact ⟨Nat.lt_of_not_le hi, hforeign⟩

/-- What has begun is open for the selected application. -/
theorem snapshotBegin_cases (e : DfcEmulator) (allocationFails : Bool) :
    dfcEmulatorCommandTransactionSnapshotBegin e allocationFails =
      (e, e.snapshot.active && e.snapshot.appIndex == e.selectedAppIndex) ∨
    e.snapshot.active = false ∧ ∃ capacity,
      dfcEmulatorCommandTransactionSnapshotBegin e allocationFails =
        ({ e with
            snapshot :=
              { active := true
                appIndex := e.selectedAppIndex
                dirty := e.credential.dirty
                hasPool := true
                poolCapacity := capacity } }, true) := by
  unfold dfcEmulatorCommandTransactionSnapshotBegin
  by_cases hactive : e.snapshot.active = true
  · rw [if_pos hactive, hactive]
    exact .inl rfl
  · have hidle : e.snapshot.active = false := by simpa using hactive
    rw [if_neg hactive, hidle]
    cases transactionSnapshotCapacity e.credential e.selectedAppIndex with
    | none => exact .inl rfl
    | some capacity =>
      cases allocationFails with
      | true => exact .inl rfl
      | false => exact .inr ⟨rfl, _, rfl⟩

theorem JournalSettled.openJournal {opened : DfcEmulator} {allocationFails isOpen : Bool} {i : ℕ}
    (h : JournalSettled e) (hopen : openJournal e allocationFails i = (opened, isOpen)) :
    JournalSettled opened := by
  have hcapture {begun : DfcEmulator} (hbegun : JournalSettled begun)
      (heq : dfcEmulatorTransactionSnapshotCaptureFile begun i = (opened, isOpen)) :
      JournalSettled opened := by
    have hframe := captureFile_frame begun i
    have hjournal := captureFile_journal begun i
    rw [heq] at hframe hjournal
    dsimp only at hframe
    refine hbegun.sameMarks hjournal ?_
    rw [hframe]
  unfold DfcCore.openJournal at hopen
  obtain hbegin | ⟨hidle, capacity, hbegin⟩ := snapshotBegin_cases e allocationFails
  · rw [hbegin] at hopen
    generalize (e.snapshot.active && e.snapshot.appIndex == e.selectedAppIndex) = ok at hopen
    cases ok with
    | false =>
      obtain rfl := congrArg Prod.fst hopen
      exact h
    | true => exact hcapture h hopen
  · rw [hbegin] at hopen
    refine hcapture ?_ hopen
    refine ⟨fun hclosed => ?_, fun mark hmark hpending => ?_, h.count⟩
    · cases hclosed
    · have hactive := (h.owned mark hmark hpending).1
      rw [hidle] at hactive
      cases hactive

/-- An open journal with the file in it. -/
theorem openJournal_true {opened : DfcEmulator} {allocationFails : Bool} {i : ℕ}
    (hopen : openJournal e allocationFails i = (opened, true)) :
    opened.snapshot.active = true ∧ i < e.credential.numFiles ∧
      (e.credential.files i).appIndex = opened.snapshot.appIndex ∧
      transactionFileHasData (e.credential.files i) = true := by
  have hcapture {begun : DfcEmulator} (hactive : begun.snapshot.active = true)
      (hcredential : begun.credential = e.credential)
      (heq : dfcEmulatorTransactionSnapshotCaptureFile begun i = (opened, true)) :
      opened.snapshot.active = true ∧ i < e.credential.numFiles ∧
        (e.credential.files i).appIndex = opened.snapshot.appIndex ∧
        transactionFileHasData (e.credential.files i) = true := by
    have hjournal := captureFile_journal begun i
    have htrue := captureFile_true heq hactive
    rw [heq] at hjournal
    rw [hcredential, ← hjournal.appIndex] at htrue
    exact ⟨hjournal.active.trans hactive, htrue⟩
  unfold openJournal at hopen
  obtain hbegin | ⟨-, capacity, hbegin⟩ := snapshotBegin_cases e allocationFails
  · rw [hbegin] at hopen
    cases hok : (e.snapshot.active && e.snapshot.appIndex == e.selectedAppIndex) with
    | false =>
      rw [hok] at hopen
      exact absurd (congrArg Prod.snd hopen) Bool.false_ne_true
    | true =>
      rw [hok] at hopen
      exact hcapture (Bool.and_eq_true_iff.1 hok).1 rfl hopen
  · rw [hbegin] at hopen
    refine hcapture ?_ ?_ hopen
    · rfl
    · rfl

/-- The files a loop over the journal has not come to are as they were. -/
theorem foldl_files_other {f : DfcCredential → ℕ → DfcCredential}
    (hother : ∀ c i j, j ≠ i → (f c i).files j = c.files j) {l : List ℕ} {j : ℕ} (hj : j ∉ l)
    (c : DfcCredential) : (l.foldl f c).files j = c.files j := by
  induction l generalizing c with
  | nil => rfl
  | cons i l ih =>
    rw [List.mem_cons, not_or] at hj
    exact (ih hj.2 (f c i)).trans (hother c i j hj.1)

/-- What holds of a file after its turn holds at the end of the loop. -/
theorem foldl_files_turn {f : DfcCredential → ℕ → DfcCredential} {P : DfcFile → Prop}
    (hother : ∀ c i j, j ≠ i → (f c i).files j = c.files j)
    (hturn : ∀ c i, P ((f c i).files i)) {l : List ℕ} {j : ℕ} (hj : j ∈ l) (c : DfcCredential) :
    P ((l.foldl f c).files j) := by
  induction l generalizing c with
  | nil => exact absurd hj List.not_mem_nil
  | cons i l ih =>
    by_cases hlater : j ∈ l
    · exact ih hlater (f c i)
    · obtain rfl : j = i := (List.mem_cons.1 hj).resolve_right hlater
      rw [List.foldl_cons, foldl_files_other hother hlater]
      exact hturn c j

/-- A turn of a loop over the journal may end what is pending, and keeps what tells whose it
was. -/
structure LetGo (before after : DfcFile) : Prop where
  appIndex : after.appIndex = before.appIndex
  hasData : transactionFileHasData after = transactionFileHasData before
  pending : after.transactionPending = true → before.transactionPending = true

theorem LetGo.refl (file : DfcFile) : LetGo file file := ⟨rfl, rfl, fun h => h⟩

theorem LetGo.trans {a b c : DfcFile} (h : LetGo a b) (h' : LetGo b c) : LetGo a c :=
  ⟨h'.appIndex.trans h.appIndex, h'.hasData.trans h.hasData, fun hc => h.pending (h'.pending hc)⟩

theorem LetGo.unmark (file : DfcFile) : LetGo file { file with transactionPending := false } :=
  ⟨rfl, rfl, fun h => by cases h⟩

theorem LetGo.settle (file : DfcFile) (count : ℕ) : LetGo file (file.settle count) := by
  unfold DfcFile.settle
  split_ifs
  · exact ⟨rfl, rfl, fun h => by cases h⟩
  · exact .unmark file

theorem LetGo.modifyFile {c : DfcCredential} {i : ℕ} {f : DfcFile → DfcFile}
    (h : LetGo (c.files i) (f (c.files i))) (j : ℕ) :
    LetGo (c.files j) ((c.modifyFile i f).files j) := by
  rw [modifyFile_files]
  split_ifs with hj
  · rw [hj]
    exact h
  · exact .refl _

theorem LetGo.foldl {f : DfcCredential → ℕ → DfcCredential}
    (h : ∀ c i j, LetGo (c.files j) ((f c i).files j)) (l : List ℕ) (c : DfcCredential) (j : ℕ) :
    LetGo (c.files j) ((l.foldl f c).files j) := by
  induction l generalizing c with
  | nil => exact .refl _
  | cons i l ih => exact (h c i j).trans (ih (f c i))

/-- What becomes of the record of a file in its turn. -/
def restoredFile (s : DfcTransactionSnapshot) (i : ℕ) (file : DfcFile) : DfcFile :=
  if file.appIndex ≠ s.appIndex then file
  else if file.transactionPending = false ∨ transactionFileHasData file = false then
    { file with transactionPending := false }
  else if (s.entry i).created then file.settle 0
  else if (s.entry i).captured then file.settle (s.entry i).recordCount
  else { file with transactionPending := false }

theorem restoreFile_files (s : DfcTransactionSnapshot) (c : DfcCredential) (i j : ℕ) :
    (snapshotRestoreFile s c i).files j = (c.modifyFile i (restoredFile s i)).files j := by
  unfold snapshotRestoreFile restoredFile
  dsimp only
  rw [modifyFile_files]
  by_cases hj : j = i
  · rw [hj, if_pos rfl]
    split_ifs
    all_goals simp only [modifyFile_files, if_pos]
  · rw [if_neg hj]
    split_ifs
    all_goals simp only [modifyFile_files, if_neg hj]

theorem restoredFile_letGo (s : DfcTransactionSnapshot) (i : ℕ) (file : DfcFile) :
    LetGo file (restoredFile s i file) := by
  unfold restoredFile
  split_ifs
  · exact .refl _
  · exact .unmark _
  · exact .settle _ _
  · exact .settle _ _
  · exact .unmark _

theorem restoreFile_letGo (s : DfcTransactionSnapshot) (c : DfcCredential) (i j : ℕ) :
    LetGo (c.files j) ((snapshotRestoreFile s c i).files j) := by
  rw [restoreFile_files]
  exact .modifyFile (restoredFile_letGo s i _) j

theorem restoreFile_other (s : DfcTransactionSnapshot) (c : DfcCredential) (i j : ℕ) (h : j ≠ i) :
    (snapshotRestoreFile s c i).files j = c.files j := by
  rw [restoreFile_files, modifyFile_files, if_neg h]

/-- After its turn a file of the application has nothing pending. -/
theorem restoreFile_turn (s : DfcTransactionSnapshot) (c : DfcCredential) (i : ℕ)
    (happ : ((snapshotRestoreFile s c i).files i).appIndex = s.appIndex) :
    ((snapshotRestoreFile s c i).files i).transactionPending = false := by
  rw [(restoreFile_letGo s c i i).appIndex] at happ
  rw [restoreFile_files, modifyFile_files, if_pos rfl, restoredFile, if_neg (not_not.2 happ)]
  split_ifs <;> rfl

/-- What becomes of the record of a file that is given up. -/
def erasedFile (appIndex : ℕ) (file : DfcFile) : DfcFile :=
  if file.appIndex ≠ appIndex ∨ file.transactionPending = false ∨
      transactionFileHasData file = false then file
  else file.settle 0

theorem eraseFile_files (appIndex : ℕ) (c : DfcCredential) (i j : ℕ) :
    (snapshotEraseFile appIndex c i).files j = (c.modifyFile i (erasedFile appIndex)).files j := by
  unfold snapshotEraseFile erasedFile
  dsimp only
  rw [modifyFile_files]
  by_cases hj : j = i
  · rw [hj, if_pos rfl]
    split_ifs
    all_goals simp only [modifyFile_files, if_pos]
  · rw [if_neg hj]
    split_ifs
    all_goals simp only [modifyFile_files, if_neg hj]

theorem eraseFile_letGo (appIndex : ℕ) (c : DfcCredential) (i j : ℕ) :
    LetGo (c.files j) ((snapshotEraseFile appIndex c i).files j) := by
  rw [eraseFile_files]
  refine .modifyFile ?_ j
  unfold erasedFile
  split_ifs
  · exact .refl _
  · exact .settle _ _

theorem eraseFile_other (appIndex : ℕ) (c : DfcCredential) (i j : ℕ) (h : j ≠ i) :
    (snapshotEraseFile appIndex c i).files j = c.files j := by
  rw [eraseFile_files, modifyFile_files, if_neg h]

theorem eraseFile_turn (appIndex : ℕ) (c : DfcCredential) (i : ℕ)
    (happ : ((snapshotEraseFile appIndex c i).files i).appIndex = appIndex)
    (hdata : transactionFileHasData ((snapshotEraseFile appIndex c i).files i) = true) :
    ((snapshotEraseFile appIndex c i).files i).transactionPending = false := by
  have hlet := eraseFile_letGo appIndex c i i
  rw [hlet.appIndex] at happ
  rw [hlet.hasData] at hdata
  rw [eraseFile_files, modifyFile_files, if_pos rfl, erasedFile]
  by_cases hpending : (c.files i).transactionPending = false
  · rw [if_pos (.inr (.inl hpending))]
    exact hpending
  · rw [if_neg (by simp [happ, hdata, hpending])]
    rfl

/-- What every turn of a loop keeps, the loop keeps. -/
theorem foldl_keeps {α : Type} {g : DfcCredential → α} {f : DfcCredential → ℕ → DfcCredential}
    (h : ∀ c i, g (f c i) = g c) (l : List ℕ) (c : DfcCredential) :
    g (l.foldl f c) = g c := by
  induction l generalizing c with
  | nil => rfl
  | cons i l ih => exact (ih (f c i)).trans (h c i)

/-- A loop that ends what is pending in the files the journal owns leaves nothing pending. -/
theorem JournalSettled.foldl {f : DfcCredential → ℕ → DfcCredential} (h : JournalSettled e)
    (hlet : ∀ c i j, LetGo (c.files j) ((f c i).files j))
    (hother : ∀ c i j, j ≠ i → (f c i).files j = c.files j)
    (hturn : ∀ c i, ((f c i).files i).appIndex = e.snapshot.appIndex →
      transactionFileHasData ((f c i).files i) = true →
      ((f c i).files i).transactionPending = false)
    {j : ℕ} (hj : j < e.credential.numFiles) :
    (((List.range e.credential.numFiles).foldl f e.credential).files j).transactionPending =
      false := by
  have hgo := LetGo.foldl hlet (List.range e.credential.numFiles) e.credential j
  have hdone := foldl_files_turn (P := fun file => file.appIndex = e.snapshot.appIndex →
    transactionFileHasData file = true → file.transactionPending = false) hother hturn
    (List.mem_range.2 hj) e.credential
  cases hpending : (((List.range e.credential.numFiles).foldl f
      e.credential).files j).transactionPending with
  | false => rfl
  | true =>
    obtain ⟨-, happ, hdata⟩ := h.owned _ (mark_mem hj) (hgo.pending hpending)
    rw [← hpending]
    exact hdone (hgo.appIndex.trans happ) (hgo.hasData.trans hdata)

/-- An emulator without a journal and without pending writes. -/
theorem JournalSettled.of_idle (hsnapshot : e.snapshot = {})
    (hcount : e.credential.numFiles ≤ dfcMaxFiles)
    (hfiles : ∀ i < e.credential.numFiles, (e.credential.files i).transactionPending = false) :
    JournalSettled e where
  count := hcount
  idle _ := hsnapshot
  owned mark hmark hpending := by
    obtain ⟨i, hi, rfl⟩ := List.mem_map.1 hmark
    have hnone := hfiles i (List.mem_range.1 hi)
    rw [show (e.credential.files i).transactionPending = true from hpending] at hnone
    cases hnone

theorem restoreFile_numFiles (s : DfcTransactionSnapshot) (c : DfcCredential) (i : ℕ) :
    (snapshotRestoreFile s c i).numFiles = c.numFiles := by
  unfold snapshotRestoreFile
  dsimp only
  split_ifs <;> rfl

theorem eraseFile_numFiles (appIndex : ℕ) (c : DfcCredential) (i : ℕ) :
    (snapshotEraseFile appIndex c i).numFiles = c.numFiles := by
  unfold snapshotEraseFile
  dsimp only
  split_ifs <;> rfl

theorem JournalSettled.abortSnapshot (h : JournalSettled e) :
    JournalSettled (dfcEmulatorAbortTransactionSnapshot e).1 := by
  unfold dfcEmulatorAbortTransactionSnapshot
  dsimp only
  split_ifs
  · exact h
  · have hnum := foldl_keeps (g := DfcCredential.numFiles) (restoreFile_numFiles e.snapshot)
    refine .of_idle rfl ((hnum _ _).trans_le h.count) fun i hi => ?_
    refine h.foldl (restoreFile_letGo _) (restoreFile_other _)
      (fun c i happ _ => restoreFile_turn _ c i happ) ?_
    rwa [← hnum]
  · have hnum :=
      foldl_keeps (g := DfcCredential.numFiles) (eraseFile_numFiles e.snapshot.appIndex)
    refine .of_idle rfl ((hnum _ _).trans_le h.count) fun i hi => ?_
    refine h.foldl (eraseFile_letGo _) (eraseFile_other _) (eraseFile_turn _) ?_
    rwa [← hnum]

theorem JournalSettled.abortTransaction (h : JournalSettled e) :
    JournalSettled (dfcEmulatorAbortTransaction e).1 := by
  have hcleared : JournalSettled (if e.transactionMac.hasPending || e.transactionReaderIdPending
      then e.clearTransactionMac else e) := by
    split_ifs
    · exact h.sameMarks (.refl _) rfl
    · exact h
  have hjournal : JournalSettled (abortJournalAndMac e) := hcleared.abortSnapshot
  have hmarks : fileViews journalMark ((abortJournalAndMac e).credential.mapFilesOf
      (abortJournalAndMac e).selectedAppIndex fun file =>
        if file.hasPendingValue then file.dropPendingValue else file) =
      fileViews journalMark (abortJournalAndMac e).credential :=
    fileViews_mapFilesOf _ _ fun file => by split_ifs <;> rfl
  rw [abortTransaction_fst]
  exact hjournal.sameMarks (.refl _) hmarks

theorem JournalSettled.resetSession (h : JournalSettled e) :
    JournalSettled (dfcEmulatorResetSession e) :=
  h.abortTransaction.sameMarks (.refl _) rfl

theorem JournalSettled.selectApplication (h : JournalSettled e)
    (selection : DfcEmulatorSelectedApplication) (appIndex : ℕ) :
    JournalSettled (dfcEmulatorSelectApplication e selection appIndex) :=
  h.resetSession.sameMarks (.refl _) rfl

theorem publishTransaction_snapshot (e : DfcEmulator) :
    (dfcEmulatorPublishTransaction e).snapshot =
      if e.snapshot.active ∧ e.snapshot.appIndex = e.selectedAppIndex then {} else e.snapshot := by
  unfold dfcEmulatorPublishTransaction
  dsimp only [DfcEmulator.markDirty, DfcEmulator.mapCredential, DfcEmulator.clearTransactionMac]
  split_ifs <;> rfl

theorem JournalSettled.publish (h : JournalSettled e) :
    JournalSettled (dfcEmulatorPublishTransaction e) := by
  have hfile (i : ℕ) : (dfcEmulatorPublishTransaction e).credential.files i =
      if i < e.credential.numFiles ∧ (e.credential.files i).appIndex = e.selectedAppIndex then
        { if (e.credential.files i).hasPendingValue then (e.credential.files i).publishValue
          else e.credential.files i with transactionPending := false }
      else e.credential.files i := by
    rw [publishTransaction_credential]
    rfl
  have hcount : (dfcEmulatorPublishTransaction e).credential.numFiles = e.credential.numFiles := by
    rw [publishTransaction_credential]
    rfl
  have hsnapshot := publishTransaction_snapshot e
  by_cases hends : e.snapshot.active = true ∧ e.snapshot.appIndex = e.selectedAppIndex
  · rw [if_pos hends] at hsnapshot
    refine .of_idle hsnapshot (hcount.trans_le h.count) fun i hi => ?_
    rw [hcount] at hi
    rw [hfile]
    by_cases hown : i < e.credential.numFiles ∧
        (e.credential.files i).appIndex = e.selectedAppIndex
    · rw [if_pos hown]
    · rw [if_neg hown]
      cases hpending : (e.credential.files i).transactionPending with
      | false => rfl
      | true =>
        have howner := (h.owned _ (mark_mem hi) hpending).2.1
        exact absurd ⟨hi, howner.trans hends.2⟩ hown
  · rw [if_neg hends] at hsnapshot
    refine h.congr (hsnapshot ▸ .refl _) (fun mark hmark => ?_) (hcount.trans_le h.count)
    obtain ⟨i, hi, rfl⟩ := List.mem_map.1 hmark
    rw [List.mem_range, hcount] at hi
    rw [hfile]
    by_cases hown : i < e.credential.numFiles ∧
        (e.credential.files i).appIndex = e.selectedAppIndex
    · rw [if_pos hown]
      exact .inr rfl
    · rw [if_neg hown]
      exact .inl (mark_mem hi)

theorem JournalSettled.macTaken {op : TransactionMacOperation} (h : JournalSettled e)
    (htaken : MacTaken aes op e e') : JournalSettled e' := by
  rw [htaken.eq_update]
  exact h.sameMarks (.refl _) rfl

theorem MacTaken.snapshot {op : TransactionMacOperation} (h : MacTaken aes op e e') :
    e'.snapshot = e.snapshot := by
  rw [h.eq_update]

theorem MacTaken.credential {op : TransactionMacOperation} (h : MacTaken aes op e e') :
    e'.credential = e.credential := by
  rw [h.eq_update]

theorem JournalSettled.readDataFrom {i : ℕ} (h : JournalSettled e) (hread : ReadDataFrom e i e') :
    JournalSettled e' := by
  obtain rfl | ⟨-, counter, rfl⟩ := hread
  · exact h
  · exact h.sameMarks (.refl _)
      (fileViews_modifyFile e.credential i (f := fun file => file.withData _) rfl)

theorem notePersistentChange_journal (e : DfcEmulator) :
    SameJournal e.snapshot (dfcEmulatorTransactionSnapshotNotePersistentChange e).snapshot := by
  unfold dfcEmulatorTransactionSnapshotNotePersistentChange
  split_ifs with hactive
  · exact ⟨rfl, rfl, fun hidle => absurd hactive (by rw [hidle]; decide)⟩
  · exact .refl _

theorem setRecordOperation_journal (e : DfcEmulator) (i : ℕ) (operation : RecordTransaction)
    (recordNumber : ℕ) (hactive : e.snapshot.active = true) :
    SameJournal e.snapshot
      (dfcEmulatorCommandTransactionSetRecordOperation e i operation recordNumber).snapshot := by
  unfold dfcEmulatorCommandTransactionSetRecordOperation
  split_ifs
  · exact .refl _
  · exact ⟨rfl, rfl, fun hidle => absurd hactive (by rw [hidle]; decide)⟩

/-- A write becomes pending in a file of the journal. -/
theorem JournalSettled.pending {i : ℕ} (h : JournalSettled e) (hactive : e.snapshot.active = true)
    (happ : (e.credential.files i).appIndex = e.snapshot.appIndex)
    (hdata : transactionFileHasData (e.credential.files i) = true)
    (hjournal : SameJournal e.snapshot e'.snapshot)
    (hcount : e'.credential.numFiles = e.credential.numFiles)
    (hother : ∀ j, j ≠ i → e'.credential.files j = e.credential.files j)
    (hfile : (e'.credential.files i).appIndex = (e.credential.files i).appIndex ∧
      (e'.credential.files i).type = (e.credential.files i).type) : JournalSettled e' where
  count := hcount.trans_le h.count
  idle hidle := by
    rw [hjournal.active, hactive] at hidle
    cases hidle
  owned mark hmark hpending := by
    obtain ⟨j, hj, rfl⟩ := List.mem_map.1 hmark
    rw [List.mem_range, hcount] at hj
    rw [hjournal.active, hjournal.appIndex]
    by_cases hji : j = i
    · rw [hji]
      refine ⟨hactive, hfile.1.trans happ, ?_⟩
      simpa only [journalMark, transactionFileHasData, hfile.2] using hdata
    · rw [hother j hji] at hpending ⊢
      exact h.owned _ (mark_mem hj) hpending

/-- A file in the journal, after what opened it and what the transaction MAC took in. -/
structure InJournal (e : DfcEmulator) (i : ℕ) : Prop where
  active : e.snapshot.active = true
  appIndex : (e.credential.files i).appIndex = e.snapshot.appIndex
  hasData : transactionFileHasData (e.credential.files i) = true

theorem InJournal.of_open {opened recorded : DfcEmulator} {allocationFails : Bool} {i : ℕ}
    {op : TransactionMacOperation} (hopen : openJournal e allocationFails i = (opened, true))
    (htaken : MacTaken aes op opened recorded) : InJournal recorded i := by
  obtain ⟨hactive, -, happ, hdata⟩ := openJournal_true hopen
  have hcredential : recorded.credential = e.credential := by
    rw [htaken.credential, openJournal_frame hopen]
  refine ⟨?_, ?_, ?_⟩
  · rw [htaken.snapshot]
    exact hactive
  · rw [htaken.snapshot, hcredential]
    exact happ
  · rw [hcredential]
    exact hdata

/-- Staging in one file of the journal. -/
theorem JournalSettled.stage {i : ℕ} (h : JournalSettled e) (hin : InJournal e i)
    (hjournal : SameJournal e.snapshot e'.snapshot)
    {f : DfcFile → DfcFile} (hf : ∀ file, (f file).appIndex = file.appIndex ∧
      (f file).type = file.type)
    (hcount : e'.credential.numFiles = e.credential.numFiles)
    (hfiles : ∀ j, e'.credential.files j = (e.credential.modifyFile i f).files j) :
    JournalSettled e' := by
  refine h.pending hin.active hin.appIndex hin.hasData hjournal hcount (fun j hj => ?_) ?_
  · rw [hfiles, modifyFile_files, if_neg hj]
  · rw [hfiles, modifyFile_files, if_pos rfl]
    exact hf _

theorem JournalSettled.storeData {i start : ℕ} {octets : List UInt8} (h : JournalSettled e)
    (hbackup : (e.credential.files i).type = dfcFileTypeBackupData → InJournal e i) :
    JournalSettled (storeData e i start octets) := by
  unfold DfcCore.storeData
  dsimp only
  split_ifs with htype
  · exact h.stage (hbackup htype) (.refl _) (f := fun file =>
      { file with transactionPending := true }) (fun _ => ⟨rfl, rfl⟩) rfl fun _ => rfl
  · exact h.sameMarks (notePersistentChange_journal e) rfl

theorem appendRecordSlot_files (c : DfcCredential) (i start : ℕ) :
    (appendRecordSlot c i start).1.numFiles = c.numFiles ∧ ∃ record, ∀ j,
      (appendRecordSlot c i start).1.files j =
        (c.modifyFile i fun file => file.withRecord record).files j := by
  unfold appendRecordSlot
  dsimp only
  split_ifs
  · exact ⟨rfl, _, fun _ => rfl⟩
  · exact ⟨rfl, _, fun _ => rfl⟩

theorem JournalSettled.recordOperation {i : ℕ} (h : JournalSettled e)
    (hactive : e.snapshot.active = true) (operation : RecordTransaction) (recordNumber : ℕ) :
    JournalSettled
      (dfcEmulatorCommandTransactionSetRecordOperation e i operation recordNumber) := by
  refine h.sameMarks (setRecordOperation_journal e i operation recordNumber hactive) ?_
  unfold dfcEmulatorCommandTransactionSetRecordOperation
  split_ifs <;> rfl

theorem JournalSettled.storeRecord {i start offset : ℕ} {octets : List UInt8}
    (h : JournalSettled e) (hin : InJournal e i) :
    JournalSettled (storeRecord e i start offset octets) := by
  unfold DfcCore.storeRecord
  dsimp only
  split_ifs
  · exact h.stage hin (.refl _) (f := fun file => { file with transactionPending := true })
      (fun _ => ⟨rfl, rfl⟩) rfl fun _ => rfl
  · obtain ⟨hcount, record, hfiles⟩ := appendRecordSlot_files e.credential i start
    refine JournalSettled.recordOperation ?_ ?_ _ _
    swap
    · exact hin.active
    refine h.stage hin (.refl _) (f := fun file =>
      { file.withRecord record with transactionPending := true }) (fun _ => ⟨rfl, rfl⟩) hcount
      fun j => ?_
    dsimp only [DfcCredential.setPending, DfcCredential.writeFileData]
    rw [modifyFile_files, modifyFile_files]
    dsimp only
    rw [hfiles, hfiles, modifyFile_files, modifyFile_files, if_pos rfl]
    split_ifs <;> rfl

theorem JournalSettled.deleteFile (h : JournalSettled e) (number : UInt8) :
    JournalSettled (e.mapCredential fun c =>
      (dfcCredentialDeleteFile c e.selectedAppIndex number).1) := by
  refine h.congr (.refl _) (fun mark hmark => .inl ?_)
    ((deleteFile_numFiles_le _ _ _).trans h.count)
  dsimp only [DfcEmulator.mapCredential] at hmark
  cases hfind : dfcCredentialFindFileInApp e.credential e.selectedAppIndex number with
  | none =>
    rw [dfcCredentialDeleteFile, hfind] at hmark
    exact hmark
  | some i =>
    rw [journalMark_placementBlind.deleteFile hfind] at hmark
    exact List.mem_of_mem_eraseIdx hmark

theorem snapshotDeleteFile_journal (e : DfcEmulator) (i : ℕ) :
    SameJournal e.snapshot (dfcEmulatorTransactionSnapshotDeleteFile e i).snapshot := by
  unfold dfcEmulatorTransactionSnapshotDeleteFile
  split_ifs with hguard
  · exact .refl _
  · exact ⟨rfl, rfl, fun hidle => absurd (.inl hidle) hguard⟩

theorem JournalSettled.mayCreate {type : UInt8} (h : JournalSettled e)
    (hmay : MayCreate e type e') : JournalSettled e' := by
  obtain ⟨l, happended, hfresh⟩ := hmay
  refine h.congr happended.journal (fun mark hmark => ?_) (happended.count h.count)
  rw [happended.views journalMark_placementBlind, List.mem_append, List.mem_map] at hmark
  obtain hold | ⟨file, hfile, rfl⟩ := hmark
  · exact .inl hold
  · exact .inr (hfresh file hfile).pending

theorem JournalSettled.fileAdded {c : DfcCredential} {appIndex : ℕ} {file : DfcFile}
    (h : JournalSettled e) (hadded : FileAdded e.credential c appIndex file)
    (hpending : file.transactionPending = false) (hjournal : SameJournal e.snapshot e'.snapshot)
    (hmarks : fileViews journalMark e'.credential = fileViews journalMark c) :
    JournalSettled e' := by
  have hlength := congrArg List.length hmarks
  simp only [fileViews, List.length_map, List.length_range] at hlength
  refine h.congr hjournal (fun mark hmark => ?_) ?_
  swap
  · rw [hlength, hadded.numFiles]
    exact hadded.room
  rw [hmarks, hadded.views, List.mem_append, List.mem_singleton] at hmark
  obtain hold | rfl := hmark
  · exact .inl hold
  · exact .inr hpending

theorem JournalSettled.createTransactionMacFile (h : JournalSettled e)
    (hok : dfcEmulatorCommandCreateTransactionMacFile e apdu = .ok (e', payload)) :
    JournalSettled e' := by
  have haborted := h.abortTransaction
  obtain ⟨-, -, rfl | ⟨c, i, hcreate, rfl⟩⟩ := createTransactionMacFile_ok hok
  · cases hcreate : dfcCredentialCreateFile (dfcEmulatorAbortTransaction e).1.credential
      (dfcEmulatorAbortTransaction e).1.selectedAppIndex (apdu.getD 1 0) with
    | mk c created =>
      cases created with
      | none =>
        rw [createFile_none hcreate]
        exact haborted
      | some i => exact haborted.fileAdded (createFile_added hcreate).2 rfl (.refl _) rfl
  · obtain ⟨rfl, hadded⟩ := createFile_added hcreate
    cases hresize : dfcFileResize c (dfcEmulatorAbortTransaction e).1.credential.numFiles
      dfcTransactionMacFileLength with
    | mk d ok =>
      cases ok with
      | false =>
        rw [resize_refused hresize]
        exact haborted.fileAdded (hadded.modifyFile
          (f := fun file => file.installTransactionMac apdu) rfl rfl) rfl (.refl _) rfl
      | true =>
        obtain ⟨offset, hresized⟩ := hadded.resize ⟨rfl, rfl⟩ hresize
        exact haborted.fileAdded (hresized.modifyFile
          (f := fun file => file.installTransactionMac apdu) rfl rfl) rfl (.refl _) rfl

/-- An accepted command leaves the journal settled. -/
theorem JournalSettled.accepted (h : JournalSettled e)
    (haccepted : AcceptedBy aes e env apdu e' payload) : JournalSettled e' := by
  cases haccepted with
  | readData _ hok =>
    obtain ⟨i, e₁, e₂, -, -, -, -, -, hread, htaken, rfl⟩ := readData_ok hok
    have hrendered := h.readDataFrom hread
    have hrecorded : JournalSettled e₂ := by
      split_ifs at htaken
      · rw [htaken]
        exact hrendered
      · exact hrendered.macTaken htaken
    exact hrecorded.sameMarks (.refl _) rfl
  | writeData _ hok =>
    obtain ⟨i, start, clear, opened, recorded, -, -, -, -, -, -, hopen, htaken, rfl, -⟩ :=
      writeData_ok hok
    split_ifs at hopen with hbackup
    · exact ((h.openJournal hopen).macTaken htaken).storeData fun _ => .of_open hopen htaken
    · rw [hopen] at htaken
      refine (h.macTaken htaken).storeData fun htype => absurd ?_ hbackup
      rwa [htaken.credential] at htype
  | readRecords _ hok =>
    obtain ⟨i, count, e₁, -, -, -, -, -, -, -, -, -, htaken, rfl⟩ := readRecords_ok hok
    exact (h.macTaken htaken).sameMarks (.refl _) rfl
  | writeRecord _ hok =>
    obtain ⟨i, start, clear, opened, recorded, -, -, -, -, -, -, -, -, hopen, -, -, htaken, rfl,
      -⟩ := writeRecord_ok hok
    exact ((h.openJournal hopen).macTaken htaken).storeRecord (.of_open hopen htaken)
  | updateRecord _ hok =>
    obtain ⟨i, start, clear, opened, recorded, -, -, -, -, -, -, -, -, hopen, -, htaken, rfl, -⟩ :=
      updateRecord_ok hok
    have hin : InJournal recorded i := .of_open hopen htaken
    refine JournalSettled.recordOperation ?_ ?_ _ _
    · exact ((h.openJournal hopen).macTaken htaken).stage hin (.refl _)
        (f := fun file => { file with transactionPending := true }) (fun _ => ⟨rfl, rfl⟩) rfl
        fun _ => rfl
    · exact hin.active
  | clearRecordFile _ hok =>
    obtain ⟨i, opened, recorded, -, -, -, hopen, -, htaken, rfl, -⟩ := clearRecordFile_ok hok
    have hin : InJournal recorded i := .of_open hopen htaken
    refine JournalSettled.recordOperation ?_ ?_ _ _
    · refine ((h.openJournal hopen).macTaken htaken).stage hin (.refl _) (f := fun file =>
        { file.withRecord { file.state.record with count := 0 } with
          transactionPending := true }) (fun _ => ⟨rfl, rfl⟩) rfl fun j => ?_
      dsimp only [DfcEmulator.mapCredential, DfcCredential.setPending]
      simp only [modifyFile_files]
      split_ifs <;> rfl
    · exact hin.active
  | getValue _ hok =>
    obtain ⟨i, -, -, -, htaken⟩ := getValue_ok hok
    exact h.macTaken htaken
  | valueDelta _ hok =>
    obtain ⟨i, amount, next, recorded, -, -, -, -, -, -, htaken, rfl, -⟩ := valueDelta_ok hok
    exact (h.macTaken htaken).sameMarks (.refl _)
      (fileViews_modifyFile recorded.credential i (f := fun file => file.withValue _) rfl)
  | commit _ hok =>
    obtain ⟨-, ⟨-, rfl, -⟩ | ⟨i, mac, counter, -, -, rfl, -⟩⟩ := commitTransaction_ok hok
    · exact h.publish
    · exact h.publish.sameMarks (.refl _) (fileViews_modifyFile _ i
        (f := fun file => file.withTransactionMac _) rfl)
  | commitReaderId _ hok =>
    obtain ⟨readerId, tmac, recorded, -, -, -, htaken, rfl⟩ := commitReaderId_ok hok
    exact (h.macTaken htaken).sameMarks (.refl _) rfl
  | abort _ hok =>
    have haborted := h.abortTransaction
    rw [(abortTransaction_ok hok).1] at haborted
    exact haborted
  | deleteFile _ hok =>
    obtain ⟨i, -, -, -, rfl, -⟩ := deleteFile_ok hok
    have hbefore : JournalSettled (beforeDelete e i) := by
      unfold beforeDelete
      split_ifs
      · exact h.abortTransaction
      · refine h.sameMarks (snapshotDeleteFile_journal e i) ?_
        rw [snapshotDeleteFile_frame]
    refine (hbefore.deleteFile (apdu.getD 1 0)).sameMarks (notePersistentChange_journal _) ?_
    unfold dfcEmulatorTransactionSnapshotNotePersistentChange
    split_ifs <;> rfl
  | createTransactionMacFile _ hok => exact h.createTransactionMacFile hok
  | create _ _ hmay => exact h.mayCreate hmay
  | settings _ heq =>
    rw [heq]
    exact h

theorem JournalSettled.leftForRetry (h : JournalSettled e) (hleft : LeftForRetry e e') :
    JournalSettled e' := by
  cases hleft with
  | same => exact h
  | abandoned hopen =>
    unfold abandonJournal
    split_ifs
    · exact h.openJournal hopen
    · exact (h.openJournal hopen).abortSnapshot
  | read hread => exact h.readDataFrom hread

/-- A refused handler leaves the journal settled. -/
theorem JournalSettled.left (h : JournalSettled e) (hleft : Left aes e e') :
    JournalSettled e' := by
  induction hleft with
  | retry hretry => exact h.leftForRetry hretry
  | opened hopen => exact h.openJournal hopen
  | taken hread htaken => exact (h.readDataFrom hread).macTaken htaken
  | chain _ ih => exact ih.sameMarks (.refl _) rfl
  | reset _ ih => exact ih.resetSession
  | cleared =>
    refine h.sameMarks (.refl _) (fileViews_mapFilesOf e.credential e.selectedAppIndex
      (f := fun file => if file.type = dfcFileTypeValue then file.dropPendingValue else file)
      fun file => ?_)
    split_ifs <;> rfl
  | aborted => exact h.abortTransaction
  | created _ hmay => exact h.mayCreate hmay

theorem JournalSettled.clearActiveAuthentication (h : JournalSettled e) :
    JournalSettled (dfcEmulatorClearActiveAuthentication e) := h.sameMarks (.refl _) rfl

theorem JournalSettled.finalizeNative (h : JournalSettled e) (preserve : Bool) :
    JournalSettled (finalizeNativeCommand e preserve) := by
  have hkept : JournalSettled (if preserve then e else (dfcEmulatorAbortTransaction e).1) := by
    split_ifs
    · exact h
    · exact h.abortTransaction
  obtain hfinal | hfinal := finalizeNativeCommand_cases e preserve
  · rw [hfinal]
    exact hkept
  · rw [hfinal]
    exact hkept.clearActiveAuthentication

theorem JournalSettled.finalize (h : JournalSettled e) (preserve : Bool) :
    JournalSettled (finalizeNativeCommand (applyEv1ErrorResponse e) preserve) := by
  refine JournalSettled.finalizeNative ?_ preserve
  unfold applyEv1ErrorResponse
  split_ifs
  · exact h.resetSession
  · exact h

/-- Every command on files and transactions leaves the journal settled. -/
theorem JournalSettled.command {reply : Reply} (h : JournalSettled e)
    (hcommand : dfcEmulatorHandleCommand aes e env apdu = some (e', reply)) :
    JournalSettled e' := by
  obtain ⟨payload, -, haccepted⟩ | ⟨r, -, hrefused, -, rfl⟩ := handleCommand_cases hcommand
  · exact h.accepted haccepted
  · have hleft := h.left hrefused.1
    split_ifs
    · exact hleft
    · exact hleft.finalize _

/-- A command that has nothing to do with the journal: it may change keys, settings, sessions
and the other contents of the card, and add or remove applications and files. -/
structure OutsideJournal (e e' : DfcEmulator) : Prop where
  snapshot : e'.snapshot = e.snapshot
  marks : ∀ mark ∈ fileViews journalMark e'.credential,
    mark ∈ fileViews journalMark e.credential ∨ mark.2.1 = false
  count : e'.credential.numFiles ≤ dfcMaxFiles

/-- One step of the card between two commands. -/
inductive JournalStep (aes : List UInt8 → List UInt8 → List UInt8) :
    DfcEmulator → DfcEmulator → Prop where
  | command {e e' : DfcEmulator} {env : CommandEnv} {apdu : List UInt8} {reply : Reply}
      (h : dfcEmulatorHandleCommand aes e env apdu = some (e', reply)) : JournalStep aes e e'
  | reset (e : DfcEmulator) : JournalStep aes e (dfcEmulatorResetSession e)
  | select (e : DfcEmulator) (selection : DfcEmulatorSelectedApplication) (appIndex : ℕ) :
      JournalStep aes e (dfcEmulatorSelectApplication e selection appIndex)
  | outside {e e' : DfcEmulator} (h : OutsideJournal e e') : JournalStep aes e e'

/-- An emulator that is switched on over a card without pending writes. -/
structure SwitchedOn (e : DfcEmulator) : Prop where
  snapshot : e.snapshot = {}
  count : e.credential.numFiles ≤ dfcMaxFiles
  files : ∀ i < e.credential.numFiles, (e.credential.files i).transactionPending = false

def JournalRun (aes : List UInt8 → List UInt8 → List UInt8) : DfcEmulator → DfcEmulator → Prop :=
  Relation.ReflTransGen (JournalStep aes)

theorem JournalSettled.step (h : JournalSettled e) (hstep : JournalStep aes e e') :
    JournalSettled e' := by
  cases hstep with
  | command hcommand => exact h.command hcommand
  | reset => exact h.resetSession
  | select selection appIndex => exact h.selectApplication selection appIndex
  | outside hout => exact h.congr (hout.snapshot ▸ .refl _) hout.marks hout.count

theorem JournalSettled.run (hon : SwitchedOn e) (hrun : JournalRun aes e e') :
    JournalSettled e' := by
  induction hrun with
  | refl => exact .of_idle hon.snapshot hon.count hon.files
  | tail _ hstep ih => exact ih.step hstep

end DfcCore
