import DfcCore.JournalWrites

/-!
# Ending a transaction

An abort restores every file to what is committed, and never has to give one up; a commit makes
what is staged the committed contents. Both close the journal.
-/
namespace DfcCore
open Der
open scoped BigOperators

variable {e e' : DfcEmulator} {c c' : DfcCredential} {i j : ℕ}

/-- Every file keeps its record and its octets, wherever these stand, and the journal its
entries. -/
structure StoreKept (e e' : DfcEmulator) : Prop where
  journal : e'.snapshot = { e.snapshot with dirty := e'.snapshot.dirty }
  idle : e.snapshot.active = false → e'.snapshot = e.snapshot
  selected : e'.selectedAppIndex = e.selectedAppIndex
  apps : e'.credential.numApps ≤ dfcMaxApps
  numFiles : e'.credential.numFiles = e.credential.numFiles
  pool : FilePoolInv False e'.credential
  view : ∀ j < e.credential.numFiles,
    slotView (e'.credential.files j) = slotView (e.credential.files j)
  slice : ∀ j < e.credential.numFiles,
    e'.credential.filePool.read (e'.credential.files j).dataOffset (e'.credential.files j).dataLen =
      e.credential.filePool.read (e.credential.files j).dataOffset (e.credential.files j).dataLen

theorem StoreKept.kept (h : StoreKept e e') (hj : j < e.credential.numFiles) :
    SlotKept e e' j j where
  view := h.view j hj
  slice := h.slice j hj
  entry := by
    rw [h.journal]
    rfl
  preimage _ := by rw [h.journal]

/-- Such a step is none of the store. -/
theorem StoreKept.sound (h : StoreKept e e') (hsound : JournalSound e) :
    JournalSound e' ∧ storeOf e' = storeOf e := by
  have hjournal : SameJournal e.snapshot e'.snapshot :=
    ⟨by rw [h.journal], by rw [h.journal], h.idle⟩
  refine ⟨⟨?_, h.pool, h.apps, fun hopen => ?_⟩, ?_⟩
  · refine hsound.settled.sameMarks hjournal (fileViews_congr h.numFiles fun j hj => ?_)
    unfold journalMark
    rw [(h.kept hj).appIndex, (h.kept hj).pending, (h.kept hj).hasData]
  · refine (hsound.journal (hjournal.active ▸ hopen)).transfer hjournal h.selected
      ⟨by rw [h.journal], by rw [h.journal], by rw [h.journal]⟩ id (Set.injOn_id _)
      (fun j hj => ?_) fun j hj => ?_
    · rw [h.numFiles] at hj
      exact hj
    · rw [h.numFiles] at hj
      exact h.kept hj
  · exact storeOf_congr h.numFiles fun j hj => (h.kept hj).cell hjournal.active hjournal.appIndex

/-- The files, their octets and the journal stay where they are. -/
structure StoreFrame (e e' : DfcEmulator) : Prop where
  journal : e'.snapshot = { e.snapshot with dirty := e'.snapshot.dirty }
  idle : e.snapshot.active = false → e'.snapshot = e.snapshot
  selected : e'.selectedAppIndex = e.selectedAppIndex
  apps : e.credential.numApps ≤ dfcMaxApps → e'.credential.numApps ≤ dfcMaxApps
  numFiles : e'.credential.numFiles = e.credential.numFiles
  used : e'.credential.filePoolUsed = e.credential.filePoolUsed
  pool : e'.credential.filePool = e.credential.filePool
  view : ∀ j, slotView (e'.credential.files j) = slotView (e.credential.files j)
  dataOffset : ∀ j, (e'.credential.files j).dataOffset = (e.credential.files j).dataOffset

theorem StoreFrame.refl (e : DfcEmulator) : StoreFrame e e :=
  ⟨rfl, fun _ => rfl, rfl, fun h => h, rfl, rfl, rfl, fun _ => rfl, fun _ => rfl⟩

theorem StoreFrame.trans {a b c : DfcEmulator} (h : StoreFrame a b) (h' : StoreFrame b c) :
    StoreFrame a c where
  journal := by rw [h'.journal, h.journal]
  idle hidle := (h'.idle (by rw [h.idle hidle, hidle])).trans (h.idle hidle)
  selected := h'.selected.trans h.selected
  apps ha := h'.apps (h.apps ha)
  numFiles := h'.numFiles.trans h.numFiles
  used := h'.used.trans h.used
  pool := h'.pool.trans h.pool
  view j := (h'.view j).trans (h.view j)
  dataOffset j := (h'.dataOffset j).trans (h.dataOffset j)

theorem StoreFrame.dataLen (h : StoreFrame e e') (j : ℕ) :
    (e'.credential.files j).dataLen = (e.credential.files j).dataLen :=
  congrArg (fun v => v.2.1) (h.view j)

theorem StoreFrame.storeKept (h : StoreFrame e e') (hsound : JournalSound e) : StoreKept e e' where
  journal := h.journal
  idle := h.idle
  selected := h.selected
  apps := h.apps hsound.apps
  numFiles := h.numFiles
  pool := hsound.files.frame h.numFiles h.used (fun a _ _ => by rw [h.pool]) h.dataOffset h.dataLen
  view j _ := h.view j
  slice j _ := by rw [h.pool, h.dataOffset, h.dataLen]

theorem StoreFrame.sound (h : StoreFrame e e') (hsound : JournalSound e) :
    JournalSound e' ∧ storeOf e' = storeOf e := (h.storeKept hsound).sound hsound

/-- A step that changes the emulator outside the credential and the journal. -/
theorem StoreFrame.of_eq (hsnapshot : e'.snapshot = e.snapshot)
    (hselected : e'.selectedAppIndex = e.selectedAppIndex)
    (hcredential : e'.credential = e.credential) : StoreFrame e e' where
  journal := by rw [hsnapshot]
  idle _ := hsnapshot
  selected := hselected
  apps h := hcredential ▸ h
  numFiles := by rw [hcredential]
  used := by rw [hcredential]
  pool := by rw [hcredential]
  view j := by rw [hcredential]
  dataOffset j := by rw [hcredential]

/-- An edit of a file's record that the store does not show. -/
theorem StoreFrame.modifyFile (e : DfcEmulator) (i : ℕ) {f : DfcFile → DfcFile}
    (hview : ∀ file, slotView (f file) = slotView file)
    (hoffset : ∀ file, (f file).dataOffset = file.dataOffset) :
    StoreFrame e (e.mapCredential fun c => c.modifyFile i f) where
  journal := rfl
  idle _ := rfl
  selected := rfl
  apps h := h
  numFiles := rfl
  used := rfl
  pool := rfl
  view j := by
    rw [DfcEmulator.mapCredential]
    dsimp only
    rw [modifyFile_files]
    split_ifs with hj
    · rw [hj, hview]
    · rfl
  dataOffset j := by
    rw [DfcEmulator.mapCredential]
    dsimp only
    rw [modifyFile_files]
    split_ifs with hj
    · rw [hj, hoffset]
    · rfl

theorem StoreFrame.markDirty (e : DfcEmulator) : StoreFrame e e.markDirty :=
  ⟨rfl, fun _ => rfl, rfl, fun h => h, rfl, rfl, rfl, fun _ => rfl, fun _ => rfl⟩

/-- A change that is noted, to stay dirty when the transaction is given up. -/
theorem StoreFrame.noted (e : DfcEmulator) :
    StoreFrame e (dfcEmulatorTransactionSnapshotNotePersistentChange e).markDirty := by
  unfold dfcEmulatorTransactionSnapshotNotePersistentChange
  split_ifs with hactive
  · refine ⟨rfl, fun hidle => ?_, rfl, fun h => h, rfl, rfl, rfl, fun _ => rfl, fun _ => rfl⟩
    rw [hidle] at hactive
    cases hactive
  · exact ⟨rfl, fun _ => rfl, rfl, fun h => h, rfl, rfl, rfl, fun _ => rfl, fun _ => rfl⟩

/-- One turn of a loop, as the file it is about sees it. -/
structure Turned (f : DfcCredential → ℕ → DfcCredential) (c c' : DfcCredential) (i : ℕ) : Prop where
  turn : ∃ c₁, c₁.files i = c.files i ∧
    c₁.filePool.read (c.files i).dataOffset (c.files i).dataLen =
      c.filePool.read (c.files i).dataOffset (c.files i).dataLen ∧
    c₁.filePoolUsed = c.filePoolUsed ∧ c'.files i = (f c₁ i).files i ∧
    c'.filePool.read (c.files i).dataOffset (c.files i).dataLen =
      (f c₁ i).filePool.read (c.files i).dataOffset (c.files i).dataLen

/-- The state of a loop each turn of which rewrites one file in its place. -/
structure LoopState (c c' : DfcCredential) : Prop where
  numFiles : c'.numFiles = c.numFiles
  numApps : c'.numApps = c.numApps
  used : c'.filePoolUsed = c.filePoolUsed
  key : ∀ j, (c'.files j).key = (c.files j).key
  place : ∀ j, (c'.files j).dataOffset = (c.files j).dataOffset ∧
    (c'.files j).dataLen = (c.files j).dataLen

theorem foldl_sliceWrite {f : DfcCredential → ℕ → DfcCredential}
    (h : ∀ c i, SliceWrite c (f c i) i) {l : List ℕ} (hnodup : l.Nodup) {c : DfcCredential}
    (hpool : FilePoolInv False c) (hl : ∀ i ∈ l, i < c.numFiles) :
    LoopState c (l.foldl f c) ∧ FilePoolInv False (l.foldl f c) ∧
      (∀ j < c.numFiles, j ∉ l → (l.foldl f c).files j = c.files j ∧
        (l.foldl f c).filePool.read (c.files j).dataOffset (c.files j).dataLen =
          c.filePool.read (c.files j).dataOffset (c.files j).dataLen) ∧
      ∀ j ∈ l, Turned f c (l.foldl f c) j := by
  induction l generalizing c with
  | nil => exact ⟨⟨rfl, rfl, rfl, fun _ => rfl, fun _ => ⟨rfl, rfl⟩⟩, hpool,
      fun _ _ _ => ⟨rfl, rfl⟩, fun _ hj => absurd hj List.not_mem_nil⟩
  | cons i l ih =>
    have hwrite := h c i
    have hi : i < c.numFiles := hl i List.mem_cons_self
    rw [List.nodup_cons] at hnodup
    have hread {j : ℕ} (hj : j < c.numFiles) (hji : j ≠ i) :
        (f c i).filePool.read (c.files j).dataOffset (c.files j).dataLen =
          c.filePool.read (c.files j).dataOffset (c.files j).dataLen := by
      have hother := hwrite.read_other hpool hi hj hji
      rwa [hwrite.other j hji] at hother
    obtain ⟨hstate, hinv, hrest, hturned⟩ := ih hnodup.2 (hwrite.files hi hpool)
      fun k hk => by rw [hwrite.numFiles]; exact hl k (List.mem_cons_of_mem i hk)
    rw [List.foldl_cons]
    refine ⟨⟨hstate.numFiles.trans hwrite.numFiles, hstate.numApps.trans hwrite.numApps,
      hstate.used.trans hwrite.used, fun j => ?_, fun j => ?_⟩, hinv, fun j hj hjl => ?_,
      fun j hjl => ?_⟩
    · rw [hstate.key]
      by_cases hji : j = i
      · rw [hji, hwrite.key]
      · rw [hwrite.other j hji]
    · rw [(hstate.place j).1, (hstate.place j).2]
      exact hwrite.place j
    · rw [List.mem_cons, not_or] at hjl
      obtain ⟨hfile, hslice⟩ := hrest j (by rw [hwrite.numFiles]; exact hj) hjl.2
      rw [hwrite.other j hjl.1] at hfile hslice
      exact ⟨hfile, hslice.trans (hread hj hjl.1)⟩
    · by_cases hji : j = i
      · subst hji
        obtain ⟨hfile, hslice⟩ := hrest j (by rw [hwrite.numFiles]; exact hi) hnodup.1
        rw [hwrite.dataOffset, hwrite.dataLen] at hslice
        exact ⟨c, rfl, rfl, rfl, hfile, hslice⟩
      · have hj : j < c.numFiles := hl j hjl
        have hmem : j ∈ l := (List.mem_cons.mp hjl).resolve_left hji
        obtain ⟨c₁, hfile, hslice, hused, hresult, hoctets⟩ := (hturned j hmem).turn
        rw [hwrite.other j hji] at hfile hslice hoctets
        exact ⟨c₁, hfile, hslice.trans (hread hj hji), hused.trans hwrite.used, hresult, hoctets⟩

theorem settle_fields (file : DfcFile) (count : ℕ) :
    (file.settle count).key = file.key ∧ (file.settle count).dataOffset = file.dataOffset ∧
      (file.settle count).dataLen = file.dataLen ∧
      (file.settle count).recordSlots = file.recordSlots ∧
      (file.settle count).transactionPending = false ∧
      (file.settle count).recordCount = if dfcFileTypeIsRecord file.type then count else 0 := by
  unfold DfcFile.settle
  by_cases hrecord : dfcFileTypeIsRecord file.type = true
  · rw [if_pos hrecord, if_pos hrecord]
    exact ⟨rfl, rfl, rfl, rfl, rfl, if_pos hrecord⟩
  · rw [if_neg hrecord, if_neg hrecord]
    exact ⟨rfl, rfl, rfl, rfl, rfl, if_neg hrecord⟩

theorem SliceWrite.settle (c : DfcCredential) (i count : ℕ) :
    SliceWrite c (c.modifyFile i fun file => file.settle count) i := by
  obtain ⟨hkey, hoffset, hlen, hslots, -, -⟩ := settle_fields (c.files i) count
  exact .modifyFile c i hkey ⟨hoffset, hlen⟩ hslots

theorem SliceWrite.unmark (c : DfcCredential) (i : ℕ) :
    SliceWrite c (c.modifyFile i fun file => { file with transactionPending := false }) i :=
  .modifyFile c i rfl ⟨rfl, rfl⟩ rfl

theorem SliceWrite.withPool {pool : Mem} (h : SliceWrite c c' i)
    (hpool : ∀ a, a < (c.files i).dataOffset ∨ (c.files i).dataOffset + (c.files i).dataLen ≤ a →
      pool a = c.filePool a) : SliceWrite c { c' with filePool := pool } i :=
  ⟨h.numFiles, h.numApps, h.used, h.other, h.key, h.dataOffset, h.dataLen, h.slots, hpool⟩

/-- A turn of the loop that restores the files writes into the slice of its file alone. -/
theorem SliceWrite.restoreFile (s : DfcTransactionSnapshot) (c : DfcCredential) (i : ℕ) :
    SliceWrite c (snapshotRestoreFile s c i) i := by
  have hdata {start : ℕ} (hstart : dfcFileData c (c.files i) = some start) :
      start = (c.files i).dataOffset := (dfcFileData_bound hstart).1
  unfold snapshotRestoreFile
  dsimp only
  split_ifs
  · exact .refl c i
  · exact .unmark c i
  · refine (SliceWrite.settle c i 0).withPool fun a ha => ?_
    unfold eraseFileData
    cases hstart : dfcFileData c (c.files i) with
    | none => rfl
    | some start =>
      rw [hdata hstart]
      exact Mem.fill_apply_of_out (by omega)
  · refine (SliceWrite.settle c i _).withPool fun a ha => ?_
    cases hstart : dfcFileData c (c.files i) with
    | none => rfl
    | some start =>
      rw [hdata hstart]
      exact Mem.write_apply_of_out (by rw [Mem.length_read]; omega)
  · exact .unmark c i

/-- In a pool in order the slice of a file is the one `dfc_file_data` hands out. -/
theorem fileData_eq {z : Prop} (h : FilePoolInv z c) (hi : i < c.numFiles) :
    dfcFileData c (c.files i) =
      if (c.files i).dataLen = 0 then none else some (c.files i).dataOffset := by
  unfold dfcFileData
  by_cases h0 : (c.files i).dataLen = 0
  · rw [if_pos (.inr h0), if_pos h0]
  · have hslice := h.slice hi h0
    rw [if_neg (by simp [h0, hslice.2]), if_neg (not_lt.mpr hslice.1), if_neg h0]

/-- The journal can restore every file it has to. -/
theorem JournalSound.recoverable (h : JournalSound e) (hactive : e.snapshot.active = true)
    (hi : i < e.credential.numFiles) :
    snapshotFileRecoverable e.snapshot e.credential i = true := by
  have hopen := h.journal hactive
  unfold snapshotFileRecoverable
  dsimp only
  split_ifs with hskip
  · rfl
  push Not at hskip
  obtain ⟨happ, hpending, hdata, hcreated⟩ := hskip
  have hcovered : Covered e i := ⟨hi, happ, by simpa using hdata⟩
  have hslot := hopen.slots i hcovered
  have hcaptured : (e.snapshot.entry i).captured = true :=
    (hslot.marked (by simpa using hpending)).resolve_right hcreated
  have hplaced := hslot.placed hcaptured
  have hsome : (e.credential.files i).dataLen = 0 ∨
      (dfcFileData e.credential (e.credential.files i)).isSome = true := by
    rw [fileData_eq h.files hi]
    by_cases h0 : (e.credential.files i).dataLen = 0
    · exact .inl h0
    · rw [if_neg h0]
      exact .inr rfl
  simp only [hcaptured, hopen.hasPool, Bool.or_true, Bool.and_true, Bool.true_and,
    Bool.and_eq_true, Bool.or_eq_true, beq_iff_eq, decide_eq_true_eq]
  exact ⟨⟨by omega, by omega⟩, hsome⟩

/-- What a file shows after its turn: what was committed, if it was covered. -/
theorem restoreFile_live (h : JournalSound e) (hactive : e.snapshot.active = true)
    (hi : i < e.credential.numFiles) (hsame : c.files i = e.credential.files i)
    (hslice : c.filePool.read (e.credential.files i).dataOffset (e.credential.files i).dataLen =
      e.credential.filePool.read (e.credential.files i).dataOffset (e.credential.files i).dataLen)
    (hused : c.filePoolUsed = e.credential.filePoolUsed) :
    ((snapshotRestoreFile e.snapshot c i).files i).transactionPending = false ∧
      liveContents (snapshotRestoreFile e.snapshot c i) i = committedContents e i := by
  have hwrite := SliceWrite.restoreFile e.snapshot c i
  have hdata : dfcFileData c (c.files i) =
      if (e.credential.files i).dataLen = 0 then none
      else some (e.credential.files i).dataOffset := by
    rw [← fileData_eq h.files hi]
    unfold dfcFileData
    rw [hsame, hused]
  have hunchanged (hpending : (e.credential.files i).transactionPending = false) :
      committedContents e i = liveContents e.credential i := h.committed_of_not_pending hi hpending
  have hlive : liveContents c i = liveContents e.credential i := by
    unfold liveContents
    rw [hsame, hslice]
  have hunmarked : liveContents
      (c.modifyFile i fun file => { file with transactionPending := false })
      i = liveContents c i := by
    unfold liveContents
    rw [modifyFile_files, if_pos rfl]
    rfl
  have hsettled (count : ℕ) (pool : Mem) {octets : List UInt8}
      (hpool : pool.read (e.credential.files i).dataOffset
        (e.credential.files i).dataLen = octets) :
      liveContents { c.modifyFile i fun file => file.settle count with filePool := pool } i =
        { size := (e.credential.files i).recordSize
          count := if dfcFileTypeIsRecord (e.credential.files i).type then count else 0
          octets := octets } := by
    obtain ⟨-, hoffset, hlen, -, -, hcount⟩ := settle_fields (e.credential.files i) count
    have hsize := (SliceWrite.settle c i count).recordSize
    rw [modifyFile_files, if_pos rfl, hsame] at hsize
    unfold liveContents
    rw [modifyFile_files, if_pos rfl, hsame, hoffset, hlen, hcount, hsize, ← hpool]
  unfold snapshotRestoreFile
  dsimp only
  rw [hsame]
  by_cases happ : (e.credential.files i).appIndex = e.snapshot.appIndex
  swap
  · rw [if_pos happ, hsame]
    have hnone : (e.credential.files i).transactionPending = false := by
      cases hpending : (e.credential.files i).transactionPending with
      | false => rfl
      | true => exact absurd (h.covered_of_pending hi hpending).2.appIndex happ
    exact ⟨hnone, hlive.trans (hunchanged hnone).symm⟩
  rw [if_neg (not_not.mpr happ)]
  by_cases hplain : (e.credential.files i).transactionPending = false ∨
      transactionFileHasData (e.credential.files i) = false
  · rw [if_pos hplain, modifyFile_files, if_pos rfl]
    have hnone : (e.credential.files i).transactionPending = false := by
      refine hplain.elim id fun hno => ?_
      cases hpending : (e.credential.files i).transactionPending with
      | false => rfl
      | true =>
        have hhas := (h.covered_of_pending hi hpending).2.hasData
        rw [hno] at hhas
        cases hhas
    exact ⟨rfl, hunmarked.trans (hlive.trans (hunchanged hnone).symm)⟩
  rw [if_neg hplain]
  rw [not_or, Bool.not_eq_false, Bool.not_eq_false] at hplain
  have hcovered : Covered e i := ⟨hi, happ, hplain.2⟩
  have hpendingNone (count : ℕ) (pool : Mem) :
      (({ c.modifyFile i fun file => file.settle count with filePool := pool } :
        DfcCredential).files i).transactionPending = false := by
    obtain ⟨-, -, -, -, hpending, -⟩ := settle_fields (c.files i) count
    rw [modifyFile_files, if_pos rfl, hpending]
  rw [committedContents_of_covered hactive hcovered]
  by_cases hcreated : (e.snapshot.entry i).created = true
  · rw [if_pos hcreated, if_pos hcreated]
    refine ⟨hpendingNone _ _, (@hsettled 0 _ (List.replicate _ 0) ?_).trans (by rw [ite_self])⟩
    unfold eraseFileData
    rw [← hsame, hdata, hsame]
    split_ifs with h0
    · rw [h0]
      rfl
    · exact Mem.read_fill_self _ _ _ _
  · have hcaptured : (e.snapshot.entry i).captured = true :=
      (((h.journal hactive).slots i hcovered).marked hplain.1).resolve_right hcreated
    rw [if_neg hcreated, if_neg hcreated, if_pos hcaptured, if_pos hcaptured]
    refine ⟨hpendingNone _ _, hsettled _ _ ?_⟩
    rw [← hsame, hdata, hsame]
    split_ifs with h0
    · rw [h0]
      rfl
    · exact Mem.read_write_self' (Mem.length_read _ _ _)

theorem storeOf_map {f : Cell FileKey Contents → Cell FileKey Contents}
    (hcount : e'.credential.numFiles = e.credential.numFiles)
    (h : ∀ i < e.credential.numFiles, storeCell e' i = f (storeCell e i)) :
    storeOf e' = (storeOf e).map f := by
  unfold storeOf
  rw [hcount, List.map_map]
  exact List.map_congr_left fun i hi => h i (List.mem_range.mp hi)

/-- An emulator without an open journal. -/
theorem JournalSound.of_idle (hsettled : JournalSettled e) (hfiles : FilePoolInv False e.credential)
    (happs : e.credential.numApps ≤ dfcMaxApps) (hidle : e.snapshot.active = false) :
    JournalSound e :=
  ⟨hsettled, hfiles, happs, fun hactive => absurd (hidle.symm.trans hactive) Bool.false_ne_true⟩

/-- The loop of an abort restores the journal's files; no file has to be given up. -/
theorem abortSnapshot_eq (h : JournalSound e) (hactive : e.snapshot.active = true) :
    dfcEmulatorAbortTransactionSnapshot e =
      ({ e with
          credential := { (List.range e.credential.numFiles).foldl (snapshotRestoreFile e.snapshot)
            e.credential with dirty := e.snapshot.dirty }
          snapshot := {} }, true) := by
  have hall : (List.range e.credential.numFiles).all
      (snapshotFileRecoverable e.snapshot e.credential) = true :=
    List.all_eq_true.mpr fun i hi => h.recoverable hactive (List.mem_range.mp hi)
  unfold dfcEmulatorAbortTransactionSnapshot
  dsimp only
  rw [if_neg (by rw [hactive]; decide), if_pos ⟨(h.journal hactive).fits, hall⟩]

/-- After an abort every file shows what was committed, and nothing is staged. -/
theorem JournalSound.abortSnapshot (h : JournalSound e) :
    JournalSound (dfcEmulatorAbortTransactionSnapshot e).1 ∧
      storeOf (dfcEmulatorAbortTransactionSnapshot e).1 = (storeOf e).map Cell.rollback := by
  have hsettled := h.settled.abortSnapshot
  cases hactive : e.snapshot.active with
  | false =>
    have hsame : (dfcEmulatorAbortTransactionSnapshot e).1 = e := by
      unfold dfcEmulatorAbortTransactionSnapshot
      dsimp only
      rw [if_pos hactive]
    rw [hsame]
    refine ⟨h, storeOf_map rfl fun i hi => ?_⟩
    rw [h.storeCell_of_idle hactive hi]
    rfl
  | true =>
    rw [abortSnapshot_eq h hactive] at hsettled ⊢
    obtain ⟨hstate, hpool, -, hturned⟩ := foldl_sliceWrite (SliceWrite.restoreFile e.snapshot)
      List.nodup_range h.files fun i hi => List.mem_range.mp hi
    have hinv : FilePoolInv False { (List.range e.credential.numFiles).foldl
        (snapshotRestoreFile e.snapshot) e.credential with dirty := e.snapshot.dirty } :=
      hpool.frame rfl rfl (fun _ _ _ => rfl) (fun _ => rfl) fun _ => rfl
    refine ⟨.of_idle hsettled hinv (hstate.numApps.trans_le h.apps) rfl,
      storeOf_map hstate.numFiles fun i hi => ?_⟩
    obtain ⟨c, hfile, hslice, hused, hresult, hoctets⟩ := (hturned i (List.mem_range.mpr hi)).turn
    obtain ⟨hpending, hlive⟩ := restoreFile_live h hactive hi hfile hslice hused
    have hshown : liveContents ((List.range e.credential.numFiles).foldl
        (snapshotRestoreFile e.snapshot) e.credential) i = committedContents e i := by
      rw [← hlive]
      unfold liveContents
      have hplace := (SliceWrite.restoreFile e.snapshot c i)
      rw [hresult, hplace.dataOffset, hplace.dataLen, hfile, hoctets]
    unfold storeCell Cell.rollback
    rw [committedContents_of_idle rfl]
    simp only [hresult, hpending, Bool.false_eq_true, if_false]
    refine congrArg₂ (fun k v => Cell.mk k v none) ?_ hshown
    rw [← hresult]
    exact hstate.key i

/-- Values and the transaction MAC are no contents. -/
theorem StoreFrame.mapFilesOf (e : DfcEmulator) (appIndex : ℕ) {f : DfcFile → DfcFile}
    (hview : ∀ file, slotView (f file) = slotView file)
    (hoffset : ∀ file, (f file).dataOffset = file.dataOffset) :
    StoreFrame e (e.mapCredential fun c => c.mapFilesOf appIndex f) where
  journal := rfl
  idle _ := rfl
  selected := rfl
  apps h := h
  numFiles := rfl
  used := rfl
  pool := rfl
  view j := by
    show slotView (if _ then _ else _) = _
    split_ifs
    · exact hview _
    · rfl
  dataOffset j := by
    show DfcFile.dataOffset (if _ then _ else _) = _
    split_ifs
    · exact hoffset _
    · rfl

theorem StoreFrame.clearTransactionMac (e : DfcEmulator) : StoreFrame e e.clearTransactionMac :=
  .of_eq rfl rfl rfl

/-- Dropping the pending values after an abort. -/
theorem StoreFrame.dropValues (e : DfcEmulator) (appIndex : ℕ) :
    StoreFrame e (e.mapCredential fun c => c.mapFilesOf appIndex fun file =>
      if file.hasPendingValue then file.dropPendingValue else file) := by
  refine .mapFilesOf e appIndex (fun file => ?_) fun file => ?_
  · split_ifs <;> rfl
  · split_ifs <;> rfl

/-- An abort drops what is staged, and nothing else. -/
theorem JournalSound.abort (h : JournalSound e) :
    JournalSound (dfcEmulatorAbortTransaction e).1 ∧
      storeOf (dfcEmulatorAbortTransaction e).1 = (storeOf e).map Cell.rollback := by
  have hcleared : StoreFrame e (if e.transactionMac.hasPending || e.transactionReaderIdPending
      then e.clearTransactionMac else e) := by
    split_ifs
    · exact .clearTransactionMac e
    · exact .refl e
  obtain ⟨hsound, hstore⟩ := hcleared.sound h
  obtain ⟨hsound', hstore'⟩ := hsound.abortSnapshot
  have hdropped := StoreFrame.dropValues (abortJournalAndMac e)
    (abortJournalAndMac e).selectedAppIndex
  rw [abortTransaction_fst]
  obtain ⟨hfinal, hfinalStore⟩ := hdropped.sound hsound'
  refine ⟨hfinal, hfinalStore.trans (hstore'.trans ?_)⟩
  rw [hstore]

theorem published_fields (file : DfcFile) :
    file.published.key = file.key ∧ file.published.dataOffset = file.dataOffset ∧
      file.published.dataLen = file.dataLen ∧ file.published.recordCount = file.recordCount ∧
      file.published.recordSize = file.recordSize ∧ file.published.transactionPending = false := by
  unfold DfcFile.published
  split_ifs <;> exact ⟨rfl, rfl, rfl, rfl, rfl, rfl⟩

/-- A commit touches neither the octets nor the number of the files. -/
theorem publish_pool (e : DfcEmulator) :
    (dfcEmulatorPublishTransaction e).credential.numFiles = e.credential.numFiles ∧
      (dfcEmulatorPublishTransaction e).credential.numApps = e.credential.numApps ∧
      (dfcEmulatorPublishTransaction e).credential.filePoolUsed = e.credential.filePoolUsed ∧
      (dfcEmulatorPublishTransaction e).credential.filePool = e.credential.filePool := by
  rw [publishTransaction_credential]
  exact ⟨rfl, rfl, rfl, rfl⟩

theorem publish_files (e : DfcEmulator) (i : ℕ) :
    (dfcEmulatorPublishTransaction e).credential.files i =
      if i < e.credential.numFiles ∧ (e.credential.files i).appIndex = e.selectedAppIndex then
        (e.credential.files i).published else e.credential.files i := by
  rw [publishTransaction_credential]
  rfl

theorem publish_place (e : DfcEmulator) (i : ℕ) :
    ((dfcEmulatorPublishTransaction e).credential.files i).key = (e.credential.files i).key ∧
      ((dfcEmulatorPublishTransaction e).credential.files i).dataOffset =
        (e.credential.files i).dataOffset ∧
      ((dfcEmulatorPublishTransaction e).credential.files i).dataLen =
        (e.credential.files i).dataLen ∧
      ((dfcEmulatorPublishTransaction e).credential.files i).recordCount =
        (e.credential.files i).recordCount ∧
      ((dfcEmulatorPublishTransaction e).credential.files i).recordSize =
        (e.credential.files i).recordSize := by
  obtain ⟨hkey, hoffset, hlen, hcount, hsize, -⟩ := published_fields (e.credential.files i)
  rw [publish_files]
  split_ifs
  · exact ⟨hkey, hoffset, hlen, hcount, hsize⟩
  · exact ⟨rfl, rfl, rfl, rfl, rfl⟩

theorem publish_live (e : DfcEmulator) (i : ℕ) :
    liveContents (dfcEmulatorPublishTransaction e).credential i = liveContents e.credential i := by
  obtain ⟨-, hoffset, hlen, hrecords, hsize⟩ := publish_place e i
  unfold liveContents
  rw [hoffset, hlen, hrecords, hsize, (publish_pool e).2.2.2]

theorem publish_pools {z : Prop} (h : FilePoolInv z e.credential) :
    FilePoolInv z (dfcEmulatorPublishTransaction e).credential := by
  obtain ⟨hcount, -, hused, hpool⟩ := publish_pool e
  exact h.frame hcount hused (fun _ _ _ => by rw [hpool]) (fun i => (publish_place e i).2.1)
    fun i => (publish_place e i).2.2.1

/-- A commit closes the journal. -/
theorem JournalSound.publish_snapshot (h : JournalSound e) :
    (dfcEmulatorPublishTransaction e).snapshot = {} := by
  rw [publishTransaction_snapshot]
  cases hactive : e.snapshot.active with
  | false =>
    rw [if_neg (by simp)]
    exact h.settled.idle hactive
  | true => rw [if_pos ⟨rfl, (h.journal hactive).app⟩]

/-- A commit makes what every cell shows its committed contents. -/
theorem JournalSound.publish (h : JournalSound e) :
    JournalSound (dfcEmulatorPublishTransaction e) ∧
      storeOf (dfcEmulatorPublishTransaction e) = (storeOf e).map Cell.commit ∧
      (dfcEmulatorPublishTransaction e).snapshot.active = false := by
  have hidle : (dfcEmulatorPublishTransaction e).snapshot.active = false := by
    rw [h.publish_snapshot]
  obtain ⟨hcount, happs, -⟩ := publish_pool e
  have hsound : JournalSound (dfcEmulatorPublishTransaction e) :=
    .of_idle h.settled.publish (publish_pools h.files) (happs.trans_le h.apps) hidle
  refine ⟨hsound, storeOf_map hcount fun i hi => ?_, hidle⟩
  rw [hsound.storeCell_of_idle hidle (by rw [hcount]; exact hi), publish_live,
    (publish_place e i).1, Cell.commit, h.shown hi]
  rfl

end DfcCore
