import DfcCore.JournalEnding

/-!
# Creating and deleting files under the journal

A deleted file takes its cell out of the store, wherever a transaction stands, and a created one
adds a blank cell behind the others. The journal follows the file array: its entries move with the
files, and the pre-image of a deleted file is wiped without touching another one.
-/
namespace DfcCore
open Der
open scoped BigOperators

variable {e e' : DfcEmulator} {c c' d : DfcCredential} {i j appIndex : ℕ} {number : UInt8}

/-- Where a file stood before file `i` was taken out of the array. -/
def indexWith (i j : ℕ) : ℕ := if j < i then j else j + 1

theorem indexWith_ne (i j : ℕ) : indexWith i j ≠ i := by
  unfold indexWith
  split_ifs <;> omega

theorem indexWithout_indexWith (i j : ℕ) : indexWithout i (indexWith i j) = j := by
  unfold indexWithout indexWith
  split_ifs <;> omega

theorem indexWith_injective (i : ℕ) : Function.Injective (indexWith i) := fun j k h => by
  rw [← indexWithout_indexWith i j, h, indexWithout_indexWith]

theorem indexWith_lt {n : ℕ} (hj : j < n - 1) : indexWith i j < n := by
  unfold indexWith
  split_ifs <;> omega

/-- The emulator with a file deleted, and its entry taken out of the journal. -/
def fileDeleted (e : DfcEmulator) (i : ℕ) (number : UInt8) : DfcEmulator :=
  (dfcEmulatorTransactionSnapshotDeleteFile e i).mapCredential fun c =>
    (dfcCredentialDeleteFile c e.selectedAppIndex number).1

theorem find_lt (hfind : dfcCredentialFindFileInApp c appIndex number = some i) :
    i < c.numFiles :=
  List.mem_range.mp (List.mem_of_find?_eq_some hfind)

theorem find_appIndex (hfind : dfcCredentialFindFileInApp c appIndex number = some i) :
    (c.files i).appIndex = appIndex := by
  have hmatch := List.find?_some hfind
  simp only [Bool.and_eq_true, beq_iff_eq] at hmatch
  exact hmatch.1

/-- The files that stay keep their records, their octets and their owner. -/
theorem FilePoolInv.removed {z : Prop} (h : FilePoolInv z c) (hi : i < c.numFiles)
    (hj : j < c.numFiles - 1) :
    SameFile c (dfcFilesRemove (dfcFileRelease c i) i) (indexWith i j) j ∧
      ((dfcFilesRemove (dfcFileRelease c i) i).files j).appIndex =
        (c.files (indexWith i j)).appIndex := by
  have hne := indexWith_ne i j
  have hlt : indexWith i j < c.numFiles := indexWith_lt hj
  have hnum := (h.release hi).2.2
  have hremoved := filesRemove_files (dfcFileRelease c i) (by rw [hnum]; exact hi)
    (by rw [hnum]; exact hlt) hne
  have hsame : SameFile c (dfcFilesRemove (dfcFileRelease c i) i) (indexWith i j)
      (indexWithout i (indexWith i j)) :=
    (h.sameFile_release hi hlt hne).trans
      (sameFile_remove _ (by rw [hnum]; exact hi) (by rw [hnum]; exact hlt) hne)
  have happ := fileRelease_appIndex c i (indexWith i j)
  rw [← hremoved] at happ
  rw [indexWithout_indexWith] at hsame happ
  exact ⟨hsame, happ⟩

theorem FilePoolInv.deleteFile_kept (h : FilePoolInv False c)
    (hfind : dfcCredentialFindFileInApp c appIndex number = some i) (hj : j < c.numFiles - 1) :
    slotView ((dfcCredentialDeleteFile c appIndex number).1.files j) =
        slotView (c.files (indexWith i j)) ∧
      (dfcCredentialDeleteFile c appIndex number).1.filePool.read
          ((dfcCredentialDeleteFile c appIndex number).1.files j).dataOffset
          ((dfcCredentialDeleteFile c appIndex number).1.files j).dataLen =
        c.filePool.read (c.files (indexWith i j)).dataOffset
          (c.files (indexWith i j)).dataLen := by
  obtain ⟨hsame, happ⟩ := h.removed (find_lt hfind) hj
  rw [dfcCredentialDeleteFile, hfind]
  refine ⟨?_, hsame.slice⟩
  have hview := congrArg slotView hsame.record
  simp only [slotView, DfcFile.key, DfcFile.unplaced, Prod.mk.injEq, FileKey.mk.injEq, true_and]
    at hview ⊢
  exact ⟨⟨happ, hview.1⟩, hview.2⟩

theorem snapshotDeleteFile_credential (e : DfcEmulator) (i : ℕ) :
    (dfcEmulatorTransactionSnapshotDeleteFile e i).credential = e.credential := by
  rw [snapshotDeleteFile_frame]

theorem snapshotDeleteFile_of_idle (hidle : e.snapshot.active = false) :
    dfcEmulatorTransactionSnapshotDeleteFile e i = e := by
  unfold dfcEmulatorTransactionSnapshotDeleteFile
  rw [if_pos (.inl hidle)]

/-- The entries behind the deleted one move up. -/
theorem snapshotDeleteFile_entry (h : JournalSettled e) (hi : i < e.credential.numFiles)
    (hj : j < e.credential.numFiles - 1) :
    (dfcEmulatorTransactionSnapshotDeleteFile e i).snapshot.entry j =
      e.snapshot.entry (indexWith i j) := by
  have hcount := h.count
  cases hactive : e.snapshot.active with
  | false =>
    rw [snapshotDeleteFile_of_idle hactive, h.idle hactive]
    unfold DfcTransactionSnapshot.entry
    split_ifs <;> rfl
  | true =>
    have hlt : j < dfcMaxFiles := by omega
    have hlt' : indexWith i j < dfcMaxFiles := by
      have := indexWith_lt (i := i) hj
      omega
    unfold dfcEmulatorTransactionSnapshotDeleteFile
    rw [if_neg (by rw [hactive]; simp; omega)]
    unfold DfcTransactionSnapshot.entry
    dsimp only
    rw [if_pos hlt, if_pos hlt', if_neg (by omega)]
    unfold indexWith
    by_cases hji : j < i
    · rw [if_neg (by omega), if_pos hji]
    · rw [if_pos (by omega), if_neg hji]

/-- Only the pre-image of the deleted file is wiped. -/
theorem snapshotDeleteFile_preimage (h : JournalSound e) (hi : i < e.credential.numFiles)
    (hj : j < e.credential.numFiles) (hji : j ≠ i)
    (hcaptured : (e.snapshot.entry j).captured = true) :
    (dfcEmulatorTransactionSnapshotDeleteFile e i).snapshot.pool.read (e.snapshot.entry j).offset
        (e.credential.files j).dataLen =
      e.snapshot.pool.read (e.snapshot.entry j).offset (e.credential.files j).dataLen := by
  cases hactive : e.snapshot.active with
  | false => rw [snapshotDeleteFile_of_idle hactive]
  | true =>
    have hopen := h.journal hactive
    unfold dfcEmulatorTransactionSnapshotDeleteFile
    rw [if_neg (by rw [hactive]; simp; omega)]
    dsimp only
    split_ifs with hwiped
    · refine Mem.read_fill_of_disjoint ?_
      exact hopen.disjoint j i (hopen.captured j hj hcaptured) (hopen.captured i hi hwiped.1) hji
        hcaptured hwiped.1
    · rfl

theorem fileDeleted_credential (e : DfcEmulator) (i : ℕ) (number : UInt8) :
    (fileDeleted e i number).credential =
      (dfcCredentialDeleteFile e.credential e.selectedAppIndex number).1 := by
  show (dfcCredentialDeleteFile (dfcEmulatorTransactionSnapshotDeleteFile e i).credential _ _).1 = _
  rw [snapshotDeleteFile_credential]

theorem fileDeleted_kept (h : JournalSound e)
    (hfind : dfcCredentialFindFileInApp e.credential e.selectedAppIndex number = some i)
    (hj : j < e.credential.numFiles - 1) :
    SlotKept e (fileDeleted e i number) (indexWith i j) j := by
  have hcredential := fileDeleted_credential e i number
  obtain ⟨hview, hslice⟩ := h.files.deleteFile_kept hfind hj
  constructor
  · rw [hcredential]
    exact hview
  · rw [hcredential]
    exact hslice
  · exact snapshotDeleteFile_entry h.settled (find_lt hfind) hj
  · exact snapshotDeleteFile_preimage h (find_lt hfind) (indexWith_lt hj) (indexWith_ne i j)

/-- Deleting a file of the selected application takes its cell away. -/
theorem JournalSound.fileDeleted (h : JournalSound e)
    (hfind : dfcCredentialFindFileInApp e.credential e.selectedAppIndex number = some i) :
    JournalSound (fileDeleted e i number) ∧
      storeOf (DfcCore.fileDeleted e i number) = (storeOf e).eraseIdx i := by
  have hi := find_lt hfind
  have hcredential := fileDeleted_credential e i number
  have hcount : (DfcCore.fileDeleted e i number).credential.numFiles =
      e.credential.numFiles - 1 := by
    rw [hcredential, dfcCredentialDeleteFile, hfind]
    show (dfcFileRelease e.credential i).numFiles - 1 = _
    rw [release_numFiles]
  have hjournal : SameJournal e.snapshot (DfcCore.fileDeleted e i number).snapshot :=
    snapshotDeleteFile_journal e i
  have hkept (j : ℕ) (hj : j < (DfcCore.fileDeleted e i number).credential.numFiles) :
      SlotKept e (DfcCore.fileDeleted e i number) (indexWith i j) j := by
    rw [hcount] at hj
    exact fileDeleted_kept h hfind hj
  refine ⟨⟨?_, ?_, ?_, fun hactive => ?_⟩, ?_⟩
  · have hentry : JournalSettled (dfcEmulatorTransactionSnapshotDeleteFile e i) := by
      refine h.settled.sameMarks (snapshotDeleteFile_journal e i) ?_
      rw [snapshotDeleteFile_credential]
    have hselected : (dfcEmulatorTransactionSnapshotDeleteFile e i).selectedAppIndex =
        e.selectedAppIndex := by
      rw [snapshotDeleteFile_frame]
    have hdeleted := hentry.deleteFile number
    rw [hselected] at hdeleted
    exact hdeleted
  · rw [hcredential]
    exact h.files.delete _ _
  · rw [hcredential, (fileFrame_delete _ _ _).numApps]
    exact h.apps
  · refine (h.journal (hjournal.active ▸ hactive)).transfer hjournal ?_ ⟨?_, ?_, ?_⟩ (indexWith i)
      ((indexWith_injective i).injOn) (fun j hj => ?_) hkept
    · show (dfcEmulatorTransactionSnapshotDeleteFile e i).selectedAppIndex = _
      rw [snapshotDeleteFile_frame]
    · show (dfcEmulatorTransactionSnapshotDeleteFile e i).snapshot.hasPool = _
      unfold dfcEmulatorTransactionSnapshotDeleteFile
      split_ifs <;> rfl
    · show (dfcEmulatorTransactionSnapshotDeleteFile e i).snapshot.poolLength = _
      unfold dfcEmulatorTransactionSnapshotDeleteFile
      split_ifs <;> rfl
    · show (dfcEmulatorTransactionSnapshotDeleteFile e i).snapshot.poolCapacity = _
      unfold dfcEmulatorTransactionSnapshotDeleteFile
      split_ifs <;> rfl
    · rw [hcount] at hj
      exact indexWith_lt hj
  · refine List.ext_getElem? fun j => ?_
    rw [storeOf_getElem?, List.getElem?_eraseIdx, storeOf_getElem?, storeOf_getElem?, hcount]
    by_cases hj : j < e.credential.numFiles - 1
    · have hcell := (hkept j (by rw [hcount]; exact hj)).cell hjournal.active hjournal.appIndex
      rw [if_pos hj, hcell]
      unfold indexWith
      split_ifs <;> first | rfl | omega
    · rw [if_neg hj]
      split_ifs <;> first | rfl | omega

/-- A file was added behind the others, over octets that are zero. -/
structure FileBorn (c c' : DfcCredential) (appIndex : ℕ) (file : DfcFile) : Prop where
  added : FileAdded c c' appIndex file
  frame : FileFrame c c'
  pool : FilePoolInv False c'
  slice : ∀ j < c.numFiles, c'.filePool.read (c.files j).dataOffset (c.files j).dataLen =
    c.filePool.read (c.files j).dataOffset (c.files j).dataLen
  blank : c'.filePool.read file.dataOffset file.dataLen = List.replicate file.dataLen 0

theorem FileBorn.create (h : FilePoolInv False c)
    (hr : dfcCredentialCreateFile c appIndex number = (c', some i)) :
    i = c.numFiles ∧ FileBorn c c' appIndex (freshFile appIndex number) := by
  obtain ⟨rfl, hadded⟩ := createFile_added hr
  have hc : c' = (dfcCredentialCreateFile c appIndex number).1 := by rw [hr]
  have hpool : c'.filePool = c.filePool := by
    rw [hc]
    unfold dfcCredentialCreateFile
    split_ifs <;> rfl
  refine ⟨rfl, hadded, ?_, ?_, fun j _ => by rw [hpool], rfl⟩
  · rw [hc]
    exact fileFrame_create c appIndex number
  · rw [hc]
    exact h.create appIndex number

section
variable {file : DfcFile} (h : FileBorn c c' appIndex file)
include h

/-- The new record is rewritten in its place. -/
theorem FileBorn.modifyFile {f : DfcFile → DfcFile} (howner : (f file).appIndex = file.appIndex)
    (hnumber : (f file).number = file.number) (hoffset : (f file).dataOffset = file.dataOffset)
    (hlen : (f file).dataLen = file.dataLen) :
    FileBorn c (c'.modifyFile c.numFiles f) appIndex (f file) where
  added := h.added.modifyFile howner hnumber
  frame := h.frame.trans (fileFrame_modifyFile c' c.numFiles f)
  pool := by
    refine h.pool.frame rfl rfl (fun _ _ _ => rfl) (fun j => ?_) fun j => ?_
    · rw [modifyFile_files]
      split_ifs with hj
      · rw [hj, h.added.record, hoffset]
      · rfl
    · rw [modifyFile_files]
      split_ifs with hj
      · rw [hj, h.added.record, hlen]
      · rfl
  slice := h.slice
  blank := by
    rw [hoffset, hlen]
    exact h.blank

/-- The slice of a new file is cut behind the others, and cleared. -/
theorem FileBorn.resize {n : ℕ} (hslice : NoSlice file)
    (hr : dfcFileResize c' c.numFiles n = (d, true)) :
    ∃ offset, FileBorn c d appIndex { file with dataOffset := offset, dataLen := n } := by
  obtain ⟨offset, hadded⟩ := h.added.resize hslice hr
  have hnew : c.numFiles < c'.numFiles := by
    rw [h.added.numFiles]
    exact Nat.lt_succ_self _
  have hd : d = (dfcFileResize c' c.numFiles n).1 := by rw [hr]
  refine ⟨offset, hadded, ?_, ?_, fun j hj => ?_, ?_⟩
  · rw [hd]
    exact h.frame.trans (fileFrame_resize c' c.numFiles n)
  · rw [hd]
    exact h.pool.resize hnew n
  · have hkept := (h.pool.sameFile_resize hnew (hj.trans hnew) hj.ne n).slice
    rw [← hd, hadded.kept j hj, h.added.kept j hj] at hkept
    exact hkept.trans (h.slice j hj)
  · have hno : NoSlice (c'.files c.numFiles) := by
      rw [h.added.record]
      exact hslice
    obtain ⟨-, hcut⟩ := (dfcFileResize_noSlice hno).mp hr
    by_cases hn : n = 0
    · rw [hn]
      rfl
    have hoffset : offset = u16 c'.filePoolUsed := by
      have hrecord := congrArg DfcFile.dataOffset hadded.record
      rw [hcut, dfcFileCutSlice, if_neg hn] at hrecord
      dsimp only at hrecord
      rw [modifyFile_files, if_pos rfl] at hrecord
      exact hrecord.symm
    rw [hcut, dfcFileCutSlice, if_neg hn, hoffset]
    exact Mem.read_fill_self _ _ _ _

theorem FileBorn.setDataSize {n : ℕ} {ok : Bool} (hslice : NoSlice file)
    (hs : dfcFileSetDataSize c' c.numFiles n = (d, ok)) :
    ∃ file', FileBorn c d appIndex file' ∧ file'.number = file.number ∧
      file'.type = file.type ∧ file'.transactionPending = file.transactionPending ∧
      file'.recordCount = file.recordCount := by
  unfold dfcFileSetDataSize at hs
  split_ifs at hs with htype
  · obtain rfl := congrArg Prod.fst hs
    exact ⟨file, h, rfl, rfl, rfl, rfl⟩
  cases hz : dfcFileResize c' c.numFiles n with
  | mk d' resized =>
    rw [hz] at hs
    cases resized with
    | false =>
      obtain rfl := congrArg Prod.fst hs
      obtain rfl := resize_refused hz
      exact ⟨file, h, rfl, rfl, rfl, rfl⟩
    | true =>
      obtain ⟨offset, hsized⟩ := h.resize hslice hz
      rw [h.added.record] at htype
      simp only [hsized.added.record, dfcFileSetDeclaredSize, if_neg htype] at hs
      obtain rfl := congrArg Prod.fst hs
      exact ⟨_, hsized.modifyFile (f := fun _ => _) rfl rfl rfl rfl, rfl, rfl, rfl, rfl⟩

end

/-- The emulator with a new file, and its entry in the journal. -/
def fileInserted (e : DfcEmulator) (c : DfcCredential) : DfcEmulator :=
  (dfcEmulatorTransactionSnapshotInsertFile { e with credential := c } e.credential.numFiles).1

section
variable {file : DfcFile} (h : FileBorn e.credential c e.selectedAppIndex file)
include h

/-- What the journal looks like with the entry of the new file. -/
theorem FileBorn.inserted :
    (dfcEmulatorTransactionSnapshotInsertFile { e with credential := c } e.credential.numFiles).2 =
        true ∧
      (fileInserted e c).credential = c ∧ (fileInserted e c).selectedAppIndex = e.selectedAppIndex ∧
      SameJournal e.snapshot (fileInserted e c).snapshot ∧
      (fileInserted e c).snapshot =
        { e.snapshot with entries := (fileInserted e c).snapshot.entries } ∧
      (∀ j < e.credential.numFiles,
        (fileInserted e c).snapshot.entry j = e.snapshot.entry j) ∧
      (e.snapshot.active = true → (fileInserted e c).snapshot.entry e.credential.numFiles =
        { created := file.appIndex == e.snapshot.appIndex && transactionFileHasData file }) := by
  have hroom := h.added.room
  have hin : ¬c.numFiles ≤ e.credential.numFiles := by
    rw [h.added.numFiles]
    omega
  unfold fileInserted dfcEmulatorTransactionSnapshotInsertFile
  by_cases hactive : e.snapshot.active = false
  · rw [if_pos hactive]
    refine ⟨rfl, rfl, rfl, .refl _, rfl, fun _ _ => rfl, fun hopen => ?_⟩
    rw [hactive] at hopen
    cases hopen
  · rw [if_neg hactive, if_neg hin]
    refine ⟨rfl, rfl, rfl, ⟨rfl, rfl, fun hidle => absurd hidle hactive⟩, rfl, fun j hj => ?_,
      fun _ => ?_⟩
    · unfold DfcTransactionSnapshot.entry
      dsimp only
      rw [if_pos (hj.trans hroom), if_pos (hj.trans hroom), if_neg hj.ne, if_neg (by omega)]
    · unfold DfcTransactionSnapshot.entry
      dsimp only
      rw [if_pos hroom, if_pos rfl, h.added.record]

/-- The files beside the new one. -/
theorem FileBorn.slotKept (hj : j < e.credential.numFiles) :
    SlotKept e (fileInserted e c) j j := by
  obtain ⟨-, hcredential, -, -, hjournal, hentry, -⟩ := h.inserted
  constructor
  · rw [hcredential, h.added.kept j hj]
  · rw [hcredential, h.added.kept j hj]
    exact h.slice j hj
  · exact hentry j hj
  · intro _
    rw [hjournal]

/-- The new file shows zeros and has zeros committed. -/
theorem FileBorn.cell (hpending : file.transactionPending = false)
    (hcount : file.recordCount = 0) :
    liveContents c e.credential.numFiles = ⟨file.recordSize, 0, List.replicate file.dataLen 0⟩ ∧
      storeCell (fileInserted e c) e.credential.numFiles =
        ⟨file.key, ⟨file.recordSize, 0, List.replicate file.dataLen 0⟩, none⟩ := by
  obtain ⟨-, hcredential, -, hsame, -, -, hcreated⟩ := h.inserted
  have hlive : liveContents c e.credential.numFiles =
      ⟨file.recordSize, 0, List.replicate file.dataLen 0⟩ := by
    unfold liveContents
    rw [h.added.record, hcount, h.blank]
  refine ⟨hlive, ?_⟩
  have hlt : e.credential.numFiles < (fileInserted e c).credential.numFiles := by
    rw [hcredential, h.added.numFiles]
    exact Nat.lt_succ_self _
  have hrecord : (fileInserted e c).credential.files e.credential.numFiles = file := by
    rw [hcredential, h.added.record]
  have hcommitted : committedContents (fileInserted e c) e.credential.numFiles =
      ⟨file.recordSize, 0, List.replicate file.dataLen 0⟩ := by
    by_cases hcovered : (fileInserted e c).snapshot.active = true ∧
        Covered (fileInserted e c) e.credential.numFiles
    · obtain ⟨hactive, hc⟩ := hcovered
      have hfresh := hcreated (hsame.active ▸ hactive)
      have happ := hc.appIndex
      have hdata := hc.hasData
      rw [hrecord, hsame.appIndex] at happ
      rw [hrecord] at hdata
      rw [committedContents_of_covered hactive hc, hfresh, happ, hdata, hrecord, beq_self_eq_true]
      rfl
    · rw [committedContents_of_not_covered hlt fun hactive hc => hcovered ⟨hactive, hc⟩,
        hcredential, hlive]
  unfold storeCell
  rw [hcommitted, hrecord, hpending]
  rfl

theorem FileBorn.journalOpen (hsound : JournalSound e) (hpending : file.transactionPending = false)
    (hcount : file.recordCount = 0) (hactive : e.snapshot.active = true) :
    JournalOpen (fileInserted e c) := by
  have hopen := hsound.journal hactive
  obtain ⟨-, hcredential, hselected, hsame, hjournal, hentry, hcreated⟩ := h.inserted
  have hfresh := hcreated hactive
  have hrecord : (fileInserted e c).credential.files e.credential.numFiles = file := by
    rw [hcredential, h.added.record]
  have hnum : (fileInserted e c).credential.numFiles = e.credential.numFiles + 1 := by
    rw [hcredential, h.added.numFiles]
  have hnotCaptured :
      ((fileInserted e c).snapshot.entry e.credential.numFiles).captured = false := by
    rw [hfresh]
  have hold {j : ℕ} (hj : j < (fileInserted e c).credential.numFiles)
      (hcaptured : ((fileInserted e c).snapshot.entry j).captured = true) :
      j < e.credential.numFiles := by
    by_contra hno
    obtain rfl : j = e.credential.numFiles := by omega
    rw [hnotCaptured] at hcaptured
    cases hcaptured
  constructor
  · rw [hsame.appIndex, hselected, hopen.app]
  · rw [hjournal]
    exact hopen.hasPool
  · rw [hjournal]
    exact hopen.fits
  · rw [hjournal]
    exact hopen.small
  · intro j hj hcaptured
    have hlt := hold hj hcaptured
    rw [hentry j hlt] at hcaptured
    exact (h.slotKept hlt).covered_after hsame.appIndex hj (hopen.captured j hlt hcaptured)
  · intro j hj
    by_cases hlt : j < e.credential.numFiles
    · exact (h.slotKept hlt).slotSound hsame.active hsame.appIndex (by rw [hjournal])
        (hopen.slots j ((h.slotKept hlt).covered hsame.appIndex hlt hj))
    · have hjlt := hj.lt
      obtain rfl : j = e.credential.numFiles := by omega
      obtain ⟨hlive, hcell⟩ := h.cell hpending hcount
      constructor
      · intro hcaptured
        rw [hnotCaptured] at hcaptured
        cases hcaptured
      · intro hmarked
        rw [hrecord, hpending] at hmarked
        cases hmarked
      · intro _
        rw [hcredential, hlive]
        exact congrArg Cell.committed hcell
      · intro hwrite
        rw [hfresh] at hwrite
        cases hwrite
  · intro j k hj hk hjk hcj hck
    have hjlt := hold hj.lt hcj
    have hklt := hold hk.lt hck
    rw [hentry j hjlt] at hcj ⊢
    rw [hentry k hklt] at hck ⊢
    rw [(h.slotKept hjlt).dataLen, (h.slotKept hklt).dataLen]
    exact hopen.disjoint j k ((h.slotKept hjlt).covered hsame.appIndex hjlt hj)
      ((h.slotKept hklt).covered hsame.appIndex hklt hk) hjk hcj hck
  · have hnone : roomNeeded (fileInserted e c) e.credential.numFiles = 0 := by
      unfold roomNeeded
      dsimp only
      rw [hrecord, hfresh, hsame.appIndex]
      refine if_pos ?_
      by_cases happ : file.appIndex = e.snapshot.appIndex
      · cases hdata : transactionFileHasData file with
        | false => exact .inr (.inl rfl)
        | true => exact .inr (.inr (.inl (by rw [happ]; simp)))
      · exact .inl happ
    rw [hnum, Finset.sum_range_succ, hnone, hjournal]
    refine le_trans (le_of_eq ?_) hopen.room
    exact Finset.sum_congr rfl fun j hj => (h.slotKept (Finset.mem_range.mp hj)).roomNeeded
      hsame.appIndex

/-- The store has one blank cell more. -/
theorem FileBorn.sound (hsound : JournalSound e) (hpending : file.transactionPending = false)
    (hcount : file.recordCount = 0) :
    JournalSound (fileInserted e c) ∧ storeOf (fileInserted e c) =
      storeOf e ++ [⟨file.key, ⟨file.recordSize, 0, List.replicate file.dataLen 0⟩, none⟩] := by
  obtain ⟨-, hcredential, -, hsame, -, -, -⟩ := h.inserted
  refine ⟨⟨?_, ?_, ?_, fun hactive => ?_⟩, ?_⟩
  · exact hsound.settled.fileAdded h.added hpending hsame (by rw [hcredential])
  · rw [hcredential]
    exact h.pool
  · rw [hcredential, h.frame.numApps]
    exact hsound.apps
  · exact h.journalOpen hsound hpending hcount (hsame.active ▸ hactive)
  · unfold storeOf
    rw [hcredential, h.added.numFiles, List.range_succ, List.map_append, List.map_singleton,
      (h.cell hpending hcount).2]
    congr 1
    exact List.map_congr_left fun j hj =>
      (h.slotKept (List.mem_range.mp hj)).cell hsame.active hsame.appIndex

theorem FileBorn.publish_eq :
    publishCreatedFile { e with credential := c } e.credential.numFiles =
      ((dfcEmulatorTransactionSnapshotNotePersistentChange (fileInserted e c)).markDirty,
        [dfcStatusOk]) := by
  unfold publishCreatedFile
  rw [show dfcEmulatorTransactionSnapshotInsertFile { e with credential := c }
    e.credential.numFiles = (fileInserted e c, true) from Prod.ext rfl h.inserted.1]

/-- A new file that is taken back leaves every other one as it was. -/
theorem FileBorn.takenBack (hsound : JournalSound e) :
    StoreKept e
      { e with credential := (dfcCredentialDeleteFile c e.selectedAppIndex file.number).1 } := by
  have hfind := h.added.find hsound.apps
  have hnum : (dfcCredentialDeleteFile c e.selectedAppIndex file.number).1.numFiles =
      e.credential.numFiles := by
    rw [dfcCredentialDeleteFile, hfind]
    show (dfcFileRelease c e.credential.numFiles).numFiles - 1 = _
    rw [release_numFiles, h.added.numFiles]
    rfl
  have hkept (j : ℕ) (hj : j < e.credential.numFiles) :=
    h.pool.deleteFile_kept hfind (j := j) (by rw [h.added.numFiles]; exact hj)
  have hindex {j : ℕ} (hj : j < e.credential.numFiles) :
      indexWith e.credential.numFiles j = j := if_pos hj
  refine ⟨rfl, fun _ => rfl, rfl, ?_, hnum, h.pool.delete _ _, fun j hj => ?_, fun j hj => ?_⟩
  · show (dfcCredentialDeleteFile c e.selectedAppIndex file.number).1.numApps ≤ _
    rw [(fileFrame_delete c e.selectedAppIndex file.number).numApps, h.frame.numApps]
    exact hsound.apps
  · have hview := (hkept j hj).1
    rw [hindex hj, h.added.kept j hj] at hview
    exact hview
  · have hslice := (hkept j hj).2
    rw [hindex hj, h.added.kept j hj] at hslice
    exact hslice.trans (h.slice j hj)

end

/-- What a command that creates a file may do to the store. -/
structure BlankAdded (e e' : DfcEmulator) : Prop where
  sound : JournalSound e'
  store : storeOf e' = storeOf e ∨
    ∃ key v, Contents.Blank v ∧ storeOf e' = storeOf e ++ [⟨key, v, none⟩]

theorem BlankAdded.refl (hsound : JournalSound e) : BlankAdded e e := ⟨hsound, .inl rfl⟩

theorem BlankAdded.frame {e₁ : DfcEmulator} (h : BlankAdded e e₁) (hframe : StoreFrame e₁ e') :
    BlankAdded e e' := by
  obtain ⟨hsound, hstore⟩ := hframe.sound h.sound
  refine ⟨hsound, ?_⟩
  rw [hstore]
  exact h.store

theorem FileBorn.blankAdded {file : DfcFile} (h : FileBorn e.credential c e.selectedAppIndex file)
    (hsound : JournalSound e) (hpending : file.transactionPending = false)
    (hcount : file.recordCount = 0) : BlankAdded e (fileInserted e c) := by
  obtain ⟨hsound', hstore⟩ := h.sound hsound hpending hcount
  exact ⟨hsound', .inr ⟨_, _, ⟨rfl, _, rfl⟩, hstore⟩⟩

/-- What a create command does to the store, and what it answers. -/
structure CreationAnswer (e : DfcEmulator) (a : Answer) : Prop where
  added : BlankAdded e a.1
  refused : a.2 ≠ [dfcStatusOk] → storeOf a.1 = storeOf e

theorem CreationAnswer.of_kept (h : StoreKept e e') (hsound : JournalSound e)
    (octets : List UInt8) : CreationAnswer e (e', octets) := by
  obtain ⟨hsound', hstore⟩ := h.sound hsound
  exact ⟨⟨hsound', .inl hstore⟩, fun _ => hstore⟩

theorem CreationAnswer.same (hsound : JournalSound e) (octets : List UInt8) :
    CreationAnswer e (e, octets) := ⟨.refl hsound, fun _ => rfl⟩

theorem FileBorn.creationAnswer {file : DfcFile}
    (h : FileBorn e.credential c e.selectedAppIndex file) (hsound : JournalSound e)
    (hpending : file.transactionPending = false) (hcount : file.recordCount = 0) :
    CreationAnswer e
      (publishCreatedFile { e with credential := c } e.credential.numFiles) := by
  rw [h.publish_eq]
  exact ⟨(h.blankAdded hsound hpending hcount).frame (.noted _), fun hno => absurd rfl hno⟩

/-- No file comes with records. -/
theorem recordCount_of_none {file : DfcFile} (h : file.state.record.count = 0) :
    file.recordCount = 0 := by
  unfold DfcFile.recordCount
  rw [h, ite_self]

theorem installDataFile_creationAnswer (hsound : JournalSound e) (new : NewFile) (size : ℕ) :
    CreationAnswer e (installDataFile e new size) := by
  rw [installDataFile]
  cases hr : dfcCredentialCreateFile e.credential e.selectedAppIndex new.number with
  | mk c created =>
    cases created with
    | none =>
      rw [createFile_none hr]
      exact .same hsound _
    | some i =>
      obtain ⟨rfl, hborn⟩ := FileBorn.create hsound.files hr
      have hinstalled := hborn.modifyFile (f := new.install) rfl rfl rfl rfl
      dsimp only
      generalize c.modifyFile e.credential.numFiles new.install = c' at hinstalled ⊢
      cases hs : dfcFileSetDataSize c' e.credential.numFiles size with
      | mk d ok =>
        obtain ⟨file, hfile, hnumber, htype, hpending, hcount⟩ :=
          hinstalled.setDataSize ⟨rfl, rfl⟩ hs
        cases ok with
        | false =>
          have hback := hfile.takenBack hsound
          rw [hnumber] at hback
          exact .of_kept hback hsound _
        | true =>
          exact hfile.creationAnswer hsound hpending (hcount.trans (recordCount_of_none rfl))

theorem installRecordFile_creationAnswer (hsound : JournalSound e) (new : NewFile)
    (recordSize maxRecords : ℕ) :
    CreationAnswer e (installRecordFile e new recordSize maxRecords) := by
  rw [installRecordFile]
  cases hr : dfcCredentialCreateFile e.credential e.selectedAppIndex new.number with
  | mk c created =>
    cases created with
    | none =>
      rw [createFile_none hr]
      exact .same hsound _
    | some i =>
      obtain ⟨rfl, hborn⟩ := FileBorn.create hsound.files hr
      have hinstalled := hborn.modifyFile (f := fun file => (new.install file).withRecord
        { size := recordSize, maxRecords := maxRecords, count := 0 }) rfl rfl rfl rfl
      dsimp only at hinstalled ⊢
      generalize c.modifyFile e.credential.numFiles (fun file => (new.install file).withRecord
        { size := recordSize, maxRecords := maxRecords, count := 0 }) = c' at hinstalled ⊢
      cases hs : dfcFileResize c' e.credential.numFiles (recordSize * maxRecords) with
      | mk d ok =>
        cases ok with
        | false =>
          obtain rfl := resize_refused hs
          exact .of_kept (hinstalled.takenBack hsound) hsound _
        | true =>
          obtain ⟨offset, hfile⟩ := hinstalled.resize ⟨rfl, rfl⟩ hs
          exact hfile.creationAnswer hsound rfl (recordCount_of_none rfl)

theorem installValueFile_creationAnswer (hsound : JournalSound e) (new : NewFile)
    (lowerLimit upperLimit value : Int32) (limitedCredit : UInt8) :
    CreationAnswer e (installValueFile e new lowerLimit upperLimit value limitedCredit) := by
  rw [installValueFile]
  cases hr : dfcCredentialCreateFile e.credential e.selectedAppIndex new.number with
  | mk c created =>
    cases created with
    | none =>
      rw [createFile_none hr]
      exact .same hsound _
    | some i =>
      obtain ⟨rfl, hborn⟩ := FileBorn.create hsound.files hr
      have hinstalled := hborn.modifyFile (f := fun file => (new.install file).withValue
        { lowerLimit := lowerLimit, upperLimit := upperLimit, current := value,
          limitedCredit := limitedCredit }) rfl rfl rfl rfl
      exact hinstalled.creationAnswer hsound rfl (recordCount_of_none rfl)

theorem DfcEmulator.answer_creation {x : Except UInt8 Answer} (hsound : JournalSound e)
    (hx : ∀ r, x = .ok r → CreationAnswer e r) : CreationAnswer e (e.answer x) := by
  cases x with
  | error status => exact .same hsound _
  | ok r => exact hx r rfl

/-- A create command, accepted or refused, adds a blank cell or none. -/
theorem FileCreation.creationAnswer {apdu : List UInt8} {type : UInt8} {a : Answer}
    (h : FileCreation e apdu type a) (hsound : JournalSound e) : CreationAnswer e a := by
  cases h with
  | data _ =>
    refine DfcEmulator.answer_creation hsound fun r hr => ?_
    simp only [bind_eq_ok] at hr
    obtain ⟨-, -, -, -, -, -, -, -, -, -, -, -, -, -, -, -, -, -, -, -, -, -, -, -, hr⟩ := hr
    rw [← Except.ok.inj hr]
    exact installDataFile_creationAnswer hsound _ _
  | record _ =>
    refine DfcEmulator.answer_creation hsound fun r hr => ?_
    simp only [bind_eq_ok] at hr
    obtain ⟨-, -, -, -, -, -, -, -, -, -, -, -, -, -, -, -, -, -, hr⟩ := hr
    rw [← Except.ok.inj hr]
    exact installRecordFile_creationAnswer hsound _ _ _
  | value =>
    refine DfcEmulator.answer_creation hsound fun r hr => ?_
    simp only [bind_eq_ok] at hr
    obtain ⟨-, -, -, -, -, -, -, -, -, -, -, -, -, -, hr⟩ := hr
    rw [← Except.ok.inj hr]
    exact installValueFile_creationAnswer hsound _ _ _ _ _

theorem fileInserted_of_idle (hidle : e.snapshot.active = false) (c : DfcCredential) :
    fileInserted e c = { e with credential := c } := by
  unfold fileInserted dfcEmulatorTransactionSnapshotInsertFile
  rw [if_pos hidle]

/-- The transaction MAC file is created once the transaction is given up. -/
theorem createTransactionMacFile_blankAdded {apdu payload : List UInt8} (hsound : JournalSound e)
    (hok : dfcEmulatorCommandCreateTransactionMacFile e apdu = .ok (e', payload)) :
    BlankAdded (dfcEmulatorAbortTransaction e).1 e' := by
  have haborted := hsound.abort.1
  have hidle : (dfcEmulatorAbortTransaction e).1.snapshot.active = false :=
    abortSnapshot_inactive _
  obtain ⟨-, -, rfl | ⟨c, i, hcreate, rfl⟩⟩ := createTransactionMacFile_ok hok
  · cases hcreate : dfcCredentialCreateFile (dfcEmulatorAbortTransaction e).1.credential
      (dfcEmulatorAbortTransaction e).1.selectedAppIndex (apdu.getD 1 0) with
    | mk c created =>
      cases created with
      | none =>
        rw [createFile_none hcreate]
        exact .refl haborted
      | some i =>
        have hborn := (FileBorn.create haborted.files hcreate).2
        have hadded := hborn.blankAdded haborted rfl (recordCount_of_none rfl)
        rwa [fileInserted_of_idle hidle] at hadded
  · obtain ⟨rfl, hborn⟩ := FileBorn.create haborted.files hcreate
    obtain ⟨file, hfile, hcount⟩ : ∃ file, FileBorn (dfcEmulatorAbortTransaction e).1.credential
        ((dfcFileResize c (dfcEmulatorAbortTransaction e).1.credential.numFiles
          dfcTransactionMacFileLength).1.modifyFile
            (dfcEmulatorAbortTransaction e).1.credential.numFiles
            fun file => file.installTransactionMac apdu)
        (dfcEmulatorAbortTransaction e).1.selectedAppIndex file ∧
        file.transactionPending = false ∧ file.recordCount = 0 := by
      cases hresize : dfcFileResize c (dfcEmulatorAbortTransaction e).1.credential.numFiles
        dfcTransactionMacFileLength with
      | mk d ok =>
        cases ok with
        | false =>
          rw [resize_refused hresize]
          exact ⟨_, hborn.modifyFile (f := fun file => file.installTransactionMac apdu) rfl rfl
            rfl rfl, rfl, recordCount_of_none rfl⟩
        | true =>
          obtain ⟨offset, hresized⟩ := hborn.resize ⟨rfl, rfl⟩ hresize
          exact ⟨_, hresized.modifyFile (f := fun file => file.installTransactionMac apdu) rfl rfl
            rfl rfl, rfl, recordCount_of_none rfl⟩
    have hadded := hfile.blankAdded haborted hcount.1 hcount.2
    rw [fileInserted_of_idle hidle] at hadded
    exact hadded.frame (.markDirty _)

/-- A file is found by its key. -/
theorem findFileInApp_of_keys
    (h : (storeOf e').map Cell.key = (storeOf e).map Cell.key) (appIndex : ℕ) (number : UInt8) :
    dfcCredentialFindFileInApp e'.credential appIndex number =
      dfcCredentialFindFileInApp e.credential appIndex number := by
  have hcount : e'.credential.numFiles = e.credential.numFiles := by
    have hlength := congrArg List.length h
    simpa [storeOf] using hlength
  unfold dfcCredentialFindFileInApp
  rw [hcount]
  refine List.find?_congr fun i hi => ?_
  have hkey := congrArg (fun keys => keys[i]?) h
  have hlt := List.mem_range.mp hi
  simp only [List.getElem?_map, storeOf_getElem?, hcount, if_pos hlt, Option.map_some,
    Option.some.injEq] at hkey
  have howner := congrArg FileKey.owner hkey
  have hnumber := congrArg FileKey.number hkey
  exact congrArg₂ (fun a b => a == appIndex && b == number) howner hnumber

/-- What deleting a file leaves of the store, with or without the transaction. -/
theorem deleteFile_store {apdu payload : List UInt8} (hsound : JournalSound e)
    (hok : dfcEmulatorCommandDeleteFile e apdu = .ok (e', payload)) :
    JournalSound e' ∧ ∃ i,
      dfcCredentialFindFileInApp e.credential e.selectedAppIndex (apdu.getD 1 0) = some i ∧
      (storeOf e' = (storeOf e).eraseIdx i ∨
        storeOf e' = ((storeOf e).map Cell.rollback).eraseIdx i) := by
  obtain ⟨i, -, -, hfind, rfl, -⟩ := deleteFile_ok hok
  have hfound := hfind
  by_cases hmac : (e.credential.files i).type = dfcFileTypeTransactionMac
  · have hbefore : beforeDelete e i = (dfcEmulatorAbortTransaction e).1 := if_pos hmac
    obtain ⟨haborted, hrolled⟩ := hsound.abort
    have hidle : (dfcEmulatorAbortTransaction e).1.snapshot.active = false :=
      abortSnapshot_inactive _
    have hkeys : (storeOf (dfcEmulatorAbortTransaction e).1).map Cell.key =
        (storeOf e).map Cell.key := by
      rw [hrolled, List.map_map]
      rfl
    rw [← abortTransaction_selectedAppIndex, ← findFileInApp_of_keys hkeys] at hfind
    obtain ⟨hdeleted, hstore⟩ := haborted.fileDeleted hfind
    obtain ⟨hfinal, hsame⟩ := (StoreFrame.noted _).sound hdeleted
    rw [fileDeleted, snapshotDeleteFile_of_idle hidle] at hfinal hsame hstore
    rw [hbefore]
    exact ⟨hfinal, i, hfound, .inr (by rw [hsame, hstore, hrolled])⟩
  · have hbefore : beforeDelete e i = dfcEmulatorTransactionSnapshotDeleteFile e i := if_neg hmac
    have hselected : (dfcEmulatorTransactionSnapshotDeleteFile e i).selectedAppIndex =
        e.selectedAppIndex := by rw [snapshotDeleteFile_frame]
    obtain ⟨hdeleted, hstore⟩ := hsound.fileDeleted hfind
    obtain ⟨hfinal, hsame⟩ := (StoreFrame.noted _).sound hdeleted
    rw [hbefore, hselected]
    exact ⟨hfinal, i, hfound, .inl (hsame.trans hstore)⟩

end DfcCore
