import DfcCore.NativeCommand
import DfcCore.CreateAndFind
import DfcCore.FileFrames

/-!
# What an observer sees of the files

An observer sees a part of each file record: its view. The views of a card, in the order of
the files, follow every operation by a simple rule: a rewrite that the view does not show
changes none, a created file adds one at the end, a deleted file takes its own away. What the
commands do to the views is independent of where the contents lie.
-/
namespace DfcCore
variable {β : Type} {view : DfcFile → β}

/-- The views of the files, in order. -/
def fileViews (view : DfcFile → β) (c : DfcCredential) : List β :=
  (List.range c.numFiles).map fun i => view (c.files i)

theorem fileViews_congr {c c' : DfcCredential} (hn : c'.numFiles = c.numFiles)
    (h : ∀ i < c.numFiles, view (c'.files i) = view (c.files i)) :
    fileViews view c' = fileViews view c := by
  unfold fileViews
  rw [hn]
  exact List.map_congr_left fun i hi => h i (List.mem_range.1 hi)

theorem fileViews_modifyFile (c : DfcCredential) (i : ℕ) {f : DfcFile → DfcFile}
    (h : view (f (c.files i)) = view (c.files i)) :
    fileViews view (c.modifyFile i f) = fileViews view c := by
  refine fileViews_congr rfl fun j _ => ?_
  rw [modifyFile_files]
  split_ifs with hj
  · rw [hj, h]
  · rfl

theorem fileViews_mapFilesOf (c : DfcCredential) (appIndex : ℕ) {f : DfcFile → DfcFile}
    (h : ∀ file, view (f file) = view file) :
    fileViews view (c.mapFilesOf appIndex f) = fileViews view c := by
  refine fileViews_congr rfl fun j _ => ?_
  unfold DfcCredential.mapFilesOf
  dsimp only
  split_ifs
  · exact h _
  · rfl

theorem fileViews_foldl {f : DfcCredential → ℕ → DfcCredential}
    (h : ∀ c i, fileViews view (f c i) = fileViews view c) (c : DfcCredential) (files : List ℕ) :
    fileViews view (files.foldl f c) = fileViews view c := by
  induction files generalizing c with
  | nil => rfl
  | cons i files ih => exact (ih (f c i)).trans (h c i)

/-- The view shows neither the pending flag nor the number of records. -/
structure JournalBlind (view : DfcFile → β) : Prop where
  pending : ∀ file pending, view { file with transactionPending := pending } = view file
  record : ∀ file record, view (DfcFile.withRecord file record) = view file

theorem JournalBlind.settle (h : JournalBlind view) (file : DfcFile) (count : ℕ) :
    view (file.settle count) = view file := by
  unfold DfcFile.settle
  rw [h.pending]
  split_ifs
  · exact h.record _ _
  · rfl

theorem JournalBlind.setPending (h : JournalBlind view) (c : DfcCredential) (i : ℕ) :
    fileViews view (c.setPending i) = fileViews view c :=
  fileViews_modifyFile c i (f := fun file => { file with transactionPending := true })
    (h.pending _ _)

theorem JournalBlind.eraseFile (h : JournalBlind view) (appIndex : ℕ) (c : DfcCredential) (i : ℕ) :
    fileViews view (snapshotEraseFile appIndex c i) = fileViews view c := by
  unfold snapshotEraseFile
  dsimp only
  split_ifs
  · rfl
  · exact fileViews_modifyFile c i (f := fun file => file.settle 0) (h.settle _ 0)

theorem JournalBlind.restoreFile (h : JournalBlind view) (s : DfcTransactionSnapshot)
    (c : DfcCredential) (i : ℕ) :
    fileViews view (snapshotRestoreFile s c i) = fileViews view c := by
  have hsettled : fileViews view (c.modifyFile i fun file =>
      { file with transactionPending := false }) = fileViews view c :=
    fileViews_modifyFile c i (h.pending _ _)
  unfold snapshotRestoreFile
  dsimp only
  split_ifs
  · rfl
  · exact hsettled
  · exact fileViews_modifyFile c i (f := fun file => file.settle 0) (h.settle _ 0)
  · exact fileViews_modifyFile c i (f := fun file => file.settle _) (h.settle _ _)
  · exact hsettled

theorem JournalBlind.abortSnapshot (h : JournalBlind view) (e : DfcEmulator) :
    fileViews view (dfcEmulatorAbortTransactionSnapshot e).1.credential =
      fileViews view e.credential := by
  unfold dfcEmulatorAbortTransactionSnapshot
  dsimp only
  split_ifs
  · rfl
  · exact fileViews_foldl (h.restoreFile _) _ _
  · exact fileViews_foldl (h.eraseFile _) _ _

theorem FileAdded.views {c c' : DfcCredential} {appIndex : ℕ} {file : DfcFile}
    (h : FileAdded c c' appIndex file) :
    fileViews view c' = fileViews view c ++ [view file] := by
  unfold fileViews
  rw [h.numFiles, List.range_succ, List.map_append, List.map_singleton, h.record]
  congr 1
  exact List.map_congr_left fun i hi => by rw [h.kept i (List.mem_range.1 hi)]

/-- The view does not show where the contents lie. -/
def PlacementBlind (view : DfcFile → β) : Prop :=
  ∀ file offset length, view { file with dataOffset := offset, dataLen := length } = view file

theorem PlacementBlind.compact (h : PlacementBlind view) (c : DfcCredential) (offset length : ℕ) :
    fileViews view (dfcFilePoolCompactAfterRelease c offset length) = fileViews view c := by
  unfold dfcFilePoolCompactAfterRelease
  split_ifs
  · rfl
  · refine fileViews_congr rfl fun j hj => ?_
    dsimp only
    rw [if_pos hj]
    exact h _ _ _

theorem PlacementBlind.release (h : PlacementBlind view) (c : DfcCredential) (i : ℕ) :
    fileViews view (dfcFileRelease c i) = fileViews view c := by
  unfold dfcFileRelease
  dsimp only
  split_ifs
  · exact fileViews_modifyFile c i (f := fun file => { file with dataLen := 0 }) (h _ _ _)
  · rw [h.compact]
    exact fileViews_modifyFile c i (f := DfcFile.dropSlice) (h _ _ _)

theorem release_numFiles (c : DfcCredential) (i : ℕ) :
    (dfcFileRelease c i).numFiles = c.numFiles := by
  unfold dfcFileRelease dfcFilePoolCompactAfterRelease
  dsimp only
  split_ifs <;> rfl

theorem fileViews_remove (c : DfcCredential) {i : ℕ} (hi : i < c.numFiles) :
    fileViews view (dfcFilesRemove c i) = (fileViews view c).eraseIdx i := by
  have hlen : (fileViews view c).length = c.numFiles := by simp [fileViews]
  have hlen' : (fileViews view (dfcFilesRemove c i)).length = c.numFiles - 1 := by
    simp [fileViews, dfcFilesRemove]
  refine List.ext_getElem ?_ fun j hj hj' => ?_
  · rw [hlen', List.length_eraseIdx_of_lt (by omega), hlen]
  · rw [hlen'] at hj
    rw [List.getElem_eraseIdx]
    simp only [fileViews, List.getElem_map, List.getElem_range, dfcFilesRemove]
    by_cases hlt : j < i
    · rw [if_neg (by omega), if_neg (by omega), dif_pos hlt]
    · rw [if_neg (by omega), if_pos (by omega), dif_neg hlt]

theorem PlacementBlind.deleteFile (h : PlacementBlind view) {c : DfcCredential} {appIndex i : ℕ}
    {number : UInt8} (hfind : dfcCredentialFindFileInApp c appIndex number = some i) :
    fileViews view (dfcCredentialDeleteFile c appIndex number).1 =
      (fileViews view c).eraseIdx i := by
  have hi : i < c.numFiles := List.mem_range.1 (List.mem_of_find?_eq_some hfind)
  rw [dfcCredentialDeleteFile, hfind]
  dsimp only
  rw [fileViews_remove _ (by rw [release_numFiles]; exact hi), h.release]

/-- A search that passes over an element finds the same without it. -/
theorem find?_eraseIdx {p : β → Bool} {l : List β} {i : ℕ} (hi : i < l.length)
    (h : p l[i] = false) : (l.eraseIdx i).find? p = l.find? p := by
  have hsplit : l = l.take i ++ l[i] :: l.drop (i + 1) := by
    rw [← List.drop_eq_getElem_cons hi, List.take_append_drop]
  conv_rhs => rw [hsplit]
  rw [List.eraseIdx_eq_take_drop_succ, List.find?_append, List.find?_append,
    List.find?_cons_of_neg (by rw [h]; exact Bool.false_ne_true)]

end DfcCore
