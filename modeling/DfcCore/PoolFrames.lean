import DfcCore.KeyFrames

/-!
# Pool operations touch only their owner

The calls that resize, release or delete read back the same for everyone but their own
owner: every other file keeps its octets, every other holder of keys keeps all that the
accessors show of it, and a call that answers false has changed nothing. Deleting an
application renumbers what stands behind it.
-/
namespace DfcCore
open Arena
variable {z : Prop}

/-- The file array and the file pool are untouched. -/
structure FilesKept (c c' : DfcCredential) : Prop where
  files : c'.files = c.files
  numFiles : c'.numFiles = c.numFiles
  filePool : c'.filePool = c.filePool
  filePoolUsed : c'.filePoolUsed = c.filePoolUsed

theorem FilesKept.refl (c : DfcCredential) : FilesKept c c := ⟨rfl, rfl, rfl, rfl⟩

theorem FilesKept.trans {a b c : DfcCredential} (h : FilesKept a b) (h' : FilesKept b c) :
    FilesKept a c :=
  ⟨h'.files.trans h.files, h'.numFiles.trans h.numFiles, h'.filePool.trans h.filePool,
    h'.filePoolUsed.trans h.filePoolUsed⟩

theorem FilesKept.sameFile {c c' : DfcCredential} (h : FilesKept c c') (j : ℕ) :
    SameFile c c' j j :=
  ⟨by rw [h.files], by rw [h.files, h.filePool]⟩

/-- What the pools are about is the same. -/
structure SamePools (c c' : DfcCredential) : Prop where
  keyUsed : c'.keyPoolUsed = c.keyPoolUsed
  keyPool : c'.keyPool = c.keyPool
  picc : c'.piccKeyOffset = c.piccKeyOffset ∧ c'.piccKeyPoolLen = c.piccKeyPoolLen
  apps : c'.apps = c.apps
  metadataUsed : c'.keySetMetadataPoolUsed = c.keySetMetadataPoolUsed

theorem SamePools.keyOwner {c c' : DfcCredential} (h : SamePools c c') (o : Option ℕ) :
    keyOffsetOf c' o = keyOffsetOf c o ∧ keyPoolLenOf c' o = keyPoolLenOf c o := by
  cases o with
  | none => exact h.picc
  | some i =>
    rw [keyOffsetOf, keyPoolLenOf, h.apps]
    exact ⟨rfl, rfl⟩

theorem PoolInv.samePools {n : ℕ} {c c' : DfcCredential} (h : PoolInv z n c)
    (hsame : SamePools c c') (hfiles : FilePoolInv z c') : PoolInv z n c' where
  keys := h.keys.frame hsame.keyUsed (fun _ _ _ => by rw [hsame.keyPool])
    (fun o => (hsame.keyOwner o).1) fun o => (hsame.keyOwner o).2
  metadata := h.metadata.frame hsame.metadataUsed (fun i => by rw [hsame.apps])
    fun i => by rw [hsame.apps]
  files := hfiles
  blocks i hi hne := by
    rw [hsame.apps] at hne ⊢
    exact h.blocks i hi hne

theorem filesKept_keysRelease (c : DfcCredential) (p : Option ℕ) :
    FilesKept c (dfcCredentialKeysRelease c p) := by
  obtain ⟨_, _, _, _, _, _, _, _, _, hf⟩ := keysRelease_frame c p
  rw [hf]
  exact ⟨rfl, rfl, rfl, rfl⟩

theorem filesKept_setKeyCounts (c : DfcCredential) (p : Option ℕ) (a b d : ℕ) :
    FilesKept c (setKeyCounts c p a b d) := by
  cases p <;> exact ⟨rfl, rfl, rfl, rfl⟩

theorem filesKept_cutKeySlice (c : DfcCredential) (p : Option ℕ) (want : ℕ) :
    FilesKept c (dfcCredentialCutKeySlice c p want) := by
  cases p <;> exact ⟨rfl, rfl, rfl, rfl⟩

theorem filesKept_setCountsOnly (c : DfcCredential) (p : Option ℕ) (a b : ℕ) :
    FilesKept c (setKeyLen (setNumKeys c p a) p b) := by
  cases p <;> exact ⟨rfl, rfl, rfl, rfl⟩

theorem KeyPoolInv.filesKept_keysResizeTotal {n : ℕ} {c : DfcCredential} (h : KeyPoolInv z n c)
    {p : Option ℕ} (hp : p ∈ keyOwners n) (numKeys allocatedKeys keyLen storageKeyLen : ℕ) :
    FilesKept c
      (dfcCredentialKeysResizeTotal c p numKeys allocatedKeys keyLen storageKeyLen).1 := by
  have hrel := filesKept_keysRelease c p
  obtain hc | ⟨-, -, -, -, ⟨hc, -, -⟩ | ⟨hc, -⟩ | ⟨hc, -, -⟩⟩ :=
    keysResizeTotal_cases h hp numKeys allocatedKeys keyLen storageKeyLen
  all_goals rw [hc]
  · exact FilesKept.refl c
  · exact filesKept_setKeyCounts c p _ _ _
  · exact hrel.trans (filesKept_setCountsOnly _ p _ _)
  · exact (hrel.trans (filesKept_cutKeySlice _ p _)).trans (filesKept_setKeyCounts _ p _ _ _)

theorem filesKept_metadataResize (c : DfcCredential) (i want : ℕ) :
    FilesKept c (dfcKeySetMetadataResize c i want).1 := by
  have hrel : FilesKept c (dfcKeySetMetadataRelease c i) := by
    obtain ⟨_, _, _, hf⟩ := metadataRelease_frame c i
    rw [hf]
    exact ⟨rfl, rfl, rfl, rfl⟩
  rw [dfcKeySetMetadataResize]
  split_ifs
  · exact FilesKept.refl c
  · exact hrel
  · exact hrel.trans ⟨rfl, rfl, rfl, rfl⟩

theorem KeyPoolInv.filesKept_keysResize {n : ℕ} {c : DfcCredential} (h : KeyPoolInv z n c)
    {p : Option ℕ} (hp : p ∈ keyOwners n) (numKeys keyLen : ℕ) :
    FilesKept c (dfcCredentialKeysResize c p numKeys keyLen).1 := by
  have htotal := h.filesKept_keysResizeTotal hp numKeys numKeys keyLen keyLen
  rw [dfcCredentialKeysResize]
  cases hr : dfcCredentialKeysResizeTotal c p numKeys numKeys keyLen keyLen with
  | mk c' ok =>
    rw [hr] at htotal
    cases ok with
    | false => exact htotal
    | true =>
      cases p with
      | none => exact htotal
      | some i =>
        refine htotal.trans (FilesKept.trans ?_ (filesKept_metadataResize _ i 0))
        exact ⟨rfl, rfl, rfl, rfl⟩

theorem PoolCore.filesKept_keySetsResize {n : ℕ} {c : DfcCredential} (h : PoolCore z n c)
    {i : ℕ} (hi : i < n) (numKeySets numKeys activeKeyLen maxKeySize : ℕ) :
    FilesKept c
      (dfcCredentialKeySetsResize c i numKeySets numKeys activeKeyLen maxKeySize).1 := by
  obtain hc | ⟨d, hd, -, -, hc⟩ :=
    keySetsResize_cases h hi numKeySets numKeys activeKeyLen maxKeySize
  · rw [hc]
    exact FilesKept.refl c
  have htotal := h.keys.filesKept_keysResizeTotal ((some_mem_keyOwners n i).mpr hi) numKeys
    (numKeys * numKeySets) activeKeyLen maxKeySize
  have hkept : FilesKept c d := by
    rw [hd, keySetsSized]
    exact (htotal.trans (filesKept_metadataResize _ i _)).trans ⟨rfl, rfl, rfl, rfl⟩
  rw [hc]
  exact hkept.trans ⟨rfl, rfl, rfl, rfl⟩

/-- File operations keep the keys. -/
theorem FileFrame.sameOwner {c c' : DfcCredential} (h : FileFrame c c') (p : Option ℕ) :
    SameOwner c c' p p := by
  obtain ⟨_, _, _, _, hf⟩ := h
  rw [hf]
  cases p with
  | none => exact ⟨⟨rfl, rfl⟩, rfl, rfl, rfl⟩
  | some i => exact ⟨⟨rfl, rfl⟩, rfl, rfl⟩

/-- The calls that resize, release or delete what one owner holds. -/
def PoolOp.hasOwner : PoolOp → Bool
  | fileResize .. | fileRelease .. | deleteFile .. | deleteApplicationAt .. | keysResize ..
  | keySetsResize .. | keysRelease .. => true
  | _ => false

/-- Whether file `j` belongs to the owner the call is about. -/
def PoolOp.ownsFile (c : DfcCredential) : PoolOp → ℕ → Bool
  | fileResize i _, j | fileRelease i, j => i == j
  | deleteFile appIndex number, j => dfcCredentialFindFileInApp c appIndex number == some j
  | deleteApplicationAt i, j => decide (i < c.numApps) && (c.files j).appIndex == i
  | _, _ => false

/-- Whether the keys of `p` belong to the owner the call is about. -/
def PoolOp.ownsKeys : PoolOp → Option ℕ → Bool
  | keysResize q _ _, p | keysRelease q, p => q == p
  | keySetsResize i _ _ _ _, p | deleteApplicationAt i, p => some i == p
  | _, _ => false

/-- Whether the call takes file `j` out of the array. -/
def PoolOp.removesFile (c : DfcCredential) (op : PoolOp) (j : ℕ) : Bool :=
  match op with
  | deleteFile .. | deleteApplicationAt .. => op.ownsFile c j
  | _ => false

/-- Where file `j` stands after the call: behind the remaining files that stood before it. -/
def PoolOp.fileIndex (c : DfcCredential) (op : PoolOp) (j : ℕ) : ℕ :=
  Nat.count (fun k => op.removesFile c k = false) j

/-- The owner index file `j` carries after the call. -/
def PoolOp.fileOwner (c : DfcCredential) (op : PoolOp) (j : ℕ) : ℕ :=
  match op with
  | deleteApplicationAt i =>
    if i < c.numApps then ownerWithout i (c.files j).appIndex else (c.files j).appIndex
  | _ => (c.files j).appIndex

/-- Where the holder of keys `p` stands after the call. -/
def PoolOp.keyOwner (c : DfcCredential) (op : PoolOp) (p : Option ℕ) : Option ℕ :=
  match op with
  | deleteApplicationAt i => if i < c.numApps then p.map (indexWithout i) else p
  | _ => p

/-- What the call answers; a release always succeeds. -/
def PoolOp.answer (c : DfcCredential) : PoolOp → Bool
  | keysResize app numKeys keyLen => (dfcCredentialKeysResize c app numKeys keyLen).2
  | keySetsResize i sets keys active max => (dfcCredentialKeySetsResize c i sets keys active max).2
  | fileResize i dataLen => (dfcFileResize c i dataLen).2
  | deleteFile appIndex number => (dfcCredentialDeleteFile c appIndex number).2
  | deleteApplicationAt i => (dfcCredentialDeleteApplicationAt c i).2
  | _ => true

/-- A call changed nothing but what its owner holds. -/
structure TouchesOnlyOwner (c c' : DfcCredential) (op : PoolOp) : Prop where
  files : ∀ j < c.numFiles, op.ownsFile c j = false →
    op.fileIndex c j < c'.numFiles ∧
    fileOctets c' (op.fileIndex c j) = fileOctets c j ∧
    (c'.files (op.fileIndex c j)).unplaced = (c.files j).unplaced ∧
    (c'.files (op.fileIndex c j)).appIndex = op.fileOwner c j
  keys : ∀ p ∈ keyOwners c.numApps, op.ownsKeys p = false →
    op.keyOwner c p ∈ keyOwners c'.numApps ∧ ownerView c' (op.keyOwner c p) = ownerView c p
  refused : op.answer c = false → c' = c

theorem fileIndex_of_keeps {c : DfcCredential} {op : PoolOp}
    (h : ∀ k, op.removesFile c k = false) (j : ℕ) : op.fileIndex c j = j :=
  Nat.count_iff_forall.mpr fun k _ => h k

theorem fileResize_appIndex (c : DfcCredential) (i dataLen j : ℕ) :
    ((dfcFileResize c i dataLen).1.files j).appIndex = (c.files j).appIndex := by
  have hedit (d : DfcCredential) (f : DfcFile → DfcFile) (hf : ∀ x, (f x).appIndex = x.appIndex) :
      ((d.modifyFile i f).files j).appIndex = (d.files j).appIndex := by
    rw [modifyFile_files]
    split_ifs with hj
    · rw [hf, hj]
    · rfl
  have hdrop (o : ℕ) : ((dfcFileDropOldSlice c i o).files j).appIndex = (c.files j).appIndex := by
    rw [dfcFileDropOldSlice]
    split_ifs
    · rw [dfcFilePoolCompactAfterRelease]
      split_ifs
      · exact hedit c _ (fun _ => rfl)
      · dsimp only
        split_ifs <;> exact hedit c _ (fun _ => rfl)
    · rfl
  obtain hr | ⟨hr, -⟩ | ⟨oldOffset, -, -, -, hr⟩ := dfcFileResize_cases c i dataLen
  · rw [hr]
  · rw [hr]
  rw [hr, ← hdrop oldOffset, dfcFileCutSlice]
  generalize dfcFileDropOldSlice c i oldOffset = d
  split_ifs
  · exact hedit d _ (fun _ => rfl)
  · exact hedit d (fun file =>
      { file with dataOffset := u16 d.filePoolUsed, dataLen := u16 dataLen }) (fun _ => rfl)

/-- A refused allocation of keys changes nothing. -/
theorem keysResize_refused {n : ℕ} {c : DfcCredential} (h : PoolCore z n c) {p : Option ℕ}
    (hp : p ∈ keyOwners n) (numKeys keyLen : ℕ)
    (hf : (dfcCredentialKeysResize c p numKeys keyLen).2 = false) :
    (dfcCredentialKeysResize c p numKeys keyLen).1 = c := by
  cases p with
  | some i => exact keysResize_false h ((some_mem_keyOwners n i).mp hp) numKeys keyLen hf
  | none =>
    rw [dfcCredentialKeysResize] at hf ⊢
    cases hr : dfcCredentialKeysResizeTotal c none numKeys numKeys keyLen keyLen with
    | mk c' ok =>
      have hs := h.keysResizeTotal hp hr
      rw [hr] at hf
      cases ok with
      | false => simpa using hs
      | true => exact absurd hf (by simp)

section calls
variable {c : DfcCredential} (h : PoolInv z c.numApps c)
include h

/-- A call on one file. -/
theorem PoolInv.touchesFile {c' : DfcCredential} {op : PoolOp} {i : ℕ}
    (h' : PoolInv z c'.numApps c') (hf : FileFrame c c') (hnum : c'.numFiles = c.numFiles)
    (hsame : ∀ j < c.numFiles, j ≠ i → SameFile c c' j j)
    (howner : ∀ j, (c'.files j).appIndex = (c.files j).appIndex)
    (hown : ∀ j, op.ownsFile c j = (i == j)) (hkeep : ∀ k, op.removesFile c k = false)
    (hfo : ∀ j, op.fileOwner c j = (c.files j).appIndex) (hko : ∀ p, op.keyOwner c p = p)
    (href : op.answer c = false → c' = c) : TouchesOnlyOwner c c' op := by
  refine ⟨fun j hj hno => ?_, fun p hp _ => ?_, href⟩
  · rw [hown] at hno
    have hji : j ≠ i := fun he => by simp [he] at hno
    rw [fileIndex_of_keeps hkeep, hfo]
    have hs := hsame j hj hji
    exact ⟨by rw [hnum]; exact hj, hs.fileOctets h.files h'.files hj (by rw [hnum]; exact hj),
      hs.record, howner j⟩
  · rw [hko]
    have hp' : p ∈ keyOwners c'.numApps := by rw [hf.numApps]; exact hp
    exact ⟨hp', (hf.sameOwner p).ownerView_eq h.toPoolCore h'.toPoolCore hp hp'⟩

/-- A call on the keys of one owner. -/
theorem PoolInv.touchesKeys {c' : DfcCredential} {op : PoolOp} {p : Option ℕ}
    (h' : PoolInv z c'.numApps c') (hk : FilesKept c c') (hnum : c'.numApps = c.numApps)
    (hsame : ∀ q ∈ keyOwners c.numApps, q ≠ p → SameOwner c c' q q)
    (hown : ∀ q, op.ownsKeys q = (p == q)) (hkeep : ∀ k, op.removesFile c k = false)
    (hfo : ∀ j, op.fileOwner c j = (c.files j).appIndex) (hko : ∀ q, op.keyOwner c q = q)
    (href : op.answer c = false → c' = c) : TouchesOnlyOwner c c' op := by
  refine ⟨fun j hj _ => ?_, fun q hq hno => ?_, href⟩
  · rw [fileIndex_of_keeps hkeep, hfo]
    have hs := hk.sameFile j
    have hj' : j < c'.numFiles := by rw [hk.numFiles]; exact hj
    exact ⟨hj', hs.fileOctets h.files h'.files hj hj', hs.record, by rw [hk.files]⟩
  · rw [hko]
    rw [hown] at hno
    have hqp : q ≠ p := fun he => by simp [he] at hno
    have hq' : q ∈ keyOwners c'.numApps := by rw [hnum]; exact hq
    exact ⟨hq', (hsame q hq hqp).ownerView_eq h.toPoolCore h'.toPoolCore hq hq'⟩

theorem PoolInv.touches_fileResize {i : ℕ} (hi : i < c.numFiles) (dataLen : ℕ) :
    TouchesOnlyOwner c (dfcFileResize c i dataLen).1 (.fileResize i dataLen) := by
  refine h.touchesFile (@PoolInv.exec z c h (.fileResize i dataLen)
    (by simpa [PoolOp.callable] using hi))
    (fileFrame_resize c i dataLen) (dfcFileResize_numFiles c i dataLen)
    (fun j hj hji => h.files.sameFile_resize hi hj hji dataLen)
    (fileResize_appIndex c i dataLen) (fun _ => rfl) (fun _ => rfl) (fun _ => rfl) (fun _ => rfl) ?_
  intro hf
  obtain hr | ⟨hr, -⟩ | ⟨_, -, -, -, hr⟩ := dfcFileResize_cases c i dataLen
  all_goals simp only [PoolOp.answer, hr] at hf ⊢
  all_goals exact absurd hf (by simp)

theorem PoolInv.touches_fileRelease {i : ℕ} (hi : i < c.numFiles) :
    TouchesOnlyOwner c (dfcFileRelease c i) (.fileRelease i) :=
  h.touchesFile (@PoolInv.exec z c h (.fileRelease i) (by simpa [PoolOp.callable] using hi))
    (fileFrame_release c i) (h.files.release hi).2.2
    (fun _ hj hji => h.files.sameFile_release hi hj hji)
    (fileRelease_appIndex c i) (fun _ => rfl) (fun _ => rfl) (fun _ => rfl) (fun _ => rfl)
    (fun hf => absurd hf (by simp [PoolOp.answer]))

theorem PoolInv.touches_keysRelease {p : Option ℕ} (hp : p ∈ keyOwners c.numApps) :
    TouchesOnlyOwner c (dfcCredentialKeysRelease c p) (.keysRelease p) :=
  h.touchesKeys (by rw [keysRelease_numApps]; exact h.keysRelease hp)
    (filesKept_keysRelease c p) (keysRelease_numApps c p)
    (fun _ hq hqp => h.toPoolCore.sameOwner_keysRelease hp hq hqp)
    (fun _ => rfl) (fun _ => rfl) (fun _ => rfl) (fun _ => rfl)
    (fun hf => absurd hf (by simp [PoolOp.answer]))

theorem PoolInv.touches_keysResize {p : Option ℕ} (hp : p ∈ keyOwners c.numApps)
    (numKeys keyLen : ℕ) :
    TouchesOnlyOwner c (dfcCredentialKeysResize c p numKeys keyLen).1
      (.keysResize p numKeys keyLen) := by
  have hnum := keysResize_numApps h.keys hp numKeys keyLen
  refine h.touchesKeys (by rw [hnum]; exact h.keysResize hp numKeys keyLen)
    (h.keys.filesKept_keysResize hp numKeys keyLen) hnum
    (fun _ hq hqp => h.sameOwner_keysResize hp hq hqp numKeys keyLen)
    (fun _ => rfl) (fun _ => rfl) (fun _ => rfl) (fun _ => rfl) (fun hf => ?_)
  exact keysResize_refused h.toPoolCore hp numKeys keyLen hf

theorem PoolInv.touches_keySetsResize {i : ℕ} (hi : i < c.numApps)
    (numKeySets numKeys activeKeyLen maxKeySize : ℕ) :
    TouchesOnlyOwner c
      (dfcCredentialKeySetsResize c i numKeySets numKeys activeKeyLen maxKeySize).1
      (.keySetsResize i numKeySets numKeys activeKeyLen maxKeySize) := by
  have hnum := keySetsResize_numApps h.keys hi numKeySets numKeys activeKeyLen maxKeySize
  refine h.touchesKeys
    (by rw [hnum]; exact h.keySetsResize hi numKeySets numKeys activeKeyLen maxKeySize)
    (h.toPoolCore.filesKept_keySetsResize hi numKeySets numKeys activeKeyLen maxKeySize) hnum
    (fun _ hq hqi => h.toPoolCore.sameOwner_keySetsResize hi hq hqi numKeySets numKeys
      activeKeyLen maxKeySize)
    (fun _ => rfl) (fun _ => rfl) (fun _ => rfl) (fun _ => rfl) (fun hf => ?_)
  obtain hc | ⟨_, -, -, -, hc⟩ :=
    keySetsResize_cases h.toPoolCore hi numKeySets numKeys activeKeyLen maxKeySize
  · rw [hc]
  · simp only [PoolOp.answer, hc] at hf
    exact absurd hf (by simp)

end calls

theorem count_ne {i j : ℕ} (hji : j ≠ i) : Nat.count (fun k => k ≠ i) j = indexWithout i j := by
  have hcount : Nat.count (fun k => k ≠ i) j = if j ≤ i then j else j - 1 := by
    clear hji
    induction j with
    | zero => simp
    | succ j ih =>
      rw [Nat.count_succ, ih]
      split_ifs <;> omega
  rw [hcount, indexWithout]
  split_ifs <;> omega

theorem PoolInv.touches_deleteFile {c : DfcCredential} (h : PoolInv z c.numApps c) (appIndex : ℕ)
    (number : UInt8) :
    TouchesOnlyOwner c (dfcCredentialDeleteFile c appIndex number).1
      (.deleteFile appIndex number) := by
  have h' := @PoolInv.exec z c h (.deleteFile appIndex number) rfl
  have hframe := fileFrame_delete c appIndex number
  simp only [PoolOp.exec] at h'
  refine ⟨fun j hj hno => ?_, fun p hp _ => ?_, fun hf => ?_⟩
  · rw [dfcCredentialDeleteFile] at h' hframe ⊢
    simp only [PoolOp.ownsFile] at hno
    cases hfind : dfcCredentialFindFileInApp c appIndex number with
    | none =>
      have hix : (PoolOp.deleteFile appIndex number).fileIndex c j = j :=
        fileIndex_of_keeps (fun k => by simp [PoolOp.removesFile, PoolOp.ownsFile, hfind]) j
      rw [hix]
      exact ⟨hj, rfl, rfl, rfl⟩
    | some i =>
      rw [hfind] at h' hno
      have hi : i < c.numFiles := List.mem_range.mp (List.mem_of_find?_eq_some hfind)
      have hji : j ≠ i := fun he => by simp [he] at hno
      have hnum := (h.files.release hi).2.2
      have hix : (PoolOp.deleteFile appIndex number).fileIndex c j = indexWithout i j := by
        rw [← count_ne hji, PoolOp.fileIndex]
        apply count_congr_lt
        intro k _
        simp only [PoolOp.removesFile, PoolOp.ownsFile, hfind, beq_eq_false_iff_ne, ne_eq,
          Option.some.injEq]
        exact not_congr eq_comm
      have hs : SameFile c (dfcFilesRemove (dfcFileRelease c i) i) j (indexWithout i j) :=
        (h.files.sameFile_release hi hj hji).trans
          (sameFile_remove _ (by rw [hnum]; exact hi) (by rw [hnum]; exact hj) hji)
      have hlt : indexWithout i j < (dfcFilesRemove (dfcFileRelease c i) i).numFiles := by
        show indexWithout i j < (dfcFileRelease c i).numFiles - 1
        rw [hnum, indexWithout]
        split_ifs <;> omega
      rw [hix]
      refine ⟨hlt, hs.fileOctets h.files h'.files hj hlt, hs.record, ?_⟩
      dsimp only
      rw [filesRemove_files _ (by rw [hnum]; exact hi) (by rw [hnum]; exact hj) hji,
        fileRelease_appIndex]
      rfl
  · have hp' : p ∈ keyOwners (dfcCredentialDeleteFile c appIndex number).1.numApps := by
      rw [hframe.numApps]
      exact hp
    exact ⟨hp', (hframe.sameOwner p).ownerView_eq h.toPoolCore h'.toPoolCore hp hp'⟩
  · simp only [PoolOp.answer] at hf
    rw [dfcCredentialDeleteFile] at hf ⊢
    cases hfind : dfcCredentialFindFileInApp c appIndex number with
    | none => rfl
    | some i =>
      rw [hfind] at hf
      exact absurd hf (by simp)

/-- The shift of the application array that takes application `i` out. -/
theorem sameOwner_shiftApps (c : DfcCredential) {i n : ℕ} (hi : i ≤ n) {p : Option ℕ}
    (hp : p ∈ keyOwners (n + 1)) (hpi : p ≠ some i) :
    SameOwner c { c with
      numApps := n
      apps := fun j => if j = n then dfcCredentialResetApplication
        else if i ≤ j ∧ j < n then c.apps (j + 1) else c.apps j } p (p.map (indexWithout i)) := by
  cases p with
  | none => exact ⟨⟨rfl, rfl⟩, rfl, rfl, rfl⟩
  | some j =>
    have hj : j < n + 1 := (some_mem_keyOwners _ j).mp hp
    have hji : j ≠ i := fun he => hpi (by rw [he])
    have happ : (fun j => if j = n then dfcCredentialResetApplication
        else if i ≤ j ∧ j < n then c.apps (j + 1) else c.apps j) (indexWithout i j) =
        c.apps j := by
      by_cases hlt : j < i
      · have hix : indexWithout i j = j := if_pos hlt
        dsimp only
        rw [hix, if_neg (by omega), if_neg (by omega)]
      · have hix : indexWithout i j + 1 = j := by
          rw [indexWithout, if_neg hlt]
          omega
        dsimp only
        rw [if_neg (by omega), if_pos (by omega), hix]
    generalize (fun j => if j = n then dfcCredentialResetApplication
        else if i ≤ j ∧ j < n then c.apps (j + 1) else c.apps j) = apps at happ
    refine ⟨⟨congrArg DfcApplication.keyPoolLen happ, ?_⟩,
      congrArg DfcApplication.unplaced happ, ?_⟩
    · exact congrArg (fun a : DfcApplication => c.keyPool.read a.keyOffset
        (c.apps j).keyPoolLen) happ
    · exact congrArg (fun a : DfcApplication => c.keySetMetadataPool.read a.keySetMetadataOffset
        (c.apps j).keySetMetadataLen) happ

theorem PoolInv.touches_deleteApplicationAt {c : DfcCredential} (h : PoolInv z c.numApps c)
    (i : ℕ) :
    TouchesOnlyOwner c (dfcCredentialDeleteApplicationAt c i).1 (.deleteApplicationAt i) := by
  have h' := h.deleteApplicationAt i
  by_cases hi : c.numApps ≤ i
  · have hlt : ¬ i < c.numApps := by omega
    have hsame : (dfcCredentialDeleteApplicationAt c i).1 = c := by
      rw [dfcCredentialDeleteApplicationAt, if_pos hi]
    rw [hsame]
    refine ⟨fun j hj _ => ?_, fun p hp _ => ?_, fun _ => rfl⟩
    · rw [fileIndex_of_keeps (fun k => by simp [PoolOp.removesFile, PoolOp.ownsFile, hlt]),
        PoolOp.fileOwner, if_neg hlt]
      exact ⟨hj, rfl, rfl, rfl⟩
    · rw [PoolOp.keyOwner, if_neg hlt]
      exact ⟨hp, rfl⟩
  have hlt : i < c.numApps := by omega
  have hp : some i ∈ keyOwners c.numApps := by simpa using hlt
  have hrel := h.keysRelease hp
  have hkept := filesKept_keysRelease c (some i)
  obtain ⟨-, hframe⟩ := dropFilesOf_spec i
    (dfcCredentialKeysRelease c (some i)).numFiles hrel.files 0
  have hdropped := hrel.files.filesDropped i
    (dfcCredentialKeysRelease c (some i)).numFiles 0 (by omega)
  have hlast := hframe.numApps.trans (keysRelease_numApps c (some i))
  obtain ⟨n, hn⟩ : ∃ n, c.numApps = n + 1 := ⟨c.numApps - 1, by omega⟩
  have hdel : (dfcCredentialDeleteApplicationAt c i).2 = true := by
    rw [dfcCredentialDeleteApplicationAt, if_neg hi]
  refine ⟨fun j hj hno => ?_, fun p hpm hno => ?_, fun hf => ?_⟩
  · have hne : (c.files j).appIndex ≠ i := by
      intro he
      simp [PoolOp.ownsFile, hlt, he] at hno
    have hcount : (PoolOp.deleteApplicationAt i).fileIndex c j = 0 + Nat.count (fun m =>
        ((dfcCredentialKeysRelease c (some i)).files (0 + m)).appIndex ≠ i) j := by
      rw [PoolOp.fileIndex, zero_add]
      apply count_congr_lt
      intro k _
      simp [PoolOp.removesFile, PoolOp.ownsFile, hlt, hkept.files]
    obtain ⟨hb, hs, ho⟩ := hdropped.behind j (by rw [zero_add, hkept.numFiles]; exact hj)
      (by rw [zero_add, hkept.files]; exact hne)
    rw [zero_add j] at hs ho
    rw [PoolOp.fileOwner, if_pos hlt, hcount]
    have hsame := ((hkept.sameFile j).trans hs)
    have hmoved : (dfcCredentialDeleteApplicationAt c i).1.files =
          (dfcCredentialDropFilesOf (dfcCredentialKeysRelease c (some i)) i
            (dfcCredentialKeysRelease c (some i)).numFiles 0).files ∧
        (dfcCredentialDeleteApplicationAt c i).1.filePool =
          (dfcCredentialDropFilesOf (dfcCredentialKeysRelease c (some i)) i
            (dfcCredentialKeysRelease c (some i)).numFiles 0).filePool ∧
        (dfcCredentialDeleteApplicationAt c i).1.numFiles =
          (dfcCredentialDropFilesOf (dfcCredentialKeysRelease c (some i)) i
            (dfcCredentialKeysRelease c (some i)).numFiles 0).numFiles := by
      rw [dfcCredentialDeleteApplicationAt, if_neg hi]
      exact ⟨rfl, rfl, rfl⟩
    have hsame' : SameFile c (dfcCredentialDeleteApplicationAt c i).1 j (0 + Nat.count (fun m =>
        ((dfcCredentialKeysRelease c (some i)).files (0 + m)).appIndex ≠ i) j) :=
      ⟨by rw [hmoved.1]; exact hsame.record, by rw [hmoved.1, hmoved.2.1]; exact hsame.slice⟩
    rw [← hmoved.2.2] at hb
    refine ⟨hb, hsame'.fileOctets h.files h'.files hj hb, hsame'.record, ?_⟩
    rw [hmoved.1, ho, hkept.files]
  · have hpi : p ≠ some i := by
      intro he
      simp [PoolOp.ownsKeys, he] at hno
    have hs : SameOwner c (dfcCredentialDeleteApplicationAt c i).1 p (p.map (indexWithout i)) := by
      refine (h.toPoolCore.sameOwner_keysRelease hp hpm hpi).trans ((hframe.sameOwner p).trans ?_)
      rw [dfcCredentialDeleteApplicationAt, if_neg hi]
      dsimp only
      rw [hlast, hn, Nat.add_sub_cancel]
      exact sameOwner_shiftApps _ (by omega) (by rw [← hn]; exact hpm) hpi
    have hcnt : (dfcCredentialDeleteApplicationAt c i).1.numApps = n := by
      rw [dfcCredentialDeleteApplicationAt, if_neg hi]
      dsimp only
      rw [hlast, hn]
      rfl
    have hp' : p.map (indexWithout i) ∈
        keyOwners (dfcCredentialDeleteApplicationAt c i).1.numApps := by
      cases p with
      | none => simp
      | some j =>
        have hj : j < c.numApps := (some_mem_keyOwners _ j).mp hpm
        have hji : j ≠ i := fun he => hpi (by rw [he])
        rw [Option.map_some, some_mem_keyOwners, hcnt, indexWithout]
        split_ifs <;> omega
    rw [PoolOp.keyOwner, if_pos hlt]
    exact ⟨hp', hs.ownerView_eq h.toPoolCore h'.toPoolCore hpm hp'⟩
  · rw [PoolOp.answer, hdel] at hf
    exact absurd hf (by simp)

/-- Under the pool invariant every call that resizes, releases or deletes changes only what
its own owner holds, and nothing at all when it answers false. -/
theorem poolOp_touchesOnlyOwner {c : DfcCredential} (h : PoolInv z c.numApps c) {op : PoolOp}
    (howner : op.hasOwner = true) (hop : op.callable c = true) :
    TouchesOnlyOwner c (op.exec c) op := by
  cases op with
  | keysResize p numKeys keyLen =>
    have hp : p ∈ keyOwners c.numApps := by
      cases p with
      | none => simp
      | some i => simpa [PoolOp.callable] using hop
    exact h.touches_keysResize hp numKeys keyLen
  | keySetsResize i sets keys active max =>
    exact h.touches_keySetsResize (by simpa [PoolOp.callable] using hop) _ _ _ _
  | keysRelease p =>
    have hp : p ∈ keyOwners c.numApps := by
      cases p with
      | none => simp
      | some i => simpa [PoolOp.callable] using hop
    exact h.touches_keysRelease hp
  | deleteApplicationAt i => exact h.touches_deleteApplicationAt i
  | fileResize i dataLen => exact h.touches_fileResize (by simpa [PoolOp.callable] using hop) _
  | fileRelease i => exact h.touches_fileRelease (by simpa [PoolOp.callable] using hop)
  | deleteFile appIndex number => exact h.touches_deleteFile appIndex number
  | clear | createApplication | rollKeySet | createFile | materializeContents | formatPicc
  | describeFile => exact absurd howner (by simp [PoolOp.hasOwner])

/-- Two files of one application, of which the first is resized. -/
theorem touchesOnlyOwner_twoFiles :
    TouchesOnlyOwner
      (poolRun [.createApplication (fun _ => 1) 0x0F 0x01, .createFile 0 1, .createFile 0 2,
        .fileResize 0 16, .fileResize 1 8])
      ((PoolOp.fileResize 0 4).exec (poolRun [.createApplication (fun _ => 1) 0x0F 0x01,
        .createFile 0 1, .createFile 0 2, .fileResize 0 16, .fileResize 1 8]))
      (.fileResize 0 4) :=
  poolOp_touchesOnlyOwner (poolRun_inv _) rfl (by decide +kernel)

end DfcCore
