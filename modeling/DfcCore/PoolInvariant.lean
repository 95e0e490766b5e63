import DfcCore.Arena
import DfcCore.Pools
import Mathlib.Data.Finset.Option

/-!
# The representation invariant of the pools

`PoolsPacked` is what a caller relies on: in each of the three pools the slices of
the counted owners are disjoint and fill the used part, and the octets behind the
used part of the key and file pools are zero. `PoolInv z n` is the invariant the
operations carry. It is stated for the first `n` applications, because an
application is given its slice before it is counted, and adds what the compaction
needs: an owner without a slice has the sentinel offset, and the key slice of an
application with key sets has exactly the blocks that rolling the sets permutes.
Whether the pools are zero behind the used part is the proposition `z`: a credential
made by the pool operations has it, one that was only validated need not.
-/
namespace DfcCore
open Arena

/-- Owners of key slices: the PICC record and the first `n` applications. -/
def keyOwners (n : ℕ) : Finset (Option ℕ) := Finset.insertNone (Finset.range n)

@[simp] theorem none_mem_keyOwners (n : ℕ) : none ∈ keyOwners n := by simp [keyOwners]

@[simp] theorem some_mem_keyOwners (n i : ℕ) : some i ∈ keyOwners n ↔ i < n := by
  simp [keyOwners]

/-- The slices of the counted owners are disjoint and fill the used part of each pool. -/
structure PoolsPacked (c : DfcCredential) : Prop where
  keys : Packed (keyOwners c.numApps) (keyOffsetOf c) (keyPoolLenOf c) c.keyPoolUsed
  keysFit : c.keyPoolUsed ≤ dfcKeyPoolSize
  keysZero : ∀ i, c.keyPoolUsed ≤ i → i < dfcKeyPoolSize → c.keyPool i = 0
  metadata : Packed (Finset.range c.numApps) (fun i => (c.apps i).keySetMetadataOffset)
    (fun i => (c.apps i).keySetMetadataLen) c.keySetMetadataPoolUsed
  metadataFit : c.keySetMetadataPoolUsed ≤ dfcKeySetMetadataPoolSize
  files : Packed (Finset.range c.numFiles) (fun i => (c.files i).dataOffset)
    (fun i => (c.files i).dataLen) c.filePoolUsed
  filesFit : c.filePoolUsed ≤ dfcFilePoolSize
  filesZero : ∀ i, c.filePoolUsed ≤ i → i < dfcFilePoolSize → c.filePool i = 0

/-- The part of the invariant about the file pool. -/
structure FilePoolInv (z : Prop) (c : DfcCredential) : Prop where
  packed : Packed (Finset.range c.numFiles) (fun i => (c.files i).dataOffset)
    (fun i => (c.files i).dataLen) c.filePoolUsed
  fit : c.filePoolUsed ≤ dfcFilePoolSize
  zero : z → ∀ i, c.filePoolUsed ≤ i → i < dfcFilePoolSize → c.filePool i = 0
  sentinel : ∀ i < c.numFiles, (c.files i).dataLen = 0 → (c.files i).dataOffset = dfcFilePoolNone

/-- The part of the invariant about the metadata pool. -/
structure MetadataPoolInv (n : ℕ) (c : DfcCredential) : Prop where
  packed : Packed (Finset.range n) (fun i => (c.apps i).keySetMetadataOffset)
    (fun i => (c.apps i).keySetMetadataLen) c.keySetMetadataPoolUsed
  fit : c.keySetMetadataPoolUsed ≤ dfcKeySetMetadataPoolSize
  sentinel : ∀ i < n, (c.apps i).keySetMetadataLen = 0 →
    (c.apps i).keySetMetadataOffset = dfcKeySetMetadataPoolNone

/-- The part of the invariant about the key pool. -/
structure KeyPoolInv (z : Prop) (n : ℕ) (c : DfcCredential) : Prop where
  packed : Packed (keyOwners n) (keyOffsetOf c) (keyPoolLenOf c) c.keyPoolUsed
  fit : c.keyPoolUsed ≤ dfcKeyPoolSize
  zero : z → ∀ i, c.keyPoolUsed ≤ i → i < dfcKeyPoolSize → c.keyPool i = 0
  sentinel : ∀ o ∈ keyOwners n, keyPoolLenOf c o = 0 → keyOffsetOf c o = dfcKeyPoolNone

/-- An application with metadata owns one key block for every key of every set. -/
def KeyBlocksFit (n : ℕ) (c : DfcCredential) : Prop :=
  ∀ i < n, (c.apps i).keySetMetadataLen ≠ 0 →
    (c.apps i).keyPoolLen = (c.apps i).numKeys * (c.apps i).numKeySets *
      dfcCredentialStoredKeyLength (c.apps i).keyStorageLen

/-- The three pools together. -/
structure PoolCore (z : Prop) (n : ℕ) (c : DfcCredential) : Prop where
  keys : KeyPoolInv z n c
  metadata : MetadataPoolInv n c
  files : FilePoolInv z c

structure PoolInv (z : Prop) (n : ℕ) (c : DfcCredential) : Prop extends PoolCore z n c where
  blocks : KeyBlocksFit n c

theorem PoolInv.toPacked {c : DfcCredential} (h : PoolInv True c.numApps c) : PoolsPacked c where
  keys := h.keys.packed
  keysFit := h.keys.fit
  keysZero := h.keys.zero trivial
  metadata := h.metadata.packed
  metadataFit := h.metadata.fit
  files := h.files.packed
  filesFit := h.files.fit
  filesZero := h.files.zero trivial

variable {z : Prop}

theorem FilePoolInv.frame {c c' : DfcCredential} (h : FilePoolInv z c)
    (hn : c'.numFiles = c.numFiles) (hu : c'.filePoolUsed = c.filePoolUsed)
    (hp : ∀ i, c.filePoolUsed ≤ i → i < dfcFilePoolSize → c'.filePool i = c.filePool i)
    (ho : ∀ i, (c'.files i).dataOffset = (c.files i).dataOffset)
    (hl : ∀ i, (c'.files i).dataLen = (c.files i).dataLen) : FilePoolInv z c' where
  packed := by
    rw [hn, hu]
    exact h.packed.congr (fun i _ => hl i) (fun i _ _ => ho i)
  fit := hu ▸ h.fit
  zero hz i hi hs := by
    rw [hu] at hi
    rw [hp i hi hs]
    exact h.zero hz i hi hs
  sentinel i hi h0 := by
    rw [ho i]
    exact h.sentinel i (hn ▸ hi) (hl i ▸ h0)

theorem MetadataPoolInv.frame {n : ℕ} {c c' : DfcCredential} (h : MetadataPoolInv n c)
    (hu : c'.keySetMetadataPoolUsed = c.keySetMetadataPoolUsed)
    (ho : ∀ i, (c'.apps i).keySetMetadataOffset = (c.apps i).keySetMetadataOffset)
    (hl : ∀ i, (c'.apps i).keySetMetadataLen = (c.apps i).keySetMetadataLen) :
    MetadataPoolInv n c' where
  packed := by
    rw [hu]
    exact h.packed.congr (fun i _ => hl i) (fun i _ _ => ho i)
  fit := hu ▸ h.fit
  sentinel i hi h0 := by rw [ho i]; exact h.sentinel i hi (hl i ▸ h0)

theorem KeyPoolInv.frame {n : ℕ} {c c' : DfcCredential} (h : KeyPoolInv z n c)
    (hu : c'.keyPoolUsed = c.keyPoolUsed)
    (hp : ∀ i, c.keyPoolUsed ≤ i → i < dfcKeyPoolSize → c'.keyPool i = c.keyPool i)
    (ho : ∀ o, keyOffsetOf c' o = keyOffsetOf c o)
    (hl : ∀ o, keyPoolLenOf c' o = keyPoolLenOf c o) : KeyPoolInv z n c' where
  packed := by
    rw [hu]
    exact h.packed.congr (fun o _ => hl o) (fun o _ _ => ho o)
  fit := hu ▸ h.fit
  zero hz i hi hs := by
    rw [hu] at hi
    rw [hp i hi hs]
    exact h.zero hz i hi hs
  sentinel o hm h0 := by rw [ho o]; exact h.sentinel o hm (hl o ▸ h0)

/-- A slice that is not empty lies inside the used part, so its offset is a real one. -/
theorem FilePoolInv.slice {c : DfcCredential} (h : FilePoolInv z c) {i : ℕ} (hi : i < c.numFiles)
    (hn : (c.files i).dataLen ≠ 0) :
    (c.files i).dataOffset + (c.files i).dataLen ≤ c.filePoolUsed ∧
      (c.files i).dataOffset ≠ dfcFilePoolNone := by
  have hb := h.packed.bound i (Finset.mem_range.mpr hi) hn
  have hf := h.fit
  simp only [dfcFilePoolSize, dfcFilePoolNone] at *
  omega

theorem MetadataPoolInv.slice {n : ℕ} {c : DfcCredential} (h : MetadataPoolInv n c) {i : ℕ}
    (hi : i < n) (hn : (c.apps i).keySetMetadataLen ≠ 0) :
    (c.apps i).keySetMetadataOffset + (c.apps i).keySetMetadataLen ≤ c.keySetMetadataPoolUsed ∧
      (c.apps i).keySetMetadataOffset ≠ dfcKeySetMetadataPoolNone := by
  have hb := h.packed.bound i (Finset.mem_range.mpr hi) hn
  have hf := h.fit
  refine ⟨hb, ?_⟩
  simp only [dfcKeySetMetadataPoolSize, dfcKeySetMetadataPoolNone, dfcKeyPoolSize] at *
  omega

theorem KeyPoolInv.slice {n : ℕ} {c : DfcCredential} (h : KeyPoolInv z n c) {o : Option ℕ}
    (ho : o ∈ keyOwners n) (hn : keyPoolLenOf c o ≠ 0) :
    keyOffsetOf c o + keyPoolLenOf c o ≤ c.keyPoolUsed ∧ keyOffsetOf c o ≠ dfcKeyPoolNone := by
  have hb := h.packed.bound o ho hn
  have hf := h.fit
  refine ⟨hb, ?_⟩
  simp only [dfcKeyPoolSize, dfcKeyPoolNone] at *
  omega

/-- The fix-up of the code closes the hole for every owner that holds a slice. -/
theorem poolOffsetAfterRelease_eq {hole size o : ℕ} (ho : o < 65535) :
    poolOffsetAfterRelease hole size 65535 o = closeHole hole size o := by
  have hne : o ≠ 65535 := by omega
  simp only [poolOffsetAfterRelease, hne, ne_eq, not_false_eq_true, true_and, closeHole]
  split_ifs
  · exact u16_of_lt (by omega)
  · rfl

@[simp] theorem poolOffsetAfterRelease_none (hole size none' : ℕ) :
    poolOffsetAfterRelease hole size none' none' = none' := by
  simp [poolOffsetAfterRelease]

theorem move_tail_eq (m : Mem) (used hole size : ℕ) :
    (if 0 < used - (hole + size) then m.move hole (hole + size) (used - (hole + size)) else m) =
      m.move hole (hole + size) (used - (hole + size)) := by
  split_ifs with h
  · rfl
  · funext i
    simp [Mem.move, show ¬ (hole ≤ i ∧ i < hole + (used - (hole + size))) by omega]

@[simp] theorem modifyFile_files (c : DfcCredential) (i j : ℕ) (f : DfcFile → DfcFile) :
    (c.modifyFile i f).files j = if j = i then f (c.files i) else c.files j := by
  simp [DfcCredential.modifyFile, Function.update_apply]

@[simp] theorem modifyFile_numFiles (c : DfcCredential) (i : ℕ) (f : DfcFile → DfcFile) :
    (c.modifyFile i f).numFiles = c.numFiles := rfl

@[simp] theorem modifyApp_apps (c : DfcCredential) (i j : ℕ) (f : DfcApplication → DfcApplication) :
    (c.modifyApp i f).apps j = if j = i then f (c.apps i) else c.apps j := by
  simp [DfcCredential.modifyApp, Function.update_apply]

/-- An edit of a file record that leaves its slice alone. -/
theorem FilePoolInv.modifyFile {c : DfcCredential} (h : FilePoolInv z c) (i : ℕ)
    {f : DfcFile → DfcFile} (ho : ∀ x, (f x).dataOffset = x.dataOffset)
    (hl : ∀ x, (f x).dataLen = x.dataLen) : FilePoolInv z (c.modifyFile i f) := by
  refine h.frame rfl rfl (fun _ _ _ => rfl) (fun j => ?_) (fun j => ?_)
  · rw [modifyFile_files]
    split_ifs with hj
    · rw [ho, hj]
    · rfl
  · rw [modifyFile_files]
    split_ifs with hj
    · rw [hl, hj]
    · rfl

/-- What compaction after the release of file `i` does to the file records. -/
theorem filePoolCompact_files {c : DfcCredential} (h : FilePoolInv z c) {i j : ℕ}
    (hi : i < c.numFiles) (hn : (c.files i).dataLen ≠ 0) (hj : j < c.numFiles) (hji : j ≠ i)
    (hnj : (c.files j).dataLen ≠ 0) :
    (dfcFilePoolCompactAfterRelease (c.modifyFile i DfcFile.dropSlice) (c.files i).dataOffset
      (c.files i).dataLen).files j =
    { c.files j with
      dataOffset := closeHole (c.files i).dataOffset (c.files i).dataLen
        (c.files j).dataOffset } := by
  have hsi := h.slice hi hn
  have hsj := h.slice hj hnj
  have hfit := h.fit
  have hoff : (c.files j).dataOffset < 65535 := by
    simp only [dfcFilePoolSize] at hfit
    omega
  rw [dfcFilePoolCompactAfterRelease, if_neg (by simp [hn, hsi.2])]
  simp only [modifyFile_files, if_neg hji, modifyFile_numFiles]
  rw [if_pos hj, poolOffsetAfterRelease_eq hoff]

theorem filePoolCompact_dataLen (c : DfcCredential) (o l j : ℕ) :
    ((dfcFilePoolCompactAfterRelease c o l).files j).dataLen = (c.files j).dataLen := by
  rw [dfcFilePoolCompactAfterRelease]
  split_ifs
  · rfl
  · dsimp only
    split_ifs <;> rfl

theorem filePoolCompact_sentinel (c : DfcCredential) (o l j : ℕ)
    (h : (c.files j).dataOffset = dfcFilePoolNone) :
    ((dfcFilePoolCompactAfterRelease c o l).files j).dataOffset = dfcFilePoolNone := by
  rw [dfcFilePoolCompactAfterRelease]
  split_ifs
  · exact h
  · dsimp only
    split_ifs
    · simp [h]
    · exact h

theorem filePoolCompact_numFiles (c : DfcCredential) (o l : ℕ) :
    (dfcFilePoolCompactAfterRelease c o l).numFiles = c.numFiles := by
  rw [dfcFilePoolCompactAfterRelease]
  split_ifs <;> rfl

theorem filePoolCompact_pool {c : DfcCredential} {o l : ℕ} (hl : l ≠ 0) (ho : o ≠ dfcFilePoolNone)
    (hfit : c.filePoolUsed ≤ dfcFilePoolSize) :
    (dfcFilePoolCompactAfterRelease c o l).filePoolUsed = c.filePoolUsed - l ∧
      (dfcFilePoolCompactAfterRelease c o l).filePool =
      closeHoleMem c.filePool c.filePoolUsed o l := by
  have hu : u16 (c.filePoolUsed - l) = c.filePoolUsed - l := by
    apply u16_of_lt
    simp only [dfcFilePoolSize] at hfit
    omega
  rw [dfcFilePoolCompactAfterRelease, if_neg (by simp [hl, ho])]
  simp only [hu, move_tail_eq, closeHoleMem, and_self]

/-- Releasing the slice of a counted file. -/
theorem FilePoolInv.compact {c : DfcCredential} (h : FilePoolInv z c) {i : ℕ} (hi : i < c.numFiles)
    (hn : (c.files i).dataLen ≠ 0) :
    FilePoolInv z (dfcFilePoolCompactAfterRelease (c.modifyFile i DfcFile.dropSlice)
      (c.files i).dataOffset (c.files i).dataLen) := by
  have hsi := h.slice hi hn
  have hpool := filePoolCompact_pool (c := c.modifyFile i DfcFile.dropSlice) hn hsi.2 h.fit
  have hnum := filePoolCompact_numFiles (c.modifyFile i DfcFile.dropSlice)
    (c.files i).dataOffset (c.files i).dataLen
  have hlen (j : ℕ) : ((dfcFilePoolCompactAfterRelease (c.modifyFile i DfcFile.dropSlice)
      (c.files i).dataOffset (c.files i).dataLen).files j).dataLen =
      if j = i then 0 else (c.files j).dataLen := by
    rw [filePoolCompact_dataLen, modifyFile_files]
    split_ifs <;> rfl
  constructor
  · rw [hnum, hpool.1]
    refine h.packed.release (Finset.mem_range.mpr hi) hn ?_ ?_ ?_
    · rw [hlen, if_pos rfl]
    · intro j _ hji
      rw [hlen, if_neg hji]
    · intro j hj hji hnj
      rw [filePoolCompact_files h hi hn (Finset.mem_range.mp hj) hji hnj]
  · rw [hpool.1]
    exact le_trans (Nat.sub_le _ _) h.fit
  · intro hz
    rw [hpool.1, hpool.2]
    exact closeHoleMem_zero hsi.1 (h.zero hz)
  · intro j hj h0
    rw [hlen] at h0
    apply filePoolCompact_sentinel
    rw [modifyFile_files]
    split_ifs with hji
    · rfl
    · rw [if_neg hji] at h0
      exact h.sentinel j (hnum ▸ hj) h0

theorem FilePoolInv.release {c : DfcCredential} (h : FilePoolInv z c) {i : ℕ}
    (hi : i < c.numFiles) :
    FilePoolInv z (dfcFileRelease c i) ∧ ((dfcFileRelease c i).files i).dataLen = 0 ∧
      (dfcFileRelease c i).numFiles = c.numFiles := by
  by_cases hn : (c.files i).dataLen = 0
  · have hs := h.sentinel i hi hn
    rw [dfcFileRelease, if_pos hs]
    refine ⟨?_, by simp, rfl⟩
    refine h.frame rfl rfl (fun _ _ _ => rfl) (fun j => ?_) (fun j => ?_)
    · rw [modifyFile_files]
      split_ifs with hj
      · rw [hj]
      · rfl
    · rw [modifyFile_files]
      split_ifs with hj
      · rw [hj, hn]
      · rfl
  · have hsi := h.slice hi hn
    rw [dfcFileRelease, if_neg hsi.2]
    refine ⟨h.compact hi hn, ?_, ?_⟩
    · rw [filePoolCompact_dataLen]
      simp [DfcFile.dropSlice]
    · rw [filePoolCompact_numFiles]
      rfl

/-- Taking a file without a slice out of the array. -/
theorem FilePoolInv.remove {c : DfcCredential} (h : FilePoolInv z c) {i : ℕ} (hi : i < c.numFiles)
    (h0 : (c.files i).dataLen = 0) : FilePoolInv z (dfcFilesRemove c i) := by
  -- Every file but `i` keeps its slice under its new index.
  let f : ℕ → ℕ := fun j => if j < i then j else j - 1
  have hfile : ∀ j, j < c.numFiles → j ≠ i → (dfcFilesRemove c i).files (f j) = c.files j := by
    intro j hj hji
    simp only [dfcFilesRemove, f]
    by_cases hlt : j < i
    · rw [if_pos hlt, if_neg (by omega), if_neg (by omega)]
    · rw [if_neg hlt, if_neg (by omega), if_pos (by omega)]
      congr 1
      omega
  have hback : ∀ k, k < c.numFiles - 1 → ∃ j, j < c.numFiles ∧ j ≠ i ∧ f j = k := by
    intro k hk
    by_cases hlt : k < i
    · exact ⟨k, by omega, by omega, by simp [f, hlt]⟩
    · exact ⟨k + 1, by omega, by omega, by simp only [f]; rw [if_neg (by omega)]; omega⟩
  constructor
  · refine (h.packed.erase (i := i) h0).map f ?_ ?_ ?_ ?_
    · intro a ha b hb hab
      simp only [Finset.mem_erase, Finset.mem_range] at ha hb
      simp only [f] at hab
      split_ifs at hab <;> omega
    · ext k
      simp only [dfcFilesRemove, Finset.mem_range, Finset.mem_image, Finset.mem_erase]
      constructor
      · intro hk
        obtain ⟨j, hj, hji, hfj⟩ := hback k hk
        exact ⟨j, ⟨hji, hj⟩, hfj⟩
      · rintro ⟨j, ⟨hji, hj⟩, rfl⟩
        simp only [f]
        split_ifs <;> omega
    · intro j hj
      simp only [Finset.mem_erase, Finset.mem_range] at hj
      rw [hfile j hj.2 hj.1]
    · intro j hj _
      simp only [Finset.mem_erase, Finset.mem_range] at hj
      rw [hfile j hj.2 hj.1]
  · exact h.fit
  · exact h.zero
  · intro k hk hk0
    obtain ⟨j, hj, hji, rfl⟩ := hback k hk
    rw [hfile j hj hji] at hk0 ⊢
    exact h.sentinel j hj hk0

/-- Cutting a fresh slice of `dataLen` octets for a file that holds none. -/
theorem FilePoolInv.cut {c : DfcCredential} (h : FilePoolInv z c) {i dataLen : ℕ}
    (hi : i < c.numFiles) (h0 : (c.files i).dataLen = 0)
    (hfit : c.filePoolUsed + dataLen ≤ dfcFilePoolSize) :
    FilePoolInv z (dfcFileCutSlice c i dataLen) := by
  simp only [dfcFilePoolSize] at hfit
  rw [dfcFileCutSlice]
  split_ifs with hd
  · have hs := h.sentinel i hi h0
    refine h.frame rfl rfl (fun _ _ _ => rfl) (fun j => ?_) (fun j => ?_)
    · rw [modifyFile_files]
      split_ifs with hj
      · rw [hj, hs]; rfl
      · rfl
    · rw [modifyFile_files]
      split_ifs with hj
      · rw [hj, h0]; rfl
      · rfl
  · rw [u16_of_lt (n := c.filePoolUsed) (by omega), u16_of_lt (n := dataLen) (by omega),
      u16_of_lt (n := c.filePoolUsed + dataLen) (by omega)]
    constructor
    · refine h.packed.append (Finset.mem_range.mpr hi) h0 ?_ ?_ ?_ ?_
      · simp
      · simp
      · intro j _ hji
        simp [hji]
      · intro j _ hji _
        simp [hji]
    · exact hfit
    · intro hz j hj hs
      dsimp only at hj ⊢
      rw [Mem.fill_apply_of_out (by omega)]
      exact h.zero hz j (by omega) hs
    · intro j hj hl
      simp only [modifyFile_files] at hl ⊢
      split_ifs at hl ⊢ with hji
      · simp only at hl
        exact absurd hl hd
      · exact h.sentinel j hj hl

/-- Resolving the slice of an owner that keeps the sentinel rule. -/
theorem dfcPoolSliceResolve_eq {offset length used none' : ℕ} (h0 : length = 0 → offset = none')
    (hn : length ≠ 0 → offset + length ≤ used ∧ offset ≠ none') :
    dfcPoolSliceResolve offset length used none' = some offset := by
  unfold dfcPoolSliceResolve
  split_ifs with h₁ h₂ h₃
  · exact absurd (h0 h₁) h₂.2
  · rw [h0 h₁]
  · have := hn h₁
    omega
  · rfl

theorem FilePoolInv.resolve {c : DfcCredential} (h : FilePoolInv z c) {i : ℕ}
    (hi : i < c.numFiles) :
    dfcPoolSliceResolve (c.files i).dataOffset (c.files i).dataLen c.filePoolUsed
      dfcFilePoolNone = some (c.files i).dataOffset :=
  dfcPoolSliceResolve_eq (h.sentinel i hi) (h.slice hi)

theorem FilePoolInv.offset_eq_none {c : DfcCredential} (h : FilePoolInv z c) {i : ℕ}
    (hi : i < c.numFiles) :
    (c.files i).dataOffset = dfcFilePoolNone ↔ (c.files i).dataLen = 0 := by
  constructor
  · intro ho
    by_contra hn
    exact (h.slice hi hn).2 ho
  · exact h.sentinel i hi

/-- Everything `dfc_file_resize` can do: refuse, keep a slice that already has the
length, or drop the old slice and cut a new one that fits. -/
theorem dfcFileResize_cases (c : DfcCredential) (i dataLen : ℕ) :
    dfcFileResize c i dataLen = (c, false) ∨
    (dfcFileResize c i dataLen = (c, true) ∧ (c.files i).dataLen = dataLen) ∨
    ∃ oldOffset, dfcPoolSliceResolve (c.files i).dataOffset (c.files i).dataLen c.filePoolUsed
        dfcFilePoolNone = some oldOffset ∧ dataLen ≤ dfcMaxFileData ∧
      (if oldOffset ≠ dfcFilePoolNone then c.filePoolUsed - (c.files i).dataLen
        else c.filePoolUsed) + dataLen ≤ dfcFilePoolSize ∧
      dfcFileResize c i dataLen =
        (dfcFileCutSlice (dfcFileDropOldSlice c i oldOffset) i dataLen, true) := by
  rw [dfcFileResize]
  by_cases h₁ : dfcMaxFileData < dataLen
  · simp [h₁]
  by_cases h₂ : dfcFilePoolSize < dataLen
  · simp [h₁, h₂]
  by_cases h₃ : dfcFilePoolSize < c.filePoolUsed
  · simp [h₁, h₂, h₃]
  simp only [h₁, h₂, h₃, if_false]
  cases hs : dfcPoolSliceResolve (c.files i).dataOffset (c.files i).dataLen c.filePoolUsed
      dfcFilePoolNone with
  | none => exact Or.inl rfl
  | some oldOffset =>
    dsimp only
    by_cases h₄ : oldOffset ≠ dfcFilePoolNone ∧ (c.files i).dataLen = dataLen
    · rw [if_pos h₄]
      exact Or.inr (Or.inl ⟨rfl, h₄.2⟩)
    rw [if_neg h₄]
    by_cases h₅ : oldOffset ≠ dfcFilePoolNone ∧ c.filePoolUsed < (c.files i).dataLen
    · rw [if_pos h₅]
      exact Or.inl rfl
    rw [if_neg h₅]
    by_cases h₆ : dfcFilePoolSize - (if oldOffset ≠ dfcFilePoolNone
        then c.filePoolUsed - (c.files i).dataLen else c.filePoolUsed) < dataLen
    · rw [if_pos h₆]
      exact Or.inl rfl
    rw [if_neg h₆]
    refine Or.inr (Or.inr ⟨oldOffset, rfl, by omega, ?_, rfl⟩)
    split_ifs at h₆ ⊢ <;> omega

theorem FilePoolInv.resize {c : DfcCredential} (h : FilePoolInv z c) {i : ℕ} (hi : i < c.numFiles)
    (dataLen : ℕ) : FilePoolInv z (dfcFileResize c i dataLen).1 := by
  obtain hr | ⟨hr, -⟩ | ⟨oldOffset, hs, -, hroom, hr⟩ := dfcFileResize_cases c i dataLen
  · rw [hr]; exact h
  · rw [hr]; exact h
  rw [hr]
  rw [h.resolve hi, Option.some.injEq] at hs
  subst hs
  have hnone := h.offset_eq_none hi
  by_cases hoff : (c.files i).dataOffset = dfcFilePoolNone
  · rw [if_neg (not_not.mpr hoff)] at hroom
    rw [dfcFileDropOldSlice, if_neg (not_not.mpr hoff)]
    exact h.cut hi (hnone.mp hoff) hroom
  · have hn : (c.files i).dataLen ≠ 0 := fun hz => hoff (hnone.mpr hz)
    have hu := (filePoolCompact_pool (c := c.modifyFile i DfcFile.dropSlice) hn hoff h.fit).1
    rw [if_pos hoff] at hroom
    rw [dfcFileDropOldSlice, if_pos hoff]
    refine (h.compact hi hn).cut (by rw [filePoolCompact_numFiles]; exact hi) ?_ ?_
    · rw [filePoolCompact_dataLen]
      simp [DfcFile.dropSlice]
    · rw [hu]
      exact hroom

theorem FilePoolInv.create {c : DfcCredential} (h : FilePoolInv z c) (appIndex : ℕ)
    (number : UInt8) :
    FilePoolInv z (dfcCredentialCreateFile c appIndex number).1 := by
  rw [dfcCredentialCreateFile]
  split_ifs
  all_goals first | exact h | skip
  constructor
  · have hbase : Packed (Finset.range c.numFiles)
        (fun i => (Function.update c.files c.numFiles
          { appIndex := u8 appIndex, number := number, dataOffset := dfcFilePoolNone }
            i).dataOffset)
        (fun i => (Function.update c.files c.numFiles
          { appIndex := u8 appIndex, number := number,
            dataOffset := dfcFilePoolNone } i).dataLen) c.filePoolUsed := by
      refine h.packed.congr (fun i hi => ?_) (fun i hi _ => ?_)
      all_goals
        have hne : i ≠ c.numFiles := by have := Finset.mem_range.mp hi; omega
        simp [hne]
    rw [Finset.range_add_one]
    exact hbase.insert (by simp) (by simp)
  · exact h.fit
  · exact h.zero
  · intro i hi h0
    simp only [Function.update_apply] at h0 ⊢
    split_ifs at h0 ⊢ with hne
    · rfl
    · exact h.sentinel i (by dsimp only at hi; omega) h0

theorem FilePoolInv.delete {c : DfcCredential} (h : FilePoolInv z c) (appIndex : ℕ)
    (number : UInt8) :
    FilePoolInv z (dfcCredentialDeleteFile c appIndex number).1 := by
  rw [dfcCredentialDeleteFile]
  cases hf : dfcCredentialFindFileInApp c appIndex number with
  | none => exact h
  | some i =>
    have hi : i < c.numFiles := List.mem_range.mp (List.mem_of_find?_eq_some hf)
    obtain ⟨hr, h0, hnum⟩ := h.release hi
    exact hr.remove (by rw [hnum]; exact hi) h0

/-- A write into the slice of a file keeps the octets behind the used part. -/
theorem FilePoolInv.writeSlice {c : DfcCredential} (h : FilePoolInv z c) {dst : ℕ} {bs : List UInt8}
    (hb : dst + bs.length ≤ c.filePoolUsed) :
    FilePoolInv z { c with filePool := c.filePool.write dst bs } :=
  h.frame rfl rfl (fun i hi _ => Mem.write_apply_of_out (by omega)) (fun _ => rfl) (fun _ => rfl)

/-- The slice `dfc_file_data` hands out lies inside the used part. -/
theorem dfcFileData_bound {c : DfcCredential} {file : DfcFile} {dst : ℕ}
    (h : dfcFileData c file = some dst) :
    dst = file.dataOffset ∧ file.dataLen ≠ 0 ∧ dst + file.dataLen ≤ c.filePoolUsed := by
  unfold dfcFileData at h
  split_ifs at h with h₁ h₂
  simp only [Option.some.injEq] at h
  subst h
  exact ⟨rfl, fun hz => h₁ (Or.inr hz), by omega⟩

/-- A successful resize leaves a slice of the requested length. -/
theorem dfcFileResize_dataLen {c c' : DfcCredential} {i dataLen : ℕ}
    (h : dfcFileResize c i dataLen = (c', true)) : (c'.files i).dataLen = dataLen := by
  have hsize : dfcMaxFileData = 2048 := rfl
  obtain hr | ⟨hr, hl⟩ | ⟨oldOffset, -, hmax, -, hr⟩ := dfcFileResize_cases c i dataLen
  · simp [hr] at h
  · rw [hr, Prod.mk.injEq] at h
    rw [← h.1, hl]
  · rw [hr, Prod.mk.injEq] at h
    rw [← h.1, dfcFileCutSlice]
    split_ifs with h0
    · simp [DfcFile.dropSlice, h0]
    · simp only [modifyFile_files, if_true]
      exact u16_of_lt (by omega)

theorem dfcFileResize_numFiles (c : DfcCredential) (i dataLen : ℕ) :
    (dfcFileResize c i dataLen).1.numFiles = c.numFiles := by
  obtain hr | ⟨hr, -⟩ | ⟨oldOffset, -, -, -, hr⟩ := dfcFileResize_cases c i dataLen
  · rw [hr]
  · rw [hr]
  have hdrop : (dfcFileDropOldSlice c i oldOffset).numFiles = c.numFiles := by
    rw [dfcFileDropOldSlice]
    split_ifs
    · exact filePoolCompact_numFiles _ _ _
    · rfl
  rw [hr, ← hdrop, dfcFileCutSlice]
  split_ifs <;> rfl

/-- One turn of the completion loop. The three ways to complete a file are the one that
only sets the flag, the growth in place, and the move to a fresh slice. -/
theorem FilePoolInv.materializeFile {c : DfcCredential} (h : FilePoolInv z c) {i : ℕ}
    (hi : i < c.numFiles) (sizeMax scratchLen : ℕ) :
    FilePoolInv z (dfcCredentialMaterializeFile c sizeMax scratchLen i).1 := by
  have hmark (c' : DfcCredential) (hc : FilePoolInv z c') : FilePoolInv z
      (c'.modifyFile i fun file => { file with contentsComplete := true }) :=
    hc.modifyFile i (fun _ => rfl) (fun _ => rfl)
  rw [dfcCredentialMaterializeFile]
  cases hw : dfcFileWantedLength sizeMax (c.files i) with
  | none => exact h
  | some want =>
    dsimp only
    split_ifs with h₁ h₂ h₃
    · exact hmark c h
    · exact h
    · obtain ⟨hk, -, hlast, -, hroom⟩ := h₃
      have hfree : c.filePoolUsed + (want - (c.files i).dataLen) ≤ dfcFilePoolSize := by
        unfold dfcCredentialFilePoolFree at hroom
        split_ifs at hroom <;> omega
      have hsize : dfcFilePoolSize = 8192 := rfl
      rw [u16_of_lt (n := want) (by omega), u16_of_lt (by omega)]
      constructor
      · refine h.packed.grow (i := i) (n := want - (c.files i).dataLen) (Finset.mem_range.mpr hi)
          (by omega) hlast ?_ ?_ |>.congr (fun j _ => rfl) ?_
        · simp only [modifyFile_files, if_true]
          omega
        · intro j _ hji
          simp [hji]
        · intro j _ _
          simp only [modifyFile_files]
          split_ifs with hji
          · rw [hji]
          · rfl
      · exact hfree
      · intro hz j hj hs
        dsimp only at hj ⊢
        rw [Mem.fill_apply_of_out (by omega)]
        exact h.zero hz j (by omega) hs
      · intro j hj hl
        simp only [modifyFile_files] at hl ⊢
        split_ifs at hl ⊢ with hji
        · simp only at hl
          omega
        · exact h.sentinel j hj hl
    · cases hr : dfcFileResize c i want with
      | mk c' ok =>
        have hinv := h.resize hi want
        rw [hr] at hinv
        cases ok with
        | false => exact hinv
        | true =>
          dsimp only
          apply hmark
          have hgrown := dfcFileResize_dataLen hr
          cases hd : dfcFileData c' (c'.files i) with
          | none => exact hinv
          | some dst =>
            dsimp only
            refine hinv.writeSlice ?_
            have hdst := dfcFileData_bound hd
            cases hs : dfcFileData c (c.files i) with
            | none => simp; omega
            | some src =>
              simp only [Mem.length_read]
              omega

end DfcCore
