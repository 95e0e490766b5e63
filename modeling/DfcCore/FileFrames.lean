import DfcCore.PoolRuns
import Mathlib.Data.Nat.Count

/-!
# File operations touch only their owner

What the other files of a credential read back after a file operation. Releasing a
slice moves the slices behind it, so a file is compared through the octets of its
slice and through its record without the place: `SameFile` relates a file before an
operation with the same file after it, possibly under another index.
-/
namespace DfcCore
open Arena
variable {z : Prop}

/-- The octets of a file, read through `dfc_file_data`. -/
def fileOctets (c : DfcCredential) (i : ℕ) : Option (List UInt8) :=
  (dfcFileData c (c.files i)).map fun data => c.filePool.read data (c.files i).dataLen

/-- A file record with its place in the pool and its owner erased. -/
def DfcFile.unplaced (file : DfcFile) : DfcFile := { file with dataOffset := 0, appIndex := 0 }

/-- File `j` of `c` is file `k` of `c'`: its record and its slice. -/
structure SameFile (c c' : DfcCredential) (j k : ℕ) : Prop where
  record : (c'.files k).unplaced = (c.files j).unplaced
  slice : c'.filePool.read (c'.files k).dataOffset (c'.files k).dataLen =
    c.filePool.read (c.files j).dataOffset (c.files j).dataLen

theorem SameFile.refl (c : DfcCredential) (j : ℕ) : SameFile c c j j := ⟨rfl, rfl⟩

theorem SameFile.trans {a b c : DfcCredential} {i j k : ℕ} (h : SameFile a b i j)
    (h' : SameFile b c j k) : SameFile a c i k :=
  ⟨h'.record.trans h.record, h'.slice.trans h.slice⟩

theorem SameFile.dataLen {c c' : DfcCredential} {j k : ℕ} (h : SameFile c c' j k) :
    (c'.files k).dataLen = (c.files j).dataLen :=
  show (c'.files k).unplaced.dataLen = (c.files j).unplaced.dataLen by rw [h.record]

/-- In a pool in order a file shows its slice, unless the slice is empty. -/
theorem FilePoolInv.fileOctets_eq {c : DfcCredential} (h : FilePoolInv z c) {i : ℕ}
    (hi : i < c.numFiles) :
    fileOctets c i = if (c.files i).dataLen = 0 then none
      else some (c.filePool.read (c.files i).dataOffset (c.files i).dataLen) := by
  rw [fileOctets, dfcFileData]
  by_cases h0 : (c.files i).dataLen = 0
  · simp [h0]
  · obtain ⟨hb, hoff⟩ := h.slice hi h0
    rw [if_neg (by simp [h0, hoff]), if_neg (by omega), if_neg h0]
    rfl

theorem SameFile.fileOctets {c c' : DfcCredential} {j k : ℕ} (hs : SameFile c c' j k)
    (h : FilePoolInv z c) (h' : FilePoolInv z c') (hj : j < c.numFiles) (hk : k < c'.numFiles) :
    fileOctets c' k = fileOctets c j := by
  rw [h.fileOctets_eq hj, h'.fileOctets_eq hk, hs.slice, hs.dataLen]

/-- An edit of another file record. -/
theorem sameFile_modifyFile (c : DfcCredential) {i j : ℕ} (f : DfcFile → DfcFile) (hji : j ≠ i) :
    SameFile c (c.modifyFile i f) j j := by
  constructor
  · rw [modifyFile_files, if_neg hji]
  · rw [modifyFile_files, if_neg hji]
    rfl

/-- Closing the hole of file `i` keeps the contents of file `j`. -/
theorem FilePoolInv.sameFile_compact {c : DfcCredential} (h : FilePoolInv z c) {i j : ℕ}
    (hi : i < c.numFiles) (hn : (c.files i).dataLen ≠ 0) (hj : j < c.numFiles) (hji : j ≠ i) :
    SameFile c (dfcFilePoolCompactAfterRelease (c.modifyFile i DfcFile.dropSlice)
      (c.files i).dataOffset (c.files i).dataLen) j j := by
  obtain ⟨hbi, hoff⟩ := h.slice hi hn
  by_cases h0 : (c.files j).dataLen = 0
  · have hlen := filePoolCompact_dataLen (c.modifyFile i DfcFile.dropSlice)
      (c.files i).dataOffset (c.files i).dataLen j
    rw [modifyFile_files, if_neg hji] at hlen
    refine ⟨?_, by rw [hlen, h0]; rfl⟩
    rw [dfcFilePoolCompactAfterRelease, if_neg (by simp [hn, hoff])]
    simp only [modifyFile_files, if_neg hji, modifyFile_numFiles]
    rw [if_pos hj]
    rfl
  · have hbj := (h.slice hj h0).1
    have hd := h.packed.disjoint i (Finset.mem_range.mpr hi) j (Finset.mem_range.mpr hj)
      (Ne.symm hji) hn h0
    have hfile := filePoolCompact_files h hi hn hj hji h0
    have hpool := (filePoolCompact_pool (c := c.modifyFile i DfcFile.dropSlice) hn hoff h.fit).2
    refine ⟨by rw [hfile]; rfl, ?_⟩
    rw [hfile, hpool]
    exact read_closeHoleMem hbi hn h0 hbj hd

theorem FilePoolInv.sameFile_release {c : DfcCredential} (h : FilePoolInv z c) {i j : ℕ}
    (hi : i < c.numFiles) (hj : j < c.numFiles) (hji : j ≠ i) :
    SameFile c (dfcFileRelease c i) j j := by
  rw [dfcFileRelease]
  by_cases hoff : (c.files i).dataOffset = dfcFilePoolNone
  · rw [if_pos hoff]
    exact sameFile_modifyFile c _ hji
  · rw [if_neg hoff]
    have hn : (c.files i).dataLen ≠ 0 := fun h0 => hoff ((h.offset_eq_none hi).mpr h0)
    exact h.sameFile_compact hi hn hj hji

/-- A slice cut behind the used part overlaps no other. -/
theorem FilePoolInv.sameFile_cut {c : DfcCredential} (h : FilePoolInv z c) {i j dataLen : ℕ}
    (hj : j < c.numFiles) (hji : j ≠ i) : SameFile c (dfcFileCutSlice c i dataLen) j j := by
  rw [dfcFileCutSlice]
  by_cases hd : dataLen = 0
  · rw [if_pos hd]
    exact sameFile_modifyFile c _ hji
  rw [if_neg hd]
  have hfit := h.fit
  have hu : u16 c.filePoolUsed = c.filePoolUsed := by
    apply u16_of_lt
    simp only [dfcFilePoolSize] at hfit
    omega
  refine ⟨?_, ?_⟩
  · simp only [modifyFile_files, if_neg hji]
  · simp only [modifyFile_files, if_neg hji, hu]
    by_cases h0 : (c.files j).dataLen = 0
    · rw [h0]; rfl
    · exact Mem.read_fill_of_disjoint (Or.inl (h.slice hj h0).1)

theorem FilePoolInv.sameFile_resize {c : DfcCredential} (h : FilePoolInv z c) {i j : ℕ}
    (hi : i < c.numFiles) (hj : j < c.numFiles) (hji : j ≠ i) (dataLen : ℕ) :
    SameFile c (dfcFileResize c i dataLen).1 j j := by
  obtain hr | ⟨hr, -⟩ | ⟨oldOffset, hs, -, -, hr⟩ := dfcFileResize_cases c i dataLen
  · rw [hr]; exact SameFile.refl c j
  · rw [hr]; exact SameFile.refl c j
  rw [hr]
  rw [h.resolve hi, Option.some.injEq] at hs
  subst hs
  rw [dfcFileDropOldSlice]
  by_cases hoff : (c.files i).dataOffset = dfcFilePoolNone
  · rw [if_neg (not_not.mpr hoff)]
    exact h.sameFile_cut hj hji
  · rw [if_pos hoff]
    have hn : (c.files i).dataLen ≠ 0 := fun h0 => hoff ((h.offset_eq_none hi).mpr h0)
    refine (h.sameFile_compact hi hn hj hji).trans ?_
    exact (h.compact hi hn).sameFile_cut (by rw [filePoolCompact_numFiles]; exact hj) hji

/-- Where a file stands after file `i` was taken out of the array. -/
def indexWithout (i j : ℕ) : ℕ := if j < i then j else j - 1

theorem filesRemove_files (c : DfcCredential) {i j : ℕ} (hi : i < c.numFiles)
    (hj : j < c.numFiles) (hji : j ≠ i) :
    (dfcFilesRemove c i).files (indexWithout i j) = c.files j := by
  simp only [dfcFilesRemove, indexWithout]
  by_cases hlt : j < i
  · rw [if_pos hlt, if_neg (by omega), if_neg (by omega)]
  · rw [if_neg hlt, if_neg (by omega), if_pos (by omega)]
    congr 1
    omega

theorem sameFile_remove (c : DfcCredential) {i j : ℕ} (hi : i < c.numFiles)
    (hj : j < c.numFiles) (hji : j ≠ i) : SameFile c (dfcFilesRemove c i) j (indexWithout i j) := by
  constructor
  · rw [filesRemove_files c hi hj hji]
  · rw [filesRemove_files c hi hj hji]
    rfl

/-- File operations keep the owner of every record. -/
theorem fileRelease_appIndex (c : DfcCredential) (i j : ℕ) :
    ((dfcFileRelease c i).files j).appIndex = (c.files j).appIndex := by
  have hedit (f : DfcFile → DfcFile) (hf : ∀ x, (f x).appIndex = x.appIndex) :
      ((c.modifyFile i f).files j).appIndex = (c.files j).appIndex := by
    rw [modifyFile_files]
    split_ifs with hj
    · rw [hf, hj]
    · rfl
  rw [dfcFileRelease]
  split_ifs
  · exact hedit _ (fun _ => rfl)
  · rw [dfcFilePoolCompactAfterRelease]
    split_ifs
    · exact hedit _ (fun _ => rfl)
    · dsimp only
      split_ifs <;> exact hedit _ (fun _ => rfl)

/-- The owner index of a surviving file after application `appIndex` went. -/
def ownerWithout (appIndex owner : ℕ) : ℕ :=
  if owner ≠ dfcFileOwnerPicc ∧ appIndex < owner then u8 (owner - 1) else owner

theorem count_congr_lt {p q : ℕ → Prop} [DecidablePred p] [DecidablePred q] {n : ℕ}
    (h : ∀ k < n, (p k ↔ q k)) : Nat.count p n = Nat.count q n := by
  induction n with
  | zero => rfl
  | succ n ih =>
    rw [Nat.count_succ, Nat.count_succ, ih (fun k hk => h k (by omega))]
    simp only [h n (Nat.lt_succ_self n)]

/-- What the walk, standing at `i`, has left when it is done: the files before `i` stay,
a surviving file behind `i` closes up and is renumbered. -/
structure FilesDropped (c c' : DfcCredential) (appIndex i : ℕ) : Prop where
  before : ∀ j < c.numFiles, j < i → j < c'.numFiles ∧ SameFile c c' j j ∧
    (c'.files j).appIndex = (c.files j).appIndex
  behind : ∀ k, i + k < c.numFiles → (c.files (i + k)).appIndex ≠ appIndex →
    i + Nat.count (fun m => (c.files (i + m)).appIndex ≠ appIndex) k < c'.numFiles ∧
    SameFile c c' (i + k) (i + Nat.count (fun m => (c.files (i + m)).appIndex ≠ appIndex) k) ∧
    (c'.files (i + Nat.count (fun m => (c.files (i + m)).appIndex ≠ appIndex) k)).appIndex =
      ownerWithout appIndex (c.files (i + k)).appIndex

/-- One turn that takes file `i` out. -/
theorem FilesDropped.remove {c c' : DfcCredential} {appIndex i : ℕ} (h : FilePoolInv z c)
    (hi : i < c.numFiles) (ha : (c.files i).appIndex = appIndex)
    (hd : FilesDropped (dfcFilesRemove (dfcFileRelease c i) i) c' appIndex i) :
    FilesDropped c c' appIndex i := by
  have hnum := (h.release hi).2.2
  have hcount : (dfcFilesRemove (dfcFileRelease c i) i).numFiles = c.numFiles - 1 := by
    rw [← hnum]
    rfl
  have hsame {j : ℕ} (hj : j < c.numFiles) (hji : j ≠ i) :
      SameFile c (dfcFilesRemove (dfcFileRelease c i) i) j (indexWithout i j) :=
    (h.sameFile_release hi hj hji).trans
      (sameFile_remove _ (by rw [hnum]; exact hi) (by rw [hnum]; exact hj) hji)
  have howner {j : ℕ} (hj : j < c.numFiles) (hji : j ≠ i) :
      ((dfcFilesRemove (dfcFileRelease c i) i).files (indexWithout i j)).appIndex =
        (c.files j).appIndex := by
    rw [filesRemove_files _ (by rw [hnum]; exact hi) (by rw [hnum]; exact hj) hji,
      fileRelease_appIndex]
  constructor
  · intro j hj hji
    have hix : indexWithout i j = j := if_pos hji
    have hs := hsame hj (by omega)
    have ho := howner hj (by omega)
    rw [hix] at hs ho
    obtain ⟨hlt, hs', ho'⟩ := hd.before j (by rw [hcount]; omega) hji
    exact ⟨hlt, hs.trans hs', ho'.trans ho⟩
  · intro k hk hne
    obtain ⟨k, rfl⟩ : ∃ m, k = m + 1 := by
      cases k with
      | zero => exact absurd ha hne
      | succ m => exact ⟨m, rfl⟩
    have hix (m : ℕ) : indexWithout i (i + (m + 1)) = i + m := by
      rw [indexWithout, if_neg (by omega)]
      omega
    have hs := hsame hk (by omega)
    have ho := howner hk (by omega)
    rw [hix] at hs ho
    have hcnt : Nat.count (fun m => (c.files (i + m)).appIndex ≠ appIndex) (k + 1) =
        Nat.count (fun m => ((dfcFilesRemove (dfcFileRelease c i) i).files (i + m)).appIndex ≠
          appIndex) k := by
      rw [Nat.count_succ', if_neg (by simpa using ha), add_zero]
      apply count_congr_lt
      intro m hm
      rw [← hix m, howner (by omega) (by omega)]
    obtain ⟨hlt, hs', ho'⟩ := hd.behind k (by rw [hcount]; omega) (by rw [ho]; exact hne)
    rw [hcnt]
    exact ⟨hlt, hs.trans hs', by rw [ho', ho]⟩

/-- One turn that keeps file `i` and renumbers its owner. -/
theorem FilesDropped.keep {c c₁ c' : DfcCredential} {appIndex i : ℕ} (hi : i < c.numFiles)
    (ha : (c.files i).appIndex ≠ appIndex) (hnum : c₁.numFiles = c.numFiles)
    (hsame : ∀ j, SameFile c c₁ j j)
    (howner : ∀ j, (c₁.files j).appIndex =
      if j = i then ownerWithout appIndex (c.files j).appIndex else (c.files j).appIndex)
    (hd : FilesDropped c₁ c' appIndex (i + 1)) : FilesDropped c c' appIndex i := by
  constructor
  · intro j hj hji
    obtain ⟨hlt, hs, ho⟩ := hd.before j (by rw [hnum]; exact hj) (by omega)
    refine ⟨hlt, (hsame j).trans hs, ?_⟩
    rw [ho, howner, if_neg (by omega)]
  · intro k hk hne
    cases k with
    | zero =>
      obtain ⟨hlt, hs, ho⟩ := hd.before i (by rw [hnum]; exact hi) (by omega)
      refine ⟨hlt, (hsame i).trans hs, ?_⟩
      rw [howner, if_pos rfl] at ho
      exact ho
    | succ k =>
      have hcnt : i + Nat.count (fun m => (c.files (i + m)).appIndex ≠ appIndex) (k + 1) =
          i + 1 + Nat.count (fun m => (c₁.files (i + 1 + m)).appIndex ≠ appIndex) k := by
        rw [Nat.count_succ', if_pos (by simpa using ha)]
        have hc : Nat.count (fun m => (c.files (i + (m + 1))).appIndex ≠ appIndex) k =
            Nat.count (fun m => (c₁.files (i + 1 + m)).appIndex ≠ appIndex) k := by
          apply count_congr_lt
          intro m _
          rw [howner, if_neg (by omega), show i + (m + 1) = i + 1 + m by omega]
        omega
      have hix : i + (k + 1) = i + 1 + k := by omega
      have hown := howner (i + 1 + k)
      rw [if_neg (by omega)] at hown
      rw [hcnt, hix]
      rw [hix] at hk hne
      obtain ⟨hlt, hs, ho⟩ := hd.behind k (by rw [hnum]; exact hk) (by rw [hown]; exact hne)
      exact ⟨hlt, (hsame _).trans hs, by rw [ho, hown]⟩

theorem FilePoolInv.filesDropped (appIndex fuel : ℕ) {c : DfcCredential}
    (h : FilePoolInv z c) (i : ℕ) (hfuel : c.numFiles ≤ i + fuel) :
    FilesDropped c (dfcCredentialDropFilesOf c appIndex fuel i) appIndex i := by
  induction fuel generalizing c i with
  | zero => exact ⟨fun j hj _ => ⟨hj, SameFile.refl c j, rfl⟩, fun k hk => by omega⟩
  | succ fuel ih =>
    rw [dfcCredentialDropFilesOf]
    by_cases h₁ : c.numFiles ≤ i
    · rw [if_pos h₁]
      exact ⟨fun j hj _ => ⟨hj, SameFile.refl c j, rfl⟩, fun k hk => by omega⟩
    rw [if_neg h₁]
    have hi : i < c.numFiles := by omega
    by_cases h₂ : (c.files i).appIndex = appIndex
    · rw [if_pos h₂]
      obtain ⟨hr, h0, hnum⟩ := h.release hi
      have hcount : (dfcFilesRemove (dfcFileRelease c i) i).numFiles = c.numFiles - 1 := by
        rw [← hnum]
        rfl
      exact FilesDropped.remove h hi h₂
        (ih (hr.remove (by rw [hnum]; exact hi) h0) i (by rw [hcount]; omega))
    rw [if_neg h₂]
    by_cases h₃ : (c.files i).appIndex ≠ dfcFileOwnerPicc ∧ appIndex < (c.files i).appIndex
    · simp only [if_pos h₃]
      have hrec := ih (h.modifyFile i
        (f := fun file => { file with appIndex := u8 (file.appIndex - 1) })
        (fun _ => rfl) (fun _ => rfl)) (i + 1) (by rw [modifyFile_numFiles]; omega)
      refine FilesDropped.keep hi h₂ (modifyFile_numFiles _ _ _) (fun j => ?_) (fun j => ?_) hrec
      · by_cases hj : j = i
        · subst hj
          exact ⟨by rw [modifyFile_files, if_pos rfl]; rfl,
            by rw [modifyFile_files, if_pos rfl]; rfl⟩
        · exact sameFile_modifyFile c _ hj
      · rw [modifyFile_files]
        split_ifs with hj
        · rw [hj, ownerWithout, if_pos h₃]
        · rfl
    · simp only [if_neg h₃]
      refine FilesDropped.keep hi h₂ rfl (fun j => SameFile.refl c j) (fun j => ?_)
        (ih h (i + 1) (by omega))
      split_ifs with hj
      · rw [hj, ownerWithout, if_neg h₃]
      · rfl

end DfcCore
