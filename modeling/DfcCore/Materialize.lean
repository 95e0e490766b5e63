import DfcCore.KeySetMasks
import DfcCore.LoadedCard

/-!
# Completing the contents of files

`dfc_credential_materialize_contents` gives every data and record file the octets its settings
declare. A file at the end of the used part grows where it is; any other is parked in the scratch
buffer, released and cut anew, which moves the files behind it. One turn of the loop is described
by what the files show before and after it, and the whole loop by induction over its turns.

The code computes how many octets a file declares in `size_t`. Where the product of a record file
does not fit, what is left of it is taken for the declared length: a file may then be called
complete that is not, or cut to the wrong length.
-/
namespace DfcCore
open Arena Der
variable {z : Prop} {c c' : DfcCredential} {i j sizeMax scratchLen want : ℕ}
  {wanted : DfcFile → Option ℕ}

/-- The octets a data or record file declares. -/
def declaredLength (file : DfcFile) : Option ℕ :=
  if file.type == dfcFileTypeStandardData || file.type == dfcFileTypeBackupData then
    some file.state.data.declaredSize
  else if file.type == dfcFileTypeLinearRecord || file.type == dfcFileTypeCyclicRecord then
    some (file.state.record.count * file.state.record.size)
  else none

/-- What the code computes is what is left of the declared length. -/
theorem wantedLength_eq (sizeMax : ℕ) (file : DfcFile) :
    dfcFileWantedLength sizeMax file = (declaredLength file).map (· % (sizeMax + 1)) := by
  unfold dfcFileWantedLength declaredLength
  split_ifs <;> rfl

/-- The octets of a file's slice. -/
def sliceOctets (c : DfcCredential) (i : ℕ) : List UInt8 :=
  c.filePool.read (c.files i).dataOffset (c.files i).dataLen

/-- An edit of the record that leaves the place of the slice. -/
theorem sliceOctets_modifyFile (f : DfcFile → DfcFile)
    (hoff : (f (c.files i)).dataOffset = (c.files i).dataOffset)
    (hlen : (f (c.files i)).dataLen = (c.files i).dataLen) :
    sliceOctets (c.modifyFile i f) i = sliceOctets c i := by
  unfold sliceOctets
  rw [modifyFile_files, if_pos rfl, hoff, hlen]
  rfl

/-- File `j` as it was, its owner included. -/
structure FileKept (c c' : DfcCredential) (j : ℕ) : Prop extends SameFile c c' j j where
  appIndex : (c'.files j).appIndex = (c.files j).appIndex

theorem FileKept.refl (c : DfcCredential) (j : ℕ) : FileKept c c j := ⟨.refl c j, rfl⟩

theorem FileKept.trans {a b c : DfcCredential} (h : FileKept a b j) (h' : FileKept b c j) :
    FileKept a c j :=
  ⟨h.toSameFile.trans h'.toSameFile, h'.appIndex.trans h.appIndex⟩

/-- What a turn of the loop, or the whole loop, does to a file. Its owner, type and settings
stay as they are in every case. -/
inductive Materialized (wanted : DfcFile → Option ℕ) (c c' : DfcCredential) (scratchLen i : ℕ) :
    Prop where
  /-- A file without contents of its own. -/
  | other (hwant : wanted (c.files i) = none) (kept : FileKept c c' i)
  /-- Already long enough. -/
  | long (want : ℕ) (hwant : wanted (c.files i) = some want)
      (hlong : want ≤ (c.files i).dataLen)
      (record : (c'.files i).unplaced = { (c.files i).unplaced with contentsComplete := true })
      (appIndex : (c'.files i).appIndex = (c.files i).appIndex)
      (slice : sliceOctets c' i = sliceOctets c i)
  /-- The scratch buffer, the largest file or the pool is too small. -/
  | short (want : ℕ) (hwant : wanted (c.files i) = some want)
      (hshort : (c.files i).dataLen < want)
      (why : scratchLen < (c.files i).dataLen ∨ dfcMaxFileData < want ∨
        dfcFilePoolSize < c'.filePoolUsed - (c.files i).dataLen + want)
      (kept : FileKept c c' i)
  /-- The old octets, and zeros behind them. -/
  | grown (want : ℕ) (hwant : wanted (c.files i) = some want)
      (hshort : (c.files i).dataLen < want)
      (record : (c'.files i).unplaced =
        { (c.files i).unplaced with dataLen := want, contentsComplete := true })
      (appIndex : (c'.files i).appIndex = (c.files i).appIndex)
      (slice : sliceOctets c' i =
        sliceOctets c i ++ List.replicate (want - (c.files i).dataLen) 0)

/-- Whether a short file is grown when `used` octets of the pool are taken. -/
def Grows (scratchLen used dataLen want : ℕ) : Prop :=
  dataLen < want ∧ dataLen ≤ scratchLen ∧ want ≤ dfcMaxFileData ∧
    used - dataLen + want ≤ dfcFilePoolSize

instance (scratchLen used dataLen want : ℕ) : Decidable (Grows scratchLen used dataLen want) :=
  inferInstanceAs (Decidable (_ ∧ _))

/-- The length of a file's slice after its turn. -/
def lengthAfter (wanted : DfcFile → Option ℕ) (scratchLen used : ℕ) (file : DfcFile) : ℕ :=
  match wanted file with
  | none => file.dataLen
  | some want => if Grows scratchLen used file.dataLen want then want else file.dataLen

/-- How far the pool is used after the turns of some files. -/
def usedAfter (wanted : DfcFile → Option ℕ) (c : DfcCredential) (scratchLen : ℕ)
    (files : List ℕ) : ℕ :=
  files.foldl (fun used i =>
    used - (c.files i).dataLen + lengthAfter wanted scratchLen used (c.files i)) c.filePoolUsed

theorem lengthAfter_ge (wanted : DfcFile → Option ℕ) (scratchLen used : ℕ) (file : DfcFile) :
    file.dataLen ≤ lengthAfter wanted scratchLen used file := by
  unfold lengthAfter
  cases wanted file with
  | none => exact le_rfl
  | some want =>
    dsimp only
    split_ifs with hgrows
    · exact hgrows.1.le
    · exact le_rfl

theorem lengthAfter_some {used : ℕ} {file : DfcFile} (hwant : wanted file = some want) :
    lengthAfter wanted scratchLen used file =
      if Grows scratchLen used file.dataLen want then want else file.dataLen := by
  unfold lengthAfter
  rw [hwant]

/-- The slice that is cut for a file: zeros at the end of the used part. -/
theorem FilePoolInv.cut_self (h : FilePoolInv z c) {dataLen : ℕ} (hpos : dataLen ≠ 0)
    (hroom : c.filePoolUsed + dataLen ≤ dfcFilePoolSize) :
    (dfcFileCutSlice c i dataLen).files i =
        { c.files i with dataOffset := c.filePoolUsed, dataLen := dataLen } ∧
      sliceOctets (dfcFileCutSlice c i dataLen) i = List.replicate dataLen 0 ∧
      (dfcFileCutSlice c i dataLen).filePoolUsed = c.filePoolUsed + dataLen := by
  have hfit := h.fit
  have hsize : dfcFilePoolSize = 8192 := rfl
  have hused : u16 c.filePoolUsed = c.filePoolUsed := u16_of_lt (by omega)
  have hlen : u16 dataLen = dataLen := u16_of_lt (by omega)
  have hend : u16 (c.filePoolUsed + dataLen) = c.filePoolUsed + dataLen := u16_of_lt (by omega)
  have hfile : (dfcFileCutSlice c i dataLen).files i =
      { c.files i with dataOffset := c.filePoolUsed, dataLen := dataLen } := by
    unfold dfcFileCutSlice
    rw [if_neg hpos, hused, hlen]
    simp only [modifyFile_files, if_true]
  refine ⟨hfile, ?_, ?_⟩
  · unfold sliceOctets
    rw [hfile]
    unfold dfcFileCutSlice
    rw [if_neg hpos, hused]
    exact Mem.read_fill_self _ _ _ _
  · unfold dfcFileCutSlice
    rw [if_neg hpos, hend]

/-- A file whose old slice is dropped keeps everything but its slice. -/
theorem FilePoolInv.dropOldSlice_self (h : FilePoolInv z c) (hi : i < c.numFiles) :
    ((dfcFileDropOldSlice c i (c.files i).dataOffset).files i).unplaced =
        { (c.files i).unplaced with dataLen := 0 } ∧
      (dfcFileDropOldSlice c i (c.files i).dataOffset).filePoolUsed =
        c.filePoolUsed - (c.files i).dataLen ∧
      FilePoolInv z (dfcFileDropOldSlice c i (c.files i).dataOffset) := by
  unfold dfcFileDropOldSlice
  by_cases hoff : (c.files i).dataOffset = dfcFilePoolNone
  · have hlen : (c.files i).dataLen = 0 := (h.offset_eq_none hi).1 hoff
    rw [if_neg (not_not.2 hoff)]
    refine ⟨?_, ?_, h⟩
    · unfold DfcFile.unplaced
      rw [← hlen]
    · rw [hlen, Nat.sub_zero]
  · have hlen : (c.files i).dataLen ≠ 0 := fun hzero => hoff ((h.offset_eq_none hi).2 hzero)
    rw [if_pos hoff]
    refine ⟨?_, ?_, h.compact hi hlen⟩
    · unfold dfcFilePoolCompactAfterRelease
      rw [if_neg (by simp [hlen, hoff])]
      simp only [modifyFile_files, modifyFile_numFiles, if_true]
      rw [if_pos hi]
      rfl
    · exact (filePoolCompact_pool (c := c.modifyFile i DfcFile.dropSlice) hlen hoff h.fit).1

/-- A file that was resized to more octets: its record is as it was but for the slice, which is
zeros. -/
theorem FilePoolInv.resize_self (h : FilePoolInv z c) (hi : i < c.numFiles)
    (hshort : (c.files i).dataLen < want) (hresize : dfcFileResize c i want = (c', true)) :
    (c'.files i).unplaced = { (c.files i).unplaced with dataLen := want } ∧
      sliceOctets c' i = List.replicate want 0 ∧
      c'.filePoolUsed = c.filePoolUsed - (c.files i).dataLen + want ∧ want ≤ dfcMaxFileData ∧
      c.filePoolUsed - (c.files i).dataLen + want ≤ dfcFilePoolSize := by
  obtain hr | ⟨-, hsame⟩ | ⟨oldOffset, hs, hmax, hroom, hr⟩ := dfcFileResize_cases c i want
  · rw [hr] at hresize
    cases hresize
  · omega
  rw [hr] at hresize
  obtain rfl := congrArg Prod.fst hresize
  rw [h.resolve hi, Option.some.injEq] at hs
  subst hs
  obtain ⟨hrecord, hused, hinv⟩ := h.dropOldSlice_self hi
  have hroom' : (dfcFileDropOldSlice c i (c.files i).dataOffset).filePoolUsed + want ≤
      dfcFilePoolSize := by
    rw [hused]
    by_cases hoff : (c.files i).dataOffset = dfcFilePoolNone
    · rw [if_neg (not_not.2 hoff)] at hroom
      omega
    · rw [if_pos hoff] at hroom
      omega
  obtain ⟨hfile, hslice, hend⟩ := hinv.cut_self (i := i) (by omega) hroom'
  refine ⟨?_, hslice, ?_, hmax, hused ▸ hroom'⟩
  · rw [hfile]
    have hlen := congrArg (fun file => { file with dataLen := want }) hrecord
    exact hlen
  · rw [hend, hused]

/-- A resize to more octets is refused for want of room only. -/
theorem FilePoolInv.resize_refused (h : FilePoolInv z c) (hi : i < c.numFiles)
    (hshort : (c.files i).dataLen < want) (hresize : dfcFileResize c i want = (c', false)) :
    c' = c ∧ (dfcMaxFileData < want ∨
      dfcFilePoolSize < c.filePoolUsed - (c.files i).dataLen + want) := by
  have hfit := h.fit
  unfold dfcFileResize at hresize
  dsimp only at hresize
  rw [h.resolve hi] at hresize
  dsimp only at hresize
  have hsizes : dfcMaxFileData = 2048 ∧ dfcFilePoolSize = 8192 := ⟨rfl, rfl⟩
  by_cases hmax : dfcMaxFileData < want
  · rw [if_pos hmax] at hresize
    exact ⟨(congrArg Prod.fst hresize).symm, .inl hmax⟩
  rw [if_neg hmax, if_neg (by omega), if_neg (by omega), if_neg (by omega)] at hresize
  by_cases hoff : (c.files i).dataOffset = dfcFilePoolNone
  · have hlen : (c.files i).dataLen = 0 := (h.offset_eq_none hi).1 hoff
    rw [if_neg (fun hboth => hboth.1 hoff), if_neg (not_not.2 hoff)] at hresize
    by_cases hroom : dfcFilePoolSize - c.filePoolUsed < want
    · rw [if_pos hroom] at hresize
      exact ⟨(congrArg Prod.fst hresize).symm, .inr (by omega)⟩
    · rw [if_neg hroom] at hresize
      cases congrArg Prod.snd hresize
  · have hbound := (h.slice hi fun hzero => hoff ((h.offset_eq_none hi).2 hzero)).1
    rw [if_neg (fun hboth => by omega), if_pos hoff] at hresize
    by_cases hroom : dfcFilePoolSize - (c.filePoolUsed - (c.files i).dataLen) < want
    · rw [if_pos hroom] at hresize
      exact ⟨(congrArg Prod.fst hresize).symm, .inr (by omega)⟩
    · rw [if_neg hroom] at hresize
      cases congrArg Prod.snd hresize

theorem FilePoolInv.fileData_eq (h : FilePoolInv z c) (hi : i < c.numFiles) :
    dfcFileData c (c.files i) =
      if (c.files i).dataLen = 0 then none else some (c.files i).dataOffset := by
  unfold dfcFileData
  by_cases hlen : (c.files i).dataLen = 0
  · rw [if_pos (.inr hlen), if_pos hlen]
  · obtain ⟨hend, hoff⟩ := h.slice hi hlen
    rw [if_neg (by simp [hoff, hlen]), if_neg (by omega), if_neg hlen]

/-- The octets a data or record file is to hold are there. -/
def FileComplete (wanted : DfcFile → Option ℕ) (file : DfcFile) : Prop :=
  ∀ want, wanted file = some want → want ≤ file.dataLen

/-- What one turn of the loop does. -/
structure MaterializeTurn (sizeMax : ℕ) (c : DfcCredential) (t : DfcCredential × Bool)
    (scratchLen i : ℕ) : Prop where
  self : Materialized (dfcFileWantedLength sizeMax) c t.1 scratchLen i
  others : ∀ j < c.numFiles, j ≠ i → FileKept c t.1 j
  length : (t.1.files i).dataLen =
    lengthAfter (dfcFileWantedLength sizeMax) scratchLen c.filePoolUsed (c.files i)
  used : t.1.filePoolUsed = c.filePoolUsed - (c.files i).dataLen + (t.1.files i).dataLen
  result : t.2 = true ↔ FileComplete (dfcFileWantedLength sizeMax) (t.1.files i)

theorem dfcFileWantedLength_congr {file file' : DfcFile} (htype : file'.type = file.type)
    (hstate : file'.state = file.state) :
    dfcFileWantedLength sizeMax file' = dfcFileWantedLength sizeMax file := by
  unfold dfcFileWantedLength
  rw [htype, hstate]

theorem fileComplete_iff (hwant : wanted (c.files i) = some want) :
    FileComplete wanted (c.files i) ↔ want ≤ (c.files i).dataLen := by
  unfold FileComplete
  rw [hwant]
  simp

theorem fileComplete_of {file file' : DfcFile}
    (hwant : dfcFileWantedLength sizeMax file = some want)
    (htype : file'.type = file.type) (hstate : file'.state = file.state)
    (hlen : want ≤ file'.dataLen) : FileComplete (dfcFileWantedLength sizeMax) file' := by
  intro want' hwant'
  rw [dfcFileWantedLength_congr htype hstate, hwant] at hwant'
  cases hwant'
  exact hlen

theorem fileKept_modifyFile (f : DfcFile → DfcFile) (hji : j ≠ i) :
    FileKept c (c.modifyFile i f) j := by
  refine ⟨sameFile_modifyFile c f hji, ?_⟩
  rw [modifyFile_files, if_neg hji]

/-- A copy into one file's slice. -/
theorem FilePoolInv.fileKept_write (h : FilePoolInv z c) (hi : i < c.numFiles)
    (hj : j < c.numFiles) (hji : j ≠ i) {bs : List UInt8} (hbs : bs.length < (c.files i).dataLen) :
    FileKept c { c with filePool := c.filePool.write (c.files i).dataOffset bs } j := by
  refine ⟨⟨rfl, ?_⟩, rfl⟩
  dsimp only
  by_cases hzero : (c.files j).dataLen = 0
  · rw [hzero, Mem.read_zero_length, Mem.read_zero_length]
  · have hdisjoint := h.packed.disjoint i (Finset.mem_range.2 hi) j (Finset.mem_range.2 hj)
      hji.symm (by omega) hzero
    exact Mem.read_write_of_disjoint (by omega)

/-- A turn that leaves the credential as it is. -/
theorem MaterializeTurn.refused (hfit : (c.files i).dataLen ≤ c.filePoolUsed)
    (hwant : dfcFileWantedLength sizeMax (c.files i) = some want)
    (hshort : (c.files i).dataLen < want)
    (why : scratchLen < (c.files i).dataLen ∨ dfcMaxFileData < want ∨
      dfcFilePoolSize < c.filePoolUsed - (c.files i).dataLen + want) :
    MaterializeTurn sizeMax c (c, false) scratchLen i where
  self := .short want hwant hshort why (.refl c i)
  others j _ _ := .refl c j
  length := by
    have hstays : ¬Grows scratchLen c.filePoolUsed (c.files i).dataLen want := by
      rintro ⟨-, hscratch, hmax, hroom⟩
      omega
    rw [lengthAfter_some hwant, if_neg hstays]
  used := (Nat.sub_add_cancel hfit).symm
  result := by
    rw [fileComplete_iff hwant]
    simpa using hshort

/-- A file at the end of the used part grows where it is. -/
theorem FilePoolInv.turn_grow (h : FilePoolInv z c)
    (hwant : dfcFileWantedLength sizeMax (c.files i) = some want)
    (hshort : (c.files i).dataLen < want) (hscratch : (c.files i).dataLen ≤ scratchLen)
    (hlast : (c.files i).dataOffset + (c.files i).dataLen = c.filePoolUsed)
    (hmax : want ≤ dfcMaxFileData)
    (hroom : want - (c.files i).dataLen ≤ dfcCredentialFilePoolFree c) :
    MaterializeTurn sizeMax c ({ c.modifyFile i fun file =>
      { file with dataLen := u16 want, contentsComplete := true } with
        filePool := c.filePool.fill c.filePoolUsed (want - (c.files i).dataLen) 0
        filePoolUsed := u16 (c.filePoolUsed + (want - (c.files i).dataLen)) }, true)
      scratchLen i := by
  have hsize : dfcFilePoolSize = 8192 := rfl
  have hfree : c.filePoolUsed + (want - (c.files i).dataLen) ≤ dfcFilePoolSize := by
    unfold dfcCredentialFilePoolFree at hroom
    split_ifs at hroom <;> omega
  have hused : u16 (c.filePoolUsed + (want - (c.files i).dataLen)) =
      c.filePoolUsed + (want - (c.files i).dataLen) := u16_of_lt (by omega)
  have hlen : u16 want = want := u16_of_lt (by omega)
  rw [hused, hlen]
  refine ⟨.grown want hwant hshort ?_ ?_ ?_, ?_, ?_, ?_, ?_⟩
  · simp only [modifyFile_files, if_true]
    rfl
  · simp only [modifyFile_files, if_true]
  · unfold sliceOctets
    simp only [modifyFile_files, if_true]
    obtain ⟨grow, rfl⟩ := Nat.exists_eq_add_of_lt hshort
    have hgrow : (c.files i).dataLen + grow + 1 - (c.files i).dataLen = grow + 1 := by omega
    rw [hgrow, Nat.add_assoc, Mem.read_add, hlast, Mem.read_fill_self,
      Mem.read_fill_of_disjoint (.inl hlast.le)]
  · intro j hj hji
    refine ⟨⟨?_, ?_⟩, ?_⟩
    · simp only [modifyFile_files, if_neg hji]
    · simp only [modifyFile_files, if_neg hji]
      by_cases hzero : (c.files j).dataLen = 0
      · rw [hzero, Mem.read_zero_length, Mem.read_zero_length]
      · exact Mem.read_fill_of_disjoint (.inl (h.slice hj hzero).1)
    · simp only [modifyFile_files, if_neg hji]
  · rw [lengthAfter_some hwant, if_pos ⟨hshort, hscratch, hmax, by omega⟩]
    simp only [modifyFile_files, if_true]
  · simp only [modifyFile_files, if_true]
    omega
  · refine iff_of_true rfl ?_
    simp only [modifyFile_files, if_true]
    exact fileComplete_of hwant rfl rfl le_rfl

/-- A file is cut anew and its old octets are copied back. -/
theorem FilePoolInv.turn_resize (h : FilePoolInv z c) (hi : i < c.numFiles)
    (hwant : dfcFileWantedLength sizeMax (c.files i) = some want)
    (hshort : (c.files i).dataLen < want) (hscratch : (c.files i).dataLen ≤ scratchLen)
    (hresize : dfcFileResize c i want = (c', true)) :
    MaterializeTurn sizeMax c (DfcCredential.modifyFile
      { c' with filePool := c'.filePool.write (c'.files i).dataOffset (sliceOctets c i) }
      i (fun file => { file with contentsComplete := true }), true) scratchLen i := by
  obtain ⟨hrecord, hslice, hused, hmax, hroom⟩ := h.resize_self hi hshort hresize
  have hc : (dfcFileResize c i want).1 = c' := congrArg Prod.fst hresize
  have hinv : FilePoolInv z c' := hc ▸ h.resize hi want
  have hnum : c'.numFiles = c.numFiles := hc ▸ dfcFileResize_numFiles c i want
  have hlen : (c'.files i).dataLen = want := dfcFileResize_dataLen hresize
  have happ (j : ℕ) : (c'.files j).appIndex = (c.files j).appIndex :=
    hc ▸ fileResize_appIndex c i want j
  have hknown : (sliceOctets c i).length = (c.files i).dataLen := Mem.length_read _ _ _
  obtain ⟨grow, hgrow⟩ := Nat.exists_eq_add_of_le hshort.le
  refine ⟨.grown want hwant hshort ?_ ?_ ?_, ?_, ?_, ?_, ?_⟩
  · simp only [modifyFile_files, if_true]
    exact congrArg (fun file => { file with contentsComplete := true }) hrecord
  · simp only [modifyFile_files, if_true]
    exact happ i
  · have hzeros : c'.filePool.read ((c'.files i).dataOffset + (c.files i).dataLen) grow =
        List.replicate grow 0 := by
      unfold sliceOctets at hslice
      rw [hlen, hgrow, Mem.read_add, List.replicate_add] at hslice
      exact (List.append_inj hslice (by simp)).2
    have hrest : want - (c.files i).dataLen = grow := by omega
    have hread : (c'.filePool.write (c'.files i).dataOffset (sliceOctets c i)).read
        (c'.files i).dataOffset (c'.files i).dataLen =
        sliceOctets c i ++ List.replicate grow 0 := by
      rw [hlen, hgrow, Mem.read_add, Mem.read_write_self' hknown,
        Mem.read_write_of_disjoint (.inr (by omega)), hzeros]
    rw [hrest]
    exact (sliceOctets_modifyFile _ rfl rfl).trans hread
  · intro j hj hji
    have hresized : FileKept c c' j := ⟨hc ▸ h.sameFile_resize hi hj hji want, happ j⟩
    have hwritten := hinv.fileKept_write (hnum ▸ hi) (hnum ▸ hj) hji
      (show (sliceOctets c i).length < _ by omega)
    refine (hresized.trans hwritten).trans ?_
    exact fileKept_modifyFile (fun file => { file with contentsComplete := true }) hji
  · rw [lengthAfter_some hwant, if_pos ⟨hshort, hscratch, hmax, hroom⟩]
    simp only [modifyFile_files, if_true]
    exact hlen
  · simp only [modifyFile_files, if_true]
    rw [hlen]
    exact hused
  · refine iff_of_true rfl ?_
    simp only [modifyFile_files, if_true]
    have htype := congrArg DfcFile.type hrecord
    have hstate := congrArg DfcFile.state hrecord
    exact fileComplete_of hwant htype hstate hlen.ge

/-- Every turn of the loop. -/
theorem FilePoolInv.materializeTurn (h : FilePoolInv z c) (hi : i < c.numFiles) :
    MaterializeTurn sizeMax c (dfcCredentialMaterializeFile c sizeMax scratchLen i)
      scratchLen i := by
  have hfit : (c.files i).dataLen ≤ c.filePoolUsed := h.packed.le_used (Finset.mem_range.mpr hi)
  unfold dfcCredentialMaterializeFile
  dsimp only
  cases hwant : dfcFileWantedLength sizeMax (c.files i) with
  | none =>
    refine ⟨.other hwant (.refl c i), fun j _ _ => .refl c j, ?_, ?_, iff_of_true rfl ?_⟩
    · rw [lengthAfter, hwant]
    · exact (Nat.sub_add_cancel hfit).symm
    · intro want hsome
      rw [hwant] at hsome
      cases hsome
  | some want =>
    dsimp only
    by_cases hlong : want ≤ (c.files i).dataLen
    · rw [if_pos hlong]
      refine ⟨.long want hwant hlong ?_ ?_ ?_, ?_, ?_, ?_, iff_of_true rfl ?_⟩
      · simp only [modifyFile_files, if_true]
        rfl
      · simp only [modifyFile_files, if_true]
      · exact sliceOctets_modifyFile _ rfl rfl
      · intro j _ hji
        exact fileKept_modifyFile (fun file => { file with contentsComplete := true }) hji
      · rw [lengthAfter_some hwant, if_neg fun hgrows => absurd hgrows.1 (not_lt.mpr hlong)]
        simp only [modifyFile_files, if_true]
      · simp only [modifyFile_files, if_true]
        exact (Nat.sub_add_cancel hfit).symm
      · simp only [modifyFile_files, if_true]
        exact fileComplete_of hwant rfl rfl hlong
    have hshort : (c.files i).dataLen < want := Nat.lt_of_not_le hlong
    rw [if_neg hlong]
    by_cases hscratch : scratchLen < (c.files i).dataLen
    · rw [if_pos hscratch]
      exact .refused hfit hwant hshort (.inl hscratch)
    rw [if_neg hscratch]
    split_ifs with hgrow
    · obtain ⟨-, -, hlast, hmax, hroom⟩ := hgrow
      exact h.turn_grow hwant hshort (not_lt.mp hscratch) hlast hmax hroom
    · cases hresize : dfcFileResize c i want with
      | mk c' ok =>
        cases ok with
        | false =>
          obtain ⟨rfl, hwhy⟩ := h.resize_refused hi hshort hresize
          exact .refused hfit hwant hshort (.inr hwhy)
        | true =>
          have hturn : MaterializeTurn sizeMax c _ scratchLen i :=
            h.turn_resize hi hwant hshort (not_lt.mp hscratch) hresize
          have hc : (dfcFileResize c i want).1 = c' := congrArg Prod.fst hresize
          have hinv : FilePoolInv z c' := hc ▸ h.resize hi want
          have hnum : c'.numFiles = c.numFiles := hc ▸ dfcFileResize_numFiles c i want
          have hlen : (c'.files i).dataLen = want := dfcFileResize_dataLen hresize
          have hdst := hinv.fileData_eq (hnum ▸ hi)
          rw [if_neg (by omega)] at hdst
          simp only [hdst, h.fileData_eq hi]
          -- An empty file has nothing to park.
          by_cases hempty : (c.files i).dataLen = 0
          · have hslice : sliceOctets c i = [] := by
              unfold sliceOctets
              rw [hempty, Mem.read_zero_length]
            simp only [if_pos hempty]
            rwa [hslice] at hturn
          · simp only [if_neg hempty]
            exact hturn

section Loop
variable {a b : DfcCredential} {ok : Bool}

theorem FileKept.type_eq (h : FileKept a b i) : (b.files i).type = (a.files i).type :=
  show (b.files i).unplaced.type = (a.files i).unplaced.type by rw [h.record]

theorem FileKept.state_eq (h : FileKept a b i) : (b.files i).state = (a.files i).state :=
  show (b.files i).unplaced.state = (a.files i).unplaced.state by rw [h.record]

theorem FileKept.wantedLength (h : FileKept a b i) :
    dfcFileWantedLength sizeMax (b.files i) = dfcFileWantedLength sizeMax (a.files i) :=
  dfcFileWantedLength_congr h.type_eq h.state_eq

theorem FileKept.lengthAfter (h : FileKept a b i) (used : ℕ) :
    lengthAfter (dfcFileWantedLength sizeMax) scratchLen used (b.files i) =
      lengthAfter (dfcFileWantedLength sizeMax) scratchLen used (a.files i) := by
  unfold DfcCore.lengthAfter
  rw [h.wantedLength, h.dataLen]

theorem FileKept.complete (h : FileKept a b i) :
    FileComplete (dfcFileWantedLength sizeMax) (b.files i) ↔
      FileComplete (dfcFileWantedLength sizeMax) (a.files i) := by
  unfold FileComplete
  rw [h.wantedLength, h.dataLen]

/-- Later turns leave the file alone. -/
theorem Materialized.kept (h : Materialized wanted a b scratchLen i) (hkept : FileKept b c i)
    (hused : b.filePoolUsed ≤ c.filePoolUsed) : Materialized wanted a c scratchLen i := by
  cases h with
  | other hwant kept => exact .other hwant (kept.trans hkept)
  | long want hwant hlong record appIndex slice =>
    exact .long want hwant hlong (hkept.record.trans record) (hkept.appIndex.trans appIndex)
      (hkept.slice.trans slice)
  | short want hwant hshort why kept =>
    refine .short want hwant hshort ?_ (kept.trans hkept)
    obtain hscratch | hmax | hroom := why
    · exact .inl hscratch
    · exact .inr (.inl hmax)
    · exact .inr (.inr (by omega))
  | grown want hwant hshort record appIndex slice =>
    exact .grown want hwant hshort (hkept.record.trans record) (hkept.appIndex.trans appIndex)
      (hkept.slice.trans slice)

/-- Earlier turns left the file alone. -/
theorem FileKept.materialized (h : FileKept a b i)
    (hturn : Materialized (dfcFileWantedLength sizeMax) b c scratchLen i) :
    Materialized (dfcFileWantedLength sizeMax) a c scratchLen i := by
  have hslice : sliceOctets b i = sliceOctets a i := h.slice
  have hrecord := h.record
  cases hturn with
  | other hwant kept => exact .other (h.wantedLength ▸ hwant) (h.trans kept)
  | long want hwant hlong record appIndex slice =>
    rw [h.wantedLength] at hwant
    rw [h.dataLen] at hlong
    rw [hrecord] at record
    exact .long want hwant hlong record (appIndex.trans h.appIndex) (slice.trans hslice)
  | short want hwant hshort why kept =>
    rw [h.wantedLength] at hwant
    rw [h.dataLen] at hshort why
    exact .short want hwant hshort why (h.trans kept)
  | grown want hwant hshort record appIndex slice =>
    rw [h.wantedLength] at hwant
    rw [hrecord] at record
    rw [h.dataLen, hslice] at slice
    rw [h.dataLen] at hshort
    exact .grown want hwant hshort record (appIndex.trans h.appIndex) slice

/-- The pool is as full after the turn of a file, and of others behind it, as it is after all of
them. -/
theorem usedAfter_cons (hturn : MaterializeTurn sizeMax a (b, ok) scratchLen i) {files : List ℕ}
    (hkept : ∀ j ∈ files, FileKept a b j) :
    usedAfter (dfcFileWantedLength sizeMax) a scratchLen (i :: files) =
      usedAfter (dfcFileWantedLength sizeMax) b scratchLen files := by
  have hused : a.filePoolUsed - (a.files i).dataLen +
      lengthAfter (dfcFileWantedLength sizeMax) scratchLen a.filePoolUsed (a.files i) =
        b.filePoolUsed := by
    rw [← hturn.length]
    exact hturn.used.symm
  unfold usedAfter
  rw [List.foldl_cons, hused]
  generalize b.filePoolUsed = used
  induction files generalizing used with
  | nil => rfl
  | cons j files ih =>
    have hj := hkept j List.mem_cons_self
    rw [List.foldl_cons, List.foldl_cons, hj.lengthAfter, hj.dataLen]
    exact ih (fun k hk => hkept k (List.mem_cons_of_mem _ hk)) _

/-- What the turns over `files` do: the files named there are completed as far as possible, the
rest stay as they are. -/
structure MaterializeLoop (sizeMax : ℕ) (c : DfcCredential) (ok : Bool) (r : DfcCredential × Bool)
    (scratchLen : ℕ) (files : List ℕ) : Prop where
  visited : ∀ i ∈ files, Materialized (dfcFileWantedLength sizeMax) c r.1 scratchLen i
  others : ∀ j < c.numFiles, j ∉ files → FileKept c r.1 j
  lengths : ∀ before i after, files = before ++ i :: after → (r.1.files i).dataLen =
    lengthAfter (dfcFileWantedLength sizeMax) scratchLen
      (usedAfter (dfcFileWantedLength sizeMax) c scratchLen before) (c.files i)
  used : c.filePoolUsed ≤ r.1.filePoolUsed
  numFiles : r.1.numFiles = c.numFiles
  result : r.2 = true ↔
    ok = true ∧ ∀ i ∈ files, FileComplete (dfcFileWantedLength sizeMax) (r.1.files i)

theorem FilePoolInv.materializeLoop (h : FilePoolInv z c) (ok : Bool) {files : List ℕ}
    (hfiles : ∀ i ∈ files, i < c.numFiles) (hnodup : files.Nodup) :
    MaterializeLoop sizeMax c ok (files.foldl (fun (acc : DfcCredential × Bool) i =>
      let (c, ok) := dfcCredentialMaterializeFile acc.1 sizeMax scratchLen i
      (c, acc.2 && ok)) (c, ok)) scratchLen files := by
  induction files generalizing c ok with
  | nil =>
    refine ⟨?_, fun j _ _ => .refl c j, ?_, le_rfl, rfl, ?_⟩
    · intro i hi
      cases hi
    · intro before i after hsplit
      simp at hsplit
    · simp
  | cons i files ih =>
    have hi : i < c.numFiles := hfiles i List.mem_cons_self
    have hturn : MaterializeTurn sizeMax c _ scratchLen i := h.materializeTurn hi
    have hinv := h.materializeFile hi sizeMax scratchLen
    have hnum := materializeFile_numFiles c sizeMax scratchLen i
    obtain ⟨hnotin, hnodup⟩ := List.nodup_cons.1 hnodup
    rw [List.foldl_cons]
    dsimp only
    generalize dfcCredentialMaterializeFile c sizeMax scratchLen i = t at hturn hinv hnum
    have hrest := ih hinv (ok && t.2)
      (fun j hj => hnum ▸ hfiles j (List.mem_cons_of_mem _ hj)) hnodup
    have hkept : FileKept t.1 _ i := hrest.others i (hnum ▸ hi) hnotin
    have hbefore (j : ℕ) (hj : j ∈ files) : FileKept c t.1 j :=
      hturn.others j (hfiles j (List.mem_cons_of_mem _ hj)) fun heq => hnotin (heq ▸ hj)
    have hused : c.filePoolUsed ≤ t.1.filePoolUsed := by
      have hlonger := lengthAfter_ge (dfcFileWantedLength sizeMax) scratchLen c.filePoolUsed
        (c.files i)
      rw [hturn.used, hturn.length]
      omega
    constructor
    · intro j hj
      obtain rfl | hj := List.mem_cons.1 hj
      · exact hturn.self.kept hkept hrest.used
      · exact (hbefore j hj).materialized (hrest.visited j hj)
    · intro j hj hnot
      obtain ⟨hji, hnot⟩ := not_or.1 (mt List.mem_cons.2 hnot)
      exact (hturn.others j hj hji).trans (hrest.others j (hnum ▸ hj) hnot)
    · intro before j after hsplit
      cases before with
      | nil =>
        obtain ⟨rfl, rfl⟩ := List.cons.inj hsplit
        exact hkept.dataLen.trans hturn.length
      | cons k before =>
        obtain ⟨rfl, htail⟩ := List.cons.inj hsplit
        replace htail : files = before ++ j :: after := htail
        have hin (k : ℕ) (hk : k ∈ before) : k ∈ files := by
          rw [htail]
          exact List.mem_append_left _ hk
        have hj : j ∈ files := by
          rw [htail]
          simp
        rw [hrest.lengths before j after htail, (hbefore j hj).lengthAfter,
          usedAfter_cons hturn fun k hk => hbefore k (hin k hk)]
    · exact hused.trans hrest.used
    · exact hrest.numFiles.trans hnum
    · rw [hrest.result, Bool.and_eq_true, hturn.result, ← hkept.complete, List.forall_mem_cons,
        and_assoc]

end Loop

/-- The flag is raised where the wanted length is reached, and nowhere else. -/
theorem Materialized.contentsComplete (h : Materialized wanted c c' scratchLen i)
    (hwant : wanted (c.files i) = some want) :
    (c'.files i).contentsComplete =
      ((c.files i).contentsComplete || decide (want ≤ (c'.files i).dataLen)) := by
  cases h with
  | other hnone kept =>
    rw [hwant] at hnone
    cases hnone
  | long want' hwant' hlong record =>
    obtain rfl : want = want' := Option.some.inj (hwant.symm.trans hwant')
    have hflag : (c'.files i).contentsComplete = true :=
      show (c'.files i).unplaced.contentsComplete = true by rw [record]
    have hlen : (c'.files i).dataLen = (c.files i).dataLen :=
      show (c'.files i).unplaced.dataLen = (c.files i).dataLen by rw [record]; rfl
    rw [hflag, hlen, decide_eq_true hlong, Bool.or_true]
  | short want' hwant' hshort why kept =>
    obtain rfl : want = want' := Option.some.inj (hwant.symm.trans hwant')
    have hflag : (c'.files i).unplaced.contentsComplete = (c.files i).contentsComplete := by
      rw [kept.record]
      rfl
    rw [kept.dataLen, decide_eq_false (Nat.not_le_of_lt hshort), Bool.or_false]
    exact hflag
  | grown want' hwant' hshort record =>
    obtain rfl : want = want' := Option.some.inj (hwant.symm.trans hwant')
    have hflag : (c'.files i).contentsComplete = true :=
      show (c'.files i).unplaced.contentsComplete = true by rw [record]
    have hlen : (c'.files i).dataLen = want :=
      show (c'.files i).unplaced.dataLen = want by rw [record]
    rw [hflag, hlen, decide_eq_true le_rfl, Bool.or_true]

/-- Only what is wanted of the file itself matters. -/
theorem Materialized.congr {wanted' : DfcFile → Option ℕ}
    (h : Materialized wanted c c' scratchLen i)
    (heq : wanted' (c.files i) = wanted (c.files i)) : Materialized wanted' c c' scratchLen i := by
  cases h with
  | other hwant kept => exact .other (heq.trans hwant) kept
  | long want hwant hlong record appIndex slice =>
    exact .long want (heq.trans hwant) hlong record appIndex slice
  | short want hwant hshort why kept => exact .short want (heq.trans hwant) hshort why kept
  | grown want hwant hshort record appIndex slice =>
    exact .grown want (heq.trans hwant) hshort record appIndex slice

theorem Materialized.sameRecord (h : Materialized wanted c c' scratchLen i) :
    (c'.files i).type = (c.files i).type ∧ (c'.files i).state = (c.files i).state ∧
      (c'.files i).transactionPending = (c.files i).transactionPending := by
  have hrecord {file : DfcFile} (hfile : (c'.files i).unplaced = file) :
      (c'.files i).type = file.type ∧ (c'.files i).state = file.state ∧
        (c'.files i).transactionPending = file.transactionPending := by
    rw [← hfile]
    exact ⟨rfl, rfl, rfl⟩
  cases h with
  | other _ kept =>
    obtain ⟨htype, hstate, hpending⟩ := hrecord kept.record
    exact ⟨htype, hstate, hpending⟩
  | long _ _ _ record =>
    obtain ⟨htype, hstate, hpending⟩ := hrecord record
    exact ⟨htype, hstate, hpending⟩
  | short _ _ _ _ kept =>
    obtain ⟨htype, hstate, hpending⟩ := hrecord kept.record
    exact ⟨htype, hstate, hpending⟩
  | grown _ _ _ record =>
    obtain ⟨htype, hstate, hpending⟩ := hrecord record
    exact ⟨htype, hstate, hpending⟩

/-- The contents are completed as far as there is room, and nothing else is disturbed: file by
file the outcome is one of `Materialized`, every field of the credential but the files and their
pool is as it was, and the answer says whether all files are complete. -/
structure Completed (z : Prop) (wanted : DfcFile → Option ℕ) (c : DfcCredential)
    (r : DfcCredential × Bool) (scratchLen : ℕ) : Prop where
  pools : PoolInv z r.1.numApps r.1
  frame : FileFrame c r.1
  numFiles : r.1.numFiles = c.numFiles
  files : ∀ i < c.numFiles, Materialized wanted c r.1 scratchLen i
  flags : ∀ i < c.numFiles, ∀ want, wanted (c.files i) = some want →
    (r.1.files i).contentsComplete =
      ((c.files i).contentsComplete || decide (want ≤ (r.1.files i).dataLen))
  answer : r.2 = true ↔ ∀ i < c.numFiles, FileComplete wanted (r.1.files i)

/-- Whatever `size_t` holds, the contents are completed to the lengths that are computed. -/
theorem materializeContents_computed (h : PoolInv z c.numApps c) (sizeMax scratchLen : ℕ) :
    let r := dfcCredentialMaterializeContents c sizeMax scratchLen
    Completed z (dfcFileWantedLength sizeMax) c r scratchLen ∧
      ∀ i < c.numFiles, (r.1.files i).dataLen =
        lengthAfter (dfcFileWantedLength sizeMax) scratchLen
          (usedAfter (dfcFileWantedLength sizeMax) c scratchLen (List.range i)) (c.files i) := by
  intro r
  have hloop : MaterializeLoop sizeMax c true r scratchLen (List.range c.numFiles) :=
    h.files.materializeLoop true (fun i hi => List.mem_range.1 hi) List.nodup_range
  have hinv := h.materializeContents sizeMax scratchLen
  have hvisited : ∀ i < c.numFiles,
      Materialized (dfcFileWantedLength sizeMax) c r.1 scratchLen i :=
    fun i hi => hloop.visited i (List.mem_range.2 hi)
  refine ⟨⟨?_, fileFrame_materializeContents c sizeMax scratchLen, hloop.numFiles, hvisited,
    fun i hi _ hwant => (hvisited i hi).contentsComplete hwant, ?_⟩, fun i hi => ?_⟩
  · rw [hinv.2]
    exact hinv.1
  · rw [hloop.result]
    simp only [true_and, List.mem_range]
  · obtain ⟨k, hk⟩ := Nat.exists_eq_add_of_lt hi
    refine hloop.lengths (List.range i) i ((List.range k).map (i + 1 + ·)) ?_
    rw [hk, Nat.add_assoc, Nat.add_comm k 1, ← Nat.add_assoc, List.range_add, List.range_succ,
      List.append_assoc, List.singleton_append]

/-- A file of a valid card that is called complete holds what it declares. -/
theorem declaredLength_le_of_modelCheck (hcheck : modelCheck c = .ok ()) (hi : i < c.numFiles)
    (hflag : (c.files i).contentsComplete = true)
    (hwant : declaredLength (c.files i) = some want) : want ≤ (c.files i).dataLen := by
  have hfile := modelFileCheck_of_modelCheck hcheck hi
  unfold modelFileCheck at hfile
  simp only [bind_eq_ok, refuseIf_eq_ok, exists_const] at hfile
  obtain ⟨-, -, -, -, -, -, -, _, hcontents, -⟩ := hfile
  unfold modelContentsCheck at hcontents
  unfold declaredLength at hwant
  split_ifs at hwant with hdata hrecord
  · have hkind : dfcFileTypeIsData (c.files i).type = true := hdata
    rw [if_pos hkind] at hcontents
    unfold modelDataCheck dfcFileGetDeclaredSize at hcontents
    simp only [hkind, Bool.not_true, Bool.false_eq_true, if_false, bind_eq_ok, orFail_eq_ok,
      refuseIf_eq_ok, exists_const, not_and, not_not, Option.some.injEq,
      exists_eq_left'] at hcontents
    rw [← Option.some.inj hwant, hcontents.2.2 hflag]
  · have hkind : dfcFileTypeIsData (c.files i).type = false := Bool.not_eq_true _ ▸ hdata
    have hother : (c.files i).type ≠ dfcFileTypeValue ∧
        (c.files i).type ≠ dfcFileTypeTransactionMac := by
      simp only [Bool.or_eq_true, beq_iff_eq] at hrecord
      obtain htype | htype := hrecord <;> rw [htype] <;> decide
    rw [if_neg (Bool.not_eq_true _ ▸ hkind), if_neg hother.1, if_neg hother.2] at hcontents
    unfold modelRecordCheck at hcontents
    simp only [bind_eq_ok, refuseIf_eq_ok, exists_const, not_and, not_not, not_lt] at hcontents
    obtain ⟨-, -, hmax, -, -, hstored, -⟩ := hcontents
    have hcount : (c.files i).state.record.count ≤
        (c.files i).dataLen / (c.files i).state.record.size := by
      by_cases hexact :
          (c.files i).dataLen / (c.files i).state.record.size = (c.files i).state.record.count
      · exact hexact.ge
      · exact hmax.trans_eq (hstored hflag hexact).symm
    calc want = (c.files i).state.record.count * (c.files i).state.record.size :=
          (Option.some.inj hwant).symm
      _ ≤ (c.files i).dataLen / (c.files i).state.record.size *
          (c.files i).state.record.size := Nat.mul_le_mul_right _ hcount
      _ ≤ (c.files i).dataLen := Nat.div_mul_le_self _ _

theorem FilePoolInv.dataLen_le (h : FilePoolInv z c) (hi : i < c.numFiles) :
    (c.files i).dataLen ≤ dfcFilePoolSize := by
  by_cases hlen : (c.files i).dataLen = 0
  · omega
  · have hfit := h.fit
    have hend := (h.slice hi hlen).1
    omega

/-- The octets a file declares are computed as they are. -/
def Counted (sizeMax : ℕ) (file : DfcFile) : Prop :=
  ∀ want, declaredLength file = some want → want ≤ sizeMax

/-- What is left of a declared length that does not fit `size_t` is more than the file holds, and
there is no room to grow it that far. -/
def LeftShort (sizeMax scratchLen : ℕ) (c : DfcCredential) (i : ℕ) : Prop :=
  ∃ want, dfcFileWantedLength sizeMax (c.files i) = some want ∧ (c.files i).dataLen < want ∧
    ¬Grows scratchLen (usedAfter (dfcFileWantedLength sizeMax) c scratchLen (List.range i))
      (c.files i).dataLen want

theorem Counted.wantedLength {file : DfcFile} (h : Counted sizeMax file) :
    dfcFileWantedLength sizeMax file = declaredLength file := by
  rw [wantedLength_eq]
  cases hwant : declaredLength file with
  | none => rfl
  | some want => exact congrArg some (Nat.mod_eq_of_lt (Nat.lt_succ_of_le (h want hwant)))

theorem Materialized.declaredLength_eq (h : Materialized wanted c c' scratchLen i) :
    declaredLength (c'.files i) = declaredLength (c.files i) := by
  obtain ⟨htype, hstate, -⟩ := h.sameRecord
  unfold declaredLength
  rw [htype, hstate]

section Wrapped
variable {r : DfcCredential × Bool}

theorem leftShort_iff (hwant : dfcFileWantedLength sizeMax (c.files i) = some want)
    (hlength : (r.1.files i).dataLen = lengthAfter (dfcFileWantedLength sizeMax) scratchLen
      (usedAfter (dfcFileWantedLength sizeMax) c scratchLen (List.range i)) (c.files i)) :
    LeftShort sizeMax scratchLen c i ↔ (r.1.files i).dataLen < want := by
  rw [hlength, lengthAfter_some hwant]
  constructor
  · rintro ⟨want', hwant', hshort, hstays⟩
    obtain rfl : want = want' := Option.some.inj (hwant.symm.trans hwant')
    rwa [if_neg hstays]
  · intro hless
    split_ifs at hless with hgrows
    · exact absurd hless (lt_irrefl _)
    · exact ⟨want, hwant, hless, hgrows⟩

/-- The outcome of a file whose declared length is computed as it is. -/
theorem Counted.outcome (hcounted : Counted sizeMax (c.files i))
    (h : Materialized (dfcFileWantedLength sizeMax) c c' scratchLen i) :
    Materialized declaredLength c c' scratchLen i ∧
      (FileComplete (dfcFileWantedLength sizeMax) (c'.files i) ↔
        FileComplete declaredLength (c'.files i)) := by
  refine ⟨h.congr hcounted.wantedLength.symm, ?_⟩
  have hcounted' : Counted sizeMax (c'.files i) := by
    unfold Counted
    rw [h.declaredLength_eq]
    exact hcounted
  unfold FileComplete
  rw [hcounted'.wantedLength]

/-- A file that stays short of what is left of its declared length is short of that length,
too. -/
theorem Materialized.of_short (h : Materialized (dfcFileWantedLength sizeMax) c c' scratchLen i)
    (hsize : dfcFilePoolSize ≤ sizeMax) (hdeclared : declaredLength (c.files i) = some want)
    (hover : sizeMax < want) (hless : (c'.files i).dataLen < want % (sizeMax + 1)) :
    Materialized declaredLength c c' scratchLen i ∧
      (FileComplete (dfcFileWantedLength sizeMax) (c'.files i) ↔
        FileComplete declaredLength (c'.files i)) := by
  have hcomputed : dfcFileWantedLength sizeMax (c.files i) = some (want % (sizeMax + 1)) := by
    rw [wantedLength_eq, hdeclared]
    rfl
  have hle : want % (sizeMax + 1) ≤ want := Nat.mod_le _ _
  have hdeclared' : declaredLength (c'.files i) = some want :=
    h.declaredLength_eq.trans hdeclared
  have hcomputed' : dfcFileWantedLength sizeMax (c'.files i) = some (want % (sizeMax + 1)) := by
    rw [wantedLength_eq, hdeclared']
    rfl
  refine ⟨?_, ?_⟩
  · cases h with
    | other hnone => exact absurd (hnone.symm.trans hcomputed) (by simp)
    | long left hleft hlong record =>
      obtain rfl : left = want % (sizeMax + 1) := Option.some.inj (hleft.symm.trans hcomputed)
      have hlen : (c'.files i).dataLen = (c.files i).dataLen :=
        show (c'.files i).unplaced.dataLen = (c.files i).dataLen by rw [record]; rfl
      omega
    | short left hleft hshort why kept =>
      obtain rfl : left = want % (sizeMax + 1) := Option.some.inj (hleft.symm.trans hcomputed)
      have hmax : dfcMaxFileData < want := by
        have hsizes : dfcMaxFileData = 2048 ∧ dfcFilePoolSize = 8192 := ⟨rfl, rfl⟩
        omega
      exact .short want hdeclared (hshort.trans_le hle) (.inr (.inl hmax)) kept
    | grown left hleft hshort record =>
      obtain rfl : left = want % (sizeMax + 1) := Option.some.inj (hleft.symm.trans hcomputed)
      have hlen : (c'.files i).dataLen = want % (sizeMax + 1) :=
        show (c'.files i).unplaced.dataLen = want % (sizeMax + 1) by rw [record]
      omega
  · rw [fileComplete_iff hcomputed', fileComplete_iff hdeclared']
    omega

/-- Where every file has an outcome of its own kind, the whole loop has. -/
theorem Completed.declared (h : Completed z (dfcFileWantedLength sizeMax) c r scratchLen)
    (hfiles : ∀ i < c.numFiles, Materialized declaredLength c r.1 scratchLen i ∧
      (FileComplete (dfcFileWantedLength sizeMax) (r.1.files i) ↔
        FileComplete declaredLength (r.1.files i))) :
    Completed z declaredLength c r scratchLen where
  pools := h.pools
  frame := h.frame
  numFiles := h.numFiles
  files i hi := (hfiles i hi).1
  flags i hi _ hwant := (hfiles i hi).1.contentsComplete hwant
  answer := by
    rw [h.answer]
    exact forall₂_congr fun i hi => (hfiles i hi).2

/-- A file whose declared length does not fit is completed wrongly unless it stays short of what
is left of that length. -/
theorem Completed.leftShort (hcheck : modelCheck c = .ok ()) (hsize : dfcFilePoolSize ≤ sizeMax)
    (h : Completed z (dfcFileWantedLength sizeMax) c r scratchLen)
    (hlength : (r.1.files i).dataLen = lengthAfter (dfcFileWantedLength sizeMax) scratchLen
      (usedAfter (dfcFileWantedLength sizeMax) c scratchLen (List.range i)) (c.files i))
    (hi : i < c.numFiles) (hdeclared : declaredLength (c.files i) = some want)
    (hover : sizeMax < want) (hp : Completed z declaredLength c r scratchLen) :
    LeftShort sizeMax scratchLen c i := by
  have hcomputed : dfcFileWantedLength sizeMax (c.files i) = some (want % (sizeMax + 1)) := by
    rw [wantedLength_eq, hdeclared]
    rfl
  rw [leftShort_iff hcomputed hlength]
  by_contra hlong
  have hstored : (r.1.files i).dataLen ≤ dfcFilePoolSize :=
    h.pools.files.dataLen_le (h.numFiles ▸ hi)
  have hold : (c.files i).dataLen ≤ (r.1.files i).dataLen := by
    rw [hlength]
    exact lengthAfter_ge _ _ _ _
  -- The flag is raised, but not for a length the pool could hold: it stood before.
  have hraised := h.flags i hi _ hcomputed
  rw [decide_eq_true (Nat.le_of_not_lt hlong), Bool.or_true] at hraised
  have hflag := hp.flags i hi want hdeclared
  rw [hraised, decide_eq_false (by omega), Bool.or_false] at hflag
  have hfull := declaredLength_le_of_modelCheck hcheck hi hflag.symm hdeclared
  omega

end Wrapped

/-- `dfc_credential_materialize_contents` completes what it can and disturbs nothing else where
every declared length fits `size_t`. On a valid card it does so for another length only where the
file stays short of what is left of that length. -/
theorem materializeContents_completes (h : PoolInv z c.numApps c)
    (hsize : dfcFilePoolSize ≤ sizeMax) (scratchLen : ℕ) :
    let r := dfcCredentialMaterializeContents c sizeMax scratchLen
    ((∀ i < c.numFiles, Counted sizeMax (c.files i)) →
        Completed z declaredLength c r scratchLen) ∧
      (modelCheck c = .ok () → (Completed z declaredLength c r scratchLen ↔
        ∀ i < c.numFiles, Counted sizeMax (c.files i) ∨ LeftShort sizeMax scratchLen c i)) := by
  intro r
  obtain ⟨hcomputed, hlengths⟩ := materializeContents_computed h sizeMax scratchLen
  refine ⟨fun hcounted => hcomputed.declared fun i hi =>
    (hcounted i hi).outcome (hcomputed.files i hi), fun hcheck => ⟨fun hp i hi => ?_, fun hkinds =>
    hcomputed.declared fun i hi => ?_⟩⟩
  · by_cases hcounted : Counted sizeMax (c.files i)
    · exact .inl hcounted
    · unfold Counted at hcounted
      push Not at hcounted
      obtain ⟨want, hdeclared, hover⟩ := hcounted
      exact .inr (hcomputed.leftShort hcheck hsize (hlengths i hi) hi hdeclared hover hp)
  · by_cases hcounted : Counted sizeMax (c.files i)
    · exact hcounted.outcome (hcomputed.files i hi)
    · have hleft := (hkinds i hi).resolve_left hcounted
      unfold Counted at hcounted
      push Not at hcounted
      obtain ⟨want, hdeclared, hover⟩ := hcounted
      have hwant : dfcFileWantedLength sizeMax (c.files i) = some (want % (sizeMax + 1)) := by
        rw [wantedLength_eq, hdeclared]
        rfl
      exact (hcomputed.files i hi).of_short hsize hdeclared hover
        ((leftShort_iff hwant (hlengths i hi)).1 hleft)

/-- Two files, the first of which has one of its two records of four octets: it is moved behind
the second, which keeps its octets. -/
theorem materializeContents_completes_twoFiles :
    let c := poolRun [.createApplication (fun _ => 1) 0x0F 0x01, .createFile 0 1, .createFile 0 2,
      .fileResize 0 4, .fileResize 1 8,
      .describeFile 0 dfcFileTypeLinearRecord
        { record := { size := 4, maxRecords := 3, count := 2 } },
      .describeFile 1 dfcFileTypeStandardData { data := { declaredSize := 8 } }]
    let r := dfcCredentialMaterializeContents c (2 ^ 64 - 1) 8
    Completed True declaredLength c r 8 ∧ (r.1.files 0).dataOffset = 8 ∧
      (r.1.files 0).dataLen = 8 ∧ r.2 = true := by
  intro c r
  have hspec := materializeContents_completes (poolRun_inv _ : PoolInv True c.numApps c)
    (by decide : dfcFilePoolSize ≤ 2 ^ 64 - 1) 8
  have hcounted : ∀ i < c.numFiles, ∀ want ∈ declaredLength (c.files i), want ≤ 2 ^ 64 - 1 := by
    decide +kernel
  exact ⟨hspec.1 hcounted, by decide +kernel⟩

/-- A card with an identifier of seven octets. -/
def named (c : DfcCredential) : DfcCredential := { c with uidLen := 7 }

theorem PoolInv.named (h : PoolInv z c.numApps c) :
    PoolInv z (DfcCore.named c).numApps (DfcCore.named c) :=
  h.samePools ⟨rfl, rfl, ⟨rfl, rfl⟩, rfl, rfl⟩
    (h.files.frame rfl rfl (fun _ _ _ => rfl) (fun _ => rfl) fun _ => rfl)

/-- A valid card whose only file declares as many records of `65536` octets, all of them in use. -/
def overdeclaredCard : DfcCredential :=
  named (poolRun [.createApplication (fun _ => 1) 0x0F 0x01, .createFile 0 1,
    .describeFile 0 dfcFileTypeLinearRecord
      { record := { size := 65536, maxRecords := 65536, count := 65536 } }])

theorem poolInv_overdeclaredCard : PoolInv True overdeclaredCard.numApps overdeclaredCard := by
  unfold overdeclaredCard
  exact (poolRun_inv _).named

/-- In a `size_t` of 32 bits nothing is left of the declared length: the file is called complete,
and the answer says that all files are, with no octet stored. -/
theorem materializeContents_overdeclared :
    let c := overdeclaredCard
    let r := dfcCredentialMaterializeContents c (2 ^ 32 - 1) 2048
    PoolInv True c.numApps c ∧ modelCheck c = .ok () ∧ declaredLength (c.files 0) = some (2 ^ 32) ∧
      r.2 = true ∧ (r.1.files 0).contentsComplete = true ∧ (r.1.files 0).dataLen = 0 ∧
      ¬Completed True declaredLength c r 2048 := by
  intro c r
  have hanswer : c.numFiles = 1 ∧ declaredLength (c.files 0) = some (2 ^ 32) ∧
      declaredLength (r.1.files 0) = some (2 ^ 32) ∧ r.2 = true ∧
      (r.1.files 0).contentsComplete = true ∧ (r.1.files 0).dataLen = 0 ∧
      (modelCheck c).toOption.isSome = true := by
    decide +kernel
  obtain ⟨hcount, hdeclared, hdeclared', htrue, hflag, hlen, hsome⟩ := hanswer
  refine ⟨poolInv_overdeclaredCard, ?_, hdeclared, htrue, hflag, hlen, fun hp => ?_⟩
  · cases hcheck : modelCheck c with
    | ok u => rfl
    | error status =>
      rw [hcheck] at hsome
      cases hsome
  · have hfull := hp.answer.1 htrue 0 (by omega)
    rw [fileComplete_iff hdeclared', hlen] at hfull
    omega

end DfcCore
