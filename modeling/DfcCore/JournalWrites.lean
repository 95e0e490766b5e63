import DfcCore.JournalOpening

/-!
# Writing under the journal

A write into the slice of a covered file is staged, one into the slice of another file is there
at once. Either way the other files keep their contents and the journal its pre-images.
-/
namespace DfcCore
open Der
open scoped BigOperators

variable {e e' : DfcEmulator} {c c' : DfcCredential} {i j : ℕ}

/-- The length of the records of a file, and how many of them it has room for. -/
def DfcFile.recordSlots (file : DfcFile) : ℕ × ℕ :=
  (file.state.record.size, file.state.record.maxRecords)

/-- The record and the octets of one file are rewritten; it stays where it is. -/
structure SliceWrite (c c' : DfcCredential) (i : ℕ) : Prop where
  numFiles : c'.numFiles = c.numFiles
  numApps : c'.numApps = c.numApps
  used : c'.filePoolUsed = c.filePoolUsed
  other : ∀ j, j ≠ i → c'.files j = c.files j
  key : (c'.files i).key = (c.files i).key
  dataOffset : (c'.files i).dataOffset = (c.files i).dataOffset
  dataLen : (c'.files i).dataLen = (c.files i).dataLen
  slots : (c'.files i).recordSlots = (c.files i).recordSlots
  pool : ∀ a, a < (c.files i).dataOffset ∨ (c.files i).dataOffset + (c.files i).dataLen ≤ a →
    c'.filePool a = c.filePool a

theorem SliceWrite.refl (c : DfcCredential) (i : ℕ) : SliceWrite c c i :=
  ⟨rfl, rfl, rfl, fun _ _ => rfl, rfl, rfl, rfl, rfl, fun _ _ => rfl⟩

theorem SliceWrite.trans {a b c : DfcCredential} (h : SliceWrite a b i) (h' : SliceWrite b c i) :
    SliceWrite a c i where
  numFiles := h'.numFiles.trans h.numFiles
  numApps := h'.numApps.trans h.numApps
  used := h'.used.trans h.used
  other j hj := (h'.other j hj).trans (h.other j hj)
  key := h'.key.trans h.key
  dataOffset := h'.dataOffset.trans h.dataOffset
  dataLen := h'.dataLen.trans h.dataLen
  slots := h'.slots.trans h.slots
  pool a ha := by
    rw [h'.pool a (by rw [h.dataOffset, h.dataLen]; exact ha), h.pool a ha]

/-- An edit of the file's record that keeps its place. -/
theorem SliceWrite.modifyFile (c : DfcCredential) (i : ℕ) {f : DfcFile → DfcFile}
    (hkey : (f (c.files i)).key = (c.files i).key)
    (hplace : (f (c.files i)).dataOffset = (c.files i).dataOffset ∧
      (f (c.files i)).dataLen = (c.files i).dataLen)
    (hslots : (f (c.files i)).recordSlots = (c.files i).recordSlots) :
    SliceWrite c (c.modifyFile i f) i where
  numFiles := rfl
  numApps := rfl
  used := rfl
  other j hj := by rw [modifyFile_files, if_neg hj]
  key := by rw [modifyFile_files, if_pos rfl, hkey]
  dataOffset := by rw [modifyFile_files, if_pos rfl, hplace.1]
  dataLen := by rw [modifyFile_files, if_pos rfl, hplace.2]
  slots := by rw [modifyFile_files, if_pos rfl, hslots]
  pool _ _ := rfl

theorem SliceWrite.setPending (c : DfcCredential) (i : ℕ) : SliceWrite c (c.setPending i) i :=
  .modifyFile c i (f := fun file => { file with transactionPending := true }) rfl ⟨rfl, rfl⟩ rfl

/-- New octets for the pool that differ in the file's slice alone. -/
theorem SliceWrite.of_pool (c : DfcCredential) (i : ℕ) {pool : Mem}
    (h : ∀ a, a < (c.files i).dataOffset ∨ (c.files i).dataOffset + (c.files i).dataLen ≤ a →
      pool a = c.filePool a) : SliceWrite c { c with filePool := pool } i :=
  ⟨rfl, rfl, rfl, fun _ _ => rfl, rfl, rfl, rfl, rfl, h⟩

theorem SliceWrite.writeFileData (c : DfcCredential) {i : ℕ} (start : ℕ) (octets : List UInt8)
    (hstart : (c.files i).dataOffset ≤ start)
    (hend : start + octets.length ≤ (c.files i).dataOffset + (c.files i).dataLen) :
    SliceWrite c (c.writeFileData start octets) i :=
  .of_pool c i fun a ha => Mem.write_apply_of_out (by omega)

theorem SliceWrite.setDirty (h : SliceWrite c c' i) (dirty : Bool) :
    SliceWrite c { c' with dirty := dirty } i :=
  ⟨h.numFiles, h.numApps, h.used, h.other, h.key, h.dataOffset, h.dataLen, h.slots, h.pool⟩

theorem SliceWrite.type (h : SliceWrite c c' i) : (c'.files i).type = (c.files i).type :=
  congrArg FileKey.type h.key

theorem SliceWrite.appIndex (h : SliceWrite c c' i) :
    (c'.files i).appIndex = (c.files i).appIndex := congrArg FileKey.owner h.key

theorem SliceWrite.hasData (h : SliceWrite c c' i) :
    transactionFileHasData (c'.files i) = transactionFileHasData (c.files i) := by
  unfold transactionFileHasData
  rw [h.type]

theorem SliceWrite.maxRecords (h : SliceWrite c c' i) :
    (c'.files i).state.record.maxRecords = (c.files i).state.record.maxRecords :=
  congrArg Prod.snd h.slots

theorem SliceWrite.recordSize (h : SliceWrite c c' i) :
    (c'.files i).recordSize = (c.files i).recordSize := by
  have hsize : (c'.files i).state.record.size = (c.files i).state.record.size :=
    congrArg Prod.fst h.slots
  unfold DfcFile.recordSize
  rw [h.type, hsize]

theorem SliceWrite.usableCapacity (h : SliceWrite c c' i) :
    dfcEmulatorRecordUsableCapacity (c'.files i) = dfcEmulatorRecordUsableCapacity (c.files i) := by
  unfold dfcEmulatorRecordUsableCapacity
  rw [h.type, h.maxRecords]

/-- Every file stays where it is. -/
theorem SliceWrite.place (h : SliceWrite c c' i) (j : ℕ) :
    (c'.files j).dataOffset = (c.files j).dataOffset ∧
      (c'.files j).dataLen = (c.files j).dataLen := by
  by_cases hji : j = i
  · subst hji
    exact ⟨h.dataOffset, h.dataLen⟩
  · rw [h.other j hji]
    exact ⟨rfl, rfl⟩

theorem SliceWrite.files {z : Prop} (h : SliceWrite c c' i) (hi : i < c.numFiles)
    (hpool : FilePoolInv z c) : FilePoolInv z c' := by
  refine hpool.frame h.numFiles h.used (fun a ha _ => ?_) (fun j => (h.place j).1)
    fun j => (h.place j).2
  by_cases h0 : (c.files i).dataLen = 0
  · refine h.pool a ?_
    omega
  · have hslice := (hpool.slice hi h0).1
    exact h.pool a (by omega)

/-- The other files keep their octets. -/
theorem SliceWrite.read_other {z : Prop} (h : SliceWrite c c' i) (hpool : FilePoolInv z c)
    (hi : i < c.numFiles) (hj : j < c.numFiles) (hji : j ≠ i) :
    c'.filePool.read (c'.files j).dataOffset (c'.files j).dataLen =
      c.filePool.read (c.files j).dataOffset (c.files j).dataLen := by
  rw [h.other j hji]
  refine Mem.read_congr fun a ha => h.pool _ ?_
  by_cases h0 : (c.files i).dataLen = 0
  · omega
  · have hdisjoint := hpool.packed.disjoint j (Finset.mem_range.mpr hj) i (Finset.mem_range.mpr hi)
      hji (by omega) h0
    omega

/-- What a journal entry says about the pre-image of a file. -/
def DfcTransactionEntry.preimage (x : DfcTransactionEntry) : DfcTransactionEntry :=
  { x with recordOperation := .none, recordNumber := 0 }

/-- A write becomes pending in a file of the journal. -/
structure Staged (e e' : DfcEmulator) (i : ℕ) : Prop where
  write : SliceWrite e.credential e'.credential i
  pending : (e'.credential.files i).transactionPending = true
  selected : e'.selectedAppIndex = e.selectedAppIndex
  journal : e'.snapshot = { e.snapshot with entries := e'.snapshot.entries }
  other : ∀ j, j ≠ i → e'.snapshot.entry j = e.snapshot.entry j
  preimage : (e'.snapshot.entry i).preimage = (e.snapshot.entry i).preimage
  record : (e'.snapshot.entry i).recordOperation = .write →
    (e'.snapshot.entry i).recordNumber < dfcEmulatorRecordUsableCapacity (e.credential.files i)

theorem storeOf_set {x : Cell FileKey Contents}
    (hcount : e'.credential.numFiles = e.credential.numFiles)
    (hother : ∀ j < e.credential.numFiles, j ≠ i → storeCell e' j = storeCell e j)
    (hself : storeCell e' i = x) : storeOf e' = (storeOf e).set i x := by
  refine List.ext_getElem? fun j => ?_
  rw [storeOf_getElem?, List.getElem?_set, storeOf_getElem?, hcount]
  by_cases hji : j = i
  · subst hji
    rw [if_pos rfl, hself]
    simp [storeOf]
  · rw [if_neg (Ne.symm hji)]
    split_ifs with hj
    · rw [hother j hj hji]
    · rfl

section
variable (h : Staged e e' i)
include h

theorem Staged.sameJournal (hactive : e.snapshot.active = true) :
    SameJournal e.snapshot e'.snapshot := by
  have hjournal := h.journal
  refine ⟨by rw [hjournal], by rw [hjournal], fun hidle => ?_⟩
  rw [hactive] at hidle
  cases hidle

/-- The files beside the one that is written. -/
theorem Staged.kept (hpool : FilePoolInv False e.credential) (hi : i < e.credential.numFiles)
    (hj : j < e.credential.numFiles) (hji : j ≠ i) : SlotKept e e' j j where
  view := by rw [h.write.other j hji]
  slice := h.write.read_other hpool hi hj hji
  entry := h.other j hji
  preimage _ := by rw [h.journal]

theorem Staged.entry (j : ℕ) :
    (e'.snapshot.entry j).captured = (e.snapshot.entry j).captured ∧
      (e'.snapshot.entry j).created = (e.snapshot.entry j).created ∧
      (e'.snapshot.entry j).offset = (e.snapshot.entry j).offset ∧
      (e'.snapshot.entry j).recordCount = (e.snapshot.entry j).recordCount := by
  have hpreimage : (e'.snapshot.entry j).preimage = (e.snapshot.entry j).preimage := by
    by_cases hji : j = i
    · subst hji
      exact h.preimage
    · rw [h.other j hji]
  exact ⟨(congrArg DfcTransactionEntry.captured hpreimage :),
    (congrArg DfcTransactionEntry.created hpreimage :),
    (congrArg DfcTransactionEntry.offset hpreimage :),
    (congrArg DfcTransactionEntry.recordCount hpreimage :)⟩

/-- Nothing is committed by staging. -/
theorem Staged.committed (hsound : JournalSound e) (hactive : e.snapshot.active = true)
    (hi : Covered e i)
    (hknown : (e.snapshot.entry i).created = true ∨ (e.snapshot.entry i).captured = true)
    (hj : j < e.credential.numFiles) : committedContents e' j = committedContents e j := by
  have hjournal := h.sameJournal hactive
  by_cases hji : j = i
  · subst hji
    have hactive' : e'.snapshot.active = true := hjournal.active.trans hactive
    have hi' : Covered e' j :=
      ⟨by rw [h.write.numFiles]; exact hi.lt,
        by rw [h.write.appIndex, hjournal.appIndex, hi.appIndex],
        by rw [h.write.hasData, hi.hasData]⟩
    obtain ⟨hcaptured, hcreated, hoffset, hcount⟩ := h.entry j
    rw [committedContents_of_covered hactive hi, committedContents_of_covered hactive' hi',
      hcaptured, hcreated, hoffset, hcount, h.write.dataLen, h.write.recordSize, h.write.type,
      h.journal]
    obtain hcr | hcap := hknown
    · rw [if_pos hcr, if_pos hcr]
    · rw [if_pos hcap, if_pos hcap]
  · exact (h.kept hsound.files hi.lt hj hji).committed hjournal.active hjournal.appIndex

theorem Staged.journalOpen (hsound : JournalSound e) (hactive : e.snapshot.active = true)
    (hi : Covered e i)
    (hknown : (e.snapshot.entry i).created = true ∨ (e.snapshot.entry i).captured = true) :
    JournalOpen e' := by
  have hopen := hsound.journal hactive
  have hjournal := h.sameJournal hactive
  have hcovered : ∀ j, Covered e' j → Covered e j := by
    intro j hj
    have hlt := hj.lt
    rw [h.write.numFiles] at hlt
    by_cases hji : j = i
    · subst hji
      exact hi
    · exact (h.kept hsound.files hi.lt hlt hji).covered hjournal.appIndex hlt hj
  constructor
  · rw [hjournal.appIndex, h.selected, hopen.app]
  · rw [h.journal]
    exact hopen.hasPool
  · rw [h.journal]
    exact hopen.fits
  · rw [h.journal]
    exact hopen.small
  · intro j hj hcaptured
    rw [h.write.numFiles] at hj
    rw [(h.entry j).1] at hcaptured
    have hc := hopen.captured j hj hcaptured
    by_cases hji : j = i
    · subst hji
      exact ⟨by rw [h.write.numFiles]; exact hj,
        by rw [h.write.appIndex, hc.appIndex, hjournal.appIndex], h.write.hasData.trans hc.hasData⟩
    · exact (h.kept hsound.files hi.lt hj hji).covered_after hjournal.appIndex
        (by rw [h.write.numFiles]; exact hj) hc
  · intro j hj
    have hlt := (hcovered j hj).lt
    have hslot := hopen.slots j (hcovered j hj)
    by_cases hji : j = i
    · subst hji
      obtain ⟨hcaptured, hcreated, hoffset, -⟩ := h.entry j
      constructor
      · intro hc
        rw [hcaptured] at hc
        rw [hoffset, h.write.dataLen, h.journal]
        exact hslot.placed hc
      · intro _
        rw [hcaptured, hcreated]
        exact hknown.symm
      · intro hnone
        rw [h.pending] at hnone
        cases hnone
      · intro hwrite
        rw [h.write.usableCapacity]
        exact h.record hwrite
    · exact (h.kept hsound.files hi.lt hlt hji).slotSound hjournal.active hjournal.appIndex
        (by rw [h.journal]) hslot
  · intro j k hj hk hjk hcj hck
    obtain ⟨hcaptured, -, hoffset, -⟩ := h.entry j
    obtain ⟨hcaptured', -, hoffset', -⟩ := h.entry k
    rw [hcaptured] at hcj
    rw [hcaptured'] at hck
    rw [hoffset, hoffset', (h.write.place j).2, (h.write.place k).2]
    exact hopen.disjoint j k (hcovered j hj) (hcovered k hk) hjk hcj hck
  · rw [h.write.numFiles]
    refine le_trans (le_of_eq (Finset.sum_congr rfl fun j hj => ?_)) (le_of_le_of_eq hopen.room
      (by rw [h.journal]))
    have hlt := Finset.mem_range.mp hj
    by_cases hji : j = i
    · subst hji
      obtain ⟨hcaptured, hcreated, -, -⟩ := h.entry j
      rw [roomNeeded, roomNeeded, hcaptured, hcreated, h.write.appIndex, h.write.hasData,
        h.write.dataLen, hjournal.appIndex]
    · exact (h.kept hsound.files hi.lt hlt hji).roomNeeded hjournal.appIndex

/-- Staging keeps the journal sound, and one cell has its new contents staged. -/
theorem Staged.sound (hsound : JournalSound e) (hactive : e.snapshot.active = true)
    (hi : Covered e i)
    (hknown : (e.snapshot.entry i).created = true ∨ (e.snapshot.entry i).captured = true) :
    JournalSound e' ∧ storeOf e' =
      (storeOf e).set i ((storeCell e i).stage (liveContents e'.credential i)) := by
  have hjournal := h.sameJournal hactive
  refine ⟨⟨?_, h.write.files hi.lt hsound.files, ?_, fun _ => ?_⟩, ?_⟩
  · exact hsound.settled.pending hactive hi.appIndex hi.hasData hjournal h.write.numFiles
      h.write.other ⟨h.write.appIndex, h.write.type⟩
  · rw [h.write.numApps]
    exact hsound.apps
  · exact h.journalOpen hsound hactive hi hknown
  · refine storeOf_set h.write.numFiles (fun j hj hji => ?_) ?_
    · exact (h.kept hsound.files hi.lt hj hji).cell hjournal.active hjournal.appIndex
    · rw [storeCell, h.committed hsound hactive hi hknown hi.lt, h.write.key, h.pending]
      rfl

end

/-- A write into a file that no transaction covers, known to the journal as a change. -/
structure WrittenThrough (e e' : DfcEmulator) (i : ℕ) : Prop where
  write : SliceWrite e.credential e'.credential i
  pending : (e'.credential.files i).transactionPending = (e.credential.files i).transactionPending
  selected : e'.selectedAppIndex = e.selectedAppIndex
  journal : e'.snapshot = { e.snapshot with dirty := e'.snapshot.dirty }
  idle : e.snapshot.active = false → e'.snapshot = e.snapshot

theorem WrittenThrough.sound (h : WrittenThrough e e' i) (hsound : JournalSound e)
    (hi : i < e.credential.numFiles)
    (hplain : transactionFileHasData (e.credential.files i) = false) :
    JournalSound e' ∧ storeOf e' =
      (storeOf e).set i ((storeCell e i).overwrite (liveContents e'.credential i)) := by
  have hjournal : SameJournal e.snapshot e'.snapshot := by
    refine ⟨by rw [h.journal], by rw [h.journal], h.idle⟩
  have hentry (j : ℕ) : e'.snapshot.entry j = e.snapshot.entry j := by
    rw [h.journal]
    rfl
  have hkept (j : ℕ) (hj : j < e.credential.numFiles) (hji : j ≠ i) : SlotKept e e' j j :=
    { view := by rw [h.write.other j hji]
      slice := h.write.read_other hsound.files hi hj hji
      entry := hentry j
      preimage := fun _ => by rw [h.journal] }
  have hnot : ∀ s : DfcEmulator, transactionFileHasData (s.credential.files i) = false →
      ¬Covered s i := fun s hs hc => by
    have hdata := hc.hasData
    rw [hs] at hdata
    cases hdata
  have hplain' : transactionFileHasData (e'.credential.files i) = false :=
    h.write.hasData.trans hplain
  have hnone : (e.credential.files i).transactionPending = false := by
    cases hpending : (e.credential.files i).transactionPending with
    | false => rfl
    | true => exact absurd (hsound.covered_of_pending hi hpending).2 (hnot e hplain)
  have hcovered : ∀ j, Covered e' j → j ≠ i ∧ Covered e j := by
    intro j hj
    have hlt := hj.lt
    rw [h.write.numFiles] at hlt
    have hji : j ≠ i := by
      rintro rfl
      exact hnot e' hplain' hj
    exact ⟨hji, (hkept j hlt hji).covered hjournal.appIndex hlt hj⟩
  refine ⟨⟨?_, h.write.files hi hsound.files, ?_, fun hactive' => ?_⟩, ?_⟩
  · refine hsound.settled.sameMarks hjournal (fileViews_congr h.write.numFiles fun j _ => ?_)
    unfold journalMark
    by_cases hji : j = i
    · subst hji
      rw [h.write.appIndex, h.pending, h.write.hasData]
    · rw [h.write.other j hji]
  · rw [h.write.numApps]
    exact hsound.apps
  · have hopen := hsound.journal (hjournal.active ▸ hactive')
    constructor
    · rw [hjournal.appIndex, h.selected, hopen.app]
    · rw [h.journal]
      exact hopen.hasPool
    · rw [h.journal]
      exact hopen.fits
    · rw [h.journal]
      exact hopen.small
    · intro j hj hcaptured
      rw [h.write.numFiles] at hj
      rw [hentry] at hcaptured
      have hc := hopen.captured j hj hcaptured
      have hji : j ≠ i := by
        rintro rfl
        exact hnot e hplain hc
      exact (hkept j hj hji).covered_after hjournal.appIndex (by rw [h.write.numFiles]; exact hj) hc
    · intro j hj
      obtain ⟨hji, hc⟩ := hcovered j hj
      exact (hkept j hc.lt hji).slotSound hjournal.active hjournal.appIndex (by rw [h.journal])
        (hopen.slots j hc)
    · intro j k hj hk hjk hcj hck
      rw [hentry] at hcj hck
      rw [hentry, hentry, (h.write.place j).2, (h.write.place k).2]
      exact hopen.disjoint j k (hcovered j hj).2 (hcovered k hk).2 hjk hcj hck
    · rw [h.write.numFiles]
      refine le_trans (le_of_eq (Finset.sum_congr rfl fun j hj => ?_)) (le_of_le_of_eq hopen.room
        (by rw [h.journal]))
      have hlt := Finset.mem_range.mp hj
      by_cases hji : j = i
      · subst hji
        rw [roomNeeded, roomNeeded, if_pos (.inr (.inl hplain')), if_pos (.inr (.inl hplain))]
      · exact (hkept j hlt hji).roomNeeded hjournal.appIndex
  · refine storeOf_set h.write.numFiles (fun j hj hji => ?_) ?_
    · exact (hkept j hj hji).cell hjournal.active hjournal.appIndex
    · have hlt : i < e'.credential.numFiles := by rw [h.write.numFiles]; exact hi
      rw [storeCell, committedContents_of_not_covered hlt fun _ => hnot e' hplain', h.write.key,
        h.pending, hnone, storeCell, hnone]
      rfl

end DfcCore
