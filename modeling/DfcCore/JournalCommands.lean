import DfcCore.JournalFiles

/-!
# What an accepted command does to the store

Reads and the commands on values leave the store as it is. A write into a backup or record file
opens the journal and stages the new contents; a write into a standard file goes through. A commit
publishes everything that is staged, an abort drops it.
-/
namespace DfcCore
open Der

variable {aes : List UInt8 → List UInt8 → List UInt8} {e e' opened recorded : DfcEmulator}
  {env : CommandEnv} {apdu payload : List UInt8} {c : DfcCredential} {i start : ℕ}

/-- The journal stays sound, and the store makes some moves, none of them a commit. -/
structure MovesTo (e e' : DfcEmulator) : Prop where
  sound : JournalSound e'
  moves : StoreRun FileKey.covered Contents.Blank Contents.Fits (storeOf e) (storeOf e')

theorem MovesTo.of_same (hsound : JournalSound e') (hstore : storeOf e' = storeOf e) :
    MovesTo e e' := by
  refine ⟨hsound, ?_⟩
  rw [hstore]
  exact .refl

theorem MovesTo.refl (hsound : JournalSound e) : MovesTo e e := .of_same hsound rfl

theorem MovesTo.trans {a b c : DfcEmulator} (h : MovesTo a b) (h' : MovesTo b c) : MovesTo a c :=
  ⟨h'.sound, h.moves.trans h'.moves⟩

theorem MovesTo.frame {e₁ : DfcEmulator} (h : MovesTo e e₁) (hframe : StoreFrame e₁ e') :
    MovesTo e e' := by
  obtain ⟨hsound, hstore⟩ := hframe.sound h.sound
  exact h.trans (.of_same hsound hstore)

theorem MovesTo.move {e₁ : DfcEmulator} (h : MovesTo e e₁) (hsound : JournalSound e')
    (hmove : StoreMove FileKey.covered Contents.Blank Contents.Fits false (storeOf e₁)
      (storeOf e')) : MovesTo e e' :=
  ⟨hsound, h.moves.tail hmove⟩

theorem MovesTo.abort (h : MovesTo e e') : MovesTo e (dfcEmulatorAbortTransaction e').1 := by
  obtain ⟨hsound, hstore⟩ := h.sound.abort
  refine h.move hsound ?_
  rw [hstore]
  exact .rollback _

theorem MovesTo.blankAdded {e₁ : DfcEmulator} (h : MovesTo e e₁) (hadded : BlankAdded e₁ e') :
    MovesTo e e' := by
  obtain hsame | ⟨key, v, hblank, hstore⟩ := hadded.store
  · exact h.trans (.of_same hadded.sound hsame)
  · refine h.move hadded.sound ?_
    rw [hstore]
    exact .add _ key hblank

/-- The record counts stay such that the journal can note them. -/
theorem MovesTo.storeSound (h : MovesTo e e') (hsound : StoreSound e) : StoreSound e' :=
  ⟨h.sound, h.moves.holds (fun _ => Contents.Blank.fits) hsound.fits⟩

theorem storeOf_length (e : DfcEmulator) : (storeOf e).length = e.credential.numFiles := by
  rw [storeOf, List.length_map, List.length_range]

/-- Nothing is committed to the files a transaction covers, wherever they stand afterwards; at
every place that is named there is a file. -/
structure KeptFrom (o : Origin) (e e' : DfcEmulator) : Prop where
  sound : StoreSound e'
  committed :
    CommittedKept FileKey.kind FileKey.covered Contents.Blank o (storeOf e) (storeOf e')
  places : ∀ j i, o j = some i → j < e'.credential.numFiles

theorem KeptFrom.trans {a b c : DfcEmulator} {o o' : Origin} (h : KeptFrom o a b)
    (h' : KeptFrom o' b c) : KeptFrom (o.andThen o') a c where
  sound := h'.sound
  committed := h.committed.trans FileKey.covered_of_kind h'.committed
  places j i hplace := by
    unfold Origin.andThen at hplace
    cases hlast : o' j with
    | none =>
      rw [hlast] at hplace
      cases hplace
    | some k => exact h'.places j k hlast

theorem KeptFrom.congr {o o' : Origin} (h : KeptFrom o e e') (heq : ∀ j, o' j = o j) :
    KeptFrom o' e e' :=
  ⟨h.sound, h.committed.congr fun j _ => heq j, fun j i hplace => h.places j i (heq j ▸ hplace)⟩

/-- In a store that moves in place every file stays where it is. -/
theorem MovesTo.keptFrom (h : MovesTo e e') (hsound : StoreSound e) :
    KeptFrom (.stay e.credential.numFiles) e e' := by
  obtain ⟨hlonger, hkept⟩ := h.moves.committedKept FileKey.covered_of_kind
  rw [storeOf_length, storeOf_length] at hlonger
  rw [storeOf_length] at hkept
  refine ⟨h.storeSound hsound, hkept, fun j i hplace => ?_⟩
  unfold Origin.stay at hplace
  split_ifs at hplace with hj
  exact hj.trans_le hlonger

theorem MacTaken.storeFrame {op : TransactionMacOperation} (h : MacTaken aes op e e') :
    StoreFrame e e' := by
  rw [h.eq_update]
  exact .of_eq rfl rfl rfl

theorem ReadDataFrom.storeFrame (h : ReadDataFrom e i e') : StoreFrame e e' := by
  obtain rfl | ⟨-, counter, rfl⟩ := h
  · exact .refl _
  · exact .modifyFile e i (f := fun file => file.withData _) (fun _ => rfl) fun _ => rfl

theorem StoreFrame.clearPendingChain (e : DfcEmulator) :
    StoreFrame e (dfcEmulatorCommandClearPendingChain e) := .of_eq rfl rfl rfl

theorem readData_storeFrame
    (h : dfcEmulatorCommandReadData aes e env apdu = .ok (e', payload)) : StoreFrame e e' := by
  obtain ⟨i, e₁, e₂, -, -, -, -, -, hread, htaken, rfl⟩ := readData_ok h
  refine StoreFrame.trans ?_ (.clearPendingChain e₂)
  split_ifs at htaken
  · rw [htaken]
    exact hread.storeFrame
  · exact hread.storeFrame.trans htaken.storeFrame

theorem valueDelta_storeFrame {cmd : UInt8} {debit limitedCredit : Bool}
    (h : dfcEmulatorCommandValueDelta aes e env apdu cmd debit limitedCredit =
      .ok (e', payload)) : StoreFrame e e' := by
  obtain ⟨i, amount, next, recorded, -, -, -, -, -, -, htaken, rfl, -⟩ := valueDelta_ok h
  exact htaken.storeFrame.trans
    (.modifyFile recorded i (f := fun file => file.withValue _) (fun _ => rfl) fun _ => rfl)

theorem Opened.taken {op : TransactionMacOperation} (h : Opened e opened i)
    (htaken : MacTaken aes op opened recorded) : Opened e recorded i := by
  obtain ⟨hsound, hstore⟩ := htaken.storeFrame.sound h.sound
  have hcredential := htaken.credential
  have hsnapshot := htaken.snapshot
  refine ⟨hsound, hstore.trans h.store, ?_, ⟨?_, ?_, ?_⟩, ?_⟩
  · rw [hsnapshot]
    exact h.active
  · rw [hcredential]
    exact h.covered.lt
  · rw [hcredential, hsnapshot]
    exact h.covered.appIndex
  · rw [hcredential]
    exact h.covered.hasData
  · rw [hsnapshot]
    exact h.known

theorem Opened.lt_maxFiles (h : Opened e opened i) : i < dfcMaxFiles :=
  h.covered.lt.trans_le h.sound.settled.count

/-- What was staged for a file the journal knows is one move of the store. -/
theorem Staged.movesTo (h : Staged opened e' i) (hopened : Opened e opened i)
    (hfits : (liveContents e'.credential i).Fits) : MovesTo e e' := by
  obtain ⟨hsound, hstore⟩ :=
    h.sound hopened.sound hopened.active hopened.covered hopened.known
  refine (MovesTo.of_same hopened.sound hopened.store).move hsound ?_
  rw [hstore]
  refine .stage ?_ hopened.covered.hasData hfits
  rw [storeOf_getElem?, if_pos hopened.covered.lt]

theorem fits_of_empty (h : (c.files i).recordCount = 0) : (liveContents c i).Fits := by
  show (c.files i).recordCount < 65536 ∧ (c.files i).recordCount * _ ≤ _
  rw [h, Nat.zero_mul]
  exact ⟨by decide, Nat.zero_le _⟩

/-- A write that leaves the journal as it is. -/
theorem Staged.of_write (hopened : Opened e opened i) (hwrite : SliceWrite opened.credential c i)
    (hpending : (c.files i).transactionPending = true) :
    Staged opened { opened with credential := c } i where
  write := hwrite
  pending := hpending
  selected := rfl
  journal := rfl
  other _ _ := rfl
  preimage := rfl
  record := ((hopened.sound.journal hopened.active).slots i hopened.covered).record

theorem setRecordOperation_credential (e : DfcEmulator) (i : ℕ) (operation : RecordTransaction)
    (number : ℕ) : (dfcEmulatorCommandTransactionSetRecordOperation e i operation
      number).credential = e.credential := by
  unfold dfcEmulatorCommandTransactionSetRecordOperation
  split_ifs <;> rfl

/-- A write the journal notes as an operation on a record. -/
theorem Staged.of_record (operation : RecordTransaction) (number : ℕ) (hopened : Opened e opened i)
    (hwrite : SliceWrite opened.credential c i) (hpending : (c.files i).transactionPending = true)
    (hnumber : operation = .write →
      number < dfcEmulatorRecordUsableCapacity (opened.credential.files i)) :
    Staged opened (dfcEmulatorCommandTransactionSetRecordOperation
      { opened with credential := c } i operation number) i := by
  have hlt := hopened.lt_maxFiles
  unfold dfcEmulatorCommandTransactionSetRecordOperation
  rw [if_neg (not_le.mpr hlt)]
  refine ⟨hwrite, hpending, rfl, rfl, fun j hji => ?_, ?_, fun hrecord => ?_⟩
  · unfold DfcTransactionSnapshot.entry
    dsimp only
    rw [Function.update_of_ne hji]
  · unfold DfcTransactionSnapshot.entry
    dsimp only
    rw [if_pos hlt, if_pos hlt, Function.update_self]
    rfl
  · unfold DfcTransactionSnapshot.entry at hrecord ⊢
    dsimp only at hrecord ⊢
    rw [if_pos hlt, Function.update_self] at hrecord ⊢
    exact hnumber hrecord

theorem writeData_movesTo (h : StoreSound e)
    (hok : dfcEmulatorCommandWriteData aes e env apdu = .ok (e', payload)) : MovesTo e e' := by
  obtain ⟨i, start, clear, opened, recorded, hfind, htype, hrange, -, -, hstart, hopen, htaken,
    rfl, -⟩ := writeData_ok hok
  have hi := find_lt hfind
  obtain ⟨rfl, -, -⟩ := dfcFileData_bound hstart
  have hplain : dfcFileTypeIsRecord (e.credential.files i).type = false := by
    simp only [dfcFileTypeIsData, Bool.or_eq_true, beq_iff_eq] at htype
    obtain hstandard | hbackup := htype
    · rw [hstandard]
      rfl
    · rw [hbackup]
      rfl
  have hcredential : recorded.credential = e.credential := by
    rw [htaken.credential]
    split_ifs at hopen
    · rw [openJournal_frame hopen]
    · rw [hopen]
  have hwrite : SliceWrite recorded.credential
      (recorded.credential.writeFileData ((e.credential.files i).dataOffset + readUint24Le apdu 2)
        clear) i := by
    rw [hcredential]
    exact .writeFileData _ _ _ (Nat.le_add_right _ _) (by omega)
  have hnone {x : DfcCredential} (hx : (x.files i).type = (e.credential.files i).type) :
      (liveContents x i).Fits := by
    refine fits_of_empty ?_
    unfold DfcFile.recordCount
    rw [hx, hplain, if_neg Bool.false_ne_true]
  unfold storeData
  dsimp only
  by_cases hbackup : (e.credential.files i).type = dfcFileTypeBackupData
  · rw [if_pos hbackup] at hopen
    rw [if_pos (by rw [hcredential]; exact hbackup)]
    obtain ⟨-, hfalse⟩ | ⟨-, hopened⟩ := Opened.of_open h.sound
      ⟨hi, find_appIndex hfind, by rw [transactionFileHasData, hbackup]; rfl,
        h.recordCount hi⟩ hopen
    · cases hfalse
    · have hstaged := Staged.of_write (hopened.taken htaken)
        ((hwrite.trans (.setPending _ i)).setDirty true)
        (by rw [DfcCredential.setPending, modifyFile_files, if_pos rfl])
      refine hstaged.movesTo (hopened.taken htaken) (hnone ?_)
      exact hstaged.write.type.trans (by rw [hcredential])
  · rw [if_neg hbackup] at hopen
    rw [hopen] at htaken
    rw [if_neg (by rw [hcredential]; exact hbackup)]
    have hrecorded := MovesTo.frame (.refl h.sound) htaken.storeFrame
    have hthrough : WrittenThrough recorded
        { dfcEmulatorTransactionSnapshotNotePersistentChange recorded with
          credential := { recorded.credential.writeFileData
            ((e.credential.files i).dataOffset + readUint24Le apdu 2) clear with dirty := true } }
        i := by
      refine ⟨hwrite.setDirty true, rfl, ?_, ?_, fun hidle => ?_⟩
      all_goals unfold dfcEmulatorTransactionSnapshotNotePersistentChange
      · split_ifs <;> rfl
      · split_ifs <;> rfl
      · rw [hidle]
        rfl
    have hnoData : transactionFileHasData (recorded.credential.files i) = false := by
      rw [hcredential, transactionFileHasData, hplain, beq_eq_false_iff_ne.mpr hbackup]
      rfl
    have hlt : i < recorded.credential.numFiles := by
      rw [hcredential]
      exact hi
    obtain ⟨hsound, hstore⟩ := hthrough.sound hrecorded.sound hlt hnoData
    refine hrecorded.move hsound ?_
    rw [hstore]
    refine .overwrite ?_ hnoData (hnone ?_)
    · rw [storeOf_getElem?, if_pos hlt]
    · exact hthrough.write.type.trans (by rw [hcredential])

theorem recordStorage_consistent {file : DfcFile}
    (h : dfcEmulatorRecordStorageIsConsistent file = true) :
    0 < file.state.record.size ∧ file.state.record.count ≤ file.state.record.maxRecords ∧
      file.state.record.maxRecords * file.state.record.size ≤ file.dataLen := by
  simpa [dfcEmulatorRecordStorageIsConsistent, and_assoc] using h

theorem usableCapacity_le (file : DfcFile) :
    dfcEmulatorRecordUsableCapacity file ≤ file.state.record.maxRecords := by
  unfold dfcEmulatorRecordUsableCapacity
  split_ifs <;> omega

/-- A part of one of the records lies in the slice. -/
theorem record_in_slice {index capacity size offset n dataLen : ℕ} (hindex : index < capacity)
    (hfit : capacity * size ≤ dataLen) (hn : offset + n ≤ size) :
    index * size + offset + n ≤ dataLen := by
  have hend := Nat.mul_le_mul_right size (Nat.succ_le_of_lt hindex)
  rw [Nat.succ_mul] at hend
  omega

/-- A file in the pool holds fewer records than the journal can note. -/
theorem records_lt {n : ℕ} (h : FilePoolInv False c) (hi : i < c.numFiles)
    (hsize : 0 < (c.files i).state.record.size)
    (hfit : n * (c.files i).state.record.size ≤ (c.files i).dataLen) : n < 65536 := by
  have hmax := (Nat.le_mul_of_pos_right n hsize).trans hfit
  by_cases h0 : (c.files i).dataLen = 0
  · omega
  · have hslice := (h.slice hi h0).1
    have hpool := h.fit
    simp only [dfcFilePoolSize] at hpool
    omega

/-- The records of a rewritten file fit as long as they are not too many. -/
theorem SliceWrite.fits {n : ℕ} (h : SliceWrite c c' i) (hpool : FilePoolInv False c)
    (hi : i < c.numFiles) (hsize : 0 < (c.files i).state.record.size)
    (hfit : n * (c.files i).state.record.size ≤ (c.files i).dataLen)
    (hcount : (c'.files i).state.record.count ≤ n) : (liveContents c' i).Fits := by
  by_cases hrecord : dfcFileTypeIsRecord (c'.files i).type = true
  · have hrecords : (c'.files i).recordCount = (c'.files i).state.record.count := if_pos hrecord
    have hlength : (c'.files i).recordSize = (c'.files i).state.record.size := if_pos hrecord
    have hslots : (c'.files i).state.record.size = (c.files i).state.record.size :=
      congrArg Prod.fst h.slots
    refine ⟨hrecords.trans_lt (hcount.trans_lt (records_lt hpool hi hsize hfit)), ?_⟩
    show (c'.files i).recordCount * (c'.files i).recordSize ≤ (c'.filePool.read _ _).length
    rw [hrecords, hlength, hslots, Mem.length_read, h.dataLen]
    exact (Nat.mul_le_mul_right _ hcount).trans hfit
  · exact fits_of_empty (if_neg hrecord)

/-- The place of a new record is free, and the records that move stay in the slice. -/
theorem appendRecordSlot_sliceWrite (hrecord : dfcFileTypeIsRecord (c.files i).type = true)
    (hslots : dfcEmulatorRecordUsableCapacity (c.files i) * (c.files i).state.record.size ≤
      (c.files i).dataLen)
    (hcapacity : dfcEmulatorRecordUsableCapacity (c.files i) ≠ 0)
    (hfull : (c.files i).type = dfcFileTypeLinearRecord →
      (c.files i).state.record.count < dfcEmulatorRecordUsableCapacity (c.files i)) :
    SliceWrite c (appendRecordSlot c i (c.files i).dataOffset).1 i ∧
      (appendRecordSlot c i (c.files i).dataOffset).2 <
        dfcEmulatorRecordUsableCapacity (c.files i) ∧
      ((appendRecordSlot c i (c.files i).dataOffset).1.files i).state.record.count ≤
        dfcEmulatorRecordUsableCapacity (c.files i) := by
  have hset (count : ℕ) : SliceWrite c (c.modifyFile i fun file =>
      file.withRecord { (c.files i).state.record with count := count }) i :=
    .modifyFile c i rfl ⟨rfl, rfl⟩ rfl
  unfold appendRecordSlot
  dsimp only
  split_ifs with hturn
  · have hlast := record_in_slice (Nat.sub_lt (Nat.pos_of_ne_zero hcapacity) one_pos) hslots
      (Nat.zero_add (c.files i).state.record.size).le
    refine ⟨(hset _).withPool fun a ha => ?_, by omega, ?_⟩
    · rw [Mem.fill_apply_of_out (by omega), Mem.move_apply_of_out (by omega)]
    · rw [modifyFile_files, if_pos rfl]
      exact le_rfl
  · have hroom : (c.files i).state.record.count < dfcEmulatorRecordUsableCapacity (c.files i) := by
      by_cases hcyclic : (c.files i).type = dfcFileTypeCyclicRecord
      · exact not_le.mp fun hno => hturn ⟨hcyclic, hno⟩
      · simp only [dfcFileTypeIsRecord, Bool.or_eq_true, beq_iff_eq] at hrecord
        exact hfull (hrecord.resolve_right hcyclic)
    have hlast := record_in_slice hroom hslots (Nat.zero_add (c.files i).state.record.size).le
    refine ⟨(hset _).withPool fun a ha => ?_, hroom, ?_⟩
    · rw [Mem.fill_apply_of_out (by omega)]
    · rw [modifyFile_files, if_pos rfl]
      exact hroom

theorem usableCapacity_linear {file : DfcFile} (h : file.type = dfcFileTypeLinearRecord) :
    dfcEmulatorRecordUsableCapacity file = file.state.record.maxRecords := by
  unfold dfcEmulatorRecordUsableCapacity
  rw [h]
  exact if_neg (by decide)

/-- The journal is open for a record file, as the record commands have it. -/
theorem Opened.of_record {op : TransactionMacOperation} {number : UInt8} {allocationFails : Bool}
    (h : StoreSound e)
    (hfind : dfcCredentialFindFileInApp e.credential e.selectedAppIndex number = some i)
    (hrecord : dfcFileTypeIsRecord (e.credential.files i).type = true)
    (hopen : openJournal e allocationFails i = (opened, true))
    (htaken : MacTaken aes op opened recorded) :
    Opened e recorded i ∧ recorded.credential = e.credential := by
  have hi := find_lt hfind
  refine ⟨?_, by rw [htaken.credential, openJournal_frame hopen]⟩
  have hdata : transactionFileHasData (e.credential.files i) = true := by
    rw [transactionFileHasData, hrecord, Bool.or_true]
  obtain ⟨-, hfalse⟩ | ⟨-, hopened⟩ := Opened.of_open h.sound
    ⟨hi, find_appIndex hfind, hdata, h.recordCount hi⟩ hopen
  · cases hfalse
  · exact hopened.taken htaken

theorem writeRecord_movesTo (h : StoreSound e)
    (hok : dfcEmulatorCommandWriteRecord aes e env apdu = .ok (e', payload)) : MovesTo e e' := by
  obtain ⟨i, start, clear, opened, recorded, hfind, hrecord, hconsistent, -, -, hrange, hcapacity,
    hstart, hopen, hoperation, hfull, htaken, rfl, -⟩ := writeRecord_ok hok
  have hi := find_lt hfind
  obtain ⟨rfl, -, -⟩ := dfcFileData_bound hstart
  obtain ⟨hopened, hcredential⟩ := Opened.of_record h hfind hrecord hopen htaken
  obtain ⟨hsize, hcount, hfit⟩ := recordStorage_consistent hconsistent
  have hslots := (Nat.mul_le_mul_right (e.credential.files i).state.record.size
    (usableCapacity_le (e.credential.files i))).trans hfit
  rw [← hcredential] at hsize hfit hrecord hcapacity hfull hcount hrange hslots ⊢
  unfold storeRecord
  dsimp only
  by_cases hagain : (recorded.snapshot.entry i).recordOperation = .write
  · rw [if_pos hagain]
    have hnumber := ((hopened.sound.journal hopened.active).slots i hopened.covered).record hagain
    rw [entry_of_lt hopened.sound.settled hopened.covered.lt] at hnumber
    have hplace := record_in_slice hnumber hslots hrange
    have hstaged := Staged.of_write hopened ((SliceWrite.writeFileData recorded.credential (i := i)
      ((recorded.credential.files i).dataOffset + (recorded.snapshot.entries i).recordNumber *
        (recorded.credential.files i).state.record.size + readUint24Le apdu 2) clear
      (by omega) (by omega)).trans (.setPending _ i))
      (by rw [DfcCredential.setPending, modifyFile_files, if_pos rfl])
    refine hstaged.movesTo hopened (hstaged.write.fits hopened.sound.files hopened.covered.lt
      hsize hfit ?_)
    dsimp only [DfcCredential.setPending]
    rw [modifyFile_files, if_pos rfl]
    exact hcount
  · rw [if_neg hagain]
    have hfirst : (opened.snapshot.entry i).recordOperation = .none := by
      rw [← htaken.snapshot]
      exact (htaken.snapshot ▸ hoperation).resolve_right hagain
    obtain ⟨hslot, hindex, hlast⟩ :=
      appendRecordSlot_sliceWrite hrecord hslots hcapacity fun hlinear => by
        rw [usableCapacity_linear hlinear]
        exact hfull hfirst hlinear
    cases happend : appendRecordSlot recorded.credential i
        (recorded.credential.files i).dataOffset with
    | mk c index =>
      rw [happend] at hslot hindex hlast
      dsimp only at hslot hindex hlast
      have hplace := record_in_slice hindex hslots hrange
      rw [← hslot.dataLen] at hplace
      have hwrite := hslot.trans ((SliceWrite.writeFileData c (i := i)
        ((recorded.credential.files i).dataOffset +
          index * (recorded.credential.files i).state.record.size + readUint24Le apdu 2) clear
        (by rw [hslot.dataOffset]; omega) (by rw [hslot.dataOffset]; omega)).trans
        (.setPending _ i))
      have hstaged := Staged.of_record .write index hopened hwrite
        (by rw [DfcCredential.setPending, modifyFile_files, if_pos rfl]) fun _ => hindex
      refine hstaged.movesTo hopened (hstaged.write.fits hopened.sound.files hopened.covered.lt
        hsize hslots ?_)
      rw [setRecordOperation_credential]
      dsimp only [DfcCredential.setPending]
      rw [modifyFile_files, if_pos rfl]
      exact hlast

theorem updateRecord_movesTo (h : StoreSound e)
    (hok : dfcEmulatorCommandUpdateRecord aes e env apdu = .ok (e', payload)) : MovesTo e e' := by
  obtain ⟨i, start, clear, opened, recorded, hfind, hrecord, hconsistent, hnumber, -, -, hrange,
    hstart, hopen, -, htaken, rfl, -⟩ := updateRecord_ok hok
  have hi := find_lt hfind
  obtain ⟨rfl, -, -⟩ := dfcFileData_bound hstart
  obtain ⟨hopened, hcredential⟩ := Opened.of_record h hfind hrecord hopen htaken
  obtain ⟨hsize, hcount, hfit⟩ := recordStorage_consistent hconsistent
  have hindex : (e.credential.files i).state.record.count - readUint24Le apdu 2 - 1 <
      (e.credential.files i).state.record.maxRecords := by omega
  have hplace := record_in_slice hindex hfit hrange
  have hwrite : SliceWrite recorded.credential ((recorded.credential.writeFileData
      ((e.credential.files i).dataOffset + ((e.credential.files i).state.record.count -
        readUint24Le apdu 2 - 1) * (e.credential.files i).state.record.size +
          readUint24Le apdu 5) clear).setPending i) i := by
    rw [hcredential]
    exact (SliceWrite.writeFileData _ _ _ (by omega) (by omega)).trans (.setPending _ i)
  have hstaged := Staged.of_record .update (readUint24Le apdu 2) hopened hwrite
    (by rw [DfcCredential.setPending, modifyFile_files, if_pos rfl]) fun hno => by cases hno
  refine hstaged.movesTo hopened (hstaged.write.fits hopened.sound.files hopened.covered.lt
    (hcredential ▸ hsize) (hcredential ▸ hfit) ?_)
  rw [setRecordOperation_credential, hcredential]
  dsimp only [DfcCredential.setPending]
  rw [modifyFile_files, if_pos rfl]
  exact hcount

theorem clearRecordFile_movesTo (h : StoreSound e)
    (hok : dfcEmulatorCommandClearRecordFile aes e env apdu = .ok (e', payload)) :
    MovesTo e e' := by
  obtain ⟨i, opened, recorded, hfind, hrecord, -, hopen, -, htaken, rfl, -⟩ :=
    clearRecordFile_ok hok
  obtain ⟨hopened, -⟩ := Opened.of_record h hfind hrecord hopen htaken
  have hwrite : SliceWrite recorded.credential ((recorded.credential.modifyFile i fun file =>
      file.withRecord { file.state.record with count := 0 }).setPending i) i :=
    (SliceWrite.modifyFile _ i (f := fun file =>
      file.withRecord { file.state.record with count := 0 }) rfl ⟨rfl, rfl⟩ rfl).trans
      (.setPending _ i)
  have hstaged := Staged.of_record .clear 0 hopened hwrite
    (by rw [DfcCredential.setPending, modifyFile_files, if_pos rfl]) fun hno => by cases hno
  refine hstaged.movesTo hopened (fits_of_empty ?_)
  rw [setRecordOperation_credential]
  dsimp only [DfcCredential.setPending]
  rw [modifyFile_files, if_pos rfl, modifyFile_files, if_pos rfl]
  exact ite_self _

/-- An accepted commit publishes everything, and closes the journal. -/
theorem commit_store (h : JournalSound e)
    (hok : commitTransaction aes e env apdu = .ok (e', payload)) :
    JournalSound e' ∧ storeOf e' = (storeOf e).map Cell.commit ∧ e'.snapshot.active = false := by
  obtain ⟨hsound, hstore, hidle⟩ := h.publish
  obtain ⟨-, ⟨-, rfl, -⟩ | ⟨i, mac, counter, -, -, rfl, -⟩⟩ := commitTransaction_ok hok
  · exact ⟨hsound, hstore, hidle⟩
  · have hframe : StoreFrame (dfcEmulatorPublishTransaction e)
        ((dfcEmulatorPublishTransaction e).storeTransactionCounter i e.transactionReaderIdPersist
          e.transactionPendingReaderId counter) :=
      .modifyFile _ i (f := fun file => file.withTransactionMac _) (fun _ => rfl) fun _ => rfl
    obtain ⟨hfinal, hsame⟩ := hframe.sound hsound
    exact ⟨hfinal, hsame.trans hstore, hidle⟩

/-- The deletion of a file takes its cell away, whether or not the transaction ends with it. -/
theorem deleteFile_keptFrom (h : StoreSound e)
    (hok : dfcEmulatorCommandDeleteFile e apdu = .ok (e', payload)) :
    ∃ i, dfcCredentialFindFileInApp e.credential e.selectedAppIndex (apdu.getD 1 0) = some i ∧
      KeptFrom (.left ((List.range e.credential.numFiles).eraseIdx i)) e e' := by
  obtain ⟨hsound, i, hfind, hstore⟩ := deleteFile_store h.sound hok
  refine ⟨i, hfind, ?_⟩
  obtain ⟨f, hf, herased⟩ : ∃ f : Cell FileKey Contents → Cell FileKey Contents,
      (f = id ∨ f = Cell.rollback) ∧ storeOf e' = ((storeOf e).map f).eraseIdx i := by
    obtain hsame | hback := hstore
    · exact ⟨id, .inl rfl, by rw [hsame, List.map_id]⟩
    · exact ⟨Cell.rollback, .inr rfl, hback⟩
  have hcell (x : Cell FileKey Contents) : (f x).key = x.key ∧ (f x).committed = x.committed ∧
      (x.Holds Contents.Fits → (f x).Holds Contents.Fits) := by
    obtain rfl | rfl := hf
    · exact ⟨rfl, rfl, id⟩
    · exact ⟨rfl, rfl, fun hx => ⟨hx.1, by simp [Cell.rollback]⟩⟩
  refine ⟨⟨hsound, fun x hx => ?_⟩, ?_, fun j k hplace => ?_⟩
  · rw [herased] at hx
    obtain ⟨y, hy, rfl⟩ := List.mem_map.mp (List.mem_of_mem_eraseIdx hx)
    exact (hcell y).2.2 (h.fits y hy)
  · rw [herased, ← storeOf_length]
    exact .eraseIdx (fun x => (hcell x).1) (fun x => (hcell x).2.1) _ i
  · obtain ⟨hj, -⟩ := List.getElem?_eq_some_iff.mp hplace
    have hcount := congrArg List.length herased
    rw [storeOf_length, List.length_eraseIdx, List.length_map, storeOf_length] at hcount
    rw [List.length_eraseIdx, List.length_range] at hj
    omega

/-- Every accepted command but a commit and the deletion of a file moves the store in place,
without committing anything. -/
theorem accepted_movesTo (h : StoreSound e)
    (hdispatch : dispatchFileCommand aes e env apdu = some (.ok (e', payload)))
    (hcommit : dfcFileCommandBase (apdu.getD 0 0) ≠ dfcCmdCommitTransaction)
    (hdelete : dfcFileCommandBase (apdu.getD 0 0) ≠ dfcCmdDeleteFile) : MovesTo e e' := by
  have hstart := MovesTo.refl h.sound
  cases dispatchFileCommand_ok hdispatch with
  | readData _ hok => exact hstart.frame (readData_storeFrame hok)
  | writeData _ hok => exact writeData_movesTo h hok
  | readRecords _ hok =>
    obtain ⟨i, count, e₁, -, -, -, -, -, -, -, -, -, htaken, rfl⟩ := readRecords_ok hok
    exact hstart.frame (htaken.storeFrame.trans (.clearPendingChain e₁))
  | writeRecord _ hok => exact writeRecord_movesTo h hok
  | updateRecord _ hok => exact updateRecord_movesTo h hok
  | clearRecordFile _ hok => exact clearRecordFile_movesTo h hok
  | getValue _ hok =>
    obtain ⟨i, -, -, -, htaken⟩ := getValue_ok hok
    exact hstart.frame htaken.storeFrame
  | valueDelta _ hok => exact hstart.frame (valueDelta_storeFrame hok)
  | commit hcmd _ => exact absurd hcmd hcommit
  | commitReaderId _ hok =>
    obtain ⟨readerId, tmac, recorded, -, -, -, htaken, rfl⟩ := commitReaderId_ok hok
    exact hstart.frame (htaken.storeFrame.trans (.of_eq rfl rfl rfl))
  | abort _ hok =>
    have haborted := hstart.abort
    rwa [(abortTransaction_ok hok).1] at haborted
  | deleteFile hcmd _ => exact absurd hcmd hdelete
  | createTransactionMacFile _ hok =>
    exact hstart.abort.blankAdded (createTransactionMacFile_blankAdded h.sound hok)
  | create _ hcmd _ =>
    obtain ⟨type, a, hcreation, heq⟩ : ∃ type a, FileCreation e apdu type a ∧
        dispatchFileCommand aes e env apdu = some (.ofAnswer a) := dispatchFileCommand_creation hcmd
    rw [heq] at hdispatch
    rw [Handled.ofAnswer_ok (Option.some.inj hdispatch)]
    exact hstart.blankAdded (hcreation.creationAnswer h.sound).added
  | settings _ heq =>
    rw [heq]
    exact hstart

/-- The store is as it was, or the transaction is rolled back. -/
structure Dropped (e e' : DfcEmulator) : Prop where
  sound : JournalSound e'
  store : storeOf e' = storeOf e ∨ storeOf e' = (storeOf e).map Cell.rollback

theorem Dropped.refl (h : JournalSound e) : Dropped e e := ⟨h, .inl rfl⟩

theorem Dropped.frame {e₁ : DfcEmulator} (h : Dropped e e₁) (hframe : StoreFrame e₁ e') :
    Dropped e e' := by
  obtain ⟨hsound, hstore⟩ := hframe.sound h.sound
  refine ⟨hsound, ?_⟩
  rw [hstore]
  exact h.store

/-- Rolling back twice is rolling back once. -/
theorem Dropped.rollback {e₁ : DfcEmulator} (h : Dropped e e₁) (hsound : JournalSound e')
    (hstore : storeOf e' = (storeOf e₁).map Cell.rollback) :
    storeOf e' = (storeOf e).map Cell.rollback ∧ Dropped e e' := by
  have hrolled : storeOf e' = (storeOf e).map Cell.rollback := by
    obtain hsame | hback := h.store
    · rw [hstore, hsame]
    · rw [hstore, hback, List.map_map]
      rfl
  exact ⟨hrolled, hsound, .inr hrolled⟩

theorem Dropped.abort {e₁ : DfcEmulator} (h : Dropped e e₁) :
    Dropped e (dfcEmulatorAbortTransaction e₁).1 :=
  (h.rollback h.sound.abort.1 h.sound.abort.2).2

theorem Dropped.reset {e₁ : DfcEmulator} (h : Dropped e e₁) :
    Dropped e (dfcEmulatorResetSession e₁) := h.abort.frame (.of_eq rfl rfl rfl)

theorem Dropped.select {e₁ : DfcEmulator} (h : Dropped e e₁)
    (selection : DfcEmulatorSelectedApplication) (appIndex : ℕ) :
    Dropped e (dfcEmulatorSelectApplication e₁ selection appIndex) := by
  have hreset := h.reset
  have hidle : (dfcEmulatorSelectApplication e₁ selection appIndex).snapshot.active = false :=
    abortSnapshot_inactive _
  exact ⟨.of_idle (h.sound.settled.selectApplication selection appIndex) hreset.sound.files
    hreset.sound.apps hidle, hreset.store⟩

theorem Dropped.movesTo (h : Dropped e e') : MovesTo e e' := by
  refine ⟨h.sound, ?_⟩
  obtain hsame | hback := h.store
  · rw [hsame]
    exact .refl
  · rw [hback]
    exact .single (.rollback _)

/-- What is done around a handler that refuses drops the transaction or leaves it alone. -/
theorem Dropped.finish {r : Refusal} (h : Dropped e r.emulator) (preserve : Bool) :
    Dropped e (finishCommand preserve (.error r)).1 := by
  dsimp only [finishCommand]
  split_ifs with hretry
  · exact h
  · have hanswered : Dropped e (applyEv1ErrorResponse r.emulator) := by
      obtain hended | hkept := applyEv1ErrorResponse_cases r.emulator
      · rw [hended]
        exact h.reset
      · rw [hkept]
        exact h
    have hended : Dropped e (if preserve then applyEv1ErrorResponse r.emulator
        else (dfcEmulatorAbortTransaction (applyEv1ErrorResponse r.emulator)).1) := by
      split_ifs
      · exact hanswered
      · exact hanswered.abort
    obtain hfinal | hfinal := finalizeNativeCommand_cases (applyEv1ErrorResponse r.emulator)
      preserve
    · rw [hfinal]
      exact hended
    · rw [hfinal]
      exact hended.frame (.of_eq rfl rfl rfl)

/-- The files are the same, whatever became of their contents. -/
theorem Dropped.numFiles (h : Dropped e e') : e'.credential.numFiles = e.credential.numFiles := by
  rw [← storeOf_length, ← storeOf_length]
  obtain hsame | hback := h.store
  · rw [hsame]
  · rw [hback, List.length_map]

/-- What is committed to a file is committed still. -/
theorem Dropped.cell (h : Dropped e e') (hi : i < e.credential.numFiles) :
    (e'.credential.files i).key = (e.credential.files i).key ∧
      committedContents e' i = committedContents e i := by
  have hcells : (storeOf e').map (fun x => (x.key, x.committed)) =
      (storeOf e).map fun x => (x.key, x.committed) := by
    obtain hsame | hback := h.store
    · rw [hsame]
    · rw [hback, List.map_map]
      rfl
  have hcell := congrArg (fun cells => cells[i]?) hcells
  simp only [List.getElem?_map, storeOf_getElem?, if_pos hi, if_pos (h.numFiles ▸ hi),
    Option.map_some, Option.some.injEq] at hcell
  exact Prod.mk.inj hcell

theorem Dropped.appIndex (h : Dropped e e') (hi : i < e.credential.numFiles) :
    (e'.credential.files i).appIndex = (e.credential.files i).appIndex :=
  congrArg FileKey.owner (h.cell hi).1

theorem Dropped.recordSize (h : Dropped e e') (hi : i < e.credential.numFiles) :
    (e'.credential.files i).recordSize = (e.credential.files i).recordSize := by
  rw [← committedContents_size, ← committedContents_size, (h.cell hi).2]

/-- Whatever ends the transaction commits nothing. -/
theorem Dropped.keptFrom (h : Dropped e e') (hsound : StoreSound e) :
    KeptFrom (.stay e.credential.numFiles) e e' := h.movesTo.keptFrom hsound

end DfcCore
