import DfcCore.Directory
import DfcCore.DerLoadFiles

/-!
# What a reader creates and what it finds

The encoders, the card's handlers, the card's answers and the decoders put together: a
reader encodes a creation, the card answers success, and the reader looks for what it
created. The encoders of CreateApplication and DeleteApplication send an identifier in the
order they are given, the one of SelectApplication turns it round, so an application is
found again exactly when its identifier reads the same both ways. A value file is found
again exactly when its limited credit octet has no bit above the two that the decoder of
the settings knows.
-/
namespace DfcCore
open Der

/-- The file array with one more record at the end. -/
structure FileAdded (c c' : DfcCredential) (appIndex : ℕ) (file : DfcFile) : Prop where
  app : appIndex < c.numApps
  room : c.numFiles < dfcMaxFiles
  fresh : dfcCredentialFindFileInApp c appIndex file.number = none
  numFiles : c'.numFiles = c.numFiles + 1
  kept : ∀ j < c.numFiles, c'.files j = c.files j
  record : c'.files c.numFiles = file
  owner : file.appIndex = u8 appIndex

/-- The record `dfc_credential_create_file` starts a file with. -/
def freshFile (appIndex : ℕ) (number : UInt8) : DfcFile :=
  { appIndex := u8 appIndex, number := number, dataOffset := dfcFilePoolNone }

theorem createFile_added {c c' : DfcCredential} {appIndex i : ℕ} {number : UInt8}
    (h : dfcCredentialCreateFile c appIndex number = (c', some i)) :
    i = c.numFiles ∧ FileAdded c c' appIndex (freshFile appIndex number) := by
  rw [dfcCredentialCreateFile] at h
  by_cases happ : c.numApps ≤ appIndex
  · rw [if_pos happ] at h
    cases h
  rw [if_neg happ] at h
  by_cases hfull : dfcMaxFiles ≤ c.numFiles
  · rw [if_pos hfull] at h
    cases h
  rw [if_neg hfull] at h
  by_cases hdup : (dfcCredentialFindFileInApp c appIndex number).isSome = true
  · rw [if_pos hdup] at h
    cases h
  rw [if_neg hdup] at h
  simp only [Prod.mk.injEq, Option.some.injEq] at h
  obtain ⟨rfl, rfl⟩ := h
  refine ⟨rfl, not_le.mp happ, not_le.mp hfull, by simpa [freshFile] using hdup, rfl,
    fun j hj => ?_, ?_, rfl⟩
  · exact Function.update_of_ne hj.ne _ _
  · exact Function.update_self _ _ _

/-- The new record is then rewritten in place. -/
theorem FileAdded.modifyFile {c c' : DfcCredential} {appIndex : ℕ} {file : DfcFile}
    (h : FileAdded c c' appIndex file) {f : DfcFile → DfcFile}
    (howner : (f file).appIndex = file.appIndex) (hnumber : (f file).number = file.number) :
    FileAdded c (c'.modifyFile c.numFiles f) appIndex (f file) where
  app := h.app
  room := h.room
  fresh := by rw [hnumber, h.fresh]
  numFiles := h.numFiles
  kept j hj := by rw [modifyFile_files, if_neg hj.ne, h.kept j hj]
  record := by rw [modifyFile_files, if_pos rfl, h.record]
  owner := by rw [howner, h.owner]

/-- The new file is the one its number names. -/
theorem FileAdded.find {c c' : DfcCredential} {appIndex : ℕ} {file : DfcFile}
    (h : FileAdded c c' appIndex file) (hmax : c.numApps ≤ dfcMaxApps) :
    dfcCredentialFindFileInApp c' appIndex file.number = some c.numFiles := by
  have hold := List.find?_range_eq_none.mp h.fresh
  have happ := h.app
  refine List.find?_range_eq_some.mpr ⟨?_, ?_, fun j hj => ?_⟩
  · simp only [dfcMaxApps] at hmax
    rw [h.record, h.owner, u8_of_lt (by omega)]
    simp
  · simp [h.numFiles]
  · rw [h.kept j hj]
    exact hold j hj

/-- A fresh record gets its slice. -/
theorem FileAdded.resize {c c' d : DfcCredential} {appIndex n : ℕ} {file : DfcFile}
    (h : FileAdded c c' appIndex file) (hslice : NoSlice file)
    (hr : dfcFileResize c' c.numFiles n = (d, true)) :
    ∃ offset, FileAdded c d appIndex { file with dataOffset := offset, dataLen := n } := by
  have hmax : dfcMaxFileData = 2048 := rfl
  have hno : NoSlice (c'.files c.numFiles) := by
    rw [h.record]
    exact hslice
  obtain ⟨hfit, rfl⟩ := (dfcFileResize_noSlice hno).mp hr
  rw [dfcFileCutSlice]
  by_cases hn : n = 0
  · rw [if_pos hn, hn]
    exact ⟨_, h.modifyFile (f := DfcFile.dropSlice) rfl rfl⟩
  · have hcut := h.modifyFile (f := fun file =>
      { file with dataOffset := u16 c'.filePoolUsed, dataLen := u16 n }) rfl rfl
    have hlen : u16 n = n := u16_of_lt (by have := hfit.1; omega)
    rw [if_neg hn]
    refine ⟨u16 c'.filePoolUsed, hcut.app, hcut.room, hcut.fresh, hcut.numFiles, hcut.kept, ?_,
      hcut.owner⟩
    have hrecord := hcut.record
    simp only [hlen] at hrecord ⊢
    exact hrecord

theorem FileAdded.setDataSize {c c' d : DfcCredential} {appIndex n : ℕ} {file : DfcFile}
    (h : FileAdded c c' appIndex file) (hslice : NoSlice file)
    (hs : dfcFileSetDataSize c' c.numFiles n = (d, true)) :
    ∃ offset, FileAdded c d appIndex
      { ({ file with dataOffset := offset, dataLen := n }.withData
          { file.state.data with declaredSize := n }) with contentsComplete := true } := by
  rw [dfcFileSetDataSize] at hs
  by_cases hdata : (!dfcFileTypeIsData (c'.files c.numFiles).type) = true
  · rw [if_pos hdata] at hs
    cases hs
  rw [if_neg hdata] at hs
  cases hz : dfcFileResize c' c.numFiles n with
  | mk d' ok =>
    rw [hz] at hs
    cases ok with
    | false => cases hs
    | true =>
      obtain ⟨offset, hsized⟩ := h.resize hslice hz
      rw [h.record] at hdata
      simp only [hsized.record, dfcFileSetDeclaredSize, if_neg hdata] at hs
      obtain rfl := congrArg Prod.fst hs
      exact ⟨offset, hsized.modifyFile (f := fun _ => _) rfl rfl⟩

/-- A create command added the file, and an open transaction knows it as new. -/
structure FileCreated (e e' : DfcEmulator) (file : DfcFile) : Prop where
  added : FileAdded e.credential e'.credential e.selectedAppIndex file
  journal : e'.snapshot.active = true →
    e'.snapshot.entries e.credential.numFiles =
      { created := file.appIndex == e'.snapshot.appIndex && transactionFileHasData file }

/-- The settings of a file are those the command sent. -/
structure NewFile.Installed (new : NewFile) (file : DfcFile) : Prop where
  number : file.number = new.number
  type : file.type = new.type
  commSettings : file.commSettings = new.commSettings
  accessRights : file.accessRights = new.accessRights

theorem FileAdded.publish {e e' : DfcEmulator} {c : DfcCredential} {file : DfcFile}
    (h : FileAdded e.credential c e.selectedAppIndex file)
    (hp : publishCreatedFile { e with credential := c } e.credential.numFiles =
      (e', [dfcStatusOk])) : FileCreated e e' file := by
  have hnum := h.numFiles
  rw [publishCreatedFile, dfcEmulatorTransactionSnapshotInsertFile] at hp
  by_cases hactive : e.snapshot.active = false
  · rw [if_pos hactive] at hp
    simp only [dfcEmulatorTransactionSnapshotNotePersistentChange, hactive] at hp
    obtain rfl := congrArg Prod.fst hp
    refine ⟨⟨h.app, h.room, h.fresh, h.numFiles, h.kept, h.record, h.owner⟩, fun hact => ?_⟩
    have hclosed : e.snapshot.active = true := hact
    rw [hactive] at hclosed
    cases hclosed
  · rw [if_neg hactive, if_neg (by simp only; omega)] at hp
    rw [Bool.not_eq_false] at hactive
    simp only [dfcEmulatorTransactionSnapshotNotePersistentChange, hactive, if_true] at hp
    obtain rfl := congrArg Prod.fst hp
    refine ⟨⟨h.app, h.room, h.fresh, h.numFiles, h.kept, h.record, h.owner⟩, fun _ => ?_⟩
    simp [DfcEmulator.markDirty, DfcEmulator.mapCredential, h.record]

theorem installDataFile_ok {e e' : DfcEmulator} {new : NewFile} {size : ℕ}
    (h : installDataFile e new size = (e', [dfcStatusOk])) :
    ∃ file, FileCreated e e' file ∧ new.Installed file ∧ file.dataLen = size := by
  rw [installDataFile] at h
  cases hr : dfcCredentialCreateFile e.credential e.selectedAppIndex new.number with
  | mk c created =>
    rw [hr] at h
    cases created with
    | none =>
      have hstatus : [dfcStatusParameterError] = [dfcStatusOk] := congrArg Prod.snd h
      exact absurd hstatus (by decide)
    | some i =>
      obtain ⟨rfl, hadded⟩ := createFile_added hr
      have hinstalled := hadded.modifyFile (f := new.install) rfl rfl
      generalize hc' : c.modifyFile e.credential.numFiles new.install = c' at hinstalled
      dsimp only at h
      rw [hc'] at h
      cases hs : dfcFileSetDataSize c' e.credential.numFiles size with
      | mk d ok =>
        rw [hs] at h
        cases ok with
        | false =>
          have hstatus : [dfcStatusOutOfEeprom] = [dfcStatusOk] := congrArg Prod.snd h
          exact absurd hstatus (by decide)
        | true =>
          obtain ⟨offset, hfile⟩ := hinstalled.setDataSize ⟨rfl, rfl⟩ hs
          exact ⟨_, hfile.publish h, ⟨rfl, rfl, rfl, rfl⟩, rfl⟩

theorem installRecordFile_ok {e e' : DfcEmulator} {new : NewFile} {recordSize maxRecords : ℕ}
    (h : installRecordFile e new recordSize maxRecords = (e', [dfcStatusOk])) :
    ∃ file, FileCreated e e' file ∧ new.Installed file ∧
      file.state.record = { size := recordSize, maxRecords := maxRecords, count := 0 } := by
  rw [installRecordFile] at h
  cases hr : dfcCredentialCreateFile e.credential e.selectedAppIndex new.number with
  | mk c created =>
    rw [hr] at h
    cases created with
    | none =>
      have hstatus : [dfcStatusCountError] = [dfcStatusOk] := congrArg Prod.snd h
      exact absurd hstatus (by decide)
    | some i =>
      obtain ⟨rfl, hadded⟩ := createFile_added hr
      have hinstalled := hadded.modifyFile (f := fun file => (new.install file).withRecord
        { size := recordSize, maxRecords := maxRecords, count := 0 }) rfl rfl
      dsimp only at h hinstalled
      generalize c.modifyFile e.credential.numFiles (fun file => (new.install file).withRecord
        { size := recordSize, maxRecords := maxRecords, count := 0 }) = c' at hinstalled h
      cases hs : dfcFileResize c' e.credential.numFiles (recordSize * maxRecords) with
      | mk d ok =>
        rw [hs] at h
        cases ok with
        | false =>
          have hstatus : [dfcStatusOutOfEeprom] = [dfcStatusOk] := congrArg Prod.snd h
          exact absurd hstatus (by decide)
        | true =>
          obtain ⟨offset, hfile⟩ := hinstalled.resize ⟨rfl, rfl⟩ hs
          exact ⟨_, hfile.publish h, ⟨rfl, rfl, rfl, rfl⟩, rfl⟩

theorem installValueFile_ok {e e' : DfcEmulator} {new : NewFile}
    {lowerLimit upperLimit value : Int32} {limitedCredit : UInt8}
    (h : installValueFile e new lowerLimit upperLimit value limitedCredit =
      (e', [dfcStatusOk])) :
    ∃ file, FileCreated e e' file ∧ new.Installed file ∧
      file.state.value =
        { lowerLimit := lowerLimit, upperLimit := upperLimit, current := value,
          limitedCredit := limitedCredit } := by
  rw [installValueFile] at h
  cases hr : dfcCredentialCreateFile e.credential e.selectedAppIndex new.number with
  | mk c created =>
    rw [hr] at h
    cases created with
    | none =>
      have hstatus : [dfcStatusParameterError] = [dfcStatusOk] := congrArg Prod.snd h
      exact absurd hstatus (by decide)
    | some i =>
      obtain ⟨rfl, hadded⟩ := createFile_added hr
      have hinstalled := hadded.modifyFile (f := fun file => (new.install file).withValue
        { lowerLimit := lowerLimit, upperLimit := upperLimit, current := value,
          limitedCredit := limitedCredit }) rfl rfl
      exact ⟨_, hinstalled.publish h, ⟨rfl, rfl, rfl, rfl⟩, rfl⟩

theorem ofNat_leValue_leOctets (x : UInt16) :
    UInt16.ofNat (leValue (leOctets 2 x.toNat)) = x := by
  rw [leValue_leOctets_of_lt (UInt16.toNat_lt x)]
  exact UInt16.ofNat_toNat

theorem toInt32_leValue_leOctets (x : Int32) :
    (UInt32.ofNat (leValue (leOctets 4 x.toUInt32.toNat))).toInt32 = x := by
  rw [leValue_leOctets_of_lt (UInt32.toNat_lt _), UInt32.ofNat_toNat]
  rfl

/-- The card reads the settings the encoder wrote. -/
theorem wireNewFile_octets (ins type : UInt8) (head : DfcCommandFileHead) (rest : List UInt8) :
    wireNewFile (ins :: (head.octets ++ rest)) type head.isoFileId.isSome =
      { number := head.fileNo, type := type, commSettings := head.commSettings
        accessRights := head.accessRights, isoFileId := head.isoFileId } := by
  have hrights := ofNat_leValue_leOctets head.accessRights
  cases hid : head.isoFileId with
  | none =>
    simpa [wireNewFile, DfcCommandFileHead.octets, hid, leOctets] using hrights
  | some id =>
    have hiso := ofNat_leValue_leOctets id
    simpa [wireNewFile, DfcCommandFileHead.octets, hid, leOctets] using And.intro hrights hiso

theorem length_octets (head : DfcCommandFileHead) :
    head.octets.length = if head.isoFileId.isSome then 6 else 4 := by
  cases hid : head.isoFileId <;> simp [DfcCommandFileHead.octets, hid]

/-- What stands behind the settings. -/
theorem drop_octets (ins : UInt8) (head : DfcCommandFileHead) (rest : List UInt8) (k : ℕ) :
    (ins :: (head.octets ++ rest)).drop ((if head.isoFileId.isSome then 7 else 5) + k) =
      rest.drop k := by
  cases hid : head.isoFileId <;>
    simp [DfcCommandFileHead.octets, hid, leOctets, Nat.add_comm _ k]

theorem neverOk_fileNumber (e : DfcEmulator) (fileNumber : UInt8) :
    NeverOk (newFileNumberIsAvailable e fileNumber dfcStatusDuplicateError) :=
  .bind (.refuseIf (by decide)) fun _ => .refuseIf (by decide)

theorem neverOk_fileCount (e : DfcEmulator) : NeverOk (newFileCountIsAvailable e) :=
  .refuseIf (by decide)

theorem neverOk_fileIsoId (e : DfcEmulator) (isoFileId : Option UInt16) :
    NeverOk (isoFileId.elim (.ok ()) (newFileIsoIdIsAvailable e)) := by
  cases isoFileId with
  | none => exact .ok ()
  | some id => exact .bind (.refuseIf (by decide)) fun _ => .refuseIf (by decide)

/-- The card sets up the data file the encoder was given. -/
theorem createStdDataFile_ok {e e' : DfcEmulator} {ins fileType : UInt8}
    {head : DfcCommandFileHead} {size : ℕ} (hsize : size ≤ dfcCommandUint24Max)
    (h : dfcEmulatorCommandCreateStdDataFile e (ins :: (head.octets ++ leOctets 3 size)) fileType =
      (e', [dfcStatusOk])) :
    ∃ new : NewFile, new.number = head.fileNo ∧ new.type = fileType ∧
      new.commSettings = head.commSettings ∧ new.accessRights = head.accessRights ∧
      installDataFile e new size = (e', [dfcStatusOk]) := by
  have hok := DfcEmulator.answer_ok h (by
    refine .bind (.refuseIf (by decide)) fun _ => .bind (neverOk_selectedApplication e) fun _ => ?_
    refine .bind (neverOk_createDeleteAccess e) fun _ => .bind (.refuseIf (by decide)) fun _ => ?_
    refine .bind (neverOk_fileIsoId e _) fun _ => .bind (neverOk_fileNumber e _) fun _ => ?_
    refine .bind (neverOk_fileCount e) fun _ => .bind (.refuseIf (by decide)) fun _ => ?_
    refine .bind (.refuseIf (by decide)) fun _ => .bind (.refuseIf (by decide)) fun _ => ?_
    exact .bind (.refuseIf (by decide)) fun _ => .bind (.refuseIf (by decide)) fun _ => .ok _)
  have hiso : ((ins :: (head.octets ++ leOctets 3 size)).length == 10) =
      head.isoFileId.isSome := by
    cases hid : head.isoFileId <;> simp [length_octets, hid]
  have hread : leValue (((ins :: (head.octets ++ leOctets 3 size)).drop
      (if head.isoFileId.isSome then 7 else 5)).take 3) = size := by
    have hdrop := drop_octets ins head (leOctets 3 size) 0
    rw [Nat.add_zero, List.drop_zero] at hdrop
    rw [hdrop, List.take_of_length_le (by simp), leValue_leOctets_of_lt (by
      simp only [dfcCommandUint24Max] at hsize; omega)]
  simp only [bind_eq_ok, hiso, wireNewFile_octets, hread] at hok
  obtain ⟨-, -, -, -, -, -, -, -, -, -, -, -, -, -, -, -, -, -, -, -, -, -, -, -, hok⟩ := hok
  exact ⟨_, rfl, rfl, rfl, rfl, Except.ok.inj hok⟩

/-- The card sets up the record file the encoder was given. -/
theorem createRecordFile_ok {e e' : DfcEmulator} {ins fileType : UInt8}
    {head : DfcCommandFileHead} {recordSize maxRecords : ℕ}
    (hsize : recordSize ≤ dfcCommandUint24Max) (hmax : maxRecords ≤ dfcCommandUint24Max)
    (h : dfcEmulatorCommandCreateRecordFile e
      (ins :: (head.octets ++ (leOctets 3 recordSize ++ leOctets 3 maxRecords))) fileType =
      (e', [dfcStatusOk])) :
    ∃ new : NewFile, new.number = head.fileNo ∧ new.type = fileType ∧
      new.commSettings = head.commSettings ∧ new.accessRights = head.accessRights ∧
      installRecordFile e new recordSize maxRecords = (e', [dfcStatusOk]) := by
  have hok := DfcEmulator.answer_ok h (by
    refine .bind (neverOk_selectedApplication e) fun _ => ?_
    refine .bind (neverOk_createDeleteAccess e) fun _ => .bind (.refuseIf (by decide)) fun _ => ?_
    refine .bind (neverOk_fileNumber e _) fun _ => .bind (neverOk_fileIsoId e _) fun _ => ?_
    refine .bind (.refuseIf (by decide)) fun _ => .bind (.refuseIf (by decide)) fun _ => ?_
    exact .bind (neverOk_fileCount e) fun _ => .bind (.refuseIf (by decide)) fun _ => .ok _)
  generalize hrest : leOctets 3 recordSize ++ leOctets 3 maxRecords = rest at hok
  have hiso : ((ins :: (head.octets ++ rest)).length == 13) = head.isoFileId.isSome := by
    cases hid : head.isoFileId <;> simp [length_octets, hid, ← hrest]
  have hfirst : leValue (((ins :: (head.octets ++ rest)).drop
      (if head.isoFileId.isSome then 7 else 5)).take 3) = recordSize := by
    have hdrop := drop_octets ins head rest 0
    rw [Nat.add_zero, List.drop_zero] at hdrop
    rw [hdrop, ← hrest, List.take_left' (by simp), leValue_leOctets_of_lt (by
      simp only [dfcCommandUint24Max] at hsize; omega)]
  have hsecond : leValue (((ins :: (head.octets ++ rest)).drop
      (if head.isoFileId.isSome then 10 else 8)).take 3) = maxRecords := by
    have hdrop := drop_octets ins head rest 3
    have hoffset : (if head.isoFileId.isSome then 7 else 5) + 3 =
        if head.isoFileId.isSome then 10 else 8 := by split_ifs <;> rfl
    rw [hoffset] at hdrop
    rw [hdrop, ← hrest, List.drop_left' (by simp), List.take_of_length_le (by simp),
      leValue_leOctets_of_lt (by simp only [dfcCommandUint24Max] at hmax; omega)]
  simp only [bind_eq_ok, hiso, wireNewFile_octets, hfirst, hsecond] at hok
  obtain ⟨-, -, -, -, -, -, -, -, -, -, -, -, -, -, -, -, -, -, hok⟩ := hok
  exact ⟨_, rfl, rfl, rfl, rfl, Except.ok.inj hok⟩

theorem readInt32Le_leOctets (x : Int32) (rest : List UInt8) :
    readInt32Le (leOctets 4 x.toUInt32.toNat ++ rest) = x := by
  rw [readInt32Le, List.take_left' (by simp), toInt32_leValue_leOctets]

/-- A value file is set up with the limits and the value on the wire, in order. -/
theorem createValueFile_installs {e e' : DfcEmulator} {apdu : List UInt8}
    (h : dfcEmulatorCommandCreateValueFile e apdu = (e', [dfcStatusOk])) :
    ((readInt32Le (apdu.drop 5)).toInt ≤ (readInt32Le (apdu.drop 13)).toInt ∧
      (readInt32Le (apdu.drop 13)).toInt ≤ (readInt32Le (apdu.drop 9)).toInt) ∧
    installValueFile e (wireNewFile apdu dfcFileTypeValue false) (readInt32Le (apdu.drop 5))
      (readInt32Le (apdu.drop 9)) (readInt32Le (apdu.drop 13)) (apdu.getD 17 0) =
      (e', [dfcStatusOk]) := by
  have hok := DfcEmulator.answer_ok h (by
    refine .bind (.refuseIf (by decide)) fun _ => .bind (neverOk_selectedApplication e) fun _ => ?_
    refine .bind (neverOk_createDeleteAccess e) fun _ => .bind (neverOk_fileNumber e _) fun _ => ?_
    refine .bind (neverOk_fileCount e) fun _ => .bind (.refuseIf (by decide)) fun _ => ?_
    exact .bind (.refuseIf (by decide)) fun _ => .ok _)
  simp only [bind_eq_ok] at hok
  obtain ⟨-, -, -, -, -, -, -, -, -, -, _, hlimits, -, -, hok⟩ := hok
  rw [refuseIf_eq_ok, not_or, not_or, not_lt, not_lt, not_lt] at hlimits
  exact ⟨hlimits.2, Except.ok.inj hok⟩

/-- The card sets up the value file the encoder was given. -/
theorem createValueFile_ok {e e' : DfcEmulator} {file : DfcCommandValueFile}
    (h : dfcEmulatorCommandCreateValueFile e (dfcCmdCreateValueFile :: (file.head.octets ++
      (leOctets 4 file.lowerLimit.toUInt32.toNat ++ (leOctets 4 file.upperLimit.toUInt32.toNat ++
      (leOctets 4 file.value.toUInt32.toNat ++ [file.limitedCredit]))))) = (e', [dfcStatusOk])) :
    ∃ new : NewFile, new.number = file.fileNo ∧ new.type = dfcFileTypeValue ∧
      new.commSettings = file.commSettings ∧ new.accessRights = file.accessRights ∧
      installValueFile e new file.lowerLimit file.upperLimit file.value file.limitedCredit =
        (e', [dfcStatusOk]) := by
  obtain ⟨-, hok⟩ := createValueFile_installs h
  generalize hcredit : [file.limitedCredit] = credit at hok
  generalize hvalue : leOctets 4 file.value.toUInt32.toNat ++ credit = value at hok
  generalize hupper : leOctets 4 file.upperLimit.toUInt32.toNat ++ value = upper at hok
  generalize hlower : leOctets 4 file.lowerLimit.toUInt32.toNat ++ upper = rest at hok
  have hnew := wireNewFile_octets dfcCmdCreateValueFile dfcFileTypeValue file.head rest
  have hdrop (k : ℕ) : (dfcCmdCreateValueFile :: (file.head.octets ++ rest)).drop (5 + k) =
      rest.drop k := drop_octets dfcCmdCreateValueFile file.head rest k
  have hread₁ : readInt32Le ((dfcCmdCreateValueFile :: (file.head.octets ++ rest)).drop 5) =
      file.lowerLimit := by
    rw [hdrop 0, List.drop_zero, ← hlower, readInt32Le_leOctets]
  have hread₂ : readInt32Le ((dfcCmdCreateValueFile :: (file.head.octets ++ rest)).drop 9) =
      file.upperLimit := by
    rw [hdrop 4, ← hlower, List.drop_left' (by simp), ← hupper, readInt32Le_leOctets]
  have hread₃ : readInt32Le ((dfcCmdCreateValueFile :: (file.head.octets ++ rest)).drop 13) =
      file.value := by
    rw [hdrop 8, ← hlower, ← hupper, ← List.append_assoc, List.drop_left' (by simp), ← hvalue,
      readInt32Le_leOctets]
  have hread₄ : (dfcCmdCreateValueFile :: (file.head.octets ++ rest)).getD 17 0 =
      file.limitedCredit := by
    have hlast : rest.drop 12 = [file.limitedCredit] := by
      rw [← hlower, ← hupper, ← hvalue, ← hcredit]
      simp [leOctets]
    rw [List.getD_eq_getElem?_getD, ← List.head?_drop, hdrop 12, hlast]
    rfl
  simp only [hread₁, hread₂, hread₃, hread₄] at hok
  have hhead : file.head.isoFileId.isSome = false := rfl
  rw [hhead] at hnew
  rw [hnew] at hok
  exact ⟨_, rfl, rfl, rfl, rfl, hok⟩

/-- Plain, MAC or enciphered, with neither of the two flags. -/
def isPlainMode (commSettings : UInt8) : Bool :=
  commSettings == dfcCommPlain || commSettings == dfcCommMac || commSettings == dfcCommEnciphered

theorem isPlainMode_bits {commSettings : UInt8} (h : isPlainMode commSettings = true) :
    commSettings &&& ~~~dfcCommModeMask = 0 ∧ commSettings &&& dfcCommModeMask = commSettings ∧
      commSettings &&& dfcFileOptionAdditionalRights = 0 ∧
      (commSettings = 0x00 ∨ commSettings = 0x01 ∨ commSettings = 0x03) := by
  simp only [isPlainMode, Bool.or_eq_true, beq_iff_eq] at h
  obtain (rfl | rfl) | rfl := h <;> decide

/-- The settings a reader expects of a file with the given head. -/
def DfcCommandFileHead.settings (head : DfcCommandFileHead) (type : UInt8)
    (body : DfcResponseFileBody) : DfcResponseFileSettings where
  type := type
  communicationMode := head.commSettings
  accessRightsRaw := head.accessRights
  access := decodeAccessRights head.accessRights
  settings := body

/-- The decoder on an answer of the right length. -/
theorem decodeFileSettings_octets {type : UInt8} {head : DfcCommandFileHead} {tail : List UInt8}
    (hmode : isPlainMode head.commSettings = true)
    (hlen : settingsLength type = some (4 + tail.length)) :
    dfcResponseDecodeFileSettings
        (type :: head.commSettings :: (leOctets 2 head.accessRights.toNat ++ tail)) =
      (decodeFileBody type
        (type :: head.commSettings :: (leOctets 2 head.accessRights.toNat ++ tail))).map
        (head.settings type) := by
  obtain ⟨hflags, hmask, -, hknown⟩ := isPlainMode_bits hmode
  have hrights : UInt16.ofNat (leValue (((type :: head.commSettings ::
      (leOctets 2 head.accessRights.toNat ++ tail)).drop 2).take 2)) = head.accessRights := by
    simp only [List.drop_succ_cons, List.drop_zero]
    rw [List.take_left' (by simp), ofNat_leValue_leOctets]
  have hlength : (type :: head.commSettings ::
      (leOctets 2 head.accessRights.toNat ++ tail)).length = 4 + tail.length := by
    simp only [List.length_cons, List.length_append, length_leOctets]
    omega
  generalize hr : type :: head.commSettings :: (leOctets 2 head.accessRights.toNat ++ tail) =
    response at *
  have htype : response.getD 0 0 = type := by rw [← hr]; rfl
  have hcomm : response.getD 1 0 = head.commSettings := by rw [← hr]; rfl
  rw [dfcResponseDecodeFileSettings]
  simp only [htype, hcomm, hlen, hflags, hmask, hrights, hlength]
  rw [if_neg (by omega), if_neg (by simp), if_neg (by simp), if_neg (by tauto)]
  cases decodeFileBody type response with
  | error st => rfl
  | ok body => rfl

/-- A later moment: the card image and the open transaction are those the creation left,
the selection and the session are any. -/
structure Later (e' r : DfcEmulator) : Prop where
  credential : r.credential = e'.credential
  snapshot : r.snapshot = e'.snapshot

theorem getFileSettings_eq {r : DfcEmulator} {fileNo : UInt8} {i : ℕ}
    (happ : r.selectedApplication = .app) (haccess : requireDirectoryAccess r = .ok ())
    (hfind : dfcCredentialFindFileInApp r.credential r.selectedAppIndex fileNo = some i) :
    dfcEmulatorCommandGetFileSettings r [dfcCmdGetFileSettings, fileNo] =
      (r, dfcStatusOk :: fileSettingsOctets r i) := by
  have hfind' : dfcCredentialFindFileInApp r.credential r.selectedAppIndex
      ([dfcCmdGetFileSettings, fileNo].getD 1 0) = some i := hfind
  simp only [dfcEmulatorCommandGetFileSettings, requireSelectedApplication, haccess, happ,
    hfind', refuseIf]
  rfl

section created
variable {e e' r : DfcEmulator} {file : DfcFile} (h : FileCreated e e' file)
  (hlater : Later e' r)
include h hlater

/-- A new record file reports no records, inside a transaction and outside. -/
theorem FileCreated.reportedRecordCount (hcount : file.state.record.count = 0) :
    reportedRecordCount r e.credential.numFiles = 0 := by
  have hrecord : r.credential.files e.credential.numFiles = file := by
    rw [hlater.credential, h.added.record]
  have hjournal : r.snapshot.active = true → r.snapshot.entries e.credential.numFiles =
      { created := file.appIndex == r.snapshot.appIndex && transactionFileHasData file } := by
    rw [hlater.snapshot]
    exact h.journal
  have hnum : e.credential.numFiles < r.credential.numFiles := by
    rw [hlater.credential, h.added.numFiles]
    omega
  rw [DfcCore.reportedRecordCount]
  split_ifs with hopen
  · rw [dfcEmulatorTransactionSnapshotCommittedRecordCount]
    simp only [hrecord, hcount, not_le.mpr hnum, if_false]
    split_ifs with _ _ hcaptured
    · rfl
    · rfl
    · -- Only a captured entry has a count, and a new one is not captured.
      rw [DfcTransactionSnapshot.entry, hjournal hopen.1] at hcaptured
      split_ifs at hcaptured
    · rfl
  · rw [hrecord, hcount]

theorem FileCreated.find (hmax : e.credential.numApps ≤ dfcMaxApps)
    (hindex : r.selectedAppIndex = e.selectedAppIndex) :
    dfcCredentialFindFileInApp r.credential r.selectedAppIndex file.number =
      some e.credential.numFiles := by
  rw [hlater.credential, hindex]
  exact h.added.find hmax

end created

/-- Sends a command the encoder accepted. -/
def sendCommand (r : DfcEmulator) (encoded : Except DfcCommandError DfcCommand) : Option Answer :=
  encoded.toOption.bind fun command => dfcEmulatorDispatchLifecycle r (dfcCommandToFrame command)

/-- Asks for the directory, gathers its frames and decodes them. -/
def listApplications (r : DfcEmulator) : Option (List (List UInt8)) :=
  (sendCommand r dfcCommandGetApplicationIds).bind fun answer =>
    (gatherFrames (3 * dfcMaxApps) answer).bind fun payload =>
      (dfcResponseDecodeApplicationIds payload dfcMaxApps).toOption

/-- Asks for the settings of a file and decodes them. -/
def readFileSettings (r : DfcEmulator) (fileNo : UInt8) :
    Option (Except DfcResponseDecodeError DfcResponseFileSettings) :=
  (sendCommand r (dfcCommandGetFileSettings fileNo)).bind fun answer =>
    match answer.2 with
    | status :: payload =>
      if status = dfcStatusOk then some (dfcResponseDecodeFileSettings payload) else none
    | [] => none

/-- What a reader can ask a card to create. -/
inductive Creation where
  | application (app : DfcCommandCreateApplication)
  | standardDataFile (file : DfcCommandDataFile)
  | backupDataFile (file : DfcCommandDataFile)
  | recordFile (file : DfcCommandRecordFile)
  | valueFile (file : DfcCommandValueFile)

def Creation.encode : Creation → Except DfcCommandError DfcCommand
  | application app => dfcCommandCreateApplication app
  | standardDataFile file => dfcCommandCreateStandardDataFile file
  | backupDataFile file => dfcCommandCreateBackupDataFile file
  | recordFile file => dfcCommandCreateRecordFile file
  | valueFile file => dfcCommandCreateValueFile file

/-- The files are created plain, with a MAC or enciphered, and without SDM. -/
def Creation.isPlain : Creation → Bool
  | application _ => true
  | standardDataFile file => isPlainMode file.commSettings
  | backupDataFile file => isPlainMode file.commSettings
  | recordFile file => isPlainMode file.commSettings
  | valueFile file => isPlainMode file.commSettings

/-- The application the creation made, at index `created`, is listed, selected and deleted
under the identifier it was created with, and the deletion takes nothing else. -/
structure ApplicationFound (created : ℕ) (aid : Aid) (e' : DfcEmulator) : Prop where
  listed : ∀ r, Later e' r → r.selectedApplication = .picc → requireDirectoryAccess r = .ok () →
    ∃ ids, listApplications r = some ids ∧ aid.octets ∈ ids
  selected : ∀ r, Later e' r →
    ∃ r', sendCommand r (dfcCommandSelectApplication aid none) = some (r', [dfcStatusOk]) ∧
      r'.selectedApplication = .app ∧ r'.selectedAppIndex = created
  deleted : ∀ r, Later e' r → dfcEmulatorIsAuthenticatedAsMaster r = true →
    r.selectedApplication = .picc ∨ (r.selectedApplication = .app ∧ r.selectedAppIndex = created) →
    ∃ r', sendCommand r (dfcCommandDeleteApplication aid) = some (r', [dfcStatusOk]) ∧
      r'.credential.numApps = created ∧
      ∀ j < created, (r'.credential.apps j).unplaced = (e'.credential.apps j).unplaced

/-- The settings of the file decode to the given ones. -/
def FileFound (e e' : DfcEmulator) (fileNo : UInt8) (settings : DfcResponseFileSettings) : Prop :=
  ∀ r, Later e' r → r.selectedApplication = .app → r.selectedAppIndex = e.selectedAppIndex →
    requireDirectoryAccess r = .ok () → readFileSettings r fileNo = some (.ok settings)

def DfcCommandRecordFile.type (file : DfcCommandRecordFile) : UInt8 :=
  if file.cyclic then dfcFileTypeCyclicRecord else dfcFileTypeLinearRecord

/-- The reader finds what it created. -/
def Creation.FindsAgain (e e' : DfcEmulator) : Creation → Prop
  | application app => ApplicationFound e.credential.numApps app.aid e'
  | standardDataFile file =>
    FileFound e e' file.fileNo (file.settings dfcFileTypeStandardData (.data file.size))
  | backupDataFile file =>
    FileFound e e' file.fileNo (file.settings dfcFileTypeBackupData (.data file.size))
  | recordFile file =>
    FileFound e e' file.fileNo
    (file.settings file.type (.records file.recordSize file.maxRecords 0))
  | valueFile file =>
    FileFound e e' file.fileNo (file.head.settings dfcFileTypeValue
      (.value file.lowerLimit file.upperLimit 0 file.limitedCredit
        (file.limitedCredit &&& 0x01 != 0)))

/-- An identifier that reads the same both ways, a limited credit octet of two bits. -/
def Creation.survives : Creation → Bool
  | application app => app.aid.first == app.aid.last
  | valueFile file => decide (file.limitedCredit ≤ 3)
  | _ => true

theorem sendCommand_eq_some {r : DfcEmulator} {encoded : Except DfcCommandError DfcCommand}
    {answer : Answer} (h : sendCommand r encoded = some answer) :
    ∃ command, encoded = .ok command ∧
      dfcEmulatorDispatchLifecycle r (command.ins :: command.data) = some answer := by
  cases encoded with
  | error st => cases h
  | ok command => exact ⟨command, rfl, h⟩

section application
variable {c : DfcCredential} {e' r : DfcEmulator} {aid : Aid} {wire : Mem}
  (hgrown : DirectoryGrown c e'.credential wire) (h0 : wire 0 = aid.first)
  (h1 : wire 1 = aid.middle) (h2 : wire 2 = aid.last) (hlater : Later e' r)
include hgrown h0 h1 h2 hlater

/-- The listing shows the identifier turned round. -/
theorem listApplications_created (hroom : c.numApps < dfcMaxApps)
    (hpicc : r.selectedApplication = .picc) (haccess : requireDirectoryAccess r = .ok ()) :
    ∃ ids, listApplications r = some ids ∧ [aid.last, aid.middle, aid.first] ∈ ids := by
  have hnum : r.credential.numApps = c.numApps + 1 := by rw [hlater.credential, hgrown.numApps]
  have hlen := length_applicationIds r.credential
  have hframe : 0 < ev1FramePayload r 3 := by
    unfold ev1FramePayload
    split_ifs <;> decide
  have hgather := gatherFrames_emit r (applicationIds r.credential) (3 * dfcMaxApps) hframe
    (by simp only [dfcEmulatorChainBufferSize, dfcMaxFileData, dfcMaxApps] at *; omega)
    (by omega)
  have hsend : sendCommand r dfcCommandGetApplicationIds =
      some (dfcEmulatorCommandGetApplicationIds r) := rfl
  refine ⟨_, by
    rw [listApplications, hsend, Option.bind_some, getApplicationIds_eq hpicc haccess, hgather,
      Option.bind_some, decodeApplicationIds_applicationIds (by omega)]
    rfl, ?_⟩
  refine List.mem_map.mpr ⟨c.numApps, by simp [hnum], ?_⟩
  rw [hlater.credential, hgrown.first, hgrown.middle, hgrown.last, h0, h1, h2]

/-- Selecting turns the identifier round before it is sent, so it reaches the new
application only when that changes nothing. -/
theorem selectApplication_created_iff
    (hfresh : dfcCredentialFindApplicationDesfireOrder c wire = none) :
    (∃ r', sendCommand r (dfcCommandSelectApplication aid none) = some (r', [dfcStatusOk]) ∧
      r'.selectedApplication = .app ∧ r'.selectedAppIndex = c.numApps) ↔
      aid.first = aid.last := by
  have hsend : sendCommand r (dfcCommandSelectApplication aid none) =
      some (dfcEmulatorCommandSelectApplication r
        [dfcCmdSelectApplication, aid.last, aid.middle, aid.first]) := rfl
  rw [hsend, dfcEmulatorCommandSelectApplication, if_neg (by simp)]
  generalize hw : wireAid [dfcCmdSelectApplication, aid.last, aid.middle, aid.first] = w
  have hw0 : w 0 = aid.last := by rw [← hw]; rfl
  have hw1 : w 1 = aid.middle := by rw [← hw]; rfl
  have hw2 : w 2 = aid.first := by rw [← hw]; rfl
  have hgrown' : DirectoryGrown c r.credential wire := by rw [hlater.credential]; exact hgrown
  constructor
  · rintro ⟨r', hanswer, happ, hindex⟩
    cases hfind : dfcCredentialFindApplicationDesfireOrder r.credential w with
    | none =>
      simp only [hfind] at hanswer
      split_ifs at hanswer
      · obtain rfl := congrArg Prod.fst (Option.some.inj hanswer)
        cases happ
      · have hstatus : [dfcStatusApplicationNotFound] = [dfcStatusOk] :=
          congrArg Prod.snd (Option.some.inj hanswer)
        exact absurd hstatus (by decide)
    | some i =>
      simp only [hfind] at hanswer
      obtain rfl := congrArg Prod.fst (Option.some.inj hanswer)
      obtain rfl : i = c.numApps := hindex
      have hmatch := (findApplication_matches hfind).1
      rw [hgrown'.last, hw0, h0] at hmatch
      exact hmatch.symm
  · intro hpal
    have hfind : dfcCredentialFindApplicationDesfireOrder r.credential w = some c.numApps := by
      rw [← hgrown'.find hfresh]
      exact findApplication_congr _ (by rw [hw0, h0, hpal]) (by rw [hw1, h1])
        (by rw [hw2, h2, hpal])
    simp only [hfind]
    exact ⟨_, rfl, rfl, rfl⟩

/-- Deleting sends the identifier as it was sent on creation. -/
theorem deleteApplication_created
    (hfresh : dfcCredentialFindApplicationDesfireOrder c wire = none)
    (hmaster : dfcEmulatorIsAuthenticatedAsMaster r = true)
    (hown : r.selectedApplication = .picc ∨
      (r.selectedApplication = .app ∧ r.selectedAppIndex = c.numApps)) :
    ∃ r', sendCommand r (dfcCommandDeleteApplication aid) = some (r', [dfcStatusOk]) ∧
      r'.credential.numApps = c.numApps ∧
      ∀ j < c.numApps, (r'.credential.apps j).unplaced = (e'.credential.apps j).unplaced := by
  have hsend : sendCommand r (dfcCommandDeleteApplication aid) =
      some (dfcEmulatorCommandDeleteApplication r
        [dfcCmdDeleteApplication, aid.first, aid.middle, aid.last]) := rfl
  have hgrown' : DirectoryGrown c r.credential wire := by rw [hlater.credential]; exact hgrown
  have hfind : dfcCredentialFindApplicationDesfireOrder r.credential
      (wireAid [dfcCmdDeleteApplication, aid.first, aid.middle, aid.last]) = some c.numApps := by
    rw [← hgrown'.find hfresh]
    exact findApplication_congr _ h0.symm h1.symm h2.symm
  have hkept := appsKept_selectApplication r .picc 0
  obtain ⟨hnum, hrecords⟩ := deleteApplicationAt_last (hkept.numApps.trans hgrown'.numApps)
  rw [hsend, dfcEmulatorCommandDeleteApplication]
  simp only [refuseIf, hmaster, hfind, orFail]
  refine ⟨_, by
    rw [if_neg (by simp)]
    simp only [bind, Except.bind]
    rw [if_neg (not_not.mpr ⟨hown, trivial⟩)]
    rfl, hnum, fun j hj => ?_⟩
  rw [← hlater.credential, ← hkept.apps]
  exact hrecords j hj

end application

theorem applicationFound_iff {e e' : DfcEmulator} {app : DfcCommandCreateApplication}
    (h : sendCommand e (dfcCommandCreateApplication app) = some (e', [dfcStatusOk])) :
    ApplicationFound e.credential.numApps app.aid e' ↔ app.aid.first = app.aid.last := by
  obtain ⟨command, hencode, hsend⟩ := sendCommand_eq_some h
  obtain rfl := createApplication_eq_ok hencode
  obtain ⟨hfresh, hroom, hgrown⟩ := createApplication_ok (Option.some.inj hsend)
  constructor
  · intro hfound
    exact (selectApplication_created_iff hgrown rfl rfl rfl ⟨rfl, rfl⟩ hfresh).mp
      (hfound.selected e' ⟨rfl, rfl⟩)
  · intro hpal
    refine ⟨fun r hlater hpicc haccess => ?_, fun r hlater => ?_, fun r hlater hmaster hown => ?_⟩
    · obtain ⟨ids, hids, hmem⟩ :=
        listApplications_created hgrown rfl rfl rfl hlater hroom hpicc haccess
      refine ⟨ids, hids, ?_⟩
      rw [hpal] at hmem
      rw [Aid.octets, hpal]
      exact hmem
    · exact (selectApplication_created_iff hgrown rfl rfl rfl hlater hfresh).mpr hpal
    · exact deleteApplication_created hgrown rfl rfl rfl hlater hfresh hmaster hown

theorem readFileSettings_created {e e' r : DfcEmulator} {file : DfcFile}
    (h : FileCreated e e' file) (hlater : Later e' r) (hmax : e.credential.numApps ≤ dfcMaxApps)
    (hnumber : file.number.toNat ≤ dfcCommandMaxFileNumber)
    (happ : r.selectedApplication = .app) (hindex : r.selectedAppIndex = e.selectedAppIndex)
    (haccess : requireDirectoryAccess r = .ok ()) :
    readFileSettings r file.number =
      some (dfcResponseDecodeFileSettings (fileSettingsOctets r e.credential.numFiles)) := by
  have hsend : sendCommand r (dfcCommandGetFileSettings file.number) =
      some (dfcEmulatorCommandGetFileSettings r [dfcCmdGetFileSettings, file.number]) := by
    have hvalid : validFileNumber file.number = true := by simpa [validFileNumber] using hnumber
    rw [dfcCommandGetFileSettings, if_neg (by simp [hvalid])]
    rfl
  rw [readFileSettings, hsend, Option.bind_some,
    getFileSettings_eq happ haccess (h.find hlater hmax hindex)]
  simp

theorem readU24Le_leOctets {n : ℕ} (h : n ≤ dfcCommandUint24Max) (rest : List UInt8) :
    readU24Le (leOctets 3 n ++ rest) = n := by
  simp only [dfcCommandUint24Max] at h
  rw [readU24Le, List.take_left' (by simp), leValue_leOctets_of_lt (by omega)]

theorem readI32Le_leOctets (x : Int32) (rest : List UInt8) :
    readI32Le (leOctets 4 x.toUInt32.toNat ++ rest) = x := readInt32Le_leOctets x rest

theorem twoBits_iff (b : UInt8) : b &&& ~~~0x03 = 0 ↔ b ≤ 3 :=
  forall_octet (p := fun b => b &&& ~~~0x03 = 0 ↔ b ≤ 3) (by decide +kernel) b

section files
variable (head : DfcCommandFileHead) {e e' r : DfcEmulator} {file : DfcFile} {type : UInt8}
  (h : FileCreated e e' file) (hlater : Later e' r)
  (htype : file.type = type) (hcomm : file.commSettings = head.commSettings)
  (hrights : file.accessRights = head.accessRights)
  (hmode : isPlainMode head.commSettings = true)
include h hlater htype hcomm hrights hmode

theorem decode_dataFile (hdata : dfcFileTypeIsData type = true) {size : ℕ}
    (hlen : file.dataLen = size) (hsize : size ≤ dfcCommandUint24Max) :
    dfcResponseDecodeFileSettings (fileSettingsOctets r e.credential.numFiles) =
      .ok (head.settings type (.data size)) := by
  have hrecord : r.credential.files e.credential.numFiles = file := by
    rw [hlater.credential, h.added.record]
  have hkind : type ≠ dfcFileTypeValue ∧ dfcFileTypeIsRecord type = false := by
    simp only [dfcFileTypeIsData, Bool.or_eq_true, beq_iff_eq] at hdata
    obtain rfl | rfl := hdata <;> decide
  have hflag := (isPlainMode_bits hmode).2.2.1
  simp only [fileSettingsOctets, hrecord, htype, hcomm, hrights, hlen, if_neg hkind.1, hkind.2,
    hflag, ne_eq, not_true_eq_false, if_false, List.append_nil, Bool.false_eq_true]
  rw [decodeFileSettings_octets hmode (by simp [settingsLength, hdata])]
  change _ = Except.map (head.settings type) (.ok (.data size))
  refine congrArg (Except.map (head.settings type)) ?_
  simpa [decodeFileBody, hdata, leOctets] using readU24Le_leOctets hsize []

theorem decode_recordFile (hrec : dfcFileTypeIsRecord type = true) {recordSize maxRecords : ℕ}
    (hstate : file.state.record = { size := recordSize, maxRecords := maxRecords, count := 0 })
    (hsize : recordSize ≤ dfcCommandUint24Max) (hmax : maxRecords ≤ dfcCommandUint24Max) :
    dfcResponseDecodeFileSettings (fileSettingsOctets r e.credential.numFiles) =
      .ok (head.settings type (.records recordSize maxRecords 0)) := by
  have hrecord : r.credential.files e.credential.numFiles = file := by
    rw [hlater.credential, h.added.record]
  have hkind : type ≠ dfcFileTypeValue ∧ dfcFileTypeIsData type = false := by
    simp only [dfcFileTypeIsRecord, Bool.or_eq_true, beq_iff_eq] at hrec
    obtain rfl | rfl := hrec <;> decide
  have hcount := h.reportedRecordCount hlater (by rw [hstate])
  have hflag := (isPlainMode_bits hmode).2.2.1
  simp only [fileSettingsOctets, hrecord, htype, hcomm, hrights, hstate, hcount, if_neg hkind.1,
    hrec, hflag, ne_eq, not_true_eq_false, if_false, if_true, List.append_nil]
  rw [decodeFileSettings_octets hmode (by simp [settingsLength, hrec, hkind])]
  change _ = Except.map (head.settings type) (.ok (.records recordSize maxRecords 0))
  refine congrArg (Except.map (head.settings type)) ?_
  have hfirst := readU24Le_leOctets hsize (leOctets 3 maxRecords ++ leOctets 3 0)
  have hsecond := readU24Le_leOctets hmax (leOctets 3 0)
  have hthird := readU24Le_leOctets (n := 0) (by decide) []
  simpa [decodeFileBody, hkind, leOctets] using ⟨hfirst, hsecond, hthird⟩

theorem decode_valueFile (hvalue : type = dfcFileTypeValue) {lowerLimit upperLimit value : Int32}
    {limitedCredit : UInt8}
    (hstate : file.state.value =
      { lowerLimit := lowerLimit, upperLimit := upperLimit, current := value,
        limitedCredit := limitedCredit }) :
    (dfcResponseDecodeFileSettings (fileSettingsOctets r e.credential.numFiles) =
      .ok (head.settings type (.value lowerLimit upperLimit 0 limitedCredit
        (limitedCredit &&& 0x01 != 0)))) ↔ limitedCredit ≤ 3 := by
  have hrecord : r.credential.files e.credential.numFiles = file := by
    rw [hlater.credential, h.added.record]
  have hflag := (isPlainMode_bits hmode).2.2.1
  have hcredit : limitedCredit &&& ~~~0x03 = 0 ↔ limitedCredit ≤ 3 := twoBits_iff limitedCredit
  subst hvalue
  have hkind : dfcFileTypeIsData dfcFileTypeValue = false := rfl
  simp only [fileSettingsOctets, hrecord, htype, hcomm, hrights, hstate, hflag, ne_eq,
    not_true_eq_false, if_false, if_true, List.append_nil]
  rw [decodeFileSettings_octets hmode (by simp [settingsLength, hkind])]
  have hlower := readI32Le_leOctets lowerLimit (leOctets 4 upperLimit.toUInt32.toNat ++
    (leOctets 4 (0 : Int32).toUInt32.toNat ++ [limitedCredit]))
  have hupper := readI32Le_leOctets upperLimit
    (leOctets 4 (0 : Int32).toUInt32.toNat ++ [limitedCredit])
  have hzero := readI32Le_leOctets 0 [limitedCredit]
  have hbody : decodeFileBody dfcFileTypeValue (dfcFileTypeValue :: head.commSettings ::
      (leOctets 2 head.accessRights.toNat ++ (leOctets 4 lowerLimit.toUInt32.toNat ++
        leOctets 4 upperLimit.toUInt32.toNat ++ leOctets 4 (0 : Int32).toUInt32.toNat ++
        [limitedCredit]))) =
      if limitedCredit &&& ~~~0x03 ≠ 0 then .error .unsupported
      else .ok (.value lowerLimit upperLimit 0 limitedCredit (limitedCredit &&& 0x01 != 0)) := by
    simp [decodeFileBody, hkind, leOctets] at hlower hupper hzero ⊢
    rw [hlower, hupper, hzero]
  rw [hbody]
  split_ifs with hbits
  · refine ⟨fun habs => ?_, fun hle => absurd (hcredit.mpr hle) hbits⟩
    cases habs
  · exact ⟨fun _ => hcredit.mp (not_not.mp hbits), fun _ => rfl⟩

end files

/-- A moment at which the master key is authenticated. -/
theorem exists_later_directoryAccess (e e' : DfcEmulator) :
    ∃ r, Later e' r ∧ r.selectedApplication = .app ∧ r.selectedAppIndex = e.selectedAppIndex ∧
      requireDirectoryAccess r = .ok () := by
  refine ⟨{ e' with
    selectedApplication := .app, selectedAppIndex := e.selectedAppIndex
    nativeSession := some { cipher := dfcCmdAuthenticateAes, keyNo := 0 } },
    ⟨rfl, rfl⟩, rfl, rfl, ?_⟩
  simp [requireDirectoryAccess, refuseIf, dfcEmulatorIsAuthenticatedAsMaster,
    dfcEmulatorIsAuthenticatedWithKey]

section survives
variable {e e' : DfcEmulator} (hmax : e.credential.numApps ≤ dfcMaxApps)
include hmax

theorem fileFound_dataFile {ins fileType : UInt8} {file : DfcCommandDataFile}
    (hdispatch : ∀ data, dfcEmulatorDispatchLifecycle e (ins :: data) =
      some (dfcEmulatorCommandCreateStdDataFile e (ins :: data) fileType))
    (hdata : dfcFileTypeIsData fileType = true) (hmode : isPlainMode file.commSettings = true)
    (h : sendCommand e (dataFile ins file) = some (e', [dfcStatusOk])) :
    FileFound e e' file.fileNo (file.settings fileType (.data file.size)) := by
  obtain ⟨command, hencode, hsend⟩ := sendCommand_eq_some h
  obtain ⟨rfl, hnumber, hsize⟩ := dataFile_eq_ok hencode
  rw [hdispatch] at hsend
  obtain ⟨new, hnum, htype, hcomm, hrights, hinstall⟩ :=
    createStdDataFile_ok hsize (Option.some.inj hsend)
  obtain ⟨f, hcreated, hnew, hlen⟩ := installDataFile_ok hinstall
  have hno : f.number = file.fileNo := hnew.number.trans hnum
  intro r hlater happ hindex haccess
  rw [← hno, readFileSettings_created hcreated hlater hmax (by rw [hno]; exact hnumber) happ
    hindex haccess, decode_dataFile file.toDfcCommandFileHead hcreated hlater
    (hnew.type.trans htype) (hnew.commSettings.trans hcomm) (hnew.accessRights.trans hrights)
    hmode hdata hlen hsize]

theorem fileFound_recordFile {file : DfcCommandRecordFile}
    (hmode : isPlainMode file.commSettings = true)
    (h : sendCommand e (dfcCommandCreateRecordFile file) = some (e', [dfcStatusOk])) :
    FileFound e e' file.fileNo
      (file.settings file.type (.records file.recordSize file.maxRecords 0)) := by
  obtain ⟨command, hencode, hsend⟩ := sendCommand_eq_some h
  obtain ⟨rfl, hnumber, hsize, hcount⟩ := createRecordFile_eq_ok hencode
  have hdispatch (data : List UInt8) : dfcEmulatorDispatchLifecycle e (file.ins :: data) =
      some (dfcEmulatorCommandCreateRecordFile e (file.ins :: data) file.type) := by
    unfold DfcCommandRecordFile.ins DfcCommandRecordFile.type
    cases file.cyclic <;> rfl
  have hrec : dfcFileTypeIsRecord file.type = true := by
    unfold DfcCommandRecordFile.type
    cases file.cyclic <;> rfl
  rw [hdispatch, List.append_assoc] at hsend
  obtain ⟨new, hnum, htype, hcomm, hrights, hinstall⟩ :=
    createRecordFile_ok hsize hcount (Option.some.inj hsend)
  obtain ⟨f, hcreated, hnew, hstate⟩ := installRecordFile_ok hinstall
  have hno : f.number = file.fileNo := hnew.number.trans hnum
  intro r hlater happ hindex haccess
  rw [← hno, readFileSettings_created hcreated hlater hmax (by rw [hno]; exact hnumber) happ
    hindex haccess, decode_recordFile file.toDfcCommandFileHead hcreated hlater
    (hnew.type.trans htype) (hnew.commSettings.trans hcomm) (hnew.accessRights.trans hrights)
    hmode hrec hstate hsize hcount]

theorem fileFound_valueFile_iff {file : DfcCommandValueFile}
    (hmode : isPlainMode file.commSettings = true)
    (h : sendCommand e (dfcCommandCreateValueFile file) = some (e', [dfcStatusOk])) :
    FileFound e e' file.fileNo (file.head.settings dfcFileTypeValue
      (.value file.lowerLimit file.upperLimit 0 file.limitedCredit
        (file.limitedCredit &&& 0x01 != 0))) ↔ file.limitedCredit ≤ 3 := by
  obtain ⟨command, hencode, hsend⟩ := sendCommand_eq_some h
  obtain ⟨rfl, hnumber⟩ := createValueFile_eq_ok hencode
  simp only [List.append_assoc] at hsend
  obtain ⟨new, hnum, htype, hcomm, hrights, hinstall⟩ :=
    createValueFile_ok (Option.some.inj hsend)
  obtain ⟨f, hcreated, hnew, hstate⟩ := installValueFile_ok hinstall
  have hno : f.number = file.fileNo := hnew.number.trans hnum
  have hread {r : DfcEmulator} (hlater : Later e' r) := decode_valueFile file.head
    hcreated hlater (hnew.type.trans htype) (hnew.commSettings.trans hcomm)
    (hnew.accessRights.trans hrights) hmode rfl hstate
  have hsettings {r : DfcEmulator} (hlater : Later e' r) (happ : r.selectedApplication = .app)
      (hindex : r.selectedAppIndex = e.selectedAppIndex)
      (haccess : requireDirectoryAccess r = .ok ()) : readFileSettings r file.fileNo =
        some (dfcResponseDecodeFileSettings (fileSettingsOctets r e.credential.numFiles)) := by
    rw [← hno]
    exact readFileSettings_created hcreated hlater hmax (by rw [hno]; exact hnumber) happ hindex
      haccess
  constructor
  · intro hfound
    obtain ⟨r, hlater, happ, hindex, haccess⟩ := exists_later_directoryAccess e e'
    have hfile := hfound r hlater happ hindex haccess
    rw [hsettings hlater happ hindex haccess] at hfile
    exact (hread hlater).mp (Option.some.inj hfile)
  · intro hle r hlater happ hindex haccess
    rw [hsettings hlater happ hindex haccess, (hread hlater).mpr hle]

/-- A creation the card accepted is found again exactly when its identifier reads the same
both ways, or its limited credit octet has two bits. -/
theorem findsAgain_iff_survives {creation : Creation} (hmode : creation.isPlain = true)
    (h : sendCommand e creation.encode = some (e', [dfcStatusOk])) :
    creation.FindsAgain e e' ↔ creation.survives = true := by
  cases creation with
  | application app =>
    rw [Creation.FindsAgain, applicationFound_iff h, Creation.survives, beq_iff_eq]
  | standardDataFile file =>
    exact iff_of_true (fileFound_dataFile hmax (fun _ => rfl) (by decide) hmode h) rfl
  | backupDataFile file =>
    exact iff_of_true (fileFound_dataFile hmax (fun _ => rfl) (by decide) hmode h) rfl
  | recordFile file => exact iff_of_true (fileFound_recordFile hmax hmode h) rfl
  | valueFile file =>
    rw [Creation.FindsAgain, fileFound_valueFile_iff hmax hmode h, Creation.survives,
      decide_eq_true_iff]

end survives

/-- A card as it leaves the factory, before any session. -/
def factoryCard : DfcEmulator := { credential := dfcCredentialClear }

/-- An AES application with free directory access and one key. -/
def aesApplication (aid : Aid) : DfcCommandCreateApplication :=
  { aid := aid, keySettings1 := 0x0F, keySettings2 := dfcKeyTypeAes ||| 1 }

theorem exists_of_answer {answer : Option Answer} (h : answer.map Prod.snd = some [dfcStatusOk]) :
    ∃ e', answer = some (e', [dfcStatusOk]) := by
  cases answer with
  | none => cases h
  | some a => exact ⟨a.1, congrArg some (Prod.ext rfl (Option.some.inj h))⟩

/-- The factory card accepts the application 01 02 01, and it is found again. -/
theorem findsAgain_palindrome :
    ∃ e', sendCommand factoryCard (Creation.application (aesApplication ⟨1, 2, 1⟩)).encode =
        some (e', [dfcStatusOk]) ∧
      (Creation.application (aesApplication ⟨1, 2, 1⟩)).FindsAgain factoryCard e' := by
  obtain ⟨e', h⟩ : ∃ e', sendCommand factoryCard
      (Creation.application (aesApplication ⟨1, 2, 1⟩)).encode = some (e', [dfcStatusOk]) :=
    exists_of_answer (by decide +kernel)
  exact ⟨e', h, (findsAgain_iff_survives (by decide +kernel) rfl h).mpr rfl⟩

/-- The factory card accepts the application 01 02 03, and it is not found again. -/
theorem not_findsAgain_reversed :
    ∃ e', sendCommand factoryCard (Creation.application (aesApplication ⟨1, 2, 3⟩)).encode =
        some (e', [dfcStatusOk]) ∧
      ¬(Creation.application (aesApplication ⟨1, 2, 3⟩)).FindsAgain factoryCard e' := by
  obtain ⟨e', h⟩ : ∃ e', sendCommand factoryCard
      (Creation.application (aesApplication ⟨1, 2, 3⟩)).encode = some (e', [dfcStatusOk]) :=
    exists_of_answer (by decide +kernel)
  exact ⟨e', h, fun hfound => absurd ((applicationFound_iff h).mp hfound) (by decide)⟩

end DfcCore
