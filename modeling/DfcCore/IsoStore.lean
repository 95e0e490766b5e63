import DfcCore.IsoFiles
import DfcCore.JournalCommands

/-!
# What the ISO commands do to the store

UPDATE BINARY and APPEND RECORD publish what they write, and everything that is staged with it.
Every other ISO command leaves the store as it is or drops the transaction, and so do these two
when they are refused.
-/
namespace DfcCore
open Der

variable {e e' : DfcEmulator} {s s' : IsoSession} {env : IsoEnv} {command : List UInt8}
  {answer : IsoAnswer} {status : UInt8 × UInt8} {c c' : DfcCredential} {i : ℕ}

/-- Nothing is staged: no journal is open. -/
structure StoreIdle (e : DfcEmulator) : Prop where
  sound : StoreSound e
  idle : e.snapshot.active = false

/-- A write into a file of the selected application may be published with what is staged. -/
theorem SliceWrite.publish (hwrite : SliceWrite e.credential c i) (h : StoreSound e)
    (hi : i < e.credential.numFiles)
    (howner : (e.credential.files i).appIndex = e.selectedAppIndex)
    (hfits : (liveContents c i).Fits) :
    StoreIdle (dfcEmulatorPublishTransaction { e with credential := c }) := by
  have hclosed : (dfcEmulatorPublishTransaction { e with credential := c }).snapshot = {} := by
    rw [← h.sound.publish_snapshot, publishTransaction_snapshot, publishTransaction_snapshot]
  have hidle := congrArg DfcTransactionSnapshot.active hclosed
  obtain ⟨hcount, happs, -, -⟩ := publish_pool { e with credential := c }
  have hsettled : JournalSettled (dfcEmulatorPublishTransaction { e with credential := c }) := by
    refine .of_idle hclosed ?_ fun j hj => ?_
    · rw [hcount]
      exact hwrite.numFiles.trans_le h.sound.settled.count
    · rw [hcount] at hj
      rw [publish_files]
      split_ifs with howned
      · exact (published_fields _).2.2.2.2.2
      · have hlt : j < e.credential.numFiles := hwrite.numFiles ▸ hj
        have hji : j ≠ i := by
          rintro rfl
          exact howned ⟨hj, hwrite.appIndex.trans howner⟩
        rw [hwrite.other j hji] at howned ⊢
        cases hpending : (e.credential.files j).transactionPending with
        | false => rfl
        | true =>
          obtain ⟨hactive, hcovered⟩ := h.sound.covered_of_pending hlt hpending
          exact absurd ⟨hj, hcovered.appIndex.trans (h.sound.journal hactive).app⟩ howned
  have hsound : JournalSound (dfcEmulatorPublishTransaction { e with credential := c }) :=
    .of_idle hsettled (publish_pools (hwrite.files hi h.sound.files))
      ((happs.trans hwrite.numApps).trans_le h.sound.apps) hidle
  refine ⟨⟨hsound, fun x hx => ?_⟩, hidle⟩
  obtain ⟨j, hj, rfl⟩ := List.mem_map.mp hx
  have hj := List.mem_range.mp hj
  rw [hsound.storeCell_of_idle hidle hj, publish_live]
  refine ⟨?_, by simp⟩
  by_cases hji : j = i
  · rw [hji]
    exact hfits
  · have hlt : j < e.credential.numFiles := hwrite.numFiles ▸ hcount ▸ hj
    have hother : liveContents c j = liveContents e.credential j := by
      have hread := hwrite.read_other h.sound.files hi hlt hji
      unfold liveContents
      rw [hread, hwrite.other j hji]
    show (liveContents c j).Fits
    rw [hother, ← h.sound.shown hlt]
    exact (h.fits _ (storeCell_mem hlt)).shown

/-- Whether an ISO command has written: UPDATE BINARY and APPEND RECORD have when they succeed. -/
def isoCommits (command : List UInt8) (answer : IsoAnswer) : Bool :=
  let ins := command.getD 1 0
  (ins == dfcIso7816InsUpdateBinary || ins == dfcIso7816InsAppendRecord) &&
    answer == .words [] dfcIso7816SwOk

/-- What an ISO command leaves of the store: a write is there at once, and nothing is staged any
more; all other commands commit nothing. -/
def IsoOutcome (e : DfcEmulator) (command : List UInt8) (r : IsoResult) : Prop :=
  if isoCommits command r.2 then StoreIdle r.1.emulator else Dropped e r.1.emulator

/-- An ISO command is refused: nothing of it is left. -/
def IsoRefused (e : DfcEmulator) (r : IsoResult) : Prop :=
  Dropped e r.1.emulator ∧ r.2 ≠ .words [] dfcIso7816SwOk

/-- An ISO command has written, and closed the transaction. -/
def IsoPublished (r : IsoResult) : Prop :=
  StoreIdle r.1.emulator ∧ r.2 = .words [] dfcIso7816SwOk

/-- An ISO command commits nothing, whatever it answers. -/
def IsoDropped (e : DfcEmulator) (r : IsoResult) : Prop := Dropped e r.1.emulator

theorem IsoRefused.outcome {r : IsoResult} (h : IsoRefused e r) : IsoOutcome e command r := by
  unfold IsoOutcome isoCommits
  rw [if_neg (by simp [h.2])]
  exact h.1

theorem IsoPublished.outcome {r : IsoResult} (h : IsoPublished r)
    (hwrites : command.getD 1 0 = dfcIso7816InsUpdateBinary ∨
      command.getD 1 0 = dfcIso7816InsAppendRecord) : IsoOutcome e command r := by
  unfold IsoOutcome isoCommits
  rw [if_pos (by simpa [h.2] using hwrites)]
  exact h.1

theorem IsoDropped.outcome {r : IsoResult} (h : IsoDropped e r)
    (hupdate : command.getD 1 0 ≠ dfcIso7816InsUpdateBinary)
    (happend : command.getD 1 0 ≠ dfcIso7816InsAppendRecord) : IsoOutcome e command r := by
  have hwrites : isoCommits command r.2 = false := by
    unfold isoCommits
    dsimp only
    rw [beq_eq_false_iff_ne.mpr hupdate, beq_eq_false_iff_ne.mpr happend]
    rfl
  unfold IsoOutcome
  rw [hwrites, if_neg Bool.false_ne_true]
  exact h

theorem writeStatusWord_fst (s : IsoSession) (env : IsoEnv) (status : UInt8 × UInt8) :
    (s.writeStatusWord env status).1 = s := by
  unfold IsoSession.writeStatusWord
  split_ifs <;> rfl

theorem IsoDropped.writeStatusWord (h : Dropped e s.emulator) :
    IsoDropped e (s.writeStatusWord env status) := by
  unfold IsoDropped
  rw [writeStatusWord_fst]
  exact h

theorem IsoRefused.writeStatusWord (h : Dropped e s.emulator) (hstatus : status ≠ dfcIso7816SwOk) :
    IsoRefused e (s.writeStatusWord env status) := by
  refine ⟨IsoDropped.writeStatusWord h, fun hok => ?_⟩
  unfold IsoSession.writeStatusWord at hok
  split_ifs at hok
  exact hstatus (IsoAnswer.words.inj hok).2

theorem IsoPublished.writeStatusWord (h : StoreIdle s.emulator)
    (hroom : ¬env.responseCapacity < dfcIso7816StatusWordLength) :
    IsoPublished (s.writeStatusWord env dfcIso7816SwOk) := by
  unfold IsoPublished IsoSession.writeStatusWord
  rw [if_neg hroom]
  exact ⟨h, rfl⟩

theorem Ensures.result {P : IsoResult → Prop} {x : IsoHandled} (h : Ensures P P x) :
    P x.result := by
  cases x with
  | ok r => exact h
  | error r => exact h

/-- A file of the selected application. -/
structure OwnFile (e : DfcEmulator) (i : ℕ) : Prop where
  lt : i < e.credential.numFiles
  owner : (e.credential.files i).appIndex = e.selectedAppIndex

theorem isoFileOf_own {shortId : UInt8} (h : Dropped e s.emulator) :
    Ensures (fun r => r.1.emulator = s.emulator ∧ OwnFile s.emulator r.2) (IsoRefused e)
      (s.isoFileOf env shortId) := by
  unfold IsoSession.isoFileOf
  refine .ite (fun _ => ?_) fun _ => ?_
  · cases hfound : s.findIsoFileByShortId shortId with
    | none => exact IsoRefused.writeStatusWord h (by decide)
    | some r =>
      obtain ⟨i, hlookup, rfl⟩ := Option.map_eq_some_iff.mp hfound
      unfold IsoSession.lookupIsoFileByShortId at hlookup
      dsimp only at hlookup
      split_ifs at hlookup
      have hi := List.mem_range.mp (List.mem_of_find?_eq_some hlookup)
      have hfile := List.find?_some hlookup
      simp only [Bool.and_eq_true, beq_iff_eq] at hfile
      exact ⟨rfl, hi, hfile.1.1⟩
  · refine .bind (.orFail fun _ => .writeStatusWord h (by decide)) fun i hcurrent => ?_
    unfold IsoSession.isoCurrentFile at hcurrent
    dsimp only at hcurrent
    split_ifs at hcurrent with hfile
    obtain rfl := Option.some.inj hcurrent
    push Not at hfile
    exact ⟨rfl, hfile.2.1, hfile.2.2.2⟩

theorem parseIsoAppendRecordData_length {record : List UInt8}
    (h : parseIsoAppendRecordData command = some record) : 0 < record.length := by
  unfold parseIsoAppendRecordData at h
  dsimp only at h
  split_ifs at h with hshort hextended hlong hlength
  · obtain rfl := Option.some.inj h
    push Not at hlong
    rw [List.length_drop]
    omega
  · obtain rfl := Option.some.inj h
    rw [not_not] at hlength
    have hpositive : (command.getD 4 0).toNat ≠ 0 := fun hzero =>
      hextended (UInt8.toNat_inj.mp hzero)
    rw [List.length_drop]
    omega

/-- The new record stays in the slice of its file, and leaves the records it has room for. -/
theorem appendRecord_sliceWrite {record : List UInt8}
    (hrecord : dfcFileTypeIsRecord (c.files i).type = true)
    (hslots : dfcEmulatorRecordUsableCapacity (c.files i) * (c.files i).state.record.size ≤
      (c.files i).dataLen)
    (hcapacity : dfcEmulatorRecordUsableCapacity (c.files i) ≠ 0)
    (hfull : (c.files i).type = dfcFileTypeLinearRecord →
      (c.files i).state.record.count < dfcEmulatorRecordUsableCapacity (c.files i))
    (hlength : record.length ≤ (c.files i).state.record.size) :
    SliceWrite c (appendRecord c i (c.files i).dataOffset record) i ∧
      ((appendRecord c i (c.files i).dataOffset record).files i).state.record.count ≤
        dfcEmulatorRecordUsableCapacity (c.files i) := by
  obtain ⟨hslot, hindex, hlast⟩ := appendRecordSlot_sliceWrite hrecord hslots hcapacity hfull
  unfold appendRecord
  dsimp only
  cases happend : appendRecordSlot c i (c.files i).dataOffset with
  | mk c₁ index =>
    rw [happend] at hslot hindex hlast
    dsimp only at hslot hindex hlast ⊢
    have hplace := record_in_slice hindex hslots
      ((Nat.zero_add record.length).trans_le hlength)
    rw [← hslot.dataLen] at hplace
    have hwrite : SliceWrite c₁
        (c₁.writeFileData ((c.files i).dataOffset + index * (c.files i).state.record.size)
          record) i :=
      .writeFileData _ _ _ (by rw [hslot.dataOffset]; omega) (by rw [hslot.dataOffset]; omega)
    refine ⟨hslot.trans (hwrite.trans (.setPending _ i)), ?_⟩
    dsimp only [DfcCredential.setPending]
    rw [modifyFile_files, if_pos rfl]
    exact hlast

theorem handleIsoAppendRecord_store (h : StoreSound s.emulator) :
    Ensures IsoPublished (IsoRefused s.emulator) (handleIsoAppendRecord s env command) := by
  have hstart := Dropped.refl h.sound
  have hsmall : IsoRefused s.emulator (s, .bufferTooSmall) := ⟨hstart, by simp⟩
  unfold handleIsoAppendRecord
  refine .bind (.orFail fun _ => .writeStatusWord hstart (by decide)) fun record hparsed => ?_
  refine .bind (.refuseIf fun _ => .writeStatusWord hstart (by decide)) fun _ _ => ?_
  refine .bind (.refuseIf fun _ => hsmall) fun _ hroom => ?_
  refine .bind (.refuseIf fun _ => .writeStatusWord hstart (by decide)) fun _ _ => ?_
  refine .bind (.refuseIf fun _ => .writeStatusWord hstart (by decide)) fun _ _ => ?_
  refine .bind (.refuseIf fun _ => .writeStatusWord hstart (by decide)) fun _ _ => ?_
  refine .bind (isoFileOf_own hstart) fun ⟨s₁, i⟩ ⟨hsame, hown⟩ => ?_
  dsimp only at hsame hown ⊢
  rw [← hsame] at h hstart hown ⊢
  refine .bind (.refuseIf fun _ => .writeStatusWord hstart (by decide)) fun _ htype => ?_
  refine .bind (.refuseIf fun _ => .writeStatusWord hstart (by decide)) fun _ _ => ?_
  refine .bind (.refuseIf fun _ => .writeStatusWord hstart (by decide)) fun _ hlength => ?_
  refine .bind (.refuseIf fun _ => .writeStatusWord hstart (by decide)) fun _ _ => ?_
  -- From here on the transaction is dropped, whether or not the record is appended.
  have haborted : Dropped s₁.emulator (s₁.withEmulator
      (dfcEmulatorAbortTransaction s₁.emulator).1).emulator := hstart.abort
  have hselected : (s₁.withEmulator
      (dfcEmulatorAbortTransaction s₁.emulator).1).emulator.selectedAppIndex =
        s₁.emulator.selectedAppIndex := abortTransaction_selectedAppIndex s₁.emulator
  generalize s₁.withEmulator (dfcEmulatorAbortTransaction s₁.emulator).1 = s₂
    at haborted hselected ⊢
  refine .bind (.refuseIf fun _ => .writeStatusWord haborted (by decide)) fun _ hcapacity => ?_
  refine .bind (.refuseIf fun _ => .writeStatusWord haborted (by decide)) fun _ hslots => ?_
  refine .bind (.orFail fun _ => .writeStatusWord haborted (by decide)) fun start hstart => ?_
  have hi : i < s₂.emulator.credential.numFiles := haborted.numFiles ▸ hown.lt
  have hsound := haborted.movesTo.storeSound h
  have hkind : (s₂.emulator.credential.files i).type = (s₁.emulator.credential.files i).type :=
    congrArg FileKey.type (haborted.cell hown.lt).1
  have hrecord : dfcFileTypeIsRecord (s₂.emulator.credential.files i).type = true := by
    rw [hkind]
    push Not at htype
    simpa using htype.2
  have hsize : record.length ≤ (s₂.emulator.credential.files i).state.record.size := by
    have hsame := haborted.recordSize hown.lt
    unfold DfcFile.recordSize at hsame
    rw [hkind, if_pos (hkind ▸ hrecord), if_pos (hkind ▸ hrecord)] at hsame
    rw [hsame]
    exact not_lt.mp hlength
  obtain ⟨rfl, -, -⟩ := dfcFileData_bound hstart
  push Not at hcapacity
  obtain ⟨hwrite, hlast⟩ := appendRecord_sliceWrite hrecord (not_lt.mp hslots) hcapacity.1
    hcapacity.2 hsize
  refine IsoPublished.writeStatusWord (hwrite.publish hsound hi ?_ ?_) hroom
  · rw [haborted.appIndex hown.lt, hselected]
    exact hown.owner
  · exact hwrite.fits hsound.sound.files hi
      ((parseIsoAppendRecordData_length hparsed).trans_le hsize) (not_lt.mp hslots) hlast

theorem isoUpdateBinary_store (h : StoreSound s.emulator) (hown : OwnFile s.emulator i)
    (htype : dfcFileTypeIsData (s.emulator.credential.files i).type = true) :
    Ensures IsoPublished (IsoRefused s.emulator) (isoUpdateBinary s env command i) := by
  have hstart := Dropped.refl h.sound
  unfold isoUpdateBinary
  refine .bind (.refuseIf fun _ => .writeStatusWord hstart (by decide)) fun _ _ => ?_
  refine .bind (.refuseIf fun _ => .writeStatusWord hstart (by decide)) fun _ hlength => ?_
  refine .bind (.refuseIf fun _ => .writeStatusWord hstart (by decide)) fun _ _ => ?_
  refine .bind (.refuseIf fun _ => .writeStatusWord hstart (by decide)) fun _ hrange => ?_
  refine .bind (.refuseIf fun _ => ⟨hstart, by simp⟩) fun _ hroom => ?_
  refine .bind (.orFail fun _ => .writeStatusWord hstart (by decide)) fun start hdata => ?_
  obtain ⟨rfl, -, -⟩ := dfcFileData_bound hdata
  rw [not_not] at hlength
  have hwrite : SliceWrite s.emulator.credential (s.emulator.credential.writeFileData
      ((s.emulator.credential.files i).dataOffset + isoFileOffset command) (command.drop 5)) i := by
    refine .writeFileData _ _ _ (Nat.le_add_right _ _) ?_
    rw [List.length_drop]
    omega
  refine IsoPublished.writeStatusWord (hwrite.publish h hown.lt hown.owner ?_) hroom
  refine fits_of_empty (if_neg ?_)
  rw [hwrite.type]
  simp only [dfcFileTypeIsData, Bool.or_eq_true, beq_iff_eq] at htype
  obtain hstandard | hbackup := htype
  · rw [hstandard]
    decide
  · rw [hbackup]
    decide

theorem writeIsoFileReadResponse_dropped {comm : UInt8} {data : Option (List UInt8)}
    (h : Dropped e s.emulator) :
    Ensures (IsoDropped e) (IsoDropped e)
      (writeIsoFileReadResponse s env comm data status) := by
  unfold writeIsoFileReadResponse
  refine .bind (.orFail fun _ => .writeStatusWord h) fun octets _ => ?_
  refine .ite (fun _ => ?_) fun _ => h
  exact .bind (.orFail fun _ => .writeStatusWord h.reset) fun mac _ => h

theorem isoReadBinary_dropped {view : CommittedData} (h : JournalSound s.emulator) :
    Ensures (IsoDropped s.emulator) (IsoDropped s.emulator)
      (isoReadBinary s env command i view) := by
  have hstart := Dropped.refl h
  unfold isoReadBinary
  refine .bind (.orFail fun _ => .writeStatusWord hstart) fun comm _ => ?_
  refine .bind (.refuseIf fun _ => .writeStatusWord hstart) fun _ _ => ?_
  dsimp only
  split
  · exact IsoDropped.writeStatusWord hstart
  refine .bind (.orFail fun _ => .writeStatusWord hstart) fun length _ => ?_
  refine .bind (.refuseIf fun _ => hstart) fun _ _ => ?_
  refine .ite (fun _ => ?_) fun _ => writeIsoFileReadResponse_dropped hstart
  split
  · exact hstart
  · refine writeIsoFileReadResponse_dropped (hstart.frame ?_)
    exact .modifyFile _ i (f := fun file => file.withData _) (fun _ => rfl) fun _ => rfl
  · exact IsoDropped.writeStatusWord hstart

theorem isoReadRecord_dropped {view : CommittedData} {recordCount : ℕ}
    (h : JournalSound s.emulator) :
    Ensures (IsoDropped s.emulator) (IsoDropped s.emulator)
      (isoReadRecord s env command i view recordCount) := by
  have hstart := Dropped.refl h
  unfold isoReadRecord
  refine .bind (.orFail fun _ => .writeStatusWord hstart) fun comm _ => ?_
  refine .bind (.refuseIf fun _ => .writeStatusWord hstart) fun _ _ => ?_
  refine .bind (.refuseIf fun _ => .writeStatusWord hstart) fun _ _ => ?_
  refine .bind (.refuseIf fun _ => .writeStatusWord hstart) fun _ _ => ?_
  refine .bind (.orFail fun _ => .writeStatusWord hstart) fun length _ => ?_
  refine .bind (.refuseIf fun _ => .writeStatusWord hstart) fun _ _ => ?_
  refine .bind (.refuseIf fun _ => hstart) fun _ _ => ?_
  exact writeIsoFileReadResponse_dropped hstart

theorem isoSelectApplication_dropped (h : JournalSound s.emulator) (app : ℕ) :
    IsoDropped s.emulator (isoSelectApplication s env app) := by
  unfold isoSelectApplication
  split_ifs
  · exact .writeStatusWord (.refl h)
  · exact .writeStatusWord ((Dropped.refl h).select _ _)

theorem isoSelectPicc_dropped (h : JournalSound s.emulator) :
    IsoDropped s.emulator (isoSelectPicc s env) :=
  .writeStatusWord ((Dropped.refl h).select _ _)

theorem isoSelectByName_dropped {data : List UInt8} {r : IsoResult} (h : JournalSound s.emulator)
    (hselect : isoSelectByName s env data = some r) : IsoDropped s.emulator r := by
  unfold isoSelectByName at hselect
  dsimp only at hselect
  split at hselect
  · obtain rfl := Option.some.inj hselect
    exact isoSelectApplication_dropped h _
  · split_ifs at hselect
    obtain rfl := Option.some.inj hselect
    exact isoSelectPicc_dropped h

theorem isoSelectDfById_dropped {fileId : ℕ} {r : IsoResult} (h : JournalSound s.emulator)
    (hselect : isoSelectDfById s env fileId = some r) : IsoDropped s.emulator r := by
  unfold isoSelectDfById at hselect
  dsimp only at hselect
  split_ifs at hselect
  · obtain rfl := Option.some.inj hselect
    exact isoSelectPicc_dropped h
  · obtain ⟨app, -, rfl⟩ := Option.map_eq_some_iff.mp hselect
    exact isoSelectApplication_dropped h app

theorem isoSelectEfById_dropped {fileId : ℕ} {r : IsoResult} (h : JournalSound s.emulator)
    (hselect : isoSelectEfById s env fileId = some r) : IsoDropped s.emulator r := by
  unfold isoSelectEfById at hselect
  dsimp only at hselect
  split_ifs at hselect
  · obtain rfl := Option.some.inj hselect
    exact .writeStatusWord (.refl h)
  · obtain ⟨i, -, rfl⟩ := Option.map_eq_some_iff.mp hselect
    exact .writeStatusWord (.refl h)

theorem handleIsoSelect_dropped (h : JournalSound s.emulator) :
    Ensures (IsoDropped s.emulator) (IsoDropped s.emulator) (handleIsoSelect s env command) := by
  have hstart := Dropped.refl h
  unfold handleIsoSelect
  refine .bind (.refuseIf fun _ => hstart) fun _ _ => ?_
  refine .bind (.refuseIf fun _ => .writeStatusWord hstart) fun _ _ => ?_
  refine .bind (.refuseIf fun _ => .writeStatusWord hstart) fun _ _ => ?_
  refine .bind (.refuseIf fun _ => .writeStatusWord hstart) fun _ _ => ?_
  refine .bind (.refuseIf fun _ => .writeStatusWord hstart) fun _ _ => ?_
  refine .bind (.orFail fun _ => .writeStatusWord hstart) fun data _ => ?_
  dsimp only
  split
  case h_1 r hfound =>
    simp only [Option.orElse_eq_orElse, Option.orElse_eq_or, Option.or_eq_some_iff] at hfound
    obtain hname | ⟨-, hdf | ⟨-, hef⟩⟩ := hfound
    · split_ifs at hname
      exact isoSelectByName_dropped h hname
    · split_ifs at hdf
      exact isoSelectDfById_dropped h hdf
    · split_ifs at hef
      exact isoSelectEfById_dropped h hef
  case h_2 => exact IsoDropped.writeStatusWord hstart.reset

theorem handleIsoFileCommand_outcome (h : StoreSound s.emulator) :
    Ensures (IsoOutcome s.emulator command) (IsoOutcome s.emulator command)
      (handleIsoFileCommand s env command) := by
  have hstart := Dropped.refl h.sound
  have hrefused {status : UInt8 × UInt8} {s' : IsoSession} (hs : s'.emulator = s.emulator)
      (hstatus : status ≠ dfcIso7816SwOk) :
      IsoOutcome s.emulator command (s'.writeStatusWord env status) :=
    (IsoRefused.writeStatusWord (hs ▸ hstart) hstatus).outcome
  unfold handleIsoFileCommand
  refine .bind (.refuseIf fun _ => hrefused rfl (by decide)) fun _ _ => ?_
  refine .bind (.refuseIf fun _ => hrefused rfl (by decide)) fun _ _ => ?_
  refine .bind (.refuseIf fun _ => hrefused rfl (by decide)) fun _ _ => ?_
  refine .bind ((isoFileOf_own hstart).imp (fun _ => id) fun _ => IsoRefused.outcome)
    fun ⟨s₁, i⟩ ⟨hsame, hown⟩ => ?_
  dsimp only at hsame hown ⊢
  refine .bind (.orFail fun _ => hrefused hsame (by decide)) fun view _ => ?_
  rw [← hsame] at h hown ⊢
  refine .ite (fun hread => ?_) fun _ => .ite (fun hwrite => ?_) fun _ => .ite (fun hread => ?_) ?_
  · have hdropped : Ensures (IsoDropped s₁.emulator) (IsoDropped s₁.emulator)
        (isoReadBinary s₁ env command i view.1) := isoReadBinary_dropped h.sound
    refine hdropped.imp (fun _ hr => ?_) fun _ hr => ?_
    all_goals exact IsoDropped.outcome hr (by rw [hread.1]; decide) (by rw [hread.1]; decide)
  · exact (isoUpdateBinary_store h hown hwrite.2.2).imp (fun _ hr => hr.outcome (.inl hwrite.1))
      fun _ => IsoRefused.outcome
  · have hdropped : Ensures (IsoDropped s₁.emulator) (IsoDropped s₁.emulator)
        (isoReadRecord s₁ env command i view.1 view.2) := isoReadRecord_dropped h.sound
    refine hdropped.imp (fun _ hr => ?_) fun _ hr => ?_
    all_goals exact IsoDropped.outcome hr (by rw [hread.1]; decide) (by rw [hread.1]; decide)
  · exact fun _ => (IsoRefused.writeStatusWord (.refl h.sound) (by decide)).outcome

/-- The transaction that a failed command ends is dropped. -/
theorem IsoOutcome.abortTransaction {r : IsoResult} (h : IsoOutcome e command r) :
    IsoOutcome e command (abortTransactionAfterFailedIsoDataCommand r) := by
  unfold abortTransactionAfterFailedIsoDataCommand
  split
  case h_1 s status =>
    split_ifs with hstatus
    · exact h
    · have hfailed : isoCommits command (.words [] status) = false := by
        simp [isoCommits, hstatus]
      unfold IsoOutcome at h ⊢
      rw [hfailed, if_neg Bool.false_ne_true] at h ⊢
      exact h.abort
  case h_2 => exact h

theorem isoAbortPendingNativeWork_dropped (h : JournalSound s.emulator)
    (habort : isoAbortPendingNativeWork s env = some s') : Dropped s.emulator s'.emulator := by
  unfold isoAbortPendingNativeWork at habort
  dsimp only at habort
  split_ifs at habort
  · obtain rfl := Option.some.inj habort
    exact (Dropped.refl h).frame (.of_eq rfl rfl rfl)
  · obtain rfl := Option.some.inj habort
    exact (Dropped.refl h).frame (.of_eq rfl rfl rfl)

/-- Every ISO command on files: a write is published with all that is staged, and whatever else
comes commits nothing. -/
theorem isoExchange_outcome (h : StoreSound s.emulator)
    (hexchange : isoExchange s env command = some (s', answer)) :
    IsoOutcome s.emulator command (s', answer) := by
  have hstart := Dropped.refl h.sound
  unfold isoExchange at hexchange
  dsimp only at hexchange
  split at hexchange
  · cases hexchange
  split at hexchange
  · rw [← Option.some.inj hexchange]
    exact (IsoRefused.writeStatusWord hstart (by decide)).outcome
  split at hexchange
  · cases hexchange
  split at hexchange
  · rw [← Option.some.inj hexchange]
    exact IsoRefused.outcome ⟨hstart, by simp⟩
  split at hexchange
  case h_1 s₁ hpending =>
    rw [← Option.some.inj hexchange]
    exact (IsoRefused.writeStatusWord (isoAbortPendingNativeWork_dropped h.sound hpending)
      (by decide)).outcome
  case h_2 =>
    split_ifs at hexchange with hselect happend hbinary hrecord
    · rw [← Option.some.inj hexchange]
      exact (handleIsoSelect_dropped h.sound).result.outcome (by rw [hselect]; decide)
        (by rw [hselect]; decide)
    · rw [← Option.some.inj hexchange]
      exact ((handleIsoAppendRecord_store h).imp (fun _ hr => hr.outcome (.inr happend))
        fun _ => IsoRefused.outcome).result
    · rw [← Option.some.inj hexchange]
      exact (handleIsoFileCommand_outcome h).result
    · rw [← Option.some.inj hexchange]
      exact (handleIsoFileCommand_outcome h).result.abortTransaction
    · rw [← Option.some.inj hexchange]
      exact (IsoRefused.writeStatusWord hstart (by decide)).outcome

end DfcCore
