import DfcCore.TransactionAtomicity

/-!
# Transactions are isolated

What a reader gets of a backup or record file is what is committed, however much of it the open
transaction has overwritten in the file pool: the view of a file that a transaction has touched is
its pre-image in the journal, of a file it has created zeros.
-/
namespace DfcCore
open Der

variable {aes : List UInt8 → List UInt8 → List UInt8} {e e₁ e' : DfcEmulator} {env : CommandEnv}
  {apdu payload octets : List UInt8} {i offset length : ℕ} {o : Origin}

/-- A part of a contents. -/
def Contents.slice (x : Contents) (offset length : ℕ) : List UInt8 :=
  (x.octets.drop offset).take length

/-- Some records of a contents, counted from the newest. -/
def Contents.records (x : Contents) (first n : ℕ) : List UInt8 :=
  x.slice ((x.count - first - n) * x.size) (n * x.size)

theorem Mem.drop_read (m : Mem) {start n offset : ℕ} (h : offset ≤ n) :
    (m.read start n).drop offset = m.read (start + offset) (n - offset) := by
  obtain ⟨rest, rfl⟩ := Nat.exists_eq_add_of_le h
  rw [Mem.read_add, Nat.add_sub_cancel_left,
    List.drop_append_of_le_length (Mem.length_read _ _ _).ge,
    List.drop_eq_nil_of_le (Mem.length_read _ _ _).le, List.nil_append]

theorem Mem.slice_read (m : Mem) {start n offset length : ℕ} (h : offset + length ≤ n) :
    ((m.read start n).drop offset).take length = m.read (start + offset) length := by
  rw [Mem.drop_read m (by omega), Mem.read_take _ _ _ _ (by omega)]

theorem liveContents_slice (h : offset + length ≤ (e.credential.files i).dataLen) :
    (liveContents e.credential i).slice offset length =
      e.credential.filePool.read ((e.credential.files i).dataOffset + offset) length :=
  Mem.slice_read _ h

/-- A view that is absent shows nothing. -/
theorem readView_absent (h : readView e offset length .absent = some octets) (x : Contents) :
    octets = x.slice offset length := by
  unfold readView at h
  split_ifs at h with hnone
  · rw [Contents.slice, hnone]
    exact (Option.some.inj h).symm

/-- The view of a file as it stands in the pool. -/
theorem readView_live (h : offset + length ≤ (e.credential.files i).dataLen)
    (hread : readView e offset length (liveData e.credential (e.credential.files i)) =
      some octets) :
    octets = (liveContents e.credential i).slice offset length := by
  unfold liveData at hread
  cases hdata : dfcFileData e.credential (e.credential.files i) with
  | none =>
    rw [hdata] at hread
    exact readView_absent hread _
  | some start =>
    rw [hdata] at hread
    obtain ⟨rfl, -, -⟩ := dfcFileData_bound hdata
    rw [liveContents_slice h]
    exact (Option.some.inj hread).symm

/-- A reader of the committed view sees what is committed. -/
theorem readView_committed (hi : i < e.credential.numFiles)
    (h : offset + length ≤ (e.credential.files i).dataLen)
    (hread : readView e offset length (dfcEmulatorTransactionSnapshotCommittedData e i) =
      some octets) :
    octets = (committedContents e i).slice offset length := by
  have hlive : readView e offset length (liveData e.credential (e.credential.files i)) =
      some octets → octets = (liveContents e.credential i).slice offset length := readView_live h
  unfold liveData at hlive
  unfold dfcEmulatorTransactionSnapshotCommittedData at hread
  unfold committedContents
  dsimp only at hread ⊢
  rw [if_neg (not_le.mpr hi)] at hread
  by_cases hforeign : e.snapshot.active = false ∨
      (e.credential.files i).appIndex ≠ e.snapshot.appIndex ∨
      transactionFileHasData (e.credential.files i) = false
  · rw [if_pos hforeign] at hread ⊢
    exact hlive hread
  rw [if_neg hforeign] at hread ⊢
  by_cases hcreated : (e.snapshot.entry i).created = true
  · rw [if_pos hcreated] at hread ⊢
    rw [Contents.slice, List.drop_replicate, List.take_replicate, Nat.min_eq_left (by omega)]
    exact (Option.some.inj hread).symm
  rw [if_neg hcreated] at hread ⊢
  by_cases hcaptured : (e.snapshot.entry i).captured = true
  · rw [if_neg (by rw [hcaptured]; decide)] at hread
    rw [if_pos hcaptured]
    split_ifs at hread
    · exact readView_absent hread _
    · exact readView_absent hread _
    · rw [Contents.slice, Mem.slice_read _ h]
      exact (Option.some.inj hread).symm
  · rw [if_pos (by simpa using hcaptured)] at hread
    rw [if_neg hcaptured]
    exact hlive hread

/-- What an accepted ReadData of a backup file has read. -/
theorem readData_slice (hbase : dfcFileCommandBase (apdu.getD 0 0) = dfcCmdReadData)
    (hcommand : dfcEmulatorHandleCommand aes e env apdu = some (e', .accepted payload))
    (hfind : dfcCredentialFindFileInApp e.credential e.selectedAppIndex (apdu.getD 1 0) = some i)
    (hbackup : (e.credential.files i).type = dfcFileTypeBackupData)
    (hsdm : dfcFileSdmFlagIsSet (e.credential.files i) .enabled = false) :
    payload = (committedContents e i).slice (readUint24Le apdu 2) payload.length := by
  have hdispatch := dispatch_of_accepted hcommand
  unfold dispatchFileCommand at hdispatch
  rw [hbase, if_neg (ne_nil_of_getD hbase (by decide))] at hdispatch
  obtain ⟨j, e₁, e₂, hfound, -, -, hrange, hread, -⟩ := readData_ok (Option.some.inj hdispatch)
  obtain rfl := Option.some.inj (hfind.symm.trans hfound)
  unfold readDataOctets at hread
  dsimp only at hread
  rw [if_neg (by rw [hsdm]; decide), if_pos hbackup, bind_eq_ok] at hread
  obtain ⟨octets, horFail, heq⟩ := hread
  obtain ⟨-, rfl⟩ := Prod.mk.injEq .. ▸ (pure_eq_ok.mp heq)
  exact readView_committed (find_lt hfind) hrange (orFail_eq_ok.mp horFail)

/-- What the card with two pending writes answers to a read of each file. -/
theorem backupCard_reads :
    ((dfcEmulatorHandleCommand Aes.encrypt backupCardRecord {}
        [dfcCmdReadData, 0x01, 1, 0, 0, 2, 0, 0]).map Prod.snd = some (.accepted [0x02, 0x03]) ∧
      (dfcEmulatorHandleCommand Aes.encrypt backupCardRecord {}
        [dfcCmdReadRecords, 0x02, 0, 0, 0, 0, 0, 0]).map Prod.snd =
          some (.accepted [0xA1, 0xA2])) ∧
    (dfcCredentialFindFileInApp backupCardRecord.credential backupCardRecord.selectedAppIndex
        0x01 = some 0 ∧
      dfcCredentialFindFileInApp backupCardRecord.credential backupCardRecord.selectedAppIndex
        0x02 = some 1) ∧
    (backupCardRecord.credential.files 0).type = dfcFileTypeBackupData ∧
    dfcFileSdmFlagIsSet (backupCardRecord.credential.files 0) .enabled = false := by
  decide +kernel

/-- A reader of a backup file never sees a write that is not committed: as long as nothing is,
ReadData gets a part of what the file held when no transaction was open, and zeros of a file that
is new. -/
theorem readData_isolated (hreach : StoreReachable aes e) (hidle : e.snapshot.active = false)
    (hrun : UncommittedRun aes e o e₁)
    (hbase : dfcFileCommandBase (apdu.getD 0 0) = dfcCmdReadData)
    (hcommand : dfcEmulatorHandleCommand aes e₁ env apdu = some (e', .accepted payload))
    (hfind : dfcCredentialFindFileInApp e₁.credential e₁.selectedAppIndex (apdu.getD 1 0) = some i)
    (hbackup : (e₁.credential.files i).type = dfcFileTypeBackupData)
    (hsdm : dfcFileSdmFlagIsSet (e₁.credential.files i) .enabled = false) :
    (∀ j, o i = some j →
      (e₁.credential.files i).key.kind = (e.credential.files j).key.kind ∧
        payload = (liveContents e.credential j).slice (readUint24Le apdu 2) payload.length) ∧
    (o i = none → payload = List.replicate payload.length 0) := by
  have hcovered : (e₁.credential.files i).key.covered = true := by
    simp [FileKey.covered, DfcFile.key, hbackup]
  have hslice := readData_slice hbase hcommand hfind hbackup hsdm
  have hheld := (hrun.keptFrom hreach.storeSound).heldFrom hidle (find_lt hfind) hcovered
  constructor
  · intro j hplace
    rw [hplace] at hheld
    obtain ⟨-, hkind, hlive⟩ := hheld
    rw [hlive] at hslice
    exact ⟨hkind, hslice⟩
  · intro hplace
    rw [hplace] at hheld
    obtain ⟨-, n, hzeros⟩ := hheld
    rw [Contents.slice, hzeros, List.drop_replicate, List.take_replicate] at hslice
    have hlength := congrArg List.length hslice
    rw [List.length_replicate] at hlength
    rw [hlength]
    exact hslice

/-- The backup file reads as before although both its last octets are overwritten. -/
theorem readData_isolated_backupCard :
    (liveContents backupCardRecord.credential 0).octets = [0x01, 0x0B, 0x0C, 0x04] ∧
    dfcEmulatorHandleCommand Aes.encrypt backupCardRecord {}
        [dfcCmdReadData, 0x01, 1, 0, 0, 2, 0, 0] =
      some (afterCommand backupCardRecord [dfcCmdReadData, 0x01, 1, 0, 0, 2, 0, 0],
        .accepted [0x02, 0x03]) ∧
    [0x02, 0x03] = (liveContents backupCard.credential 0).slice 1 2 := by
  have hcommand : dfcEmulatorHandleCommand Aes.encrypt backupCardRecord {}
      [dfcCmdReadData, 0x01, 1, 0, 0, 2, 0, 0] = some (_, .accepted [0x02, 0x03]) :=
    afterCommand_eq backupCard_reads.1.1
  obtain ⟨-, ⟨hoctets, -⟩, ⟨horigin, -⟩, -⟩ := backupCard_answers
  obtain ⟨-, ⟨hfind, -⟩, htype, hsdm⟩ := backupCard_reads
  have hread := readData_isolated backupCard_reachable rfl backupCard_run rfl hcommand hfind
    htype hsdm
  exact ⟨hoctets, hcommand, (hread.1 0 horigin).2⟩

end DfcCore
