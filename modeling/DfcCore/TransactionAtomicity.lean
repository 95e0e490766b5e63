import DfcCore.ApplicationFiles
import DfcCore.DecodedPools
import DfcCore.IsoStore

/-!
# Transactions are atomic

The card over whole runs: whatever native and ISO commands it gets, whatever lies outside the card
fails, and wherever the session is reset or another application selected, the backup and record
files change by a commit alone, and then all at once. A commit is an accepted CommitTransaction, or
an ISO command that writes, which publishes what it writes. Between two states without an open
transaction and without a commit in between the files hold what they held; deleted files are gone,
and new ones blank.
-/
namespace DfcCore
open Der

variable {aes : List UInt8 → List UInt8 → List UInt8} {e e' : DfcEmulator} {env : CommandEnv}
  {apdu payload : List UInt8} {i : ℕ} {commits : Bool} {o : Origin}

/-- What is committed is what was committed. -/
theorem Dropped.ledgerOf (h : Dropped e e') : ledgerOf e' = ledgerOf e := by
  unfold DfcCore.ledgerOf
  obtain hsame | hback := h.store
  · rw [hsame]
  · rw [hback]
    exact ledger_map (f := Cell.rollback) (fun _ => rfl) (fun _ => rfl) _

/-- Whatever a handler has done before it refuses, no write of it is left. -/
theorem dropped_refusalStates (h : StoreSound e) :
    RefusalStates aes e (Dropped e) (Dropped e) where
  same := .refl h.sound
  abandoned {_ _ opened} hopen := by
    obtain ⟨hsound, hstore⟩ := h.openJournal hopen
    have hopened : Dropped e opened := ⟨hsound, .inl hstore⟩
    unfold abandonJournal
    split_ifs
    · exact hopened
    · exact (hopened.rollback hsound.abortSnapshot.1 hsound.abortSnapshot.2).2
  read hread := (Dropped.refl h.sound).frame hread.storeFrame
  ofRetry hretry := hretry
  opened hopen := ⟨(h.openJournal hopen).1, .inl (h.openJournal hopen).2⟩
  taken hread htaken := (Dropped.refl h.sound).frame (hread.storeFrame.trans htaken.storeFrame)
  chain hleft := hleft.frame (.clearPendingChain _)
  reset hleft := hleft.reset
  cleared := by
    refine (Dropped.refl h.sound).frame (StoreFrame.trans ?_ (.clearTransactionMac _))
    refine .mapFilesOf e e.selectedAppIndex (fun file => ?_) fun file => ?_
    · split_ifs <;> rfl
    · split_ifs <;> rfl
  aborted := (Dropped.refl h.sound).abort

theorem Handled.ofAnswer_refused_answer {a : Answer} {r : Refusal}
    (h : Handled.ofAnswer a = .error r) : a.2 ≠ [dfcStatusOk] := by
  obtain ⟨e', octets⟩ := a
  rintro rfl
  cases h

theorem dispatchFileCommand_dropped {r : Refusal} (h : StoreSound e)
    (hdispatch : dispatchFileCommand aes e env apdu = some (.error r)) :
    Dropped e r.emulator := by
  refine (dispatchFileCommand_refusedTo (dropped_refusalStates h)
    (fun type a hcreation hrefused => ?_) hdispatch).1
  have hanswer := hcreation.creationAnswer h.sound
  exact ⟨hanswer.added.sound, .inl (hanswer.refused (Handled.ofAnswer_refused_answer hrefused))⟩

/-- A refused command commits nothing: the store is as it was, or rolled back. -/
theorem refused_dropped {status : UInt8} (h : StoreSound e)
    (hcommand : dfcEmulatorHandleCommand aes e env apdu = some (e', .refused status)) :
    Dropped e e' := by
  unfold dfcEmulatorHandleCommand at hcommand
  rw [Option.map_eq_some_iff] at hcommand
  obtain ⟨handled, hdispatch, hfinish⟩ := hcommand
  cases handled with
  | ok s => cases congrArg Prod.snd hfinish
  | error r =>
    obtain rfl := congrArg Prod.fst hfinish
    exact (dispatchFileCommand_dropped h hdispatch).finish _

/-- An accepted command is its handler's doing. -/
theorem dispatch_of_accepted
    (h : dfcEmulatorHandleCommand aes e env apdu = some (e', .accepted payload)) :
    dispatchFileCommand aes e env apdu = some (.ok (e', payload)) := by
  unfold dfcEmulatorHandleCommand at h
  rw [Option.map_eq_some_iff] at h
  obtain ⟨handled, hdispatch, hfinish⟩ := h
  cases handled with
  | error r => cases congrArg Prod.snd hfinish
  | ok s =>
    obtain ⟨e₁, octets⟩ := s
    obtain ⟨rfl, hpayload⟩ := Prod.mk.injEq .. ▸ hfinish
    rw [hdispatch, Reply.accepted.inj hpayload]

theorem ne_nil_of_getD {command : UInt8} (hcmd : dfcFileCommandBase (apdu.getD 0 0) = command)
    (hcommand : dfcFileCommandBase 0 ≠ command) : apdu ≠ [] := by
  rintro rfl
  exact hcommand hcmd

/-- Whether a command was a commit and was accepted. -/
def commitsStore (apdu : List UInt8) : Reply → Bool
  | .accepted _ => apdu.getD 0 0 == dfcCmdCommitTransaction
  | .refused _ => false

/-- Where the files stood before a command: an accepted deletion takes one out. -/
def commandOrigin (e : DfcEmulator) (apdu : List UInt8) : Reply → Origin
  | .accepted _ =>
    if dfcFileCommandBase (apdu.getD 0 0) = dfcCmdDeleteFile then
      match dfcCredentialFindFileInApp e.credential e.selectedAppIndex (apdu.getD 1 0) with
      | some i => .left ((List.range e.credential.numFiles).eraseIdx i)
      | none => .stay e.credential.numFiles
    else .stay e.credential.numFiles
  | .refused _ => .stay e.credential.numFiles

/-- One step of the card, with where its files stood before; the flag tells a commit. What happens
outside the commands on files, applications and transactions leaves the files, their octets and
the journal where they are. -/
inductive StoreStep (aes : List UInt8 → List UInt8 → List UInt8) :
    Bool → Origin → DfcEmulator → DfcEmulator → Prop where
  | command {e e' : DfcEmulator} {env : CommandEnv} {apdu : List UInt8} {reply : Reply}
      (h : dfcEmulatorHandleCommand aes e env apdu = some (e', reply)) :
      StoreStep aes (commitsStore apdu reply) (commandOrigin e apdu reply) e e'
  | application {e e' : DfcEmulator} {apdu : List UInt8} {reply : Reply}
      (h : dfcEmulatorHandleApplicationCommand e apdu = some (e', reply)) :
      StoreStep aes false (applicationOrigin e apdu reply) e e'
  | iso {s s' : IsoSession} {env : IsoEnv} {command : List UInt8} {answer : IsoAnswer}
      (h : isoExchange s env command = some (s', answer)) :
      StoreStep aes (isoCommits command answer) (.stay s.emulator.credential.numFiles) s.emulator
        s'.emulator
  | reset (e : DfcEmulator) :
      StoreStep aes false (.stay e.credential.numFiles) e (dfcEmulatorResetSession e)
  | select (e : DfcEmulator) (selection : DfcEmulatorSelectedApplication) (appIndex : ℕ) :
      StoreStep aes false (.stay e.credential.numFiles) e
        (dfcEmulatorSelectApplication e selection appIndex)
  | abort (e : DfcEmulator) :
      StoreStep aes false (.stay e.credential.numFiles) e (dfcEmulatorAbortTransaction e).1
  | outside {e e' : DfcEmulator} (h : StoreFrame e e') :
      StoreStep aes false (.stay e.credential.numFiles) e e'

/-- A run in which nothing is committed, with where its files stood before it. -/
inductive UncommittedRun (aes : List UInt8 → List UInt8 → List UInt8) (e : DfcEmulator) :
    Origin → DfcEmulator → Prop where
  | refl : UncommittedRun aes e (.stay e.credential.numFiles) e
  | tail {o o' : Origin} {e₁ e' : DfcEmulator} (hrun : UncommittedRun aes e o e₁)
      (hstep : StoreStep aes false o' e₁ e') : UncommittedRun aes e (o.andThen o') e'

/-- A command that is no accepted commit is a step of such a run. -/
theorem UncommittedRun.command {e₁ : DfcEmulator} {reply : Reply}
    (hrun : UncommittedRun aes e o e₁)
    (h : dfcEmulatorHandleCommand aes e₁ env apdu = some (e', reply))
    (hcommits : commitsStore apdu reply = false) :
    UncommittedRun aes e (o.andThen (commandOrigin e₁ apdu reply)) e' := by
  have hstep := StoreStep.command h
  rw [hcommits] at hstep
  exact hrun.tail hstep

/-- A card that is switched on, with its files in order. -/
structure StoreReady (e : DfcEmulator) : Prop where
  on : SwitchedOn e
  files : FilePoolInv False e.credential
  apps : e.credential.numApps ≤ dfcMaxApps
  fits : ∀ i < e.credential.numFiles, (liveContents e.credential i).Fits

/-- A state the card comes to. -/
def StoreReachable (aes : List UInt8 → List UInt8 → List UInt8) (e : DfcEmulator) : Prop :=
  ∃ e₀, StoreReady e₀ ∧
    Relation.ReflTransGen (fun e e' => ∃ commits o, StoreStep aes commits o e e') e₀ e

theorem StoreReady.storeSound (h : StoreReady e) : StoreSound e := by
  have hidle : e.snapshot.active = false := by rw [h.on.snapshot]
  have hsound : JournalSound e :=
    .of_idle (.of_idle h.on.snapshot h.on.count h.on.files) h.files h.apps hidle
  refine ⟨hsound, fun x hx => ?_⟩
  obtain ⟨j, hj, rfl⟩ := List.mem_map.mp hx
  rw [hsound.storeCell_of_idle hidle (List.mem_range.mp hj)]
  exact ⟨h.fits j (List.mem_range.mp hj), by simp⟩

/-- The invariant of the pools does not depend on what it says of the octets behind them. -/
theorem FilePoolInv.weaken {z : Prop} {c : DfcCredential} (h : FilePoolInv z c) :
    FilePoolInv False c := ⟨h.packed, h.fit, False.elim, h.sentinel⟩

/-- A card that is decoded and complete is ready when it is switched on. -/
theorem storeReady_of_decode {input : Slice} {c c' : DfcCredential} {sizeMax scratchLen : ℕ}
    (hdecode : decodeCredential input = .ok c) (hsize : dfcFilePoolSize ≤ sizeMax)
    (hcounted : ∀ i < c.numFiles, Counted sizeMax (c.files i))
    (hcomplete : dfcCredentialMaterializeContents c sizeMax scratchLen = (c', true)) :
    StoreReady { credential := c' } := by
  have hcard := completeCard_of_decode hdecode hsize hcounted hcomplete
  refine ⟨⟨rfl, hcard.count, hcard.settled⟩, hcard.pools.files.weaken, hcard.apps, fun i hi => ?_⟩
  by_cases hrecord : dfcFileTypeIsRecord (c'.files i).type = true
  · obtain ⟨hsize, hfit⟩ := hcard.records i hi hrecord
    have hcount : (c'.files i).recordCount = (c'.files i).state.record.count := if_pos hrecord
    have hlength : (c'.files i).recordSize = (c'.files i).state.record.size := if_pos hrecord
    have hlen := (hcard.pools.files.packed.le_used (Finset.mem_range.mpr hi)).trans
      hcard.pools.files.fit
    have hmany := (Nat.le_mul_of_pos_right (c'.files i).state.record.count hsize).trans hfit
    simp only [dfcFilePoolSize] at hlen
    refine ⟨?_, ?_⟩
    · show (c'.files i).recordCount < 65536
      omega
    · show (c'.files i).recordCount * (c'.files i).recordSize ≤ (c'.filePool.read _ _).length
      rw [hcount, hlength, Mem.length_read]
      exact hfit
  · exact fits_of_empty (if_neg hrecord)

theorem commitTransaction_of_accepted (hcmd : apdu.getD 0 0 = dfcCmdCommitTransaction)
    (hcommand : dfcEmulatorHandleCommand aes e env apdu = some (e', .accepted payload)) :
    commitTransaction aes e env apdu = .ok (e', payload) := by
  have hbase := (fileCommandBase_ending (apdu.getD 0 0) dfcCmdCommitTransaction (by simp)).mpr hcmd
  have hdispatch := dispatch_of_accepted hcommand
  unfold dispatchFileCommand at hdispatch
  rw [hbase, if_neg (ne_nil_of_getD hbase (by decide))] at hdispatch
  exact Option.some.inj hdispatch

/-- What an accepted commit does: the store commits every cell, and the journal is closed. -/
theorem accepted_commit (h : StoreSound e) (hcmd : apdu.getD 0 0 = dfcCmdCommitTransaction)
    (hcommand : dfcEmulatorHandleCommand aes e env apdu = some (e', .accepted payload)) :
    StoreSound e' ∧ storeOf e' = (storeOf e).map Cell.commit ∧ e'.snapshot.active = false := by
  obtain ⟨hsound, hstore, hidle⟩ :=
    commit_store h.sound (commitTransaction_of_accepted hcmd hcommand)
  refine ⟨⟨hsound, ?_⟩, hstore, hidle⟩
  have hmove : StoreMove FileKey.covered Contents.Blank Contents.Fits true (storeOf e)
      ((storeOf e).map Cell.commit) := .commit _
  rw [hstore]
  exact hmove.holds (fun _ => Contents.Blank.fits) h.fits

/-- Every other command commits nothing to the files, and tells where they stood. -/
theorem command_keptFrom {reply : Reply} (h : StoreSound e)
    (hcommand : dfcEmulatorHandleCommand aes e env apdu = some (e', reply))
    (hcommits : commitsStore apdu reply = false) :
    KeptFrom (commandOrigin e apdu reply) e e' := by
  cases reply with
  | refused status => exact (refused_dropped h hcommand).keptFrom h
  | accepted payload =>
    have hdispatch := dispatch_of_accepted hcommand
    unfold commandOrigin
    by_cases hdelete : dfcFileCommandBase (apdu.getD 0 0) = dfcCmdDeleteFile
    · rw [if_pos hdelete]
      unfold dispatchFileCommand at hdispatch
      rw [hdelete, if_neg (ne_nil_of_getD hdelete (by decide))] at hdispatch
      obtain ⟨i, hfind, hkept⟩ := deleteFile_keptFrom h (Option.some.inj hdispatch)
      rw [hfind]
      exact hkept
    · rw [if_neg hdelete]
      have hnot : apdu.getD 0 0 ≠ dfcCmdCommitTransaction := beq_eq_false_iff_ne.mp hcommits
      have hbase : dfcFileCommandBase (apdu.getD 0 0) ≠ dfcCmdCommitTransaction := fun hbase =>
        hnot ((fileCommandBase_ending _ dfcCmdCommitTransaction (by simp)).mp hbase)
      exact (accepted_movesTo h hdispatch hbase hdelete).keptFrom h

/-- A step that is no commit. -/
theorem StoreStep.keptFrom (h : StoreSound e) (hstep : StoreStep aes false o e e') :
    KeptFrom o e e' := by
  generalize hflag : false = commits at hstep
  cases hstep with
  | command hcommand => exact command_keptFrom h hcommand hflag.symm
  | application hcommand => exact applicationCommand_keptFrom h hcommand
  | iso hexchange =>
    have houtcome := isoExchange_outcome h hexchange
    unfold IsoOutcome at houtcome
    dsimp only at houtcome
    rw [← hflag, if_neg Bool.false_ne_true] at houtcome
    exact houtcome.keptFrom h
  | reset => exact (Dropped.refl h.sound).reset.keptFrom h
  | select => exact ((Dropped.refl h.sound).select _ _).keptFrom h
  | abort => exact (Dropped.refl h.sound).abort.keptFrom h
  | outside hframe => exact ((Dropped.refl h.sound).frame hframe).keptFrom h

/-- A commit closes the journal. -/
theorem StoreStep.storeIdle (h : StoreSound e) (hstep : StoreStep aes true o e e') :
    StoreIdle e' := by
  generalize hflag : true = commits at hstep
  cases hstep with
  | @command _ _ _ apdu reply hcommand =>
    cases reply with
    | refused status => cases hflag
    | accepted payload =>
      obtain ⟨hsound, -, hidle⟩ := accepted_commit h (beq_iff_eq.mp hflag.symm) hcommand
      exact ⟨hsound, hidle⟩
  | application hcommand => cases hflag
  | iso hexchange =>
    have houtcome := isoExchange_outcome h hexchange
    unfold IsoOutcome at houtcome
    dsimp only at houtcome
    rw [← hflag, if_pos rfl] at houtcome
    exact houtcome
  | reset => cases hflag
  | select => cases hflag
  | abort => cases hflag
  | outside hframe => cases hflag

theorem StoreStep.storeSound (h : StoreSound e) (hstep : StoreStep aes commits o e e') :
    StoreSound e' := by
  cases commits with
  | false => exact (hstep.keptFrom h).sound
  | true => exact (hstep.storeIdle h).sound

/-- In every state the card comes to, the journal is sound. -/
theorem StoreReachable.storeSound (h : StoreReachable aes e) : StoreSound e := by
  obtain ⟨e₀, hready, hrun⟩ := h
  induction hrun with
  | refl => exact hready.storeSound
  | tail _ hstep ih =>
    obtain ⟨commits, o, hstep⟩ := hstep
    exact hstep.storeSound ih

/-- As long as nothing is committed, what is committed to the files stays. -/
theorem UncommittedRun.keptFrom (h : StoreSound e) (hrun : UncommittedRun aes e o e') :
    KeptFrom o e e' := by
  induction hrun with
  | refl => exact (Dropped.refl h.sound).keptFrom h
  | tail _ hstep ih => exact ih.trans (hstep.keptFrom ih.sound)

/-- The contents of a file are those of the file it was, whose number and type it has; a new file
is blank. -/
def HeldFrom (c : DfcCredential) (kind : UInt8 × UInt8) (v : Contents) : Option ℕ → Prop
  | some j => j < c.numFiles ∧ kind = (c.files j).key.kind ∧ v = liveContents c j
  | none => v.Blank

/-- What is committed to a file is what the pool held when no transaction was open. -/
theorem KeptFrom.heldFrom (h : KeptFrom o e e') (hidle : e.snapshot.active = false)
    (hi : i < e'.credential.numFiles) (hcovered : (e'.credential.files i).key.covered = true) :
    HeldFrom e.credential (e'.credential.files i).key.kind (committedContents e' i) (o i) := by
  have hheld := h.committed i (storeCell e' i) (by rw [storeOf_getElem?, if_pos hi]) hcovered
  cases hplace : o i with
  | none =>
    rw [hplace] at hheld
    exact hheld
  | some j =>
    rw [hplace] at hheld
    obtain ⟨y, hy, hkind, hcommitted⟩ := hheld
    rw [storeOf_getElem?] at hy
    split_ifs at hy with hj
    obtain rfl := Option.some.inj hy
    refine ⟨hj, hkind, hcommitted.trans ?_⟩
    exact committedContents_of_idle hidle j

/-- The contents of the backup and record files in the file pool, in order. -/
def poolLedger (c : DfcCredential) : List (FileKey × Contents) :=
  ((List.range c.numFiles).filter fun i => (c.files i).key.covered).map fun i =>
    ((c.files i).key, liveContents c i)

/-- The pool holds what is committed when no transaction is open. -/
theorem JournalSound.ledgerOf_of_idle (hidle : e.snapshot.active = false) :
    ledgerOf e = poolLedger e.credential := by
  unfold ledgerOf ledger storeOf poolLedger
  rw [List.filter_map, List.map_map]
  refine List.map_congr_left fun j _ => ?_
  show ((e.credential.files j).key, committedContents e j) = _
  rw [committedContents_of_idle hidle]

/-- The pool holds what the cells show. -/
theorem JournalSound.poolLedger_eq (h : JournalSound e) :
    poolLedger e.credential =
      ((storeOf e).filter fun x => x.key.covered).map fun x => (x.key, x.shown) := by
  unfold storeOf poolLedger
  rw [List.filter_map, List.map_map]
  refine List.map_congr_left fun j hj => ?_
  have hlt := List.mem_range.mp (List.mem_filter.mp hj).1
  show _ = ((e.credential.files j).key, (storeCell e j).shown)
  rw [h.shown hlt]

theorem resetSession_inactive (e : DfcEmulator) :
    (dfcEmulatorResetSession e).snapshot.active = false := abortSnapshot_inactive _

/-- What is committed is what a session reset leaves in the pool. -/
theorem JournalSound.reset_restores (h : JournalSound e) :
    poolLedger (dfcEmulatorResetSession e).credential = ledgerOf e := by
  rw [← JournalSound.ledgerOf_of_idle (resetSession_inactive e)]
  exact (Dropped.refl h).reset.ledgerOf

theorem Coverable.of_covered (h : StoreSound e) (hi : i < e.credential.numFiles)
    (happ : (e.credential.files i).appIndex = e.selectedAppIndex)
    (hkey : (e.credential.files i).key.covered = true) : Coverable e i := by
  refine ⟨hi, happ, ?_, h.recordCount hi⟩
  unfold FileKey.covered DfcFile.key at hkey
  unfold transactionFileHasData
  simpa using hkey

/-- A card with a selected application of two files that all may use: a backup file of four
octets, and a linear record file with one of its three records written. -/
def backupCard : DfcEmulator :=
  { credential :=
      { numApps := 1
        apps := fun _ => { numKeys := 1, keySettings1 := 0x0F, keySettings2 := 0x81 }
        numFiles := 2
        filePoolUsed := 10
        filePool := fun a => [0x01, 0x02, 0x03, 0x04, 0xA1, 0xA2].getD a 0
        files := fun i =>
          if i = 0 then
            { number := 0x01, type := dfcFileTypeBackupData, accessRights := 0xEEEE
              dataOffset := 0, dataLen := 4 }
          else
            { number := 0x02, type := dfcFileTypeLinearRecord, accessRights := 0xEEEE
              dataOffset := 4, dataLen := 6
              state := { record := { size := 2, maxRecords := 3, count := 1 } } } }
    selectedApplication := .app }

theorem storeReady_backupCard : StoreReady backupCard where
  on :=
    { snapshot := rfl
      count := by decide
      files := by decide }
  files :=
    { packed := ⟨by decide, by decide, by decide⟩
      fit := by decide
      zero := False.elim
      sentinel := by decide }
  apps := by decide
  fits := by
    unfold Contents.Fits
    decide

theorem backupCard_reachable : StoreReachable Aes.encrypt backupCard :=
  ⟨_, storeReady_backupCard, .refl⟩

/-- The card after a WriteData into the backup file. -/
def backupCardData : DfcEmulator :=
  afterCommand backupCard [dfcCmdWriteData, 0x01, 1, 0, 0, 2, 0, 0, 0x0B, 0x0C]

/-- The card after a WriteRecord as well. -/
def backupCardRecord : DfcEmulator :=
  afterCommand backupCardData [dfcCmdWriteRecord, 0x02, 0, 0, 0, 2, 0, 0, 0xB1, 0xB2]

/-- The card after the commit. -/
def backupCardCommitted : DfcEmulator := afterCommand backupCardRecord [dfcCmdCommitTransaction]

/-- The card with another WriteData pending. -/
def backupCardAgain : DfcEmulator :=
  afterCommand backupCardCommitted [dfcCmdWriteData, 0x01, 0, 0, 0, 1, 0, 0, 0x0A]

/-- Where the files of the card stood before the two writes. -/
def backupCardOrigin : Origin :=
  ((Origin.stay 2).andThen (commandOrigin backupCard
    [dfcCmdWriteData, 0x01, 1, 0, 0, 2, 0, 0, 0x0B, 0x0C] (.accepted []))).andThen
    (commandOrigin backupCardData [dfcCmdWriteRecord, 0x02, 0, 0, 0, 2, 0, 0, 0xB1, 0xB2]
      (.accepted []))

/-- What the card answers to the two writes, to a read behind the end of the backup file, to a
commit and to one more write, and what it holds. -/
theorem backupCard_answers :
    ((dfcEmulatorHandleCommand Aes.encrypt backupCard {}
        [dfcCmdWriteData, 0x01, 1, 0, 0, 2, 0, 0, 0x0B, 0x0C]).map Prod.snd = some (.accepted []) ∧
      (dfcEmulatorHandleCommand Aes.encrypt backupCardData {}
        [dfcCmdWriteRecord, 0x02, 0, 0, 0, 2, 0, 0, 0xB1, 0xB2]).map Prod.snd =
          some (.accepted []) ∧
      (dfcEmulatorHandleCommand Aes.encrypt backupCardRecord {}
        [dfcCmdReadData, 0x01, 0, 0, 0, 9, 0, 0]).map Prod.snd =
          some (.refused dfcStatusBoundaryError) ∧
      (dfcEmulatorHandleCommand Aes.encrypt backupCardRecord {}
        [dfcCmdCommitTransaction]).map Prod.snd = some (.accepted []) ∧
      (dfcEmulatorHandleCommand Aes.encrypt backupCardCommitted {}
        [dfcCmdWriteData, 0x01, 0, 0, 0, 1, 0, 0, 0x0A]).map Prod.snd = some (.accepted [])) ∧
    ((liveContents backupCardRecord.credential 0).octets = [0x01, 0x0B, 0x0C, 0x04] ∧
      (liveContents backupCardAgain.credential 0).octets = [0x0A, 0x0B, 0x0C, 0x04]) ∧
    (backupCardOrigin 0 = some 0 ∧ backupCardOrigin 1 = some 1) ∧
    ((dfcEmulatorResetSession backupCardRecord).credential.numFiles = 2 ∧
      ((dfcEmulatorResetSession backupCardRecord).credential.files 0).key.covered = true) ∧
    ((dfcEmulatorResetSession backupCardAgain).credential.numFiles = 2 ∧
      ((dfcEmulatorResetSession backupCardAgain).credential.files 0).key.covered = true) ∧
    ((Origin.stay backupCardCommitted.credential.numFiles).andThen
      (commandOrigin backupCardCommitted [dfcCmdWriteData, 0x01, 0, 0, 0, 1, 0, 0, 0x0A]
        (.accepted []))) 0 = some 0 ∧
    1 < backupCardRecord.credential.numFiles ∧
    (backupCardRecord.credential.files 1).appIndex = backupCardRecord.selectedAppIndex ∧
    (backupCardRecord.credential.files 1).key.covered = true ∧
    backupCardRecord.snapshot.active = true := by
  decide +kernel

theorem backupCard_run :
    UncommittedRun Aes.encrypt backupCard backupCardOrigin backupCardRecord := by
  have hdata : dfcEmulatorHandleCommand Aes.encrypt backupCard {}
      [dfcCmdWriteData, 0x01, 1, 0, 0, 2, 0, 0, 0x0B, 0x0C] = some (backupCardData, .accepted []) :=
    afterCommand_eq backupCard_answers.1.1
  have hrecord : dfcEmulatorHandleCommand Aes.encrypt backupCardData {}
      [dfcCmdWriteRecord, 0x02, 0, 0, 0, 2, 0, 0, 0xB1, 0xB2] =
        some (backupCardRecord, .accepted []) := afterCommand_eq backupCard_answers.1.2.1
  exact (UncommittedRun.refl.command hdata (by decide)).command hrecord (by decide)

theorem UncommittedRun.reachable (h : StoreReachable aes e) (hrun : UncommittedRun aes e o e') :
    StoreReachable aes e' := by
  induction hrun with
  | refl => exact h
  | @tail _ o' _ _ _ hstep ih =>
    obtain ⟨e₀, hready, hbefore⟩ := ih
    exact ⟨e₀, hready, hbefore.tail ⟨false, o', hstep⟩⟩

theorem backupCardRecord_reachable : StoreReachable Aes.encrypt backupCardRecord :=
  backupCard_run.reachable backupCard_reachable

/-- Between two states without an open transaction the backup and record files change by a commit
alone: whatever commands, failures, resets and selections lie in between, without one every file
holds what the file it was has held, and a file that was created is still blank. Files go by
deletion alone. -/
theorem uncommittedRun_atomic (hreach : StoreReachable aes e) (hidle : e.snapshot.active = false)
    (hrun : UncommittedRun aes e o e') (hidle' : e'.snapshot.active = false) :
    (∀ i < e'.credential.numFiles, (e'.credential.files i).key.covered = true →
      HeldFrom e.credential (e'.credential.files i).key.kind (liveContents e'.credential i) (o i)) ∧
    ∀ i j, o i = some j → i < e'.credential.numFiles := by
  have hkept := hrun.keptFrom hreach.storeSound
  refine ⟨fun i hi hcovered => ?_, hkept.places⟩
  rw [← committedContents_of_idle hidle' i]
  exact hkept.heldFrom hidle hi hcovered

/-- The session is reset after two writes: they are gone. -/
theorem uncommittedRun_atomic_backupCard :
    (liveContents backupCardRecord.credential 0).octets = [0x01, 0x0B, 0x0C, 0x04] ∧
      liveContents (dfcEmulatorResetSession backupCardRecord).credential 0 =
        liveContents backupCard.credential 0 := by
  obtain ⟨-, ⟨hwritten, -⟩, ⟨horigin, -⟩, ⟨hnum, hcovered⟩, -, -, hlt, -⟩ := backupCard_answers
  have hatomic := (uncommittedRun_atomic backupCard_reachable rfl
    (backupCard_run.tail (.reset backupCardRecord)) (resetSession_inactive _)).1 0
    (hnum ▸ two_pos) hcovered
  have hplace : backupCardOrigin.andThen (.stay backupCardRecord.credential.numFiles) 0 =
      some 0 := by
    unfold Origin.andThen Origin.stay
    rw [if_pos (by omega)]
    exact horigin
  rw [hplace] at hatomic
  exact ⟨hwritten, hatomic.2.2⟩

/-- A refused command writes nothing: the files are as they were or the transaction is rolled
back, and a reset restores the same contents after it as before it. -/
theorem refused_writesNothing {status : UInt8} (hreach : StoreReachable aes e)
    (hcommand : dfcEmulatorHandleCommand aes e env apdu = some (e', .refused status)) :
    (storeOf e' = storeOf e ∨ storeOf e' = (storeOf e).map Cell.rollback) ∧
      poolLedger (dfcEmulatorResetSession e').credential =
        poolLedger (dfcEmulatorResetSession e).credential := by
  have hdropped := refused_dropped hreach.storeSound hcommand
  refine ⟨hdropped.store, ?_⟩
  rw [hdropped.sound.reset_restores, hreach.storeSound.sound.reset_restores]
  exact hdropped.ledgerOf

/-- A read behind the end of the backup file ends the transaction. -/
theorem refused_writesNothing_backupCard :
    dfcEmulatorHandleCommand Aes.encrypt backupCardRecord {}
        [dfcCmdReadData, 0x01, 0, 0, 0, 9, 0, 0] =
      some (afterCommand backupCardRecord [dfcCmdReadData, 0x01, 0, 0, 0, 9, 0, 0],
        .refused dfcStatusBoundaryError) ∧
    poolLedger (dfcEmulatorResetSession
        (afterCommand backupCardRecord [dfcCmdReadData, 0x01, 0, 0, 0, 9, 0, 0])).credential =
      poolLedger (dfcEmulatorResetSession backupCardRecord).credential := by
  have hcommand : dfcEmulatorHandleCommand Aes.encrypt backupCardRecord {}
      [dfcCmdReadData, 0x01, 0, 0, 0, 9, 0, 0] = some (_, .refused dfcStatusBoundaryError) :=
    afterCommand_eq backupCard_answers.1.2.2.1
  exact ⟨hcommand, (refused_writesNothing backupCardRecord_reachable hcommand).2⟩

/-- The values of a commit: in the selected application a pending value is the value now, and all
other values stay. -/
structure ValuesPublished (e e' : DfcEmulator) : Prop where
  pending : ∀ i < e.credential.numFiles,
    (e.credential.files i).appIndex = e.selectedAppIndex →
    (e.credential.files i).hasPendingValue = true →
    (e'.credential.files i).state.value.current = (e.credential.files i).state.value.committed ∧
      (e'.credential.files i).state.value.pending = false
  other : ∀ i < e.credential.numFiles, (e.credential.files i).appIndex ≠ e.selectedAppIndex ∨
    (e.credential.files i).hasPendingValue = false →
    (e'.credential.files i).state.value = (e.credential.files i).state.value

theorem publishTransaction_values (e : DfcEmulator) :
    ValuesPublished e (dfcEmulatorPublishTransaction e) where
  pending i hi howner hpending := by
    rw [publish_files, if_pos ⟨hi, howner⟩]
    unfold DfcFile.published
    rw [if_pos hpending]
    exact ⟨rfl, rfl⟩
  other i hi hother := by
    rw [publish_files]
    split_ifs with howned
    · have hnone := hother.resolve_left (not_not.mpr howned.2)
      unfold DfcFile.published
      rw [hnone, if_neg Bool.false_ne_true]
    · rfl

theorem commit_values (hok : commitTransaction aes e env apdu = .ok (e', payload)) :
    ValuesPublished e e' := by
  have hpublished := publishTransaction_values e
  obtain ⟨-, ⟨-, rfl, -⟩ | ⟨k, mac, counter, -, -, rfl, -⟩⟩ := commitTransaction_ok hok
  · exact hpublished
  · have hvalue (i : ℕ) : (((dfcEmulatorPublishTransaction e).storeTransactionCounter k
        e.transactionReaderIdPersist e.transactionPendingReaderId counter).credential.files
          i).state.value = ((dfcEmulatorPublishTransaction e).credential.files i).state.value := by
      unfold DfcEmulator.storeTransactionCounter DfcEmulator.mapCredential
      dsimp only
      rw [modifyFile_files]
      by_cases hik : i = k
      · rw [if_pos hik, hik]
        rfl
      · rw [if_neg hik]
    exact ⟨fun i hi howner hpending => by
        rw [hvalue]
        exact hpublished.pending i hi howner hpending,
      fun i hi hother => by rw [hvalue]; exact hpublished.other i hi hother⟩

/-- After a commit the pool holds for every file what it held before. -/
theorem commit_live (h : StoreSound e) (hsound : StoreSound e')
    (hstore : storeOf e' = (storeOf e).map Cell.commit) (hi : i < e'.credential.numFiles) :
    i < e.credential.numFiles ∧ (e'.credential.files i).key = (e.credential.files i).key ∧
      liveContents e'.credential i = liveContents e.credential i := by
  have hcell : (storeOf e')[i]? = ((storeOf e).map Cell.commit)[i]? := by rw [hstore]
  rw [storeOf_getElem?, if_pos hi, List.getElem?_map, storeOf_getElem?] at hcell
  split_ifs at hcell with hlt
  · have heq := Option.some.inj hcell
    refine ⟨hlt, congrArg Cell.key heq, ?_⟩
    rw [← hsound.sound.shown hi, ← h.sound.shown hlt, heq]
    rfl
  · cases hcell

/-- An accepted commit publishes the files as they stand, and all of them: the pool is left as it
is, every pending value is the value, and as long as nothing else is committed, every reset of the
session restores what the pool has held. -/
theorem commit_publishes (hreach : StoreReachable aes e)
    (hcmd : apdu.getD 0 0 = dfcCmdCommitTransaction)
    (hcommand : dfcEmulatorHandleCommand aes e env apdu = some (e', .accepted payload)) :
    e'.snapshot.active = false ∧ poolLedger e'.credential = poolLedger e.credential ∧
      ValuesPublished e e' ∧
      ∀ o e'', UncommittedRun aes e' o e'' →
        ∀ i < (dfcEmulatorResetSession e'').credential.numFiles,
          ((dfcEmulatorResetSession e'').credential.files i).key.covered = true →
          HeldFrom e.credential ((dfcEmulatorResetSession e'').credential.files i).key.kind
            (liveContents (dfcEmulatorResetSession e'').credential i) (o i) := by
  have h := hreach.storeSound
  obtain ⟨hsound, hstore, hidle⟩ := accepted_commit h hcmd hcommand
  have hledger : ledgerOf e' = poolLedger e.credential := by
    unfold ledgerOf
    rw [hstore, ledger_commit, h.sound.poolLedger_eq]
  refine ⟨hidle, ?_, commit_values (commitTransaction_of_accepted hcmd hcommand),
    fun o e'' hrun i hi hcovered => ?_⟩
  · rw [← JournalSound.ledgerOf_of_idle hidle, hledger]
  have hkept := hrun.keptFrom hsound
  have hreset := (Dropped.refl hkept.sound.sound).reset
  have hlt : i < e''.credential.numFiles := hreset.numFiles ▸ hi
  obtain ⟨hkey, hcommitted⟩ := hreset.cell hlt
  rw [← committedContents_of_idle (resetSession_inactive e''), hkey, hcommitted]
  rw [hkey] at hcovered
  have hheld := hkept.heldFrom hidle hlt hcovered
  cases hplace : o i with
  | none =>
    rw [hplace] at hheld
    exact hheld
  | some j =>
    rw [hplace] at hheld
    obtain ⟨hj, hkind, hlive⟩ := hheld
    obtain ⟨hj', hkey', hlive'⟩ := commit_live h hsound hstore hj
    exact ⟨hj', hkind.trans (congrArg FileKey.kind hkey'), hlive.trans hlive'⟩

/-- The commit publishes the write into the backup file, and the reset after one more write
restores it. -/
theorem commit_publishes_backupCard :
    ((liveContents backupCardRecord.credential 0).octets = [0x01, 0x0B, 0x0C, 0x04] ∧
      (liveContents backupCardAgain.credential 0).octets = [0x0A, 0x0B, 0x0C, 0x04]) ∧
    liveContents (dfcEmulatorResetSession backupCardAgain).credential 0 =
      liveContents backupCardRecord.credential 0 := by
  obtain ⟨⟨-, -, -, hcommit, hagain⟩, hwritten, -, -, ⟨hnum, hcovered⟩, horigin, -⟩ :=
    backupCard_answers
  have hcommand : dfcEmulatorHandleCommand Aes.encrypt backupCardRecord {}
      [dfcCmdCommitTransaction] = some (backupCardCommitted, .accepted []) :=
    afterCommand_eq hcommit
  have hwrite : dfcEmulatorHandleCommand Aes.encrypt backupCardCommitted {}
      [dfcCmdWriteData, 0x01, 0, 0, 0, 1, 0, 0, 0x0A] = some (backupCardAgain, .accepted []) :=
    afterCommand_eq hagain
  have hheld := (commit_publishes backupCardRecord_reachable rfl hcommand).2.2.2 _ _
    (UncommittedRun.refl.command hwrite (by decide)) 0 (hnum ▸ two_pos) hcovered
  rw [horigin] at hheld
  exact ⟨hwritten, hheld.2.2⟩

/-- The journal never gets in the way: every pre-image can be taken, and every pending write taken
back. -/
theorem journal_hasRoom (hreach : StoreReachable aes e) (hi : i < e.credential.numFiles) :
    ((e.credential.files i).appIndex = e.selectedAppIndex →
      (e.credential.files i).key.covered = true → (openJournal e false i).2 = true) ∧
    (e.snapshot.active = true → snapshotFileRecoverable e.snapshot e.credential i = true) := by
  refine ⟨fun happ hkey => ?_, fun hactive => hreach.storeSound.sound.recoverable hactive hi⟩
  have hcoverable : Coverable e i := .of_covered hreach.storeSound hi happ hkey
  obtain ⟨-, hfails, -⟩ | ⟨opened, hopen, -⟩ :=
    openJournal_cases hreach.storeSound.sound hcoverable false
  · cases hfails
  · rw [hopen]

/-- The record file with its write pending. -/
theorem journal_hasRoom_backupCard : (openJournal backupCardRecord false 1).2 = true ∧
    snapshotFileRecoverable backupCardRecord.snapshot backupCardRecord.credential 1 = true := by
  obtain ⟨-, -, -, -, -, -, hi, happ, hkey, hactive⟩ := backupCard_answers
  have hroom := journal_hasRoom backupCardRecord_reachable hi
  exact ⟨hroom.1 happ hkey, hroom.2 hactive⟩

end DfcCore
