import DfcCore.CommandEffects

/-!
# What a refused command left

A refused handler leaves the emulator as it was, or with an opened journal, with the
transaction given up, with the session ended, or with a file created and taken back. `Left`
lists these; a refusal that may be retried leaves less.
-/
namespace DfcCore
open Der

/-- The journal is open for the same application as before, and one that is not open is the
same. -/
structure SameJournal (s s' : DfcTransactionSnapshot) : Prop where
  active : s'.active = s.active
  appIndex : s'.appIndex = s.appIndex
  idle : s.active = false → s' = s

theorem SameJournal.refl (s : DfcTransactionSnapshot) : SameJournal s s := ⟨rfl, rfl, fun _ => rfl⟩

/-- At most one file more, behind the others, and nothing else but the journal changed. -/
structure FileAppended (e e' : DfcEmulator) (l : List DfcFile) : Prop where
  frame : e' = { e with credential := e'.credential, snapshot := e'.snapshot }
  journal : SameJournal e.snapshot e'.snapshot
  count : e.credential.numFiles ≤ dfcMaxFiles → e'.credential.numFiles ≤ dfcMaxFiles
  uid : e'.credential.uid = e.credential.uid
  uidLen : e'.credential.uidLen = e.credential.uidLen
  views : ∀ {β : Type} {view : DfcFile → β}, PlacementBlind view →
    fileViews view e'.credential = fileViews view e.credential ++ l.map view

theorem FileAppended.refl (e : DfcEmulator) : FileAppended e e [] where
  frame := rfl
  journal := .refl _
  count h := h
  uid := rfl
  uidLen := rfl
  views _ := by simp

theorem FileFrame.uid {c c' : DfcCredential} (h : FileFrame c c') : c'.uid = c.uid := by
  obtain ⟨_, _, _, _, rfl⟩ := h
  rfl

theorem FileFrame.uidLen {c c' : DfcCredential} (h : FileFrame c c') : c'.uidLen = c.uidLen := by
  obtain ⟨_, _, _, _, rfl⟩ := h
  rfl

/-- Deleting the file that was just added takes it away, or finds none. -/
theorem FileAdded.deleteFile {β : Type} {view : DfcFile → β} (hview : PlacementBlind view)
    {c c' : DfcCredential} {appIndex : ℕ} {file : DfcFile} (h : FileAdded c c' appIndex file) :
    fileViews view (dfcCredentialDeleteFile c' appIndex file.number).1 =
      fileViews view c ++ (if (dfcCredentialFindFileInApp c' appIndex file.number).isSome then []
        else [view file]) := by
  cases hfind : dfcCredentialFindFileInApp c' appIndex file.number with
  | none =>
    have hdelete : (dfcCredentialDeleteFile c' appIndex file.number).1 = c' := by
      rw [dfcCredentialDeleteFile, hfind]
    rw [hdelete]
    exact h.views
  | some i =>
    have hi : i < c'.numFiles := List.mem_range.1 (List.mem_of_find?_eq_some hfind)
    have hnotOld : ¬i < c.numFiles := by
      intro hold
      have hmatch := List.find?_some hfind
      rw [h.kept i hold] at hmatch
      have hfresh := List.find?_range_eq_none.1 h.fresh i hold
      rw [hmatch] at hfresh
      cases hfresh
    have hlast : i = (fileViews view c).length := by
      rw [h.numFiles] at hi
      simp only [fileViews, List.length_map, List.length_range]
      omega
    rw [hview.deleteFile hfind, h.views, hlast, List.eraseIdx_append_of_length_le le_rfl,
      Nat.sub_self]
    simp

theorem deleteFile_numFiles_le (c : DfcCredential) (appIndex : ℕ) (number : UInt8) :
    (dfcCredentialDeleteFile c appIndex number).1.numFiles ≤ c.numFiles := by
  cases hfind : dfcCredentialFindFileInApp c appIndex number with
  | none => rw [dfcCredentialDeleteFile, hfind]
  | some i =>
    rw [dfcCredentialDeleteFile, hfind]
    dsimp only [dfcFilesRemove]
    rw [release_numFiles]
    exact Nat.sub_le _ _

theorem fileFrame_setDataSize (c : DfcCredential) (i size : ℕ) :
    FileFrame c (dfcFileSetDataSize c i size).1 := by
  have hresize := fileFrame_resize c i size
  unfold dfcFileSetDataSize
  split_ifs
  · exact .refl c
  · cases hz : dfcFileResize c i size with
    | mk d ok =>
      rw [hz] at hresize
      cases ok with
      | false => exact hresize
      | true =>
        dsimp only
        cases dfcFileSetDeclaredSize (d.files i) size with
        | none => exact hresize
        | some file => exact hresize.trans (fileFrame_modifyFile d i fun _ => _)

theorem publishCreatedFile_frame (e : DfcEmulator) (i : ℕ) :
    (publishCreatedFile e i).1 =
      { e with
        credential := (publishCreatedFile e i).1.credential
        snapshot := (publishCreatedFile e i).1.snapshot } := by
  unfold publishCreatedFile dfcEmulatorTransactionSnapshotInsertFile
    dfcEmulatorTransactionSnapshotNotePersistentChange
  by_cases hactive : e.snapshot.active = false
  · rw [if_pos hactive]
    dsimp only
    rw [hactive]
    rfl
  · rw [if_neg hactive]
    split_ifs
    · rfl
    · dsimp only
      split_ifs <;> rfl

theorem publishCreatedFile_journal (e : DfcEmulator) (i : ℕ) :
    SameJournal e.snapshot (publishCreatedFile e i).1.snapshot := by
  unfold publishCreatedFile dfcEmulatorTransactionSnapshotInsertFile
    dfcEmulatorTransactionSnapshotNotePersistentChange
  by_cases hactive : e.snapshot.active = false
  · rw [if_pos hactive]
    dsimp only
    rw [hactive]
    exact .refl _
  · have hopen : e.snapshot.active = true := by simpa using hactive
    rw [if_neg hactive]
    split_ifs
    · exact .refl _
    · dsimp only
      rw [if_pos hopen]
      exact ⟨rfl, rfl, fun hidle => absurd hidle hactive⟩

theorem createFile_none {c c' : DfcCredential} {appIndex : ℕ} {number : UInt8}
    (h : dfcCredentialCreateFile c appIndex number = (c', none)) : c' = c := by
  unfold dfcCredentialCreateFile at h
  split_ifs at h
  · exact (congrArg Prod.fst h).symm
  · exact (congrArg Prod.fst h).symm
  · exact (congrArg Prod.fst h).symm
  · exact absurd (congrArg Prod.snd h) (by simp)

/-- A file of the type as a create command leaves it. -/
structure JustCreated (type : UInt8) (file : DfcFile) : Prop where
  type_eq : file.type = type
  value : file.state.value.pending = false
  limited : file.state.value.limitedCreditPending = 0
  pending : file.transactionPending = false

/-- What a create command may have done, accepted or not. -/
def MayCreate (e : DfcEmulator) (type : UInt8) (e' : DfcEmulator) : Prop :=
  ∃ l : List DfcFile, FileAppended e e' l ∧ ∀ file ∈ l, JustCreated type file

theorem MayCreate.refl (e : DfcEmulator) (type : UInt8) : MayCreate e type e :=
  ⟨[], .refl e, fun _ h => absurd h List.not_mem_nil⟩

section
variable {e : DfcEmulator} {c : DfcCredential} {file : DfcFile} {type : UInt8}

theorem FileAdded.mayCreate_delete (h : FileAdded e.credential c e.selectedAppIndex file)
    (hframe : FileFrame e.credential c) (hfile : JustCreated type file) :
    MayCreate e type
      { e with credential := (dfcCredentialDeleteFile c e.selectedAppIndex file.number).1 } := by
  have hframe' := hframe.trans (fileFrame_delete c e.selectedAppIndex file.number)
  refine ⟨if (dfcCredentialFindFileInApp c e.selectedAppIndex file.number).isSome then []
    else [file], ⟨rfl, .refl _, fun _ => ?_, hframe'.uid, hframe'.uidLen, fun hview => ?_⟩,
    fun f hf => ?_⟩
  · have hcount := h.numFiles
    have hroom := h.room
    have hdeleted := deleteFile_numFiles_le c e.selectedAppIndex file.number
    exact hdeleted.trans (by omega)
  · rw [h.deleteFile hview]
    congr 1
    split_ifs <;> rfl
  · split_ifs at hf
    · exact absurd hf List.not_mem_nil
    · rw [List.mem_singleton.1 hf]
      exact hfile

theorem FileAdded.mayCreate_publish (h : FileAdded e.credential c e.selectedAppIndex file)
    (hframe : FileFrame e.credential c) (hfile : JustCreated type file) :
    MayCreate e type
      (publishCreatedFile { e with credential := c } e.credential.numFiles).1 := by
  have hin : ¬c.numFiles ≤ e.credential.numFiles := by
    rw [h.numFiles]
    omega
  have hcredential : ∃ dirty,
      (publishCreatedFile { e with credential := c } e.credential.numFiles).1.credential =
        { c with dirty := dirty } := by
    unfold publishCreatedFile dfcEmulatorTransactionSnapshotInsertFile
      dfcEmulatorTransactionSnapshotNotePersistentChange
    by_cases hactive : e.snapshot.active = false
    · refine ⟨true, ?_⟩
      rw [if_pos hactive]
      dsimp only
      rw [hactive]
      rfl
    · refine ⟨true, ?_⟩
      rw [if_neg hactive, if_neg hin]
      dsimp only
      split_ifs <;> rfl
  obtain ⟨dirty, hcredential⟩ := hcredential
  have hjournal := publishCreatedFile_journal { e with credential := c } e.credential.numFiles
  refine ⟨[file], ⟨publishCreatedFile_frame _ _, hjournal, fun _ => ?_, ?_, ?_,
    fun {β view} _ => ?_⟩, fun f hf => ?_⟩
  · have hcount := h.numFiles
    have hroom := h.room
    rw [hcredential]
    exact hcount.trans_le hroom
  · rw [hcredential]
    exact hframe.uid
  · rw [hcredential]
    exact hframe.uidLen
  · rw [hcredential]
    exact h.views
  · rw [List.mem_singleton.1 hf]
    exact hfile

end

theorem resize_refused {c c' : DfcCredential} {i n : ℕ} (h : dfcFileResize c i n = (c', false)) :
    c' = c := by
  unfold dfcFileResize at h
  dsimp only at h
  split_ifs at h
  · exact (congrArg Prod.fst h).symm
  · exact (congrArg Prod.fst h).symm
  · exact (congrArg Prod.fst h).symm
  cases hresolve : dfcPoolSliceResolve (c.files i).dataOffset (c.files i).dataLen c.filePoolUsed
      dfcFilePoolNone with
  | none =>
    rw [hresolve] at h
    exact (congrArg Prod.fst h).symm
  | some old =>
    rw [hresolve] at h
    dsimp only at h
    split_ifs at h
    all_goals first
      | exact (congrArg Prod.fst h).symm
      | exact absurd (congrArg Prod.snd h).symm Bool.false_ne_true

/-- A size that is refused leaves the new file without contents, or with unnamed ones. -/
theorem FileAdded.setDataSize_refused {c c' d : DfcCredential} {appIndex n : ℕ} {file : DfcFile}
    (h : FileAdded c c' appIndex file) (hslice : NoSlice file)
    (hs : dfcFileSetDataSize c' c.numFiles n = (d, false)) :
    ∃ file', FileAdded c d appIndex file' ∧ file'.number = file.number ∧
      file'.type = file.type ∧ file'.state = file.state ∧
      file'.transactionPending = file.transactionPending := by
  unfold dfcFileSetDataSize at hs
  split_ifs at hs
  · obtain rfl := congrArg Prod.fst hs
    exact ⟨file, h, rfl, rfl, rfl, rfl⟩
  cases hz : dfcFileResize c' c.numFiles n with
  | mk d' ok =>
    rw [hz] at hs
    cases ok with
    | false =>
      obtain rfl := congrArg Prod.fst hs
      obtain rfl := resize_refused hz
      exact ⟨file, h, rfl, rfl, rfl, rfl⟩
    | true =>
      obtain ⟨offset, hsized⟩ := h.resize hslice hz
      cases hdeclared : dfcFileSetDeclaredSize (d'.files c.numFiles) n with
      | none =>
        simp only [hdeclared] at hs
        obtain rfl := congrArg Prod.fst hs
        exact ⟨_, hsized, rfl, rfl, rfl, rfl⟩
      | some file' =>
        simp only [hdeclared] at hs
        exact absurd (congrArg Prod.snd hs).symm Bool.false_ne_true

theorem installDataFile_mayCreate (e : DfcEmulator) (new : NewFile) (size : ℕ) :
    MayCreate e new.type (installDataFile e new size).1 := by
  rw [installDataFile]
  cases hr : dfcCredentialCreateFile e.credential e.selectedAppIndex new.number with
  | mk c created =>
    have hframe : FileFrame e.credential c := by
      have := fileFrame_create e.credential e.selectedAppIndex new.number
      rwa [hr] at this
    cases created with
    | none =>
      have hc : c = e.credential := createFile_none hr
      rw [hc]
      exact .refl e _
    | some i =>
      obtain ⟨rfl, hadded⟩ := createFile_added hr
      have hinstalled := hadded.modifyFile (f := new.install) rfl rfl
      have hframe' := hframe.trans (fileFrame_modifyFile c e.credential.numFiles new.install)
      dsimp only
      generalize c.modifyFile e.credential.numFiles new.install = c' at hinstalled hframe' ⊢
      cases hs : dfcFileSetDataSize c' e.credential.numFiles size with
      | mk d ok =>
        have hframe'' := hframe'.trans (fileFrame_setDataSize c' e.credential.numFiles size)
        rw [hs] at hframe''
        cases ok with
        | false =>
          obtain ⟨file, hfile, hnumber, htype, hstate, hpending⟩ :=
            hinstalled.setDataSize_refused ⟨rfl, rfl⟩ hs
          have hfresh : JustCreated new.type file :=
            ⟨htype, by rw [hstate]; rfl, by rw [hstate]; rfl, hpending⟩
          have hdelete := hfile.mayCreate_delete hframe'' hfresh
          rw [hnumber] at hdelete
          exact hdelete
        | true =>
          obtain ⟨offset, hfile⟩ := hinstalled.setDataSize ⟨rfl, rfl⟩ hs
          exact hfile.mayCreate_publish hframe'' ⟨rfl, rfl, rfl, rfl⟩

theorem installRecordFile_mayCreate (e : DfcEmulator) (new : NewFile) (recordSize maxRecords : ℕ) :
    MayCreate e new.type (installRecordFile e new recordSize maxRecords).1 := by
  rw [installRecordFile]
  cases hr : dfcCredentialCreateFile e.credential e.selectedAppIndex new.number with
  | mk c created =>
    have hframe := fileFrame_create e.credential e.selectedAppIndex new.number
    rw [hr] at hframe
    cases created with
    | none =>
      rw [createFile_none hr]
      exact .refl e _
    | some i =>
      obtain ⟨rfl, hadded⟩ := createFile_added hr
      have hinstalled := hadded.modifyFile (f := fun file => (new.install file).withRecord
        { size := recordSize, maxRecords := maxRecords, count := 0 }) rfl rfl
      have hframe' := hframe.trans (fileFrame_modifyFile c e.credential.numFiles fun file =>
        (new.install file).withRecord
          { size := recordSize, maxRecords := maxRecords, count := 0 })
      dsimp only at hinstalled ⊢
      generalize c.modifyFile e.credential.numFiles (fun file => (new.install file).withRecord
        { size := recordSize, maxRecords := maxRecords, count := 0 }) = c' at hinstalled hframe' ⊢
      cases hs : dfcFileResize c' e.credential.numFiles (recordSize * maxRecords) with
      | mk d ok =>
        cases ok with
        | false =>
          obtain rfl := resize_refused hs
          exact hinstalled.mayCreate_delete hframe' ⟨rfl, rfl, rfl, rfl⟩
        | true =>
          have hframe'' := hframe'.trans
            (fileFrame_resize c' e.credential.numFiles (recordSize * maxRecords))
          rw [hs] at hframe''
          obtain ⟨offset, hfile⟩ := hinstalled.resize ⟨rfl, rfl⟩ hs
          exact hfile.mayCreate_publish hframe'' ⟨rfl, rfl, rfl, rfl⟩

theorem installValueFile_mayCreate (e : DfcEmulator) (new : NewFile)
    (lowerLimit upperLimit value : Int32) (limitedCredit : UInt8) :
    MayCreate e new.type (installValueFile e new lowerLimit upperLimit value limitedCredit).1 := by
  rw [installValueFile]
  cases hr : dfcCredentialCreateFile e.credential e.selectedAppIndex new.number with
  | mk c created =>
    have hframe := fileFrame_create e.credential e.selectedAppIndex new.number
    rw [hr] at hframe
    cases created with
    | none =>
      rw [createFile_none hr]
      exact .refl e _
    | some i =>
      obtain ⟨rfl, hadded⟩ := createFile_added hr
      have hinstalled := hadded.modifyFile (f := fun file => (new.install file).withValue
        { lowerLimit := lowerLimit, upperLimit := upperLimit, current := value,
          limitedCredit := limitedCredit }) rfl rfl
      exact hinstalled.mayCreate_publish (hframe.trans (fileFrame_modifyFile _ _ _))
        ⟨rfl, rfl, rfl, rfl⟩

theorem DfcEmulator.answer_state {e : DfcEmulator} {x : Except UInt8 Answer}
    {P : DfcEmulator → Prop} (he : P e) (hx : ∀ r, x = .ok r → P r.1) : P (e.answer x).1 := by
  cases x with
  | error st => exact he
  | ok r => exact hx r rfl

theorem createStdDataFile_mayCreate (e : DfcEmulator) (apdu : List UInt8) (fileType : UInt8) :
    MayCreate e fileType (dfcEmulatorCommandCreateStdDataFile e apdu fileType).1 := by
  refine DfcEmulator.answer_state (.refl e fileType) fun r hr => ?_
  simp only [bind_eq_ok] at hr
  obtain ⟨-, -, -, -, -, -, -, -, -, -, -, -, -, -, -, -, -, -, -, -, -, -, -, -, hr⟩ := hr
  rw [← Except.ok.inj hr]
  exact installDataFile_mayCreate e (wireNewFile apdu fileType _) _

theorem createRecordFile_mayCreate (e : DfcEmulator) (apdu : List UInt8) (fileType : UInt8) :
    MayCreate e fileType (dfcEmulatorCommandCreateRecordFile e apdu fileType).1 := by
  refine DfcEmulator.answer_state (.refl e fileType) fun r hr => ?_
  simp only [bind_eq_ok] at hr
  obtain ⟨-, -, -, -, -, -, -, -, -, -, -, -, -, -, -, -, -, -, hr⟩ := hr
  rw [← Except.ok.inj hr]
  exact installRecordFile_mayCreate e (wireNewFile apdu fileType _) _ _

theorem createValueFile_mayCreate (e : DfcEmulator) (apdu : List UInt8) :
    MayCreate e dfcFileTypeValue (dfcEmulatorCommandCreateValueFile e apdu).1 := by
  refine DfcEmulator.answer_state (.refl e dfcFileTypeValue) fun r hr => ?_
  simp only [bind_eq_ok] at hr
  obtain ⟨-, -, -, -, -, -, -, -, -, -, -, -, -, -, hr⟩ := hr
  rw [← Except.ok.inj hr]
  exact installValueFile_mayCreate e (wireNewFile apdu dfcFileTypeValue false) _ _ _ _

theorem getFileSettings_state (e : DfcEmulator) (apdu : List UInt8) :
    (dfcEmulatorCommandGetFileSettings e apdu).1 = e := by
  refine DfcEmulator.answer_state (P := fun e' => e' = e) rfl fun r hr => ?_
  simp only [bind_eq_ok] at hr
  obtain ⟨-, -, -, -, -, -, i, -, hr⟩ := hr
  rw [← Except.ok.inj hr]

section
variable (aes : List UInt8 → List UInt8 → List UInt8)

/-- The states a refusal that may be retried leaves. -/
inductive LeftForRetry (e : DfcEmulator) : DfcEmulator → Prop where
  | same : LeftForRetry e e
  | abandoned {allocationFails : Bool} {i : ℕ} {opened : DfcEmulator} :
      openJournal e allocationFails i = (opened, true) →
      LeftForRetry e (abandonJournal e opened)
  | read {i : ℕ} {e₁ : DfcEmulator} : ReadDataFrom e i e₁ → LeftForRetry e e₁

/-- The states a refused handler leaves. -/
inductive Left (e : DfcEmulator) : DfcEmulator → Prop where
  | retry {e₁ : DfcEmulator} : LeftForRetry e e₁ → Left e e₁
  | opened {allocationFails isOpen : Bool} {i : ℕ} {opened : DfcEmulator} :
      openJournal e allocationFails i = (opened, isOpen) → Left e opened
  | taken {i : ℕ} {op : TransactionMacOperation} {e₁ e₂ : DfcEmulator} :
      ReadDataFrom e i e₁ → MacTaken aes op e₁ e₂ → Left e e₂
  | chain {e₁ : DfcEmulator} : Left e e₁ → Left e (dfcEmulatorCommandClearPendingChain e₁)
  | reset {e₁ : DfcEmulator} : Left e e₁ → Left e (dfcEmulatorResetSession e₁)
  | cleared : Left e (dfcEmulatorCommandClearSelectedAppPendingValues e)
  | aborted : Left e (dfcEmulatorAbortTransaction e).1
  | created {type : UInt8} {e₁ : DfcEmulator} : type ≠ dfcFileTypeTransactionMac →
      MayCreate e type e₁ → Left e e₁

/-- A refusal of a handler that was given `e`. -/
def RefusedFrom (e : DfcEmulator) (r : Refusal) : Prop :=
  Left aes e r.emulator ∧ (r.retryable = true → LeftForRetry e r.emulator)

end

variable {aes : List UInt8 → List UInt8 → List UInt8} {e : DfcEmulator}

theorem Left.same : Left aes e e := .retry .same

/-- The states that refused handlers leave are among those of a list, if the list is closed under
what a handler may have done before it refuses. -/
structure RefusalStates (aes : List UInt8 → List UInt8 → List UInt8) (e : DfcEmulator)
    (retry left : DfcEmulator → Prop) : Prop where
  same : retry e
  abandoned {allocationFails : Bool} {i : ℕ} {opened : DfcEmulator} :
    openJournal e allocationFails i = (opened, true) → retry (abandonJournal e opened)
  read {i : ℕ} {e₁ : DfcEmulator} : ReadDataFrom e i e₁ → retry e₁
  ofRetry {e₁ : DfcEmulator} : retry e₁ → left e₁
  opened {allocationFails isOpen : Bool} {i : ℕ} {opened : DfcEmulator} :
    openJournal e allocationFails i = (opened, isOpen) → left opened
  taken {i : ℕ} {op : TransactionMacOperation} {e₁ e₂ : DfcEmulator} :
    ReadDataFrom e i e₁ → MacTaken aes op e₁ e₂ → left e₂
  chain {e₁ : DfcEmulator} : left e₁ → left (dfcEmulatorCommandClearPendingChain e₁)
  reset {e₁ : DfcEmulator} : left e₁ → left (dfcEmulatorResetSession e₁)
  cleared : left (dfcEmulatorCommandClearSelectedAppPendingValues e)
  aborted : left (dfcEmulatorAbortTransaction e).1

theorem leftStates (aes : List UInt8 → List UInt8 → List UInt8) (e : DfcEmulator) :
    RefusalStates aes e (LeftForRetry e) (Left aes e) where
  same := .same
  abandoned := .abandoned
  read := .read
  ofRetry := .retry
  opened := .opened
  taken := .taken
  chain := .chain
  reset := .reset
  cleared := .cleared
  aborted := .aborted

/-- A refusal in one of the states of a list. -/
def RefusedTo (retry left : DfcEmulator → Prop) (r : Refusal) : Prop :=
  left r.emulator ∧ (r.retryable = true → retry r.emulator)

variable {retry left : DfcEmulator → Prop}

theorem RefusalStates.refusedSame (h : RefusalStates aes e retry left) (status : UInt8)
    (retryable : Bool) : RefusedTo retry left { emulator := e, status, retryable } :=
  ⟨h.ofRetry h.same, fun _ => h.same⟩

/-- A refusal that is final. -/
theorem RefusedTo.final {e₁ : DfcEmulator} (h : left e₁) (status : UInt8) :
    RefusedTo retry left (e₁.refuse status) :=
  ⟨h, fun hretry => absurd hretry Bool.false_ne_true⟩

/-- Every refusal of a handler's step is in one of the states of a list. -/
def Checks {α : Type} (retry left : DfcEmulator → Prop) (x : Except Refusal α) : Prop :=
  Ensures (fun a => x = .ok a) (RefusedTo retry left) x

namespace Checks

theorem ok {α : Type} (a : α) : Checks retry left (.ok a : Except Refusal α) := rfl

theorem error {α : Type} {r : Refusal} (h : RefusedTo retry left r) :
    Checks retry left (.error r : Except Refusal α) := h

theorem bind {α β : Type} {x : Except Refusal α} {f : α → Except Refusal β}
    (hx : Checks retry left x) (hf : ∀ a, x = .ok a → Checks retry left (f a)) :
    Checks retry left (x >>= f) := by
  cases x with
  | error r => exact hx
  | ok a => exact hf a rfl

theorem ite {α : Type} {p : Prop} [Decidable p] {x y : Except Refusal α}
    (hx : p → Checks retry left x) (hy : ¬p → Checks retry left y) :
    Checks retry left (if p then x else y) := by
  split_ifs with hp
  · exact hx hp
  · exact hy hp

theorem refuse {p : Prop} [Decidable p] {r : Refusal} (h : p → RefusedTo retry left r) :
    Checks retry left (Der.refuseIf p r) := by
  unfold Der.refuseIf
  split_ifs with hp
  · exact h hp
  · exact rfl

variable (h : RefusalStates aes e retry left)
include h

theorem refuseIf {p : Prop} [Decidable p] {status : UInt8} :
    Checks retry left (Der.refuseIf p (e.refuse status)) :=
  .refuse fun _ => h.refusedSame status false

theorem orFail {α : Type} {o : Option α} {status : UInt8} :
    Checks retry left (Der.orFail (e.refuse status) o) := by
  cases o with
  | some a => exact rfl
  | none => exact h.refusedSame status false

theorem findRecordFile (fileNo : UInt8) : Checks retry left (findRecordFile e fileNo) :=
  .bind (.orFail h) fun _ _ => .bind (.refuseIf h) fun _ _ => .ok _

theorem unwrapped {α : Type} (x : Unwrapped α) : Checks retry left (x.orRefuse e) := by
  cases x with
  | clear a => exact rfl
  | lengthError => exact h.refusedSame _ false
  | integrityError endsSession =>
    cases endsSession with
    | false => exact h.refusedSame _ false
    | true => exact RefusedTo.final (h.reset (h.ofRetry h.same)) _

/-- An operation the transaction MAC cannot take in leaves the state it is to be refused in. -/
theorem orRefuse {e₁ : DfcEmulator} (hstate : retry e₁) (update : TransactionMacUpdate) :
    Checks retry left (update.orRefuse e₁) := by
  cases update with
  | ok e₂ => exact rfl
  | terminal => exact RefusedTo.final (h.ofRetry hstate) _
  | cryptoFailed => exact ⟨h.ofRetry hstate, fun _ => hstate⟩

theorem emitPayload {e₁ : DfcEmulator} (hstate : left e₁) (env : CommandEnv)
    (octets : List UInt8) : Checks retry left (emitPayload e₁ env octets) := by
  unfold DfcCore.emitPayload
  cases env.emission with
  | none => exact rfl
  | some failure =>
    cases failure with
    | boundary => exact RefusedTo.final (h.chain hstate) _
    | cipher => exact RefusedTo.final (h.reset hstate) _

theorem readDataOctets (env : CommandEnv) (i offset length : ℕ) :
    Checks retry left (readDataOctets e env i offset length) := by
  unfold DfcCore.readDataOctets
  refine .ite (fun _ => ?_) fun _ => .bind (.orFail h) fun _ _ => .ok _
  cases env.sdm with
  | rendered cache counter => exact rfl
  | limitReached => exact h.refusedSame _ false
  | randomExhausted retryable => exact h.refusedSame _ retryable
  | failed => exact h.refusedSame _ false

end Checks

section
variable (h : RefusalStates aes e retry left)
include h

theorem checks_readData (env : CommandEnv) (apdu : List UInt8) :
    Checks retry left (dfcEmulatorCommandReadData aes e env apdu) := by
  refine .bind (.refuseIf h) fun _ _ => .bind (.refuseIf h) fun _ _ =>
    .bind (.refuseIf h) fun _ _ => ?_
  refine .bind (.orFail h) fun i _ => .bind (.refuseIf h) fun _ _ =>
    .bind (.refuseIf h) fun _ _ => ?_
  refine .bind (.refuseIf h) fun _ _ => .bind (.refuseIf h) fun _ _ => ?_
  refine .bind (.readDataOctets h env i _ _) fun read hread => ?_
  obtain ⟨e₁, octets⟩ := read
  obtain ⟨-, hfrom⟩ := readDataOctets_ok hread
  refine .ite (fun _ => ?_) fun _ => ?_
  · exact .emitPayload h (h.ofRetry (h.read hfrom)) env octets
  · refine .bind (.orRefuse h (h.read hfrom) _) fun e₂ htaken => ?_
    exact .emitPayload h (h.taken hfrom (macTaken_of_orRefuse (.data _ _ _ _ _) htaken)) env octets

omit h in
/-- A command that opened nothing has nothing to give up. -/
theorem abandonJournal_self (e : DfcEmulator) : abandonJournal e e = e := by
  unfold abandonJournal dfcEmulatorAbortTransactionSnapshot
  split_ifs with hactive
  · rfl
  · dsimp only
    rw [if_pos (by simpa using hactive)]

theorem checks_writeData (env : CommandEnv) (apdu : List UInt8) :
    Checks retry left (dfcEmulatorCommandWriteData aes e env apdu) := by
  refine .bind (.refuseIf h) fun _ _ => .bind (.refuseIf h) fun _ _ =>
    .bind (.orFail h) fun i _ => ?_
  refine .bind (.refuseIf h) fun _ _ => .bind (.refuseIf h) fun _ _ =>
    .bind (.refuseIf h) fun _ _ => ?_
  refine .bind (.refuseIf h) fun _ _ => .bind (.refuseIf h) fun _ _ =>
    .bind (.unwrapped h _) fun _ _ => ?_
  refine .bind (.refuseIf h) fun _ _ => .bind (.orFail h) fun _ _ =>
    .bind (.refuseIf h) fun _ _ => ?_
  -- A standard file has no journal: the state is the one the command found.
  dsimp only
  generalize hq : (if (e.credential.files i).type = dfcFileTypeBackupData then
    openJournal e env.allocationFails i else (e, true)) = q
  have hopened : left q.1 := by
    rw [← hq]
    split_ifs
    · exact h.opened (Prod.eta _).symm
    · exact h.ofRetry h.same
  refine .bind (.refuse fun _ => .final hopened _) fun _ hopen => ?_
  refine .bind (.refuse fun _ => .final hopened _) fun _ _ => ?_
  refine .bind (.orRefuse h ?_ _) fun _ _ => .ok _
  rw [refuseIf_eq_ok, Bool.not_eq_false] at hopen
  by_cases hbackup : (e.credential.files i).type = dfcFileTypeBackupData
  · rw [if_pos hbackup] at hq
    exact h.abandoned (hq.trans (Prod.ext rfl hopen))
  · rw [if_neg hbackup] at hq
    rw [← hq, abandonJournal_self]
    exact h.same

theorem checks_readRecords (env : CommandEnv) (apdu : List UInt8) :
    Checks retry left (handleReadRecords aes e env apdu) := by
  refine .bind (.refuseIf h) fun _ _ => .bind (.refuseIf h) fun _ _ => ?_
  refine .bind (.findRecordFile h _) fun i _ => .bind (.refuseIf h) fun _ _ =>
    .bind (.refuseIf h) fun _ _ => ?_
  refine .bind (.refuseIf h) fun _ _ => .bind (.refuseIf h) fun _ _ =>
    .bind (.orFail h) fun octets _ => ?_
  refine .bind (.orRefuse h h.same _) fun e₂ htaken => ?_
  exact .emitPayload h (h.taken (i := i) (.inl rfl)
    (macTaken_of_orRefuse (.data _ _ _ _ _) htaken)) env octets

/-- The part the commands on record files share once the file is found. -/
theorem checks_journal {i : ℕ} {allocationFails : Bool} {status : UInt8} {α : Type}
    {f : Except Refusal α}
    (hf : openJournal e allocationFails i = ((openJournal e allocationFails i).1, true) →
      Checks retry left f) :
    Checks retry left (Der.refuseIf ((openJournal e allocationFails i).2 = false)
      ((openJournal e allocationFails i).1.refuse status) >>= fun _ => f) := by
  refine .bind (.refuse fun _ => .final (h.opened (Prod.eta _).symm) _) fun _ hopen => ?_
  rw [refuseIf_eq_ok, Bool.not_eq_false] at hopen
  exact hf (Prod.ext rfl hopen)

theorem checks_writeRecord (env : CommandEnv) (apdu : List UInt8) :
    Checks retry left (dfcEmulatorCommandWriteRecord aes e env apdu) := by
  refine .bind (.refuseIf h) fun _ _ => .bind (.refuseIf h) fun _ _ =>
    .bind (.refuseIf h) fun _ _ => ?_
  refine .bind (.findRecordFile h _) fun i _ => .bind (.refuseIf h) fun _ _ =>
    .bind (.refuseIf h) fun _ _ => ?_
  refine .bind (.unwrapped h _) fun _ _ => .bind (.refuseIf h) fun _ _ =>
    .bind (.refuseIf h) fun _ _ => ?_
  refine .bind (.refuseIf h) fun _ _ => .bind (.orFail h) fun _ _ =>
    checks_journal h fun hopen => ?_
  refine .bind (.refuse fun _ => .final (h.opened hopen) _) fun _ _ => ?_
  refine .bind (.refuse fun _ => .final (h.opened hopen) _) fun _ _ => ?_
  exact .bind (.orRefuse h (h.abandoned hopen) _) fun _ _ => .ok _

theorem checks_updateRecord (env : CommandEnv) (apdu : List UInt8) :
    Checks retry left (dfcEmulatorCommandUpdateRecord aes e env apdu) := by
  refine .bind (.refuseIf h) fun _ _ => .bind (.refuseIf h) fun _ _ =>
    .bind (.refuseIf h) fun _ _ => ?_
  refine .bind (.refuseIf h) fun _ _ => .bind (.findRecordFile h _) fun i _ => ?_
  refine .bind (.refuseIf h) fun _ _ => .bind (.refuseIf h) fun _ _ =>
    .bind (.refuseIf h) fun _ _ => ?_
  refine .bind (.unwrapped h _) fun _ _ => .bind (.refuseIf h) fun _ _ =>
    .bind (.refuseIf h) fun _ _ => ?_
  refine .bind (.orFail h) fun _ _ => checks_journal h fun hopen => ?_
  refine .bind (.refuse fun _ => .final (h.opened hopen) _) fun _ _ => ?_
  refine .bind (.refuse fun _ => .final (h.opened hopen) _) fun _ _ => ?_
  exact .bind (.orRefuse h (h.abandoned hopen) _) fun _ _ => .ok _

theorem checks_clearRecordFile (env : CommandEnv) (apdu : List UInt8) :
    Checks retry left (dfcEmulatorCommandClearRecordFile aes e env apdu) := by
  refine .bind (.refuseIf h) fun _ _ => .bind (.refuseIf h) fun _ _ => ?_
  refine .bind (.findRecordFile h _) fun i _ => .bind (.refuseIf h) fun _ _ =>
    .bind (.refuseIf h) fun _ _ => ?_
  refine .bind (.refuseIf h) fun _ _ => checks_journal h fun hopen => ?_
  refine .bind (.refuse fun _ => .final (h.opened hopen) _) fun _ _ => ?_
  exact .bind (.orRefuse h (h.abandoned hopen) _) fun _ _ => .ok _

theorem checks_getValue (env : CommandEnv) (apdu : List UInt8) :
    Checks retry left (dfcEmulatorCommandGetValue aes e env apdu) := by
  refine .bind (.refuseIf h) fun _ _ => .bind (.refuseIf h) fun _ _ =>
    .bind (.orFail h) fun i _ => ?_
  refine .bind (.refuseIf h) fun _ _ => .bind (.refuseIf h) fun _ _ => ?_
  refine .bind (.orRefuse h h.same _) fun e₂ htaken => .bind (.refuse fun _ => ?_) fun _ _ => .ok _
  exact .final (h.reset (h.taken (i := i) (.inl rfl)
    (macTaken_of_orRefuse (.value _ _ _) htaken))) _

theorem checks_valueDelta (env : CommandEnv) (apdu : List UInt8) (cmd : UInt8)
    (debit limitedCredit : Bool) :
    Checks retry left (dfcEmulatorCommandValueDelta aes e env apdu cmd debit limitedCredit) := by
  refine .bind (.refuseIf h) fun _ _ => .bind (.refuseIf h) fun _ _ =>
    .bind (.orFail h) fun i _ => ?_
  refine .bind (.refuseIf h) fun _ _ => .bind (.refuseIf h) fun _ _ =>
    .bind (.unwrapped h _) fun _ _ => ?_
  refine .bind (.refuseIf h) fun _ _ => .bind (.refuseIf h) fun _ _ =>
    .bind (.refuseIf h) fun _ _ => ?_
  exact .bind (.orFail h) fun _ _ => .bind (.orRefuse h h.same _) fun _ _ => .ok _

theorem checks_commitReaderId (env : CommandEnv) (apdu : List UInt8) :
    Checks retry left (dfcEmulatorCommandCommitReaderId aes e env apdu) := by
  have hreader : Checks retry left (unwrapReaderId e env apdu) := by
    unfold unwrapReaderId
    refine .ite (fun _ => ?_) fun _ => .ok _
    cases env.payload with
    | clear readerId => exact .ite (fun _ => .ok _) fun _ => .error (h.refusedSame _ false)
    | lengthError => exact .error (h.refusedSame _ false)
    | integrityError endsSession => exact .error (h.refusedSame _ false)
  refine .bind (.refuseIf h) fun _ _ => .bind hreader fun _ _ => .bind (.orFail h) fun i _ => ?_
  refine .bind (.refuseIf h) fun _ _ => .bind (.refuseIf h) fun _ _ =>
    .bind (.refuseIf h) fun _ _ => ?_
  refine .bind (.refuseIf h) fun _ _ => .bind (.refuse fun _ => h.refusedSame _ true) fun _ _ => ?_
  exact .bind (.orRefuse h h.same _) fun _ _ => .ok _

theorem checks_commitTransaction (env : CommandEnv) (apdu : List UInt8) :
    Checks retry left (commitTransaction aes e env apdu) := by
  refine .bind (.refuseIf h) fun _ _ => .bind (.refuse fun _ => .final h.cleared _) fun _ _ => ?_
  refine .bind (.refuseIf h) fun _ _ => ?_
  cases transactionMacFile e with
  | none => exact .ok _
  | some i =>
    refine .bind (.refuseIf h) fun _ _ => .bind (.refuseIf h) fun _ _ => ?_
    exact .bind (.orFail h) fun _ _ => .ok _

theorem checks_abortTransaction (apdu : List UInt8) :
    Checks retry left (dfcEmulatorCommandAbortTransaction e apdu) := by
  refine .bind (.refuseIf h) fun _ _ => .bind (.refuse fun _ => .final h.cleared _) fun _ _ => ?_
  exact .bind (.refuse fun _ => .final h.aborted _) fun _ _ => .ok _

end

/-- The refusal changed nothing. -/
def LeftAlone (e : DfcEmulator) (r : Refusal) : Prop := r.emulator = e ∧ r.retryable = false

theorem LeftAlone.require {α : Type} (x : Except UInt8 α) :
    Ensures (fun _ => True) (LeftAlone e) (e.require x) := by
  cases x with
  | ok a => exact trivial
  | error status => exact ⟨rfl, rfl⟩

theorem LeftAlone.refusedTo (h : RefusalStates aes e retry left) {r : Refusal}
    (halone : LeftAlone e r) : RefusedTo retry left r := by
  refine ⟨?_, fun hretry => ?_⟩
  · rw [halone.1]
    exact h.ofRetry h.same
  · rw [halone.2] at hretry
    cases hretry

/-- The commands whose refusal keeps the transaction leave the emulator as it was. -/
theorem deleteFile_refused {apdu : List UInt8} {r : Refusal}
    (h : dfcEmulatorCommandDeleteFile e apdu = .error r) : LeftAlone e r := by
  have hcheck : Ensures (fun _ => True) (LeftAlone e) (dfcEmulatorCommandDeleteFile e apdu) := by
    refine .bind (.refuseIf fun _ => ⟨rfl, rfl⟩) fun _ _ => ?_
    refine .bind (.refuseIf fun _ => ⟨rfl, rfl⟩) fun _ _ => ?_
    refine .bind (LeftAlone.require _) fun _ _ => ?_
    exact .bind (.orFail fun _ => ⟨rfl, rfl⟩) fun _ _ => .pure trivial
  exact hcheck.of_error h

theorem createTransactionMacFile_refused {apdu : List UInt8} {r : Refusal}
    (h : dfcEmulatorCommandCreateTransactionMacFile e apdu = .error r) : LeftAlone e r := by
  have hcheck : Ensures (fun _ => True) (LeftAlone e)
      (dfcEmulatorCommandCreateTransactionMacFile e apdu) := by
    refine .bind (.refuseIf fun _ => ⟨rfl, rfl⟩) fun _ _ => ?_
    refine .bind (LeftAlone.require _) fun _ _ => ?_
    refine .bind (.refuseIf fun _ => ⟨rfl, rfl⟩) fun _ _ => ?_
    refine .bind (.refuseIf fun _ => ⟨rfl, rfl⟩) fun _ _ => ?_
    refine .bind (LeftAlone.require _) fun _ _ => ?_
    refine .bind (LeftAlone.require _) fun _ _ => ?_
    refine .bind (.refuseIf fun _ => ⟨rfl, rfl⟩) fun _ _ => ?_
    dsimp only
    cases dfcCredentialCreateFile (dfcEmulatorAbortTransaction e).1.credential
      (dfcEmulatorAbortTransaction e).1.selectedAppIndex (apdu.getD 1 0) with
    | mk c found => cases found <;> exact .pure trivial
  exact hcheck.of_error h

theorem Handled.ofAnswer_refused {r : Answer} {refusal : Refusal}
    (h : Handled.ofAnswer r = .error refusal) :
    refusal.emulator = r.1 ∧ refusal.retryable = false := by
  obtain ⟨e', octets⟩ := r
  cases octets with
  | nil => cases h
  | cons status payload =>
    simp only [Handled.ofAnswer] at h
    split_ifs at h
    cases h
    exact ⟨rfl, rfl⟩

theorem Handled.ofAnswer_ok {r : Answer} {e' : DfcEmulator} {payload : List UInt8}
    (h : Handled.ofAnswer r = .ok (e', payload)) : e' = r.1 := by
  obtain ⟨e₁, octets⟩ := r
  cases octets with
  | nil =>
    cases h
    rfl
  | cons status payload =>
    simp only [Handled.ofAnswer] at h
    split_ifs at h
    cases h
    rfl

theorem checks_ofAnswer {r : Answer} (h : left r.1) :
    Checks retry left (Handled.ofAnswer r) := by
  cases hr : Handled.ofAnswer r with
  | ok s => exact rfl
  | error refusal =>
    obtain ⟨hstate, hretry⟩ := Handled.ofAnswer_refused hr
    refine ⟨by rw [hstate]; exact h, fun h' => ?_⟩
    rw [hretry] at h'
    cases h'

end DfcCore
