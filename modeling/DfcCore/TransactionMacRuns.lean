import DfcCore.TransactionSteps

/-!
# The transaction MAC of a run

What holds of the card's accumulator in every state of a run: it has taken in exactly the
operations the reader noted since the transaction began, the reads of the transaction MAC
file itself apart, under the key of the next transaction. The code a commit answers with is
then the one the reader's verifier computes.
-/
namespace DfcCore
open Der

/-- What the search for the transaction MAC file sees of a file. -/
def macView (file : DfcFile) : ℕ × UInt8 × DfcTransactionMacFileState :=
  (file.appIndex, file.type, file.state.transactionMac)

def isMacView (appIndex : ℕ) (view : ℕ × UInt8 × DfcTransactionMacFileState) : Bool :=
  view.1 == appIndex && view.2.1 == dfcFileTypeTransactionMac

theorem transactionMacState_eq (e : DfcEmulator) :
    transactionMacState e =
      ((fileViews macView e.credential).find? (isMacView e.selectedAppIndex)).map (·.2.2) := by
  unfold transactionMacState transactionMacFile dfcCredentialFindTransactionMacFile fileViews
  rw [List.find?_map, Option.map_map]
  rfl

theorem macView_placementBlind : PlacementBlind macView := fun _ _ _ => rfl

/-- The key of the next transaction comes from the same file and the same identifier. -/
structure SameMacFile (e e' : DfcEmulator) : Prop where
  state : transactionMacState e' = transactionMacState e
  uid : e'.credential.uid = e.credential.uid
  uidLen : e'.credential.uidLen = e.credential.uidLen

theorem SameMacFile.refl (e : DfcEmulator) : SameMacFile e e := ⟨rfl, rfl, rfl⟩

theorem SameMacFile.trans {a b c : DfcEmulator} (h : SameMacFile a b) (h' : SameMacFile b c) :
    SameMacFile a c :=
  ⟨h'.state.trans h.state, h'.uid.trans h.uid, h'.uidLen.trans h.uidLen⟩

theorem SameMacFile.uidOctets {e e' : DfcEmulator} (h : SameMacFile e e') :
    e'.credential.uidOctets = e.credential.uidOctets := by
  rw [DfcCredential.uidOctets, DfcCredential.uidOctets, h.uid, h.uidLen]

theorem SameMacFile.ofViews {e e' : DfcEmulator}
    (h : fileViews macView e'.credential = fileViews macView e.credential)
    (hsel : e'.selectedAppIndex = e.selectedAppIndex)
    (huid : e'.credential.uid = e.credential.uid)
    (hlen : e'.credential.uidLen = e.credential.uidLen) : SameMacFile e e' :=
  ⟨by rw [transactionMacState_eq, transactionMacState_eq, h, hsel], huid, hlen⟩

/-- The accumulator is the same, too. -/
structure MacKept (e e' : DfcEmulator) : Prop extends SameMacFile e e' where
  accumulator : e'.transactionMac = e.transactionMac

theorem MacKept.refl (e : DfcEmulator) : MacKept e e := ⟨.refl e, rfl⟩

theorem MacKept.trans {a b c : DfcEmulator} (h : MacKept a b) (h' : MacKept b c) : MacKept a c :=
  ⟨h.toSameMacFile.trans h'.toSameMacFile, h'.accumulator.trans h.accumulator⟩

/-- An accumulator that has taken nothing in is the cleared one. -/
def MacClean (e : DfcEmulator) : Prop :=
  e.transactionMac.hasPending = false → e.transactionMac = {}

theorem MacKept.clean {e e' : DfcEmulator} (h : MacKept e e') (hc : MacClean e) : MacClean e' := by
  unfold MacClean
  rw [h.accumulator]
  exact hc

/-- What is unrelated to the transaction is unrelated to its code. -/
theorem MacKept.ofUnrelated {e e' : DfcEmulator} (h : Unrelated e e') : MacKept e e' := by
  have hmap (c : DfcCredential) : fileViews macView c =
      (fileViews transactionView c).map fun view => (view.1, view.2.2.1, view.2.2.2.2) := by
    simp only [fileViews, List.map_map]
    rfl
  refine ⟨.ofViews ?_ h.selectedAppIndex h.uid h.uidLen, h.transactionMac⟩
  rw [hmap, hmap, h.views]

/-- An abort clears the accumulator. -/
theorem MacClean.abort {e : DfcEmulator} (h : MacClean e) :
    (dfcEmulatorAbortTransaction e).1.transactionMac = {} := by
  rw [(abortTransaction_transactionMac e).1]
  split_ifs with hp
  · rfl
  · rw [Bool.or_eq_true, not_or, Bool.not_eq_true] at hp
    exact h hp.1

theorem MacClean.ofCleared {e : DfcEmulator} (h : e.transactionMac = {}) : MacClean e :=
  fun _ => h

section
variable (aes : List UInt8 → List UInt8 → List UInt8)

/-- The accumulator of the emulator has taken in `message`, under the key of the next
transaction; before the first octet it is clear. -/
structure MacHolds (e : DfcEmulator) (tmac : DfcTransactionMacFileState) (message : List UInt8) :
    Prop where
  empty : message = [] → e.transactionMac = {}
  taken : message ≠ [] → ∃ sessionKey,
    dfcTransactionMacDeriveSessionKey aes tmac.keyOctets e.credential.uidOctets
      (tmac.counter + 1) = some sessionKey ∧
    AccumulatorHolds aes e.transactionMac sessionKey message

end

variable {aes : List UInt8 → List UInt8 → List UInt8} {e e' : DfcEmulator} {env : CommandEnv}
  {apdu payload : List UInt8} {tmac : DfcTransactionMacFileState} {message : List UInt8}

theorem MacHolds.clean (h : MacHolds aes e tmac message) : MacClean e := by
  intro hpending
  by_cases hm : message = []
  · exact h.empty hm
  · obtain ⟨sessionKey, -, hholds⟩ := h.taken hm
    rw [hholds.hasPending hm] at hpending
    cases hpending

theorem MacHolds.kept (h : MacHolds aes e tmac message) (hkept : MacKept e e') :
    MacHolds aes e' tmac message where
  empty hm := by rw [hkept.accumulator, h.empty hm]
  taken hm := by
    rw [hkept.accumulator, hkept.uidOctets]
    exact h.taken hm

theorem TransactionMacOperation.header_ne_nil {op : TransactionMacOperation}
    {entry : TransactionMacEntry} (h : op.entry = some entry) : entry.header ≠ [] := by
  cases op with
  | data command fileNumber offset length octets =>
    simp only [TransactionMacOperation.entry, entryData] at h
    split_ifs at h
    cases h
    exact List.cons_ne_nil _ _
  | recordUpdate command fileNumber recordNumber offset length octets =>
    simp only [TransactionMacOperation.entry, entryRecordUpdate] at h
    split_ifs at h
    cases h
    exact List.cons_ne_nil _ _
  | value command fileNumber amount =>
    cases h
    exact List.cons_ne_nil _ _
  | clearRecord fileNumber =>
    cases h
    exact List.cons_ne_nil _ _
  | readerId current previous =>
    cases h
    exact List.cons_ne_nil _ _

/-- Where the candidate accumulator comes from. -/
theorem MacHolds.candidate (h : MacHolds aes e tmac message) {a : DfcTransactionMacAccumulator}
    (hcand : transactionMacCandidate aes e tmac = some a) :
    ∃ sessionKey, dfcTransactionMacDeriveSessionKey aes tmac.keyOctets e.credential.uidOctets
      (tmac.counter + 1) = some sessionKey ∧ AccumulatorHolds aes a sessionKey message := by
  unfold transactionMacCandidate at hcand
  dsimp only at hcand
  split_ifs at hcand with _ hinit
  · obtain rfl := Option.some.inj hcand
    refine h.taken fun hm => ?_
    rw [h.empty hm] at hinit
    cases hinit
  · have hm : message = [] := by
      by_contra hm
      obtain ⟨sessionKey, -, hholds⟩ := h.taken hm
      exact hinit hholds.initialized
    rw [Option.map_eq_some_iff] at hcand
    obtain ⟨sessionKey, hkey, rfl⟩ := hcand
    refine ⟨sessionKey, hkey, ?_⟩
    rw [hm]
    exact .init aes sessionKey

/-- An operation that is taken in extends the message by its octets. -/
theorem MacHolds.take (h : MacHolds aes e tmac message) (hstate : transactionMacState e = some tmac)
    {op : TransactionMacOperation} (htaken : MacTaken aes op e e') :
    op.entry.isSome = true ∧ MacHolds aes e' tmac (message ++ op.octets) := by
  have hframe := htaken.eq_update
  unfold MacTaken transactionMacAdd at htaken
  rw [hstate] at htaken
  dsimp only at htaken
  cases hcand : transactionMacCandidate aes e tmac with
  | none =>
    rw [hcand] at htaken
    cases htaken
  | some a =>
    obtain ⟨sessionKey, hkey, hholds⟩ := h.candidate hcand
    rw [hcand] at htaken
    simp only [Bool.false_eq_true, if_false] at htaken
    cases hentry : op.entry with
    | none =>
      rw [TransactionMacOperation.addTo, hentry] at htaken
      cases htaken
    | some entry =>
      have hheader := TransactionMacOperation.header_ne_nil hentry
      obtain ⟨a', hadd, hholds'⟩ := hholds.addEntry hheader
      have hto : op.addTo aes a = some a' := by
        rw [TransactionMacOperation.addTo, hentry]
        exact hadd
      have hoctets : op.octets = entry.octets := by rw [TransactionMacOperation.octets, hentry]; rfl
      rw [hto] at htaken
      cases htaken
      refine ⟨rfl, fun hm => ?_, fun _ => ⟨sessionKey, hkey, ?_⟩⟩
      · rw [hoctets] at hm
        exact absurd (List.append_eq_nil_iff.1 hm).2 (TransactionMacEntry.octets_ne_nil hheader)
      · rw [hoctets]
        exact hholds'

/-- The operations a transaction MAC is over: a read of the transaction MAC file is not one. -/
def macOperations (notes : List Note) : List TransactionMacOperation :=
  notes.filterMap fun note => if note.ofMacFile then none else some note.operation

section
variable (aes : List UInt8 → List UInt8 → List UInt8)

/-- The accumulator has taken in the operations on the notes. -/
structure MacInv (e : DfcEmulator) (notes : Notes) : Prop where
  without : transactionMacState e = none → e.transactionMac = {}
  reportable : (transactionMacState e).isSome = true →
    ∀ op ∈ macOperations notes.current, op.IsReportable ∧ op.entry.isSome = true
  holds : ∀ tmac, transactionMacState e = some tmac →
    MacHolds aes e tmac ((macOperations notes.current).flatMap TransactionMacOperation.octets)

end

variable {notes : Notes}

theorem MacInv.clean (h : MacInv aes e notes) : MacClean e := by
  cases hstate : transactionMacState e with
  | none => exact .ofCleared (h.without hstate)
  | some tmac => exact (h.holds tmac hstate).clean

theorem MacInv.kept (h : MacInv aes e notes) (hkept : MacKept e e') : MacInv aes e' notes where
  without hstate := by
    rw [hkept.state] at hstate
    rw [hkept.accumulator, h.without hstate]
  reportable hsome := h.reportable (by rw [← hkept.state]; exact hsome)
  holds tmac hstate := by
    rw [hkept.state] at hstate
    exact (h.holds tmac hstate).kept hkept

theorem MacInv.cleared (h : e.transactionMac = {}) (hcurrent : notes.current = []) :
    MacInv aes e notes where
  without _ := h
  reportable _ op hop := by
    rw [hcurrent] at hop
    exact absurd hop List.not_mem_nil
  holds tmac _ := by
    rw [hcurrent]
    exact ⟨fun _ => h, fun hm => absurd rfl hm⟩

theorem SameMacFile.ofTaken {op : TransactionMacOperation} (h : MacTaken aes op e e') :
    SameMacFile e e' := by
  rw [h.eq_update]
  exact ⟨rfl, rfl, rfl⟩

/-- Without a transaction MAC file nothing is taken in. -/
theorem MacTaken.without {op : TransactionMacOperation} (h : MacTaken aes op e e')
    (hstate : transactionMacState e = none) : e' = e := by
  unfold MacTaken transactionMacAdd at h
  rw [hstate] at h
  cases h
  rfl

/-- An operation that was taken in and noted. -/
theorem MacInv.taken (h : MacInv aes e notes) {op : TransactionMacOperation} {appIndex : ℕ}
    (htaken : MacTaken aes op e e') (hop : op.IsReportable) :
    MacInv aes e' { notes with
      current := notes.current ++ [{ appIndex, operation := op, ofMacFile := false }] } := by
  have hsame := SameMacFile.ofTaken htaken
  have hops : macOperations (notes.current ++
      [{ appIndex, operation := op, ofMacFile := false }]) =
      macOperations notes.current ++ [op] := by
    simp [macOperations]
  refine ⟨fun hstate => ?_, fun hsome op' hop' => ?_, fun tmac hstate => ?_⟩
  · rw [hsame.state] at hstate
    rw [htaken.without hstate, h.without hstate]
  · rw [hsame.state] at hsome
    obtain ⟨tmac, hstate⟩ := Option.isSome_iff_exists.1 hsome
    rw [hops, List.mem_append, List.mem_singleton] at hop'
    obtain hold | rfl := hop'
    · exact h.reportable hsome op' hold
    · exact ⟨hop, ((h.holds tmac hstate).take hstate htaken).1⟩
  · rw [hsame.state] at hstate
    rw [hops, List.flatMap_append]
    simpa using ((h.holds tmac hstate).take hstate htaken).2

/-- A read of the transaction MAC file, noted and left out. -/
theorem MacInv.skipped (h : MacInv aes e notes) {note : Note} (hnote : note.ofMacFile = true) :
    MacInv aes e { notes with current := notes.current ++ [note] } := by
  have hops : macOperations (notes.current ++ [note]) = macOperations notes.current := by
    simp [macOperations, hnote]
  refine ⟨h.without, ?_, fun tmac hstate => ?_⟩
  · dsimp only
    rw [hops]
    exact h.reportable
  · dsimp only
    rw [hops]
    exact h.holds tmac hstate

/-- A file of another type is not found by the search. -/
theorem SameMacFile.mayCreate {type : UInt8} (htype : type ≠ dfcFileTypeTransactionMac)
    (h : MayCreate e type e') : SameMacFile e e' := by
  obtain ⟨l, happended, hfresh⟩ := h
  have hsel : e'.selectedAppIndex = e.selectedAppIndex := by rw [happended.frame]
  refine ⟨?_, happended.uid, happended.uidLen⟩
  have hnone : (l.map macView).find? (isMacView e.selectedAppIndex) = none := by
    rw [List.find?_eq_none]
    intro view hview
    obtain ⟨file, hmem, rfl⟩ := List.mem_map.1 hview
    have hother : macView file = (file.appIndex, type, file.state.transactionMac) := by
      rw [macView, (hfresh file hmem).type_eq]
    rw [hother]
    simp [isMacView, htype]
  rw [transactionMacState_eq, transactionMacState_eq, hsel, happended.views macView_placementBlind,
    List.find?_append, hnone, Option.or_none]

theorem MacKept.mayCreate {type : UInt8} (htype : type ≠ dfcFileTypeTransactionMac)
    (h : MayCreate e type e') : MacKept e e' := by
  refine ⟨.mayCreate htype h, ?_⟩
  obtain ⟨l, happended, -⟩ := h
  rw [happended.frame]

/-- The note of an operation that is taken in. -/
theorem MacInv.noted (h : MacInv aes e notes) {op : TransactionMacOperation} {e₁ e₂ : DfcEmulator}
    (hop : acceptedOperation e env apdu payload = some op) (hreads : readsMacFile e apdu = false)
    (hbefore : MacKept e e₁) (htaken : MacTaken aes op e₁ e₂) (hafter : MacKept e₂ e')
    (hreport : op.IsReportable) :
    MacInv aes e' { notes with
      current := notes.current ++ (noteOf e env apdu payload).toList } := by
  have hnote : noteOf e env apdu payload =
      some { appIndex := e.selectedAppIndex, operation := op, ofMacFile := false } := by
    rw [noteOf, hop, hreads]
    rfl
  rw [hnote]
  exact ((h.kept hbefore).taken htaken hreport).kept hafter

theorem MacInv.recorded (h : MacInv aes e notes) (hrec : Recorded aes e env apdu payload e') :
    MacInv aes e' { notes with
      current := notes.current ++ (noteOf e env apdu payload).toList } := by
  obtain ⟨op, hop, hreport, hsteps⟩ := hrec
  cases hreads : readsMacFile e apdu with
  | true =>
    rw [hreads] at hsteps
    have hnote : noteOf e env apdu payload =
        some { appIndex := e.selectedAppIndex, operation := op, ofMacFile := true } := by
      rw [noteOf, hop, hreads]
      rfl
    rw [hnote]
    exact (h.skipped rfl).kept (.ofUnrelated hsteps)
  | false =>
    rw [hreads] at hsteps
    obtain ⟨e₁, e₂, hbefore, htaken, hafter⟩ := hsteps
    exact h.noted hop hreads (.ofUnrelated hbefore) htaken (.ofUnrelated hafter) hreport

theorem MacInv.valueDelta (h : MacInv aes e notes) {cmd : UInt8}
    (hbase : dfcFileCommandBase (apdu.getD 0 0) = cmd)
    (hcmd : cmd = dfcCmdCredit ∨ cmd = dfcCmdLimitedCredit ∨ cmd = dfcCmdDebit)
    (hok : dfcEmulatorCommandValueDelta aes e env apdu cmd (cmd == dfcCmdDebit)
      (cmd == dfcCmdLimitedCredit) = .ok (e', payload)) :
    MacInv aes e' { notes with
      current := notes.current ++ (noteOf e env apdu payload).toList } := by
  subst hbase
  obtain ⟨i, amount, next, recorded, -, -, hamount, -, -, -, htaken, rfl, rfl⟩ :=
    valueDelta_ok hok
  obtain ⟨hop, hreads⟩ := valueDelta_operation hcmd hamount
  refine h.noted hop hreads (.refl e) htaken ⟨.ofViews ?_ rfl rfl rfl, rfl⟩ ?_
  · exact fileViews_modifyFile recorded.credential i (f := fun file => file.withValue _) rfl
  obtain hc | hc | hc := hcmd
  · exact .inr (.inl hc)
  · exact .inr (.inr (.inr hc))
  · exact .inr (.inr (.inl hc))

/-- Deleting another file does not lead the search astray. -/
theorem SameMacFile.deleteFile {i : ℕ} {number : UInt8}
    (hfind : dfcCredentialFindFileInApp e.credential e.selectedAppIndex number = some i)
    (htype : (e.credential.files i).type ≠ dfcFileTypeTransactionMac) :
    SameMacFile e (e.mapCredential fun c =>
      (dfcCredentialDeleteFile c e.selectedAppIndex number).1) := by
  have hframe := fileFrame_delete e.credential e.selectedAppIndex number
  have hi : i < e.credential.numFiles := List.mem_range.1 (List.mem_of_find?_eq_some hfind)
  refine ⟨?_, hframe.uid, hframe.uidLen⟩
  rw [transactionMacState_eq, transactionMacState_eq]
  show (((fileViews macView
    (dfcCredentialDeleteFile e.credential e.selectedAppIndex number).1).find?
    (isMacView e.selectedAppIndex)).map _) = _
  rw [macView_placementBlind.deleteFile hfind, find?_eraseIdx (by simpa [fileViews] using hi)]
  simp only [fileViews, List.getElem_map, List.getElem_range]
  simp [isMacView, macView, htype]

theorem MacInv.deleteFile (h : MacInv aes e notes) {i : ℕ} {number : UInt8}
    (hfind : dfcCredentialFindFileInApp e.credential e.selectedAppIndex number = some i)
    (he' : e' = (dfcEmulatorTransactionSnapshotNotePersistentChange
      ((beforeDelete e i).mapCredential fun c => (dfcCredentialDeleteFile c
        (beforeDelete e i).selectedAppIndex number).1)).markDirty) :
    MacInv aes e' (if (e.credential.files i).type = dfcFileTypeTransactionMac then notes.close
      else notes) := by
  subst he'
  have hafter := MacKept.ofUnrelated (.notePersistentChange ((beforeDelete e i).mapCredential
    fun c => (dfcCredentialDeleteFile c (beforeDelete e i).selectedAppIndex number).1))
  revert hafter
  unfold beforeDelete
  split_ifs with htmac
  · intro hafter
    exact .cleared (hafter.accumulator.trans h.clean.abort) rfl
  · have hdeleted := MacKept.ofUnrelated (.snapshotDeleteFile e i)
    rw [snapshotDeleteFile_frame e i] at hdeleted ⊢
    intro hafter
    exact h.kept ((hdeleted.trans ⟨SameMacFile.deleteFile hfind htmac, rfl⟩).trans hafter)

/-- The card's record of an accepted command is the reader's. -/
theorem MacInv.accepted (h : MacInv aes e notes) (hacc : AcceptedAs aes e env apdu e' payload) :
    MacInv aes e' (notes.next e env apdu e' (.accepted payload)) := by
  cases hacc with
  | recorded _ hnext _ hrec =>
    rw [hnext]
    exact h.recorded hrec
  | valueDelta _ hnext hcmd hok =>
    rw [hnext]
    exact h.valueDelta rfl hcmd hok
  | commit hnext _ hok =>
    rw [hnext]
    refine .cleared ?_ rfl
    obtain ⟨-, ⟨-, rfl, -⟩ | ⟨i, mac, counter, -, -, rfl, -⟩⟩ := commitTransaction_ok hok
    · rfl
    · rfl
  | aborted _ hnext he' =>
    rw [hnext, he']
    exact .cleared h.clean.abort rfl
  | macFileCreated _ hnext hok =>
    rw [hnext]
    obtain ⟨-, -, rfl | ⟨c, i, -, rfl⟩⟩ := createTransactionMacFile_ok hok
    · exact .cleared h.clean.abort rfl
    · exact .cleared h.clean.abort rfl
  | fileDeleted _ hfind hnext he' =>
    rw [hnext]
    exact h.deleteFile hfind he'
  | fileCreated _ hnext htype hmay =>
    rw [hnext]
    exact h.kept (.mayCreate htype hmay)

/-- A refused handler leaves an accumulator that is clear or has something to clear. -/
theorem MacInv.clean_of_left (h : MacInv aes e notes) (hleft : Left aes e e') : MacClean e' := by
  induction hleft with
  | retry hretry => exact (MacKept.ofUnrelated (.leftForRetry hretry)).clean h.clean
  | opened hopen => exact (MacKept.ofUnrelated (.openJournal hopen)).clean h.clean
  | taken hread htaken =>
    have hkept := h.kept (.ofUnrelated (.readDataFrom hread))
    cases hstate : transactionMacState _ with
    | none =>
      rw [htaken.without hstate]
      exact hkept.clean
    | some tmac => exact ((hkept.holds tmac hstate).take hstate htaken).2.clean
  | chain _ ih => exact ih
  | reset _ ih => exact .ofCleared ih.abort
  | cleared => exact .ofCleared rfl
  | aborted => exact .ofCleared h.clean.abort
  | created htype hmay => exact (MacKept.mayCreate htype hmay).clean h.clean

/-- Where the transaction is over the accumulator is clear. -/
theorem MacInv.closed (h : MacInv aes e notes) (hopen : transactionOpen e = false) :
    e.transactionMac = {} := by
  rw [transactionOpen_eq] at hopen
  simp only [Bool.or_eq_false_iff] at hopen
  exact h.clean hopen.1.1.1

/-- A refusal that leaves the state for the transaction to go on. -/
theorem MacInv.refusedKept {status : UInt8} (h : MacInv aes e' notes) :
    MacInv aes e' (notes.next e env apdu e' (.refused status)) := by
  rw [Notes.next]
  split_ifs with hopen
  · exact h
  · exact .cleared (h.closed (by simpa using hopen)) rfl

/-- A refusal that ended the transaction. -/
theorem MacInv.refusedEnded {status : UInt8} (hclear : e'.transactionMac = {})
    (hclosed : transactionOpen e' = false) :
    MacInv aes e' (notes.next e env apdu e' (.refused status)) := by
  rw [Notes.next, hclosed]
  exact .cleared hclear rfl

theorem MacInv.refused {status : UInt8} (h : MacInv aes e notes)
    (hr : RefusedAs aes e e') : MacInv aes e' (notes.next e env apdu e' (.refused status)) := by
  cases hr with
  | kept hkept => exact (h.kept (.ofUnrelated hkept)).refusedKept
  | ended hleft hended hclosed =>
    exact .refusedEnded (hended.transactionMac.trans (h.clean_of_left hleft).abort) hclosed

theorem MacInv.step {s s' : DfcEmulator × Notes} {event : CardEvent} (h : MacInv aes s.1 s.2)
    (hstep : CardStep aes event s s') : MacInv aes s'.1 s'.2 := by
  cases hstep with
  | @command e e' notes env apdu reply hcommand =>
    show MacInv aes e' (notes.next e env apdu e' reply)
    obtain ⟨payload, rfl, hacc⟩ | ⟨status, rfl, hr⟩ := handleCommand_outcome hcommand
    · exact h.accepted hacc
    · exact h.refused hr
  | unrelated hunrelated => exact h.kept (.ofUnrelated hunrelated)
  | abort => exact .cleared h.clean.abort rfl
  | select selection appIndex => exact .cleared h.clean.abort rfl

theorem MacInv.run {s s' : DfcEmulator × Notes} (h : MacInv aes s.1 s.2)
    (hrun : CardRun aes s s') : MacInv aes s'.1 s'.2 :=
  CardRunOf.invariant (fun _ _ _ _ hstep hinv => MacInv.step hinv hstep) hrun h

theorem findTransactionMacFile_congr {c c' : DfcCredential} (hn : c'.numFiles = c.numFiles)
    (h : ∀ i, (c'.files i).appIndex = (c.files i).appIndex ∧ (c'.files i).type = (c.files i).type)
    (appIndex : ℕ) :
    dfcCredentialFindTransactionMacFile c' appIndex =
      dfcCredentialFindTransactionMacFile c appIndex := by
  unfold dfcCredentialFindTransactionMacFile
  rw [hn]
  congr 1
  funext i
  rw [(h i).1, (h i).2]

/-- The counter a commit stores is the one the file has from then on. -/
theorem storeTransactionCounter_state {i : ℕ} (hfile : transactionMacFile e = some i)
    (persist : Bool) (readerId : List UInt8) (counter : UInt32) :
    (transactionMacState ((dfcEmulatorPublishTransaction e).storeTransactionCounter i persist
      readerId counter)).map (·.counter) = some counter := by
  have hsel := publishTransaction_selectedAppIndex e
  have hfiles (j : ℕ) : ((dfcEmulatorPublishTransaction e).credential.files j).appIndex =
        (e.credential.files j).appIndex ∧
      ((dfcEmulatorPublishTransaction e).credential.files j).type =
      (e.credential.files j).type := by
    rw [publishTransaction_credential]
    unfold DfcCredential.mapFilesOf DfcFile.published
    dsimp only
    split_ifs <;> exact ⟨rfl, rfl⟩
  have hnum : (dfcEmulatorPublishTransaction e).credential.numFiles = e.credential.numFiles := by
    rw [publishTransaction_credential]
    rfl
  generalize dfcEmulatorPublishTransaction e = published at hsel hnum hfiles
  have hfound : transactionMacFile (published.storeTransactionCounter i persist readerId counter) =
      some i := by
    rw [← hfile]
    unfold transactionMacFile DfcEmulator.storeTransactionCounter DfcEmulator.mapCredential
    dsimp only
    rw [hsel]
    apply findTransactionMacFile_congr
    · exact hnum
    intro j
    rw [modifyFile_files]
    by_cases hj : j = i
    · rw [if_pos hj, hj]
      exact hfiles i
    · rw [if_neg hj]
      exact hfiles j
  rw [transactionMacState, hfound, DfcEmulator.storeTransactionCounter, DfcEmulator.mapCredential]
  dsimp only [Option.map_some]
  rw [modifyFile_files, if_pos rfl]
  rfl

theorem transactionMacCalculate_eq_some {code : List UInt8} {counter : UInt32} :
    transactionMacCalculate aes e tmac = some (code, counter) ↔
      tmac.counter ≠ uint32Max ∧ ∃ full,
        dfcTransactionMacAccumulatorFinalize aes e.transactionMac = some full ∧
        dfcTruncateAesWireMac full = code ∧ tmac.counter + 1 = counter := by
  unfold transactionMacCalculate
  split_ifs with hmax
  · simp [hmax]
  · simp [hmax, Option.map_eq_some_iff]

/-- The registry sends a commit to its handler. -/
theorem handleCommand_commit {rest : List UInt8}
    (h : dfcEmulatorHandleCommand aes e env (dfcCmdCommitTransaction :: rest) =
      some (e', .accepted payload)) :
    commitTransaction aes e env (dfcCmdCommitTransaction :: rest) = .ok (e', payload) := by
  have hdispatch : dispatchFileCommand aes e env (dfcCmdCommitTransaction :: rest) =
      some (commitTransaction aes e env (dfcCmdCommitTransaction :: rest)) := rfl
  unfold dfcEmulatorHandleCommand at h
  rw [hdispatch, Option.map_some, Option.some.injEq] at h
  cases hx : commitTransaction aes e env (dfcCmdCommitTransaction :: rest) with
  | ok s =>
    obtain ⟨e₁, octets⟩ := s
    rw [hx] at h
    obtain ⟨rfl, hreply⟩ := Prod.mk.injEq .. ▸ h
    rw [Reply.accepted.inj hreply]
  | error r =>
    rw [hx] at h
    exact absurd (congrArg Prod.snd h) (by simp [finishCommand])

/-- What a verifier finds that is given the key, the identifier and the counter, and is told a
series of operations. -/
def verifySeries (aes : List UInt8 → List UInt8 → List UInt8) (capacity : ℕ)
    (key uid : List UInt8) (counter : UInt32) (ops : List TransactionMacOperation)
    (mac : List UInt8) : Except DfcTransactionMacStatus Bool := do
  let v ← dfcTransactionMacVerifierInit capacity key uid counter
  let v ← TransactionMacOperation.feedAll v ops
  dfcTransactionMacVerify aes v mac

/-- Whatever commands came before, the code of a commit passes for a verifier that is told the
operations accepted since the transaction began, and its counter is the next one. -/
theorem commitTransaction_verifies {e₀ : DfcEmulator} (hstart : e₀.transactionMac = {})
    (hrun : CardRun aes (e₀, {}) (e, notes)) (hstate : transactionMacState e = some tmac)
    {t : UInt32} {mac : List UInt8}
    (hcommit : dfcEmulatorHandleCommand aes e env [dfcCmdCommitTransaction, 0x01] =
      some (e', .accepted (leOctets 4 t.toNat ++ mac))) {capacity : ℕ}
    (hcapacity : ((macOperations notes.current).flatMap TransactionMacOperation.octets).length ≤
      capacity) :
    verifySeries aes capacity tmac.keyOctets e.credential.uidOctets t
        (macOperations notes.current) mac = .ok true ∧
      t.toNat = tmac.counter.toNat + 1 ∧
      (transactionMacState e').map (·.counter) = some t := by
  have hinv : MacInv aes e notes := (MacInv.cleared hstart rfl).run hrun
  have hok : commitTransaction aes e env [dfcCmdCommitTransaction, 0x01] =
      .ok (e', leOctets 4 t.toNat ++ mac) := handleCommand_commit hcommit
  obtain ⟨-, ⟨hnone, -⟩ | ⟨i, code, counter, hfile, hcalc, rfl, hpayload⟩⟩ :=
    commitTransaction_ok hok
  · rw [transactionMacState, hnone] at hstate
    cases hstate
  have htmac : (e.credential.files i).state.transactionMac = tmac := by
    rw [transactionMacState, hfile] at hstate
    exact Option.some.inj hstate
  rw [htmac] at hcalc
  obtain ⟨hmax, full, hfinal, rfl, rfl⟩ := transactionMacCalculate_eq_some.1 hcalc
  obtain ⟨hcounter, rfl⟩ := List.append_inj hpayload (by simp)
  have ht : t = tmac.counter + 1 := by
    refine UInt32.toNat_inj.1 ?_
    have hvalue := congrArg leValue hcounter
    rwa [leValue_leOctets_of_lt (UInt32.toNat_lt _), leValue_leOctets_of_lt (UInt32.toNat_lt _)]
      at hvalue
  subst ht
  have hholds := hinv.holds tmac hstate
  have hne : (macOperations notes.current).flatMap TransactionMacOperation.octets ≠ [] := by
    intro hempty
    rw [hholds.empty hempty] at hfinal
    cases hfinal
  obtain ⟨sessionKey, hkey, htaken⟩ := hholds.taken hne
  obtain rfl : aesCmac aes sessionKey _ = full :=
    Option.some.inj ((htaken.finalize_eq hne).symm.trans hfinal)
  refine ⟨?_, ?_, storeTransactionCounter_state hfile _ _ _⟩
  · exact TransactionMacOperation.verify_feedAll
      (hinv.reportable (by rw [hstate]; rfl)) hne hkey hcapacity
  · have hlt := UInt32.toNat_lt tmac.counter
    have hne' : tmac.counter.toNat ≠ uint32Max.toNat := fun h => hmax (UInt32.toNat_inj.1 h)
    rw [UInt32.toNat_add]
    simp only [uint32Max, UInt32.reduceToNat] at hne' ⊢
    omega

/-- A card with a selected application of two files: a transaction MAC file that all may read,
and a value file. -/
def macCard : DfcEmulator :=
  { credential :=
      { uidLen := 7
        uid := fun i => [0x04, 0x11, 0x22, 0x33, 0x44, 0x55, 0x66].getD i 0
        numApps := 1
        apps := fun _ => { numKeys := 1, keySettings1 := 0x0F, keySettings2 := 0x81 }
        numFiles := 2
        filePoolUsed := 12
        files := fun i =>
          if i = 0 then
            { number := 0x0F, type := dfcFileTypeTransactionMac, accessRights := 0xEFF0
              dataLen := 12, state := { transactionMac := { keyType := 0x02 } } }
          else
            { number := 0x01, type := dfcFileTypeValue, accessRights := 0xEEE0
              dataOffset := dfcFilePoolNone
              state := { value := { upperLimit := 100, current := 42 } } } }
    selectedApplication := .app }

/-- The card after GetValue and a read of the whole transaction MAC file. -/
def macCardRead : DfcEmulator :=
  afterCommand (afterCommand macCard [dfcCmdGetValue, 0x01])
    [dfcCmdReadData, 0x0F, 0, 0, 0, 0, 0, 0]

/-- The notes on the two. -/
def macCardNotes : Notes :=
  { current :=
      [{ appIndex := 0, operation := .value dfcCmdGetValue 0x01 42, ofMacFile := false },
        { appIndex := 0, operation := .data dfcCmdReadData 0x0F 0 12 (List.replicate 12 0),
          ofMacFile := true }] }

def macCardCode : List UInt8 := [0x42, 0xD3, 0x1A, 0x33, 0xD5, 0x4A, 0x73, 0x74]

theorem macCard_run : CardRun Aes.encrypt (macCard, {}) (macCardRead, macCardNotes) := by
  have hget : dfcEmulatorHandleCommand Aes.encrypt macCard {} [dfcCmdGetValue, 0x01] =
      some (afterCommand macCard [dfcCmdGetValue, 0x01], .accepted [42, 0, 0, 0]) :=
    afterCommand_eq (by decide +kernel)
  have hread : dfcEmulatorHandleCommand Aes.encrypt (afterCommand macCard [dfcCmdGetValue, 0x01]) {}
      [dfcCmdReadData, 0x0F, 0, 0, 0, 0, 0, 0] =
      some (macCardRead, .accepted (List.replicate 12 0)) :=
    afterCommand_eq (by decide +kernel)
  have hnotes : ((({} : Notes).next macCard {} [dfcCmdGetValue, 0x01]
      (afterCommand macCard [dfcCmdGetValue, 0x01]) (.accepted [42, 0, 0, 0])).next
      (afterCommand macCard [dfcCmdGetValue, 0x01]) {} [dfcCmdReadData, 0x0F, 0, 0, 0, 0, 0, 0]
      macCardRead (.accepted (List.replicate 12 0))) = macCardNotes := by
    decide +kernel
  rw [← hnotes]
  exact (Relation.ReflTransGen.single ⟨_, trivial, CardStep.command hget⟩).tail
    ⟨_, trivial, CardStep.command hread⟩

theorem macCard_commits : dfcEmulatorHandleCommand Aes.encrypt macCardRead {}
    [dfcCmdCommitTransaction, 0x01] =
    some (afterCommand macCardRead [dfcCmdCommitTransaction, 0x01],
      .accepted (leOctets 4 (1 : UInt32).toNat ++ macCardCode)) :=
  afterCommand_eq (by decide +kernel)

/-- The code passes for the value that was read. -/
theorem commitTransaction_verifies_getValue :
    CardRun Aes.encrypt (macCard, {}) (macCardRead, macCardNotes) ∧
    verifySeries Aes.encrypt 16 (List.replicate 16 0) macCardRead.credential.uidOctets 1
      [.value dfcCmdGetValue 0x01 42] macCardCode = .ok true :=
  ⟨macCard_run, (commitTransaction_verifies (show macCard.transactionMac = {} from rfl) macCard_run
    (show transactionMacState macCardRead = some { keyType := 0x02 } from rfl) macCard_commits
    (by decide +kernel)).1⟩

/-- A verifier that is also told of the read of the transaction MAC file rejects the code. -/
theorem not_commitTransaction_verifies_macFileRead :
    CardRun Aes.encrypt (macCard, {}) (macCardRead, macCardNotes) ∧
    dfcEmulatorHandleCommand Aes.encrypt macCardRead {} [dfcCmdCommitTransaction, 0x01] =
      some (afterCommand macCardRead [dfcCmdCommitTransaction, 0x01],
        .accepted (leOctets 4 (1 : UInt32).toNat ++ macCardCode)) ∧
    verifySeries Aes.encrypt 64 (List.replicate 16 0) macCardRead.credential.uidOctets 1
      (macCardNotes.current.map Note.operation) macCardCode = .ok false :=
  ⟨macCard_run, macCard_commits, by decide +kernel⟩

end DfcCore
