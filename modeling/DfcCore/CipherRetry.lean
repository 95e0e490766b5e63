import DfcCore.NativeSession

/-!
# Cipher failures while an operation is recorded

An operation is recorded for the transaction MAC before it is carried out. Where the block
cipher fails on it, the handler refuses in a way that can be retried. The refusal leaves at
most a file captured in a journal that was open already, or a file rendered and counted, and the
command sent again does what it would have done at once.
-/
namespace DfcCore
open Der

variable {aes : List UInt8 → List UInt8 → List UInt8} {e e' opened : DfcEmulator}
  {env : CommandEnv} {apdu payload : List UInt8}

theorem captureFile_again {i : ℕ} {captured : DfcEmulator} (hactive : e.snapshot.active = true)
    (hi : i < dfcMaxFiles)
    (h : dfcEmulatorTransactionSnapshotCaptureFile e i = (captured, true)) :
    dfcEmulatorTransactionSnapshotCaptureFile captured i = (captured, true) := by
  obtain ⟨hin, happ, hdata⟩ := captureFile_true h hactive
  have hframe := captureFile_frame e i
  have hjournal := captureFile_journal e i
  rw [h] at hframe hjournal
  dsimp only at hframe hjournal
  have hcredential : captured.credential = e.credential := by rw [hframe]
  -- Whether it had its entry before or has just got it, the file is in the journal.
  have hentry : (captured.snapshot.entry i).created = true ∨
      (captured.snapshot.entry i).captured = true := by
    unfold dfcEmulatorTransactionSnapshotCaptureFile at h
    dsimp only at h
    rw [if_neg (by rw [hactive]; decide), if_neg (Nat.not_le.2 hin),
      if_neg (by simp [happ, hdata])] at h
    split at h
    next hthere =>
      obtain rfl := congrArg Prod.fst h
      exact hthere
    next =>
      split at h
      · exact absurd (congrArg Prod.snd h) Bool.false_ne_true
      split at h
      · exact absurd (congrArg Prod.snd h) Bool.false_ne_true
      · obtain rfl := congrArg Prod.fst h
        right
        simp only [DfcTransactionSnapshot.entry, if_pos hi, Function.update_self]
  unfold dfcEmulatorTransactionSnapshotCaptureFile
  dsimp only
  rw [hcredential, if_neg (by rw [hjournal.active, hactive]; decide), if_neg (Nat.not_le.2 hin),
    if_neg (by simp [happ, hdata, hjournal.appIndex]), if_pos hentry]

/-- A journal that is open with the file in it stays as it is. -/
theorem openJournal_again {allocationFails : Bool} {i : ℕ} (h : JournalSettled e)
    (hopen : openJournal e allocationFails i = (opened, true)) :
    openJournal opened allocationFails i = (opened, true) := by
  obtain ⟨hactive, hin, -, -⟩ := openJournal_true hopen
  have hi : i < dfcMaxFiles := hin.trans_le h.count
  have hcapture {begun : DfcEmulator} (hbegun : begun.snapshot.active = true)
      (happ : begun.snapshot.appIndex = begun.selectedAppIndex)
      (heq : dfcEmulatorTransactionSnapshotCaptureFile begun i = (opened, true)) :
      openJournal opened allocationFails i = (opened, true) := by
    have hframe := captureFile_frame begun i
    have hjournal := captureFile_journal begun i
    rw [heq] at hframe hjournal
    dsimp only at hframe hjournal
    have hselected : opened.snapshot.appIndex = opened.selectedAppIndex := by
      rw [hjournal.appIndex, happ, hframe]
    unfold openJournal dfcEmulatorCommandTransactionSnapshotBegin
    rw [if_pos hactive, beq_iff_eq.2 hselected]
    exact captureFile_again hbegun hi heq
  unfold openJournal at hopen
  obtain hbegin | ⟨-, capacity, hbegin⟩ := snapshotBegin_cases e allocationFails
  · rw [hbegin] at hopen
    cases hok : (e.snapshot.active && e.snapshot.appIndex == e.selectedAppIndex) with
    | false =>
      rw [hok] at hopen
      exact absurd (congrArg Prod.snd hopen) Bool.false_ne_true
    | true =>
      rw [hok] at hopen
      rw [Bool.and_eq_true, beq_iff_eq] at hok
      exact hcapture hok.1 hok.2 hopen
  · rw [hbegin] at hopen
    refine hcapture ?_ ?_ hopen
    · rfl
    · rfl

/-- What a capture leaves of the journal: only where the file lies in it is new. -/
structure JournalKept (s s' : DfcTransactionSnapshot) : Prop where
  active : s'.active = s.active
  appIndex : s'.appIndex = s.appIndex
  dirty : s'.dirty = s.dirty
  created : ∀ j, (s'.entries j).created = (s.entries j).created
  recordOperation : ∀ j, (s'.entries j).recordOperation = (s.entries j).recordOperation
  recordNumber : ∀ j, (s'.entries j).recordNumber = (s.entries j).recordNumber
  fits : s.poolLength ≤ s.poolCapacity → s'.poolLength ≤ s'.poolCapacity

theorem JournalKept.refl (s : DfcTransactionSnapshot) : JournalKept s s :=
  ⟨rfl, rfl, rfl, fun _ => rfl, fun _ => rfl, fun _ => rfl, fun h => h⟩

theorem entry_field_kept {α : Type} (field : DfcTransactionEntry → α)
    {entries : ℕ → DfcTransactionEntry} {i : ℕ} {entry : DfcTransactionEntry}
    (h : field entry = field (entries i)) (j : ℕ) :
    field (Function.update entries i entry j) = field (entries j) := by
  by_cases hj : j = i
  · rw [hj, Function.update_self, h]
  · rw [Function.update_of_ne hj]

theorem captureFile_kept (e : DfcEmulator) (i : ℕ) :
    JournalKept e.snapshot (dfcEmulatorTransactionSnapshotCaptureFile e i).1.snapshot := by
  unfold dfcEmulatorTransactionSnapshotCaptureFile
  dsimp only
  split
  · exact .refl _
  split
  · exact .refl _
  split
  · exact .refl _
  split
  · exact .refl _
  split
  · exact .refl _
  next hroom =>
    split
    · exact .refl _
    · refine ⟨rfl, rfl, rfl, entry_field_kept (·.created) rfl,
        entry_field_kept (·.recordOperation) rfl,
        entry_field_kept (·.recordNumber) rfl, fun _ => ?_⟩
      dsimp only
      omega

/-- A journal that was open before keeps what it notes; one the command opened is empty. -/
theorem openJournal_kept {allocationFails : Bool} {i : ℕ}
    (hopen : openJournal e allocationFails i = (opened, true)) :
    (e.snapshot.active = true → JournalKept e.snapshot opened.snapshot) ∧
      (e.snapshot.active = false → opened.snapshot.dirty = e.credential.dirty ∧
        opened.snapshot.poolLength ≤ opened.snapshot.poolCapacity) := by
  unfold openJournal at hopen
  obtain hbegin | ⟨hidle, capacity, hbegin⟩ := snapshotBegin_cases e allocationFails
  · rw [hbegin] at hopen
    cases hok : (e.snapshot.active && e.snapshot.appIndex == e.selectedAppIndex) with
    | false =>
      rw [hok] at hopen
      exact absurd (congrArg Prod.snd hopen) Bool.false_ne_true
    | true =>
      rw [hok] at hopen
      rw [Bool.and_eq_true] at hok
      have hkept := captureFile_kept e i
      dsimp only at hopen
      rw [hopen] at hkept
      refine ⟨fun _ => hkept, fun hidle => ?_⟩
      rw [hok.1] at hidle
      cases hidle
  · rw [hbegin] at hopen
    refine ⟨fun hactive => ?_, fun _ => ?_⟩
    · rw [hidle] at hactive
      cases hactive
    · have hkept := captureFile_kept
        { e with
          snapshot :=
            { active := true
              appIndex := e.selectedAppIndex
              dirty := e.credential.dirty
              hasPool := true
              poolCapacity := capacity } } i
      dsimp only at hopen
      rw [hopen] at hkept
      exact ⟨hkept.dirty, hkept.fits (Nat.zero_le _)⟩

/-- Rewriting a file to itself changes nothing. -/
theorem modifyFile_self {c : DfcCredential} {i : ℕ} {f : DfcFile → DfcFile}
    (h : f (c.files i) = c.files i) : c.modifyFile i f = c := by
  unfold DfcCredential.modifyFile
  rw [h, Function.update_eq_self]

/-- A file with nothing pending is as it was after its turn. -/
theorem restoreFile_settled (s : DfcTransactionSnapshot) {c : DfcCredential} {i : ℕ}
    (h : (c.files i).transactionPending = false) : snapshotRestoreFile s c i = c := by
  unfold snapshotRestoreFile
  dsimp only
  split_ifs with happ hsettled
  · rfl
  · refine modifyFile_self ?_
    rw [← h]
  all_goals exact absurd (.inl h) hsettled

theorem foldl_restoreFile_settled (s : DfcTransactionSnapshot) {c : DfcCredential} {l : List ℕ}
    (h : ∀ i ∈ l, (c.files i).transactionPending = false) :
    l.foldl (snapshotRestoreFile s) c = c := by
  induction l with
  | nil => rfl
  | cons i l ih =>
    rw [List.foldl_cons, restoreFile_settled s (h i List.mem_cons_self)]
    exact ih fun j hj => h j (List.mem_cons_of_mem i hj)

/-- Giving up a journal the command itself opened leaves the card as the command found it. -/
theorem abandonJournal_opened {allocationFails : Bool} {i : ℕ} (h : JournalSettled e)
    (hidle : e.snapshot.active = false)
    (hopen : openJournal e allocationFails i = (opened, true)) : abandonJournal e opened = e := by
  have hactive := (openJournal_true hopen).1
  have hframe := openJournal_frame hopen
  obtain ⟨hdirty, hfits⟩ := (openJournal_kept hopen).2 hidle
  generalize opened.snapshot = s at hactive hframe hdirty hfits
  subst hframe
  have hsettled : ∀ j ∈ List.range e.credential.numFiles,
      (e.credential.files j).transactionPending = false :=
    fun j hj => h.not_pending hidle (List.mem_range.1 hj)
  have hrecoverable : (List.range e.credential.numFiles).all
      (snapshotFileRecoverable s e.credential) = true := by
    rw [List.all_eq_true]
    intro j hj
    unfold snapshotFileRecoverable
    dsimp only
    rw [if_pos (.inr (.inl (hsettled j hj)))]
  unfold abandonJournal dfcEmulatorAbortTransactionSnapshot
  dsimp only
  rw [if_neg (by rw [hidle]; decide), if_neg (by rw [hactive]; decide),
    if_pos ⟨hfits, hrecoverable⟩, foldl_restoreFile_settled s hsettled, hdirty]
  dsimp only
  rw [← h.idle hidle]

/-- Where the command is sent again, the journal opens as it did. -/
theorem abandonJournal_again {allocationFails : Bool} {i : ℕ} (h : JournalSettled e)
    (hopen : openJournal e allocationFails i = (opened, true)) :
    openJournal (abandonJournal e opened) allocationFails i = (opened, true) := by
  cases hactive : e.snapshot.active with
  | false => rw [abandonJournal_opened h hactive hopen, hopen]
  | true =>
    unfold abandonJournal
    rw [if_pos hactive]
    exact openJournal_again h hopen

/-- The state left for the retry is left again. -/
theorem abandonJournal_twice {allocationFails : Bool} {i : ℕ} (h : JournalSettled e)
    (hopen : openJournal e allocationFails i = (opened, true)) :
    abandonJournal (abandonJournal e opened) opened = abandonJournal e opened := by
  cases hactive : e.snapshot.active with
  | false => rw [abandonJournal_opened h hactive hopen, abandonJournal_opened h hactive hopen]
  | true =>
    have hopened : abandonJournal e opened = opened := by
      unfold abandonJournal
      rw [if_pos hactive]
    rw [hopened, abandonJournal_self]

/-- The states that differ from the given one in what the journal has captured. -/
def withJournal (e : DfcEmulator) (s : { s // JournalKept e.snapshot s }) : DfcEmulator :=
  { e with snapshot := s }

theorem abandonJournal_frame {allocationFails : Bool} {i : ℕ} (h : JournalSettled e)
    (hopen : openJournal e allocationFails i = (opened, true)) :
    ∃ s, abandonJournal e opened = withJournal e s := by
  cases hactive : e.snapshot.active with
  | false => exact ⟨⟨e.snapshot, .refl _⟩, abandonJournal_opened h hactive hopen⟩
  | true =>
    refine ⟨⟨opened.snapshot, (openJournal_kept hopen).1 hactive⟩, ?_⟩
    unfold abandonJournal
    rw [if_pos hactive]
    exact openJournal_frame hopen

/-- The refusal of a command the cipher failed in. -/
def cipherRefusal (left : DfcEmulator) : Refusal :=
  { emulator := left, status := dfcStatusBoundaryError, retryable := true }

/-- Under a failing cipher a handler ends as under a working one, or refuses for a retry and
leaves the given state. -/
def FailsLeaving {α : Type} (left : DfcEmulator) (failing working : Except Refusal α) : Prop :=
  failing = working ∨ failing = .error (cipherRefusal left)

namespace FailsLeaving
variable {α β : Type} {left : DfcEmulator}

theorem same (x : Except Refusal α) : FailsLeaving left x x := .inl rfl

theorem bind {x : Except Refusal α} {f g : α → Except Refusal β}
    (h : ∀ a, x = .ok a → FailsLeaving left (f a) (g a)) :
    FailsLeaving left (x >>= f) (x >>= g) := by
  cases x with
  | error r => exact .same _
  | ok a => exact h a rfl

theorem ite {p : Prop} [Decidable p] {x y x' y' : Except Refusal α}
    (h : p → FailsLeaving left x x') (h' : ¬p → FailsLeaving left y y') :
    FailsLeaving left (if p then x else y) (if p then x' else y') := by
  split_ifs with hp
  · exact h hp
  · exact h' hp

/-- The step the cipher fails in. -/
theorem record {add : DfcTransactionMacAccumulator → Option DfcTransactionMacAccumulator}
    {e₁ : DfcEmulator} {f : DfcEmulator → Except Refusal α} :
    FailsLeaving left ((transactionMacAdd aes e₁ true add).orRefuse left >>= f)
      ((transactionMacAdd aes e₁ false add).orRefuse left >>= f) := by
  unfold transactionMacAdd
  cases transactionMacState e₁ with
  | none => exact .same _
  | some tmac =>
    dsimp only
    cases transactionMacCandidate aes e₁ tmac with
    | none => exact .same _
    | some candidate => exact .inr rfl

end FailsLeaving

/-- Under a failing cipher a handler ends as under a working one, or refuses for a retry in one
of the states `left` and then ends so from there. -/
def Reruns {ι α : Type} (left : ι → DfcEmulator) (failing working : Except Refusal α)
    (again : DfcEmulator → Except Refusal α) : Prop :=
  failing = working ∨ ∃ a, failing = .error (cipherRefusal (left a)) ∧ again (left a) = working

namespace Reruns
variable {ι α β : Type} {left : ι → DfcEmulator}

theorem leaves {a : ι} {failing working : Except Refusal α}
    {again : DfcEmulator → Except Refusal α} (h : FailsLeaving (left a) failing working)
    (hagain : again (left a) = working) : Reruns left failing working again := by
  obtain h | h := h
  · exact .inl h
  · exact .inr ⟨a, h, hagain⟩

theorem bind {x : Except Refusal α} {y : DfcEmulator → Except Refusal α}
    {f g : α → Except Refusal β} {again : DfcEmulator → α → Except Refusal β}
    (hx : ∀ c a, x = .ok c → y (left a) = .ok c)
    (h : ∀ c, x = .ok c → Reruns left (f c) (g c) fun e' => again e' c) :
    Reruns left (x >>= f) (x >>= g) fun e' => y e' >>= again e' := by
  cases hok : x with
  | error r => exact .inl rfl
  | ok c =>
    obtain hsame | ⟨a, hfailing, hagain⟩ := h c hok
    · exact .inl hsame
    · refine .inr ⟨a, hfailing, ?_⟩
      dsimp only
      rw [hx c a hok]
      exact hagain

/-- A check that does not see what the failure changed. -/
theorem refuseIf {p : Prop} {q : DfcEmulator → Prop} {_ : Decidable p}
    {_ : ∀ e', Decidable (q e')} {r : Refusal} {r' : DfcEmulator → Refusal}
    {f g : Unit → Except Refusal β} {again : DfcEmulator → Unit → Except Refusal β}
    (hp : ∀ a, q (left a) → p) (h : ¬p → Reruns left (f ()) (g ()) fun e' => again e' ()) :
    Reruns left (Der.refuseIf p r >>= f) (Der.refuseIf p r >>= g)
      fun e' => Der.refuseIf (q e') (r' e') >>= again e' := by
  refine .bind (fun _ a hok => ?_) fun _ hok => h (refuseIf_eq_ok.1 hok)
  exact refuseIf_eq_ok.2 fun hfails => refuseIf_eq_ok.1 hok (hp a hfails)

theorem orFail {o : Option α} {o' : DfcEmulator → Option α} {r : Refusal}
    {r' : DfcEmulator → Refusal} {f g : α → Except Refusal β}
    {again : DfcEmulator → α → Except Refusal β} (ho : ∀ a, o' (left a) = o)
    (h : ∀ c, o = some c → Reruns left (f c) (g c) fun e' => again e' c) :
    Reruns left (Der.orFail r o >>= f) (Der.orFail r o >>= g)
      fun e' => Der.orFail (r' e') (o' e') >>= again e' := by
  refine .bind (fun _ a hok => ?_) fun c hok => h c (orFail_eq_ok.1 hok)
  exact orFail_eq_ok.2 ((ho a).trans (orFail_eq_ok.1 hok))

theorem unwrapped {x : Unwrapped α} {x' : DfcEmulator → Unwrapped α} {f g : α → Except Refusal β}
    {again : DfcEmulator → α → Except Refusal β} (hx : ∀ a, x' (left a) = x)
    (h : ∀ c, Reruns left (f c) (g c) fun e' => again e' c) :
    Reruns left (x.orRefuse e >>= f) (x.orRefuse e >>= g)
      fun e' => (x' e').orRefuse e' >>= again e' := by
  refine .bind (fun c a hok => ?_) fun c _ => h c
  rw [hx a, unwrapped_orRefuse_ok hok]
  rfl

end Reruns

namespace Reruns
variable {α β : Type}

theorem findRecordFile {fileNo : UInt8} {f g : ℕ → Except Refusal β}
    {again : DfcEmulator → ℕ → Except Refusal β}
    (h : ∀ i, Reruns (withJournal e) (f i) (g i) fun e' => again e' i) :
    Reruns (withJournal e) (findRecordFile e fileNo >>= f) (findRecordFile e fileNo >>= g)
      fun e' => DfcCore.findRecordFile e' fileNo >>= again e' := by
  refine .bind (fun i s hok => ?_) fun i _ => h i
  simp only [DfcCore.findRecordFile, findFile, bind_eq_ok, orFail_eq_ok, refuseIf_eq_ok,
    exists_const, pure_eq_ok] at hok ⊢
  exact hok

/-- The part the commands share once the journal is open: sent again, the command finds the
same journal and would leave the same state. -/
theorem inJournal {i : ℕ} {allocationFails : Bool} {failing working : Except Refusal β}
    {again : DfcEmulator → Except Refusal β} (h : JournalSettled e)
    (hopen : openJournal e allocationFails i = (opened, true))
    (hfails : FailsLeaving (abandonJournal e opened) failing working)
    (hagain : ∀ s, openJournal (withJournal e s) allocationFails i = (opened, true) →
      abandonJournal (withJournal e s) opened = abandonJournal e opened →
      again (withJournal e s) = working) :
    Reruns (withJournal e) failing working again := by
  obtain hsame | hfails := hfails
  · exact .inl hsame
  · obtain ⟨s, hs⟩ := abandonJournal_frame h hopen
    refine .inr ⟨s, hs ▸ hfails, hagain s ?_ ?_⟩
    · rw [← hs, abandonJournal_again h hopen]
    · rw [← hs, abandonJournal_twice h hopen]

end Reruns

section
variable (aes)

theorem writeRecord_reruns (h : JournalSettled e) (env : CommandEnv) (apdu : List UInt8) :
    Reruns (withJournal e) (dfcEmulatorCommandWriteRecord aes e
      { env with cipherFails := true } apdu)
      (dfcEmulatorCommandWriteRecord aes e { env with cipherFails := false } apdu)
      fun e' => dfcEmulatorCommandWriteRecord aes e' { env with cipherFails := false } apdu := by
  unfold dfcEmulatorCommandWriteRecord
  refine .refuseIf (fun _ h => h) fun _ => .refuseIf (fun _ h => h) fun _ => ?_
  refine .refuseIf (fun _ h => h) fun _ => .findRecordFile fun i => ?_
  refine .refuseIf (fun _ h => h) fun _ => .refuseIf (fun _ h => h) fun _ => ?_
  refine .unwrapped (fun _ => rfl) fun clear => .refuseIf (fun _ h => h) fun _ => ?_
  refine .refuseIf (fun _ h => h) fun _ => .refuseIf (fun _ h => h) fun _ => ?_
  refine .orFail (fun _ => rfl) fun start _ => ?_
  cases hopen : openJournal e env.allocationFails i with
  | mk opened isOpen =>
    cases isOpen with
    | false => exact .inl rfl
    | true =>
      refine .inJournal h hopen (.bind fun _ _ => .bind fun _ _ => .bind fun _ _ => .record) ?_
      intro s hagain hleft
      dsimp only
      rw [hagain]
      dsimp only
      rw [hleft]
      rfl

theorem updateRecord_reruns (h : JournalSettled e) (env : CommandEnv) (apdu : List UInt8) :
    Reruns (withJournal e)
      (dfcEmulatorCommandUpdateRecord aes e { env with cipherFails := true } apdu)
      (dfcEmulatorCommandUpdateRecord aes e { env with cipherFails := false } apdu)
      fun e' => dfcEmulatorCommandUpdateRecord aes e' { env with cipherFails := false } apdu := by
  unfold dfcEmulatorCommandUpdateRecord
  refine .refuseIf (fun _ h => h) fun _ => .refuseIf (fun _ h => h) fun _ => ?_
  refine .refuseIf (fun _ h => h) fun _ => .refuseIf (fun _ h => h) fun _ => ?_
  refine .findRecordFile fun i => .refuseIf (fun _ h => h) fun _ => ?_
  refine .refuseIf (fun _ h => h) fun _ => .refuseIf (fun _ h => h) fun _ => ?_
  refine .unwrapped (fun _ => rfl) fun clear => .refuseIf (fun _ h => h) fun _ => ?_
  refine .refuseIf (fun _ h => h) fun _ => .orFail (fun _ => rfl) fun start _ => ?_
  cases hopen : openJournal e env.allocationFails i with
  | mk opened isOpen =>
    cases isOpen with
    | false => exact .inl rfl
    | true =>
      refine .inJournal h hopen (.bind fun _ _ => .bind fun _ _ => .bind fun _ _ => .record) ?_
      intro s hagain hleft
      dsimp only
      rw [hagain]
      dsimp only
      rw [hleft]
      rfl

theorem clearRecordFile_reruns (h : JournalSettled e) (env : CommandEnv) (apdu : List UInt8) :
    Reruns (withJournal e)
      (dfcEmulatorCommandClearRecordFile aes e { env with cipherFails := true } apdu)
      (dfcEmulatorCommandClearRecordFile aes e { env with cipherFails := false } apdu)
      fun e' => dfcEmulatorCommandClearRecordFile aes e'
      { env with cipherFails := false } apdu := by
  unfold dfcEmulatorCommandClearRecordFile
  refine .refuseIf (fun _ h => h) fun _ => .refuseIf (fun _ h => h) fun _ => ?_
  refine .findRecordFile fun i => .refuseIf (fun _ h => h) fun _ => ?_
  refine .refuseIf (fun _ h => h) fun _ => .refuseIf (fun _ h => h) fun _ => ?_
  cases hopen : openJournal e env.allocationFails i with
  | mk opened isOpen =>
    cases isOpen with
    | false => exact .inl rfl
    | true =>
      refine .inJournal h hopen (.bind fun _ _ => .bind fun _ _ => .record) ?_
      intro s hagain hleft
      dsimp only
      rw [hagain]
      dsimp only
      rw [hleft]

theorem writeData_reruns (h : JournalSettled e) (env : CommandEnv) (apdu : List UInt8) :
    Reruns (withJournal e) (dfcEmulatorCommandWriteData aes e { env with cipherFails := true } apdu)
      (dfcEmulatorCommandWriteData aes e { env with cipherFails := false } apdu)
      fun e' => dfcEmulatorCommandWriteData aes e' { env with cipherFails := false } apdu := by
  unfold dfcEmulatorCommandWriteData
  refine .refuseIf (fun _ h => h) fun _ => .refuseIf (fun _ h => h) fun _ => ?_
  refine .orFail (fun _ => rfl) fun i _ => .refuseIf (fun _ h => h) fun _ => ?_
  refine .refuseIf (fun _ h => h) fun _ => .refuseIf (fun _ h => h) fun _ => ?_
  refine .refuseIf (fun _ h => h) fun _ => .refuseIf (fun _ h => h) fun _ => ?_
  refine .unwrapped (fun _ => rfl) fun clear => .refuseIf (fun _ h => h) fun _ => ?_
  refine .orFail (fun _ => rfl) fun start _ => .refuseIf (fun _ h => h) fun _ => ?_
  dsimp only
  by_cases hbackup : (e.credential.files i).type = dfcFileTypeBackupData
  · rw [if_pos hbackup]
    cases hopen : openJournal e env.allocationFails i with
    | mk opened isOpen =>
      cases isOpen with
      | false => exact .inl rfl
      | true =>
        refine .inJournal h hopen (.bind fun _ _ => .bind fun _ _ => .record) ?_
        intro s hagain hleft
        dsimp only
        rw [if_pos (show ((withJournal e s).credential.files i).type = _ from hbackup), hagain]
        dsimp only
        rw [hleft]
        rfl
  · -- A standard file has no journal: the command leaves the state it found.
    refine .leaves (a := ⟨e.snapshot, .refl _⟩) ?_ rfl
    change FailsLeaving e _ _
    rw [if_neg hbackup]
    dsimp only
    rw [abandonJournal_self]
    exact .bind fun _ _ => .bind fun _ _ => .record

theorem readRecords_reruns (e : DfcEmulator) (env : CommandEnv) (apdu : List UInt8) :
    Reruns (fun _ : Unit => e) (handleReadRecords aes e { env with cipherFails := true } apdu)
      (handleReadRecords aes e { env with cipherFails := false } apdu)
      fun e' => handleReadRecords aes e' { env with cipherFails := false } apdu := by
  refine .leaves (a := ()) ?_ rfl
  refine .bind fun _ _ => .bind fun _ _ => .bind fun _ _ => .bind fun _ _ => .bind fun _ _ => ?_
  exact .bind fun _ _ => .bind fun _ _ => .bind fun _ _ => .record

theorem getValue_reruns (e : DfcEmulator) (env : CommandEnv) (apdu : List UInt8) :
    Reruns (fun _ : Unit => e)
    (dfcEmulatorCommandGetValue aes e { env with cipherFails := true } apdu)
      (dfcEmulatorCommandGetValue aes e { env with cipherFails := false } apdu)
      fun e' => dfcEmulatorCommandGetValue aes e' { env with cipherFails := false } apdu := by
  refine .leaves (a := ()) ?_ rfl
  refine .bind fun _ _ => .bind fun _ _ => .bind fun _ _ => .bind fun _ _ => ?_
  exact .bind fun _ _ => .record

theorem valueDelta_reruns (e : DfcEmulator) (env : CommandEnv) (apdu : List UInt8) (cmd : UInt8)
    (debit limitedCredit : Bool) :
    Reruns (fun _ : Unit => e)
      (dfcEmulatorCommandValueDelta aes e { env with cipherFails := true } apdu cmd debit
        limitedCredit)
      (dfcEmulatorCommandValueDelta aes e { env with cipherFails := false } apdu cmd debit
        limitedCredit)
      fun e' => dfcEmulatorCommandValueDelta aes e' { env with cipherFails := false } apdu cmd debit
        limitedCredit := by
  refine .leaves (a := ()) ?_ rfl
  refine .bind fun _ _ => .bind fun _ _ => .bind fun _ _ => .bind fun _ _ => .bind fun _ _ => ?_
  refine .bind fun _ _ => .bind fun _ _ => .bind fun _ _ => .bind fun _ _ => .bind fun _ _ => ?_
  exact .record

end

/-- The states that differ from the given one in the read counter of a file alone. -/
def countRead (i : ℕ) (e : DfcEmulator) (counter : UInt32) : DfcEmulator :=
  e.mapCredential fun c => c.modifyFile i fun file =>
    file.withData { file.state.data with sdmReadCounter := counter }

section
variable {i : ℕ} {counter : UInt32}

theorem countRead_files (j : ℕ) :
    (countRead i e counter).credential.files j = if j = i then (e.credential.files j).withData
      { (e.credential.files j).state.data with sdmReadCounter := counter }
    else e.credential.files j := by
  unfold countRead DfcEmulator.mapCredential
  rw [modifyFile_files]
  by_cases hj : j = i
  · rw [if_pos hj, if_pos hj, hj]
  · rw [if_neg hj, if_neg hj]

theorem countRead_file_self (i : ℕ) (e : DfcEmulator) (counter : UInt32) :
    (countRead i e counter).credential.files i = (e.credential.files i).withData
      { (e.credential.files i).state.data with sdmReadCounter := counter } := by
  rw [countRead_files, if_pos rfl]

theorem countRead_view {β : Type} {f : DfcFile → β}
    (h : ∀ file counter', f (file.withData
      { file.state.data with sdmReadCounter := counter' }) = f file) (j : ℕ) :
    f ((countRead i e counter).credential.files j) = f (e.credential.files j) := by
  rw [countRead_files]
  split_ifs
  · exact h _ _
  · rfl

theorem countRead_twice (counter' : UInt32) :
    countRead i (countRead i e counter) counter' = countRead i e counter' := by
  unfold countRead DfcEmulator.mapCredential DfcCredential.modifyFile
  simp only [Function.update_self, Function.update_idem, DfcFile.withData]

theorem countRead_findFile (fileNo : UInt8) :
    dfcCredentialFindFileInApp (countRead i e counter).credential
      (countRead i e counter).selectedAppIndex fileNo =
      dfcCredentialFindFileInApp e.credential e.selectedAppIndex fileNo := by
  unfold dfcCredentialFindFileInApp
  simp only [countRead_view (f := (·.appIndex)) fun _ _ => rfl,
    countRead_view (f := (·.number)) fun _ _ => rfl]
  rfl

theorem countRead_transactionMacState :
    transactionMacState (countRead i e counter) = transactionMacState e := by
  unfold transactionMacState transactionMacFile dfcCredentialFindTransactionMacFile
  simp only [countRead_view (f := (·.appIndex)) fun _ _ => rfl,
    countRead_view (f := (·.type)) fun _ _ => rfl,
    countRead_view (f := (·.state.transactionMac)) fun _ _ => rfl]
  rfl

/-- The rendered octets do not depend on what the counter was. -/
theorem readDataOctets_countRead {env : CommandEnv} {offset length : ℕ} {cache : Mem}
    {rendered : UInt32} (hsdm : dfcFileSdmFlagIsSet (e.credential.files i) .enabled = true)
    (hrender : env.sdm = .rendered cache rendered) :
    readDataOctets (countRead i e counter) env i offset length =
      .ok (countRead i e rendered, cache.read offset length) := by
  have hsdm' : dfcFileSdmFlagIsSet ((countRead i e counter).credential.files i) .enabled = true :=
    (countRead_view (f := (dfcFileSdmFlagIsSet · .enabled)) (fun _ _ => rfl) i).trans hsdm
  unfold readDataOctets
  dsimp only
  rw [if_pos hsdm', hrender]
  exact congrArg (fun e' => Except.ok (e', cache.read offset length)) (countRead_twice rendered)

theorem readDataOctets_rendered {env : CommandEnv} {offset length : ℕ} {cache : Mem}
    {rendered : UInt32} (hsdm : dfcFileSdmFlagIsSet (e.credential.files i) .enabled = true)
    (hrender : env.sdm = .rendered cache rendered) :
    readDataOctets e env i offset length =
      .ok (countRead i e rendered, cache.read offset length) := by
  unfold readDataOctets
  dsimp only
  rw [if_pos hsdm, hrender]
  rfl

end

section
variable (aes)

/-- Whether reading the file renders it. -/
def Renders (e : DfcEmulator) (env : CommandEnv) (i : ℕ) : Prop :=
  dfcFileSdmFlagIsSet (e.credential.files i) .enabled = true ∧
    ∃ cache counter, env.sdm = .rendered cache counter

theorem readDataOctets_unrendered {i offset length : ℕ} {octets : List UInt8}
    (h : readDataOctets e env i offset length = .ok (e', octets)) (hrenders : ¬Renders e env i) :
    e' = e := by
  obtain hsame | ⟨hsdm, -⟩ := (readDataOctets_ok h).2
  · exact hsame
  · unfold readDataOctets at h
    dsimp only at h
    rw [if_pos hsdm] at h
    cases hrender : env.sdm with
    | rendered cache counter => exact absurd ⟨hsdm, cache, counter, hrender⟩ hrenders
    | limitReached =>
      rw [hrender] at h
      cases h
    | randomExhausted retryable =>
      rw [hrender] at h
      cases h
    | failed =>
      rw [hrender] at h
      cases h

/-- A file that is not rendered is read as it stands. -/
theorem readData_reruns
    (hrenders : ∀ i, commandFile e apdu = some i → ¬Renders e env i) :
    Reruns (fun _ : Unit => e)
      (dfcEmulatorCommandReadData aes e { env with cipherFails := true } apdu)
      (dfcEmulatorCommandReadData aes e { env with cipherFails := false } apdu)
      fun e' => dfcEmulatorCommandReadData aes e' { env with cipherFails := false } apdu := by
  refine .leaves (a := ()) ?_ rfl
  refine .bind fun _ _ => .bind fun _ _ => .bind fun _ _ => .bind fun i hi => .bind fun _ _ => ?_
  refine .bind fun _ _ => .bind fun _ _ => .bind fun _ _ => .bind fun read hread => ?_
  obtain ⟨e₁, octets⟩ := read
  obtain rfl := readDataOctets_unrendered hread (hrenders i (orFail_eq_ok.1 hi))
  exact .ite (fun _ => .same _) fun _ => .record

/-- A file that is rendered is left with the counter of the rendering. -/
theorem readData_reruns_counted {i : ℕ}
    (hfind : dfcCredentialFindFileInApp e.credential e.selectedAppIndex (apdu.getD 1 0) = some i)
    (hsdm : dfcFileSdmFlagIsSet (e.credential.files i) .enabled = true) (env : CommandEnv)
    {cache : Mem} {counter : UInt32} (hrender : env.sdm = .rendered cache counter) :
    Reruns (fun _ : Unit => countRead i e counter)
      (dfcEmulatorCommandReadData aes e { env with cipherFails := true } apdu)
      (dfcEmulatorCommandReadData aes e { env with cipherFails := false } apdu)
      fun e' => dfcEmulatorCommandReadData aes e' { env with cipherFails := false } apdu := by
  have hfile := countRead_file_self i e counter
  have hmac : dfcEmulatorCommandTransactionMacCanAddData (countRead i e counter) =
      dfcEmulatorCommandTransactionMacCanAddData e := by
    unfold dfcEmulatorCommandTransactionMacCanAddData
    rw [countRead_transactionMacState]
  unfold dfcEmulatorCommandReadData
  refine .refuseIf (fun _ h => h) fun _ => .refuseIf (fun _ h => h) fun _ => ?_
  refine .refuseIf (fun _ h => h) fun _ => .orFail (fun _ => countRead_findFile _) fun j hj => ?_
  obtain rfl : j = i := Option.some.inj (hj.symm.trans hfind)
  dsimp only
  refine .refuseIf (fun _ h => by rw [hfile] at h; exact h) fun _ => ?_
  refine .refuseIf (fun _ h => by rw [hfile] at h; exact h) fun _ => ?_
  refine .refuseIf (fun _ h => by rw [hfile] at h; exact h) fun _ => ?_
  refine .refuseIf (fun _ h => by rw [hfile, hmac] at h; exact h) fun _ => ?_
  refine .bind (fun read _ hread => ?_) fun read hread => ?_
  · obtain rfl := Except.ok.inj ((readDataOctets_rendered hsdm hrender).symm.trans hread)
    rw [hfile]
    exact readDataOctets_countRead hsdm hrender
  · obtain rfl := Except.ok.inj ((readDataOctets_rendered hsdm hrender).symm.trans hread)
    refine .leaves (a := ()) (.ite (fun _ => .same _) fun _ => .record) ?_
    dsimp only
    rw [hfile]
    rfl

/-- Recording an operation touches nothing but the accumulator. -/
theorem transactionMacAdd_ensures {P : DfcEmulator → Prop} {e₁ refused : DfcEmulator}
    {cipherFails : Bool}
    {add : DfcTransactionMacAccumulator → Option DfcTransactionMacAccumulator}
    (hrefused : P refused) (h : ∀ a, P { e₁ with transactionMac := a }) :
    Ensures P (fun r => P r.emulator)
      ((transactionMacAdd aes e₁ cipherFails add).orRefuse refused) := by
  unfold transactionMacAdd
  cases transactionMacState e₁ with
  | none => exact h e₁.transactionMac
  | some tmac =>
    dsimp only
    cases transactionMacCandidate aes e₁ tmac with
    | none => exact hrefused
    | some candidate =>
      cases cipherFails with
      | true => exact hrefused
      | false =>
        dsimp only
        cases add candidate with
        | none => exact hrefused
        | some a => exact h a

/-- A read that is rendered with a counter leaves that counter, however it ends. -/
theorem readData_counter {i : ℕ} (hfind : commandFile e apdu = some i)
    (hsdm : dfcFileSdmFlagIsSet (e.credential.files i) .enabled = true) (env : CommandEnv)
    {cache : Mem} {counter : UInt32} (hrender : env.sdm = .rendered cache counter)
    (hemission : env.emission = none)
    (hcounter : (e.credential.files i).state.data.sdmReadCounter = counter) :
    Ensures (fun done => (done.1.credential.files i).state.data.sdmReadCounter = counter)
      (fun r => (r.emulator.credential.files i).state.data.sdmReadCounter = counter)
      (dfcEmulatorCommandReadData aes e env apdu) := by
  have hcounted : ((countRead i e counter).credential.files i).state.data.sdmReadCounter =
      counter := by
    rw [countRead_file_self]
    rfl
  unfold dfcEmulatorCommandReadData
  refine .bind (.refuseIf fun _ => hcounter) fun _ _ => ?_
  refine .bind (.refuseIf fun _ => hcounter) fun _ _ => ?_
  refine .bind (.refuseIf fun _ => hcounter) fun _ _ => ?_
  refine .bind (.orFail fun _ => hcounter) fun j hj => ?_
  obtain rfl : j = i := Option.some.inj (hj.symm.trans hfind)
  refine .bind (.refuseIf fun _ => hcounter) fun _ _ => ?_
  refine .bind (.refuseIf fun _ => hcounter) fun _ _ => ?_
  refine .bind (.refuseIf fun _ => hcounter) fun _ _ => ?_
  refine .bind (.refuseIf fun _ => hcounter) fun _ _ => ?_
  rw [readDataOctets_rendered hsdm hrender]
  have hemit {e₁ : DfcEmulator} (h : (e₁.credential.files j).state.data.sdmReadCounter = counter)
      (octets : List UInt8) :
      Ensures (fun done => (done.1.credential.files j).state.data.sdmReadCounter = counter)
        (fun r => (r.emulator.credential.files j).state.data.sdmReadCounter = counter)
        (emitPayload e₁ env octets) := by
    unfold emitPayload
    rw [hemission]
    exact h
  refine .ite (fun _ => hemit hcounted _) fun _ => ?_
  refine .bind (transactionMacAdd_ensures aes (P := fun e' =>
    (e'.credential.files j).state.data.sdmReadCounter = counter) hcounted fun _ => hcounted) ?_
  exact fun e₂ h => hemit h _

end

/-- The states a transfer command leaves for its retry. -/
inductive LeftBy (e : DfcEmulator) (env : CommandEnv) (apdu : List UInt8) : DfcEmulator → Prop where
  | same : LeftBy e env apdu e
  | journal (s : { s // JournalKept e.snapshot s }) :
      dfcFileCommandBase (apdu.getD 0 0) ≠ dfcCmdReadData → LeftBy e env apdu (withJournal e s)
  | counted {i : ℕ} {cache : Mem} {counter : UInt32} :
      dfcFileCommandBase (apdu.getD 0 0) = dfcCmdReadData → commandFile e apdu = some i →
      dfcFileSdmFlagIsSet (e.credential.files i) .enabled = true →
      env.sdm = .rendered cache counter → LeftBy e env apdu (countRead i e counter)

/-- Under a failing cipher a command ends as under a working one, or refuses for a retry and
then ends so. -/
def DispatchReruns (aes : List UInt8 → List UInt8 → List UInt8) (e : DfcEmulator)
    (env : CommandEnv) (apdu : List UInt8) : Prop :=
  dispatchFileCommand aes e { env with cipherFails := true } apdu =
      dispatchFileCommand aes e { env with cipherFails := false } apdu ∨
    ∃ e', LeftBy e env apdu e' ∧
      dispatchFileCommand aes e { env with cipherFails := true } apdu =
        some (.error (cipherRefusal e')) ∧
      dispatchFileCommand aes e' { env with cipherFails := false } apdu =
        dispatchFileCommand aes e { env with cipherFails := false } apdu

theorem Reruns.dispatch {ι : Type} {left : ι → DfcEmulator}
    (handler : DfcEmulator → CommandEnv → Handled)
    (hdispatch : ∀ e env, dispatchFileCommand aes e env apdu = some (handler e env))
    (hleft : ∀ a, LeftBy e env apdu (left a))
    (h : Reruns left (handler e { env with cipherFails := true })
      (handler e { env with cipherFails := false })
      fun e' => handler e' { env with cipherFails := false }) :
    DispatchReruns aes e env apdu := by
  unfold DispatchReruns
  simp only [hdispatch]
  obtain hsame | ⟨a, hfailing, hagain⟩ := h
  · exact .inl (congrArg some hsame)
  · exact .inr ⟨left a, hleft a, congrArg some hfailing, congrArg some hagain⟩

theorem dispatch_readData (hne : apdu ≠ [])
    (hcmd : dfcFileCommandBase (apdu.getD 0 0) = dfcCmdReadData) (e : DfcEmulator)
    (env : CommandEnv) :
    dispatchFileCommand aes e env apdu = some (dfcEmulatorCommandReadData aes e env apdu) := by
  unfold dispatchFileCommand
  dsimp only
  rw [if_neg hne, if_pos hcmd]

theorem readData_dispatchReruns (hne : apdu ≠ [])
    (hcmd : dfcFileCommandBase (apdu.getD 0 0) = dfcCmdReadData) :
    DispatchReruns aes e env apdu := by
  by_cases hrenders : ∀ i, commandFile e apdu = some i → ¬Renders e env i
  · exact Reruns.dispatch _ (dispatch_readData hne hcmd) (fun _ => .same)
      (readData_reruns aes hrenders)
  · push Not at hrenders
    obtain ⟨i, hfind, hsdm, cache, counter, hrender⟩ := hrenders
    exact Reruns.dispatch _ (dispatch_readData hne hcmd) (fun _ => .counted hcmd hfind hsdm hrender)
      (readData_reruns_counted aes hfind hsdm env hrender)

theorem dispatch_reruns (h : JournalSettled e)
    (hcmd : isTransferCommand (dfcFileCommandBase (apdu.getD 0 0)) = true) :
    DispatchReruns aes e env apdu := by
  have hne : apdu ≠ [] := by
    rintro rfl
    cases hcmd
  by_cases hread : dfcFileCommandBase (apdu.getD 0 0) = dfcCmdReadData
  · exact readData_dispatchReruns hne hread
  unfold isTransferCommand at hcmd
  simp only [Bool.or_eq_true, beq_iff_eq, or_assoc] at hcmd
  obtain hcmd | hcmd | hcmd | hcmd | hcmd | hcmd | hcmd | hcmd | hcmd | hcmd := hcmd
  · exact absurd hcmd hread
  · refine Reruns.dispatch (fun e env => dfcEmulatorCommandWriteData aes e env apdu)
      (fun e env => ?_)
      (fun s => .journal s hread) (writeData_reruns aes h env apdu)
    simp only [dispatchFileCommand, if_neg hne, hcmd]
    rfl
  · refine Reruns.dispatch (fun e env => handleReadRecords aes e env apdu) (fun e env => ?_)
      (fun _ => .same) (readRecords_reruns aes e env apdu)
    simp only [dispatchFileCommand, if_neg hne, hcmd]
    rfl
  · refine Reruns.dispatch (fun e env => dfcEmulatorCommandWriteRecord aes e env apdu)
      (fun e env => ?_)
      (fun s => .journal s hread) (writeRecord_reruns aes h env apdu)
    simp only [dispatchFileCommand, if_neg hne, hcmd]
    rfl
  · refine Reruns.dispatch (fun e env => dfcEmulatorCommandUpdateRecord aes e env apdu)
      (fun e env => ?_)
      (fun s => .journal s hread) (updateRecord_reruns aes h env apdu)
    simp only [dispatchFileCommand, if_neg hne, hcmd]
    rfl
  · refine Reruns.dispatch (fun e env => dfcEmulatorCommandClearRecordFile aes e env apdu)
      (fun e env => ?_)
      (fun s => .journal s hread) (clearRecordFile_reruns aes h env apdu)
    simp only [dispatchFileCommand, if_neg hne, hcmd]
    rfl
  · refine Reruns.dispatch (fun e env => dfcEmulatorCommandGetValue aes e env apdu)
      (fun e env => ?_)
      (fun _ => .same) (getValue_reruns aes e env apdu)
    simp only [dispatchFileCommand, if_neg hne, hcmd]
    rfl
  · refine Reruns.dispatch (fun e env => dfcEmulatorCommandValueDelta aes e env apdu dfcCmdCredit
      false false) (fun e env => ?_)
      (fun _ => .same) (valueDelta_reruns aes e env apdu _ _ _)
    simp only [dispatchFileCommand, if_neg hne, hcmd]
    rfl
  · refine Reruns.dispatch (fun e env => dfcEmulatorCommandValueDelta aes e env apdu
      dfcCmdLimitedCredit false true) (fun e env => ?_)
      (fun _ => .same) (valueDelta_reruns aes e env apdu _ _ _)
    simp only [dispatchFileCommand, if_neg hne, hcmd]
    rfl
  · refine Reruns.dispatch (fun e env => dfcEmulatorCommandValueDelta aes e env apdu dfcCmdDebit
      true false) (fun e env => ?_)
      (fun _ => .same) (valueDelta_reruns aes e env apdu _ _ _)
    simp only [dispatchFileCommand, if_neg hne, hcmd]
    rfl

end DfcCore
