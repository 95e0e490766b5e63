import DfcCore.TransactionMacRuns
import DfcCore.Validate

/-!
# The derivation vectors of a transaction

Two functions of the card fill a vector of 16 octets from a label, the transaction counter and the
card's identifier: the one that derives the key of the transaction MAC, and CommitReaderID, which
derives the key the last reader identifier goes out under. The first looks at the length of the
identifier before it copies, the second does not. Here the copies are written down one by one, so
that it can be said where they land.
-/
namespace DfcCore
open Der

/-- The room of a derivation vector, `DFC_AES_KEY_LENGTH`. -/
abbrev dfcTransactionVectorLength : ℕ := 16
abbrev dfcTransactionVectorCounterOffset : ℕ := 5
abbrev dfcTransactionVectorUidOffset : ℕ := 9

/-- The copies into a vector, in the order of the source: where each starts and what it copies. -/
def transactionVectorWrites (label : UInt8) (uid : List UInt8) (counter : UInt32) :
    List (ℕ × List UInt8) :=
  [(0, [label]), (1, [0x00]), (2, [0x01]), (3, [0x00]), (4, [0x80]),
    (dfcTransactionVectorCounterOffset, leOctets 4 counter.toNat),
    (dfcTransactionVectorUidOffset, uid)]

/-- A vector after its copies. It starts as zeros. -/
def vectorAfter (writes : List (ℕ × List UInt8)) : Mem :=
  writes.foldl (fun m write => m.write write.1 write.2) Mem.zero

/-- No copy passes the end of the vector. -/
def WithinVector (writes : List (ℕ × List UInt8)) : Prop :=
  ∀ write ∈ writes, write.1 + write.2.length ≤ dfcTransactionVectorLength

theorem WithinVector.nil : WithinVector [] := fun _ h => absurd h List.not_mem_nil

theorem WithinVector.append {first second : List (ℕ × List UInt8)} (h : WithinVector first)
    (h' : WithinVector second) : WithinVector (first ++ second) := by
  intro write hwrite
  obtain hwrite | hwrite := List.mem_append.1 hwrite
  · exact h write hwrite
  · exact h' write hwrite

theorem vectorAfter_transactionVectorWrites (label : UInt8) (uid : List UInt8)
    (counter : UInt32) :
    vectorAfter (transactionVectorWrites label uid counter) =
      Mem.zero.write 0 ([label, 0x00, 0x01, 0x00, 0x80] ++ leOctets 4 counter.toNat ++ uid) := by
  have hlen : (leOctets 4 counter.toNat).length = 4 := length_leOctets 4 _
  unfold vectorAfter transactionVectorWrites
  simp only [List.foldl_cons, List.foldl_nil]
  rw [← Mem.write_append, ← Mem.write_append, List.length_append, hlen]
  have hhead : [label, 0x00, 0x01, 0x00, 0x80] = [label] ++ [0x00] ++ [0x01] ++ [0x00] ++ [0x80] :=
    rfl
  rw [hhead, ← Mem.write_append, ← Mem.write_append, ← Mem.write_append, ← Mem.write_append]
  rfl

/-- The vector the model derives keys from is what the copies leave in the 16 octets. -/
theorem vectorAfter_read (label : UInt8) (uid : List UInt8) (counter : UInt32) :
    (vectorAfter (transactionVectorWrites label uid counter)).read 0 dfcTransactionVectorLength =
      (transactionVector label uid counter).take dfcTransactionVectorLength := by
  rw [vectorAfter_transactionVectorWrites]
  unfold transactionVector
  dsimp only
  generalize [label, 0x00, 0x01, 0x00, 0x80] ++ leOctets 4 counter.toNat ++ uid = head
  apply List.ext_getElem
  · simp only [Mem.length_read, List.length_take, List.length_append, List.length_replicate,
      dfcTransactionVectorLength]
    omega
  intro i h₁ h₂
  have hi : i < 16 := by simpa using h₁
  simp only [Mem.read, Mem.write, List.getElem_map, List.getElem_range, List.getElem_take,
    List.getElem_append, List.getElem_replicate]
  by_cases hlt : i < head.length
  · simp [hlt]
  · simp [hlt]

theorem withinVector_transactionVectorWrites {label : UInt8} {uid : List UInt8}
    {counter : UInt32} :
    WithinVector (transactionVectorWrites label uid counter) ↔ uid.length ≤ 7 := by
  have hlen : (leOctets 4 counter.toNat).length = 4 := length_leOctets 4 _
  simp only [WithinVector, transactionVectorWrites, List.forall_mem_cons, List.length_singleton,
    List.not_mem_nil, false_imp_iff, implies_true, and_true, hlen, dfcTransactionVectorLength,
    dfcTransactionVectorCounterOffset, dfcTransactionVectorUidOffset]
  omega

/-- `dfc_transaction_mac_derive_session_key`. -/
def deriveSessionKeyWrites (uid : List UInt8) (counter : UInt32) : List (ℕ × List UInt8) :=
  if counter = 0 ∨ (uid.length ≠ dfcDesfireUidShortLen ∧ uid.length ≠ dfcDesfireUidLen) then []
  else transactionVectorWrites 0x5A uid counter

/-- `transaction_mac_candidate`. -/
def transactionMacCandidateWrites (e : DfcEmulator) (tmac : DfcTransactionMacFileState) :
    List (ℕ × List UInt8) :=
  let c := e.credential
  if tmac.counter = uint32Max ∨ (c.uidLen ≠ dfcDesfireUidShortLen ∧ c.uidLen ≠ dfcDesfireUidLen)
  then []
  else if e.transactionMac.initialized then []
  else deriveSessionKeyWrites c.uidOctets (tmac.counter + 1)

/-- `dfc_emulator_command_transaction_mac_add_*`. -/
def transactionMacAddWrites (e : DfcEmulator) : List (ℕ × List UInt8) :=
  match transactionMacState e with
  | none => []
  | some tmac => transactionMacCandidateWrites e tmac

/-- CommitReaderID up to the point where it fills its vector: the reader identifier and the
transaction MAC file. -/
def commitReaderIdChecks (e : DfcEmulator) (env : CommandEnv) (apdu : List UInt8) :
    Except Refusal (List UInt8 × ℕ) := do
  refuseIf (e.selectedApplication ≠ .app) (e.refuse dfcStatusPermissionDenied)
  let readerId ← unwrapReaderId e env apdu
  let i ← orFail (e.refuse dfcStatusFileNotFound) (transactionMacFile e)
  let file := e.credential.files i
  refuseIf (readerId.length ≠ dfcTransactionReaderIdLength) (e.refuse dfcStatusLengthError)
  refuseIf (dfcAccessNibble file.accessRights 4 = dfcAccessDeny ∨
    e.transactionReaderIdPending = true) (e.refuse dfcStatusPermissionDenied)
  refuseIf (dfcEmulatorFileAccessAllowed e file .readWrite = false)
    (e.refuse dfcStatusAuthenticationErr)
  refuseIf (file.state.transactionMac.counter = uint32Max) (e.refuse dfcStatusIntegrityError)
  return (readerId, i)

section
variable (aes : List UInt8 → List UInt8 → List UInt8)

/-- CommitReaderID from the point where it fills its vector. -/
def commitReaderIdRest (e : DfcEmulator) (env : CommandEnv) (readerId : List UInt8) (i : ℕ) :
    Handled := do
  let tmac := (e.credential.files i).state.transactionMac
  let authenticated := dfcEmulatorAuthenticated e
  refuseIf (authenticated = true ∧ env.encryptFails = true)
    { emulator := e, status := dfcStatusIntegrityError, retryable := true }
  let encrypted := if authenticated then some (encryptedPreviousReaderId aes e tmac) else none
  let e ← (transactionMacAdd aes e env.cipherFails fun a =>
    dfcTransactionMacAccumulatorAddReaderId aes a readerId encrypted).orRefuse e
  return ({ e with
    transactionPendingReaderId := readerId
    transactionReaderIdPending := true
    transactionReaderIdPersist := authenticated }, encrypted.getD [])

theorem commitReaderId_eq (e : DfcEmulator) (env : CommandEnv) (apdu : List UInt8) :
    dfcEmulatorCommandCommitReaderId aes e env apdu =
      commitReaderIdChecks e env apdu >>= fun s => commitReaderIdRest aes e env s.1 s.2 := by
  unfold dfcEmulatorCommandCommitReaderId commitReaderIdChecks commitReaderIdRest
  simp only [bind_assoc, pure_bind]

end

/-- The commands that record an operation. -/
def recordingCommands : List UInt8 :=
  [dfcCmdReadData, dfcCmdWriteData, dfcCmdReadRecords, dfcCmdWriteRecord, dfcCmdUpdateRecord,
    dfcCmdClearRecordFile, dfcCmdGetValue, dfcCmdCredit, dfcCmdLimitedCredit, dfcCmdDebit]

/-- The copies of a command into derivation vectors. CommitTransaction ends the code that is being
computed and fills none. -/
def commandVectorWrites (e : DfcEmulator) (env : CommandEnv) (apdu : List UInt8) :
    List (ℕ × List UInt8) :=
  let command := dfcFileCommandBase (apdu.getD 0 0)
  if command = dfcCmdCommitReaderId then
    match commitReaderIdChecks e env apdu with
    | .ok (_, i) =>
      let tmac := (e.credential.files i).state.transactionMac
      transactionVectorWrites 0xA5 e.credential.uidOctets (tmac.counter + 1) ++
        if dfcEmulatorAuthenticated e = true ∧ env.encryptFails = true then []
        else transactionMacAddWrites e
    | .error _ => []
  else if command ∈ recordingCommands then transactionMacAddWrites e
  else []

theorem length_uidOctets (c : DfcCredential) : c.uidOctets.length = c.uidLen :=
  Mem.length_read _ _ _

/-- The function that looks at the length first stays within its vector. -/
theorem withinVector_transactionMacAddWrites (e : DfcEmulator) :
    WithinVector (transactionMacAddWrites e) := by
  unfold transactionMacAddWrites
  cases transactionMacState e with
  | none => exact .nil
  | some tmac =>
    dsimp only
    unfold transactionMacCandidateWrites deriveSessionKeyWrites
    dsimp only
    split_ifs with hterminal _ hderive
    · exact .nil
    · exact .nil
    · exact .nil
    · rw [withinVector_transactionVectorWrites, length_uidOctets]
      have hlens : dfcDesfireUidShortLen = 4 ∧ dfcDesfireUidLen = 7 := ⟨rfl, rfl⟩
      omega

/-- CommitReaderID stays within its vector where the identifier has at most seven octets, any
other command whatever the identifier. -/
theorem withinVector_commandVectorWrites {e : DfcEmulator} {apdu : List UInt8} (env : CommandEnv)
    (huid : dfcFileCommandBase (apdu.getD 0 0) = dfcCmdCommitReaderId →
      e.credential.uidLen ≤ 7) : WithinVector (commandVectorWrites e env apdu) := by
  have hadd := withinVector_transactionMacAddWrites e
  unfold commandVectorWrites
  dsimp only
  by_cases hcommand : dfcFileCommandBase (apdu.getD 0 0) = dfcCmdCommitReaderId
  · rw [if_pos hcommand]
    cases commitReaderIdChecks e env apdu with
    | error r => exact .nil
    | ok s =>
      refine .append ?_ ?_
      · rw [withinVector_transactionVectorWrites, length_uidOctets]
        exact huid hcommand
      · split_ifs
        · exact .nil
        · exact hadd
  · rw [if_neg hcommand]
    split_ifs
    · exact hadd
    · exact .nil

/-- The identifier of the card is the same in both states. -/
structure SameUid (e e' : DfcEmulator) : Prop where
  uid : e'.credential.uid = e.credential.uid
  uidLen : e'.credential.uidLen = e.credential.uidLen

variable {aes : List UInt8 → List UInt8 → List UInt8} {e e' : DfcEmulator} {env : CommandEnv}
  {apdu payload : List UInt8}

theorem SameUid.refl (e : DfcEmulator) : SameUid e e := ⟨rfl, rfl⟩

theorem SameUid.trans {a b c : DfcEmulator} (h : SameUid a b) (h' : SameUid b c) : SameUid a c :=
  ⟨h'.uid.trans h.uid, h'.uidLen.trans h.uidLen⟩

theorem SameUid.ofUnrelated (h : Unrelated e e') : SameUid e e' := ⟨h.uid, h.uidLen⟩

theorem SameUid.ofMacFile (h : SameMacFile e e') : SameUid e e' := ⟨h.uid, h.uidLen⟩

theorem SameUid.abort (e : DfcEmulator) : SameUid e (dfcEmulatorAbortTransaction e).1 :=
  ⟨(abortTransaction_uid e).1, (abortTransaction_uid e).2⟩

theorem SameUid.publish (e : DfcEmulator) : SameUid e (dfcEmulatorPublishTransaction e) := by
  constructor
  · rw [publishTransaction_credential]
    rfl
  · rw [publishTransaction_credential]
    rfl

theorem SameUid.accepted (hacc : AcceptedAs aes e env apdu e' payload) : SameUid e e' := by
  cases hacc with
  | recorded _ _ _ hrec =>
    obtain ⟨op, -, -, hsteps⟩ := hrec
    split_ifs at hsteps
    · exact .ofUnrelated hsteps
    · obtain ⟨e₁, e₂, hbefore, htaken, hafter⟩ := hsteps
      exact (SameUid.ofUnrelated hbefore).trans
        ((SameUid.ofMacFile (.ofTaken htaken)).trans (.ofUnrelated hafter))
  | valueDelta _ _ _ hok =>
    obtain ⟨i, amount, next, recorded, -, -, -, -, -, -, htaken, rfl, rfl⟩ := valueDelta_ok hok
    exact (SameUid.ofMacFile (.ofTaken htaken)).trans ⟨rfl, rfl⟩
  | commit _ _ hok =>
    obtain ⟨-, ⟨-, rfl, -⟩ | ⟨i, mac, counter, -, -, rfl, -⟩⟩ := commitTransaction_ok hok
    · exact .publish e
    · exact (SameUid.publish e).trans ⟨rfl, rfl⟩
  | aborted _ _ he' =>
    rw [he']
    exact .abort e
  | macFileCreated _ _ hok =>
    obtain ⟨-, -, rfl | ⟨c, i, hcreate, rfl⟩⟩ := createTransactionMacFile_ok hok
    · have hframe := fileFrame_create (dfcEmulatorAbortTransaction e).1.credential
        (dfcEmulatorAbortTransaction e).1.selectedAppIndex (apdu.getD 1 0)
      exact (SameUid.abort e).trans ⟨hframe.uid, hframe.uidLen⟩
    · have hframe := fileFrame_create (dfcEmulatorAbortTransaction e).1.credential
        (dfcEmulatorAbortTransaction e).1.selectedAppIndex (apdu.getD 1 0)
      rw [hcreate] at hframe
      have hresized := hframe.trans (fileFrame_resize c i dfcTransactionMacFileLength)
      exact (SameUid.abort e).trans ⟨hresized.uid, hresized.uidLen⟩
  | @fileDeleted i _ hfind _ he' =>
    have hbefore : SameUid e (beforeDelete e i) := by
      unfold beforeDelete
      split_ifs
      · exact .abort e
      · exact .ofUnrelated (.snapshotDeleteFile e i)
    have hframe := fileFrame_delete (beforeDelete e i).credential
      (beforeDelete e i).selectedAppIndex (apdu.getD 1 0)
    have hdeleted : SameUid (beforeDelete e i) ((beforeDelete e i).mapCredential fun c =>
        (dfcCredentialDeleteFile c (beforeDelete e i).selectedAppIndex (apdu.getD 1 0)).1) :=
      ⟨hframe.uid, hframe.uidLen⟩
    rw [he']
    exact (hbefore.trans hdeleted).trans (.ofUnrelated (.notePersistentChange _))
  | fileCreated _ _ htype hmay => exact .ofMacFile (.mayCreate htype hmay)

theorem SameUid.left (hleft : Left aes e e') : SameUid e e' := by
  induction hleft with
  | retry hretry => exact .ofUnrelated (.leftForRetry hretry)
  | opened hopen => exact .ofUnrelated (.openJournal hopen)
  | taken hread htaken =>
    exact (SameUid.ofUnrelated (.readDataFrom hread)).trans (.ofMacFile (.ofTaken htaken))
  | chain _ ih => exact ⟨ih.uid, ih.uidLen⟩
  | @reset e₁ _ ih =>
    have habort := SameUid.abort e₁
    exact ih.trans ⟨habort.uid, habort.uidLen⟩
  | cleared => exact ⟨rfl, rfl⟩
  | aborted => exact .abort e
  | created htype hmay => exact .ofMacFile (.mayCreate htype hmay)

theorem SameUid.refused (h : RefusedAs aes e e') : SameUid e e' := by
  cases h with
  | kept hkept => exact .ofUnrelated hkept
  | ended hleft hended => exact ((SameUid.left hleft).trans (.abort _)).trans (.ofUnrelated hended)

theorem SameUid.step {s s' : DfcEmulator × Notes} {event : CardEvent}
    (hstep : CardStep aes event s s') : SameUid s.1 s'.1 := by
  cases hstep with
  | command hcommand =>
    obtain ⟨payload, rfl, hacc⟩ | ⟨status, rfl, hr⟩ := handleCommand_outcome hcommand
    · exact .accepted hacc
    · exact .refused hr
  | unrelated hunrelated => exact .ofUnrelated hunrelated
  | abort => exact .abort _
  | @select e _ _ _ =>
    have habort := SameUid.abort e
    exact ⟨habort.uid, habort.uidLen⟩

section
variable (aes : List UInt8 → List UInt8 → List UInt8)

/-- One step of the card. Between transactions anything may change but the identifier, which no
command writes: applications and files come and go, keys and settings change. -/
inductive VectorStep : DfcEmulator × Notes → DfcEmulator × Notes → Prop where
  | event {event : CardEvent} {s s' : DfcEmulator × Notes} (h : CardStep aes event s s') :
      VectorStep s s'
  | between {e e' : DfcEmulator} {notes : Notes} (hidle : e.transactionMac = {})
      (hidle' : e'.transactionMac = {}) (huid : SameUid e e') :
      VectorStep (e, notes) (e', notes.close)

def VectorRun : DfcEmulator × Notes → DfcEmulator × Notes → Prop :=
  Relation.ReflTransGen (VectorStep aes)

end

theorem VectorRun.sameUid {s s' : DfcEmulator × Notes} (hrun : VectorRun aes s s') :
    SameUid s.1 s'.1 := by
  induction hrun with
  | refl => exact .refl _
  | tail _ hstep ih =>
    refine ih.trans ?_
    cases hstep with
    | event h => exact .step h
    | between _ _ huid => exact huid

theorem MacInv.vectorRun {s s' : DfcEmulator × Notes} (h : MacInv aes s.1 s.2)
    (hrun : VectorRun aes s s') : MacInv aes s'.1 s'.2 := by
  induction hrun with
  | refl => exact h
  | tail _ hstep ih =>
    cases hstep with
    | event h => exact ih.step h
    | between _ hidle' _ => exact .cleared hidle' rfl

/-- A command of the transaction on a card whose application has a transaction MAC file. -/
def NeedsVector (e : DfcEmulator) (apdu : List UInt8) : Prop :=
  (transactionMacState e).isSome = true ∧
    (dfcFileCommandBase (apdu.getD 0 0) = dfcCmdCommitReaderId ∨
      dfcFileCommandBase (apdu.getD 0 0) ∈ recordingCommands)

section
variable (aes : List UInt8 → List UInt8 → List UInt8)

/-- The keys of a transaction come from the counter the commit will report: the one a new or a
running code is under, and the one the last reader identifier goes out under. -/
structure OneCounter (e : DfcEmulator) (tmac : DfcTransactionMacFileState) : Prop where
  recording : ∀ a, transactionMacCandidate aes e tmac = some a →
    dfcTransactionMacDeriveSessionKey aes tmac.keyOctets e.credential.uidOctets
      (tmac.counter + 1) = some a.sessionKey
  readerId : encryptedPreviousReaderId aes e tmac =
    aes (aesCmac aes tmac.keyOctets
      (transactionVector 0xA5 e.credential.uidOctets (tmac.counter + 1)))
      (tmac.previousReaderId.read 0 16)
  commit : ∀ mac counter, transactionMacCalculate aes e tmac = some (mac, counter) →
    counter = tmac.counter + 1 ∧
      dfcTransactionMacDeriveSessionKey aes tmac.keyOctets e.credential.uidOctets counter =
        some e.transactionMac.sessionKey

/-- What a command does with derivation vectors: no copy passes the end of one, an identifier
that has no room is refused before anything changes, and one counter serves for all keys. -/
structure VectorSafe (e : DfcEmulator) (env : CommandEnv) (apdu : List UInt8) : Prop where
  within : WithinVector (commandVectorWrites e env apdu)
  refused : dfcTransactionVectorLength < dfcTransactionVectorUidOffset + e.credential.uidLen →
    NeedsVector e apdu → ∀ handled, dispatchFileCommand aes e env apdu = some handled →
      ∃ r, handled = .error r ∧ r.emulator = e
  oneCounter : ∀ tmac, transactionMacState e = some tmac → OneCounter aes e tmac

end

theorem MacInv.oneCounter {notes : Notes} {tmac : DfcTransactionMacFileState}
    (h : MacInv aes e notes) (hstate : transactionMacState e = some tmac)
    (huid : e.credential.uidLen ≤ 7) : OneCounter aes e tmac := by
  have hholds := h.holds tmac hstate
  generalize (macOperations notes.current).flatMap TransactionMacOperation.octets = message
    at hholds
  refine ⟨?_, ?_, ?_⟩
  · intro a hcandidate
    unfold transactionMacCandidate at hcandidate
    dsimp only at hcandidate
    split_ifs at hcandidate with hterminal hinit
    · obtain rfl := Option.some.inj hcandidate
      have hne : message ≠ [] := by
        intro hempty
        rw [hholds.empty hempty] at hinit
        cases hinit
      obtain ⟨sessionKey, hkey, htaken⟩ := hholds.taken hne
      rw [hkey, htaken.key]
    · obtain ⟨sessionKey, hkey, rfl⟩ := Option.map_eq_some_iff.1 hcandidate
      exact hkey
  · have hfits : (transactionVector 0xA5 e.credential.uidOctets (tmac.counter + 1)).take 16 =
        transactionVector 0xA5 e.credential.uidOctets (tmac.counter + 1) := by
      apply List.take_of_length_le
      have hlen := length_uidOctets e.credential
      simp only [transactionVector, List.length_append, List.length_replicate, length_leOctets,
        List.length_cons, List.length_nil]
      omega
    unfold encryptedPreviousReaderId
    rw [hfits]
  · intro mac counter hcalculate
    obtain ⟨-, full, hfinal, -, rfl⟩ := transactionMacCalculate_eq_some.1 hcalculate
    have hne : message ≠ [] := by
      intro hempty
      rw [hholds.empty hempty] at hfinal
      cases hfinal
    obtain ⟨sessionKey, hkey, htaken⟩ := hholds.taken hne
    exact ⟨rfl, by rw [hkey, htaken.key]⟩

theorem uidLen_of_modelCheck {c : DfcCredential} (h : modelCheck c = .ok ()) :
    c.uidLen = 4 ∨ c.uidLen = 7 ∨ c.uidLen = 10 := by
  unfold modelCheck modelPiccCheck at h
  simp only [bind_eq_ok, refuseIf_eq_ok, exists_and_left, exists_const, not_not] at h
  obtain ⟨-, -, ⟨huid, -⟩, -⟩ := h
  simpa [dfcUidLengthIsValid, or_assoc] using huid

/-- On a card the validator accepts whose identifier does not have ten octets, every command of
every run keeps to its vectors and to one counter. -/
theorem commandVectors_safe {start : DfcEmulator} {notes : Notes}
    (hvalid : modelCheck start.credential = .ok ()) (huid : start.credential.uidLen ≠ 10)
    (hidle : start.transactionMac = {}) (hrun : VectorRun aes (start, {}) (e, notes))
    (env : CommandEnv) (apdu : List UInt8) : VectorSafe aes e env apdu := by
  have hinv : MacInv aes e notes := (MacInv.cleared hidle rfl).vectorRun hrun
  have hlen : e.credential.uidLen ≤ 7 := by
    have hsame : e.credential.uidLen = start.credential.uidLen := hrun.sameUid.uidLen
    have hvalidLen := uidLen_of_modelCheck hvalid
    omega
  refine ⟨withinVector_commandVectorWrites env fun _ => hlen, ?_, ?_⟩
  · intro hlong
    simp only [dfcTransactionVectorLength, dfcTransactionVectorUidOffset] at hlong
    omega
  · intro tmac hstate
    exact hinv.oneCounter hstate hlen

/-- On a card whose identifier has no room no transaction is ever recorded: no code is under way
in any state of a run, a command that comes to its record is refused for good, and none but
CommitReaderID copies past the end of a vector. -/
theorem recordingCommands_noRoom {start : DfcEmulator} {notes : Notes}
    {tmac : DfcTransactionMacFileState} (hlong : 7 < start.credential.uidLen)
    (hidle : start.transactionMac = {}) (hrun : VectorRun aes (start, {}) (e, notes))
    (hstate : transactionMacState e = some tmac) :
    e.transactionMac = {} ∧
      (∀ cipherFails add, transactionMacAdd aes e cipherFails add = .terminal) ∧
      ∀ env apdu, dfcFileCommandBase (apdu.getD 0 0) ≠ dfcCmdCommitReaderId →
        WithinVector (commandVectorWrites e env apdu) := by
  have hinv : MacInv aes e notes := (MacInv.cleared hidle rfl).vectorRun hrun
  have hsame : e.credential.uidLen = start.credential.uidLen := hrun.sameUid.uidLen
  have hlens : dfcDesfireUidShortLen = 4 ∧ dfcDesfireUidLen = 7 := ⟨rfl, rfl⟩
  have hnone (counter : UInt32) :
      dfcTransactionMacDeriveSessionKey aes tmac.keyOctets e.credential.uidOctets counter =
        none := by
    refine if_pos (.inr ?_)
    rw [length_uidOctets]
    omega
  have hcandidate : transactionMacCandidate aes e tmac = none := if_pos (.inr (by omega))
  refine ⟨?_, fun cipherFails add => ?_, fun env apdu hcommand => ?_⟩
  · -- A recorded operation would be under a session key, and there is none.
    have hholds := hinv.holds tmac hstate
    refine hholds.empty ?_
    by_contra hne
    obtain ⟨sessionKey, hkey, -⟩ := hholds.taken hne
    rw [hnone] at hkey
    cases hkey
  · unfold transactionMacAdd
    rw [hstate]
    dsimp only
    rw [hcandidate]
  · exact withinVector_commandVectorWrites env fun h => absurd h hcommand

/-- A card with one application, which is selected and has nothing but a transaction MAC file.
Every reader may commit its identifier. -/
def readerCard (uidLen : ℕ) : DfcEmulator :=
  { credential :=
      { uidLen
        uid := fun i => if i = 0 then 0x04 else 0x11
        card := { generation := dfcGenerationEv2 }
        piccKeyOffset := dfcKeyPoolNone
        numApps := 1
        apps := fun _ =>
          { keySettings1 := 0x0F, keySettings2 := 0x80, numKeySets := 1
            keyOffset := dfcKeyPoolNone, keySetMetadataOffset := dfcKeySetMetadataPoolNone }
        numFiles := 1
        filePoolUsed := 12
        files := fun _ =>
          { number := 0x0F, type := dfcFileTypeTransactionMac, accessRights := 0xEFEF
            dataLen := 12, contentsComplete := true
            state := { transactionMac := { keyType := 0x02 } } } }
    selectedApplication := .app }

def commitReaderIdCommand : List UInt8 := dfcCmdCommitReaderId :: List.replicate 16 0x55

/-- The identifier of seven octets: after a reader has committed its own, GetValue is safe. -/
theorem commandVectors_safe_sevenOctets :
    VectorSafe Aes.encrypt (afterCommand (readerCard 7) commitReaderIdCommand) {}
      [dfcCmdGetValue, 0x01] := by
  have hcommit : dfcEmulatorHandleCommand Aes.encrypt (readerCard 7) {} commitReaderIdCommand =
      some (afterCommand (readerCard 7) commitReaderIdCommand, .accepted []) :=
    afterCommand_eq (by decide +kernel)
  exact commandVectors_safe
    (by decide +kernel : modelCheck (readerCard 7).credential = .ok ()) (by decide) rfl
    (.single (.event (.command hcommit))) {} [dfcCmdGetValue, 0x01]

/-- The identifier of ten octets, which the validator accepts: CommitReaderID copies it over the
end of its vector. -/
theorem commandVectors_tenOctets :
    modelCheck (readerCard 10).credential = .ok () ∧ (readerCard 10).transactionMac = {} ∧
      (9, (readerCard 10).credential.uidOctets) ∈
        commandVectorWrites (readerCard 10) {} commitReaderIdCommand ∧
      ¬VectorSafe Aes.encrypt (readerCard 10) {} commitReaderIdCommand := by
  have hmem : (9, (readerCard 10).credential.uidOctets) ∈
      commandVectorWrites (readerCard 10) {} commitReaderIdCommand := by decide +kernel
  refine ⟨by decide +kernel, rfl, hmem, fun hsafe => ?_⟩
  have hwithin := hsafe.within _ hmem
  rw [length_uidOctets] at hwithin
  exact absurd hwithin (by decide)

end DfcCore
