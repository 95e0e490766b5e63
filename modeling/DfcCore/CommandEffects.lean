import DfcCore.FileViews

/-!
# What an accepted command did

One lemma for each handler: what an accepted command was checked against, the operation it
reported to the transaction MAC, and the state it left. A handler is opened here and nowhere
else; what holds of every run follows from these lemmas.
-/
namespace DfcCore
open Der

section
variable (aes : List UInt8 → List UInt8 → List UInt8)

/-- The accumulator after an operation. -/
def TransactionMacOperation.addTo (op : TransactionMacOperation)
    (a : DfcTransactionMacAccumulator) : Option DfcTransactionMacAccumulator :=
  op.entry.bind (accumulatorAddEntry aes a)

/-- The operation was taken in, if the application has a transaction MAC file. -/
def MacTaken (op : TransactionMacOperation) (e e' : DfcEmulator) : Prop :=
  transactionMacAdd aes e false (op.addTo aes) = .ok e'

end

variable {aes : List UInt8 → List UInt8 → List UInt8} {e e' : DfcEmulator} {env : CommandEnv}
  {apdu payload : List UInt8}

theorem MacTaken.eq_update {op : TransactionMacOperation} (h : MacTaken aes op e e') :
    e' = { e with transactionMac := e'.transactionMac } := by
  unfold MacTaken transactionMacAdd at h
  cases hstate : transactionMacState e with
  | none =>
    rw [hstate] at h
    cases h
    rfl
  | some tmac =>
    rw [hstate] at h
    dsimp only at h
    cases hcand : transactionMacCandidate aes e tmac with
    | none =>
      rw [hcand] at h
      cases h
    | some a =>
      rw [hcand] at h
      simp only [Bool.false_eq_true, if_false] at h
      cases hadd : op.addTo aes a with
      | none =>
        rw [hadd] at h
        cases h
      | some a' =>
        rw [hadd] at h
        cases h
        rfl

/-- A cipher that failed takes nothing in. -/
theorem macTaken_of_orRefuse (op : TransactionMacOperation) {cipherFails : Bool}
    {refused : DfcEmulator}
    (h : (transactionMacAdd aes e cipherFails (op.addTo aes)).orRefuse refused = .ok e') :
    MacTaken aes op e e' := by
  have hok : transactionMacAdd aes e cipherFails (op.addTo aes) = .ok e' := by
    cases hupdate : transactionMacAdd aes e cipherFails (op.addTo aes) with
    | ok e₁ =>
      rw [hupdate] at h
      cases h
      rfl
    | terminal =>
      rw [hupdate] at h
      cases h
    | cryptoFailed =>
      rw [hupdate] at h
      cases h
  cases cipherFails with
  | false => exact hok
  | true =>
    unfold MacTaken
    unfold transactionMacAdd at hok ⊢
    cases hstate : transactionMacState e with
    | none =>
      rw [hstate] at hok
      exact hok
    | some tmac =>
      rw [hstate] at hok
      dsimp only at hok
      cases hcand : transactionMacCandidate aes e tmac with
      | none =>
        rw [hcand] at hok
        cases hok
      | some a =>
        rw [hcand] at hok
        cases hok

theorem findFile_ok {fileNo : UInt8} {i : ℕ} (h : findFile e fileNo = .ok i) :
    dfcCredentialFindFileInApp e.credential e.selectedAppIndex fileNo = some i :=
  orFail_eq_ok.1 h

theorem findRecordFile_ok {fileNo : UInt8} {i : ℕ} (h : findRecordFile e fileNo = .ok i) :
    dfcCredentialFindFileInApp e.credential e.selectedAppIndex fileNo = some i ∧
      dfcFileTypeIsRecord (e.credential.files i).type = true := by
  unfold findRecordFile at h
  simp only [bind_eq_ok, refuseIf_eq_ok, pure_eq_ok, exists_const] at h
  obtain ⟨j, hfind, htype, rfl⟩ := h
  exact ⟨findFile_ok hfind, by simpa using htype⟩

theorem unwrapped_orRefuse_ok {α : Type} {x : Unwrapped α} {a : α} (h : x.orRefuse e = .ok a) :
    x = .clear a := by
  cases x with
  | clear b =>
    cases h
    rfl
  | lengthError => cases h
  | integrityError endsSession => cases h

theorem emitPayload_ok {octets : List UInt8} (h : emitPayload e env octets = .ok (e', payload)) :
    e' = dfcEmulatorCommandClearPendingChain e ∧ payload = octets := by
  unfold emitPayload at h
  cases hemit : env.emission with
  | none =>
    rw [hemit] at h
    cases h
    exact ⟨rfl, rfl⟩
  | some failure =>
    rw [hemit] at h
    cases failure <;> cases h

theorem readView_length {offset length : ℕ} {data : CommittedData} {octets : List UInt8}
    (h : readView e offset length data = some octets) : octets.length = length := by
  cases data with
  | absent =>
    unfold readView at h
    split_ifs at h with h0
    cases h
    rw [h0]
    rfl
  | zeros =>
    cases h
    exact List.length_replicate
  | live start =>
    cases h
    exact Mem.length_read _ _ _
  | preimage start =>
    cases h
    exact Mem.length_read _ _ _

/-- A read leaves the card as it was, up to the counter of secure dynamic messaging. -/
def ReadDataFrom (e : DfcEmulator) (i : ℕ) (e' : DfcEmulator) : Prop :=
  e' = e ∨ (dfcFileSdmFlagIsSet (e.credential.files i) .enabled = true ∧ ∃ counter : UInt32,
    e' = e.mapCredential fun c => c.modifyFile i fun file =>
      file.withData { file.state.data with sdmReadCounter := counter })

theorem readDataOctets_ok {i offset length : ℕ} {octets : List UInt8}
    (h : readDataOctets e env i offset length = .ok (e', octets)) :
    octets.length = length ∧ ReadDataFrom e i e' := by
  unfold readDataOctets at h
  dsimp only at h
  by_cases hsdm : dfcFileSdmFlagIsSet (e.credential.files i) .enabled = true
  · rw [if_pos hsdm] at h
    cases hrender : env.sdm with
    | rendered cache counter =>
      rw [hrender] at h
      cases h
      exact ⟨Mem.length_read _ _ _, .inr ⟨hsdm, counter, rfl⟩⟩
    | limitReached =>
      rw [hrender] at h
      cases h
    | randomExhausted retryable =>
      rw [hrender] at h
      cases h
    | failed =>
      rw [hrender] at h
      cases h
  · rw [if_neg hsdm] at h
    simp only [bind_eq_ok, orFail_eq_ok, pure_eq_ok] at h
    obtain ⟨octets', hread, heq⟩ := h
    obtain ⟨rfl, rfl⟩ := Prod.mk.injEq .. ▸ heq
    exact ⟨readView_length hread, .inl rfl⟩

theorem readData_ok (h : dfcEmulatorCommandReadData aes e env apdu = .ok (e', payload)) :
    ∃ i e₁ e₂,
      dfcCredentialFindFileInApp e.credential e.selectedAppIndex (apdu.getD 1 0) = some i ∧
      (dfcFileTypeIsData (e.credential.files i).type = true ∨
        (e.credential.files i).type = dfcFileTypeTransactionMac) ∧
      dfcEmulatorFileAccessAllowed e (e.credential.files i) .read = true ∧
      readUint24Le apdu 2 + payload.length ≤ (e.credential.files i).dataLen ∧
      readDataOctets e env i (readUint24Le apdu 2) payload.length = .ok (e₁, payload) ∧
      ReadDataFrom e i e₁ ∧
      (if (e.credential.files i).type = dfcFileTypeTransactionMac then e₂ = e₁
        else MacTaken aes (.data (apdu.getD 0 0) (apdu.getD 1 0) (readUint24Le apdu 2)
          payload.length payload) e₁ e₂) ∧
      e' = dfcEmulatorCommandClearPendingChain e₂ := by
  unfold dfcEmulatorCommandReadData at h
  simp only [bind_eq_ok, refuseIf_eq_ok, exists_and_left, Prod.exists, exists_const] at h
  obtain ⟨-, -, -, i, hfind, htype, haccess, hbound, -, e₁, octets, hread, h⟩ := h
  obtain ⟨hlen, hfrom⟩ := readDataOctets_ok hread
  have hrange : readUint24Le apdu 2 + octets.length ≤ (e.credential.files i).dataLen := by
    rw [hlen]
    split_ifs <;> omega
  rw [← hlen] at hread h
  have hkind : dfcFileTypeIsData (e.credential.files i).type = true ∨
      (e.credential.files i).type = dfcFileTypeTransactionMac := by
    by_contra hno
    push Not at hno
    exact htype ⟨by simpa using hno.1, hno.2⟩
  by_cases htmac : (e.credential.files i).type = dfcFileTypeTransactionMac
  · rw [if_pos htmac] at h
    obtain ⟨rfl, rfl⟩ := emitPayload_ok h
    exact ⟨i, e₁, e₁, findFile_ok hfind, hkind, by simpa using haccess, hrange, hread, hfrom,
      by rw [if_pos htmac], rfl⟩
  · rw [if_neg htmac, bind_eq_ok] at h
    obtain ⟨e₂, htaken, hemit⟩ := h
    obtain ⟨rfl, rfl⟩ := emitPayload_ok hemit
    refine ⟨i, e₁, e₂, findFile_ok hfind, hkind, by simpa using haccess, hrange, hread, hfrom,
      ?_, rfl⟩
    rw [if_neg htmac]
    exact macTaken_of_orRefuse (.data _ _ _ _ _) htaken

theorem writeData_ok (h : dfcEmulatorCommandWriteData aes e env apdu = .ok (e', payload)) :
    ∃ i start clear opened recorded,
      dfcCredentialFindFileInApp e.credential e.selectedAppIndex (apdu.getD 1 0) = some i ∧
      dfcFileTypeIsData (e.credential.files i).type = true ∧
      readUint24Le apdu 2 + clear.length ≤ (e.credential.files i).dataLen ∧
      unwrapWritePayload e env apdu 7 = .clear clear ∧
      clear.length = readUint24Le apdu 5 ∧
      dfcFileData e.credential (e.credential.files i) = some start ∧
      (if (e.credential.files i).type = dfcFileTypeBackupData then
        openJournal e env.allocationFails i = (opened, true) else opened = e) ∧
      MacTaken aes (.data (apdu.getD 0 0) (apdu.getD 1 0) (readUint24Le apdu 2) clear.length
        clear) opened recorded ∧
      e' = storeData recorded i (start + readUint24Le apdu 2) clear ∧ payload = [] := by
  unfold dfcEmulatorCommandWriteData at h
  simp only [bind_eq_ok, refuseIf_eq_ok, orFail_eq_ok, pure_eq_ok, exists_and_left,
    exists_const] at h
  obtain ⟨-, -, i, hfind, htype, -, -, hbound, -, clear, hclear, hlen, start, hstart, -, hopen, -,
    recorded, htaken, heq⟩ := h
  obtain ⟨rfl, rfl⟩ := Prod.mk.injEq .. ▸ heq
  have hlen' : clear.length = readUint24Le apdu 5 := by simpa using hlen
  rw [← hlen'] at htaken hbound
  have hrange : readUint24Le apdu 2 + clear.length ≤ (e.credential.files i).dataLen := by omega
  refine ⟨i, start, clear, _, recorded, findFile_ok hfind, by simpa using htype, hrange,
    unwrapped_orRefuse_ok hclear, hlen', hstart, ?_,
    macTaken_of_orRefuse (.data _ _ _ _ _) htaken, rfl, rfl⟩
  split_ifs with hbackup
  · rw [if_pos hbackup, Bool.not_eq_false] at hopen
    rw [← hopen]
  · rfl

theorem readRecords_ok (h : handleReadRecords aes e env apdu = .ok (e', payload)) :
    ∃ i count e₁,
      dfcCredentialFindFileInApp e.credential e.selectedAppIndex (apdu.getD 1 0) = some i ∧
      dfcFileTypeIsRecord (e.credential.files i).type = true ∧
      dfcEmulatorRecordStorageIsConsistent (e.credential.files i) = true ∧
      0 < (e.credential.files i).state.record.size ∧
      readUint24Le apdu 2 + count ≤ (committedRecords e i).1 ∧
      count ≠ 0 ∧
      count * (e.credential.files i).state.record.size ≤ dfcMaxFileData ∧
      readView e (((committedRecords e i).1 - readUint24Le apdu 2 - count) *
        (e.credential.files i).state.record.size)
        (count * (e.credential.files i).state.record.size) (committedRecords e i).2 =
          some payload ∧
      payload.length = count * (e.credential.files i).state.record.size ∧
      MacTaken aes (.data (apdu.getD 0 0) (apdu.getD 1 0) (readUint24Le apdu 2) count payload)
        e e₁ ∧
      e' = dfcEmulatorCommandClearPendingChain e₁ := by
  unfold handleReadRecords at h
  simp only [bind_eq_ok, refuseIf_eq_ok, orFail_eq_ok, exists_and_left, exists_const] at h
  obtain ⟨-, -, i, hfind, -, hconsistent, hfirst, hcount, octets, hread, e₁, htaken, hemit⟩ := h
  obtain ⟨rfl, rfl⟩ := emitPayload_ok hemit
  obtain ⟨hfound, hrecord⟩ := findRecordFile_ok hfind
  generalize hn : (if readUint24Le apdu 5 = 0 then (committedRecords e i).1 - readUint24Le apdu 2
    else readUint24Le apdu 5) = count at *
  have hsize : 0 < (e.credential.files i).state.record.size := by
    by_contra hzero
    exact hcount (.inr (.inl (Nat.eq_zero_of_not_pos hzero)))
  have hfits : count * (e.credential.files i).state.record.size ≤ dfcMaxFileData := by
    refine (Nat.le_div_iff_mul_le hsize).1 ?_
    by_contra hmany
    exact hcount (.inr (.inr (not_le.1 hmany)))
  have hne : count ≠ 0 := by
    intro hzero
    split_ifs at hn <;> omega
  exact ⟨i, count, e₁, hfound, hrecord, by simpa using hconsistent, hsize, by omega, hne, hfits,
    hread, readView_length hread, macTaken_of_orRefuse (.data _ _ _ _ _) htaken, rfl⟩

theorem writeRecord_ok (h : dfcEmulatorCommandWriteRecord aes e env apdu = .ok (e', payload)) :
    ∃ i start clear opened recorded,
      dfcCredentialFindFileInApp e.credential e.selectedAppIndex (apdu.getD 1 0) = some i ∧
      dfcFileTypeIsRecord (e.credential.files i).type = true ∧
      dfcEmulatorRecordStorageIsConsistent (e.credential.files i) = true ∧
      unwrapWritePayload e env apdu 7 = .clear clear ∧
      clear.length = readUint24Le apdu 5 ∧
      readUint24Le apdu 2 + clear.length ≤ (e.credential.files i).state.record.size ∧
      dfcEmulatorRecordUsableCapacity (e.credential.files i) ≠ 0 ∧
      dfcFileData e.credential (e.credential.files i) = some start ∧
      openJournal e env.allocationFails i = (opened, true) ∧
      ((opened.snapshot.entry i).recordOperation = .none ∨
        (opened.snapshot.entry i).recordOperation = .write) ∧
      ((opened.snapshot.entry i).recordOperation = .none →
        (e.credential.files i).type = dfcFileTypeLinearRecord →
        (e.credential.files i).state.record.count <
        (e.credential.files i).state.record.maxRecords) ∧
      MacTaken aes (.data (apdu.getD 0 0) (apdu.getD 1 0) (readUint24Le apdu 2) clear.length
        clear) opened recorded ∧
      e' = storeRecord recorded i start (readUint24Le apdu 2) clear ∧ payload = [] := by
  unfold dfcEmulatorCommandWriteRecord at h
  simp only [bind_eq_ok, refuseIf_eq_ok, orFail_eq_ok, pure_eq_ok, exists_and_left,
    exists_const] at h
  obtain ⟨-, -, -, i, hfind, -, hconsistent, clear, hclear, hlen, -, hcapacity, start, hstart,
    hopen, hoperation, hfull, recorded, htaken, heq⟩ := h
  obtain ⟨rfl, rfl⟩ := Prod.mk.injEq .. ▸ heq
  obtain ⟨hfound, hrecord⟩ := findRecordFile_ok hfind
  rw [not_or] at hlen
  have hlen' : clear.length = readUint24Le apdu 5 := by simpa using hlen.1
  rw [← hlen'] at htaken hlen
  refine ⟨i, start, clear, _, recorded, hfound, hrecord, by simpa using hconsistent,
    unwrapped_orRefuse_ok hclear, hlen', not_lt.1 hlen.2, hcapacity, hstart,
    Prod.ext rfl (by simpa using hopen), ?_, ?_,
    macTaken_of_orRefuse (.data _ _ _ _ _) htaken, rfl, rfl⟩
  · generalize ((openJournal e env.allocationFails i).1.snapshot.entry i).recordOperation = o
      at hoperation
    cases o with
    | none => exact .inl rfl
    | write => exact .inr rfl
    | update => exact absurd (.inr rfl) hoperation
    | clear => exact absurd (.inl rfl) hoperation
  · intro hnone hlinear
    by_contra hcount
    exact hfull ⟨by rw [hnone]; decide, not_lt.1 hcount, hlinear⟩

theorem updateRecord_ok (h : dfcEmulatorCommandUpdateRecord aes e env apdu = .ok (e', payload)) :
    ∃ i start clear opened recorded,
      dfcCredentialFindFileInApp e.credential e.selectedAppIndex (apdu.getD 1 0) = some i ∧
      dfcFileTypeIsRecord (e.credential.files i).type = true ∧
      dfcEmulatorRecordStorageIsConsistent (e.credential.files i) = true ∧
      readUint24Le apdu 2 < (e.credential.files i).state.record.count ∧
      unwrapWritePayload e env apdu (dfcUpdateRecordHeaderSize - 1) = .clear clear ∧
      clear.length = readUint24Le apdu 8 ∧
      readUint24Le apdu 5 + clear.length ≤ (e.credential.files i).state.record.size ∧
      dfcFileData e.credential (e.credential.files i) = some start ∧
      openJournal e env.allocationFails i = (opened, true) ∧
      ((opened.snapshot.entry i).recordOperation = .none ∨
        ((opened.snapshot.entry i).recordOperation = .update ∧
          (opened.snapshot.entries i).recordNumber = readUint24Le apdu 2)) ∧
      MacTaken aes (.recordUpdate (apdu.getD 0 0) (apdu.getD 1 0) (readUint24Le apdu 2)
        (readUint24Le apdu 5) clear.length clear) opened recorded ∧
      e' = dfcEmulatorCommandTransactionSetRecordOperation (recorded.mapCredential fun c =>
        (c.writeFileData (start + ((e.credential.files i).state.record.count -
          readUint24Le apdu 2 - 1) * (e.credential.files i).state.record.size +
          readUint24Le apdu 5) clear).setPending i) i .update (readUint24Le apdu 2) ∧
      payload = [] := by
  unfold dfcEmulatorCommandUpdateRecord at h
  simp only [bind_eq_ok, refuseIf_eq_ok, orFail_eq_ok, pure_eq_ok, exists_and_left,
    exists_const] at h
  obtain ⟨-, -, -, -, i, hfind, -, hconsistent, hbound, clear, hclear, hlen, -, start, hstart,
    hopen, -, hoperation, recorded, htaken, heq⟩ := h
  obtain ⟨rfl, rfl⟩ := Prod.mk.injEq .. ▸ heq
  obtain ⟨hfound, hrecord⟩ := findRecordFile_ok hfind
  push Not at hbound
  have hlen' : clear.length = readUint24Le apdu 8 := by simpa using hlen
  rw [← hlen'] at htaken hbound
  refine ⟨i, start, clear, _, recorded, hfound, hrecord, by simpa using hconsistent, hbound.1,
    unwrapped_orRefuse_ok hclear, hlen', hbound.2.2.2, hstart,
    Prod.ext rfl (by simpa using hopen), ?_,
    macTaken_of_orRefuse (.recordUpdate _ _ _ _ _ _) htaken, rfl, rfl⟩
  generalize ((openJournal e env.allocationFails i).1.snapshot.entry i).recordOperation = o
    at hoperation ⊢
  cases o with
  | none => exact .inl rfl
  | write => exact absurd (.inl rfl) hoperation
  | update =>
    refine .inr ⟨rfl, ?_⟩
    by_contra hne
    exact hoperation (.inr (.inr ⟨rfl, hne⟩))
  | clear => exact absurd (.inr (.inl rfl)) hoperation

theorem clearRecordFile_ok
    (h : dfcEmulatorCommandClearRecordFile aes e env apdu = .ok (e', payload)) :
    ∃ i opened recorded,
      dfcCredentialFindFileInApp e.credential e.selectedAppIndex (apdu.getD 1 0) = some i ∧
      dfcFileTypeIsRecord (e.credential.files i).type = true ∧
      dfcEmulatorRecordStorageIsConsistent (e.credential.files i) = true ∧
      openJournal e env.allocationFails i = (opened, true) ∧
      (opened.snapshot.entry i).recordOperation = .none ∧
      MacTaken aes (.clearRecord (apdu.getD 1 0)) opened recorded ∧
      e' = dfcEmulatorCommandTransactionSetRecordOperation (recorded.mapCredential fun c =>
        (c.modifyFile i fun file =>
          file.withRecord { file.state.record with count := 0 }).setPending i) i .clear 0 ∧
      payload = [] := by
  unfold dfcEmulatorCommandClearRecordFile at h
  simp only [bind_eq_ok, refuseIf_eq_ok, pure_eq_ok, exists_and_left, exists_const] at h
  obtain ⟨-, -, i, hfind, -, hconsistent, -, hopen, hoperation, recorded, htaken, heq⟩ := h
  obtain ⟨rfl, rfl⟩ := Prod.mk.injEq .. ▸ heq
  obtain ⟨hfound, hrecord⟩ := findRecordFile_ok hfind
  exact ⟨i, _, recorded, hfound, hrecord, by simpa using hconsistent,
    Prod.ext rfl (by simpa using hopen), by simpa using hoperation,
    macTaken_of_orRefuse (.clearRecord _) htaken, rfl, rfl⟩

theorem getValue_ok (h : dfcEmulatorCommandGetValue aes e env apdu = .ok (e', payload)) :
    ∃ i,
      dfcCredentialFindFileInApp e.credential e.selectedAppIndex (apdu.getD 1 0) = some i ∧
      (e.credential.files i).type = dfcFileTypeValue ∧
      payload = leOctets 4 (e.credential.files i).state.value.current.toUInt32.toNat ∧
      MacTaken aes (.value dfcCmdGetValue (apdu.getD 1 0)
        (e.credential.files i).state.value.current.toUInt32) e e' := by
  unfold dfcEmulatorCommandGetValue at h
  simp only [bind_eq_ok, refuseIf_eq_ok, pure_eq_ok, exists_and_left, exists_const] at h
  obtain ⟨-, -, i, hfind, htype, -, e₁, htaken, -, heq⟩ := h
  obtain ⟨rfl, rfl⟩ := Prod.mk.injEq .. ▸ heq
  exact ⟨i, findFile_ok hfind, by simpa using htype, rfl,
    macTaken_of_orRefuse (.value _ _ _) htaken⟩

theorem valueDelta_ok {cmd : UInt8} {debit limitedCredit : Bool}
    (h : dfcEmulatorCommandValueDelta aes e env apdu cmd debit limitedCredit =
      .ok (e', payload)) :
    ∃ i amount next recorded,
      dfcCredentialFindFileInApp e.credential e.selectedAppIndex (apdu.getD 1 0) = some i ∧
      (e.credential.files i).type = dfcFileTypeValue ∧
      unwrapAmount e env apdu = .clear amount ∧
      0 ≤ amount.toInt ∧
      (limitedCredit = true →
        (e.credential.files i).state.value.limitedCreditPending ≠
          dfcLimitedCreditTransactionConsumed ∧
        amount.toInt ≤ (if 0 < (e.credential.files i).state.value.limitedCreditPending.toInt then
          (e.credential.files i).state.value.limitedCreditPending
          else (e.credential.files i).state.value.limitedCreditValue).toInt) ∧
      valueDeltaResult (e.credential.files i).state.value
        (if debit then -amount.toInt else amount.toInt) = some next ∧
      MacTaken aes (.value cmd (apdu.getD 1 0) amount.toUInt32) e recorded ∧
      e' = (recorded.mapCredential fun c => c.modifyFile i fun file =>
        file.withValue (file.state.value.stage next amount debit limitedCredit)) ∧
      payload = [] := by
  unfold dfcEmulatorCommandValueDelta at h
  simp only [bind_eq_ok, refuseIf_eq_ok, orFail_eq_ok, pure_eq_ok, exists_and_left,
    exists_const] at h
  obtain ⟨-, -, i, hfind, htype, -, amount, hamount, hsign, -, hlimited, next, hnext, recorded,
    htaken, heq⟩ := h
  obtain ⟨rfl, rfl⟩ := Prod.mk.injEq .. ▸ heq
  refine ⟨i, amount, next, recorded, findFile_ok hfind, by simpa using htype,
    unwrapped_orRefuse_ok hamount, not_lt.1 hsign, fun hl => ?_, hnext,
    macTaken_of_orRefuse (.value _ _ _) htaken, rfl, rfl⟩
  exact ⟨fun hconsumed => hlimited ⟨hl, .inl hconsumed⟩,
    not_lt.1 fun hless => hlimited ⟨hl, .inr hless⟩⟩

theorem commitReaderId_ok
    (h : dfcEmulatorCommandCommitReaderId aes e env apdu = .ok (e', payload)) :
    ∃ readerId tmac recorded,
      unwrapReaderId e env apdu = .ok readerId ∧
      transactionMacState e = some tmac ∧
      payload = (if dfcEmulatorAuthenticated e then encryptedPreviousReaderId aes e tmac
        else []) ∧
      MacTaken aes (.readerId readerId (if dfcEmulatorAuthenticated e then some payload
        else none)) e recorded ∧
      e' = { recorded with
        transactionPendingReaderId := readerId
        transactionReaderIdPending := true
        transactionReaderIdPersist := dfcEmulatorAuthenticated e } := by
  unfold dfcEmulatorCommandCommitReaderId at h
  simp only [bind_eq_ok, refuseIf_eq_ok, orFail_eq_ok, pure_eq_ok, exists_and_left,
    exists_const] at h
  obtain ⟨-, readerId, hreader, i, hfile, -, -, -, -, -, recorded, htaken, heq⟩ := h
  obtain ⟨rfl, rfl⟩ := Prod.mk.injEq .. ▸ heq
  refine ⟨readerId, (e.credential.files i).state.transactionMac, recorded, hreader, ?_, ?_, ?_,
    rfl⟩
  · rw [transactionMacState, hfile]
    rfl
  · split_ifs <;> rfl
  · have htaken' := macTaken_of_orRefuse (.readerId _ _) htaken
    split_ifs at htaken' ⊢ with hauth
    · exact htaken'
    · exact htaken'

theorem commitTransaction_ok
    (h : commitTransaction aes e env apdu = .ok (e', payload)) :
    transactionChanged e = true ∧
      ((transactionMacFile e = none ∧ e' = dfcEmulatorPublishTransaction e ∧ payload = []) ∨
      ∃ i mac counter, transactionMacFile e = some i ∧
        transactionMacCalculate aes e (e.credential.files i).state.transactionMac =
          some (mac, counter) ∧
        e' = (dfcEmulatorPublishTransaction e).storeTransactionCounter i
          e.transactionReaderIdPersist e.transactionPendingReaderId counter ∧
        payload = if apdu.length == 2 && apdu.getD 1 0 == 1 then leOctets 4 counter.toNat ++ mac
          else []) := by
  unfold commitTransaction dfcEmulatorCommandCommitTransaction at h
  simp only [bind_eq_ok, refuseIf_eq_ok, exists_and_left, exists_const] at h
  obtain ⟨-, -, hchanged, h⟩ := h
  refine ⟨by simpa using hchanged, ?_⟩
  cases hfile : transactionMacFile e with
  | none =>
    rw [hfile] at h
    obtain ⟨rfl, rfl⟩ := Prod.mk.injEq .. ▸ pure_eq_ok.1 h
    exact .inl ⟨rfl, rfl, rfl⟩
  | some i =>
    rw [hfile] at h
    simp only [bind_eq_ok, refuseIf_eq_ok, orFail_eq_ok, pure_eq_ok, exists_and_left, Prod.exists,
      exists_const] at h
    obtain ⟨-, -, mac, counter, hmac, heq⟩ := h
    obtain ⟨rfl, rfl⟩ := Prod.mk.injEq .. ▸ heq
    exact .inr ⟨i, mac, counter, rfl, hmac, rfl, rfl⟩

theorem abortTransaction_ok (h : dfcEmulatorCommandAbortTransaction e apdu = .ok (e', payload)) :
    dfcEmulatorAbortTransaction e = (e', true) ∧ payload = [] := by
  unfold dfcEmulatorCommandAbortTransaction at h
  simp only [bind_eq_ok, refuseIf_eq_ok, pure_eq_ok, exists_and_left, exists_const] at h
  obtain ⟨-, -, hchanged, heq⟩ := h
  obtain ⟨rfl, rfl⟩ := Prod.mk.injEq .. ▸ heq
  exact ⟨Prod.ext rfl (by simpa using hchanged), rfl⟩

/-- The state DeleteFile deletes the file in: a transaction MAC file takes the transaction
with it, another file only its journal entry. -/
def beforeDelete (e : DfcEmulator) (i : ℕ) : DfcEmulator :=
  if (e.credential.files i).type = dfcFileTypeTransactionMac then
    (dfcEmulatorAbortTransaction e).1
  else dfcEmulatorTransactionSnapshotDeleteFile e i

theorem deleteFile_ok (h : dfcEmulatorCommandDeleteFile e apdu = .ok (e', payload)) :
    ∃ i, apdu.length = 2 ∧ e.selectedApplication = .app ∧
      dfcCredentialFindFileInApp e.credential e.selectedAppIndex (apdu.getD 1 0) = some i ∧
      e' = (dfcEmulatorTransactionSnapshotNotePersistentChange
        ((beforeDelete e i).mapCredential fun c =>
          (dfcCredentialDeleteFile c (beforeDelete e i).selectedAppIndex
            (apdu.getD 1 0)).1)).markDirty ∧
      payload = [] := by
  unfold dfcEmulatorCommandDeleteFile at h
  simp only [bind_eq_ok, refuseIf_eq_ok, pure_eq_ok, exists_and_left, exists_const] at h
  obtain ⟨hlen, hselected, -, -, i, hfind, heq⟩ := h
  obtain ⟨rfl, rfl⟩ := Prod.mk.injEq .. ▸ heq
  exact ⟨i, by simpa using hlen, by simpa using hselected, findFile_ok hfind, rfl, rfl⟩

theorem createTransactionMacFile_ok
    (h : dfcEmulatorCommandCreateTransactionMacFile e apdu = .ok (e', payload)) :
    transactionMacFile e = none ∧ payload = [] ∧
      (e' = { (dfcEmulatorAbortTransaction e).1 with
          credential := (dfcCredentialCreateFile (dfcEmulatorAbortTransaction e).1.credential
            (dfcEmulatorAbortTransaction e).1.selectedAppIndex (apdu.getD 1 0)).1 } ∨
      ∃ c i, dfcCredentialCreateFile (dfcEmulatorAbortTransaction e).1.credential
          (dfcEmulatorAbortTransaction e).1.selectedAppIndex (apdu.getD 1 0) = (c, some i) ∧
        e' = DfcEmulator.markDirty { (dfcEmulatorAbortTransaction e).1 with
          credential := (dfcFileResize c i dfcTransactionMacFileLength).1.modifyFile i
            fun file => file.installTransactionMac apdu }) := by
  unfold dfcEmulatorCommandCreateTransactionMacFile at h
  simp only [bind_eq_ok, refuseIf_eq_ok, exists_and_left, exists_const] at h
  obtain ⟨-, -, -, hshape, -, -, -, -, -, -, h⟩ := h
  rw [not_or] at hshape
  refine ⟨by simpa using hshape.2, ?_⟩
  cases hcreate : dfcCredentialCreateFile (dfcEmulatorAbortTransaction e).1.credential
      (dfcEmulatorAbortTransaction e).1.selectedAppIndex (apdu.getD 1 0) with
  | mk c found =>
    rw [hcreate] at h
    cases found with
    | none =>
      obtain ⟨rfl, rfl⟩ := Prod.mk.injEq .. ▸ pure_eq_ok.1 h
      exact ⟨rfl, .inl rfl⟩
    | some i =>
      obtain ⟨rfl, rfl⟩ := Prod.mk.injEq .. ▸ pure_eq_ok.1 h
      exact ⟨rfl, .inr ⟨c, i, rfl, rfl⟩⟩

end DfcCore
