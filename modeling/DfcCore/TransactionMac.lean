import DfcCore.Cmac
import DfcCore.Emulator
import DfcCore.LittleEndian

/-!
# Transaction MACs

The entries of `dfc_transaction_mac.c`, the accumulator the card runs over them and the
verifier a reader feeds with them. The cipher is a parameter; a failure of the cipher
itself is not here, it is an event of the command that meets it. The segments an
accumulator is given are one string of octets, since the code gathers them into blocks
across their borders. A verifier carries its invariant: its input fits its buffer.
-/
namespace DfcCore
open Cmac

abbrev dfcCmdReadData : UInt8 := 0xBD
abbrev dfcCmdReadDataIso : UInt8 := 0xAD
abbrev dfcCmdWriteData : UInt8 := 0x3D
abbrev dfcCmdWriteDataIso : UInt8 := 0x8D
abbrev dfcCmdReadRecords : UInt8 := 0xBB
abbrev dfcCmdReadRecordsIso : UInt8 := 0xAB
abbrev dfcCmdWriteRecord : UInt8 := 0x3B
abbrev dfcCmdWriteRecordIso : UInt8 := 0x8B
abbrev dfcCmdUpdateRecord : UInt8 := 0xDB
abbrev dfcCmdUpdateRecordIso : UInt8 := 0xBA
abbrev dfcCmdClearRecordFile : UInt8 := 0xEB
abbrev dfcCmdGetValue : UInt8 := 0x6C
abbrev dfcCmdCredit : UInt8 := 0x0C
abbrev dfcCmdLimitedCredit : UInt8 := 0x1C
abbrev dfcCmdDebit : UInt8 := 0xDC
abbrev dfcCmdCommitReaderId : UInt8 := 0xC8
abbrev dfcTransactionReaderIdLength : ℕ := 16
abbrev dfcDesfireUidShortLen : ℕ := 4
abbrev dfcDesfireUidLen : ℕ := 7

structure TransactionMacEntry where
  header : List UInt8
  data : List UInt8 := []
  deriving Repr, DecidableEq

def uint24IsValid (value : ℕ) : Bool := decide (value ≤ 0xFFFFFF)

def paddedLength (length : ℕ) : ℕ := (length + blockSize - 1) / blockSize * blockSize

/-- Zero octets up to a whole block. -/
def padded (octets : List UInt8) : List UInt8 :=
  octets ++ List.replicate (paddedLength octets.length - octets.length) 0

/-- Header and data, each padded to whole blocks. -/
def TransactionMacEntry.octets (entry : TransactionMacEntry) : List UInt8 :=
  padded entry.header ++ padded entry.data

def entryData (command fileNumber : UInt8) (offset length : ℕ) (data : List UInt8) :
    Option TransactionMacEntry :=
  if uint24IsValid offset && uint24IsValid length then
    some { header := command :: fileNumber :: (leOctets 3 offset ++ leOctets 3 length), data }
  else none

def entryRecordUpdate (command fileNumber : UInt8) (recordNumber offset length : ℕ)
    (data : List UInt8) : Option TransactionMacEntry :=
  if uint24IsValid recordNumber && uint24IsValid offset && uint24IsValid length then
    some
      { header := command :: fileNumber ::
          (leOctets 3 recordNumber ++ leOctets 3 offset ++ leOctets 3 length)
        data }
  else none

def entryValue (command fileNumber : UInt8) (value : List UInt8) : TransactionMacEntry :=
  { header := command :: fileNumber :: value }

def entryClearRecord (fileNumber : UInt8) : TransactionMacEntry :=
  { header := [dfcCmdClearRecordFile, fileNumber] }

def entryReaderId (currentReaderId : List UInt8) (encryptedPreviousReaderId : Option (List UInt8)) :
    TransactionMacEntry :=
  { header := dfcCmdCommitReaderId :: currentReaderId
    data := encryptedPreviousReaderId.getD [] }

section
variable (aes : List UInt8 → List UInt8 → List UInt8)

def aesCmac (key message : List UInt8) : List UInt8 := cmac (aes key) message

/-- The derivation vector: a label, the block and length counters, the transaction
counter and the card's identifier. -/
def transactionVector (label : UInt8) (uid : List UInt8) (counter : UInt32) : List UInt8 :=
  let head := [label, 0x00, 0x01, 0x00, 0x80] ++ leOctets 4 counter.toNat ++ uid
  head ++ List.replicate (16 - head.length) 0

def dfcTransactionMacDeriveSessionKey (key uid : List UInt8) (counter : UInt32) :
    Option (List UInt8) :=
  if counter = 0 ∨ (uid.length ≠ dfcDesfireUidShortLen ∧ uid.length ≠ dfcDesfireUidLen) then none
  else some (aesCmac aes key (transactionVector 0x5A uid counter))

def dfcTruncateAesWireMac (full : List UInt8) : List UInt8 :=
  (List.range 8).map fun i => full.getD (i * 2 + 1) 0

def dfcTransactionMacAccumulatorInit (sessionKey : List UInt8) : DfcTransactionMacAccumulator :=
  { sessionKey, initialized := true }

def accumulatorPushBlock (a : DfcTransactionMacAccumulator) (block : List UInt8) :
    DfcTransactionMacAccumulator :=
  { a with
    chain := if a.hasPending then aes a.sessionKey (xorBlock a.chain a.pending) else a.chain
    pending := block
    hasPending := true }

/-- Gathers the octets of the segments into blocks. -/
def accumulatorPush (s : DfcTransactionMacAccumulator × List UInt8) (octet : UInt8) :
    DfcTransactionMacAccumulator × List UInt8 :=
  if (s.2 ++ [octet]).length = blockSize then (accumulatorPushBlock aes s.1 (s.2 ++ [octet]), [])
  else (s.1, s.2 ++ [octet])

def accumulatorAddSegmentsAndZeroes (a : DfcTransactionMacAccumulator) (octets : List UInt8)
    (zeroLength : ℕ) : Option DfcTransactionMacAccumulator :=
  if a.initialized = false then none
  else
    let all := octets ++ List.replicate zeroLength 0
    let candidate := all.foldl (accumulatorPush aes) (a, [])
    if all.length = 0 ∨ candidate.2.length ≠ 0 ∨ all.length % blockSize ≠ 0 then none
    else some candidate.1

def accumulatorAddEntry (a : DfcTransactionMacAccumulator) (entry : TransactionMacEntry) :
    Option DfcTransactionMacAccumulator :=
  accumulatorAddSegmentsAndZeroes aes a entry.octets 0

def dfcTransactionMacAccumulatorAddData (a : DfcTransactionMacAccumulator)
    (command fileNumber : UInt8) (offset length : ℕ) (data : List UInt8) :
    Option DfcTransactionMacAccumulator :=
  (entryData command fileNumber offset length data).bind (accumulatorAddEntry aes a)

/-- Data of zero octets that is nowhere in memory. -/
def dfcTransactionMacAccumulatorAddZeroData (a : DfcTransactionMacAccumulator)
    (command fileNumber : UInt8) (offset length dataLength : ℕ) :
    Option DfcTransactionMacAccumulator :=
  (entryData command fileNumber offset length []).bind fun entry =>
    accumulatorAddSegmentsAndZeroes aes a (padded entry.header) (paddedLength dataLength)

def dfcTransactionMacAccumulatorAddRecordUpdate (a : DfcTransactionMacAccumulator)
    (command fileNumber : UInt8) (recordNumber offset length : ℕ) (data : List UInt8) :
    Option DfcTransactionMacAccumulator :=
  (entryRecordUpdate command fileNumber recordNumber offset length data).bind
    (accumulatorAddEntry aes a)

def dfcTransactionMacAccumulatorAddValue (a : DfcTransactionMacAccumulator)
    (command fileNumber : UInt8) (value : List UInt8) : Option DfcTransactionMacAccumulator :=
  accumulatorAddEntry aes a (entryValue command fileNumber value)

def dfcTransactionMacAccumulatorAddReaderId (a : DfcTransactionMacAccumulator)
    (currentReaderId : List UInt8) (encryptedPreviousReaderId : Option (List UInt8)) :
    Option DfcTransactionMacAccumulator :=
  accumulatorAddEntry aes a (entryReaderId currentReaderId encryptedPreviousReaderId)

def dfcTransactionMacAccumulatorAddClearRecord (a : DfcTransactionMacAccumulator)
    (fileNumber : UInt8) : Option DfcTransactionMacAccumulator :=
  accumulatorAddEntry aes a (entryClearRecord fileNumber)

def dfcTransactionMacAccumulatorFinalize (a : DfcTransactionMacAccumulator) :
    Option (List UInt8) :=
  if a.initialized = false ∨ a.hasPending = false then none
  else
    some (aes a.sessionKey
      (xorBlock (xorBlock a.chain a.pending) (subkey1 (aes a.sessionKey))))

inductive DfcTransactionMacStatus where
  | invalid | capacity | cryptoFailed
  deriving Repr, DecidableEq

structure DfcTransactionMacVerifier where
  key : List UInt8
  uid : List UInt8
  counter : UInt32
  inputCapacity : ℕ
  input : List UInt8
  fits : input.length ≤ inputCapacity
  deriving DecidableEq

def dfcTransactionMacVerifierInit (inputCapacity : ℕ) (key uid : List UInt8) (counter : UInt32) :
    Except DfcTransactionMacStatus DfcTransactionMacVerifier :=
  if inputCapacity = 0 ∨ counter = 0 ∨
      (uid.length ≠ dfcDesfireUidShortLen ∧ uid.length ≠ dfcDesfireUidLen) then .error .invalid
  else .ok { key, uid, counter, inputCapacity, input := [], fits := Nat.zero_le _ }

def appendEntry (v : DfcTransactionMacVerifier) (entry : TransactionMacEntry) :
    Except DfcTransactionMacStatus DfcTransactionMacVerifier :=
  if h : entry.octets.length ≤ v.inputCapacity - v.input.length then
    .ok
      { v with
        input := v.input ++ entry.octets
        fits := by
          have := v.fits
          rw [List.length_append]
          omega }
  else .error .capacity

/-- The commands whose data is as long as the length they name. -/
def namesDataLength (command : UInt8) : Bool :=
  command == dfcCmdReadData || command == dfcCmdReadDataIso || command == dfcCmdWriteData ||
    command == dfcCmdWriteDataIso || command == dfcCmdWriteRecord || command == dfcCmdWriteRecordIso

def dfcTransactionMacAddData (v : DfcTransactionMacVerifier) (command fileNumber : UInt8)
    (offset length : ℕ) (data : List UInt8) :
    Except DfcTransactionMacStatus DfcTransactionMacVerifier :=
  if namesDataLength command = true ∧ data.length ≠ length then .error .invalid
  else if namesDataLength command = false ∧ command ≠ dfcCmdReadRecords ∧
      command ≠ dfcCmdReadRecordsIso then .error .invalid
  else match entryData command fileNumber offset length data with
  | none => .error .invalid
  | some entry => appendEntry v entry

def dfcTransactionMacAddRecordUpdate (v : DfcTransactionMacVerifier) (command fileNumber : UInt8)
    (recordNumber offset length : ℕ) (data : List UInt8) :
    Except DfcTransactionMacStatus DfcTransactionMacVerifier :=
  if (command ≠ dfcCmdUpdateRecord ∧ command ≠ dfcCmdUpdateRecordIso) ∨ data.length ≠ length then
    .error .invalid
  else match entryRecordUpdate command fileNumber recordNumber offset length data with
  | none => .error .invalid
  | some entry => appendEntry v entry

def dfcTransactionMacAddValue (v : DfcTransactionMacVerifier) (command fileNumber : UInt8)
    (value : UInt32) : Except DfcTransactionMacStatus DfcTransactionMacVerifier :=
  if command ≠ dfcCmdGetValue ∧ command ≠ dfcCmdCredit ∧ command ≠ dfcCmdDebit ∧
      command ≠ dfcCmdLimitedCredit then .error .invalid
  else appendEntry v (entryValue command fileNumber (leOctets 4 value.toNat))

def dfcTransactionMacAddClearRecord (v : DfcTransactionMacVerifier) (fileNumber : UInt8) :
    Except DfcTransactionMacStatus DfcTransactionMacVerifier :=
  appendEntry v (entryClearRecord fileNumber)

def dfcTransactionMacAddReaderId (v : DfcTransactionMacVerifier) (currentReaderId : List UInt8)
    (encryptedPreviousReaderId : Option (List UInt8)) :
    Except DfcTransactionMacStatus DfcTransactionMacVerifier :=
  appendEntry v (entryReaderId currentReaderId encryptedPreviousReaderId)

def dfcTransactionMacVerify (v : DfcTransactionMacVerifier) (mac : List UInt8) :
    Except DfcTransactionMacStatus Bool :=
  if v.input.length = 0 then .error .invalid
  else match dfcTransactionMacDeriveSessionKey aes v.key v.uid v.counter with
  | none => .error .cryptoFailed
  | some sessionKey =>
    .ok (dfcTruncateAesWireMac (aesCmac aes sessionKey v.input) == mac)

theorem le_paddedLength (n : ℕ) : n ≤ paddedLength n := by
  simp only [paddedLength, blockSize]
  omega

theorem length_padded (octets : List UInt8) :
    (padded octets).length = paddedLength octets.length := by
  rw [padded, List.length_append, List.length_replicate]
  exact Nat.add_sub_of_le (le_paddedLength _)

theorem padded_replicate (n : ℕ) :
    padded (List.replicate n 0) = List.replicate (paddedLength n) 0 := by
  rw [padded, List.length_replicate, List.replicate_append_replicate,
    Nat.add_sub_of_le (le_paddedLength _)]

theorem TransactionMacEntry.length_octets_mod (entry : TransactionMacEntry) :
    entry.octets.length % blockSize = 0 := by
  rw [TransactionMacEntry.octets, List.length_append, length_padded, length_padded, paddedLength,
    paddedLength, ← Nat.add_mul]
  exact Nat.mul_mod_left _ _

theorem TransactionMacEntry.octets_ne_nil {entry : TransactionMacEntry} (h : entry.header ≠ []) :
    entry.octets ≠ [] := by
  simp [TransactionMacEntry.octets, padded, h]

/-- Zero octets from nowhere and zero octets in memory are the same piece. -/
theorem accumulatorAddZeroData_eq (a : DfcTransactionMacAccumulator) (command fileNumber : UInt8)
    (offset length dataLength : ℕ) :
    dfcTransactionMacAccumulatorAddZeroData aes a command fileNumber offset length dataLength =
      dfcTransactionMacAccumulatorAddData aes a command fileNumber offset length
        (List.replicate dataLength 0) := by
  unfold dfcTransactionMacAccumulatorAddZeroData dfcTransactionMacAccumulatorAddData entryData
  split_ifs with h
  · simp only [Option.bind_some, accumulatorAddEntry, accumulatorAddSegmentsAndZeroes,
      TransactionMacEntry.octets, padded_replicate, List.replicate_zero, List.append_nil]
  · rfl

/-- The accumulator without its key. -/
def DfcTransactionMacAccumulator.toCmac (a : DfcTransactionMacAccumulator) : Cmac.Accumulator :=
  { chain := a.chain, pending := if a.hasPending then some a.pending else none }

theorem toCmac_pushBlock (a : DfcTransactionMacAccumulator) (block : List UInt8) :
    (accumulatorPushBlock aes a block).toCmac = a.toCmac.pushBlock (aes a.sessionKey) block := by
  unfold accumulatorPushBlock DfcTransactionMacAccumulator.toCmac Cmac.Accumulator.pushBlock
  cases a.hasPending <;> rfl

theorem accumulatorPush_foldl (octets : List UInt8)
    (s : DfcTransactionMacAccumulator × List UInt8) :
    let r := octets.foldl (accumulatorPush aes) s
    r.1.sessionKey = s.1.sessionKey ∧ r.1.initialized = s.1.initialized ∧
      (r.1.toCmac, r.2) =
        octets.foldl (Cmac.Accumulator.push (aes s.1.sessionKey)) (s.1.toCmac, s.2) := by
  induction octets generalizing s with
  | nil => exact ⟨rfl, rfl, rfl⟩
  | cons octet octets ih =>
    obtain ⟨hkey, hinit, hfold⟩ := ih (accumulatorPush aes s octet)
    have hstep : (accumulatorPush aes s octet).1.sessionKey = s.1.sessionKey ∧
        (accumulatorPush aes s octet).1.initialized = s.1.initialized ∧
        ((accumulatorPush aes s octet).1.toCmac, (accumulatorPush aes s octet).2) =
          Cmac.Accumulator.push (aes s.1.sessionKey) (s.1.toCmac, s.2) octet := by
      unfold accumulatorPush Cmac.Accumulator.push
      split_ifs
      · exact ⟨rfl, rfl, by rw [toCmac_pushBlock]⟩
      · exact ⟨rfl, rfl, rfl⟩
    obtain ⟨hk, hi, hs⟩ := hstep
    rw [hk, hs] at hfold
    exact ⟨hkey.trans hk, hinit.trans hi, hfold⟩

/-- An accumulator under `sessionKey` that has taken in `message`. -/
structure AccumulatorHolds (a : DfcTransactionMacAccumulator) (sessionKey message : List UInt8) :
    Prop where
  initialized : a.initialized = true
  key : a.sessionKey = sessionKey
  holds : a.toCmac.Holds (aes sessionKey) message

theorem AccumulatorHolds.init (sessionKey : List UInt8) :
    AccumulatorHolds aes (dfcTransactionMacAccumulatorInit sessionKey) sessionKey [] where
  initialized := rfl
  key := rfl
  holds := .empty _

variable {aes}

/-- An entry is always taken in, and extends the message by its octets. -/
theorem AccumulatorHolds.addEntry {a : DfcTransactionMacAccumulator}
    {sessionKey message : List UInt8} (h : AccumulatorHolds aes a sessionKey message)
    {entry : TransactionMacEntry} (hne : entry.header ≠ []) :
    ∃ a', accumulatorAddEntry aes a entry = some a' ∧
      AccumulatorHolds aes a' sessionKey (message ++ entry.octets) := by
  have hmod := entry.length_octets_mod
  obtain ⟨hopen, hholds⟩ := h.holds.add hmod
  obtain ⟨hkey, hinit, hfold⟩ := accumulatorPush_foldl aes entry.octets (a, [])
  rw [h.key] at hfold
  have hrest : (entry.octets.foldl (accumulatorPush aes) (a, [])).2 = [] :=
    (congrArg Prod.snd hfold).trans hopen
  have hcmac : (entry.octets.foldl (accumulatorPush aes) (a, [])).1.toCmac =
      (a.toCmac.add (aes sessionKey) entry.octets).1 := congrArg Prod.fst hfold
  refine ⟨(entry.octets.foldl (accumulatorPush aes) (a, [])).1, ?_, hinit.trans h.initialized,
    hkey.trans h.key, ?_⟩
  · have hlen : entry.octets.length ≠ 0 := fun h0 =>
      TransactionMacEntry.octets_ne_nil hne (List.eq_nil_of_length_eq_zero h0)
    simp only [accumulatorAddEntry, accumulatorAddSegmentsAndZeroes, List.replicate_zero,
      List.append_nil, h.initialized, hrest, hmod, hlen]
    simp
  · rw [hcmac]
    exact hholds

/-- Something taken in is something to be finalized. -/
theorem AccumulatorHolds.hasPending {a : DfcTransactionMacAccumulator}
    {sessionKey message : List UInt8} (h : AccumulatorHolds aes a sessionKey message)
    (hne : message ≠ []) : a.hasPending = true := by
  have hsome := h.holds.pending_isSome hne
  cases hp : a.hasPending with
  | true => rfl
  | false => simp [DfcTransactionMacAccumulator.toCmac, hp] at hsome

theorem AccumulatorHolds.finalize_eq {a : DfcTransactionMacAccumulator}
    {sessionKey message : List UInt8} (h : AccumulatorHolds aes a sessionKey message)
    (hne : message ≠ []) :
    dfcTransactionMacAccumulatorFinalize aes a = some (aesCmac aes sessionKey message) := by
  have hfinal := h.holds.finalize_eq hne
  have hpending := h.hasPending hne
  rw [dfcTransactionMacAccumulatorFinalize, if_neg (by simp [h.initialized, hpending]), h.key,
    aesCmac, ← hfinal]
  simp [Cmac.Accumulator.finalize, DfcTransactionMacAccumulator.toCmac, hpending]

/-- One operation as a reader reports it. -/
inductive TransactionMacOperation where
  | data (command fileNumber : UInt8) (offset length : ℕ) (data : List UInt8)
  | recordUpdate (command fileNumber : UInt8) (recordNumber offset length : ℕ) (data : List UInt8)
  | value (command fileNumber : UInt8) (value : UInt32)
  | clearRecord (fileNumber : UInt8)
  | readerId (currentReaderId : List UInt8) (encryptedPreviousReaderId : Option (List UInt8))
  deriving Repr, DecidableEq

namespace TransactionMacOperation

/-- The call of the verifier that reports the operation. -/
def feed (v : DfcTransactionMacVerifier) :
    TransactionMacOperation → Except DfcTransactionMacStatus DfcTransactionMacVerifier
  | data command fileNumber offset length octets =>
    dfcTransactionMacAddData v command fileNumber offset length octets
  | recordUpdate command fileNumber recordNumber offset length octets =>
    dfcTransactionMacAddRecordUpdate v command fileNumber recordNumber offset length octets
  | value command fileNumber amount => dfcTransactionMacAddValue v command fileNumber amount
  | clearRecord fileNumber => dfcTransactionMacAddClearRecord v fileNumber
  | readerId current previous => dfcTransactionMacAddReaderId v current previous

/-- The entry the operation stands for. -/
def entry : TransactionMacOperation → Option TransactionMacEntry
  | data command fileNumber offset length octets =>
    entryData command fileNumber offset length octets
  | recordUpdate command fileNumber recordNumber offset length octets =>
    entryRecordUpdate command fileNumber recordNumber offset length octets
  | value command fileNumber amount =>
    some (entryValue command fileNumber (leOctets 4 amount.toNat))
  | clearRecord fileNumber => some (entryClearRecord fileNumber)
  | readerId current previous => some (entryReaderId current previous)

def octets (op : TransactionMacOperation) : List UInt8 :=
  (op.entry.map TransactionMacEntry.octets).getD []

/-- The command octet belongs to the call, and the data is as long as it says. -/
def IsReportable : TransactionMacOperation → Prop
  | data command _ _ length octets =>
    (namesDataLength command = true ∧ octets.length = length) ∨
      command = dfcCmdReadRecords ∨ command = dfcCmdReadRecordsIso
  | recordUpdate command _ _ _ length octets =>
    (command = dfcCmdUpdateRecord ∨ command = dfcCmdUpdateRecordIso) ∧ octets.length = length
  | value command _ _ =>
    command = dfcCmdGetValue ∨ command = dfcCmdCredit ∨ command = dfcCmdDebit ∨
      command = dfcCmdLimitedCredit
  | clearRecord _ => True
  | readerId _ _ => True

theorem feed_eq {op : TransactionMacOperation} (h : op.IsReportable) {e : TransactionMacEntry}
    (he : op.entry = some e) (v : DfcTransactionMacVerifier) : op.feed v = appendEntry v e := by
  cases op with
  | data command fileNumber offset length octets =>
    have hlen : ¬(namesDataLength command = true ∧ octets.length ≠ length) := by
      rintro ⟨hnames, hne⟩
      obtain ⟨-, heq⟩ | rfl | rfl := h
      · exact hne heq
      · exact absurd hnames (by decide)
      · exact absurd hnames (by decide)
    have hknown : ¬(namesDataLength command = false ∧ command ≠ dfcCmdReadRecords ∧
        command ≠ dfcCmdReadRecordsIso) := by
      rintro ⟨hnames, hread, hreadIso⟩
      obtain ⟨hnames', -⟩ | rfl | rfl := h
      · exact absurd (hnames.symm.trans hnames') Bool.false_ne_true
      · exact hread rfl
      · exact hreadIso rfl
    have he' : entryData command fileNumber offset length octets = some e := he
    rw [feed, dfcTransactionMacAddData, if_neg hlen, if_neg hknown, he']
  | recordUpdate command fileNumber recordNumber offset length octets =>
    have hknown : ¬((command ≠ dfcCmdUpdateRecord ∧ command ≠ dfcCmdUpdateRecordIso) ∨
        octets.length ≠ length) := by
      rintro (⟨hne, hneIso⟩ | hlen)
      · exact h.1.elim hne hneIso
      · exact hlen h.2
    have he' : entryRecordUpdate command fileNumber recordNumber offset length octets = some e := he
    rw [feed, dfcTransactionMacAddRecordUpdate, if_neg hknown, he']
  | value command fileNumber amount =>
    have hknown : ¬(command ≠ dfcCmdGetValue ∧ command ≠ dfcCmdCredit ∧ command ≠ dfcCmdDebit ∧
        command ≠ dfcCmdLimitedCredit) := by
      rintro ⟨h1, h2, h3, h4⟩
      obtain rfl | rfl | rfl | rfl := h
      · exact h1 rfl
      · exact h2 rfl
      · exact h3 rfl
      · exact h4 rfl
    rw [feed, dfcTransactionMacAddValue, if_neg hknown, Option.some.inj he]
  | clearRecord fileNumber => rw [feed, dfcTransactionMacAddClearRecord, Option.some.inj he]
  | readerId current previous => rw [feed, dfcTransactionMacAddReaderId, Option.some.inj he]

/-- Reports a series of operations, in order. -/
def feedAll (v : DfcTransactionMacVerifier) (ops : List TransactionMacOperation) :
    Except DfcTransactionMacStatus DfcTransactionMacVerifier :=
  ops.foldlM feed v

/-- Every reportable series is taken in as far as the buffer reaches. -/
theorem feedAll_eq_ok {ops : List TransactionMacOperation} {v : DfcTransactionMacVerifier}
    (h : ∀ op ∈ ops, op.IsReportable ∧ op.entry.isSome = true)
    (hfit : v.input.length + (ops.flatMap octets).length ≤ v.inputCapacity) :
    ∃ v', feedAll v ops = .ok v' ∧ v'.input = v.input ++ ops.flatMap octets ∧ v'.key = v.key ∧
      v'.uid = v.uid ∧ v'.counter = v.counter := by
  induction ops generalizing v with
  | nil => exact ⟨v, rfl, by simp, rfl, rfl, rfl⟩
  | cons op ops ih =>
    obtain ⟨hop, hsome⟩ := h op List.mem_cons_self
    obtain ⟨e, he⟩ := Option.isSome_iff_exists.1 hsome
    have hoctets : op.octets = e.octets := by rw [octets, he]; rfl
    rw [List.flatMap_cons, List.length_append, hoctets] at hfit
    have happend : appendEntry v e = .ok { v with
        input := v.input ++ e.octets
        fits := by rw [List.length_append]; omega } := dif_pos (by omega)
    obtain ⟨v', hfeed, hinput, hkey, huid, hcounter⟩ :=
      ih (v := { v with
        input := v.input ++ e.octets
        fits := by rw [List.length_append]; omega })
        (fun op' hop' => h op' (List.mem_cons_of_mem _ hop'))
        (by simp only [List.length_append]; omega)
    refine ⟨v', ?_, ?_, hkey, huid, hcounter⟩
    · rw [feedAll, List.foldlM_cons, feed_eq hop he, happend]
      exact hfeed
    · rw [hinput, List.flatMap_cons, hoctets, List.append_assoc]

/-- A code over the entries of a series passes for the verifier that is told the series. -/
theorem verify_feedAll {ops : List TransactionMacOperation} {key uid sessionKey : List UInt8}
    {counter : UInt32} {capacity : ℕ} (h : ∀ op ∈ ops, op.IsReportable ∧ op.entry.isSome = true)
    (hne : ops.flatMap octets ≠ [])
    (hkey : dfcTransactionMacDeriveSessionKey aes key uid counter = some sessionKey)
    (hfit : (ops.flatMap octets).length ≤ capacity) :
    (do
      let v ← dfcTransactionMacVerifierInit capacity key uid counter
      let v ← feedAll v ops
      dfcTransactionMacVerify aes v
        (dfcTruncateAesWireMac (aesCmac aes sessionKey (ops.flatMap octets)))) = .ok true := by
  have hpos : capacity ≠ 0 := by
    have := List.length_pos_iff.2 hne
    omega
  have hparams : ¬(counter = 0 ∨
      (uid.length ≠ dfcDesfireUidShortLen ∧ uid.length ≠ dfcDesfireUidLen)) := by
    intro hbad
    rw [dfcTransactionMacDeriveSessionKey, if_pos hbad] at hkey
    cases hkey
  have hinit : dfcTransactionMacVerifierInit capacity key uid counter =
      .ok { key, uid, counter, inputCapacity := capacity, input := [], fits := Nat.zero_le _ } := by
    rw [dfcTransactionMacVerifierInit, if_neg]
    rintro (h0 | hbad)
    · exact hpos h0
    · exact hparams hbad
  obtain ⟨v, hfeed, hinput, hk, hu, hc⟩ := feedAll_eq_ok (v :=
    { key, uid, counter, inputCapacity := capacity, input := [], fits := Nat.zero_le _ }) h
    (by simpa using hfit)
  simp only [List.nil_append] at hinput hk hu hc
  have hlen : v.input.length ≠ 0 := by
    rw [hinput]
    exact fun h0 => hne (List.eq_nil_of_length_eq_zero h0)
  have hverify : dfcTransactionMacVerify aes v
      (dfcTruncateAesWireMac (aesCmac aes sessionKey (ops.flatMap octets))) = .ok true := by
    rw [dfcTransactionMacVerify, if_neg hlen, hk, hu, hc, hkey, hinput]
    simp
  rw [hinit]
  show (feedAll _ ops >>= fun v => dfcTransactionMacVerify aes v _) = _
  rw [hfeed]
  exact hverify

end TransactionMacOperation

end

end DfcCore
