import DfcCore.SegmentedCmac

/-!
# The accumulator under a cipher that may fail

The accumulator of `dfc_transaction_mac.c` with each use of the block cipher an event that may
fail: setting up the context, and chaining a block. `ok` tells for every use, counted from the
start of a call, whether it succeeds. A call works on a candidate and puts it in place only at
its end, so a call that fails leaves the accumulator as it was, and a series of calls with
failures and repetitions ends with the code of the entries that were taken in, in order, as
`dfc_transaction_mac_input_add_*` lays them out. Sizes are bounded by `sizeMax`, the largest of
the platform.
-/
namespace DfcCore
open Cmac

abbrev transactionBlockSize : ℕ := 16

/-- Octets of the longest header. -/
abbrev transactionReaderIdHeaderLength : ℕ := 1 + dfcTransactionReaderIdLength

def entryIsValid (entry : TransactionMacEntry) : Bool :=
  decide (0 < entry.header.length) && decide (entry.header.length ≤ transactionReaderIdHeaderLength)

/-- `padded_length`, refused where it would not fit a size. -/
def paddedLengthFits (sizeMax length : ℕ) : Bool :=
  decide (length + (transactionBlockSize - 1) ≤ sizeMax)

/-- `append_entry`: the buffer after it, where the entry fits. -/
def appendEntryInput (sizeMax inputCapacity : ℕ) (input : List UInt8)
    (entry : TransactionMacEntry) : Option (List UInt8) :=
  if entryIsValid entry = false ∨ inputCapacity < input.length then none
  else if paddedLengthFits sizeMax entry.header.length = false ∨
      paddedLengthFits sizeMax entry.data.length = false ∨
      sizeMax < paddedLength entry.header.length + paddedLength entry.data.length then none
  else if inputCapacity - input.length <
      paddedLength entry.header.length + paddedLength entry.data.length then none
  else some (input ++ padded entry.header ++ padded entry.data)

namespace CipherFailure
variable (aes : List UInt8 → List UInt8 → List UInt8) (sizeMax : ℕ) (ok : ℕ → Bool)

/-- The candidate, the block that is open, and the uses of the cipher so far. -/
structure Gathered where
  candidate : DfcTransactionMacAccumulator
  block : List UInt8
  uses : ℕ

/-- `accumulator_push_block`: a block held back is chained before it is replaced. -/
def accumulatorPushBlock (a : DfcTransactionMacAccumulator) (block : List UInt8) (uses : ℕ) :
    Option Gathered :=
  if a.hasPending then
    if ok uses then some ⟨DfcCore.accumulatorPushBlock aes a block, [], uses + 1⟩ else none
  else some ⟨DfcCore.accumulatorPushBlock aes a block, [], uses⟩

/-- Octets copied behind the open block, which is pushed when it is whole. -/
def gather (s : Gathered) (octets : List UInt8) : Option Gathered :=
  if (s.block ++ octets).length = transactionBlockSize then
    accumulatorPushBlock aes ok s.candidate (s.block ++ octets) s.uses
  else some { s with block := s.block ++ octets }

/-- The loop over a segment. A turn takes at least one octet. -/
def gatherSegment : ℕ → Gathered → List UInt8 → Option Gathered
  | 0, s, _ => some s
  | turns + 1, s, data =>
    if data = [] then some s
    else
      let taken := min (transactionBlockSize - s.block.length) data.length
      (gather aes ok s (data.take taken)).bind fun s => gatherSegment turns s (data.drop taken)

/-- The loop over zeros that are nowhere in memory. -/
def gatherZeroes : ℕ → Gathered → ℕ → Option Gathered
  | 0, s, _ => some s
  | turns + 1, s, zeroLength =>
    if zeroLength = 0 then some s
    else
      let taken := min (transactionBlockSize - s.block.length) zeroLength
      (gather aes ok s (List.replicate taken 0)).bind fun s =>
        gatherZeroes turns s (zeroLength - taken)

/-- One segment, with the total length so far. -/
def addSegment (s : Gathered × ℕ) (segment : List UInt8) : Option (Gathered × ℕ) :=
  if sizeMax < s.2 + segment.length then none
  else (gatherSegment aes ok segment.length s.1 segment).map fun g => (g, s.2 + segment.length)

/-- The candidate of `accumulator_add_segments_and_zeroes`. The first use of the cipher is that
of the context. -/
def addSegmentsAndZeroes (a : DfcTransactionMacAccumulator) (segments : List (List UInt8))
    (zeroLength : ℕ) : Option DfcTransactionMacAccumulator :=
  if a.initialized = false ∨ segments = [] ∨ ok 0 = false then none
  else
    (segments.foldlM (addSegment aes sizeMax ok) (⟨a, [], 1⟩, zeroLength)).bind fun s =>
      (gatherZeroes aes ok zeroLength s.1 zeroLength).bind fun g =>
        if s.2 = 0 ∨ g.block.length ≠ 0 ∨ s.2 % transactionBlockSize ≠ 0 then none
        else some g.candidate

/-- `accumulator_add_segments_and_zeroes`: whether it succeeds, and the accumulator after it. -/
def accumulatorAddSegmentsAndZeroes (a : DfcTransactionMacAccumulator)
    (segments : List (List UInt8)) (zeroLength : ℕ) : Bool × DfcTransactionMacAccumulator :=
  match addSegmentsAndZeroes aes sizeMax ok a segments zeroLength with
  | none => (false, a)
  | some candidate => (true, candidate)

def accumulatorAddEntry (a : DfcTransactionMacAccumulator) (entry : TransactionMacEntry) :
    Bool × DfcTransactionMacAccumulator :=
  if entryIsValid entry = false ∨ paddedLengthFits sizeMax entry.header.length = false ∨
      paddedLengthFits sizeMax entry.data.length = false ∨
      2 * transactionBlockSize < paddedLength entry.header.length then (false, a)
  else
    accumulatorAddSegmentsAndZeroes aes sizeMax ok a
      [padded entry.header, entry.data,
        List.replicate (paddedLength entry.data.length - entry.data.length) 0] 0

/-- A call of the accumulator. -/
inductive AccumulatorCall where
  | data (command fileNumber : UInt8) (offset length : ℕ) (data : List UInt8)
  | zeroData (command fileNumber : UInt8) (offset length dataLength : ℕ)
  | recordUpdate (command fileNumber : UInt8) (recordNumber offset length : ℕ) (data : List UInt8)
  | value (command fileNumber : UInt8) (value : List UInt8)
  | clearRecord (fileNumber : UInt8)
  | readerId (currentReaderId : List UInt8) (encryptedPreviousReaderId : Option (List UInt8))
  deriving Repr, DecidableEq

namespace AccumulatorCall

/-- The entry of a call, zeros that are nowhere in memory written out. -/
def entry : AccumulatorCall → Option TransactionMacEntry
  | data command fileNumber offset length octets =>
    entryData command fileNumber offset length octets
  | zeroData command fileNumber offset length dataLength =>
    entryData command fileNumber offset length (List.replicate dataLength 0)
  | recordUpdate command fileNumber recordNumber offset length octets =>
    entryRecordUpdate command fileNumber recordNumber offset length octets
  | value command fileNumber octets => some (entryValue command fileNumber octets)
  | clearRecord fileNumber => some (entryClearRecord fileNumber)
  | readerId current previous => some (entryReaderId current previous)

/-- `dfc_transaction_mac_accumulator_add_zero_data`. -/
def addZeroData (a : DfcTransactionMacAccumulator) (command fileNumber : UInt8)
    (offset length dataLength : ℕ) : Bool × DfcTransactionMacAccumulator :=
  match entryData command fileNumber offset length [] with
  | none => (false, a)
  | some entry =>
    if paddedLengthFits sizeMax dataLength = false then (false, a)
    else
      accumulatorAddSegmentsAndZeroes aes sizeMax ok a
        [entry.header ++ List.replicate (transactionBlockSize - entry.header.length) 0]
        (paddedLength dataLength)

/-- The call itself: whether it succeeds, and the accumulator after it. -/
def run (a : DfcTransactionMacAccumulator) (call : AccumulatorCall) :
    Bool × DfcTransactionMacAccumulator :=
  match call with
  | zeroData command fileNumber offset length dataLength =>
    addZeroData aes sizeMax ok a command fileNumber offset length dataLength
  | call =>
    match call.entry with
    | none => (false, a)
    | some entry => accumulatorAddEntry aes sizeMax ok a entry

/-- The corresponding `dfc_transaction_mac_input_add_*`. -/
def addInput (inputCapacity : ℕ) (input : List UInt8) (call : AccumulatorCall) :
    Option (List UInt8) :=
  call.entry.bind (appendEntryInput sizeMax inputCapacity input)

end AccumulatorCall

section
variable {aes : List UInt8 → List UInt8 → List UInt8} {sizeMax : ℕ} {ok : ℕ → Bool}

/-- What holds between two turns: the open block is not whole. -/
theorem length_block_gather {s s' : Gathered} {octets : List UInt8}
    (hroom : s.block.length + octets.length ≤ transactionBlockSize)
    (h : gather aes ok s octets = some s') : s'.block.length < transactionBlockSize := by
  unfold gather accumulatorPushBlock at h
  split_ifs at h with hfull hpending hok
  · rw [← Option.some.inj h]
    exact Nat.zero_lt_succ _
  · rw [← Option.some.inj h]
    exact Nat.zero_lt_succ _
  · rw [← Option.some.inj h]
    rw [List.length_append] at hfull ⊢
    omega

/-- Octets the open block has room for may be copied one after another. -/
theorem gather_eq_foldlM {s : Gathered} (octets : List UInt8)
    (hblock : s.block.length < transactionBlockSize)
    (hroom : s.block.length + octets.length ≤ transactionBlockSize) :
    gather aes ok s octets = octets.foldlM (fun s octet => gather aes ok s [octet]) s := by
  induction octets generalizing s with
  | nil =>
    have hshort : (s.block ++ []).length ≠ transactionBlockSize := by
      rw [List.append_nil]
      omega
    rw [gather, if_neg hshort, List.append_nil]
    rfl
  | cons octet octets ih =>
    rw [List.length_cons] at hroom
    rw [List.foldlM_cons]
    by_cases hlast : octets = []
    · rw [hlast]
      exact (bind_pure _).symm
    · have hpos := List.length_pos_iff.mpr hlast
      have hlen : (s.block ++ [octet]).length = s.block.length + 1 := by simp
      have hone : gather aes ok s [octet] = some { s with block := s.block ++ [octet] } := by
        rw [gather, if_neg (by omega)]
      have hrest := @ih { s with block := s.block ++ [octet] } (by rw [hlen]; omega)
        (by rw [hlen]; omega)
      rw [hone]
      refine Eq.trans ?_ hrest
      simp only [gather, List.append_assoc, List.singleton_append]

theorem gatherSegment_eq_foldlM (turns : ℕ) {s : Gathered} {data : List UInt8}
    (hblock : s.block.length < transactionBlockSize) (hturns : data.length ≤ turns) :
    gatherSegment aes ok turns s data =
      data.foldlM (fun s octet => gather aes ok s [octet]) s := by
  induction turns generalizing s data with
  | zero =>
    have hnil : data = [] := List.length_eq_zero_iff.mp (by omega)
    rw [hnil]
    rfl
  | succ turns ih =>
    unfold gatherSegment
    by_cases hnil : data = []
    · rw [if_pos hnil, hnil]
      rfl
    have hpos := List.length_pos_iff.mpr hnil
    have hroom : s.block.length + (data.take
        (min (transactionBlockSize - s.block.length) data.length)).length ≤
          transactionBlockSize := by
      rw [List.length_take]
      omega
    rw [if_neg hnil]
    simp only
    conv_rhs => rw [← List.take_append_drop
      (min (transactionBlockSize - s.block.length) data.length) data, List.foldlM_append,
      ← gather_eq_foldlM _ hblock hroom]
    refine Option.bind_congr fun s' hs' => ?_
    exact ih (length_block_gather hroom hs') (by rw [List.length_drop]; omega)

/-- Zeros that are nowhere in memory are gathered as a segment of zeros. -/
theorem gatherZeroes_eq_gatherSegment (turns : ℕ) (s : Gathered) (zeroLength : ℕ) :
    gatherZeroes aes ok turns s zeroLength =
      gatherSegment aes ok turns s (List.replicate zeroLength 0) := by
  induction turns generalizing s zeroLength with
  | zero => rfl
  | succ turns ih =>
    unfold gatherZeroes gatherSegment
    simp only [List.replicate_eq_nil_iff, List.length_replicate, List.take_replicate,
      List.drop_replicate, ih, Nat.min_assoc, Nat.min_self]

theorem length_block_foldlM {s s' : Gathered} {data : List UInt8}
    (hblock : s.block.length < transactionBlockSize)
    (h : data.foldlM (fun s octet => gather aes ok s [octet]) s = some s') :
    s'.block.length < transactionBlockSize := by
  induction data generalizing s with
  | nil =>
    cases h
    exact hblock
  | cons octet data ih =>
    rw [List.foldlM_cons] at h
    obtain ⟨next, hnext, hrest⟩ := Option.bind_eq_some_iff.mp h
    exact ih (length_block_gather (by simpa using hblock) hnext) hrest

/-- Segments are gathered as the octets of their concatenation, where their lengths fit. -/
theorem foldlM_addSegment (segments : List (List UInt8)) {s : Gathered} {total : ℕ}
    (hblock : s.block.length < transactionBlockSize) (htotal : total ≤ sizeMax) :
    segments.foldlM (addSegment aes sizeMax ok) (s, total) =
      if total + segments.flatten.length ≤ sizeMax then
        (segments.flatten.foldlM (fun s octet => gather aes ok s [octet]) s).map fun g =>
          (g, total + segments.flatten.length)
      else none := by
  induction segments generalizing s total with
  | nil =>
    rw [List.flatten_nil, List.length_nil, Nat.add_zero, if_pos htotal]
    rfl
  | cons segment segments ih =>
    rw [List.foldlM_cons, List.flatten_cons, List.length_append, ← Nat.add_assoc, addSegment]
    by_cases hover : sizeMax < total + segment.length
    · rw [if_pos hover, if_neg (by omega)]
      rfl
    rw [if_neg hover, gatherSegment_eq_foldlM _ hblock le_rfl, List.foldlM_append]
    cases hsegment : segment.foldlM (fun s octet => gather aes ok s [octet]) s with
    | none =>
      rw [Option.map_none]
      split_ifs <;> rfl
    | some next =>
      rw [Option.map_some]
      exact ih (length_block_foldlM hblock hsegment) (Nat.not_lt.mp hover)

/-- The candidate after a string of octets, which must be whole blocks. -/
def takeOctets (aes : List UInt8 → List UInt8 → List UInt8) (ok : ℕ → Bool)
    (a : DfcTransactionMacAccumulator) (octets : List UInt8) :
    Option DfcTransactionMacAccumulator :=
  (octets.foldlM (fun s octet => gather aes ok s [octet]) ⟨a, [], 1⟩).bind fun g =>
    if octets.length = 0 ∨ g.block.length ≠ 0 ∨ octets.length % transactionBlockSize ≠ 0 then none
    else some g.candidate

/-- The candidate is that after all octets of the call. -/
theorem addSegmentsAndZeroes_eq (aes : List UInt8 → List UInt8 → List UInt8) (ok : ℕ → Bool)
    (a : DfcTransactionMacAccumulator)
    {segments : List (List UInt8)} (hne : segments ≠ []) {zeroLength : ℕ}
    (hzero : zeroLength ≤ sizeMax) :
    addSegmentsAndZeroes aes sizeMax ok a segments zeroLength =
      if a.initialized = true ∧ ok 0 = true ∧
          (segments.flatten ++ List.replicate zeroLength 0).length ≤ sizeMax then
        takeOctets aes ok a (segments.flatten ++ List.replicate zeroLength 0)
      else none := by
  have hopen : ([] : List UInt8).length < transactionBlockSize := by decide
  have hlen : (segments.flatten ++ List.replicate zeroLength (0 : UInt8)).length =
      zeroLength + segments.flatten.length := by
    rw [List.length_append, List.length_replicate, Nat.add_comm]
  unfold addSegmentsAndZeroes takeOctets
  by_cases hguard : a.initialized = false ∨ segments = [] ∨ ok 0 = false
  · rw [if_pos hguard, if_neg]
    rintro ⟨hinit, hok, -⟩
    simp [hinit, hok, hne] at hguard
  rw [if_neg hguard, foldlM_addSegment segments hopen hzero, hlen]
  simp only [not_or, Bool.not_eq_false] at hguard
  by_cases hfits : zeroLength + segments.flatten.length ≤ sizeMax
  · rw [if_pos hfits, if_pos ⟨hguard.1, hguard.2.2, hfits⟩, List.foldlM_append]
    cases hsegments : segments.flatten.foldlM (fun s octet => gather aes ok s [octet])
        ⟨a, [], 1⟩ with
    | none => rfl
    | some next =>
      have hnext := length_block_foldlM hopen hsegments
      rw [Option.map_some, Option.bind_some, gatherZeroes_eq_gatherSegment,
        gatherSegment_eq_foldlM _ hnext (by rw [List.length_replicate])]
      rfl
  · rw [if_neg hfits, if_neg (fun h => hfits h.2.2)]
    rfl

/-- A use of the cipher that succeeds does what the cipher does. -/
theorem gather_octet {s s' : Gathered} {octet : UInt8}
    (h : gather aes ok s [octet] = some s') :
    (s'.candidate, s'.block) = accumulatorPush aes (s.candidate, s.block) octet := by
  unfold gather accumulatorPushBlock at h
  unfold accumulatorPush
  split_ifs at h ⊢ with hfull hpending hok <;> rw [← Option.some.inj h]

theorem foldlM_gather {data : List UInt8} {s s' : Gathered}
    (h : data.foldlM (fun s octet => gather aes ok s [octet]) s = some s') :
    (s'.candidate, s'.block) = data.foldl (accumulatorPush aes) (s.candidate, s.block) := by
  induction data generalizing s with
  | nil =>
    cases h
    rfl
  | cons octet data ih =>
    rw [List.foldlM_cons] at h
    obtain ⟨next, hnext, hrest⟩ := Option.bind_eq_some_iff.mp h
    rw [List.foldl_cons, ← gather_octet hnext]
    exact ih hrest

/-- A cipher that always succeeds gathers every string. -/
theorem exists_foldlM_gather (aes : List UInt8 → List UInt8 → List UInt8) (data : List UInt8)
    (s : Gathered) :
    ∃ s', data.foldlM (fun s octet => gather aes (fun _ => true) s [octet]) s = some s' := by
  induction data generalizing s with
  | nil => exact ⟨s, rfl⟩
  | cons octet data ih =>
    obtain ⟨next, hnext⟩ : ∃ next, gather aes (fun _ => true) s [octet] = some next := by
      unfold gather accumulatorPushBlock
      simp only [if_true]
      split_ifs <;> exact ⟨_, rfl⟩
    obtain ⟨s', hs'⟩ := ih next
    exact ⟨s', by rw [List.foldlM_cons, hnext]; exact hs'⟩

/-- The lengths of an entry that a call accepts. -/
structure EntryFits (sizeMax : ℕ) (entry : TransactionMacEntry) : Prop where
  valid : entryIsValid entry = true
  header : paddedLengthFits sizeMax entry.header.length = true
  data : paddedLengthFits sizeMax entry.data.length = true
  total : entry.octets.length ≤ sizeMax

theorem length_entry_octets (entry : TransactionMacEntry) :
    entry.octets.length = paddedLength entry.header.length + paddedLength entry.data.length := by
  rw [TransactionMacEntry.octets, List.length_append, length_padded, length_padded]

theorem header_ne_nil {entry : TransactionMacEntry} (h : entryIsValid entry = true) :
    entry.header ≠ [] := by
  simp only [entryIsValid, Bool.and_eq_true, decide_eq_true_eq] at h
  exact List.length_pos_iff.mp h.1

/-- The segments of an entry are its octets. -/
theorem entry_segments (entry : TransactionMacEntry) :
    [padded entry.header, entry.data,
        List.replicate (paddedLength entry.data.length - entry.data.length) 0].flatten ++
      List.replicate 0 0 = entry.octets := by
  simp [TransactionMacEntry.octets, padded]

theorem accumulatorAddEntry_of_fits {a : DfcTransactionMacAccumulator}
    {entry : TransactionMacEntry} (hfits : EntryFits sizeMax entry)
    (hinit : a.initialized = true) (hok : ok 0 = true) :
    accumulatorAddEntry aes sizeMax ok a entry =
      match takeOctets aes ok a entry.octets with
      | none => (false, a)
      | some candidate => (true, candidate) := by
  have hvalid := hfits.valid
  simp only [entryIsValid, Bool.and_eq_true, decide_eq_true_eq] at hvalid
  have hheader : ¬ 2 * transactionBlockSize < paddedLength entry.header.length := by
    simp only [paddedLength, blockSize, transactionBlockSize, transactionReaderIdHeaderLength,
      dfcTransactionReaderIdLength] at hvalid ⊢
    omega
  have hguard : ¬(entryIsValid entry = false ∨
      paddedLengthFits sizeMax entry.header.length = false ∨
      paddedLengthFits sizeMax entry.data.length = false ∨
      2 * transactionBlockSize < paddedLength entry.header.length) := by
    simp [hfits.valid, hfits.header, hfits.data, hheader]
  rw [accumulatorAddEntry, if_neg hguard, accumulatorAddSegmentsAndZeroes,
    addSegmentsAndZeroes_eq aes ok a (List.cons_ne_nil _ _) (Nat.zero_le _), entry_segments,
    if_pos ⟨hinit, hok, hfits.total⟩]

theorem accumulatorAddEntry_of_not_fits {a : DfcTransactionMacAccumulator}
    {entry : TransactionMacEntry}
    (h : ¬(EntryFits sizeMax entry ∧ a.initialized = true ∧ ok 0 = true)) :
    accumulatorAddEntry aes sizeMax ok a entry = (false, a) := by
  unfold accumulatorAddEntry
  split_ifs with hguard
  · rfl
  rw [accumulatorAddSegmentsAndZeroes,
    addSegmentsAndZeroes_eq aes ok a (List.cons_ne_nil _ _) (Nat.zero_le _), entry_segments,
    if_neg]
  rintro ⟨hinit, hok, htotal⟩
  simp only [not_or, Bool.not_eq_false] at hguard
  exact h ⟨⟨hguard.1, hguard.2.1, hguard.2.2.1, htotal⟩, hinit, hok⟩

/-- Where it succeeds, the fallible accumulator does what the other one does. -/
theorem takeOctets_eq_some {a a' : DfcTransactionMacAccumulator} {entry : TransactionMacEntry}
    (hinit : a.initialized = true) (h : takeOctets aes ok a entry.octets = some a') :
    DfcCore.accumulatorAddEntry aes a entry = some a' := by
  obtain ⟨g, hfold, hg⟩ := Option.bind_eq_some_iff.mp h
  have hpair := foldlM_gather hfold
  split_ifs at hg with hwhole
  unfold DfcCore.accumulatorAddEntry DfcCore.accumulatorAddSegmentsAndZeroes
  simp only [hinit, List.replicate_zero, List.append_nil, ← hpair, if_neg hwhole]
  exact hg

theorem takeOctets_of_ok {a a' : DfcTransactionMacAccumulator} {entry : TransactionMacEntry}
    (h : DfcCore.accumulatorAddEntry aes a entry = some a') :
    takeOctets aes (fun _ => true) a entry.octets = some a' := by
  obtain ⟨g, hfold⟩ := exists_foldlM_gather aes entry.octets ⟨a, [], 1⟩
  have hpair := foldlM_gather hfold
  unfold DfcCore.accumulatorAddEntry DfcCore.accumulatorAddSegmentsAndZeroes at h
  simp only [List.replicate_zero, List.append_nil, ← hpair] at h
  split_ifs at h with hinit hwhole
  rw [takeOctets, hfold, Option.bind_some, if_neg hwhole]
  exact h

/-- Zeros that are nowhere in memory and zeros in memory are the same call. -/
theorem addZeroData_eq (aes : List UInt8 → List UInt8 → List UInt8) (ok : ℕ → Bool)
    (hsize : 65535 ≤ sizeMax) (a : DfcTransactionMacAccumulator) (command fileNumber : UInt8)
    (offset length dataLength : ℕ) :
    AccumulatorCall.run aes sizeMax ok a (.zeroData command fileNumber offset length dataLength) =
      AccumulatorCall.run aes sizeMax ok a
        (.data command fileNumber offset length (List.replicate dataLength 0)) := by
  simp only [AccumulatorCall.run, AccumulatorCall.addZeroData, AccumulatorCall.entry, entryData]
  by_cases hvalid : (uint24IsValid offset && uint24IsValid length) = true
  swap
  · simp only [if_neg hvalid]
  simp only [if_pos hvalid]
  generalize hheader : command :: fileNumber :: (leOctets 3 offset ++ leOctets 3 length) = header
  have hlen : header.length = 8 := by simp [← hheader]
  have hpadded : header ++ List.replicate (transactionBlockSize - header.length) 0 =
      padded header := by
    rw [padded, hlen]
    rfl
  have hoctets : [padded header].flatten ++ List.replicate (paddedLength dataLength) 0 =
      (TransactionMacEntry.mk header (List.replicate dataLength 0)).octets := by
    rw [List.flatten_singleton, TransactionMacEntry.octets, padded_replicate]
  have hentry : entryIsValid ⟨header, List.replicate dataLength 0⟩ = true := by
    simp [entryIsValid, hlen, transactionReaderIdHeaderLength, dfcTransactionReaderIdLength]
  have hfitsHeader : paddedLengthFits sizeMax header.length = true := by
    rw [hlen, paddedLengthFits, decide_eq_true_iff, transactionBlockSize]
    omega
  rw [hpadded]
  by_cases hdata : paddedLengthFits sizeMax dataLength = true
  swap
  · rw [if_pos (Bool.not_eq_true _ ▸ hdata), accumulatorAddEntry_of_not_fits]
    rintro ⟨hfits, -⟩
    exact hdata (by simpa using hfits.data)
  have hzero : paddedLength dataLength ≤ sizeMax := by
    rw [paddedLengthFits, decide_eq_true_iff] at hdata
    simp only [paddedLength, blockSize, transactionBlockSize] at hdata ⊢
    omega
  rw [if_neg (by simp [hdata]), accumulatorAddSegmentsAndZeroes,
    addSegmentsAndZeroes_eq aes ok a (List.cons_ne_nil _ _) hzero, hoctets]
  by_cases hfits : a.initialized = true ∧ ok 0 = true ∧
      (TransactionMacEntry.mk header (List.replicate dataLength 0)).octets.length ≤ sizeMax
  · rw [if_pos hfits, accumulatorAddEntry_of_fits ⟨hentry, hfitsHeader, ?_, hfits.2.2⟩ hfits.1
      hfits.2.1]
    simpa using hdata
  · rw [if_neg hfits, accumulatorAddEntry_of_not_fits]
    rintro ⟨h, hinit, hok⟩
    exact hfits ⟨hinit, hok, h.total⟩

namespace AccumulatorCall

/-- The octets a call adds to the message. -/
def octets (call : AccumulatorCall) : List UInt8 :=
  (call.entry.map TransactionMacEntry.octets).getD []

/-- A call is that of its entry. -/
theorem run_eq (hsize : 65535 ≤ sizeMax) (a : DfcTransactionMacAccumulator)
    (call : AccumulatorCall) :
    call.run aes sizeMax ok a =
      match call.entry with
      | none => (false, a)
      | some entry => accumulatorAddEntry aes sizeMax ok a entry := by
  cases call with
  | zeroData command fileNumber offset length dataLength =>
    rw [addZeroData_eq aes ok hsize]
    rfl
  | _ => rfl

/-- What a call that succeeds does, whichever uses of the cipher would have failed. -/
theorem run_eq_true (hsize : 65535 ≤ sizeMax) {a a' : DfcTransactionMacAccumulator}
    {call : AccumulatorCall} (h : call.run aes sizeMax ok a = (true, a')) :
    ∃ entry, call.entry = some entry ∧ EntryFits sizeMax entry ∧ a.initialized = true ∧
      DfcCore.accumulatorAddEntry aes a entry = some a' := by
  rw [run_eq hsize] at h
  cases hentry : call.entry with
  | none => simp [hentry] at h
  | some entry =>
    simp only [hentry] at h
    by_cases hfits : EntryFits sizeMax entry ∧ a.initialized = true ∧ ok 0 = true
    · obtain ⟨hfits, hinit, hok⟩ := hfits
      rw [accumulatorAddEntry_of_fits hfits hinit hok] at h
      cases htake : takeOctets aes ok a entry.octets with
      | none => simp [htake] at h
      | some candidate =>
        simp only [htake, Prod.mk.injEq, true_and] at h
        exact ⟨entry, rfl, hfits, hinit, h ▸ takeOctets_eq_some hinit htake⟩
    · rw [accumulatorAddEntry_of_not_fits hfits] at h
      exact absurd (congrArg Prod.fst h) Bool.false_ne_true

/-- A call that succeeded succeeds in the same way under a cipher that never fails. -/
theorem run_working (hsize : 65535 ≤ sizeMax) {a a' : DfcTransactionMacAccumulator}
    {call : AccumulatorCall} (h : call.run aes sizeMax ok a = (true, a')) :
    call.run aes sizeMax (fun _ => true) a = (true, a') := by
  obtain ⟨entry, hentry, hfits, hinit, hadd⟩ := run_eq_true hsize h
  have hentryRun := @accumulatorAddEntry_of_fits aes sizeMax (fun _ => true) a entry hfits hinit rfl
  rw [run_eq hsize, hentry]
  simp only [hentryRun, takeOctets_of_ok hadd]

/-- A call that fails leaves the accumulator as it was. -/
theorem run_eq_false (hsize : 65535 ≤ sizeMax) {a : DfcTransactionMacAccumulator}
    {call : AccumulatorCall} (h : (call.run aes sizeMax ok a).1 = false) :
    (call.run aes sizeMax ok a).2 = a := by
  rw [run_eq hsize] at h ⊢
  cases hentry : call.entry with
  | none => rfl
  | some entry =>
    simp only [hentry] at h ⊢
    by_cases hfits : EntryFits sizeMax entry ∧ a.initialized = true ∧ ok 0 = true
    · rw [accumulatorAddEntry_of_fits hfits.1 hfits.2.1 hfits.2.2] at h ⊢
      cases htake : takeOctets aes ok a entry.octets with
      | none => rfl
      | some candidate => simp [htake] at h
    · rw [accumulatorAddEntry_of_not_fits hfits]

section
variable (aes sizeMax)

/-- Calls that are made one after another, each with its own failures: the accumulator, and the
calls that succeeded. -/
def attempt (s : DfcTransactionMacAccumulator × List AccumulatorCall)
    (t : (ℕ → Bool) × AccumulatorCall) : DfcTransactionMacAccumulator × List AccumulatorCall :=
  let result := t.2.run aes sizeMax t.1 s.1
  (result.2, if result.1 then s.2 ++ [t.2] else s.2)

/-- A call under a cipher that never fails. -/
def succeed (a : DfcTransactionMacAccumulator) (call : AccumulatorCall) :
    Option DfcTransactionMacAccumulator :=
  let result := call.run aes sizeMax (fun _ => true) a
  if result.1 then some result.2 else none

end

/-- The buffer that the corresponding calls lay out. -/
def buildInput (sizeMax inputCapacity : ℕ) (input : List UInt8) (calls : List AccumulatorCall) :
    Option (List UInt8) := calls.foldlM (addInput sizeMax inputCapacity) input

/-- What holds after any attempts: the calls that succeeded explain the accumulator. -/
structure AttemptsHold (aes : List UInt8 → List UInt8 → List UInt8) (sizeMax : ℕ)
    (sessionKey : List UInt8) (s : DfcTransactionMacAccumulator × List AccumulatorCall) :
    Prop where
  working : s.2.foldlM (succeed aes sizeMax) (dfcTransactionMacAccumulatorInit sessionKey) =
    some s.1
  holds : AccumulatorHolds aes s.1 sessionKey (s.2.flatMap octets)
  fits : ∀ call ∈ s.2, ∃ entry, call.entry = some entry ∧ EntryFits sizeMax entry

theorem AttemptsHold.init (sessionKey : List UInt8) :
    AttemptsHold aes sizeMax sessionKey (dfcTransactionMacAccumulatorInit sessionKey, []) where
  working := rfl
  holds := AccumulatorHolds.init aes sessionKey
  fits := by simp

theorem AttemptsHold.attempt (hsize : 65535 ≤ sizeMax) {sessionKey : List UInt8}
    {s : DfcTransactionMacAccumulator × List AccumulatorCall}
    (h : AttemptsHold aes sizeMax sessionKey s) (t : (ℕ → Bool) × AccumulatorCall) :
    AttemptsHold aes sizeMax sessionKey (AccumulatorCall.attempt aes sizeMax s t) := by
  unfold AccumulatorCall.attempt
  cases hsuccess : (t.2.run aes sizeMax t.1 s.1).1 with
  | false =>
    simp only [hsuccess, run_eq_false hsize hsuccess]
    exact h
  | true =>
    have hrun : t.2.run aes sizeMax t.1 s.1 = (true, (t.2.run aes sizeMax t.1 s.1).2) :=
      Prod.ext hsuccess rfl
    obtain ⟨entry, hentry, hfits, -, hadd⟩ := run_eq_true hsize hrun
    obtain ⟨a', hadd', hholds⟩ := h.holds.addEntry (header_ne_nil hfits.valid)
    obtain rfl : a' = (t.2.run aes sizeMax t.1 s.1).2 :=
      Option.some.inj (hadd'.symm.trans hadd)
    have hsucceed : succeed aes sizeMax s.1 t.2 = some (t.2.run aes sizeMax t.1 s.1).2 := by
      simp [succeed, run_working hsize hrun]
    have hoctets : t.2.octets = entry.octets := by simp [octets, hentry]
    simp only [hsuccess, if_true]
    refine ⟨?_, ?_, ?_⟩
    · rw [List.foldlM_append, h.working]
      simpa using hsucceed
    · rw [List.flatMap_append, List.flatMap_singleton, hoctets]
      exact hholds
    · intro call hcall
      rcases List.mem_append.mp hcall with hold | hnew
      · exact h.fits call hold
      · rw [List.mem_singleton.mp hnew]
        exact ⟨entry, hentry, hfits⟩

theorem AttemptsHold.foldl (hsize : 65535 ≤ sizeMax) {sessionKey : List UInt8}
    {s : DfcTransactionMacAccumulator × List AccumulatorCall}
    (h : AttemptsHold aes sizeMax sessionKey s) (attempts : List ((ℕ → Bool) × AccumulatorCall)) :
    AttemptsHold aes sizeMax sessionKey
      (attempts.foldl (AccumulatorCall.attempt aes sizeMax) s) := by
  induction attempts generalizing s with
  | nil => exact h
  | cons t attempts ih =>
    rw [List.foldl_cons]
    exact ih (h.attempt hsize t)

/-- Entries that fit are laid out one after another as far as the buffer reaches. -/
theorem buildInput_eq {inputCapacity : ℕ} {calls : List AccumulatorCall} {input : List UInt8}
    (hcalls : ∀ call ∈ calls, ∃ entry, call.entry = some entry ∧ EntryFits sizeMax entry)
    (hcapacity : input.length + (calls.flatMap octets).length ≤ inputCapacity) :
    buildInput sizeMax inputCapacity input calls = some (input ++ calls.flatMap octets) := by
  induction calls generalizing input with
  | nil =>
    rw [List.flatMap_nil, List.append_nil]
    rfl
  | cons call calls ih =>
    obtain ⟨entry, hentry, hfits⟩ := hcalls call List.mem_cons_self
    have hoctets : call.octets = entry.octets := by simp [octets, hentry]
    have hlen := length_entry_octets entry
    rw [List.flatMap_cons, List.length_append, hoctets] at hcapacity
    have htotal := hfits.total
    have happend : call.addInput sizeMax inputCapacity input = some (input ++ entry.octets) := by
      rw [addInput, hentry, Option.bind_some, appendEntryInput,
        if_neg (by simp [hfits.valid]; omega), if_neg (by simp [hfits.header, hfits.data]; omega),
        if_neg (by omega), List.append_assoc, TransactionMacEntry.octets]
    have hrest := @ih (input ++ entry.octets)
      (fun call hcall => hcalls call (List.mem_cons_of_mem _ hcall))
      (by rw [List.length_append]; omega)
    rw [buildInput, List.foldlM_cons, happend, List.flatMap_cons, hoctets, ← List.append_assoc]
    exact hrest

end AccumulatorCall

/-- Whatever calls are made on an accumulator, and whichever uses of the cipher fail in them:
the code at the end is that of `aes_cmac` over the buffer that `dfc_transaction_mac_input_add_*`
lays out for the calls that succeeded, in order; it is the one they give under a cipher that
never fails; a call that fails leaves the accumulator alone; and zeros that are nowhere in
memory count as zeros. -/
theorem transactionMacAccumulator_eq_oneShot (aes : BlockCipher 16) (sizeMax : ℕ)
    (hsize : 65535 ≤ sizeMax) (sessionKey : List UInt8)
    (attempts : List ((ℕ → Bool) × AccumulatorCall)) :
    let run := attempts.foldl (AccumulatorCall.attempt aes.encrypt sizeMax)
      (dfcTransactionMacAccumulatorInit sessionKey, [])
    (∀ inputCapacity, (run.2.flatMap AccumulatorCall.octets).length ≤ inputCapacity →
      run.2 ≠ [] → ∃ input mac,
        AccumulatorCall.buildInput sizeMax inputCapacity [] run.2 = some input ∧
        dfcTransactionMacAccumulatorFinalize aes.encrypt run.1 = some mac ∧
        dfcAesCmacContextCompute aes sessionKey sizeMax [input] zeroBlock .standard =
          if input.length + 15 ≤ sizeMax then some mac else none) ∧
    run.2.foldlM (AccumulatorCall.succeed aes.encrypt sizeMax)
      (dfcTransactionMacAccumulatorInit sessionKey) = some run.1 ∧
    (∀ ok call, (AccumulatorCall.run aes.encrypt sizeMax ok run.1 call).1 = false →
      (AccumulatorCall.run aes.encrypt sizeMax ok run.1 call).2 = run.1) ∧
    ∀ ok command fileNumber offset length dataLength,
      AccumulatorCall.run aes.encrypt sizeMax ok run.1
          (.zeroData command fileNumber offset length dataLength) =
        AccumulatorCall.run aes.encrypt sizeMax ok run.1
          (.data command fileNumber offset length (List.replicate dataLength 0)) := by
  intro run
  have hrun : AccumulatorCall.AttemptsHold aes.encrypt sizeMax sessionKey run :=
    (AccumulatorCall.AttemptsHold.init sessionKey).foldl hsize attempts
  refine ⟨?_, hrun.working, fun ok call h => AccumulatorCall.run_eq_false hsize h,
    fun ok => addZeroData_eq aes.encrypt ok hsize run.1⟩
  intro inputCapacity hcapacity hne
  have hbuild := @AccumulatorCall.buildInput_eq sizeMax inputCapacity run.2 [] hrun.fits
    (by simpa using hcapacity)
  rw [List.nil_append] at hbuild
  have hmessage : run.2.flatMap AccumulatorCall.octets ≠ [] := by
    obtain ⟨call, calls, hcalls⟩ := List.exists_cons_of_ne_nil hne
    obtain ⟨entry, hentry, hfits⟩ := hrun.fits call (by simp [hcalls])
    have hoctets : call.octets = entry.octets := by simp [AccumulatorCall.octets, hentry]
    rw [hcalls, List.flatMap_cons, hoctets]
    simp [TransactionMacEntry.octets_ne_nil (header_ne_nil hfits.valid)]
  exact ⟨_, _, hbuild, hrun.holds.finalize_eq hmessage, dfcAesCmacContextCompute_eq_aesCmac ..⟩

/-- A value is entered with the cipher failing at first, and again. -/
theorem transactionMacAccumulator_eq_oneShot_retried :
    ∃ input mac,
      AccumulatorCall.buildInput 65535 16 []
        [.value dfcCmdCredit 1 [1, 0, 0, 0]] = some input ∧
      dfcTransactionMacAccumulatorFinalize (identityCipher 16).encrypt
        ([(fun _ => false, .value dfcCmdCredit 1 [1, 0, 0, 0]),
          (fun _ => true, .value dfcCmdCredit 1 [1, 0, 0, 0])].foldl
            (AccumulatorCall.attempt (identityCipher 16).encrypt 65535)
            (dfcTransactionMacAccumulatorInit [], [])).1 = some mac ∧
      dfcAesCmacContextCompute (identityCipher 16) [] 65535 [input] zeroBlock .standard =
        if input.length + 15 ≤ 65535 then some mac else none :=
  (transactionMacAccumulator_eq_oneShot (identityCipher 16) 65535 le_rfl []
    [(fun _ => false, .value dfcCmdCredit 1 [1, 0, 0, 0]),
      (fun _ => true, .value dfcCmdCredit 1 [1, 0, 0, 0])]).1 16 (by decide +kernel)
    (by decide +kernel)

end

end CipherFailure

end DfcCore
