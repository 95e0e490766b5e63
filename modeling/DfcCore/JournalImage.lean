import DfcCore.JournalSettled
import DfcCore.PoolFrames
import DfcCore.TransactionalStore

/-!
# The card as a transactional store

The contents of a file are its octets and, for a record file, how many records it holds and how
long they are. The file pool holds what a file shows; what is committed stands in the journal for
the files a transaction has touched, and in the file pool for all others. `JournalSound` is what
makes this true: every pre-image has its own place in the journal, there is room for those not
yet taken, and a file without a pending write shows what is committed.
-/
namespace DfcCore
open Der
open scoped BigOperators

structure Contents where
  size : ℕ
  count : ℕ
  octets : List UInt8
  deriving Repr, DecidableEq

/-- What a new file holds: zeros, and no record. -/
def Contents.Blank (x : Contents) : Prop := x.count = 0 ∧ ∃ n, x.octets = List.replicate n 0

/-- The journal has room to note the number of records, and the file to hold them. -/
def Contents.Fits (x : Contents) : Prop := x.count < 65536 ∧ x.count * x.size ≤ x.octets.length

theorem Contents.Blank.fits {x : Contents} (h : x.Blank) : x.Fits := by
  unfold Contents.Fits
  rw [h.1, Nat.zero_mul]
  exact ⟨by decide, Nat.zero_le _⟩

/-- What identifies a file. -/
structure FileKey where
  owner : ℕ
  number : UInt8
  type : UInt8
  deriving Repr, DecidableEq

def DfcFile.key (file : DfcFile) : FileKey := ⟨file.appIndex, file.number, file.type⟩

/-- What a file is, whichever place its application has among the others. -/
def FileKey.kind (k : FileKey) : UInt8 × UInt8 := (k.number, k.type)

/-- The kinds of files whose contents a transaction covers. -/
def FileKey.covered (k : FileKey) : Bool :=
  k.type == dfcFileTypeBackupData || dfcFileTypeIsRecord k.type

theorem FileKey.covered_of_kind (k k' : FileKey) (h : k.kind = k'.kind) :
    k.covered = k'.covered := by
  have htype : k.type = k'.type := congrArg Prod.snd h
  unfold FileKey.covered
  rw [htype]

def DfcFile.recordCount (file : DfcFile) : ℕ :=
  if dfcFileTypeIsRecord file.type then file.state.record.count else 0

def DfcFile.recordSize (file : DfcFile) : ℕ :=
  if dfcFileTypeIsRecord file.type then file.state.record.size else 0

/-- The contents of a file as they stand in the file pool. -/
def liveContents (c : DfcCredential) (i : ℕ) : Contents :=
  { size := (c.files i).recordSize
    count := (c.files i).recordCount
    octets := c.filePool.read (c.files i).dataOffset (c.files i).dataLen }

/-- The committed contents of a file. -/
def committedContents (e : DfcEmulator) (i : ℕ) : Contents :=
  let file := e.credential.files i
  let entry := e.snapshot.entry i
  if e.snapshot.active = false ∨ file.appIndex ≠ e.snapshot.appIndex ∨
      transactionFileHasData file = false then liveContents e.credential i
  else if entry.created then
    { size := file.recordSize, count := 0, octets := List.replicate file.dataLen 0 }
  else if entry.captured then
    { size := file.recordSize
      count := if dfcFileTypeIsRecord file.type then entry.recordCount else 0
      octets := e.snapshot.pool.read entry.offset file.dataLen }
  else liveContents e.credential i

def storeCell (e : DfcEmulator) (i : ℕ) : Cell FileKey Contents :=
  { key := (e.credential.files i).key
    committed := committedContents e i
    staged := if (e.credential.files i).transactionPending then some (liveContents e.credential i)
      else none }

/-- The files of the card as cells of a store. -/
def storeOf (e : DfcEmulator) : List (Cell FileKey Contents) :=
  (List.range e.credential.numFiles).map (storeCell e)

/-- The committed contents of the backup and record files. -/
def ledgerOf (e : DfcEmulator) : List (FileKey × Contents) := ledger FileKey.covered (storeOf e)

/-- A file the journal keeps a pre-image for. -/
structure Covered (e : DfcEmulator) (i : ℕ) : Prop where
  lt : i < e.credential.numFiles
  appIndex : (e.credential.files i).appIndex = e.snapshot.appIndex
  hasData : transactionFileHasData (e.credential.files i) = true

/-- The octets a file may still claim in the journal. -/
def roomNeeded (e : DfcEmulator) (i : ℕ) : ℕ :=
  let file := e.credential.files i
  let entry := e.snapshot.entry i
  if file.appIndex ≠ e.snapshot.appIndex ∨ transactionFileHasData file = false ∨
      entry.created = true ∨ entry.captured = true then 0
  else file.dataLen

/-- The journal entry of a covered file agrees with the file. -/
structure SlotSound (e : DfcEmulator) (i : ℕ) : Prop where
  placed : (e.snapshot.entry i).captured = true →
    (e.snapshot.entry i).offset + (e.credential.files i).dataLen ≤ e.snapshot.poolLength
  marked : (e.credential.files i).transactionPending = true →
    (e.snapshot.entry i).captured = true ∨ (e.snapshot.entry i).created = true
  clean : (e.credential.files i).transactionPending = false →
    committedContents e i = liveContents e.credential i
  record : (e.snapshot.entry i).recordOperation = .write →
    (e.snapshot.entry i).recordNumber < dfcEmulatorRecordUsableCapacity (e.credential.files i)

structure JournalOpen (e : DfcEmulator) : Prop where
  app : e.snapshot.appIndex = e.selectedAppIndex
  hasPool : e.snapshot.hasPool = true
  fits : e.snapshot.poolLength ≤ e.snapshot.poolCapacity
  small : e.snapshot.poolCapacity ≤ dfcFilePoolSize
  captured : ∀ i < e.credential.numFiles, (e.snapshot.entry i).captured = true → Covered e i
  slots : ∀ i, Covered e i → SlotSound e i
  disjoint : ∀ i j, Covered e i → Covered e j → i ≠ j → (e.snapshot.entry i).captured = true →
    (e.snapshot.entry j).captured = true →
    (e.snapshot.entry i).offset + (e.credential.files i).dataLen ≤ (e.snapshot.entry j).offset ∨
      (e.snapshot.entry j).offset + (e.credential.files j).dataLen ≤ (e.snapshot.entry i).offset
  room : ∑ i ∈ Finset.range e.credential.numFiles, roomNeeded e i ≤
    e.snapshot.poolCapacity - e.snapshot.poolLength

structure JournalSound (e : DfcEmulator) : Prop where
  settled : JournalSettled e
  files : FilePoolInv False e.credential
  apps : e.credential.numApps ≤ dfcMaxApps
  journal : e.snapshot.active = true → JournalOpen e

/-- The card is a store whose records fit. -/
structure StoreSound (e : DfcEmulator) : Prop where
  sound : JournalSound e
  fits : ∀ x ∈ storeOf e, x.Holds Contents.Fits

variable {e e' : DfcEmulator} {i j : ℕ}

theorem storeOf_getElem? (e : DfcEmulator) (i : ℕ) :
    (storeOf e)[i]? = if i < e.credential.numFiles then some (storeCell e i) else none := by
  unfold storeOf
  split_ifs with h
  · simp [h]
  · simp [not_lt.mp h]

/-- Two cards with the same cells are the same store. -/
theorem storeOf_congr (hcount : e'.credential.numFiles = e.credential.numFiles)
    (h : ∀ i < e.credential.numFiles, storeCell e' i = storeCell e i) : storeOf e' = storeOf e := by
  unfold storeOf
  rw [hcount]
  exact List.map_congr_left fun i hi => h i (List.mem_range.mp hi)

/-- A file the journal does not cover is committed as it stands. -/
theorem committedContents_of_not_covered (hi : i < e.credential.numFiles)
    (h : e.snapshot.active = true → ¬Covered e i) :
    committedContents e i = liveContents e.credential i := by
  unfold committedContents
  dsimp only
  rw [if_pos]
  by_contra hno
  push Not at hno
  have hactive : e.snapshot.active = true := by simpa using hno.1
  exact h hactive ⟨hi, hno.2.1, by simpa using hno.2.2⟩

theorem committedContents_of_idle (h : e.snapshot.active = false) (i : ℕ) :
    committedContents e i = liveContents e.credential i := by
  unfold committedContents
  exact if_pos (.inl h)

theorem committedContents_of_covered (hactive : e.snapshot.active = true) (h : Covered e i) :
    committedContents e i =
      if (e.snapshot.entry i).created then
        { size := (e.credential.files i).recordSize
          count := 0
          octets := List.replicate (e.credential.files i).dataLen 0 }
      else if (e.snapshot.entry i).captured then
        { size := (e.credential.files i).recordSize
          count := if dfcFileTypeIsRecord (e.credential.files i).type then
            (e.snapshot.entry i).recordCount else 0
          octets :=
            e.snapshot.pool.read (e.snapshot.entry i).offset (e.credential.files i).dataLen }
      else liveContents e.credential i := by
  unfold committedContents
  dsimp only
  rw [if_neg (by simp [hactive, h.appIndex, h.hasData])]

theorem committedContents_size (e : DfcEmulator) (i : ℕ) :
    (committedContents e i).size = (e.credential.files i).recordSize := by
  unfold committedContents
  dsimp only
  split_ifs <;> rfl

/-- Without a pending write a file shows what is committed. -/
theorem JournalSound.committed_of_not_pending (h : JournalSound e)
    (hi : i < e.credential.numFiles)
    (hpending : (e.credential.files i).transactionPending = false) :
    committedContents e i = liveContents e.credential i := by
  by_cases hcovered : e.snapshot.active = true ∧ Covered e i
  · exact ((h.journal hcovered.1).slots i hcovered.2).clean hpending
  · exact committedContents_of_not_covered hi fun hactive hc => hcovered ⟨hactive, hc⟩

/-- What a cell shows stands in the file pool. -/
theorem JournalSound.shown (h : JournalSound e) (hi : i < e.credential.numFiles) :
    (storeCell e i).shown = liveContents e.credential i := by
  unfold storeCell Cell.shown
  cases hpending : (e.credential.files i).transactionPending with
  | true => rfl
  | false => exact h.committed_of_not_pending hi hpending

theorem storeCell_mem (hi : i < e.credential.numFiles) : storeCell e i ∈ storeOf e :=
  List.mem_map.mpr ⟨i, List.mem_range.mpr hi, rfl⟩

theorem StoreSound.recordCount (h : StoreSound e) (hi : i < e.credential.numFiles) :
    (e.credential.files i).recordCount < 65536 := by
  have hshown := (h.fits _ (storeCell_mem hi)).shown
  rw [h.sound.shown hi] at hshown
  exact hshown.1

/-- Only covered files have something staged. -/
theorem JournalSound.covered_of_pending (h : JournalSound e) (hi : i < e.credential.numFiles)
    (hpending : (e.credential.files i).transactionPending = true) :
    e.snapshot.active = true ∧ Covered e i := by
  obtain ⟨hactive, happ, hdata⟩ := h.settled.owned _ (mark_mem hi) hpending
  exact ⟨hactive, hi, happ, hdata⟩

/-- When no journal is open nothing is staged. -/
theorem JournalSound.storeCell_of_idle (h : JournalSound e) (hidle : e.snapshot.active = false)
    (hi : i < e.credential.numFiles) :
    storeCell e i = ⟨(e.credential.files i).key, liveContents e.credential i, none⟩ := by
  unfold storeCell
  rw [committedContents_of_idle hidle, h.settled.not_pending hidle hi]
  rfl

theorem entry_of_lt (h : JournalSettled e) (hi : i < e.credential.numFiles) :
    e.snapshot.entry i = e.snapshot.entries i := by
  have hcount := h.count
  exact if_pos (by omega)

/-- What the journal knows of a file record. -/
def slotView (file : DfcFile) : FileKey × ℕ × Bool × DfcRecordFileState :=
  (file.key, file.dataLen, file.transactionPending, file.state.record)

/-- File `i` before a step is file `j` after it, for the journal and its octets. -/
structure SlotKept (e e' : DfcEmulator) (i j : ℕ) : Prop where
  view : slotView (e'.credential.files j) = slotView (e.credential.files i)
  slice : e'.credential.filePool.read (e'.credential.files j).dataOffset
      (e'.credential.files j).dataLen =
    e.credential.filePool.read (e.credential.files i).dataOffset (e.credential.files i).dataLen
  entry : e'.snapshot.entry j = e.snapshot.entry i
  preimage : (e.snapshot.entry i).captured = true →
    e'.snapshot.pool.read (e.snapshot.entry i).offset (e.credential.files i).dataLen =
      e.snapshot.pool.read (e.snapshot.entry i).offset (e.credential.files i).dataLen

namespace SlotKept
variable (h : SlotKept e e' i j)
include h

theorem key : (e'.credential.files j).key = (e.credential.files i).key :=
  congrArg Prod.fst h.view

theorem appIndex : (e'.credential.files j).appIndex = (e.credential.files i).appIndex :=
  congrArg FileKey.owner h.key

theorem type : (e'.credential.files j).type = (e.credential.files i).type :=
  congrArg FileKey.type h.key

theorem dataLen : (e'.credential.files j).dataLen = (e.credential.files i).dataLen :=
  congrArg (fun v => v.2.1) h.view

theorem pending :
    (e'.credential.files j).transactionPending = (e.credential.files i).transactionPending :=
  congrArg (fun v => v.2.2.1) h.view

theorem record : (e'.credential.files j).state.record = (e.credential.files i).state.record :=
  congrArg (fun v => v.2.2.2) h.view

theorem hasData :
    transactionFileHasData (e'.credential.files j) =
      transactionFileHasData (e.credential.files i) := by
  unfold transactionFileHasData
  rw [h.type]

theorem recordSize : (e'.credential.files j).recordSize = (e.credential.files i).recordSize := by
  unfold DfcFile.recordSize
  rw [h.type, h.record]

theorem live : liveContents e'.credential j = liveContents e.credential i := by
  unfold liveContents DfcFile.recordCount
  rw [h.slice, h.recordSize, h.type, h.record]

theorem usableCapacity :
    dfcEmulatorRecordUsableCapacity (e'.credential.files j) =
      dfcEmulatorRecordUsableCapacity (e.credential.files i) := by
  unfold dfcEmulatorRecordUsableCapacity
  rw [h.type, h.record]

theorem committed (hactive : e'.snapshot.active = e.snapshot.active)
    (happ : e'.snapshot.appIndex = e.snapshot.appIndex) :
    committedContents e' j = committedContents e i := by
  unfold committedContents
  dsimp only
  rw [hactive, happ, h.appIndex, h.hasData, h.entry, h.live, h.dataLen, h.recordSize, h.type]
  by_cases hcaptured : (e.snapshot.entry i).captured = true
  · rw [h.preimage hcaptured]
  · rw [if_neg hcaptured, if_neg hcaptured]

theorem cell (hactive : e'.snapshot.active = e.snapshot.active)
    (happ : e'.snapshot.appIndex = e.snapshot.appIndex) : storeCell e' j = storeCell e i := by
  unfold storeCell
  rw [h.committed hactive happ, h.key, h.pending, h.live]

theorem roomNeeded (happ : e'.snapshot.appIndex = e.snapshot.appIndex) :
    DfcCore.roomNeeded e' j = DfcCore.roomNeeded e i := by
  unfold DfcCore.roomNeeded
  dsimp only
  rw [happ, h.appIndex, h.hasData, h.entry, h.dataLen]

theorem covered (happ : e'.snapshot.appIndex = e.snapshot.appIndex)
    (hi : i < e.credential.numFiles) (hj : Covered e' j) : Covered e i :=
  ⟨hi, by rw [← h.appIndex, hj.appIndex, happ], by rw [← h.hasData, hj.hasData]⟩

theorem covered_after (happ : e'.snapshot.appIndex = e.snapshot.appIndex)
    (hj : j < e'.credential.numFiles) (hi : Covered e i) : Covered e' j :=
  ⟨hj, by rw [h.appIndex, hi.appIndex, happ], by rw [h.hasData, hi.hasData]⟩

theorem slotSound (hactive : e'.snapshot.active = e.snapshot.active)
    (happ : e'.snapshot.appIndex = e.snapshot.appIndex)
    (hlength : e.snapshot.poolLength ≤ e'.snapshot.poolLength) (hs : SlotSound e i) :
    SlotSound e' j where
  placed hcaptured := by
    rw [h.entry] at hcaptured ⊢
    rw [h.dataLen]
    exact (hs.placed hcaptured).trans hlength
  marked hpending := by
    rw [h.entry]
    exact hs.marked (h.pending ▸ hpending)
  clean hpending := by
    rw [h.committed hactive happ, h.live]
    exact hs.clean (h.pending ▸ hpending)
  record hwrite := by
    rw [h.entry] at hwrite ⊢
    rw [h.usableCapacity]
    exact hs.record hwrite

end SlotKept

/-- The journal stays open and sound over a step that keeps its pool's bounds and leaves every
covered file alone, wherever it stands now. -/
theorem JournalOpen.transfer (h : JournalOpen e)
    (hjournal : SameJournal e.snapshot e'.snapshot)
    (hselected : e'.selectedAppIndex = e.selectedAppIndex)
    (hpool : e'.snapshot.hasPool = e.snapshot.hasPool ∧
      e'.snapshot.poolLength = e.snapshot.poolLength ∧
      e'.snapshot.poolCapacity = e.snapshot.poolCapacity)
    (φ : ℕ → ℕ) (hφ : Set.InjOn φ (Set.Iio e'.credential.numFiles))
    (hlt : ∀ j < e'.credential.numFiles, φ j < e.credential.numFiles)
    (hkept : ∀ j < e'.credential.numFiles, SlotKept e e' (φ j) j) : JournalOpen e' := by
  have hcovered : ∀ j, Covered e' j → Covered e (φ j) := fun j hj =>
    (hkept j hj.lt).covered hjournal.appIndex (hlt j hj.lt) hj
  constructor
  · rw [hjournal.appIndex, hselected, h.app]
  · rw [hpool.1, h.hasPool]
  · rw [hpool.2.1, hpool.2.2]
    exact h.fits
  · rw [hpool.2.2]
    exact h.small
  · intro j hj hcaptured
    rw [(hkept j hj).entry] at hcaptured
    exact (hkept j hj).covered_after hjournal.appIndex hj (h.captured _ (hlt j hj) hcaptured)
  · intro j hj
    exact (hkept j hj.lt).slotSound hjournal.active hjournal.appIndex hpool.2.1.ge
      (h.slots _ (hcovered j hj))
  · intro j k hj hk hjk hcj hck
    rw [(hkept j hj.lt).entry] at hcj ⊢
    rw [(hkept k hk.lt).entry] at hck ⊢
    rw [(hkept j hj.lt).dataLen, (hkept k hk.lt).dataLen]
    exact h.disjoint _ _ (hcovered j hj) (hcovered k hk) (fun heq => hjk (hφ hj.lt hk.lt heq))
      hcj hck
  · rw [hpool.2.1, hpool.2.2]
    refine le_trans ?_ h.room
    calc ∑ j ∈ Finset.range e'.credential.numFiles, roomNeeded e' j
        = ∑ j ∈ Finset.range e'.credential.numFiles, roomNeeded e (φ j) :=
          Finset.sum_congr rfl fun j hj =>
            (hkept j (Finset.mem_range.mp hj)).roomNeeded hjournal.appIndex
      _ = ∑ i ∈ (Finset.range e'.credential.numFiles).image φ, roomNeeded e i := by
          refine (Finset.sum_image fun j hj k hk heq => hφ ?_ ?_ heq).symm
          · exact Finset.mem_range.mp hj
          · exact Finset.mem_range.mp hk
      _ ≤ ∑ i ∈ Finset.range e.credential.numFiles, roomNeeded e i := by
          refine Finset.sum_le_sum_of_subset fun i hi => ?_
          obtain ⟨j, hj, rfl⟩ := Finset.mem_image.mp hi
          exact Finset.mem_range.mpr (hlt j (Finset.mem_range.mp hj))

end DfcCore
