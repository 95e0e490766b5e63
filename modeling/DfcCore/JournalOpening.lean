import DfcCore.JournalImage

/-!
# Opening the journal

A covered file is captured at the end of the journal's pool. There is always room for it, and
nothing the card shows or has committed changes.
-/
namespace DfcCore
open Der
open scoped BigOperators

variable {e e' : DfcEmulator} {i j : ℕ}

/-- The pre-image of a file at the end of the journal's pool. -/
def captureInto (e : DfcEmulator) (i : ℕ) : DfcEmulator :=
  { e with
    snapshot := { e.snapshot with
      pool := e.snapshot.pool.write e.snapshot.poolLength (liveContents e.credential i).octets
      poolLength := e.snapshot.poolLength + (e.credential.files i).dataLen
      entries := Function.update e.snapshot.entries i
        { e.snapshot.entries i with
          offset := e.snapshot.poolLength
          recordCount := (e.credential.files i).recordCount
          captured := true } } }

/-- The room of a file that is not in the journal is part of the room that is left. -/
theorem JournalOpen.room_of_covered (h : JournalOpen e) (hi : Covered e i)
    (hentry : (e.snapshot.entry i).created = false ∧ (e.snapshot.entry i).captured = false) :
    (e.credential.files i).dataLen ≤ e.snapshot.poolCapacity - e.snapshot.poolLength := by
  refine le_trans ?_ h.room
  refine le_trans (le_of_eq ?_) (Finset.single_le_sum (f := roomNeeded e) (fun _ _ => Nat.zero_le _)
    (Finset.mem_range.mpr hi.lt))
  unfold roomNeeded
  dsimp only
  rw [if_neg (by simp [hi.appIndex, hi.hasData, hentry.1, hentry.2])]

theorem captureFile_eq (h : JournalSound e) (hactive : e.snapshot.active = true)
    (hi : Covered e i) (hcount : (e.credential.files i).recordCount < 65536) :
    dfcEmulatorTransactionSnapshotCaptureFile e i =
      (if (e.snapshot.entry i).created = true ∨ (e.snapshot.entry i).captured = true then e
        else captureInto e i, true) := by
  have hopen := h.journal hactive
  unfold dfcEmulatorTransactionSnapshotCaptureFile
  dsimp only
  rw [if_neg (by rw [hactive]; decide), if_neg (not_le.mpr hi.lt),
    if_neg (by simp [hi.appIndex, hi.hasData])]
  by_cases hknown : (e.snapshot.entry i).created = true ∨ (e.snapshot.entry i).captured = true
  · rw [if_pos hknown, if_pos hknown]
  rw [if_neg hknown, if_neg hknown]
  have hnew : (e.snapshot.entry i).created = false ∧ (e.snapshot.entry i).captured = false := by
    simpa using hknown
  have hroom := hopen.room_of_covered hi hnew
  have hfits := hopen.fits
  have hsmall := hopen.small
  rw [if_neg (by rw [hopen.hasPool]; simp; omega)]
  have hoffset : u16 e.snapshot.poolLength = e.snapshot.poolLength :=
    u16_of_lt (by simp only [dfcFilePoolSize] at hsmall; omega)
  have hrecords : (if dfcFileTypeIsRecord (e.credential.files i).type = true then
      u16 (e.credential.files i).state.record.count else 0) =
      (e.credential.files i).recordCount := by
    unfold DfcFile.recordCount at hcount ⊢
    split_ifs at hcount ⊢
    · exact u16_of_lt hcount
    · rfl
  by_cases hempty : (e.credential.files i).dataLen = 0
  · have hdata : dfcFileData e.credential (e.credential.files i) = none := by
      rw [dfcFileData, if_pos (.inr hempty)]
    rw [hdata, decide_eq_true hempty, hoffset, hrecords]
    have hnothing : (liveContents e.credential i).octets = [] := by
      rw [liveContents, hempty]
      rfl
    rw [captureInto, hnothing]
  · have hslice := h.files.slice hi.lt hempty
    have hdata : dfcFileData e.credential (e.credential.files i) =
        some (e.credential.files i).dataOffset := by
      rw [dfcFileData, if_neg (by simp [hempty, hslice.2]), if_neg (not_lt.mpr hslice.1)]
    rw [hdata, decide_eq_false hempty, hoffset, hrecords]
    rfl

section
variable (h : JournalSound e) (hactive : e.snapshot.active = true) (hi : Covered e i)
  (hentry : (e.snapshot.entry i).created = false ∧ (e.snapshot.entry i).captured = false)
include h hactive hi hentry

omit hactive hentry in
theorem captureInto_entry_self :
    (captureInto e i).snapshot.entry i =
      { e.snapshot.entry i with
        offset := e.snapshot.poolLength
        recordCount := (e.credential.files i).recordCount
        captured := true } := by
  have hlt : i < dfcMaxFiles := hi.lt.trans_le h.settled.count
  simp [captureInto, DfcTransactionSnapshot.entry, hlt]

omit h hactive hi hentry in
theorem captureInto_entry_other (hji : j ≠ i) :
    (captureInto e i).snapshot.entry j = e.snapshot.entry j := by
  simp [captureInto, DfcTransactionSnapshot.entry, hji]

omit hi hentry in
/-- The other files do not notice. -/
theorem captureInto_kept (hji : j ≠ i) :
    (captureInto e i).snapshot.entry j = e.snapshot.entry j ∧
      (Covered e j → (e.snapshot.entry j).captured = true →
        (captureInto e i).snapshot.pool.read (e.snapshot.entry j).offset
            (e.credential.files j).dataLen =
          e.snapshot.pool.read (e.snapshot.entry j).offset (e.credential.files j).dataLen) := by
  refine ⟨captureInto_entry_other hji, fun hcovered hcaptured => ?_⟩
  have hplaced := ((h.journal hactive).slots j hcovered).placed hcaptured
  exact Mem.read_write_of_disjoint (.inl hplaced)

theorem captureInto_committed (hj : j < e.credential.numFiles) :
    committedContents (captureInto e i) j = committedContents e j := by
  by_cases hcovered : Covered e j
  · have hcovered' : Covered (captureInto e i) j :=
      ⟨hcovered.lt, hcovered.appIndex, hcovered.hasData⟩
    rw [committedContents_of_covered hactive hcovered,
      committedContents_of_covered (show (captureInto e i).snapshot.active = true from hactive)
        hcovered']
    by_cases hji : j = i
    · subst hji
      have hread : (captureInto e j).snapshot.pool.read e.snapshot.poolLength
          (e.credential.files j).dataLen = (liveContents e.credential j).octets :=
        Mem.read_write_self' (by simp [liveContents])
      have hcount : (if dfcFileTypeIsRecord (e.credential.files j).type = true then
          (e.credential.files j).recordCount else 0) = (liveContents e.credential j).count := by
        unfold liveContents DfcFile.recordCount
        split_ifs <;> rfl
      rw [captureInto_entry_self h hi, hentry.1, hentry.2]
      simp only [Bool.false_eq_true, if_false, if_true]
      exact congrArg₂ (Contents.mk _) hcount hread
    · obtain ⟨hsame, hpool⟩ := captureInto_kept h hactive hji
      rw [hsame]
      by_cases hcaptured : (e.snapshot.entry j).captured = true
      · rw [if_pos hcaptured, if_pos hcaptured]
        have hread := hpool hcovered hcaptured
        exact congrArg (ite _ _) (congrArg (Contents.mk _ _) hread)
      · rw [if_neg hcaptured, if_neg hcaptured]
        rfl
  · rw [committedContents_of_not_covered hj fun _ => hcovered,
      committedContents_of_not_covered (e := captureInto e i) hj fun _ hc =>
        hcovered ⟨hc.lt, hc.appIndex, hc.hasData⟩]
    rfl

theorem storeOf_captureInto : storeOf (captureInto e i) = storeOf e := by
  refine storeOf_congr rfl fun j hj => ?_
  unfold storeCell
  rw [captureInto_committed h hactive hi hentry hj]
  rfl

omit hactive in
theorem roomNeeded_captureInto :
    (∑ j ∈ Finset.range e.credential.numFiles, roomNeeded (captureInto e i) j) +
        (e.credential.files i).dataLen =
      ∑ j ∈ Finset.range e.credential.numFiles, roomNeeded e j := by
  have hmem := Finset.mem_range.mpr hi.lt
  rw [← Finset.add_sum_erase _ _ hmem, ← Finset.add_sum_erase _ (roomNeeded e) hmem]
  have hself : roomNeeded (captureInto e i) i = 0 := by
    unfold roomNeeded
    dsimp only
    rw [captureInto_entry_self h hi]
    simp
  have hbefore : roomNeeded e i = (e.credential.files i).dataLen := by
    unfold roomNeeded
    dsimp only
    rw [if_neg (by simp [hi.appIndex, hi.hasData, hentry.1, hentry.2])]
  have hothers : ∑ j ∈ (Finset.range e.credential.numFiles).erase i,
      roomNeeded (captureInto e i) j =
      ∑ j ∈ (Finset.range e.credential.numFiles).erase i, roomNeeded e j := by
    refine Finset.sum_congr rfl fun j hj => ?_
    unfold roomNeeded
    dsimp only
    rw [captureInto_entry_other (Finset.ne_of_mem_erase hj)]
    rfl
  rw [hself, hbefore, hothers]
  omega

theorem JournalOpen.captureInto : JournalOpen (captureInto e i) := by
  have hopen := h.journal hactive
  have hroom := hopen.room_of_covered hi hentry
  have hfits := hopen.fits
  have hcovered : ∀ j, Covered (DfcCore.captureInto e i) j → Covered e j :=
    fun j hj => ⟨hj.lt, hj.appIndex, hj.hasData⟩
  have hself := captureInto_entry_self h hi
  have hother : ∀ j, j ≠ i → (DfcCore.captureInto e i).snapshot.entry j = e.snapshot.entry j :=
    fun j hji => captureInto_entry_other hji
  constructor
  · exact hopen.app
  · exact hopen.hasPool
  · show e.snapshot.poolLength + (e.credential.files i).dataLen ≤ e.snapshot.poolCapacity
    omega
  · exact hopen.small
  · intro j hj hcaptured
    by_cases hji : j = i
    · subst hji
      exact ⟨hi.lt, hi.appIndex, hi.hasData⟩
    · rw [hother j hji] at hcaptured
      have hc := hopen.captured j hj hcaptured
      exact ⟨hc.lt, hc.appIndex, hc.hasData⟩
  · intro j hj
    have hsound := hopen.slots j (hcovered j hj)
    by_cases hji : j = i
    · subst hji
      constructor
      · intro _
        rw [hself]
        exact le_rfl
      · intro _
        rw [hself]
        exact .inl rfl
      · intro hpending
        rw [captureInto_committed h hactive hi hentry hj.lt]
        exact hsound.clean hpending
      · intro hwrite
        rw [hself] at hwrite ⊢
        exact hsound.record hwrite
    · constructor
      · intro hcaptured
        rw [hother j hji] at hcaptured ⊢
        exact (hsound.placed hcaptured).trans (Nat.le_add_right _ _)
      · intro hpending
        rw [hother j hji]
        exact hsound.marked hpending
      · intro hpending
        rw [captureInto_committed h hactive hi hentry hj.lt]
        exact hsound.clean hpending
      · intro hwrite
        rw [hother j hji] at hwrite ⊢
        exact hsound.record hwrite
  · intro j k hj hk hjk hcj hck
    by_cases hji : j = i
    · subst hji
      have hplaced := (hopen.slots k (hcovered k hk)).placed
      rw [hother k (Ne.symm hjk)] at hck ⊢
      rw [hself]
      exact .inr (hplaced hck)
    · rw [hother j hji] at hcj ⊢
      by_cases hki : k = i
      · subst hki
        rw [hself]
        exact .inl ((hopen.slots j (hcovered j hj)).placed hcj)
      · rw [hother k hki] at hck ⊢
        exact hopen.disjoint j k (hcovered j hj) (hcovered k hk) hjk hcj hck
  · have hsum := roomNeeded_captureInto h hi hentry
    have hleft := hopen.room
    show ∑ j ∈ Finset.range e.credential.numFiles, roomNeeded (DfcCore.captureInto e i) j ≤
      e.snapshot.poolCapacity - (e.snapshot.poolLength + (e.credential.files i).dataLen)
    omega

end

/-- The octets of the files an application's transaction covers. -/
def coveredOctets (c : DfcCredential) (appIndex i : ℕ) : ℕ :=
  if (c.files i).appIndex ≠ appIndex ∨ transactionFileHasData (c.files i) = false then 0
  else (c.files i).dataLen

theorem snapshotCapacity_range {c : DfcCredential} {appIndex : ℕ} (n : ℕ)
    (h : ∑ i ∈ Finset.range n, coveredOctets c appIndex i ≤ dfcFilePoolSize) :
    (List.range n).foldlM (fun capacity i =>
      let file := c.files i
      if file.appIndex ≠ appIndex ∨ transactionFileHasData file = false then some capacity
      else if dfcFilePoolSize - capacity < file.dataLen then none
      else some (capacity + file.dataLen)) 0 =
        some (∑ i ∈ Finset.range n, coveredOctets c appIndex i) := by
  induction n with
  | zero => rfl
  | succ n ih =>
    rw [Finset.sum_range_succ] at h ⊢
    rw [List.range_succ, List.foldlM_append, ih (by omega)]
    simp only [List.foldlM_cons, List.foldlM_nil, Option.bind_eq_bind, Option.bind_some]
    unfold coveredOctets at h ⊢
    split_ifs at h ⊢
    · rfl
    · omega
    · rfl

/-- The pre-images of an application's files fit wherever the files do. -/
theorem FilePoolInv.snapshotCapacity {z : Prop} {c : DfcCredential} (h : FilePoolInv z c)
    (appIndex : ℕ) :
    ∑ i ∈ Finset.range c.numFiles, coveredOctets c appIndex i ≤ dfcFilePoolSize ∧
      transactionSnapshotCapacity c appIndex =
        some (∑ i ∈ Finset.range c.numFiles, coveredOctets c appIndex i) := by
  have hle : ∑ i ∈ Finset.range c.numFiles, coveredOctets c appIndex i ≤ dfcFilePoolSize := by
    refine le_trans ?_ h.fit
    rw [← h.packed.total]
    refine Finset.sum_le_sum fun i _ => ?_
    unfold coveredOctets
    split_ifs
    · exact Nat.zero_le _
    · exact le_rfl
  exact ⟨hle, snapshotCapacity_range c.numFiles hle⟩

/-- The state after a transaction has begun. -/
def beginTransaction (e : DfcEmulator) (capacity : ℕ) : DfcEmulator :=
  { e with
    snapshot :=
      { active := true
        appIndex := e.selectedAppIndex
        dirty := e.credential.dirty
        hasPool := true
        poolCapacity := if capacity = 0 then 1 else capacity } }

/-- A transaction that has begun covers files whose contents are committed as they stand. -/
theorem JournalSound.begin (h : JournalSound e) (hidle : e.snapshot.active = false) :
    ∃ capacity, (∀ allocationFails, dfcEmulatorCommandTransactionSnapshotBegin e allocationFails =
        if allocationFails then (e, false) else (beginTransaction e capacity, true)) ∧
      JournalSound (beginTransaction e capacity) ∧
      storeOf (beginTransaction e capacity) = storeOf e := by
  obtain ⟨hle, hcapacity⟩ := h.files.snapshotCapacity e.selectedAppIndex
  generalize hc : ∑ i ∈ Finset.range e.credential.numFiles,
    coveredOctets e.credential e.selectedAppIndex i = capacity at hle hcapacity
  have hentry (i : ℕ) : (beginTransaction e capacity).snapshot.entry i = {} := by
    unfold DfcTransactionSnapshot.entry
    split_ifs <;> rfl
  have hpending (i : ℕ) (hi : i < e.credential.numFiles) :
      (e.credential.files i).transactionPending = false := h.settled.not_pending hidle hi
  have hlive (i : ℕ) : committedContents (beginTransaction e capacity) i =
      liveContents e.credential i := by
    unfold committedContents
    dsimp only
    rw [hentry]
    simp only [Bool.false_eq_true, if_false, ite_self]
    rfl
  have hactive : (beginTransaction e capacity).snapshot.active = true := rfl
  refine ⟨capacity, fun allocationFails => ?_, ⟨?_, h.files, h.apps, fun _ => ?_⟩, ?_⟩
  · unfold dfcEmulatorCommandTransactionSnapshotBegin
    rw [if_neg (by rw [hidle]; decide), hcapacity]
    cases allocationFails <;> rfl
  · refine ⟨fun hclosed => ?_, fun mark hmark hmarked => ?_, h.settled.count⟩
    · rw [hactive] at hclosed
      cases hclosed
    · have hopen := (h.settled.owned mark hmark hmarked).1
      rw [hidle] at hopen
      cases hopen
  · constructor
    · rfl
    · rfl
    · exact Nat.zero_le _
    · show (if capacity = 0 then 1 else capacity) ≤ dfcFilePoolSize
      split_ifs
      · decide
      · exact hle
    · intro i _ hcaptured
      rw [hentry] at hcaptured
      cases hcaptured
    · intro i hi
      have hnone : (e.credential.files i).transactionPending = false := hpending i hi.lt
      constructor
      · rw [hentry]
        exact fun hcaptured => by cases hcaptured
      · exact fun hmarked => absurd (hnone.symm.trans hmarked) Bool.false_ne_true
      · exact fun _ => hlive i
      · rw [hentry]
        exact fun hwrite => by cases hwrite
    · intro i j _ _ _ hcaptured
      rw [hentry] at hcaptured
      cases hcaptured
    · have hneed (i : ℕ) : roomNeeded (beginTransaction e capacity) i =
          coveredOctets e.credential e.selectedAppIndex i := by
        rw [roomNeeded, hentry i]
        simp only [Bool.false_eq_true, or_false]
        rfl
      have hsum := (Finset.sum_congr rfl fun i _ => hneed i).trans hc
      refine hsum.le.trans ?_
      show capacity ≤ (if capacity = 0 then 1 else capacity) - 0
      split_ifs <;> omega
  · refine storeOf_congr rfl fun i hi => ?_
    rw [h.storeCell_of_idle hidle hi]
    unfold storeCell
    rw [hlive]
    show Cell.mk _ _ (if (e.credential.files i).transactionPending then _ else none) = _
    rw [hpending i hi]
    rfl

/-- The journal is open and knows the file, and the store is the one it was. -/
structure Opened (e opened : DfcEmulator) (i : ℕ) : Prop where
  sound : JournalSound opened
  store : storeOf opened = storeOf e
  active : opened.snapshot.active = true
  covered : Covered opened i
  known : (opened.snapshot.entry i).created = true ∨ (opened.snapshot.entry i).captured = true

/-- A file of the selected application that a transaction covers. -/
structure Coverable (e : DfcEmulator) (i : ℕ) : Prop where
  lt : i < e.credential.numFiles
  appIndex : (e.credential.files i).appIndex = e.selectedAppIndex
  hasData : transactionFileHasData (e.credential.files i) = true
  count : (e.credential.files i).recordCount < 65536

theorem Opened.capture (h : JournalSound e) (hactive : e.snapshot.active = true)
    (hi : Coverable e i) :
    ∃ opened, dfcEmulatorTransactionSnapshotCaptureFile e i = (opened, true) ∧
      Opened e opened i := by
  have hopen := h.journal hactive
  have hcovered : Covered e i := ⟨hi.lt, hi.appIndex.trans hopen.app.symm, hi.hasData⟩
  refine ⟨_, captureFile_eq h hactive hcovered hi.count, ?_⟩
  split_ifs with hknown
  · exact ⟨h, rfl, hactive, hcovered, hknown⟩
  · have hnew : (e.snapshot.entry i).created = false ∧ (e.snapshot.entry i).captured = false := by
      simpa using hknown
    refine ⟨⟨?_, h.files, h.apps, fun _ => ?_⟩, ?_, hactive, ?_, ?_⟩
    · refine h.settled.sameMarks ⟨rfl, rfl, fun hidle => ?_⟩ rfl
      rw [hactive] at hidle
      cases hidle
    · exact JournalOpen.captureInto h hactive hcovered hnew
    · exact storeOf_captureInto h hactive hcovered hnew
    · exact ⟨hcovered.lt, hcovered.appIndex, hcovered.hasData⟩
    · rw [captureInto_entry_self h hcovered]
      exact .inr rfl

/-- Opening the journal fails with the allocation alone, and then does nothing. -/
theorem openJournal_cases (h : JournalSound e) (hi : Coverable e i) (allocationFails : Bool) :
    (e.snapshot.active = false ∧ allocationFails = true ∧
        openJournal e allocationFails i = (e, false)) ∨
      ∃ opened, openJournal e allocationFails i = (opened, true) ∧ Opened e opened i := by
  unfold openJournal
  cases hactive : e.snapshot.active with
  | true =>
    have hbegin : dfcEmulatorCommandTransactionSnapshotBegin e allocationFails = (e, true) := by
      unfold dfcEmulatorCommandTransactionSnapshotBegin
      rw [if_pos hactive, (h.journal hactive).app]
      simp
    rw [hbegin]
    exact .inr (Opened.capture h hactive hi)
  | false =>
    obtain ⟨capacity, hbegin, hsound, hstore⟩ := h.begin hactive
    rw [hbegin]
    cases allocationFails with
    | true => exact .inl ⟨rfl, rfl, rfl⟩
    | false =>
      obtain ⟨opened, hcapture, hopened⟩ := Opened.capture (i := i) hsound rfl
        ⟨hi.lt, hi.appIndex, hi.hasData, hi.count⟩
      exact .inr ⟨opened, hcapture, hopened.sound, hopened.store.trans hstore, hopened.active,
        hopened.covered, hopened.known⟩

/-- Whichever file it is opened for, opening the journal changes nothing in the store. -/
theorem StoreSound.openJournal {opened : DfcEmulator} {allocationFails isOpen : Bool}
    (h : StoreSound e) (hopen : openJournal e allocationFails i = (opened, isOpen)) :
    JournalSound opened ∧ storeOf opened = storeOf e := by
  have hcapture (s : DfcEmulator) (hs : JournalSound s)
      (hcredential : s.credential = e.credential) :
      JournalSound (dfcEmulatorTransactionSnapshotCaptureFile s i).1 ∧
        storeOf (dfcEmulatorTransactionSnapshotCaptureFile s i).1 = storeOf s := by
    by_cases hactive : s.snapshot.active = false
    · unfold dfcEmulatorTransactionSnapshotCaptureFile
      dsimp only
      rw [if_pos hactive]
      exact ⟨hs, rfl⟩
    by_cases hlt : s.credential.numFiles ≤ i
    · unfold dfcEmulatorTransactionSnapshotCaptureFile
      dsimp only
      rw [if_neg hactive, if_pos hlt]
      exact ⟨hs, rfl⟩
    by_cases hother : (s.credential.files i).appIndex ≠ s.snapshot.appIndex ∨
        transactionFileHasData (s.credential.files i) = false
    · unfold dfcEmulatorTransactionSnapshotCaptureFile
      dsimp only
      rw [if_neg hactive, if_neg hlt, if_pos hother]
      exact ⟨hs, rfl⟩
    · rw [Bool.not_eq_false] at hactive
      rw [not_or, not_not, Bool.not_eq_false] at hother
      have hcount : (s.credential.files i).recordCount < 65536 := by
        rw [hcredential]
        exact h.recordCount (by rw [← hcredential]; exact not_le.mp hlt)
      obtain ⟨captured, hcaptured, hopened⟩ := Opened.capture hs hactive
        ⟨not_le.mp hlt, hother.1.trans (hs.journal hactive).app, hother.2, hcount⟩
      rw [hcaptured]
      exact ⟨hopened.sound, hopened.store⟩
  obtain rfl : (DfcCore.openJournal e allocationFails i).1 = opened := by rw [hopen]
  unfold DfcCore.openJournal
  cases hactive : e.snapshot.active with
  | true =>
    unfold dfcEmulatorCommandTransactionSnapshotBegin
    rw [if_pos hactive, (h.sound.journal hactive).app, beq_self_eq_true]
    exact hcapture e h.sound rfl
  | false =>
    obtain ⟨capacity, hbegin, hsound, hstore⟩ := h.sound.begin hactive
    rw [hbegin]
    cases allocationFails with
    | true => exact ⟨h.sound, rfl⟩
    | false =>
      obtain ⟨hcaptured, hsame⟩ := hcapture _ hsound rfl
      exact ⟨hcaptured, hsame.trans hstore⟩

theorem Opened.of_open {opened : DfcEmulator} {allocationFails isOpen : Bool}
    (h : JournalSound e) (hi : Coverable e i)
    (hopen : openJournal e allocationFails i = (opened, isOpen)) :
    (opened = e ∧ isOpen = false) ∨ (isOpen = true ∧ Opened e opened i) := by
  obtain ⟨-, -, hclosed⟩ | ⟨opened', hopened, hresult⟩ := openJournal_cases h hi allocationFails
  · rw [hclosed] at hopen
    obtain ⟨rfl, rfl⟩ := Prod.mk.injEq .. ▸ hopen
    exact .inl ⟨rfl, rfl⟩
  · rw [hopened] at hopen
    obtain ⟨rfl, rfl⟩ := Prod.mk.injEq .. ▸ hopen
    exact .inr ⟨rfl, hresult⟩

end DfcCore
