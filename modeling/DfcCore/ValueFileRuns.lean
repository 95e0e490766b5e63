import DfcCore.LoadedCard
import DfcCore.TransactionSteps

/-!
# The value of a value file over a run

What the notes of the reader say about the value of a file: a pending value is the committed
one with the accepted amounts of the open transaction, both stay within the limits of the
file, and no limited credit is committed that a debit had not paid for before.
-/
namespace DfcCore
open Der

/-- The amount a note is about, where it is on the file and of one of the commands. -/
def Note.amount (commands : List UInt8) (appIndex : ℕ) (fileNo : UInt8) (note : Note) : ℤ :=
  match note.operation with
  | .value command number amount =>
    if note.appIndex = appIndex ∧ number = fileNo ∧ command ∈ commands then amount.toInt32.toInt
    else 0
  | _ => 0

/-- The accepted amounts of some commands on a file. -/
def amounts (commands : List UInt8) (appIndex : ℕ) (fileNo : UInt8) (notes : List Note) : ℤ :=
  (notes.map (Note.amount commands appIndex fileNo)).sum

/-- What the accepted commands add to the value. -/
def deltas (appIndex : ℕ) (fileNo : UInt8) (notes : List Note) : ℤ :=
  amounts [dfcCmdCredit, dfcCmdLimitedCredit] appIndex fileNo notes -
    amounts [dfcCmdDebit] appIndex fileNo notes

section
variable (commands : List UInt8) (appIndex : ℕ) (fileNo : UInt8)

theorem amounts_append (l l' : List Note) :
    amounts commands appIndex fileNo (l ++ l') =
      amounts commands appIndex fileNo l + amounts commands appIndex fileNo l' := by
  simp [amounts]

end

/-- The accepted amounts of a transaction. -/
structure Amounts where
  delta : ℤ
  debits : ℤ
  limitedCredits : ℤ

def amountsOf (appIndex : ℕ) (fileNo : UInt8) (notes : List Note) : Amounts where
  delta := deltas appIndex fileNo notes
  debits := amounts [dfcCmdDebit] appIndex fileNo notes
  limitedCredits := amounts [dfcCmdLimitedCredit] appIndex fileNo notes

def Amounts.zero : Amounts := { delta := 0, debits := 0, limitedCredits := 0 }

/-- A further accepted command. -/
def Amounts.add (s : Amounts) (amount : ℤ) (debit limitedCredit : Bool) : Amounts where
  delta := s.delta + if debit then -amount else amount
  debits := s.debits + if debit then amount else 0
  limitedCredits := s.limitedCredits + if limitedCredit then amount else 0

/-- What is pending in a value file agrees with the amounts of the transaction. -/
structure ValueAgrees (v : DfcValueFileState) (s : Amounts) : Prop where
  current : v.lowerLimit.toInt ≤ v.current.toInt ∧ v.current.toInt ≤ v.upperLimit.toInt
  idle : v.pending = false → s = .zero ∧ v.limitedCreditPending = 0
  absolute : v.pending = true → v.pendingAbsolute = true
  pending : v.pending = true →
    v.lowerLimit.toInt ≤ v.pendingValue.toInt ∧ v.pendingValue.toInt ≤ v.upperLimit.toInt
  delta : v.pending = true → v.pendingValue.toInt - v.current.toInt = s.delta
  debits : 0 ≤ s.debits
  stored : 0 ≤ v.limitedCreditValue.toInt
  consumed : v.limitedCreditPending = dfcLimitedCreditTransactionConsumed →
    s.limitedCredits ≤ s.debits + v.limitedCreditValue.toInt
  collecting : v.limitedCreditPending ≠ dfcLimitedCreditTransactionConsumed →
    0 ≤ v.limitedCreditPending.toInt ∧ v.limitedCreditPending.toInt ≤ s.debits ∧
      s.limitedCredits = 0

theorem toInt_clampInt32 {x : ℤ} (h : 0 ≤ x) :
    0 ≤ (clampInt32 x).toInt ∧ (clampInt32 x).toInt ≤ x := by
  unfold clampInt32
  split_ifs with hbig hsmall
  · have : (2147483647 : Int32).toInt = 2147483647 := by decide
    omega
  · omega
  · rw [Int32.toInt_ofInt_of_le (by omega) (by omega)]
    omega

theorem toInt_between {x : ℤ} {lower upper : Int32} (hl : lower.toInt ≤ x)
    (hu : x ≤ upper.toInt) : (Int32.ofInt x).toInt = x := by
  have hlower := Int32.le_toInt lower
  have hupper := Int32.toInt_lt upper
  exact Int32.toInt_ofInt_of_le (by omega) (by omega)

/-- The value an accepted delta leads to. -/
theorem ValueAgrees.deltaResult {v : DfcValueFileState} {s : Amounts} (h : ValueAgrees v s)
    {delta : ℤ} {next : Int32} (hnext : valueDeltaResult v delta = some next) :
    v.lowerLimit.toInt ≤ next.toInt ∧ next.toInt ≤ v.upperLimit.toInt ∧
      next.toInt - v.current.toInt = s.delta + delta := by
  have hbase : (if v.pending then
      if v.pendingAbsolute then v.pendingValue.toInt else v.current.toInt + v.pendingDelta.toInt
      else v.current.toInt) = v.current.toInt + s.delta := by
    by_cases hp : v.pending = true
    · rw [if_pos hp, if_pos (h.absolute hp)]
      have := h.delta hp
      omega
    · rw [if_neg hp, (h.idle (by simpa using hp)).1]
      exact (add_zero _).symm
  unfold valueDeltaResult at hnext
  dsimp only at hnext
  rw [hbase] at hnext
  split_ifs at hnext with hout
  obtain rfl := Option.some.inj hnext
  rw [not_or, not_lt, not_lt] at hout
  rw [toInt_between hout.1 hout.2]
  omega

/-- The limited credit a transaction has collected or consumed, after one more command. -/
theorem ValueAgrees.stageLimited {v : DfcValueFileState} {s : Amounts} (h : ValueAgrees v s)
    {amount : Int32} {debit limitedCredit : Bool}
    (hkind : debit = true → limitedCredit = false) (hamount : 0 ≤ amount.toInt)
    (hlimited : limitedCredit = true →
      v.limitedCreditPending ≠ dfcLimitedCreditTransactionConsumed ∧
      amount.toInt ≤ (if 0 < v.limitedCreditPending.toInt then v.limitedCreditPending
        else v.limitedCreditValue).toInt) (next : Int32) :
    let staged := v.stage next amount debit limitedCredit
    let sums := s.add amount.toInt debit limitedCredit
    (staged.limitedCreditPending = dfcLimitedCreditTransactionConsumed →
      sums.limitedCredits ≤ sums.debits + staged.limitedCreditValue.toInt) ∧
    (staged.limitedCreditPending ≠ dfcLimitedCreditTransactionConsumed →
      0 ≤ staged.limitedCreditPending.toInt ∧ staged.limitedCreditPending.toInt ≤ sums.debits ∧
        sums.limitedCredits = 0) := by
  intro staged sums
  have hdebits := h.debits
  have hstored := h.stored
  cases limitedCredit with
  | true =>
    -- What is taken out was collected by earlier debits or is still stored.
    obtain rfl : debit = false := by
      cases debit
      · rfl
      · exact absurd (hkind rfl) (by decide)
    obtain ⟨hnot, hle⟩ := hlimited rfl
    obtain ⟨-, hcollected, hzero⟩ := h.collecting hnot
    refine ⟨fun _ => ?_, fun hne => absurd rfl hne⟩
    show s.limitedCredits + amount.toInt ≤ s.debits + 0 + v.limitedCreditValue.toInt
    split_ifs at hle <;> omega
  | false =>
    have hsame : sums.limitedCredits = s.limitedCredits := add_zero _
    rw [hsame]
    cases debit with
    | false =>
      have hdebitsSame : sums.debits = s.debits := add_zero _
      rw [hdebitsSame]
      exact ⟨h.consumed, h.collecting⟩
    | true =>
      have hdebitsAdd : sums.debits = s.debits + amount.toInt := rfl
      rw [hdebitsAdd]
      by_cases hconsumed : v.limitedCreditPending = dfcLimitedCreditTransactionConsumed
      · have hkeep : staged.limitedCreditPending = dfcLimitedCreditTransactionConsumed := by
          dsimp only [staged, DfcValueFileState.stage]
          rw [hconsumed]
          rfl
        have hle := h.consumed hconsumed
        refine ⟨fun _ => ?_, fun hne => absurd hkeep hne⟩
        show s.limitedCredits ≤ s.debits + amount.toInt + v.limitedCreditValue.toInt
        omega
      · obtain ⟨hpos, hcollected, hzero⟩ := h.collecting hconsumed
        have hadd : staged.limitedCreditPending =
            clampInt32 (v.limitedCreditPending.toInt + amount.toInt) := by
          dsimp only [staged, DfcValueFileState.stage]
          rw [if_neg Bool.false_ne_true, if_pos ⟨rfl, hpos⟩]
        have hclamp := toInt_clampInt32
          (show 0 ≤ v.limitedCreditPending.toInt + amount.toInt by omega)
        rw [hadd, hzero]
        refine ⟨fun _ => ?_, fun _ => ⟨hclamp.1, ?_, rfl⟩⟩
        · show 0 ≤ s.debits + amount.toInt + v.limitedCreditValue.toInt
          omega
        · omega

/-- One accepted Credit, Debit or LimitedCredit. -/
theorem ValueAgrees.stage {v : DfcValueFileState} {s : Amounts} (h : ValueAgrees v s)
    {next amount : Int32} {debit limitedCredit : Bool}
    (hkind : debit = true → limitedCredit = false) (hamount : 0 ≤ amount.toInt)
    (hlimited : limitedCredit = true →
      v.limitedCreditPending ≠ dfcLimitedCreditTransactionConsumed ∧
      amount.toInt ≤ (if 0 < v.limitedCreditPending.toInt then v.limitedCreditPending
        else v.limitedCreditValue).toInt)
    (hnext : valueDeltaResult v (if debit then -amount.toInt else amount.toInt) = some next) :
    ValueAgrees (v.stage next amount debit limitedCredit)
      (s.add amount.toInt debit limitedCredit) := by
  obtain ⟨hlower, hupper, hdelta⟩ := h.deltaResult hnext
  obtain ⟨hconsumed, hcollecting⟩ := h.stageLimited hkind hamount hlimited next
  have hdebits := h.debits
  refine ⟨h.current, fun hp => ?_, fun _ => rfl, fun _ => ⟨hlower, hupper⟩, fun _ => hdelta, ?_,
    h.stored, hconsumed, hcollecting⟩
  · cases hp
  · show 0 ≤ s.debits + if debit then amount.toInt else 0
    split_ifs <;> omega

/-- A value file after an abort. -/
def DfcValueFileState.dropPending (v : DfcValueFileState) : DfcValueFileState :=
  { v with
    pending := false, pendingDelta := 0, pendingValue := 0, pendingAbsolute := false,
    limitedCreditPending := 0 }

/-- A value file after a commit. -/
def DfcValueFileState.publish (v : DfcValueFileState) : DfcValueFileState :=
  { v with
    current := v.committed
    limitedCreditValue :=
      if v.limitedCreditPending = dfcLimitedCreditTransactionConsumed then 0
      else if 0 < v.limitedCreditPending then v.limitedCreditPending
      else v.limitedCreditValue }.dropPending

/-- A value file between two transactions. -/
structure DfcValueFileState.Settled (v : DfcValueFileState) : Prop where
  lower : v.lowerLimit.toInt ≤ v.current.toInt
  upper : v.current.toInt ≤ v.upperLimit.toInt
  pending : v.pending = false
  limitedCreditPending : v.limitedCreditPending = 0
  limitedCreditValue : 0 ≤ v.limitedCreditValue.toInt

theorem DfcValueFileState.Settled.agrees {v : DfcValueFileState} (h : v.Settled) :
    ValueAgrees v .zero := by
  have hidle (hp : v.pending = true) : False := by
    rw [h.pending] at hp
    exact Bool.false_ne_true hp
  have hstored := h.limitedCreditValue
  refine ⟨⟨h.lower, h.upper⟩, fun _ => ⟨rfl, h.limitedCreditPending⟩, fun hp => (hidle hp).elim,
    fun hp => (hidle hp).elim, fun hp => (hidle hp).elim, le_refl 0, hstored, fun _ => ?_,
    fun _ => ?_⟩
  · show 0 ≤ 0 + v.limitedCreditValue.toInt
    omega
  · rw [h.limitedCreditPending]
    exact ⟨le_refl 0, le_refl 0, rfl⟩

theorem ValueAgrees.drop {v : DfcValueFileState} {s : Amounts} (h : ValueAgrees v s) :
    v.dropPending.Settled :=
  ⟨h.current.1, h.current.2, rfl, rfl, h.stored⟩

theorem ValueAgrees.publish {v : DfcValueFileState} {s : Amounts} (h : ValueAgrees v s)
    (hp : v.pending = true) :
    v.publish.Settled ∧ v.publish.current = v.pendingValue ∧
      s.limitedCredits + v.publish.limitedCreditValue.toInt ≤
        s.debits + v.limitedCreditValue.toInt := by
  have hcommitted : v.committed = v.pendingValue := by
    rw [DfcValueFileState.committed, if_pos (h.absolute hp)]
  have hvalue : v.publish.limitedCreditValue =
      if v.limitedCreditPending = dfcLimitedCreditTransactionConsumed then 0
      else if 0 < v.limitedCreditPending then v.limitedCreditPending
      else v.limitedCreditValue := rfl
  have hdebits := h.debits
  have hstored := h.stored
  have hzero : (0 : Int32).toInt = 0 := rfl
  have hlimits : 0 ≤ v.publish.limitedCreditValue.toInt ∧
      s.limitedCredits + v.publish.limitedCreditValue.toInt ≤
        s.debits + v.limitedCreditValue.toInt := by
    rw [hvalue]
    split_ifs with hconsumed hcollected
    · have := h.consumed hconsumed
      omega
    · have := h.collecting hconsumed
      omega
    · have := h.collecting hconsumed
      omega
  have hcurrent : v.publish.current = v.pendingValue := hcommitted
  refine ⟨⟨?_, ?_, rfl, rfl, hlimits.1⟩, hcurrent, hlimits.2⟩
  · rw [hcurrent]
    exact (h.pending hp).1
  · rw [hcurrent]
    exact (h.pending hp).2

/-- The state of a value file, found by its number. -/
def valueState (c : DfcCredential) (appIndex : ℕ) (fileNo : UInt8) : Option DfcValueFileState :=
  (dfcCredentialFindFileInApp c appIndex fileNo).bind fun i =>
    if (c.files i).type = dfcFileTypeValue then some (c.files i).state.value else none

/-- What the value commands see of a file. -/
def valueView (file : DfcFile) : ℕ × UInt8 × UInt8 × DfcValueFileState :=
  (file.appIndex, file.number, file.type, file.state.value)

def isValueView (appIndex : ℕ) (fileNo : UInt8)
    (view : ℕ × UInt8 × UInt8 × DfcValueFileState) : Bool :=
  view.1 == appIndex && view.2.1 == fileNo

def valueOfView (view : ℕ × UInt8 × UInt8 × DfcValueFileState) : Option DfcValueFileState :=
  if view.2.2.1 = dfcFileTypeValue then some view.2.2.2 else none

theorem valueState_eq (c : DfcCredential) (appIndex : ℕ) (fileNo : UInt8) :
    valueState c appIndex fileNo =
      ((fileViews valueView c).find? (isValueView appIndex fileNo)).bind valueOfView := by
  unfold valueState dfcCredentialFindFileInApp fileViews
  rw [List.find?_map, Option.bind_map]
  rfl

theorem valueView_journalBlind : JournalBlind valueView := ⟨fun _ _ => rfl, fun _ _ => rfl⟩

theorem valueView_placementBlind : PlacementBlind valueView := fun _ _ _ => rfl

theorem valueState_congr {c c' : DfcCredential}
    (h : fileViews valueView c' = fileViews valueView c) (appIndex : ℕ) (fileNo : UInt8) :
    valueState c' appIndex fileNo = valueState c appIndex fileNo := by
  rw [valueState_eq, valueState_eq, h]

/-- What a rewrite of the values makes of a view. -/
def rewriteView (g : ℕ → DfcValueFileState → DfcValueFileState)
    (view : ℕ × UInt8 × UInt8 × DfcValueFileState) : ℕ × UInt8 × UInt8 × DfcValueFileState :=
  (view.1, view.2.1, view.2.2.1,
    if view.2.2.1 = dfcFileTypeValue then g view.1 view.2.2.2 else view.2.2.2)

/-- A rewrite of all values rewrites the value that is looked for. -/
theorem valueState_rewrite {c c' : DfcCredential} {g : ℕ → DfcValueFileState → DfcValueFileState}
    (h : fileViews valueView c' = (fileViews valueView c).map (rewriteView g)) (appIndex : ℕ)
    (fileNo : UInt8) :
    valueState c' appIndex fileNo = (valueState c appIndex fileNo).map (g appIndex) := by
  have hsearch : isValueView appIndex fileNo ∘ rewriteView g = isValueView appIndex fileNo := rfl
  rw [valueState_eq, valueState_eq, h, List.find?_map, hsearch]
  cases hfind : (fileViews valueView c).find? (isValueView appIndex fileNo) with
  | none => rfl
  | some view =>
    have hown : view.1 = appIndex := by
      have := List.find?_some hfind
      simp only [isValueView, Bool.and_eq_true, beq_iff_eq] at this
      exact this.1
    show valueOfView (rewriteView g view) = (valueOfView view).map (g appIndex)
    unfold valueOfView rewriteView
    dsimp only
    split_ifs
    · rw [hown]
      rfl
    · rfl

theorem fileViews_mapFilesOf_rewrite (c : DfcCredential) (owner : ℕ) {f : DfcFile → DfcFile}
    {g : DfcValueFileState → DfcValueFileState}
    (h : ∀ file, valueView (f file) = rewriteView (fun _ => g) (valueView file)) :
    fileViews valueView (c.mapFilesOf owner f) =
      (fileViews valueView c).map
        (rewriteView fun appIndex v => if appIndex = owner then g v else v) := by
  unfold fileViews
  rw [List.map_map]
  refine List.map_congr_left fun i hi => ?_
  have hlt : i < c.numFiles := List.mem_range.1 hi
  unfold DfcCredential.mapFilesOf
  dsimp only [Function.comp_apply]
  by_cases hown : (c.files i).appIndex = owner
  · rw [if_pos ⟨hlt, hown⟩, h]
    unfold rewriteView valueView
    dsimp only
    rw [if_pos hown]
  · rw [if_neg fun hboth => hown hboth.2]
    unfold rewriteView valueView
    dsimp only
    rw [if_neg hown, ite_self]

/-- Staging a value of one file. -/
theorem valueState_modifyFile {c : DfcCredential} {owner i : ℕ} {number : UInt8}
    (hfind : dfcCredentialFindFileInApp c owner number = some i)
    (htype : (c.files i).type = dfcFileTypeValue) (f : DfcValueFileState → DfcValueFileState)
    (appIndex : ℕ) (fileNo : UInt8) :
    valueState (c.modifyFile i fun file => file.withValue (f file.state.value)) appIndex fileNo =
      if owner = appIndex ∧ number = fileNo then some (f (c.files i).state.value)
      else valueState c appIndex fileNo := by
  have hsame (appIndex : ℕ) (fileNo : UInt8) :
      dfcCredentialFindFileInApp (c.modifyFile i fun file => file.withValue (f file.state.value))
        appIndex fileNo = dfcCredentialFindFileInApp c appIndex fileNo := by
    unfold dfcCredentialFindFileInApp
    refine List.find?_congr fun j _ => ?_
    rw [modifyFile_files]
    split_ifs with hj
    · rw [hj]
      rfl
    · rfl
  by_cases hit : owner = appIndex ∧ number = fileNo
  · obtain ⟨rfl, rfl⟩ := hit
    rw [if_pos ⟨rfl, rfl⟩, valueState, hsame, hfind, Option.bind_some, modifyFile_files,
      if_pos rfl]
    exact if_pos htype
  · rw [if_neg hit, valueState, hsame, valueState]
    cases hother : dfcCredentialFindFileInApp c appIndex fileNo with
    | none => rfl
    | some j =>
      have hj : j ≠ i := by
        rintro rfl
        have hown := List.find?_some hfind
        have hown' := List.find?_some hother
        simp only [Bool.and_eq_true, beq_iff_eq] at hown hown'
        exact hit ⟨hown.1.symm.trans hown'.1, hown.2.symm.trans hown'.2⟩
      rw [Option.bind_some, Option.bind_some, modifyFile_files, if_neg hj]

theorem valueState_some {c : DfcCredential} {appIndex : ℕ} {fileNo : UInt8}
    {v : DfcValueFileState} (h : valueState c appIndex fileNo = some v) :
    ∃ i, dfcCredentialFindFileInApp c appIndex fileNo = some i ∧
      (c.files i).type = dfcFileTypeValue ∧ (c.files i).state.value = v := by
  obtain ⟨i, hfind, hvalue⟩ := Option.bind_eq_some_iff.1 h
  split_ifs at hvalue with htype
  exact ⟨i, hfind, htype, Option.some.inj hvalue⟩

theorem valueState_of_find {c : DfcCredential} {appIndex i : ℕ} {fileNo : UInt8}
    (hfind : dfcCredentialFindFileInApp c appIndex fileNo = some i)
    (htype : (c.files i).type = dfcFileTypeValue) :
    valueState c appIndex fileNo = some (c.files i).state.value := by
  rw [valueState, hfind, Option.bind_some, if_pos htype]

variable {aes : List UInt8 → List UInt8 → List UInt8} {e e' : DfcEmulator} {env : CommandEnv}
  {apdu payload : List UInt8} {appIndex : ℕ} {fileNo : UInt8} {stored : ℤ} {notes : Notes}
  {v : DfcValueFileState}

/-- The value of the file is as the notes have it. -/
structure ValueInv (appIndex : ℕ) (fileNo : UInt8) (stored : ℤ) (e : DfcEmulator) (notes : Notes)
    (v : DfcValueFileState) : Prop where
  state : valueState e.credential appIndex fileNo = some v
  agrees : ValueAgrees v (amountsOf appIndex fileNo notes.current)
  selected : v.pending = true → e.selectedAppIndex = appIndex
  conserved : amounts [dfcCmdLimitedCredit] appIndex fileNo notes.committed +
      v.limitedCreditValue.toInt ≤
    amounts [dfcCmdDebit] appIndex fileNo notes.committed + stored

/-- The file keeps its value and the application stays selected. -/
structure ValueKept (appIndex : ℕ) (fileNo : UInt8) (e e' : DfcEmulator) : Prop where
  selectedAppIndex : e'.selectedAppIndex = e.selectedAppIndex
  state : ∀ v, valueState e.credential appIndex fileNo = some v →
    valueState e'.credential appIndex fileNo = some v

theorem ValueKept.trans {a b c : DfcEmulator} (h : ValueKept appIndex fileNo a b)
    (h' : ValueKept appIndex fileNo b c) : ValueKept appIndex fileNo a c :=
  ⟨h'.selectedAppIndex.trans h.selectedAppIndex, fun v hv => h'.state v (h.state v hv)⟩

theorem ValueInv.kept (h : ValueInv appIndex fileNo stored e notes v)
    (hkept : ValueKept appIndex fileNo e e') : ValueInv appIndex fileNo stored e' notes v :=
  ⟨hkept.state v h.state, h.agrees, fun hp => hkept.selectedAppIndex.trans (h.selected hp),
    h.conserved⟩

/-- What is unrelated to the transaction leaves the values alone. -/
theorem ValueKept.ofUnrelated (h : Unrelated e e') : ValueKept appIndex fileNo e e' := by
  have hmap (c : DfcCredential) : fileViews valueView c =
      (fileViews transactionView c).map fun view =>
      (view.1, view.2.1, view.2.2.1, view.2.2.2.1) := by
    simp only [fileViews, List.map_map]
    rfl
  refine ⟨h.selectedAppIndex, fun v hv => ?_⟩
  rw [← hv]
  refine valueState_congr ?_ appIndex fileNo
  rw [hmap, hmap, h.views]

theorem ValueKept.taken {op : TransactionMacOperation} (h : MacTaken aes op e e') :
    ValueKept appIndex fileNo e e' := by
  rw [h.eq_update]
  exact ⟨rfl, fun _ hv => hv⟩

/-- A new file does not hide one that was there. -/
theorem ValueKept.appended {l : List (ℕ × UInt8 × UInt8 × DfcValueFileState)}
    (hsel : e'.selectedAppIndex = e.selectedAppIndex)
    (h : fileViews valueView e'.credential = fileViews valueView e.credential ++ l) :
    ValueKept appIndex fileNo e e' := by
  refine ⟨hsel, fun v hv => ?_⟩
  rw [valueState_eq] at hv ⊢
  obtain ⟨view, hfind, hvalue⟩ := Option.bind_eq_some_iff.1 hv
  rw [h, List.find?_append, hfind]
  exact hvalue

theorem ValueKept.mayCreate {type : UInt8} (h : MayCreate e type e') :
    ValueKept appIndex fileNo e e' := by
  obtain ⟨l, happended, -⟩ := h
  refine .appended ?_ (happended.views valueView_placementBlind)
  rw [happended.frame]

theorem ValueKept.createTransactionMacFile
    (h : dfcEmulatorCommandCreateTransactionMacFile e apdu = .ok (e', payload)) :
    ValueKept appIndex fileNo (dfcEmulatorAbortTransaction e).1 e' := by
  obtain ⟨-, -, rfl | ⟨c, i, hcreate, rfl⟩⟩ := createTransactionMacFile_ok h
  · cases hcreate : dfcCredentialCreateFile (dfcEmulatorAbortTransaction e).1.credential
      (dfcEmulatorAbortTransaction e).1.selectedAppIndex (apdu.getD 1 0) with
    | mk c created =>
      cases created with
      | none =>
        rw [createFile_none hcreate]
        exact ⟨rfl, fun _ hv => hv⟩
      | some i => exact .appended rfl (createFile_added hcreate).2.views
  · obtain ⟨rfl, hadded⟩ := createFile_added hcreate
    cases hresize : dfcFileResize c (dfcEmulatorAbortTransaction e).1.credential.numFiles
      dfcTransactionMacFileLength with
    | mk d ok =>
      cases ok with
      | false =>
        rw [resize_refused hresize]
        exact .appended rfl (hadded.modifyFile
          (f := fun file => file.installTransactionMac apdu) rfl rfl).views
      | true =>
        obtain ⟨offset, hresized⟩ := hadded.resize ⟨rfl, rfl⟩ hresize
        exact .appended rfl (hresized.modifyFile
          (f := fun file => file.installTransactionMac apdu) rfl rfl).views

/-- Deleting another file. -/
theorem ValueKept.deleteFile {number : UInt8}
    (hother : ¬(e.selectedAppIndex = appIndex ∧ number = fileNo)) :
    ValueKept appIndex fileNo e (e.mapCredential fun c =>
      (dfcCredentialDeleteFile c e.selectedAppIndex number).1) := by
  refine ⟨rfl, fun v hv => ?_⟩
  show valueState (dfcCredentialDeleteFile e.credential e.selectedAppIndex number).1 appIndex
    fileNo = some v
  cases hfind : dfcCredentialFindFileInApp e.credential e.selectedAppIndex number with
  | none =>
    rw [dfcCredentialDeleteFile, hfind]
    exact hv
  | some i =>
    have hi : i < e.credential.numFiles := List.mem_range.1 (List.mem_of_find?_eq_some hfind)
    have hown := List.find?_some hfind
    simp only [Bool.and_eq_true, beq_iff_eq] at hown
    rw [← hv, valueState_eq, valueState_eq, valueView_placementBlind.deleteFile hfind,
      find?_eraseIdx (by simpa [fileViews] using hi)]
    simp only [fileViews, List.getElem_map, List.getElem_range]
    rw [← hown.1, ← hown.2] at hother
    simpa [isValueView, valueView] using hother

/-- The value after an abort, pending or not. -/
def DfcValueFileState.aborted (v : DfcValueFileState) : DfcValueFileState :=
  if v.pending then v.dropPending else v

/-- The value after a commit, pending or not. -/
def DfcValueFileState.published (v : DfcValueFileState) : DfcValueFileState :=
  if v.pending then v.publish else v

theorem valueView_abort (file : DfcFile) :
    valueView (if file.hasPendingValue then file.dropPendingValue else file) =
      rewriteView (fun _ => DfcValueFileState.aborted) (valueView file) := by
  unfold DfcFile.hasPendingValue rewriteView valueView DfcValueFileState.aborted
  by_cases htype : file.type = dfcFileTypeValue
  · by_cases hp : file.state.value.pending = true
    · simp [htype, hp, DfcFile.dropPendingValue, DfcFile.withValue,
        DfcValueFileState.dropPending]
    · simp [htype, hp]
  · simp [htype]

theorem valueView_publish (file : DfcFile) :
    valueView file.published =
      rewriteView (fun _ => DfcValueFileState.published) (valueView file) := by
  unfold DfcFile.published DfcFile.hasPendingValue rewriteView valueView
    DfcValueFileState.published
  by_cases htype : file.type = dfcFileTypeValue
  · by_cases hp : file.state.value.pending = true
    · simp [htype, hp, DfcFile.publishValue, DfcFile.dropPendingValue, DfcFile.withValue,
        DfcValueFileState.publish, DfcValueFileState.dropPending]
    · simp [htype, hp]
  · simp [htype]

/-- A value that is not pending agrees with no amounts at all. -/
theorem ValueInv.settled (h : ValueInv appIndex fileNo stored e notes v)
    (hp : v.pending = false) : v.Settled :=
  ⟨h.agrees.current.1, h.agrees.current.2, hp, (h.agrees.idle hp).2, h.agrees.stored⟩

/-- Where the application of the file is another, nothing is pending in the file. -/
theorem ValueInv.rewrite (h : ValueInv appIndex fileNo stored e notes v)
    {f : DfcFile → DfcFile} {g : DfcValueFileState → DfcValueFileState}
    (hf : ∀ file, valueView (f file) = rewriteView (fun _ => g) (valueView file))
    (hg : v.pending = false → g v = v) {c : DfcCredential}
    (hc : fileViews valueView c = fileViews valueView e.credential) :
    valueState (c.mapFilesOf e.selectedAppIndex f) appIndex fileNo = some (g v) := by
  rw [valueState_rewrite (fileViews_mapFilesOf_rewrite c e.selectedAppIndex hf),
    valueState_congr hc, h.state, Option.map_some]
  split_ifs with hown
  · rfl
  · have hp : v.pending = false := by
      by_contra hp
      exact hown (h.selected (by simpa using hp)).symm
    rw [hg hp]

/-- An abort drops what is pending and keeps the value. -/
theorem ValueInv.abort (h : ValueInv appIndex fileNo stored e notes v) :
    ValueInv appIndex fileNo stored (dfcEmulatorAbortTransaction e).1 notes.close v.aborted ∧
      v.aborted.pending = false ∧ v.aborted.current = v.current := by
  have hstate : valueState (dfcEmulatorAbortTransaction e).1.credential appIndex fileNo =
      some v.aborted := by
    rw [abortTransaction_fst]
    show valueState ((abortJournalAndMac e).credential.mapFilesOf
      (abortJournalAndMac e).selectedAppIndex fun file =>
        if file.hasPendingValue then file.dropPendingValue else file) appIndex fileNo = _
    rw [abortJournalAndMac_selectedAppIndex]
    refine h.rewrite valueView_abort (fun hp => ?_)
      (abortJournalAndMac_views valueView_journalBlind e)
    rw [DfcValueFileState.aborted, hp]
    rfl
  have hsettled : v.aborted.Settled ∧ v.aborted.current = v.current ∧
      v.aborted.limitedCreditValue = v.limitedCreditValue := by
    unfold DfcValueFileState.aborted
    split_ifs with hp
    · exact ⟨h.agrees.drop, rfl, rfl⟩
    · exact ⟨h.settled (by simpa using hp), rfl, rfl⟩
  obtain ⟨hsettled, hcurrent, hvalue⟩ := hsettled
  refine ⟨⟨hstate, hsettled.agrees, fun hp => ?_, ?_⟩, hsettled.pending, hcurrent⟩
  · rw [hsettled.pending] at hp
    cases hp
  · rw [hvalue]
    exact h.conserved

/-- A commit makes the pending value the value. -/
theorem ValueInv.publish (h : ValueInv appIndex fileNo stored e notes v)
    (hstate : valueState e'.credential appIndex fileNo = some v.published) :
    ValueInv appIndex fileNo stored e'
        { current := [], committed := notes.committed ++ notes.current } v.published ∧
      v.published.pending = false ∧
      v.published.current = if v.pending then v.pendingValue else v.current := by
  have hconserved := h.conserved
  have hsettled : v.published.Settled ∧
      (v.published.current = if v.pending then v.pendingValue else v.current) ∧
      amounts [dfcCmdLimitedCredit] appIndex fileNo notes.current +
          v.published.limitedCreditValue.toInt ≤
        amounts [dfcCmdDebit] appIndex fileNo notes.current + v.limitedCreditValue.toInt := by
    unfold DfcValueFileState.published
    split_ifs with hp
    · exact h.agrees.publish hp
    · have hzero := (h.agrees.idle (by simpa using hp)).1
      have hdebits : amounts [dfcCmdDebit] appIndex fileNo notes.current = 0 :=
        congrArg Amounts.debits hzero
      have hlimited : amounts [dfcCmdLimitedCredit] appIndex fileNo notes.current = 0 :=
        congrArg Amounts.limitedCredits hzero
      refine ⟨h.settled (by simpa using hp), rfl, ?_⟩
      rw [hdebits, hlimited]
  obtain ⟨hsettled, hcurrent, hle⟩ := hsettled
  refine ⟨⟨hstate, hsettled.agrees, fun hp => ?_, ?_⟩, hsettled.pending, hcurrent⟩
  · rw [hsettled.pending] at hp
    cases hp
  · simp only [amounts_append]
    omega

/-- The operation on a value has the command's own code. -/
theorem acceptedOperation_value {command number : UInt8} {amount : UInt32}
    (h : acceptedOperation e env apdu payload = some (.value command number amount)) :
    command = dfcFileCommandBase (apdu.getD 0 0) := by
  revert h
  unfold acceptedOperation
  dsimp only
  refine of_ite_eq (fun _ h => by cases h) fun _ => ?_
  refine of_ite_eq (fun _ h => by cases h) fun _ => ?_
  refine of_ite_eq (fun _ h => by cases h) fun _ => ?_
  refine of_ite_eq (fun _ h => by cases h) fun _ => ?_
  refine of_ite_eq (fun _ h => by cases h) fun _ => ?_
  refine of_ite_eq (fun _ h => by cases h; rfl) fun _ => ?_
  refine of_ite_eq (fun _ h => by cases h; rfl) fun _ => ?_
  refine of_ite_eq (fun _ h => ?_) fun _ h => by cases h
  cases hreader : unwrapReaderId e env apdu with
  | ok readerId =>
    rw [hreader] at h
    cases h
  | error r =>
    rw [hreader] at h
    cases h

/-- The other commands count for no amount. -/
theorem amountsOf_recorded (hbase : dfcFileCommandBase (apdu.getD 0 0) ∉
      [dfcCmdCredit, dfcCmdLimitedCredit, dfcCmdDebit]) (l : List Note) :
    amountsOf appIndex fileNo (l ++ (noteOf e env apdu payload).toList) =
      amountsOf appIndex fileNo l := by
  have hzero (commands : List UInt8)
      (hsub : ∀ c ∈ commands, c ∈ [dfcCmdCredit, dfcCmdLimitedCredit, dfcCmdDebit]) :
      amounts commands appIndex fileNo (noteOf e env apdu payload).toList = 0 := by
    unfold noteOf
    cases hop : acceptedOperation e env apdu payload with
    | none => rfl
    | some op =>
      cases op with
      | value command number amount =>
        have hcommand := acceptedOperation_value hop
        have hnot : command ∉ commands := fun hmem => hbase (hcommand ▸ hsub command hmem)
        simp [amounts, Note.amount, hnot]
      | _ => simp [amounts, Note.amount]
  unfold amountsOf deltas
  simp only [amounts_append]
  rw [hzero [dfcCmdCredit, dfcCmdLimitedCredit] (by simp), hzero [dfcCmdDebit] (by simp),
    hzero [dfcCmdLimitedCredit] (by simp)]
  simp only [add_zero]

theorem ValueInv.recorded (h : ValueInv appIndex fileNo stored e notes v)
    (hbase : dfcFileCommandBase (apdu.getD 0 0) ∉
      [dfcCmdCredit, dfcCmdLimitedCredit, dfcCmdDebit])
    (hrec : Recorded aes e env apdu payload e') :
    ValueInv appIndex fileNo stored e' { notes with
      current := notes.current ++ (noteOf e env apdu payload).toList } v := by
  have hkept : ValueKept appIndex fileNo e e' := by
    obtain ⟨op, -, -, hsteps⟩ := hrec
    split_ifs at hsteps
    · exact .ofUnrelated hsteps
    · obtain ⟨e₁, e₂, hbefore, htaken, hafter⟩ := hsteps
      exact ((ValueKept.ofUnrelated hbefore).trans (.taken htaken)).trans (.ofUnrelated hafter)
  obtain ⟨hstate, hagrees, hselected, hconserved⟩ := h.kept hkept
  refine ⟨hstate, ?_, hselected, hconserved⟩
  rw [amountsOf_recorded hbase]
  exact hagrees

/-- The note of an accepted value command. -/
def valueNote (owner : ℕ) (cmd number : UInt8) (amount : Int32) : Note :=
  { appIndex := owner, operation := .value cmd number amount.toUInt32, ofMacFile := false }

/-- The note of a value command on the file adds its amount, one on another file none. -/
theorem amountsOf_valueNote (appIndex : ℕ) (fileNo : UInt8) (owner : ℕ) (number : UInt8)
    (amount : Int32) (l : List Note) {cmd : UInt8}
    (hcmd : cmd = dfcCmdCredit ∨ cmd = dfcCmdLimitedCredit ∨ cmd = dfcCmdDebit) :
    amountsOf appIndex fileNo (l ++ [valueNote owner cmd number amount]) =
      if owner = appIndex ∧ number = fileNo then
        (amountsOf appIndex fileNo l).add amount.toInt (cmd == dfcCmdDebit)
          (cmd == dfcCmdLimitedCredit)
      else amountsOf appIndex fileNo l := by
  have hone (commands : List UInt8) : amounts commands appIndex fileNo
      [valueNote owner cmd number amount] =
      if (owner = appIndex ∧ number = fileNo) ∧ cmd ∈ commands then amount.toInt else 0 := by
    simp [amounts, Note.amount, valueNote, and_assoc]
  unfold amountsOf deltas Amounts.add
  simp only [amounts_append, hone]
  by_cases hfile : owner = appIndex ∧ number = fileNo
  · rw [if_pos hfile]
    simp only [hfile, true_and]
    rw [Amounts.mk.injEq]
    obtain rfl | rfl | rfl := hcmd
    · simp [dfcCmdCredit, dfcCmdDebit, dfcCmdLimitedCredit]
      omega
    · simp [dfcCmdCredit, dfcCmdDebit, dfcCmdLimitedCredit]
      omega
    · simp [dfcCmdCredit, dfcCmdDebit, dfcCmdLimitedCredit]
      omega
  · simp [hfile]

theorem noteOf_valueDelta {amount : Int32}
    (hcmd : dfcFileCommandBase (apdu.getD 0 0) = dfcCmdCredit ∨
      dfcFileCommandBase (apdu.getD 0 0) = dfcCmdLimitedCredit ∨
      dfcFileCommandBase (apdu.getD 0 0) = dfcCmdDebit)
    (hamount : unwrapAmount e env apdu = .clear amount) :
    noteOf e env apdu payload = some (valueNote e.selectedAppIndex
      (dfcFileCommandBase (apdu.getD 0 0)) (apdu.getD 1 0) amount) := by
  obtain ⟨hop, hreads⟩ : acceptedOperation e env apdu payload = _ ∧ _ :=
    valueDelta_operation hcmd hamount
  rw [noteOf, hop, hreads]
  rfl

/-- Credit, Debit and LimitedCredit, on the file or on another one. -/
theorem ValueInv.valueDelta (h : ValueInv appIndex fileNo stored e notes v)
    (hcmd : dfcFileCommandBase (apdu.getD 0 0) = dfcCmdCredit ∨
      dfcFileCommandBase (apdu.getD 0 0) = dfcCmdLimitedCredit ∨
      dfcFileCommandBase (apdu.getD 0 0) = dfcCmdDebit)
    (hok : dfcEmulatorCommandValueDelta aes e env apdu (dfcFileCommandBase (apdu.getD 0 0))
      (dfcFileCommandBase (apdu.getD 0 0) == dfcCmdDebit)
      (dfcFileCommandBase (apdu.getD 0 0) == dfcCmdLimitedCredit) = .ok (e', payload)) :
    ∃ v', ValueInv appIndex fileNo stored e' { notes with
      current := notes.current ++ (noteOf e env apdu payload).toList } v' ∧
      v'.current = v.current := by
  obtain ⟨i, amount, next, recorded, hfind, htype, hamount, hsign, hlimited, hnext, htaken, rfl,
    rfl⟩ := valueDelta_ok hok
  have hframe := htaken.eq_update
  have hcredential : recorded.credential = e.credential := by rw [hframe]
  have hsel : recorded.selectedAppIndex = e.selectedAppIndex := by rw [hframe]
  have hkind : (dfcFileCommandBase (apdu.getD 0 0) == dfcCmdDebit) = true →
      (dfcFileCommandBase (apdu.getD 0 0) == dfcCmdLimitedCredit) = false := by
    obtain hc | hc | hc := hcmd <;> rw [hc] <;> decide
  have hamounts := amountsOf_valueNote appIndex fileNo e.selectedAppIndex (apdu.getD 1 0) amount
    notes.current hcmd
  rw [noteOf_valueDelta hcmd hamount]
  generalize dfcFileCommandBase (apdu.getD 0 0) = cmd at *
  have hstate := valueState_modifyFile hfind htype
    (fun v => v.stage next amount (cmd == dfcCmdDebit) (cmd == dfcCmdLimitedCredit)) appIndex fileNo
  by_cases hfile : e.selectedAppIndex = appIndex ∧ apdu.getD 1 0 = fileNo
  · rw [if_pos hfile] at hamounts hstate
    have hv : (e.credential.files i).state.value = v := by
      have hfound := valueState_of_find hfind htype
      rw [hfile.1, hfile.2, h.state] at hfound
      exact (Option.some.inj hfound).symm
    rw [hv] at hlimited hnext hstate
    rw [← hcredential] at hstate
    refine ⟨_, ⟨hstate, ?_, fun _ => hsel.trans hfile.1, h.conserved⟩, rfl⟩
    show ValueAgrees _ (amountsOf appIndex fileNo (notes.current ++ [valueNote _ _ _ _]))
    rw [hamounts]
    exact h.agrees.stage hkind hsign hlimited hnext
  · rw [if_neg hfile] at hamounts hstate
    rw [h.state, ← hcredential] at hstate
    refine ⟨v, ⟨hstate, ?_, fun hp => hsel.trans (h.selected hp),
      h.conserved⟩, rfl⟩
    show ValueAgrees _ (amountsOf appIndex fileNo (notes.current ++ [valueNote _ _ _ _]))
    rw [hamounts]
    exact h.agrees

/-- The value that is there once a commit is accepted. -/
theorem ValueInv.commitState (h : ValueInv appIndex fileNo stored e notes v)
    (hok : commitTransaction aes e env apdu = .ok (e', payload)) :
    valueState e'.credential appIndex fileNo = some v.published := by
  have hpublished : valueState (dfcEmulatorPublishTransaction e).credential appIndex fileNo =
      some v.published := by
    rw [publishTransaction_credential]
    refine h.rewrite valueView_publish (fun hp => ?_) rfl
    rw [DfcValueFileState.published, hp]
    rfl
  obtain ⟨-, ⟨-, rfl, -⟩ | ⟨i, mac, counter, -, -, rfl, -⟩⟩ := commitTransaction_ok hok
  · exact hpublished
  · rw [← hpublished]
    generalize dfcEmulatorPublishTransaction e = published
    refine valueState_congr ?_ appIndex fileNo
    exact fileViews_modifyFile published.credential i (f := fun file => file.withTransactionMac _)
      rfl

theorem ValueInv.deleteFile (h : ValueInv appIndex fileNo stored e notes v) {i : ℕ}
    {number : UInt8} (hother : ¬(e.selectedAppIndex = appIndex ∧ number = fileNo))
    (he' : e' = (dfcEmulatorTransactionSnapshotNotePersistentChange
      ((beforeDelete e i).mapCredential fun c => (dfcCredentialDeleteFile c
        (beforeDelete e i).selectedAppIndex number).1)).markDirty) :
    ∃ v', ValueInv appIndex fileNo stored e'
        (if (e.credential.files i).type = dfcFileTypeTransactionMac then notes.close else notes)
        v' ∧ v'.current = v.current := by
  have hbefore : ∃ v', ValueInv appIndex fileNo stored (beforeDelete e i)
      (if (e.credential.files i).type = dfcFileTypeTransactionMac then notes.close else notes)
      v' ∧ v'.current = v.current := by
    unfold beforeDelete
    split_ifs
    · exact ⟨_, h.abort.1, h.abort.2.2⟩
    · exact ⟨v, h.kept (.ofUnrelated (.snapshotDeleteFile e i)), rfl⟩
  have hsel : (beforeDelete e i).selectedAppIndex = e.selectedAppIndex := by
    unfold beforeDelete
    split_ifs
    · exact abortTransaction_selectedAppIndex e
    · exact (Unrelated.snapshotDeleteFile e i).selectedAppIndex
  obtain ⟨v', hv', hcurrent⟩ := hbefore
  rw [← hsel] at hother
  subst he'
  exact ⟨v', (hv'.kept (.deleteFile hother)).kept
    (.ofUnrelated (.notePersistentChange _)), hcurrent⟩

/-- What a step does to the value: a commit publishes it, everything else keeps it. -/
structure ValueStep (appIndex : ℕ) (fileNo : UInt8) (stored : ℤ) (v : DfcValueFileState)
    (committed : Prop) (e' : DfcEmulator) (notes' : Notes) (v' : DfcValueFileState) : Prop where
  inv : ValueInv appIndex fileNo stored e' notes' v'
  commits : committed → v'.pending = false ∧
    v'.current = if v.pending then v.pendingValue else v.current
  keeps : ¬committed → v'.current = v.current

/-- Whether a command deletes the file. -/
def deletesFile (aes : List UInt8 → List UInt8 → List UInt8) (appIndex : ℕ) (fileNo : UInt8)
    (e : DfcEmulator) (env : CommandEnv) (apdu : List UInt8) : Prop :=
  apdu.getD 0 0 = dfcCmdDeleteFile ∧ apdu.getD 1 0 = fileNo ∧ e.selectedAppIndex = appIndex ∧
    ∃ e' payload, dfcEmulatorHandleCommand aes e env apdu = some (e', .accepted payload)

theorem ValueInv.accepted (h : ValueInv appIndex fileNo stored e notes v)
    (hkeep : ¬deletesFile aes appIndex fileNo e env apdu)
    (hhandled : dfcEmulatorHandleCommand aes e env apdu = some (e', .accepted payload))
    (hacc : AcceptedAs aes e env apdu e' payload) :
    ∃ v', ValueStep appIndex fileNo stored v (apdu.getD 0 0 = dfcCmdCommitTransaction) e'
      (notes.next e env apdu e' (.accepted payload)) v' := by
  cases hacc with
  | recorded hnot hnext hbase hrec =>
    rw [hnext]
    exact ⟨v, h.recorded hbase hrec, fun hc => absurd hc hnot, fun _ => rfl⟩
  | valueDelta hnot hnext hcmd hok =>
    rw [hnext]
    obtain ⟨v', hv', hcurrent⟩ := h.valueDelta hcmd hok
    exact ⟨v', hv', fun hc => absurd hc hnot, fun _ => hcurrent⟩
  | commit hnext hcmd hok =>
    rw [hnext]
    obtain ⟨hv', hpending, hcurrent⟩ := h.publish (h.commitState hok)
    exact ⟨_, hv', fun _ => ⟨hpending, hcurrent⟩, fun hnot => absurd hcmd hnot⟩
  | aborted hnot hnext he' =>
    rw [hnext, he']
    exact ⟨_, h.abort.1, fun hc => absurd hc hnot, fun _ => h.abort.2.2⟩
  | macFileCreated hnot hnext hok =>
    rw [hnext]
    exact ⟨_, h.abort.1.kept (.createTransactionMacFile hok), fun hc => absurd hc hnot,
      fun _ => h.abort.2.2⟩
  | fileDeleted hcmd hfind hnext he' =>
    rw [hnext]
    have hnot : apdu.getD 0 0 ≠ dfcCmdCommitTransaction := by
      rw [hcmd]
      decide
    obtain ⟨v', hv', hcurrent⟩ := h.deleteFile
      (fun hfile => hkeep ⟨hcmd, hfile.2, hfile.1, e', payload, hhandled⟩) he'
    exact ⟨v', hv', fun hc => absurd hc hnot, fun _ => hcurrent⟩
  | fileCreated hnot hnext htype hmay =>
    rw [hnext]
    exact ⟨v, h.kept (.mayCreate hmay), fun hc => absurd hc hnot, fun _ => rfl⟩

/-- While a value is pending the transaction is open. -/
theorem ValueInv.isOpen (h : ValueInv appIndex fileNo stored e notes v)
    (hp : v.pending = true) : transactionOpen e = true := by
  obtain ⟨i, hfind, htype, hvalue⟩ := valueState_some h.state
  have hi : i ∈ List.range e.credential.numFiles := List.mem_of_find?_eq_some hfind
  have hown := List.find?_some hfind
  simp only [Bool.and_eq_true, beq_iff_eq] at hown
  have hpending : valuePending e.credential e.selectedAppIndex = true := by
    rw [valuePending_eq, List.any_eq_true]
    refine ⟨i, hi, ?_⟩
    rw [DfcFile.hasPendingValue, htype, hvalue, hp, hown.1, h.selected hp]
    simp
  rw [transactionOpen_eq, hpending, Bool.or_true]

/-- A closed transaction has no notes on the file that count. -/
theorem ValueInv.close (h : ValueInv appIndex fileNo stored e notes v)
    (hclosed : transactionOpen e = false) : ValueInv appIndex fileNo stored e notes.close v := by
  have hp : v.pending = false := by
    by_contra hp
    rw [h.isOpen (by simpa using hp)] at hclosed
    cases hclosed
  exact ⟨h.state, (h.settled hp).agrees, h.selected, h.conserved⟩

/-- A malformed commit or abort drops what is pending. -/
theorem ValueInv.cleared (h : ValueInv appIndex fileNo stored e notes v) :
    ∃ v', ValueInv appIndex fileNo stored (dfcEmulatorCommandClearSelectedAppPendingValues e)
      notes.close v' ∧ v'.current = v.current := by
  have hview (file : DfcFile) :
      valueView (if file.type = dfcFileTypeValue then file.dropPendingValue else file) =
        rewriteView (fun _ => DfcValueFileState.dropPending) (valueView file) := by
    unfold rewriteView valueView
    split_ifs with htype
    · rfl
    · rfl
  have hstate := valueState_rewrite
    (fileViews_mapFilesOf_rewrite e.credential e.selectedAppIndex hview) appIndex fileNo
  rw [h.state, Option.map_some] at hstate
  by_cases hown : appIndex = e.selectedAppIndex
  · rw [if_pos hown] at hstate
    refine ⟨v.dropPending, ⟨hstate, h.agrees.drop.agrees, fun hp => ?_, h.conserved⟩, rfl⟩
    cases hp
  · rw [if_neg hown] at hstate
    have hp : v.pending = false := by
      by_contra hp
      exact hown (h.selected (by simpa using hp)).symm
    exact ⟨v, ⟨hstate, (h.settled hp).agrees, h.selected, h.conserved⟩, rfl⟩

/-- Whatever a refused handler leaves, the value is the same and the notes can be closed. -/
theorem ValueInv.left (h : ValueInv appIndex fileNo stored e notes v) (hleft : Left aes e e') :
    ∃ notes' v', notes'.close = notes.close ∧ v'.current = v.current ∧
      ValueInv appIndex fileNo stored e' notes' v' := by
  induction hleft with
  | retry hretry => exact ⟨notes, v, rfl, rfl, h.kept (.ofUnrelated (.leftForRetry hretry))⟩
  | opened hopen => exact ⟨notes, v, rfl, rfl, h.kept (.ofUnrelated (.openJournal hopen))⟩
  | taken hread htaken =>
    exact ⟨notes, v, rfl, rfl, (h.kept (.ofUnrelated (.readDataFrom hread))).kept (.taken htaken)⟩
  | chain _ ih =>
    obtain ⟨notes', v', hnotes, hcurrent, hv'⟩ := ih
    exact ⟨notes', v', hnotes, hcurrent, hv'.kept (.ofUnrelated ⟨rfl, rfl, rfl, rfl, rfl⟩)⟩
  | reset _ ih =>
    obtain ⟨notes', v', hnotes, hcurrent, hv'⟩ := ih
    obtain ⟨hinv, -, hsame⟩ := hv'.abort
    exact ⟨notes'.close, v'.aborted, hnotes, hsame.trans hcurrent, hinv.state, hinv.agrees,
      hinv.selected, hinv.conserved⟩
  | cleared =>
    obtain ⟨v', hv', hcurrent⟩ := h.cleared
    exact ⟨notes.close, v', rfl, hcurrent, hv'⟩
  | aborted => exact ⟨notes.close, v.aborted, rfl, h.abort.2.2, h.abort.1⟩
  | created htype hmay => exact ⟨notes, v, rfl, rfl, h.kept (.mayCreate hmay)⟩

theorem ValueInv.refused (h : ValueInv appIndex fileNo stored e notes v)
    (hr : RefusedAs aes e e') (env : CommandEnv) (apdu : List UInt8) (status : UInt8) :
    ∃ v', ValueInv appIndex fileNo stored e' (notes.next e env apdu e' (.refused status)) v' ∧
      v'.current = v.current := by
  rw [Notes.next]
  cases hr with
  | kept hkept =>
    have hv := h.kept (ValueKept.ofUnrelated hkept)
    split_ifs with hopen
    · exact ⟨v, hv, rfl⟩
    · exact ⟨v, hv.close (by simpa using hopen), rfl⟩
  | ended hleft hended hclosed =>
    obtain ⟨notes', v', hnotes, hcurrent, hv'⟩ := h.left hleft
    obtain ⟨hinv, -, hsame⟩ := hv'.abort
    rw [hnotes] at hinv
    rw [hclosed, if_neg Bool.false_ne_true]
    exact ⟨v'.aborted, hinv.kept (.ofUnrelated hended), hsame.trans hcurrent⟩

/-- Whether an event is a commit the card accepts. -/
def commitsTransaction (aes : List UInt8 → List UInt8 → List UInt8) (e : DfcEmulator) :
    CardEvent → Prop
  | .command env apdu => apdu.getD 0 0 = dfcCmdCommitTransaction ∧
      ∃ e' payload, dfcEmulatorHandleCommand aes e env apdu = some (e', .accepted payload)
  | _ => False

/-- The events that leave the file on the card. -/
def keepsFile (aes : List UInt8 → List UInt8 → List UInt8) (appIndex : ℕ) (fileNo : UInt8)
    (e : DfcEmulator) : CardEvent → Prop
  | .command env apdu => ¬deletesFile aes appIndex fileNo e env apdu
  | _ => True

/-- The selection of an application ends the transaction of the one before. -/
theorem ValueInv.select (h : ValueInv appIndex fileNo stored e notes v)
    (selection : DfcEmulatorSelectedApplication) (index : ℕ) :
    ValueInv appIndex fileNo stored (dfcEmulatorSelectApplication e selection index) notes.close
      v.aborted := by
  obtain ⟨hinv, hpending, -⟩ := h.abort
  refine ⟨hinv.state, hinv.agrees, fun hp => ?_, hinv.conserved⟩
  rw [hpending] at hp
  cases hp

theorem ValueInv.step {s' : DfcEmulator × Notes} {event : CardEvent}
    (h : ValueInv appIndex fileNo stored e notes v) (hkeep : keepsFile aes appIndex fileNo e event)
    (hstep : CardStep aes event (e, notes) s') :
    ∃ v', ValueStep appIndex fileNo stored v (commitsTransaction aes e event) s'.1 s'.2 v' := by
  cases hstep with
  | @command _ e' _ env apdu reply hcommand =>
    obtain ⟨payload, rfl, hacc⟩ | ⟨status, rfl, hr⟩ := handleCommand_outcome hcommand
    · obtain ⟨v', hv'⟩ := h.accepted hkeep hcommand hacc
      exact ⟨v', hv'.inv, fun hc => hv'.commits hc.1,
        fun hnot => hv'.keeps fun hc => hnot ⟨hc, e', payload, hcommand⟩⟩
    · obtain ⟨v', hv', hcurrent⟩ := h.refused hr env apdu status
      refine ⟨v', hv', fun hc => ?_, fun _ => hcurrent⟩
      obtain ⟨-, e₁, payload, haccepted⟩ := hc
      rw [hcommand] at haccepted
      cases haccepted
  | unrelated hunrelated =>
    exact ⟨v, h.kept (.ofUnrelated hunrelated), fun hc => hc.elim, fun _ => rfl⟩
  | abort => exact ⟨_, h.abort.1, fun hc => hc.elim, fun _ => h.abort.2.2⟩
  | select selection index =>
    exact ⟨_, h.select selection index, fun hc => hc.elim, fun _ => h.abort.2.2⟩

/-- A value file that was just created, or one of a loaded card, with the limited credit
that is stored in it. -/
inductive ValueFileStart : ℕ → UInt8 → ℤ → DfcEmulator → Prop where
  | created {before e : DfcEmulator} {apdu : List UInt8}
      (happs : before.credential.numApps ≤ dfcMaxApps)
      (h : dfcEmulatorCommandCreateValueFile before apdu = (e, [dfcStatusOk])) :
      ValueFileStart before.selectedAppIndex (apdu.getD 1 0) 0 e
  | loaded {e : DfcEmulator} {input : Slice} {appIndex : ℕ} {fileNo : UInt8}
      {v : DfcValueFileState} (hload : decodeCredential input = .ok e.credential)
      (hfile : valueState e.credential appIndex fileNo = some v) :
      ValueFileStart appIndex fileNo v.limitedCreditValue.toInt e

theorem settled_of_loaded {input : Slice} {c : DfcCredential}
    (hload : decodeCredential input = .ok c)
    (hfile : valueState c appIndex fileNo = some v) : v.Settled := by
  obtain ⟨hquiet, hcheck⟩ := decodeCredential_quiet hload
  obtain ⟨i, hfind, htype, rfl⟩ := valueState_some hfile
  have hi : i < c.numFiles := List.mem_range.1 (List.mem_of_find?_eq_some hfind)
  have hcontents : modelContentsCheck c (c.files i) = .ok () := by
    have hfilecheck := modelFileCheck_of_modelCheck hcheck hi
    unfold modelFileCheck at hfilecheck
    simp only [bind_eq_ok, refuseIf_eq_ok, exists_and_left, exists_const] at hfilecheck
    obtain ⟨-, -, -, -, -, -, -, _, hcontents, -⟩ := hfilecheck
    exact hcontents
  rw [modelContentsCheck, htype, if_neg (by decide), if_pos rfl] at hcontents
  unfold modelValueCheck at hcontents
  simp only [bind_eq_ok, refuseIf_eq_ok, exists_and_left, exists_const, not_or, not_lt] at hcontents
  obtain ⟨⟨hlower, hupper⟩, -, -, hstored⟩ := hcontents
  exact ⟨hlower, hupper, (hquiet i).pending, (hquiet i).limitedCreditPending, hstored⟩

/-- A file that CreateValueFile made. -/
theorem settled_of_created {before : DfcEmulator} (happs : before.credential.numApps ≤ dfcMaxApps)
    (h : dfcEmulatorCommandCreateValueFile before apdu = (e, [dfcStatusOk])) :
    ∃ v, valueState e.credential before.selectedAppIndex (apdu.getD 1 0) = some v ∧ v.Settled ∧
      v.limitedCreditValue = 0 := by
  obtain ⟨⟨hlower, hupper⟩, hinstall⟩ := createValueFile_installs h
  obtain ⟨file, hcreated, hnew, hvalue⟩ := installValueFile_ok hinstall
  have hfind := hcreated.added.find happs
  have hrecord := hcreated.added.record
  rw [hnew.number] at hfind
  have hstate := valueState_of_find hfind (by rw [hrecord, hnew.type]; rfl)
  rw [hrecord, hvalue] at hstate
  exact ⟨_, hstate, ⟨hlower, hupper, rfl, rfl, le_refl 0⟩, rfl⟩

/-- The invariant where a run starts. -/
theorem ValueFileStart.inv (h : ValueFileStart appIndex fileNo stored e) :
    ∃ v, ValueInv appIndex fileNo stored e {} v := by
  have hidle {v : DfcValueFileState} (hv : v.Settled) : v.pending = true →
      e.selectedAppIndex = appIndex := fun hp => by
    rw [hv.pending] at hp
    cases hp
  cases h with
  | created happs hcreate =>
    obtain ⟨v, hstate, hv, hzero⟩ := settled_of_created happs hcreate
    refine ⟨v, hstate, hv.agrees, hidle hv, ?_⟩
    rw [hzero]
    exact le_refl _
  | loaded hload hfile =>
    have hv := settled_of_loaded hload hfile
    refine ⟨_, hfile, hv.agrees, hidle hv, ?_⟩
    exact le_refl _

/-- What holds of a value file in a state of a run. -/
structure ValueFileSound (aes : List UInt8 → List UInt8 → List UInt8) (appIndex : ℕ)
    (fileNo : UInt8) (stored : ℤ) (e : DfcEmulator) (notes : Notes) (v : DfcValueFileState) :
    Prop where
  current : v.lowerLimit.toInt ≤ v.current.toInt ∧ v.current.toInt ≤ v.upperLimit.toInt
  pending : v.pending = true →
    v.lowerLimit.toInt ≤ v.pendingValue.toInt ∧ v.pendingValue.toInt ≤ v.upperLimit.toInt
  delta : v.pending = true →
    v.pendingValue.toInt - v.current.toInt = deltas appIndex fileNo notes.current
  closed : transactionOpen e = false → v.pending = false
  conserved : amounts [dfcCmdLimitedCredit] appIndex fileNo notes.committed ≤
    amounts [dfcCmdDebit] appIndex fileNo notes.committed + stored
  next : ∀ event s', keepsFile aes appIndex fileNo e event → CardStep aes event (e, notes) s' →
    ∃ v', valueState s'.1.credential appIndex fileNo = some v' ∧
      (commitsTransaction aes e event → v'.pending = false ∧
        v'.current = if v.pending then v.pendingValue else v.current) ∧
      (¬commitsTransaction aes e event → v'.current = v.current)

theorem ValueInv.sound (h : ValueInv appIndex fileNo stored e notes v) :
    ValueFileSound aes appIndex fileNo stored e notes v where
  current := h.agrees.current
  pending := h.agrees.pending
  delta := h.agrees.delta
  closed hclosed := by
    by_contra hp
    rw [h.isOpen (by simpa using hp)] at hclosed
    cases hclosed
  conserved := by
    have hconserved := h.conserved
    have hstored := h.agrees.stored
    omega
  next event s' hkeep hstep := by
    obtain ⟨v', hv'⟩ := h.step hkeep hstep
    exact ⟨v', hv'.inv.state, hv'.commits, hv'.keeps⟩

/-- In every state of a run in which the file is kept, its value respects the limits, what is
pending is the sum of the accepted amounts, and the committed limited credit is covered by
the committed debits. -/
theorem valueFile_sound {e₀ : DfcEmulator} (hstart : ValueFileStart appIndex fileNo stored e₀)
    (hrun : CardRunOf aes (keepsFile aes appIndex fileNo) (e₀, {}) (e, notes)) :
    ∃ v, valueState e.credential appIndex fileNo = some v ∧
      ValueFileSound aes appIndex fileNo stored e notes v := by
  have hstep (s s' : DfcEmulator × Notes) (event : CardEvent)
      (hkeep : keepsFile aes appIndex fileNo s.1 event) (hstep : CardStep aes event s s')
      (hinv : ∃ v, ValueInv appIndex fileNo stored s.1 s.2 v) :
      ∃ v, ValueInv appIndex fileNo stored s'.1 s'.2 v := by
    obtain ⟨v, hv⟩ := hinv
    obtain ⟨v', hv'⟩ := hv.step hkeep hstep
    exact ⟨v', hv'.inv⟩
  obtain ⟨v, hv⟩ := CardRunOf.invariant hstep hrun hstart.inv
  exact ⟨v, hv.state, hv.sound⟩

/-- A card with one application, open to everyone, and no file. -/
def emptyCard : DfcEmulator :=
  { credential :=
      { numApps := 1
        apps := fun _ => { numKeys := 1, keySettings1 := 0x0F, keySettings2 := 0x81 } }
    selectedApplication := .app }

/-- File 1 from -100 to 100, at 50, with limited credit. -/
def createValueFileFrame : List UInt8 :=
  [dfcCmdCreateValueFile, 0x01, 0x00, 0xE0, 0xEE, 0x9C, 0xFF, 0xFF, 0xFF, 100, 0, 0, 0, 50, 0, 0, 0,
    0x01]

def valueCard : DfcEmulator := (dfcEmulatorCommandCreateValueFile emptyCard createValueFileFrame).1

/-- Debit 30, commit, LimitedCredit 20, commit. -/
def valueCardCommands : List (List UInt8) :=
  [[dfcCmdDebit, 0x01, 30, 0, 0, 0], [dfcCmdCommitTransaction],
    [dfcCmdLimitedCredit, 0x01, 20, 0, 0, 0], [dfcCmdCommitTransaction]]

def valueCardNotes : Notes :=
  { committed := [valueNote 0 dfcCmdDebit 0x01 30, valueNote 0 dfcCmdLimitedCredit 0x01 20] }

/-- The debit of 30 pays for the limited credit of 20. -/
theorem valueFile_sound_twoTransactions :
    ValueFileStart 0 0x01 0 valueCard ∧
    CardRunOf Aes.encrypt (keepsFile Aes.encrypt 0 0x01) (valueCard, {})
      (valueCardCommands.foldl playCommand (valueCard, {})) ∧
    (valueCardCommands.foldl playCommand (valueCard, {})).2 = valueCardNotes ∧
    ∃ v, valueState (valueCardCommands.foldl playCommand (valueCard, {})).1.credential 0 0x01 =
        some v ∧
      ValueFileSound Aes.encrypt 0 0x01 0 (valueCardCommands.foldl playCommand (valueCard, {})).1
        (valueCardCommands.foldl playCommand (valueCard, {})).2 v := by
  have hstart : ValueFileStart 0 0x01 0 valueCard := by
    have hok : (dfcEmulatorCommandCreateValueFile emptyCard createValueFileFrame).2 =
        [dfcStatusOk] := by decide +kernel
    exact ValueFileStart.created (show emptyCard.credential.numApps ≤ dfcMaxApps by decide)
      (Prod.ext rfl hok)
  have hkeep (e : DfcEmulator) (apdu : List UInt8) (hmem : apdu ∈ valueCardCommands) :
      keepsFile Aes.encrypt 0 0x01 e (.command {} apdu) := by
    have hcmd : ∀ apdu ∈ valueCardCommands, apdu.getD 0 0 ≠ dfcCmdDeleteFile := by decide
    exact fun hdelete => hcmd apdu hmem hdelete.1
  have hrun := playCommands_run hkeep (valueCard, {})
  exact ⟨hstart, hrun, by decide +kernel, valueFile_sound hstart hrun⟩

end DfcCore
