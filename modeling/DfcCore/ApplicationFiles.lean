import DfcCore.ApplicationCommands
import DfcCore.JournalCommands

/-!
# Files that go with their application

What DeleteApplication and FormatPICC leave of the files: those of the other applications, in
their order, each with its settings and its octets. One file taken out at a time, both loops are
followed by the same rule.
-/
namespace DfcCore
open Der Arena

variable {z : Prop} {e e' : DfcEmulator} {c c₁ c' : DfcCredential} {i j appIndex : ℕ}
  {left left' : ℕ → Bool} {apdu : List UInt8}

/-- What is filtered out may be taken out before. -/
theorem filter_eraseIdx {l : List ℕ} {p : ℕ} (h : ∀ x, l[p]? = some x → left x = false) :
    (l.eraseIdx p).filter left = l.filter left := by
  by_cases hp : p < l.length
  · rw [List.eraseIdx_eq_take_drop_succ, List.filter_append]
    conv_rhs => rw [← List.take_append_drop p l, List.filter_append, List.drop_eq_getElem_cons hp,
      List.filter_cons_of_neg (by rw [h _ (List.getElem?_eq_getElem hp)]; decide)]
  · rw [List.eraseIdx_of_length_le (not_lt.mp hp)]

theorem map_indexWith_range {n p : ℕ} (hp : p < n) :
    (List.range (n - 1)).map (indexWith p) = (List.range n).eraseIdx p := by
  refine List.ext_getElem? fun k => ?_
  rw [List.getElem?_map, List.getElem?_eraseIdx]
  unfold indexWith
  by_cases hk : k < n - 1
  · rw [List.getElem?_range hk, Option.map_some]
    split_ifs
    · rw [List.getElem?_range (by omega)]
    · rw [List.getElem?_range (by omega)]
  · rw [List.getElem?_eq_none (by rw [List.length_range]; omega), Option.map_none]
    split_ifs
    · rw [List.getElem?_eq_none (by rw [List.length_range]; omega)]
    · rw [List.getElem?_eq_none (by rw [List.length_range]; omega)]

/-- The places of the files that are left. -/
def placesLeft (c : DfcCredential) (left : ℕ → Bool) : List ℕ :=
  (List.range c.numFiles).filter left

/-- Some files of `c` are left in `c'`, in their order. -/
structure FilesLeft (c c' : DfcCredential) (left : ℕ → Bool) : Prop where
  numFiles : c'.numFiles = (placesLeft c left).length
  same : ∀ j i, (placesLeft c left)[j]? = some i → SameFile c c' i j

theorem placesLeft_lt (h : (placesLeft c left)[j]? = some i) : i < c.numFiles :=
  List.mem_range.mp (List.mem_filter.mp (List.mem_of_getElem? h)).1

/-- Every file is left. -/
theorem FilesLeft.all (h : ∀ i < c.numFiles, left i = true) : FilesLeft c c left := by
  have hplaces : placesLeft c left = List.range c.numFiles :=
    List.filter_eq_self.mpr fun i hi => h i (List.mem_range.mp hi)
  refine ⟨by rw [hplaces, List.length_range], fun j i hplace => ?_⟩
  rw [hplaces] at hplace
  obtain ⟨hj, rfl⟩ := List.getElem?_eq_some_iff.mp hplace
  rw [List.getElem_range]
  exact .refl c j

theorem FilesLeft.congr (hnum : c₁.numFiles = c.numFiles) (hsame : ∀ j, SameFile c c₁ j j)
    (hleft : ∀ i < c.numFiles, left' i = left i) (h : FilesLeft c₁ c' left') :
    FilesLeft c c' left := by
  have hplaces : placesLeft c₁ left' = placesLeft c left := by
    unfold placesLeft
    rw [hnum]
    exact List.filter_congr fun i hi => hleft i (List.mem_range.mp hi)
  obtain ⟨hcount, hfiles⟩ := h
  rw [hplaces] at hcount hfiles
  exact ⟨hcount, fun j i hplace => (hsame i).trans (hfiles j i hplace)⟩

/-- A file that does not stay is taken out. -/
theorem FilesLeft.remove (hpool : FilePoolInv z c) (hi : i < c.numFiles) (hgone : left i = false)
    (hleft : ∀ j < c.numFiles - 1, left' j = left (indexWith i j))
    (h : FilesLeft (dfcFilesRemove (dfcFileRelease c i) i) c' left') : FilesLeft c c' left := by
  have hnum : (dfcFilesRemove (dfcFileRelease c i) i).numFiles = c.numFiles - 1 :=
    congrArg (· - 1) (release_numFiles c i)
  have hplaces : (placesLeft (dfcFilesRemove (dfcFileRelease c i) i) left').map (indexWith i) =
      placesLeft c left := by
    have hmoved : (List.range (c.numFiles - 1)).filter left' =
        (List.range (c.numFiles - 1)).filter (left ∘ indexWith i) :=
      List.filter_congr fun j hj => hleft j (List.mem_range.mp hj)
    unfold placesLeft
    rw [hnum, hmoved, ← List.filter_map, map_indexWith_range hi]
    refine filter_eraseIdx fun x hx => ?_
    obtain ⟨-, rfl⟩ := List.getElem?_eq_some_iff.mp hx
    rw [List.getElem_range]
    exact hgone
  refine ⟨?_, fun j k hplace => ?_⟩
  · rw [h.numFiles, ← hplaces, List.length_map]
  · rw [← hplaces, List.getElem?_map, Option.map_eq_some_iff] at hplace
    obtain ⟨k, hk, rfl⟩ := hplace
    have hlt := placesLeft_lt hk
    rw [hnum] at hlt
    exact (hpool.removed hi hlt).1.trans (h.same j k hk)

/-- The walk over the files of an application that is deleted, standing at `i`. -/
theorem FilePoolInv.filesLeft (h : FilePoolInv z c) (appIndex fuel i : ℕ)
    (hfuel : c.numFiles ≤ i + fuel) :
    FilesLeft c (dfcCredentialDropFilesOf c appIndex fuel i)
      fun k => decide (k < i ∨ (c.files k).appIndex ≠ appIndex) := by
  induction fuel generalizing c i with
  | zero => exact .all fun k hk => decide_eq_true (.inl (by omega))
  | succ fuel ih =>
    rw [dfcCredentialDropFilesOf]
    by_cases hend : c.numFiles ≤ i
    · rw [if_pos hend]
      exact .all fun k hk => decide_eq_true (.inl (by omega))
    have hi : i < c.numFiles := not_le.mp hend
    rw [if_neg hend]
    by_cases howned : (c.files i).appIndex = appIndex
    · rw [if_pos howned]
      obtain ⟨hr, h0, hnum⟩ := h.release hi
      have hcount : (dfcFilesRemove (dfcFileRelease c i) i).numFiles = c.numFiles - 1 :=
        congrArg (· - 1) hnum
      refine .remove h hi (decide_eq_false ?_) (fun j hj => ?_)
        (ih (hr.remove (by rw [hnum]; exact hi) h0) i (by rw [hcount]; omega))
      · rintro (hlt | hne)
        · exact lt_irrefl i hlt
        · exact hne howned
      · rw [(h.removed hi hj).2]
        refine decide_eq_decide.mpr (or_congr_left ?_)
        unfold indexWith
        split_ifs <;> omega
    · rw [if_neg howned]
      have hkept (k : ℕ) (hk : k < c.numFiles) {c₁ : DfcCredential}
          (howner : k ≠ i → (c₁.files k).appIndex = (c.files k).appIndex) :
          decide (k < i + 1 ∨ (c₁.files k).appIndex ≠ appIndex) =
            decide (k < i ∨ (c.files k).appIndex ≠ appIndex) := by
        refine decide_eq_decide.mpr ?_
        by_cases hki : k = i
        · subst hki
          exact ⟨fun _ => .inr howned, fun _ => .inl (Nat.lt_succ_self k)⟩
        · rw [howner hki]
          exact or_congr_left (by omega)
      dsimp only
      split_ifs with hlater
      · refine .congr (modifyFile_numFiles c i _) (fun j => ?_)
          (fun k hk => hkept k hk fun hki => ?_)
          (ih (h.modifyFile i (f := fun file => { file with appIndex := u8 (file.appIndex - 1) })
            (fun _ => rfl) fun _ => rfl) (i + 1) (by rw [modifyFile_numFiles]; omega))
        · by_cases hji : j = i
          · subst hji
            exact ⟨by rw [modifyFile_files, if_pos rfl]; rfl,
              by rw [modifyFile_files, if_pos rfl]; rfl⟩
          · exact sameFile_modifyFile c _ hji
        · rw [modifyFile_files, if_neg hki]
      · exact .congr rfl (fun j => .refl c j) (fun k hk => hkept k hk fun _ => rfl)
          (ih h (i + 1) (by omega))

/-- The loop of FormatPICC over the first `i` files, when no later one is the application's. -/
theorem FilePoolInv.formatted (h : FilePoolInv z c) (appIndex : ℕ) (i : ℕ) (hi : i ≤ c.numFiles)
    (hbehind : ∀ k < c.numFiles, i ≤ k → (c.files k).appIndex ≠ appIndex) :
    FilesLeft c (formatSelectedApplication c appIndex i)
        (fun k => decide ((c.files k).appIndex ≠ appIndex)) ∧
      FilePoolInv z (formatSelectedApplication c appIndex i) ∧
      FileFrame c (formatSelectedApplication c appIndex i) := by
  induction i generalizing c with
  | zero =>
    exact ⟨.all fun k hk => decide_eq_true (hbehind k hk (Nat.zero_le k)), h, .refl c⟩
  | succ i ih =>
    rw [formatSelectedApplication]
    by_cases howned : (c.files i).appIndex = appIndex
    · rw [if_pos howned]
      obtain ⟨p, hfind⟩ : ∃ p, dfcCredentialFindFileInApp c appIndex (c.files i).number =
          some p := by
        refine Option.isSome_iff_exists.mp (List.find?_isSome.mpr ⟨i, List.mem_range.mpr hi, ?_⟩)
        rw [howned, beq_self_eq_true, beq_self_eq_true]
        rfl
      have hp := find_lt hfind
      have howner := find_appIndex hfind
      -- Two files may bear one number: the first of them goes, and the rest still stands behind it.
      have hple : p ≤ i := by
        by_contra hlater
        exact hbehind p hp (by omega) howner
      have hdeleted : (dfcCredentialDeleteFile c appIndex (c.files i).number).1 =
          dfcFilesRemove (dfcFileRelease c p) p := by
        rw [dfcCredentialDeleteFile, hfind]
      have hnum : (dfcFilesRemove (dfcFileRelease c p) p).numFiles = c.numFiles - 1 :=
        congrArg (· - 1) (release_numFiles c p)
      have hpool := h.delete appIndex (c.files i).number
      have hframe := fileFrame_delete c appIndex (c.files i).number
      rw [hdeleted] at hpool hframe ⊢
      obtain ⟨hleft, hinv, hrest⟩ := ih hpool (by omega) fun k hk hik => by
        rw [hnum] at hk
        rw [(h.removed hp hk).2]
        have hplace : indexWith p k = k + 1 := if_neg (by omega)
        rw [hplace]
        exact hbehind (k + 1) (by omega) (by omega)
      refine ⟨.remove h hp (decide_eq_false (not_not.mpr howner)) (fun j hj => ?_) hleft, hinv,
        hframe.trans hrest⟩
      rw [(h.removed hp hj).2]
    · rw [if_neg howned]
      refine ih h (by omega) fun k hk hik => ?_
      obtain rfl | hlater := Nat.eq_or_lt_of_le hik
      · exact howned
      · exact hbehind k hk hlater

/-- The files an application that is deleted leaves. -/
theorem FilePoolInv.deleteApplication (h : FilePoolInv z c) (hi : i < c.numApps) :
    FilesLeft c (dfcCredentialDeleteApplicationAt c i).1
        (fun k => decide ((c.files k).appIndex ≠ i)) ∧
      FilePoolInv z (dfcCredentialDeleteApplicationAt c i).1 ∧
      (dfcCredentialDeleteApplicationAt c i).1.numApps ≤ c.numApps := by
  have hkept := filesKept_keysRelease c (some i)
  have hreleased : FilePoolInv z (dfcCredentialKeysRelease c (some i)) :=
    h.frame hkept.numFiles hkept.filePoolUsed (fun _ _ _ => by rw [hkept.filePool])
      (fun _ => by rw [hkept.files]) fun _ => by rw [hkept.files]
  have hwalk := hreleased.filesLeft i (dfcCredentialKeysRelease c (some i)).numFiles 0 (by omega)
  obtain ⟨hpool, hframe⟩ := dropFilesOf_spec i
    (dfcCredentialKeysRelease c (some i)).numFiles hreleased 0
  have hlast := hframe.numApps.trans (keysRelease_numApps c (some i))
  rw [dfcCredentialDeleteApplicationAt, if_neg (not_le.mpr hi)]
  dsimp only
  refine ⟨?_, hpool.frame rfl rfl (fun _ _ _ => rfl) (fun _ => rfl) fun _ => rfl, ?_⟩
  · have hleft : FilesLeft c _ fun k => decide ((c.files k).appIndex ≠ i) :=
      .congr hkept.numFiles hkept.sameFile (fun k hk => ?_) hwalk
    · exact ⟨hleft.numFiles, fun j k hplace =>
        ⟨(hleft.same j k hplace).record, (hleft.same j k hplace).slice⟩⟩
    · rw [hkept.files]
      exact decide_eq_decide.mpr ⟨fun h => h.resolve_left (Nat.not_lt_zero k), .inr⟩
  · rw [hlast]
    exact Nat.sub_le _ _

theorem SameFile.kind (h : SameFile c c' i j) :
    (c'.files j).key.kind = (c.files i).key.kind :=
  show (c'.files j).unplaced.key.kind = (c.files i).unplaced.key.kind by rw [h.record]

theorem SameFile.pending (h : SameFile c c' i j) :
    (c'.files j).transactionPending = (c.files i).transactionPending :=
  show (c'.files j).unplaced.transactionPending = (c.files i).unplaced.transactionPending by
    rw [h.record]

theorem SameFile.live (h : SameFile c c' i j) : liveContents c' j = liveContents c i := by
  have hcount : (c'.files j).recordCount = (c.files i).recordCount :=
    show (c'.files j).unplaced.recordCount = (c.files i).unplaced.recordCount by rw [h.record]
  have hsize : (c'.files j).recordSize = (c.files i).recordSize :=
    show (c'.files j).unplaced.recordSize = (c.files i).unplaced.recordSize by rw [h.record]
  unfold liveContents
  rw [h.slice, hcount, hsize]

/-- When no transaction is open, the files that are left show what they showed. -/
theorem FilesLeft.keptFrom (h : FilesLeft e.credential e'.credential left) (hsound : StoreSound e)
    (hidle : e.snapshot.active = false) (hsnapshot : e'.snapshot = {})
    (hpool : FilePoolInv False e'.credential) (happs : e'.credential.numApps ≤ dfcMaxApps) :
    KeptFrom (.left (placesLeft e.credential left)) e e' := by
  have hplace {j : ℕ} (hj : j < e'.credential.numFiles) :
      ∃ i, (placesLeft e.credential left)[j]? = some i ∧ i < e.credential.numFiles ∧
        SameFile e.credential e'.credential i j := by
    rw [h.numFiles] at hj
    have hi := List.getElem?_eq_getElem hj
    exact ⟨_, hi, placesLeft_lt hi, h.same j _ hi⟩
  have hidle' : e'.snapshot.active = false := by rw [hsnapshot]
  have hcount : e'.credential.numFiles ≤ e.credential.numFiles := by
    rw [h.numFiles]
    exact (List.length_filter_le _ _).trans_eq List.length_range
  have hsound' : JournalSound e' := by
    refine .of_idle (.of_idle hsnapshot (hcount.trans hsound.sound.settled.count)
      fun j hj => ?_) hpool happs hidle'
    obtain ⟨i, -, hi, hsame⟩ := hplace hj
    rw [hsame.pending]
    exact hsound.sound.settled.not_pending hidle hi
  have hcell {j : ℕ} {x : Cell FileKey Contents} (hx : (storeOf e')[j]? = some x) :
      ∃ i y, (placesLeft e.credential left)[j]? = some i ∧ (storeOf e)[i]? = some y ∧
        x.key.kind = y.key.kind ∧ x.committed = y.committed ∧ x.staged = y.staged := by
    rw [storeOf_getElem?] at hx
    split_ifs at hx with hj
    obtain rfl := Option.some.inj hx
    obtain ⟨i, hleft, hi, hsame⟩ := hplace hj
    refine ⟨i, storeCell e i, hleft, by rw [storeOf_getElem?, if_pos hi], ?_⟩
    rw [hsound'.storeCell_of_idle hidle' hj, hsound.sound.storeCell_of_idle hidle hi]
    exact ⟨hsame.kind, hsame.live, rfl⟩
  refine ⟨⟨hsound', fun x hx => ?_⟩, .of_left fun j x hx => ?_, fun j i hleft => ?_⟩
  · obtain ⟨j, hx⟩ := List.mem_iff_getElem?.mp hx
    obtain ⟨i, y, -, hy, -, hcommitted, hstaged⟩ := hcell hx
    unfold Cell.Holds
    rw [hcommitted, hstaged]
    exact hsound.fits y (List.mem_of_getElem? hy)
  · obtain ⟨i, y, hleft, hy, hkind, hcommitted, -⟩ := hcell hx
    exact ⟨i, y, hleft, hy, hkind, hcommitted⟩
  · rw [h.numFiles]
    exact (List.getElem?_eq_some_iff.mp hleft).1

/-- No refusal of these commands is an answer of success. -/
def RefusedWith (status : UInt8) : Prop :=
  status ≠ dfcStatusOk ∧ status ≠ dfcCmdAdditionalFrame

theorem Handled.ofAnswer_cases {x : Except UInt8 Answer} {P : DfcEmulator → Prop}
    (hx : Ensures (fun a => P a.1 ∧ a.2 = [dfcStatusOk]) RefusedWith x) :
    (∃ e', P e' ∧ Handled.ofAnswer (e.answer x) = .ok (e', [])) ∨
      ∃ status, Handled.ofAnswer (e.answer x) = .error (e.refuse status) := by
  cases x with
  | ok a =>
    obtain ⟨e', octets⟩ := a
    obtain ⟨hp, rfl⟩ := hx
    exact .inl ⟨e', hp, rfl⟩
  | error status =>
    refine .inr ⟨status, ?_⟩
    show (if status = dfcStatusOk ∨ status = dfcCmdAdditionalFrame then _ else _) = _
    rw [if_neg (not_or.mpr hx)]

/-- What an accepted DeleteApplication leaves. -/
def ApplicationDeleted (e : DfcEmulator) (apdu : List UInt8) (e' : DfcEmulator) : Prop :=
  ∃ i, dfcCredentialFindApplicationDesfireOrder e.credential (wireAid apdu) = some i ∧
    e' = ((dfcEmulatorSelectApplication e .picc 0).mapCredential fun c =>
      (dfcCredentialDeleteApplicationAt c i).1).markDirty

theorem deleteApplication_cases (e : DfcEmulator) (apdu : List UInt8) :
    (∃ e', ApplicationDeleted e apdu e' ∧
        Handled.ofAnswer (dfcEmulatorCommandDeleteApplication e apdu) = .ok (e', [])) ∨
      ∃ status, Handled.ofAnswer (dfcEmulatorCommandDeleteApplication e apdu) =
        .error (e.refuse status) := by
  refine Handled.ofAnswer_cases ?_
  refine .bind (.refuseIf fun _ => ⟨by decide, by decide⟩) fun _ _ => ?_
  refine .bind (.orFail fun _ => ⟨by decide, by decide⟩) fun i hi => ?_
  refine .bind (.refuseIf fun _ => ⟨by decide, by decide⟩) fun _ _ => ?_
  exact .pure ⟨⟨i, hi, rfl⟩, rfl⟩

/-- What an accepted FormatPICC leaves, in a delegated application and on the card level. -/
inductive Formatted (e e' : DfcEmulator) : Prop where
  | application (i : ℕ) (f : DfcApplication → DfcApplication)
      (hcurrent : dfcEmulatorCurrentApp e = some i)
      (heq : e' = ((dfcEmulatorAbortTransaction e).1.mapCredential fun c =>
        (formatSelectedApplication c i c.numFiles).modifyApp i f).markDirty)
  | picc (hselected : e.selectedApplication ≠ .app)
      (hcredential : e'.credential =
        { dfcCredentialFormatPicc (dfcEmulatorAbortTransaction e).1.credential with dirty := true })
      (hsnapshot : e'.snapshot = (dfcEmulatorAbortTransaction e).1.snapshot)

theorem formatPicc_cases (e : DfcEmulator) (apdu : List UInt8) :
    (∃ e', Formatted e e' ∧
        Handled.ofAnswer (dfcEmulatorCommandFormatPicc e apdu) = .ok (e', [])) ∨
      ∃ status, Handled.ofAnswer (dfcEmulatorCommandFormatPicc e apdu) =
        .error (e.refuse status) := by
  refine Handled.ofAnswer_cases ?_
  refine .bind (.refuseIf fun _ => ⟨by decide, by decide⟩) fun _ _ => ?_
  refine .ite (fun _ => ?_) fun hselected => ?_
  · refine .bind (.orFail fun _ => ⟨by decide, by decide⟩) fun i hi => ?_
    refine .bind (.refuseIf fun _ => ⟨by decide, by decide⟩) fun _ _ => ?_
    refine .bind (.refuseIf fun _ => ⟨by decide, by decide⟩) fun _ _ => ?_
    refine .bind (.refuseIf fun _ => ⟨by decide, by decide⟩) fun _ _ => ?_
    exact .pure ⟨.application i _ hi rfl, rfl⟩
  · refine .bind (.refuseIf fun _ => ⟨by decide, by decide⟩) fun _ _ => ?_
    refine .bind (.refuseIf fun _ => ⟨by decide, by decide⟩) fun _ _ => ?_
    refine .bind (.refuseIf fun _ => ⟨by decide, by decide⟩) fun _ _ => ?_
    exact .pure ⟨.picc hselected rfl rfl, rfl⟩

/-- The files that an accepted command spares. -/
def sparedFile (e : DfcEmulator) (apdu : List UInt8) (k : ℕ) : Bool :=
  if apdu.getD 0 0 = dfcCmdDeleteApplication then
    decide (dfcCredentialFindApplicationDesfireOrder e.credential (wireAid apdu) ≠
      some (e.credential.files k).appIndex)
  else decide (e.selectedApplication = .app ∧ (e.credential.files k).appIndex ≠ e.selectedAppIndex)

/-- Where the files stood before DeleteApplication or FormatPICC. -/
def applicationOrigin (e : DfcEmulator) (apdu : List UInt8) : Reply → Origin
  | .accepted _ => .left (placesLeft e.credential (sparedFile e apdu))
  | .refused _ => .stay e.credential.numFiles

theorem abortSnapshot_numApps (e : DfcEmulator) :
    (dfcEmulatorAbortTransactionSnapshot e).1.credential.numApps = e.credential.numApps := by
  have hrestore (s : DfcTransactionSnapshot) (c : DfcCredential) (i : ℕ) :
      (snapshotRestoreFile s c i).numApps = c.numApps := by
    unfold snapshotRestoreFile
    dsimp only
    split_ifs <;> rfl
  have herase (appIndex : ℕ) (c : DfcCredential) (i : ℕ) :
      (snapshotEraseFile appIndex c i).numApps = c.numApps := by
    unfold snapshotEraseFile
    dsimp only
    split_ifs <;> rfl
  unfold dfcEmulatorAbortTransactionSnapshot
  dsimp only
  split_ifs
  · rfl
  · exact foldl_keeps (g := DfcCredential.numApps) (hrestore e.snapshot) _ _
  · exact foldl_keeps (g := DfcCredential.numApps) (herase e.snapshot.appIndex) _ _

theorem abortTransaction_numApps (e : DfcEmulator) :
    (dfcEmulatorAbortTransaction e).1.credential.numApps = e.credential.numApps := by
  rw [abortTransaction_fst]
  show (abortJournalAndMac e).credential.numApps = _
  rw [abortJournalAndMac, abortSnapshot_numApps]
  split_ifs <;> rfl

/-- The transaction is dropped first, and the files that are spared are left. -/
theorem Dropped.filesLeft {e₁ : DfcEmulator} (h : Dropped e e₁) (hsound : StoreSound e)
    (hidle : e₁.snapshot.active = false)
    (hleft : FilesLeft e₁.credential e'.credential left')
    (hspared : ∀ k < e.credential.numFiles, left' k = left k)
    (hsnapshot : e'.snapshot = e₁.snapshot) (hpool : FilePoolInv False e'.credential)
    (happs : e'.credential.numApps ≤ e₁.credential.numApps) :
    KeptFrom (.left (placesLeft e.credential left)) e e' := by
  have hdropped := h.keptFrom hsound
  have hplaces : placesLeft e₁.credential left' = placesLeft e.credential left := by
    unfold placesLeft
    rw [h.numFiles]
    exact List.filter_congr fun k hk => hspared k (List.mem_range.mp hk)
  have hkept := hleft.keptFrom hdropped.sound hidle
    (hsnapshot.trans (h.sound.settled.idle hidle)) hpool (happs.trans h.sound.apps)
  rw [hplaces] at hkept
  refine (hdropped.trans hkept).congr fun j => ?_
  unfold Origin.andThen Origin.left Origin.stay
  cases hplace : (placesLeft e.credential left)[j]? with
  | none => rfl
  | some i => exact (if_pos (placesLeft_lt hplace)).symm

theorem ApplicationDeleted.keptFrom (h : ApplicationDeleted e apdu e') (hsound : StoreSound e)
    (hcmd : apdu.getD 0 0 = dfcCmdDeleteApplication) :
    KeptFrom (.left (placesLeft e.credential (sparedFile e apdu))) e e' := by
  obtain ⟨i, hfind, rfl⟩ := h
  have hdropped := (Dropped.refl hsound.sound).select .picc 0
  have hi : i < e.credential.numApps := List.mem_range.mp (List.mem_of_find?_eq_some hfind)
  have hnum : (dfcEmulatorSelectApplication e .picc 0).credential.numApps =
      e.credential.numApps := abortTransaction_numApps e
  obtain ⟨hleft, hpool, happs⟩ := hdropped.sound.files.deleteApplication (i := i)
    (by rw [hnum]; exact hi)
  refine hdropped.filesLeft hsound (abortSnapshot_inactive _) ⟨hleft.numFiles, fun j k hplace =>
    ⟨(hleft.same j k hplace).record, (hleft.same j k hplace).slice⟩⟩ (fun k hk => ?_) rfl
    (hpool.frame rfl rfl (fun _ _ _ => rfl) (fun _ => rfl) fun _ => rfl) happs
  rw [hdropped.appIndex hk, sparedFile, if_pos hcmd, hfind]
  exact decide_eq_decide.mpr (by rw [ne_eq, ne_eq, Option.some.injEq, eq_comm])

theorem Formatted.keptFrom (h : Formatted e e') (hsound : StoreSound e)
    (hcmd : apdu.getD 0 0 ≠ dfcCmdDeleteApplication) :
    KeptFrom (.left (placesLeft e.credential (sparedFile e apdu))) e e' := by
  have hdropped := (Dropped.refl hsound.sound).abort
  have hidle : (dfcEmulatorAbortTransaction e).1.snapshot.active = false := abortSnapshot_inactive _
  cases h with
  | application i f hcurrent heq =>
    obtain ⟨hselected, rfl⟩ : e.selectedApplication = .app ∧ e.selectedAppIndex = i := by
      unfold dfcEmulatorCurrentApp at hcurrent
      split_ifs at hcurrent with hcondition
      exact ⟨hcondition.1, Option.some.inj hcurrent⟩
    obtain ⟨hleft, hpool, hframe⟩ := hdropped.sound.files.formatted e.selectedAppIndex _ le_rfl
      fun k hk hbehind => absurd hk (not_lt.mpr hbehind)
    subst heq
    refine hdropped.filesLeft hsound hidle ⟨hleft.numFiles, fun j k hplace =>
      ⟨(hleft.same j k hplace).record, (hleft.same j k hplace).slice⟩⟩ (fun k hk => ?_) rfl
      (hpool.frame rfl rfl (fun _ _ _ => rfl) (fun _ => rfl) fun _ => rfl) hframe.numApps.le
    rw [hdropped.appIndex hk, sparedFile, if_neg hcmd]
    exact decide_eq_decide.mpr ⟨fun hne => ⟨hselected, hne⟩, fun hboth => hboth.2⟩
  | picc hselected hcredential hsnapshot =>
    have hempty : e'.credential.numFiles = 0 ∧ e'.credential.filePoolUsed = 0 ∧
        e'.credential.numApps = 0 := by
      rw [hcredential]
      unfold dfcCredentialFormatPicc
      exact ⟨rfl, rfl, rfl⟩
    obtain ⟨hfiles, hused, happs⟩ := hempty
    have hnone {c : DfcCredential} : FilesLeft c e'.credential fun _ => false := by
      refine ⟨?_, fun j k hplace => ?_⟩
      · rw [hfiles, placesLeft, List.filter_false]
        rfl
      · rw [placesLeft, List.filter_false] at hplace
        cases hplace
    refine hdropped.filesLeft hsound hidle hnone (fun k hk => ?_) hsnapshot ?_ ?_
    · rw [sparedFile, if_neg hcmd]
      exact (decide_eq_false fun hboth => hselected hboth.1).symm
    · refine ⟨?_, ?_, False.elim, fun i hi => absurd (hfiles ▸ hi) (Nat.not_lt_zero i)⟩
      · rw [hfiles, hused]
        exact Packed.empty _ _
      · rw [hused]
        exact Nat.zero_le _
    · rw [happs]
      exact Nat.zero_le _

/-- DeleteApplication and FormatPICC commit nothing: the files they spare hold what was committed
to them. -/
theorem applicationCommand_keptFrom {reply : Reply} (h : StoreSound e)
    (hcommand : dfcEmulatorHandleApplicationCommand e apdu = some (e', reply)) :
    KeptFrom (applicationOrigin e apdu reply) e e' := by
  have hrefused (status : UInt8) (preserve : Bool) :
      KeptFrom (.stay e.credential.numFiles) e
        (finishCommand preserve (.error (e.refuse status))).1 :=
    ((Dropped.refl h.sound).finish preserve).keptFrom h
  unfold dfcEmulatorHandleApplicationCommand dispatchApplicationCommand at hcommand
  split_ifs at hcommand with hdelete hshort hformat
  · cases hcommand
  · obtain ⟨e₁, hdeleted, hok⟩ | ⟨status, herror⟩ := deleteApplication_cases e apdu
    · rw [hok] at hcommand
      obtain ⟨rfl, rfl⟩ := Prod.mk.injEq .. ▸ Option.some.inj hcommand
      exact hdeleted.keptFrom h hdelete
    · rw [herror] at hcommand
      obtain ⟨rfl, rfl⟩ := Prod.mk.injEq .. ▸ Option.some.inj hcommand
      exact hrefused status _
  · obtain ⟨e₁, hdone, hok⟩ | ⟨status, herror⟩ := formatPicc_cases e apdu
    · rw [hok] at hcommand
      obtain ⟨rfl, rfl⟩ := Prod.mk.injEq .. ▸ Option.some.inj hcommand
      exact hdone.keptFrom h hdelete
    · rw [herror] at hcommand
      obtain ⟨rfl, rfl⟩ := Prod.mk.injEq .. ▸ Option.some.inj hcommand
      exact hrefused status _
  · cases hcommand

end DfcCore
