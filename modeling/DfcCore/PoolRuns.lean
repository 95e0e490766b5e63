import DfcCore.KeySetInvariant

/-!
# Runs of pool operations

Every operation of the credential interface that changes a pool keeps the invariant,
so it holds after every finite sequence of calls on a cleared credential. A call names
its application or file by index; a call whose index names no counted record is one no
caller can make, and leaves the credential alone.
-/
namespace DfcCore
open Arena
variable {z : Prop}

/-- A blank record may be counted. -/
theorem PoolInv.count {n : ℕ} {c : DfcCredential} (h : PoolInv z n c)
    (hb : c.apps n = dfcCredentialResetApplication) : PoolInv z (n + 1) c := by
  refine ⟨⟨?_, ?_, h.files⟩, ?_⟩
  · refine ⟨?_, h.keys.fit, h.keys.zero, ?_⟩
    · have hS : keyOwners (n + 1) = insert (some n) (keyOwners n) := by
        ext q
        cases q with
        | none => simp
        | some j =>
          simp only [some_mem_keyOwners, Finset.mem_insert, Option.some.injEq]
          omega
      rw [hS]
      refine h.keys.packed.insert (by simp) ?_
      rw [keyPoolLenOf, hb]
      rfl
    · intro q hq h0
      by_cases hqn : q = some n
      · rw [hqn, keyOffsetOf, hb]
        rfl
      · refine h.keys.sentinel q ?_ h0
        cases q with
        | none => simp
        | some j =>
          simp only [some_mem_keyOwners, Option.some.injEq] at hq hqn ⊢
          omega
  · refine ⟨?_, h.metadata.fit, ?_⟩
    · rw [Finset.range_add_one]
      refine h.metadata.packed.insert (by simp) ?_
      rw [hb]
      rfl
    · intro j hj h0
      by_cases hjn : j = n
      · rw [hjn, hb]
        rfl
      · exact h.metadata.sentinel j (by omega) h0
  · intro j hj h0
    by_cases hjn : j = n
    · rw [hjn, hb] at h0
      exact absurd rfl h0
    · exact h.blocks j (by omega) h0

/-- Overwriting a record that is not counted with a blank one. -/
theorem PoolInv.resetApplication {n : ℕ} {c : DfcCredential} (h : PoolInv z n c) {i : ℕ}
    (hi : n ≤ i) : PoolInv z n (c.modifyApp i fun _ => dfcCredentialResetApplication) := by
  have happ {j : ℕ} (hj : j < n) :
      (c.modifyApp i fun _ => dfcCredentialResetApplication).apps j = c.apps j := by
    rw [modifyApp_apps, if_neg (by omega)]
  have hlen {q : Option ℕ} (hq : q ∈ keyOwners n) : keyPoolLenOf
      (c.modifyApp i fun _ => dfcCredentialResetApplication) q = keyPoolLenOf c q := by
    cases q with
    | none => rfl
    | some j => rw [keyPoolLenOf, happ ((some_mem_keyOwners n j).mp hq), keyPoolLenOf]
  have hoff {q : Option ℕ} (hq : q ∈ keyOwners n) : keyOffsetOf
      (c.modifyApp i fun _ => dfcCredentialResetApplication) q = keyOffsetOf c q := by
    cases q with
    | none => rfl
    | some j => rw [keyOffsetOf, happ ((some_mem_keyOwners n j).mp hq), keyOffsetOf]
  refine ⟨⟨⟨?_, h.keys.fit, h.keys.zero, ?_⟩, ⟨?_, h.metadata.fit, ?_⟩, ?_⟩, ?_⟩
  · exact h.keys.packed.congr (fun q hq => hlen hq) (fun q hq _ => hoff hq)
  · intro q hq h0
    rw [hlen hq] at h0
    rw [hoff hq]
    exact h.keys.sentinel q hq h0
  · refine h.metadata.packed.congr (fun j hj => ?_) (fun j hj _ => ?_)
    all_goals rw [happ (Finset.mem_range.mp hj)]
  · intro j hj h0
    rw [happ hj] at h0 ⊢
    exact h.metadata.sentinel j hj h0
  · exact h.files.frame rfl rfl (fun _ _ _ => rfl) (fun _ => rfl) (fun _ => rfl)
  · intro j hj h0
    rw [happ hj] at h0 ⊢
    exact h.blocks j hj h0

/-- The number of applications plays no part in the invariant. -/
theorem PoolInv.setNumApps {n : ℕ} {c : DfcCredential} (h : PoolInv z n c) (k : ℕ) :
    PoolInv z n { c with numApps := k } where
  keys := h.keys.frame rfl (fun _ _ _ => rfl) (fun q => by cases q <;> rfl)
    (fun q => by cases q <;> rfl)
  metadata := h.metadata.frame rfl (fun _ => rfl) (fun _ => rfl)
  files := h.files.frame rfl rfl (fun _ _ _ => rfl) (fun _ => rfl) (fun _ => rfl)
  blocks := h.blocks

/-- `c'` differs from `c` in the file records and the file pool only. -/
def FileFrame (c c' : DfcCredential) : Prop :=
  ∃ files num pool used, c' = { c with
    files := files, numFiles := num, filePool := pool, filePoolUsed := used }

theorem FileFrame.refl (c : DfcCredential) : FileFrame c c := ⟨_, _, _, _, rfl⟩

theorem FileFrame.trans {a b c : DfcCredential} (h : FileFrame a b) (h' : FileFrame b c) :
    FileFrame a c := by
  obtain ⟨_, _, _, _, rfl⟩ := h
  obtain ⟨_, _, _, _, rfl⟩ := h'
  exact ⟨_, _, _, _, rfl⟩

theorem FileFrame.numApps {c c' : DfcCredential} (h : FileFrame c c') : c'.numApps = c.numApps := by
  obtain ⟨_, _, _, _, rfl⟩ := h
  rfl

theorem FileFrame.apps {c c' : DfcCredential} (h : FileFrame c c') : c'.apps = c.apps := by
  obtain ⟨_, _, _, _, rfl⟩ := h
  rfl

/-- The file pool is kept by its own lemma, the rest by the frame. -/
theorem PoolInv.ofFiles {n : ℕ} {c c' : DfcCredential} (h : PoolInv z n c) (hf : FileFrame c c')
    (hi : FilePoolInv z c') : PoolInv z n c' := by
  obtain ⟨_, _, _, _, rfl⟩ := hf
  exact ⟨⟨h.keys.frame rfl (fun _ _ _ => rfl) (fun q => by cases q <;> rfl)
    (fun q => by cases q <;> rfl), h.metadata.frame rfl (fun _ => rfl) (fun _ => rfl),
    hi⟩, h.blocks⟩

theorem fileFrame_modifyFile (c : DfcCredential) (i : ℕ) (f : DfcFile → DfcFile) :
    FileFrame c (c.modifyFile i f) := ⟨_, _, _, _, rfl⟩

theorem fileFrame_compact (c : DfcCredential) (o l : ℕ) :
    FileFrame c (dfcFilePoolCompactAfterRelease c o l) := by
  rw [dfcFilePoolCompactAfterRelease]
  split_ifs
  · exact FileFrame.refl c
  · exact ⟨_, _, _, _, rfl⟩

theorem fileFrame_release (c : DfcCredential) (i : ℕ) : FileFrame c (dfcFileRelease c i) := by
  rw [dfcFileRelease]
  split_ifs
  · exact fileFrame_modifyFile c i _
  · exact (fileFrame_modifyFile c i _).trans (fileFrame_compact _ _ _)

theorem fileFrame_remove (c : DfcCredential) (i : ℕ) : FileFrame c (dfcFilesRemove c i) :=
  ⟨_, _, _, _, rfl⟩

theorem fileFrame_resize (c : DfcCredential) (i dataLen : ℕ) :
    FileFrame c (dfcFileResize c i dataLen).1 := by
  obtain hr | ⟨hr, -⟩ | ⟨oldOffset, -, -, -, hr⟩ := dfcFileResize_cases c i dataLen
  · rw [hr]; exact FileFrame.refl c
  · rw [hr]; exact FileFrame.refl c
  rw [hr]
  have hdrop : FileFrame c (dfcFileDropOldSlice c i oldOffset) := by
    rw [dfcFileDropOldSlice]
    split_ifs
    · exact (fileFrame_modifyFile c i _).trans (fileFrame_compact _ _ _)
    · exact FileFrame.refl c
  refine hdrop.trans ?_
  rw [dfcFileCutSlice]
  split_ifs
  · exact fileFrame_modifyFile _ i _
  · exact ⟨_, _, _, _, rfl⟩

theorem fileFrame_create (c : DfcCredential) (appIndex : ℕ) (number : UInt8) :
    FileFrame c (dfcCredentialCreateFile c appIndex number).1 := by
  rw [dfcCredentialCreateFile]
  split_ifs
  all_goals exact ⟨_, _, _, _, rfl⟩

theorem fileFrame_delete (c : DfcCredential) (appIndex : ℕ) (number : UInt8) :
    FileFrame c (dfcCredentialDeleteFile c appIndex number).1 := by
  rw [dfcCredentialDeleteFile]
  cases dfcCredentialFindFileInApp c appIndex number with
  | none => exact FileFrame.refl c
  | some i => exact (fileFrame_release c i).trans (fileFrame_remove _ i)

theorem fileFrame_materializeFile (c : DfcCredential) (sizeMax scratchLen i : ℕ) :
    FileFrame c (dfcCredentialMaterializeFile c sizeMax scratchLen i).1 := by
  rw [dfcCredentialMaterializeFile]
  cases dfcFileWantedLength sizeMax (c.files i) with
  | none => exact FileFrame.refl c
  | some want =>
    dsimp only
    split_ifs
    · exact ⟨_, _, _, _, rfl⟩
    · exact FileFrame.refl c
    · exact ⟨_, _, _, _, rfl⟩
    · have hr := fileFrame_resize c i want
      cases hres : dfcFileResize c i want with
      | mk c' ok =>
        rw [hres] at hr
        cases ok with
        | false => exact hr
        | true =>
          refine hr.trans (FileFrame.trans ?_ ⟨_, _, _, _, rfl⟩)
          split
          · exact ⟨_, _, _, _, rfl⟩
          · exact FileFrame.refl _

theorem materializeFile_numFiles (c : DfcCredential) (sizeMax scratchLen i : ℕ) :
    (dfcCredentialMaterializeFile c sizeMax scratchLen i).1.numFiles = c.numFiles := by
  rw [dfcCredentialMaterializeFile]
  cases dfcFileWantedLength sizeMax (c.files i) with
  | none => rfl
  | some want =>
    dsimp only
    split_ifs
    · rfl
    · rfl
    · rfl
    · have hnum := dfcFileResize_numFiles c i want
      cases hres : dfcFileResize c i want with
      | mk c' ok =>
        rw [hres] at hnum
        cases ok with
        | false => exact hnum
        | true =>
          refine Eq.trans ?_ hnum
          dsimp only [modifyFile_numFiles]
          split <;> rfl

theorem PoolInv.materializeContents {n : ℕ} {c : DfcCredential} (h : PoolInv z n c)
    (sizeMax scratchLen : ℕ) :
    PoolInv z n (dfcCredentialMaterializeContents c sizeMax scratchLen).1 ∧
      (dfcCredentialMaterializeContents c sizeMax scratchLen).1.numApps = c.numApps := by
  rw [dfcCredentialMaterializeContents]
  have hlt : ∀ i ∈ List.range c.numFiles, i < c.numFiles := fun i hi => List.mem_range.mp hi
  -- The loop runs over the files counted at its start; no turn changes their number.
  generalize List.range c.numFiles = l at hlt
  generalize true = ok
  induction l generalizing c ok with
  | nil => exact ⟨h, rfl⟩
  | cons i l ih =>
    rw [List.foldl_cons]
    have hframe := fileFrame_materializeFile c sizeMax scratchLen i
    have hnum := materializeFile_numFiles c sizeMax scratchLen i
    have hstep := h.ofFiles hframe
      (h.files.materializeFile (hlt i List.mem_cons_self) sizeMax scratchLen)
    obtain ⟨hinv, happs⟩ := ih hstep (fun j hj => hnum ▸ hlt j (List.mem_cons_of_mem _ hj))
      (ok && (dfcCredentialMaterializeFile c sizeMax scratchLen i).2)
    exact ⟨hinv, happs.trans hframe.numApps⟩

theorem dropFilesOf_spec (appIndex fuel : ℕ) {c : DfcCredential} (h : FilePoolInv z c)
    (i : ℕ) :
    FilePoolInv z (dfcCredentialDropFilesOf c appIndex fuel i) ∧
      FileFrame c (dfcCredentialDropFilesOf c appIndex fuel i) := by
  induction fuel generalizing c i with
  | zero => exact ⟨h, FileFrame.refl c⟩
  | succ fuel ih =>
    rw [dfcCredentialDropFilesOf]
    split_ifs with h₁ h₂ h₃
    · exact ⟨h, FileFrame.refl c⟩
    · obtain ⟨hr, h0, hnum⟩ := h.release (i := i) (by omega)
      obtain ⟨hinv, hframe⟩ := ih (hr.remove (by rw [hnum]; omega) h0) i
      exact ⟨hinv, ((fileFrame_release c i).trans (fileFrame_remove _ i)).trans hframe⟩
    · obtain ⟨hinv, hframe⟩ := ih (h.modifyFile i (f := fun file =>
        { file with appIndex := u8 (file.appIndex - 1) }) (fun _ => rfl) (fun _ => rfl)) (i + 1)
      exact ⟨hinv, (fileFrame_modifyFile c i _).trans hframe⟩
    · exact ih h (i + 1)

/-- Where application `j` stands once application `i` is taken out. -/
def shiftedPlace (i j : ℕ) : ℕ := if j < i then j else j - 1

/-- The applications that are left without `i`, moved up to `n` of them. -/
def shiftedApps (c : DfcCredential) (n i : ℕ) : ℕ → DfcApplication := fun j =>
  if j = n then dfcCredentialResetApplication
  else if i ≤ j ∧ j < n then c.apps (j + 1) else c.apps j

section
variable {n i : ℕ} {c : DfcCredential}

theorem shiftedPlace_inj {a b : ℕ} (ha : a ≠ i) (hb : b ≠ i)
    (h : shiftedPlace i a = shiftedPlace i b) : a = b := by
  unfold shiftedPlace at h
  split_ifs at h <;> omega

theorem image_shiftedPlace (hi : i ≤ n) :
    Finset.range n = ((Finset.range (n + 1)).erase i).image (shiftedPlace i) := by
  ext k
  simp only [Finset.mem_range, Finset.mem_image, Finset.mem_erase]
  constructor
  · intro hk
    by_cases hlt : k < i
    · exact ⟨k, ⟨by omega, by omega⟩, if_pos hlt⟩
    · exact ⟨k + 1, ⟨by omega, by omega⟩, if_neg (by omega)⟩
  · rintro ⟨j, ⟨hji, hj⟩, rfl⟩
    unfold shiftedPlace
    split_ifs <;> omega

theorem image_shiftedOwner (hi : i ≤ n) :
    keyOwners n = ((keyOwners (n + 1)).erase (some i)).image (Option.map (shiftedPlace i)) := by
  have hplaces := image_shiftedPlace hi
  simp only [Finset.ext_iff, Finset.mem_range, Finset.mem_image, Finset.mem_erase] at hplaces
  ext q
  simp only [Finset.mem_image, Finset.mem_erase]
  cases q with
  | none => simp only [none_mem_keyOwners, true_iff]; exact ⟨none, by simp, rfl⟩
  | some k =>
    rw [some_mem_keyOwners, hplaces k]
    constructor
    · rintro ⟨j, ⟨hji, hj⟩, rfl⟩
      exact ⟨some j, ⟨by simpa using hji, by simpa using hj⟩, rfl⟩
    · rintro ⟨q, ⟨hq, hqn⟩, hqk⟩
      cases q with
      | none => simp at hqk
      | some j => exact ⟨j, ⟨by simpa using hq, by simpa using hqn⟩, by simpa using hqk⟩

theorem shiftedOwner_inj {p q : Option ℕ} (hp : p ≠ some i) (hq : q ≠ some i)
    (h : p.map (shiftedPlace i) = q.map (shiftedPlace i)) : p = q := by
  cases p with
  | none => cases q with
    | none => rfl
    | some b => simp at h
  | some a => cases q with
    | none => simp at h
    | some b =>
      simp only [ne_eq, Option.some.injEq, Option.map_some] at hp hq h
      rw [shiftedPlace_inj hp hq h]

/-- Every application but `i` is found at its new place. -/
theorem shiftedApps_place {j : ℕ} (hi : i ≤ n) (hj : j < n + 1) (hji : j ≠ i) :
    shiftedApps c n i (shiftedPlace i j) = c.apps j := by
  unfold shiftedApps shiftedPlace
  by_cases hlt : j < i
  · rw [if_pos hlt, if_neg (by omega), if_neg (by omega)]
  · rw [if_neg hlt, if_neg (by omega), if_pos (by omega)]
    congr 1
    omega

/-- A counted record of the new array is a counted record of the old one. -/
theorem exists_shiftedApps {j : ℕ} (hi : i ≤ n) (hj : j < n) :
    ∃ k < n + 1, shiftedApps c n i j = c.apps k := by
  have hplaced : j ∈ ((Finset.range (n + 1)).erase i).image (shiftedPlace i) :=
    image_shiftedPlace hi ▸ Finset.mem_range.mpr hj
  simp only [Finset.mem_image, Finset.mem_erase, Finset.mem_range] at hplaced
  obtain ⟨k, ⟨hki, hk⟩, rfl⟩ := hplaced
  exact ⟨k, hk, shiftedApps_place hi hk hki⟩

theorem KeyPoolInv.shiftApps (h : KeyPoolInv z (n + 1) c) (hi : i ≤ n)
    (hk : keyPoolLenOf c (some i) = 0) :
    KeyPoolInv z n { c with numApps := n, apps := shiftedApps c n i } := by
  refine ⟨?_, h.fit, h.zero, ?_⟩
  · refine (h.packed.erase (i := some i) hk).map (Option.map (shiftedPlace i)) ?_
      (image_shiftedOwner hi) ?_ ?_
    · intro p hp q hq hpq
      exact shiftedOwner_inj (Finset.ne_of_mem_erase hp) (Finset.ne_of_mem_erase hq) hpq
    · intro q hq
      cases q with
      | none => rfl
      | some j =>
        simp only [Finset.mem_erase, ne_eq, Option.some.injEq, some_mem_keyOwners] at hq
        exact congrArg DfcApplication.keyPoolLen (shiftedApps_place hi hq.2 hq.1)
    · intro q hq _
      cases q with
      | none => rfl
      | some j =>
        simp only [Finset.mem_erase, ne_eq, Option.some.injEq, some_mem_keyOwners] at hq
        exact congrArg DfcApplication.keyOffset (shiftedApps_place hi hq.2 hq.1)
  · intro q hq hnone
    cases q with
    | none => exact h.sentinel none (by simp) hnone
    | some j =>
      obtain ⟨k, hk, hj⟩ := exists_shiftedApps (c := c) hi ((some_mem_keyOwners n j).mp hq)
      unfold keyPoolLenOf keyOffsetOf at *
      dsimp only at hnone ⊢
      rw [hj] at hnone ⊢
      exact h.sentinel (some k) (by simpa using hk) hnone

theorem MetadataPoolInv.shiftApps (h : MetadataPoolInv (n + 1) c) (hi : i ≤ n)
    (hm : (c.apps i).keySetMetadataLen = 0) :
    MetadataPoolInv n { c with numApps := n, apps := shiftedApps c n i } := by
  refine ⟨?_, h.fit, ?_⟩
  · refine (h.packed.erase (i := i) hm).map (shiftedPlace i) ?_ (image_shiftedPlace hi) ?_ ?_
    · intro a ha b hb hab
      exact shiftedPlace_inj (Finset.ne_of_mem_erase ha) (Finset.ne_of_mem_erase hb) hab
    · intro j hj
      simp only [Finset.mem_erase, Finset.mem_range] at hj
      exact congrArg DfcApplication.keySetMetadataLen (shiftedApps_place hi hj.2 hj.1)
    · intro j hj _
      simp only [Finset.mem_erase, Finset.mem_range] at hj
      exact congrArg DfcApplication.keySetMetadataOffset (shiftedApps_place hi hj.2 hj.1)
  · intro j hjn hj
    obtain ⟨k, hk, hr⟩ := exists_shiftedApps (c := c) hi hjn
    dsimp only at hj ⊢
    rw [hr] at hj ⊢
    exact h.sentinel k hk hj

end

/-- The array shift that takes application `i` out. -/
theorem PoolInv.shiftApps {n i : ℕ} {c : DfcCredential} (h : PoolInv z (n + 1) c) (hi : i ≤ n)
    (hk : keyPoolLenOf c (some i) = 0) (hm : (c.apps i).keySetMetadataLen = 0) :
    PoolInv z n { c with
      numApps := n
      apps := fun j => if j = n then dfcCredentialResetApplication
        else if i ≤ j ∧ j < n then c.apps (j + 1) else c.apps j } := by
  refine ⟨⟨h.keys.shiftApps hi hk, h.metadata.shiftApps hi hm,
    h.files.frame rfl rfl (fun _ _ _ => rfl) (fun _ => rfl) fun _ => rfl⟩, fun j hjn hj => ?_⟩
  obtain ⟨k, hk, hr⟩ := exists_shiftedApps (c := c) hi hjn
  unfold shiftedApps at hr
  dsimp only at hj hr ⊢
  rw [hr] at hj ⊢
  exact h.blocks k hk hj

theorem keysRelease_numApps (c : DfcCredential) (p : Option ℕ) :
    (dfcCredentialKeysRelease c p).numApps = c.numApps := by
  obtain ⟨_, _, _, _, _, _, _, _, _, hf⟩ := keysRelease_frame c p
  rw [hf]

theorem PoolInv.deleteApplicationAt {c : DfcCredential} (h : PoolInv z c.numApps c) (i : ℕ) :
    PoolInv z (dfcCredentialDeleteApplicationAt c i).1.numApps
      (dfcCredentialDeleteApplicationAt c i).1 := by
  rw [dfcCredentialDeleteApplicationAt]
  by_cases hi : c.numApps ≤ i
  · rw [if_pos hi]
    exact h
  rw [if_neg hi]
  have hnum := keysRelease_numApps c (some i)
  have hp : some i ∈ keyOwners c.numApps := by simpa using hi
  have hrel := h.keysRelease hp
  have hlen := (h.keys.release hp).2.1
  have hmeta : ((dfcCredentialKeysRelease c (some i)).apps i).keySetMetadataLen = 0 := by
    have hu := keysRelease_apps c (some i) i
    rw [if_pos rfl] at hu
    exact keySetMetadataLen_of_unplaced hu
  obtain ⟨hfiles, hframe⟩ := dropFilesOf_spec i
    (dfcCredentialKeysRelease c (some i)).numFiles hrel.files 0
  have hinv := hrel.ofFiles hframe hfiles
  have hlast : (dfcCredentialDropFilesOf (dfcCredentialKeysRelease c (some i)) i
      (dfcCredentialKeysRelease c (some i)).numFiles 0).numApps = c.numApps :=
    hframe.numApps.trans hnum
  have happs := hframe.apps
  obtain ⟨n, hn⟩ : ∃ n, c.numApps = n + 1 := ⟨c.numApps - 1, by omega⟩
  rw [hn] at hinv
  have hshift := hinv.shiftApps (i := i) (by omega)
    (by simpa only [keyPoolLenOf, happs] using hlen) (by rw [happs]; exact hmeta)
  dsimp only
  rw [hlast, hn]
  exact hshift

theorem keysResizeTotal_numApps {n : ℕ} {c : DfcCredential} (h : KeyPoolInv z n c) {p : Option ℕ}
    (hp : p ∈ keyOwners n) (numKeys allocatedKeys keyLen storageKeyLen : ℕ) :
    (dfcCredentialKeysResizeTotal c p numKeys allocatedKeys keyLen storageKeyLen).1.numApps =
      c.numApps := by
  have hrel := keysRelease_numApps c p
  have hcounts (c' : DfcCredential) (a b d : ℕ) :
      (setKeyCounts c' p a b d).numApps = c'.numApps := by cases p <;> rfl
  obtain hc | ⟨-, -, -, -, ⟨hc, -⟩ | ⟨hc, -⟩ | ⟨hc, -⟩⟩ :=
    keysResizeTotal_cases h hp numKeys allocatedKeys keyLen storageKeyLen
  · rw [hc]
  · rw [hc]
    exact hcounts _ _ _ _
  · rw [hc, ← hrel]
    cases p <;> rfl
  · rw [hc, hcounts, ← hrel]
    cases p <;> rfl

theorem metadataResize_numApps (c : DfcCredential) (i want : ℕ) :
    (dfcKeySetMetadataResize c i want).1.numApps = c.numApps := by
  obtain ⟨apps, pool, used, hf⟩ := metadataRelease_frame c i
  rw [dfcKeySetMetadataResize, hf]
  split_ifs <;> rfl

theorem keysResize_numApps {n : ℕ} {c : DfcCredential} (h : KeyPoolInv z n c) {p : Option ℕ}
    (hp : p ∈ keyOwners n) (numKeys keyLen : ℕ) :
    (dfcCredentialKeysResize c p numKeys keyLen).1.numApps = c.numApps := by
  have htotal := keysResizeTotal_numApps h hp numKeys numKeys keyLen keyLen
  rw [dfcCredentialKeysResize]
  cases hr : dfcCredentialKeysResizeTotal c p numKeys numKeys keyLen keyLen with
  | mk c' ok =>
    rw [hr] at htotal
    cases ok with
    | false => exact htotal
    | true =>
      cases p with
      | none => exact htotal
      | some i => exact (metadataResize_numApps _ i 0).trans htotal

theorem keySetsResize_numApps {n : ℕ} {c : DfcCredential} (h : KeyPoolInv z n c) {i : ℕ}
    (hi : i < n) (numKeySets numKeys activeKeyLen maxKeySize : ℕ) :
    (dfcCredentialKeySetsResize c i numKeySets numKeys activeKeyLen maxKeySize).1.numApps =
      c.numApps := by
  have htotal := keysResizeTotal_numApps h ((some_mem_keyOwners n i).mpr hi) numKeys
    (numKeys * numKeySets) activeKeyLen maxKeySize
  rw [dfcCredentialKeySetsResize]
  by_cases h₁ : numKeySets < dfcKeySetMinimumCount ∨ dfcMaxKeySets < numKeySets
  · rw [if_pos h₁]
  rw [if_neg h₁]
  by_cases h₂ : dfcKeySetMetadataLength numKeySets numKeys = 0 ∨
      (!dfcKeySetMetadataCanResize c i (dfcKeySetMetadataLength numKeySets numKeys)) = true
  · simp only [h₂, if_true]
  simp only [h₂, if_false]
  cases hr : dfcCredentialKeysResizeTotal c (some i) numKeys (numKeys * numKeySets) activeKeyLen
      maxKeySize with
  | mk c₁ ok =>
    rw [hr] at htotal
    cases ok with
    | false => exact htotal
    | true =>
      have hmeta := metadataResize_numApps c₁ i (dfcKeySetMetadataLength numKeySets numKeys)
      dsimp only
      cases hm : dfcKeySetMetadataResize c₁ i (dfcKeySetMetadataLength numKeySets numKeys) with
      | mk c₂ ok₂ =>
        rw [hm] at hmeta
        cases ok₂ with
        | false => exact hmeta.trans htotal
        | true =>
          refine Eq.trans ?_ (hmeta.trans htotal)
          dsimp only
          split <;> rfl

theorem rotateMetadataTimes_numApps (c : DfcCredential) (i k : ℕ) :
    (dfcCredentialRotateKeySetMetadataTimes c i k).1.numApps = c.numApps := by
  induction k generalizing c with
  | zero => rfl
  | succ k ih =>
    have hone : (dfcCredentialRotateKeySetMetadata c i).1.numApps = c.numApps := by
      rw [dfcCredentialRotateKeySetMetadata]
      dsimp only
      split <;> rfl
    rw [dfcCredentialRotateKeySetMetadataTimes]
    cases hr : dfcCredentialRotateKeySetMetadata c i with
    | mk c' ok =>
      rw [hr] at hone
      cases ok with
      | false => exact hone
      | true => exact (ih c').trans hone

theorem rollKeySet_numApps (c : DfcCredential) (i set : ℕ) :
    (dfcCredentialRollKeySet c i set).1.numApps = c.numApps := by
  rw [dfcCredentialRollKeySet]
  dsimp only
  split_ifs
  · rfl
  · rfl
  have htimes := rotateMetadataTimes_numApps { c with
    keyPool := dfcRotateKeyBlocksLeft c.keyPool (c.apps i).keyOffset
      ((c.apps i).numKeys * (c.apps i).numKeySets)
      (dfcCredentialStoredKeyLength (c.apps i).keyStorageLen) (set * (c.apps i).numKeys) } i set
  cases hr : dfcCredentialRotateKeySetMetadataTimes { c with
      keyPool := dfcRotateKeyBlocksLeft c.keyPool (c.apps i).keyOffset
        ((c.apps i).numKeys * (c.apps i).numKeySets)
        (dfcCredentialStoredKeyLength (c.apps i).keyStorageLen)
        (set * (c.apps i).numKeys) } i set with
  | mk c' ok =>
    rw [hr] at htimes
    cases ok with
    | false => exact htimes
    | true =>
      refine Eq.trans ?_ htimes
      dsimp only
      split <;> rfl

theorem PoolInv.createApplication {c : DfcCredential} (h : PoolInv z c.numApps c) (aid : Mem)
    (keySettings1 keySettings2 : UInt8) :
    PoolInv z (dfcCredentialCreateApplicationDesfireOrder c aid keySettings1 keySettings2).1.numApps
      (dfcCredentialCreateApplicationDesfireOrder c aid keySettings1 keySettings2).1 := by
  rw [dfcCredentialCreateApplicationDesfireOrder]
  generalize (keySettings2 &&& dfcNumKeysMask).toNat = numKeys
  generalize dfcCredentialKeyLength keySettings2 = keyLen
  by_cases h₁ : dfcMaxApps ≤ c.numApps
  · rw [if_pos h₁]; exact h
  rw [if_neg h₁]
  by_cases h₂ : (dfcCredentialFindApplicationDesfireOrder c aid).isSome = true
  · rw [if_pos h₂]; exact h
  rw [if_neg h₂]
  by_cases h₃ : numKeys = 0 ∨ dfcEv1MaxKeysPerApp < numKeys ∨ dfcMaxKeys < numKeys
  · simp only [h₃, if_true]; exact h
  simp only [h₃, if_false]
  have hblank : PoolInv z (c.numApps + 1)
      (c.modifyApp c.numApps fun _ => dfcCredentialResetApplication) :=
    (h.resetApplication le_rfl).count (by rw [modifyApp_apps, if_pos rfl])
  have hres := hblank.keysResize (p := some c.numApps) (by simp) numKeys keyLen
  have hnum := keysResize_numApps hblank.keys (p := some c.numApps) (by simp) numKeys keyLen
  have hfail := keysResize_false (i := c.numApps) hblank.toPoolCore (by omega) numKeys keyLen
  cases hr : dfcCredentialKeysResize (c.modifyApp c.numApps fun _ => dfcCredentialResetApplication)
      (some c.numApps) numKeys keyLen with
  | mk c' ok =>
    rw [hr] at hres hnum hfail
    cases ok with
    | false =>
      -- A refused allocation leaves the blank record, which is not counted.
      have hc' : c' = _ := hfail rfl
      dsimp only
      rw [hc']
      exact h.resetApplication le_rfl
    | true =>
      have hcounted : PoolInv z (c'.numApps + 1) { c' with numApps := c'.numApps + 1 } := by
        rw [hnum]
        exact hres.setNumApps _
      refine hcounted.frameMetadata ⟨_, _, rfl⟩ ?_ ?_ ?_ ?_ ?_ ?_ ?_
      all_goals
        intro j
        rw [modifyApp_apps]
        by_cases hj : j = c.numApps
        · rw [if_pos hj, hj]
        · rw [if_neg hj]

/-- Wiping the first `used` octets of a pool that is zero behind them. -/
theorem fill_zero_used {m : Mem} {used limit : ℕ} (h : ∀ i, used ≤ i → i < limit → m i = 0) :
    ∀ i, i < limit → (if 0 < used then m.fill 0 used 0 else m) i = 0 := by
  intro i hi
  split_ifs with h0
  · by_cases hu : i < used
    · simp [Mem.fill, hu]
    · rw [Mem.fill_apply_of_out (by omega)]
      exact h i (by omega) hi
  · exact h i (by omega) hi

/-- The PICC slice moved to the head of the pool, with everything behind it wiped. -/
theorem formatPicc_keyPool {m : Mem} {off len used limit : ℕ} (hl : len ≤ used)
    (h : ∀ i, used ≤ i → i < limit → m i = 0) :
    ∀ i, len ≤ i → i < limit →
      (if len < used then (if 0 < off then m.move 0 off len else m).fill len (used - len) 0
        else if 0 < off then m.move 0 off len else m) i = 0 := by
  intro i hi hlim
  have hmove : (if 0 < off then m.move 0 off len else m) i = m i := by
    split_ifs
    · exact Mem.move_apply_of_out (by omega)
    · rfl
  split_ifs at hmove ⊢
  all_goals
    by_cases hu : i < used
    · first
        | (rw [Mem.fill, if_pos (by omega)])
        | omega
    · first
        | rw [Mem.fill_apply_of_out (by omega), hmove]; exact h i (by omega) hlim
        | rw [hmove]; exact h i (by omega) hlim

theorem keyOwners_zero : keyOwners 0 = {none} := by
  ext q
  cases q <;> simp

theorem PoolInv.formatPicc {n : ℕ} {c : DfcCredential} (h : PoolInv z n c) :
    PoolInv z 0 (dfcCredentialFormatPicc c) := by
  have hblank (m : DfcCredential) (hm : m.apps = fun _ => dfcCredentialResetApplication)
      (hu : m.keySetMetadataPoolUsed = 0) (hf : FilePoolInv z m) (hk : KeyPoolInv z 0 m) :
      PoolInv z 0 m := by
    refine ⟨⟨hk, ⟨?_, ?_, ?_⟩, hf⟩, ?_⟩
    · rw [hu]
      exact Packed.empty _ _
    · rw [hu]
      exact Nat.zero_le _
    · intro i _
      rw [hm]
      intro _
      rfl
    · intro i hi
      exact absurd hi (Nat.not_lt_zero i)
  by_cases hp : c.piccKeyOffset ≠ dfcKeyPoolNone ∧ 0 < c.piccKeyPoolLen ∧
      c.piccKeyOffset ≤ c.keyPoolUsed ∧ c.piccKeyPoolLen ≤ c.keyPoolUsed - c.piccKeyOffset
  · simp only [dfcCredentialFormatPicc, if_pos hp]
    refine hblank _ rfl rfl ⟨Packed.empty _ _, Nat.zero_le _,
      fun hz i _ hi => fill_zero_used (h.files.zero hz) i hi,
      fun i hi => absurd hi (Nat.not_lt_zero i)⟩ ⟨?_, ?_, ?_, ?_⟩
    · rw [keyOwners_zero]
      refine ⟨?_, ?_, ?_⟩
      · intro q hq _
        rw [Finset.mem_singleton.mp hq]
        exact Nat.le_of_eq (Nat.zero_add _)
      · intro q hq r hr hqr
        rw [Finset.mem_singleton.mp hq, Finset.mem_singleton.mp hr] at hqr
        exact absurd rfl hqr
      · exact Finset.sum_singleton _ _
    · have := h.keys.fit
      dsimp only
      omega
    · have hlen : c.piccKeyPoolLen ≤ c.keyPoolUsed := by omega
      exact fun hz => formatPicc_keyPool hlen (h.keys.zero hz)
    · intro q hm hq
      cases q with
      | none => exact absurd hq (Nat.ne_of_gt hp.2.1)
      | some i => rfl
  · simp only [dfcCredentialFormatPicc, if_neg hp]
    refine hblank _ rfl rfl ⟨Packed.empty _ _, Nat.zero_le _,
      fun hz i _ hi => fill_zero_used (h.files.zero hz) i hi,
      fun i hi => absurd hi (Nat.not_lt_zero i)⟩ ⟨?_, ?_, ?_, ?_⟩
    · rw [keyOwners_zero]
      refine ⟨?_, ?_, ?_⟩
      · intro q hq hn
        rw [Finset.mem_singleton.mp hq] at hn
        exact absurd rfl hn
      · intro q hq r hr hqr
        rw [Finset.mem_singleton.mp hq, Finset.mem_singleton.mp hr] at hqr
        exact absurd rfl hqr
      · exact Finset.sum_singleton _ _
    · exact Nat.zero_le _
    · intro hz i _ hi
      simpa using fill_zero_used (h.keys.zero hz) i hi
    · intro q _ _
      cases q <;> rfl

theorem poolInv_clear : PoolInv z 0 dfcCredentialClear := by
  rw [dfcCredentialClear]
  refine PoolInv.keysResize ?_ (by simp) 1 8
  refine ⟨⟨⟨?_, Nat.zero_le _, fun _ _ _ _ => rfl, fun q _ _ => by cases q <;> rfl⟩,
    ⟨Packed.empty _ _, Nat.zero_le _, fun _ _ _ => rfl⟩,
    ⟨Packed.empty _ _, Nat.zero_le _, fun _ _ _ _ => rfl,
      fun i hi => absurd hi (Nat.not_lt_zero i)⟩⟩, fun i hi => absurd hi (Nat.not_lt_zero i)⟩
  rw [keyOwners_zero]
  refine ⟨?_, ?_, ?_⟩
  · intro q hq hn
    rw [Finset.mem_singleton.mp hq] at hn
    exact absurd rfl hn
  · intro q hq r hr hqr
    rw [Finset.mem_singleton.mp hq, Finset.mem_singleton.mp hr] at hqr
    exact absurd rfl hqr
  · exact Finset.sum_singleton _ _

/-- One call of the credential interface that allocates, releases or moves slices. -/
inductive PoolOp where
  | clear
  | createApplication (aid : Mem) (keySettings1 keySettings2 : UInt8)
  | keysResize (app : Option ℕ) (numKeys keyLen : ℕ)
  | keySetsResize (app numKeySets numKeys activeKeyLen maxKeySize : ℕ)
  | keysRelease (app : Option ℕ)
  | rollKeySet (app set : ℕ)
  | deleteApplicationAt (appIndex : ℕ)
  | createFile (appIndex : ℕ) (number : UInt8)
  | fileResize (file dataLen : ℕ)
  | fileRelease (file : ℕ)
  | deleteFile (appIndex : ℕ) (number : UInt8)
  /-- `sizeMax` is the largest value of the `size_t` of the target. -/
  | materializeContents (sizeMax scratchLen : ℕ)
  | formatPicc
  /-- The caller fills in what kind of file a record describes. -/
  | describeFile (file : ℕ) (type : UInt8) (state : DfcFileState)

/-- Whether a call names a counted record. -/
def PoolOp.callable (c : DfcCredential) : PoolOp → Bool
  | keysResize (some i) _ _ | keysRelease (some i) => decide (i < c.numApps)
  | keySetsResize i _ _ _ _ | rollKeySet i _ => decide (i < c.numApps)
  | fileResize i _ | fileRelease i | describeFile i _ _ => decide (i < c.numFiles)
  | _ => true

/-- The effect of a call. -/
def PoolOp.exec (c : DfcCredential) : PoolOp → DfcCredential
  | clear => dfcCredentialClear
  | createApplication aid s₁ s₂ => (dfcCredentialCreateApplicationDesfireOrder c aid s₁ s₂).1
  | keysResize app numKeys keyLen => (dfcCredentialKeysResize c app numKeys keyLen).1
  | keySetsResize i sets keys active max => (dfcCredentialKeySetsResize c i sets keys active max).1
  | keysRelease app => dfcCredentialKeysRelease c app
  | rollKeySet i set => (dfcCredentialRollKeySet c i set).1
  | deleteApplicationAt i => (dfcCredentialDeleteApplicationAt c i).1
  | createFile appIndex number => (dfcCredentialCreateFile c appIndex number).1
  | fileResize i dataLen => (dfcFileResize c i dataLen).1
  | fileRelease i => dfcFileRelease c i
  | deleteFile appIndex number => (dfcCredentialDeleteFile c appIndex number).1
  | materializeContents sizeMax scratchLen =>
    (dfcCredentialMaterializeContents c sizeMax scratchLen).1
  | formatPicc => dfcCredentialFormatPicc c
  | describeFile i type state => c.modifyFile i fun file =>
      { file with type := type, state := state }

/-- A call that names no counted record does not happen. -/
def PoolOp.step (c : DfcCredential) (op : PoolOp) : DfcCredential :=
  if op.callable c then op.exec c else c

/-- A finite sequence of calls on a cleared credential. -/
def poolRun (ops : List PoolOp) : DfcCredential := ops.foldl PoolOp.step dfcCredentialClear

theorem clear_numApps : dfcCredentialClear.numApps = 0 := by decide

theorem PoolInv.exec {c : DfcCredential} (h : PoolInv z c.numApps c) {op : PoolOp}
    (hop : op.callable c = true) : PoolInv z (op.exec c).numApps (op.exec c) := by
  have hfile {c' : DfcCredential} (hf : FileFrame c c') (hi : FilePoolInv z c') :
      PoolInv z c'.numApps c' := by
    rw [hf.numApps]
    exact h.ofFiles hf hi
  cases op with
  | clear =>
    show PoolInv z dfcCredentialClear.numApps dfcCredentialClear
    rw [clear_numApps]
    exact poolInv_clear
  | createApplication aid s₁ s₂ => exact h.createApplication aid s₁ s₂
  | keysResize app numKeys keyLen =>
    have hp : app ∈ keyOwners c.numApps := by
      cases app with
      | none => simp
      | some i => simpa [PoolOp.callable] using hop
    have hnum := keysResize_numApps h.keys hp numKeys keyLen
    rw [PoolOp.exec, hnum]
    exact h.keysResize hp numKeys keyLen
  | keySetsResize i sets keys active max =>
    have hi : i < c.numApps := by simpa [PoolOp.callable] using hop
    have hnum := keySetsResize_numApps h.keys hi sets keys active max
    rw [PoolOp.exec, hnum]
    exact h.keySetsResize hi sets keys active max
  | keysRelease app =>
    have hp : app ∈ keyOwners c.numApps := by
      cases app with
      | none => simp
      | some i => simpa [PoolOp.callable] using hop
    rw [PoolOp.exec, keysRelease_numApps]
    exact h.keysRelease hp
  | rollKeySet i set =>
    have hi : i < c.numApps := by simpa [PoolOp.callable] using hop
    rw [PoolOp.exec, rollKeySet_numApps]
    exact h.rollKeySet hi set
  | deleteApplicationAt i => exact h.deleteApplicationAt i
  | createFile appIndex number =>
    exact hfile (fileFrame_create c appIndex number) (h.files.create appIndex number)
  | fileResize i dataLen =>
    have hi : i < c.numFiles := by simpa [PoolOp.callable] using hop
    exact hfile (fileFrame_resize c i dataLen) (h.files.resize hi dataLen)
  | fileRelease i =>
    have hi : i < c.numFiles := by simpa [PoolOp.callable] using hop
    exact hfile (fileFrame_release c i) (h.files.release hi).1
  | deleteFile appIndex number =>
    exact hfile (fileFrame_delete c appIndex number) (h.files.delete appIndex number)
  | materializeContents sizeMax scratchLen =>
    obtain ⟨hinv, hnum⟩ := h.materializeContents sizeMax scratchLen
    rw [PoolOp.exec, hnum]
    exact hinv
  | formatPicc => exact h.formatPicc
  | describeFile i type state =>
    exact hfile ⟨_, _, _, _, rfl⟩ (h.files.modifyFile i
      (f := fun file => { file with type := type, state := state }) (fun _ => rfl) (fun _ => rfl))

theorem PoolInv.step {c : DfcCredential} (h : PoolInv z c.numApps c) (op : PoolOp) :
    PoolInv z (op.step c).numApps (op.step c) := by
  rw [PoolOp.step]
  split_ifs with hop
  · exact h.exec hop
  · exact h

/-- The invariant holds after every sequence of calls. -/
theorem poolRun_inv (ops : List PoolOp) : PoolInv True (poolRun ops).numApps (poolRun ops) := by
  have hrun : ∀ c : DfcCredential, PoolInv True c.numApps c →
      PoolInv True (ops.foldl PoolOp.step c).numApps (ops.foldl PoolOp.step c) := by
    induction ops with
    | nil => exact fun c h => h
    | cons op ops ih => exact fun c h => ih (op.step c) (h.step op)
  apply hrun
  rw [clear_numApps]
  exact poolInv_clear

/-- After every sequence of calls the slices of each pool are disjoint and fill its used
part, and the key and file pools are zero behind it. -/
theorem poolRun_packed (ops : List PoolOp) : PoolsPacked (poolRun ops) :=
  (poolRun_inv ops).toPacked

end DfcCore
