import DfcCore.KeyPoolInvariant

/-!
# Key sets and their metadata

The operations of an application with key sets keep the pool invariant: resizing its
metadata slice, allocating key lists and key sets, and rolling the sets. Rolling
permutes key blocks in place, which is inside the slice because the invariant ties the
slice to the number of blocks.
-/
namespace DfcCore
open Arena
variable {z : Prop}

/-- What a metadata slice that resolves says about its application. -/
structure MetadataSlice (c : DfcCredential) (app : DfcApplication) (data : ℕ) : Prop where
  start : data = app.keySetMetadataOffset
  sets : dfcKeySetMinimumCount ≤ app.numKeySets
  setsMax : app.numKeySets ≤ dfcMaxKeySets
  keys : 0 < app.numKeys
  keysMax : app.numKeys ≤ dfcMaxKeys
  len : app.keySetMetadataLen = 2 * app.numKeySets + 2 + (app.numKeySets - 1) * app.numKeys
  bound : data + app.keySetMetadataLen ≤ c.keySetMetadataPoolUsed

theorem MetadataSlice.len_ne_zero {c : DfcCredential} {app : DfcApplication} {data : ℕ}
    (h : MetadataSlice c app data) : app.keySetMetadataLen ≠ 0 := by
  rw [h.len]
  omega

theorem keySetMetadataLength_ne_zero {numKeySets numKeys : ℕ}
    (h : dfcKeySetMetadataLength numKeySets numKeys ≠ 0) :
    dfcKeySetMinimumCount ≤ numKeySets ∧ numKeySets ≤ dfcMaxKeySets ∧ 0 < numKeys ∧
      numKeys ≤ dfcMaxKeys ∧
      dfcKeySetMetadataLength numKeySets numKeys =
        2 * numKeySets + 2 + (numKeySets - 1) * numKeys := by
  rw [dfcKeySetMetadataLength] at h ⊢
  by_cases hc : numKeySets < dfcKeySetMinimumCount ∨ dfcMaxKeySets < numKeySets ∨ numKeys = 0 ∨
      dfcMaxKeys < numKeys
  · rw [if_pos hc] at h
    exact absurd rfl h
  · rw [if_neg hc]
    omega

theorem keySetMetadataSlice_some {c : DfcCredential} {app : DfcApplication} {data : ℕ}
    (h : dfcKeySetMetadataSlice c app = some data) : MetadataSlice c app data := by
  rw [dfcKeySetMetadataSlice] at h
  by_cases h₁ : app.numKeySets < dfcKeySetMinimumCount ∨
      dfcKeySetMetadataPoolSize < c.keySetMetadataPoolUsed
  · rw [if_pos h₁] at h
    exact absurd h (by simp)
  rw [if_neg h₁] at h
  dsimp only at h
  split at h
  · exact absurd h (by simp)
  · rename_i h₂
    rw [Option.some.injEq] at h
    have hne : dfcKeySetMetadataLength app.numKeySets app.numKeys ≠ 0 := fun hz => h₂ (Or.inl hz)
    obtain ⟨hs, hs', hk, hk', hl⟩ := keySetMetadataLength_ne_zero hne
    have hlen : app.keySetMetadataLen = dfcKeySetMetadataLength app.numKeySets app.numKeys := by
      by_contra hh
      exact h₂ (Or.inr (Or.inl hh))
    exact ⟨h.symm, hs, hs', hk, hk', hlen.trans hl, by rw [hlen, ← h]; omega⟩

theorem MetadataPoolInv.resolve {n : ℕ} {c : DfcCredential} (h : MetadataPoolInv n c) {i : ℕ}
    (hi : i < n) :
    dfcPoolSliceResolve (c.apps i).keySetMetadataOffset (c.apps i).keySetMetadataLen
      c.keySetMetadataPoolUsed dfcKeySetMetadataPoolNone =
      some (c.apps i).keySetMetadataOffset :=
  dfcPoolSliceResolve_eq (h.sentinel i hi) (h.slice hi)

theorem MetadataPoolInv.canResize {n : ℕ} {c : DfcCredential} (h : MetadataPoolInv n c)
    {i want : ℕ} (hi : i < n) :
    dfcKeySetMetadataCanResize c i want = true ↔
      c.keySetMetadataPoolUsed - (c.apps i).keySetMetadataLen + want ≤
        dfcKeySetMetadataPoolSize := by
  have hfit := h.fit
  rw [dfcKeySetMetadataCanResize]
  simp only [h.resolve hi]
  have hold : (if (c.apps i).keySetMetadataOffset ≠ dfcKeySetMetadataPoolNone
      then c.keySetMetadataPoolUsed - (c.apps i).keySetMetadataLen
      else c.keySetMetadataPoolUsed) =
      c.keySetMetadataPoolUsed - (c.apps i).keySetMetadataLen := by
    split_ifs with ho
    · rfl
    · have h0 : (c.apps i).keySetMetadataLen = 0 := by
        by_contra hn
        exact (h.slice hi hn).2 (not_not.mp ho)
      rw [h0, Nat.sub_zero]
  rw [hold]
  split_ifs with h₁
  · simp only [false_iff]
    omega
  · rw [decide_eq_true_iff]
    omega

theorem MetadataPoolInv.release_used {n : ℕ} {c : DfcCredential} (h : MetadataPoolInv n c) {i : ℕ}
    (hi : i < n) :
    (dfcKeySetMetadataRelease c i).keySetMetadataPoolUsed =
      c.keySetMetadataPoolUsed - (c.apps i).keySetMetadataLen := by
  rw [dfcKeySetMetadataRelease]
  by_cases hn : (c.apps i).keySetMetadataLen = 0
  · rw [if_pos (Or.inr hn), hn, Nat.sub_zero]
    rfl
  · obtain ⟨hb, hoff⟩ := h.slice hi hn
    have hu : (c.modifyApp i DfcApplication.dropMetadata).keySetMetadataPoolUsed =
      c.keySetMetadataPoolUsed := rfl
    rw [if_neg (by simp [hoff, hn]), if_neg (by rw [hu]; omega)]
    exact metadataCompact_used (c := c.modifyApp i DfcApplication.dropMetadata) hn hoff h.fit

/-- Releasing metadata keeps the key and file pools. -/
theorem PoolCore.metadataRelease {n : ℕ} {c : DfcCredential} (h : PoolCore z n c) {i : ℕ}
    (hi : i < n) : PoolCore z n (dfcKeySetMetadataRelease c i) where
  keys := by
    obtain ⟨apps, pool, used, hf⟩ := metadataRelease_frame c i
    refine h.keys.frame (by rw [hf]) (fun _ _ _ => by rw [hf]) (fun q => ?_) (fun q => ?_)
    · cases q with
      | none => rw [hf]; rfl
      | some j => exact (metadataRelease_apps c i j).2
    · cases q with
      | none => rw [hf]; rfl
      | some j =>
        refine (keyPoolLen_of_unplaced (metadataRelease_apps c i j).1).trans ?_
        split_ifs <;> rfl
  metadata := (h.metadata.release hi).1
  files := by
    obtain ⟨apps, pool, used, hf⟩ := metadataRelease_frame c i
    rw [hf]
    exact h.files.frame rfl rfl (fun _ _ _ => rfl) (fun _ => rfl) (fun _ => rfl)

/-- What a resize of the metadata of application `i` leaves. -/
theorem PoolCore.metadataResize {n : ℕ} {c : DfcCredential} (h : PoolCore z n c) {i : ℕ}
    (hi : i < n) (want : ℕ) :
    PoolCore z n (dfcKeySetMetadataResize c i want).1 ∧
    ∀ j, ((dfcKeySetMetadataResize c i want).1.apps j).unplaced =
      (if j = i ∧ (dfcKeySetMetadataResize c i want).2 = true then
        { c.apps j with keySetMetadataLen := want } else c.apps j).unplaced := by
  rw [dfcKeySetMetadataResize]
  by_cases hcan : dfcKeySetMetadataCanResize c i want = true
  swap
  · simp only [hcan, Bool.not_false, if_true]
    exact ⟨h, fun j => by simp⟩
  have hroom := (h.metadata.canResize hi).mp hcan
  simp only [hcan, Bool.not_true, Bool.false_eq_true, if_false]
  have hrel := h.metadataRelease hi
  by_cases h0 : want = 0
  · rw [if_pos h0]
    refine ⟨hrel, fun j => ?_⟩
    rw [(metadataRelease_apps c i j).1]
    by_cases hj : j = i
    · rw [if_pos hj, if_pos ⟨hj, rfl⟩, h0]
      rfl
    · rw [if_neg hj, if_neg (fun hh => hj hh.1)]
  rw [if_neg h0]
  have hlen0 := (h.metadata.release hi).2
  have hused := h.metadata.release_used hi
  have hsize : dfcKeySetMetadataPoolSize = 896 := rfl
  have hw : u16 want = want := u16_of_lt (by omega)
  have hu : u16 (dfcKeySetMetadataRelease c i).keySetMetadataPoolUsed =
      (dfcKeySetMetadataRelease c i).keySetMetadataPoolUsed := u16_of_lt (by omega)
  have hu' : u16 ((dfcKeySetMetadataRelease c i).keySetMetadataPoolUsed + want) =
      (dfcKeySetMetadataRelease c i).keySetMetadataPoolUsed + want := u16_of_lt (by omega)
  simp only [hw, hu, hu']
  refine ⟨⟨?_, ?_, ?_⟩, fun j => ?_⟩
  · refine hrel.keys.frame rfl (fun _ _ _ => rfl) (fun q => ?_) (fun q => ?_)
    all_goals
      cases q with
      | none => rfl
      | some j =>
        simp only [keyOffsetOf, keyPoolLenOf, modifyApp_apps]
        split_ifs with hj
        · rw [hj]
        · rfl
  · constructor
    · refine hrel.metadata.packed.append (Finset.mem_range.mpr hi) hlen0 ?_ ?_ ?_ ?_
      · simp
      · simp
      · intro j _ hji
        simp [hji]
      · intro j _ hji _
        simp [hji]
    · dsimp only
      omega
    · intro j hjn hj
      simp only [modifyApp_apps] at hj ⊢
      split_ifs at hj ⊢ with hji
      · simp only at hj
        exact absurd hj h0
      · exact hrel.metadata.sentinel j hjn hj
  · exact hrel.files.frame rfl rfl (fun _ _ _ => rfl) (fun _ => rfl) (fun _ => rfl)
  · have hr := (metadataRelease_apps c i j).1
    simp only [modifyApp_apps]
    by_cases hj : j = i
    · subst hj
      rw [if_pos rfl] at hr
      rw [if_pos rfl, if_pos ⟨rfl, trivial⟩]
      exact congrArg (fun a : DfcApplication => { a with keySetMetadataLen := want }) hr
    · rw [if_neg hj] at hr
      rw [if_neg hj, if_neg (fun hh => hj hh.1)]
      exact hr

/-- Dropping the metadata always fits, so only the allocation of keys can fail. -/
theorem metadataResize_zero {n : ℕ} {c : DfcCredential} (h : MetadataPoolInv n c) {i : ℕ}
    (hi : i < n) :
    (dfcKeySetMetadataResize c i 0).2 = true := by
  have hcan : dfcKeySetMetadataCanResize c i 0 = true := by
    rw [h.canResize hi]
    have := h.fit
    omega
  rw [dfcKeySetMetadataResize]
  simp [hcan]

theorem PoolInv.keysResize {n : ℕ} {c : DfcCredential} (h : PoolInv z n c) {p : Option ℕ}
    (hp : p ∈ keyOwners n) (numKeys keyLen : ℕ) :
    PoolInv z n (dfcCredentialKeysResize c p numKeys keyLen).1 := by
  rw [dfcCredentialKeysResize]
  cases hr : dfcCredentialKeysResizeTotal c p numKeys numKeys keyLen keyLen with
  | mk c' ok =>
    have hs := h.toPoolCore.keysResizeTotal hp hr
    cases ok with
    | false =>
      simp only [Bool.false_eq_true, if_false] at hs
      rw [hs]
      exact h
    | true =>
      simp only [if_true] at hs
      cases p with
      | none =>
        exact ⟨hs.core, h.blocks.of_unplaced (fun j => Or.inl (hs.others j (by simp)))⟩
      | some i =>
        have hi : i < n := (some_mem_keyOwners n i).mp hp
        dsimp only
        have hedit : PoolCore z n (c'.modifyApp i fun app =>
            { app with numKeySets := 1, maxKeySize := 0, keySetSettings := 0 }) :=
          hs.core.modifyApp i (fun _ => rfl) (fun _ => rfl) (fun _ => rfl) (fun _ => rfl)
        obtain ⟨hcore, happs⟩ := hedit.metadataResize hi 0
        have hok := metadataResize_zero hedit.metadata hi
        refine ⟨hcore, h.blocks.of_unplaced (fun j => ?_)⟩
        have hj := happs j
        by_cases hji : j = i
        · rw [if_pos ⟨hji, hok⟩] at hj
          exact Or.inr (keySetMetadataLen_of_unplaced hj)
        · rw [if_neg (fun hh => hji hh.1), modifyApp_apps, if_neg hji] at hj
          exact Or.inl (hj.trans (hs.others j (by simpa using Ne.symm hji)))

/-- A refused allocation changes nothing. -/
theorem keysResize_false {n i : ℕ} {c : DfcCredential} (h : PoolCore z n c) (hi : i < n)
    (numKeys keyLen : ℕ) (hf : (dfcCredentialKeysResize c (some i) numKeys keyLen).2 = false) :
    (dfcCredentialKeysResize c (some i) numKeys keyLen).1 = c := by
  rw [dfcCredentialKeysResize] at hf ⊢
  cases hr : dfcCredentialKeysResizeTotal c (some i) numKeys numKeys keyLen keyLen with
  | mk c' ok =>
    have hs := h.keysResizeTotal ((some_mem_keyOwners n i).mpr hi) hr
    rw [hr] at hf
    cases ok with
    | false => simpa using hs
    | true =>
      simp only [if_true] at hs
      have hedit : PoolCore z n (c'.modifyApp i fun app =>
          { app with numKeySets := 1, maxKeySize := 0, keySetSettings := 0 }) :=
        hs.core.modifyApp i (fun _ => rfl) (fun _ => rfl) (fun _ => rfl) (fun _ => rfl)
      have hok := metadataResize_zero hedit.metadata hi
      exact absurd (hok.symm.trans hf) (by simp)

/-- Storing the initialized mask moves no slice. -/
theorem PoolInv.storeMask {n : ℕ} {c : DfcCredential} (h : PoolInv z n c) (app : DfcApplication)
    (data : ℕ) (mask : UInt16) : PoolInv z n (keySetStoreInitializedMask c app data mask) where
  keys := h.keys.frame rfl (fun _ _ _ => rfl) (fun q => by cases q <;> rfl)
    (fun q => by cases q <;> rfl)
  metadata := h.metadata.frame rfl (fun _ => rfl) (fun _ => rfl)
  files := h.files.frame rfl rfl (fun _ _ _ => rfl) (fun _ => rfl) (fun _ => rfl)
  blocks := h.blocks

theorem PoolInv.keySetsResize {n : ℕ} {c : DfcCredential} (h : PoolInv z n c) {i : ℕ} (hi : i < n)
    (numKeySets numKeys activeKeyLen maxKeySize : ℕ) :
    PoolInv z n (dfcCredentialKeySetsResize c i numKeySets numKeys activeKeyLen maxKeySize).1 := by
  rw [dfcCredentialKeySetsResize]
  by_cases h₁ : numKeySets < dfcKeySetMinimumCount ∨ dfcMaxKeySets < numKeySets
  · rw [if_pos h₁]; exact h
  rw [if_neg h₁]
  by_cases h₂ : dfcKeySetMetadataLength numKeySets numKeys = 0 ∨
      (!dfcKeySetMetadataCanResize c i (dfcKeySetMetadataLength numKeySets numKeys)) = true
  · simp only [h₂, if_true]; exact h
  simp only [h₂, if_false]
  rw [not_or] at h₂
  have hcan := (h.metadata.canResize hi).mp (by simpa using h₂.2)
  cases hr : dfcCredentialKeysResizeTotal c (some i) numKeys (numKeys * numKeySets) activeKeyLen
      maxKeySize with
  | mk c₁ ok =>
    have hs := h.toPoolCore.keysResizeTotal ((some_mem_keyOwners n i).mpr hi) hr
    cases ok with
    | false =>
      simp only [Bool.false_eq_true, if_false] at hs
      rw [hs]
      exact h
    | true =>
      simp only [if_true] at hs
      obtain ⟨hcore, happs⟩ := hs.core.metadataResize hi
        (dfcKeySetMetadataLength numKeySets numKeys)
      dsimp only
      cases hm : dfcKeySetMetadataResize c₁ i (dfcKeySetMetadataLength numKeySets numKeys) with
      | mk c₂ ok₂ =>
        rw [hm] at hcore happs
        -- The octets of the other applications decide whether the metadata fits, and
        -- resizing the keys has not touched them.
        have hcan' : dfcKeySetMetadataCanResize c₁ i
            (dfcKeySetMetadataLength numKeySets numKeys) = true := by
          rw [hs.core.metadata.canResize hi, h.metadata.packed.rest_eq hs.core.metadata.packed
            (Finset.mem_range.mpr hi) (fun j _ hji =>
              keySetMetadataLen_of_unplaced (hs.others j (by simpa using Ne.symm hji)))]
          exact hcan
        have hok : ok₂ = true := by
          have hh := congrArg Prod.snd hm
          simp only [dfcKeySetMetadataResize, hcan', Bool.not_true, Bool.false_eq_true, if_false,
            h₂.1] at hh
          exact hh.symm
        subst hok
        have hfinal : PoolInv z n (c₂.modifyApp i fun app =>
            { app with numKeySets := u8 numKeySets, maxKeySize := u8 maxKeySize }) := by
          refine ⟨hcore.modifyApp i (fun _ => rfl) (fun _ => rfl) (fun _ => rfl) (fun _ => rfl), ?_⟩
          intro j hjn hj
          by_cases hji : j = i
          · subst hji
            have hu := happs j
            rw [if_pos ⟨rfl, rfl⟩] at hu
            obtain ⟨hnk, hst⟩ := hs.counts j rfl
            have hlen := hs.len
            have hnz : numKeys * numKeySets ≠ 0 := by
              intro hz
              apply h₂.1
              rw [dfcKeySetMetadataLength, if_pos]
              rcases Nat.mul_eq_zero.mp hz with hz | hz
              · exact Or.inr (Or.inr (Or.inl hz))
              · exact Or.inl (by simp [hz])
            have hns : u8 numKeySets = numKeySets := by
              apply u8_of_lt
              simp only [dfcMaxKeySets, dfcKeySetMinimumCount] at h₁
              omega
            simp only [modifyApp_apps, if_true, hns]
            rw [keyPoolLen_of_unplaced hu, numKeys_of_unplaced hu, keyStorageLen_of_unplaced hu]
            simp only [keyPoolLenOf] at hlen
            rw [hlen, hnk, hst hnz]
          · simp only [modifyApp_apps, if_neg hji] at hj ⊢
            have hu := happs j
            rw [if_neg (fun hh => hji hh.1)] at hu
            have hu' := hu.trans (hs.others j (by simpa using Ne.symm hji))
            rw [keyPoolLen_of_unplaced hu', numKeys_of_unplaced hu', numKeySets_of_unplaced hu',
              keyStorageLen_of_unplaced hu']
            exact h.blocks j hjn (keySetMetadataLen_of_unplaced hu' ▸ hj)
        dsimp only
        cases dfcKeySetMetadataSlice (c₂.modifyApp i fun app =>
            { app with numKeySets := u8 numKeySets, maxKeySize := u8 maxKeySize })
          ((c₂.modifyApp i fun app =>
            { app with numKeySets := u8 numKeySets, maxKeySize := u8 maxKeySize }).apps i) with
        | none => exact hfinal
        | some data => exact hfinal.storeMask _ _ _

/-- One cycle of the rotation writes inside the blocks only. -/
theorem rotateCycle_out (m : Mem) {base count width i : ℕ} (shift cycle : ℕ)
    (hi : i < base ∨ base + count * width ≤ i) (fuel current : ℕ) (hc : current < count) :
    (dfcRotateCycle m base count width shift cycle fuel current).1 i = m i ∧
      (dfcRotateCycle m base count width shift cycle fuel current).2 < count := by
  induction fuel generalizing m current with
  | zero => exact ⟨rfl, hc⟩
  | succ fuel ih =>
    have hnext : (current + shift) % count < count := Nat.mod_lt _ (by omega)
    have hblock : (current + 1) * width ≤ count * width := Nat.mul_le_mul_right _ (by omega)
    rw [Nat.succ_mul] at hblock
    rw [dfcRotateCycle]
    split_ifs
    · exact ⟨rfl, hc⟩
    · obtain ⟨h₁, h₂⟩ := ih (m.write (base + current * width)
        (m.read (base + (current + shift) % count * width) width)) _ hnext
      refine ⟨h₁.trans (Mem.write_apply_of_out ?_), h₂⟩
      rw [Mem.length_read]
      omega

/-- Rotating the key blocks writes inside the blocks only. -/
theorem rotateKeyBlocksLeft_out {m : Mem} {base count width shift i : ℕ} (hcount : 0 < count)
    (hi : i < base ∨ base + count * width ≤ i) :
    dfcRotateKeyBlocksLeft m base count width shift i = m i := by
  rw [dfcRotateKeyBlocksLeft]
  have hgcd : Nat.gcd count shift ≤ count := Nat.gcd_le_left _ hcount
  generalize hl : List.range (Nat.gcd count shift) = l
  have hlt : ∀ x ∈ l, x < count := by
    intro x hx
    rw [← hl, List.mem_range] at hx
    omega
  clear hl
  induction l generalizing m with
  | nil => rfl
  | cons cycle l ih =>
    rw [List.foldl_cons, ih (fun x hx => hlt x (List.mem_cons_of_mem _ hx))]
    obtain ⟨h₁, h₂⟩ := rotateCycle_out m shift cycle hi count cycle
      (hlt cycle List.mem_cons_self)
    cases hr : dfcRotateCycle m base count width shift cycle count cycle with
    | mk m' current =>
      rw [hr] at h₁ h₂
      have hblock : (current + 1) * width ≤ count * width := Nat.mul_le_mul_right _ (by omega)
      rw [Nat.succ_mul] at hblock
      rw [← h₁]
      apply Mem.write_apply_of_out
      rw [Mem.length_read]
      omega

/-- An edit that leaves slices, pools and the shape of the key blocks alone. -/
theorem PoolInv.frameMetadata {n : ℕ} {c c' : DfcCredential} (h : PoolInv z n c)
    (hf : ∃ apps pool, c' = { c with apps := apps, keySetMetadataPool := pool })
    (hk : ∀ j, (c'.apps j).keyOffset = (c.apps j).keyOffset)
    (hl : ∀ j, (c'.apps j).keyPoolLen = (c.apps j).keyPoolLen)
    (hmo : ∀ j, (c'.apps j).keySetMetadataOffset = (c.apps j).keySetMetadataOffset)
    (hml : ∀ j, (c'.apps j).keySetMetadataLen = (c.apps j).keySetMetadataLen)
    (hn : ∀ j, (c'.apps j).numKeys = (c.apps j).numKeys)
    (hs : ∀ j, (c'.apps j).numKeySets = (c.apps j).numKeySets)
    (hst : ∀ j, (c'.apps j).keyStorageLen = (c.apps j).keyStorageLen) : PoolInv z n c' := by
  obtain ⟨apps, pool, rfl⟩ := hf
  refine ⟨⟨?_, ?_, ?_⟩, ?_⟩
  · refine h.keys.frame rfl (fun _ _ _ => rfl) (fun q => ?_) (fun q => ?_)
    · cases q with
      | none => rfl
      | some j => exact hk j
    · cases q with
      | none => rfl
      | some j => exact hl j
  · exact h.metadata.frame rfl hmo hml
  · exact h.files.frame rfl rfl (fun _ _ _ => rfl) (fun _ => rfl) (fun _ => rfl)
  · intro j hjn hj
    rw [hl, hn, hs, hst]
    exact h.blocks j hjn (hml j ▸ hj)

theorem PoolInv.rotateMetadata {n : ℕ} {c : DfcCredential} (h : PoolInv z n c) (i : ℕ) :
    PoolInv z n (dfcCredentialRotateKeySetMetadata c i).1 := by
  rw [dfcCredentialRotateKeySetMetadata]
  cases dfcKeySetMetadataSlice c (c.apps i) with
  | none => exact h
  | some data =>
    refine h.frameMetadata ⟨_, _, rfl⟩ ?_ ?_ ?_ ?_ ?_ ?_ ?_
    all_goals
      intro j
      simp only [keySetStoreInitializedMask, modifyApp_apps]
      split_ifs with hj
      · rw [hj]
      · rfl

theorem PoolInv.rotateMetadataTimes {n : ℕ} {c : DfcCredential} (h : PoolInv z n c) (i k : ℕ) :
    PoolInv z n (dfcCredentialRotateKeySetMetadataTimes c i k).1 := by
  induction k generalizing c with
  | zero => exact h
  | succ k ih =>
    rw [dfcCredentialRotateKeySetMetadataTimes]
    have hone := h.rotateMetadata i
    cases hr : dfcCredentialRotateKeySetMetadata c i with
    | mk c' ok =>
      rw [hr] at hone
      cases ok with
      | false => exact hone
      | true => exact ih hone

theorem PoolInv.rollKeySet {n : ℕ} {c : DfcCredential} (h : PoolInv z n c) {i : ℕ} (hi : i < n)
    (set : ℕ) :
    PoolInv z n (dfcCredentialRollKeySet c i set).1 := by
  rw [dfcCredentialRollKeySet]
  by_cases h₁ : set = 0 ∨ (c.apps i).numKeySets ≤ set
  · simp only [h₁, if_true]
    exact h
  simp only [h₁, if_false]
  cases hs : dfcKeySetMetadataSlice c (c.apps i) with
  | none => exact h
  | some data =>
    simp only [Option.isNone_some, Bool.false_eq_true, if_false]
    -- The metadata exists, so the key slice is exactly the blocks that are permuted.
    have hslice := keySetMetadataSlice_some hs
    have hcount : 0 < (c.apps i).numKeys * (c.apps i).numKeySets :=
      Nat.mul_pos hslice.keys (by have := hslice.sets; omega)
    have hblocks := h.blocks i hi hslice.len_ne_zero
    have hlen : keyPoolLenOf c (some i) ≠ 0 := by
      simp only [keyPoolLenOf, hblocks]
      exact Nat.mul_ne_zero (by omega) (Nat.ne_of_gt (storedKeyLength_pos _))
    obtain ⟨hb, -⟩ := h.keys.slice ((some_mem_keyOwners n i).mpr hi) hlen
    simp only [keyPoolLenOf, keyOffsetOf] at hb
    have hrot : PoolInv z n { c with
        keyPool := dfcRotateKeyBlocksLeft c.keyPool (c.apps i).keyOffset
          ((c.apps i).numKeys * (c.apps i).numKeySets)
          (dfcCredentialStoredKeyLength (c.apps i).keyStorageLen) (set * (c.apps i).numKeys) } := by
      refine ⟨⟨?_, ?_, ?_⟩, h.blocks⟩
      · refine h.keys.frame rfl (fun k hk _ => ?_) (fun q => by cases q <;> rfl)
          (fun q => by cases q <;> rfl)
        exact rotateKeyBlocksLeft_out hcount (Or.inr (by omega))
      · exact h.metadata.frame rfl (fun _ => rfl) (fun _ => rfl)
      · exact h.files.frame rfl rfl (fun _ _ _ => rfl) (fun _ => rfl) (fun _ => rfl)
    have htimes := hrot.rotateMetadataTimes i set
    cases hr : dfcCredentialRotateKeySetMetadataTimes { c with
        keyPool := dfcRotateKeyBlocksLeft c.keyPool (c.apps i).keyOffset
          ((c.apps i).numKeys * (c.apps i).numKeySets)
          (dfcCredentialStoredKeyLength (c.apps i).keyStorageLen)
          (set * (c.apps i).numKeys) } i set with
    | mk c' ok =>
      rw [hr] at htimes
      cases ok with
      | false => exact htimes
      | true =>
        dsimp only
        cases dfcCredentialKeySetType c' (c'.apps i) 0 with
        | none => exact htimes
        | some at' =>
          refine htimes.frameMetadata ⟨_, _, rfl⟩ ?_ ?_ ?_ ?_ ?_ ?_ ?_
          all_goals
            intro j
            rw [modifyApp_apps]
            split_ifs with hj
            · rw [hj]
            · rfl

end DfcCore
