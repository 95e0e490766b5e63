import DfcCore.PoolInvariant

/-!
# The key pool and the key-set metadata pool

Both pools are shared by the application records, and releasing the keys of an
application releases its metadata as well. The lemmas about one pool therefore also
say that the slices of the other pool stay where they are.
-/
namespace DfcCore
open Arena
variable {z : Prop}

theorem modifyApp_modifyApp (c : DfcCredential) (i : ℕ) (f g : DfcApplication → DfcApplication) :
    (c.modifyApp i f).modifyApp i g = c.modifyApp i (fun app => g (f app)) := by
  simp [DfcCredential.modifyApp]

theorem modifyApp_congr {c : DfcCredential} {i : ℕ} {f g : DfcApplication → DfcApplication}
    (h : f (c.apps i) = g (c.apps i)) : c.modifyApp i f = c.modifyApp i g := by
  rw [DfcCredential.modifyApp, DfcCredential.modifyApp, h]

@[simp] theorem dropMetadata_len (app : DfcApplication) :
    app.dropMetadata.keySetMetadataLen = 0 := rfl

@[simp] theorem dropMetadata_offset (app : DfcApplication) :
    app.dropMetadata.keySetMetadataOffset = dfcKeySetMetadataPoolNone := rfl

/-- An application record with its places in the two pools erased. Compaction changes
nothing else. -/
def DfcApplication.unplaced (app : DfcApplication) : DfcApplication :=
  { app with keyOffset := 0, keySetMetadataOffset := 0 }

section unplaced
variable {a b : DfcApplication}

theorem keyPoolLen_of_unplaced (h : a.unplaced = b.unplaced) : a.keyPoolLen = b.keyPoolLen :=
  show a.unplaced.keyPoolLen = b.unplaced.keyPoolLen by rw [h]

theorem numKeys_of_unplaced (h : a.unplaced = b.unplaced) : a.numKeys = b.numKeys :=
  show a.unplaced.numKeys = b.unplaced.numKeys by rw [h]

theorem numKeySets_of_unplaced (h : a.unplaced = b.unplaced) : a.numKeySets = b.numKeySets :=
  show a.unplaced.numKeySets = b.unplaced.numKeySets by rw [h]

theorem keyStorageLen_of_unplaced (h : a.unplaced = b.unplaced) :
    a.keyStorageLen = b.keyStorageLen :=
  show a.unplaced.keyStorageLen = b.unplaced.keyStorageLen by rw [h]

theorem keySetMetadataLen_of_unplaced (h : a.unplaced = b.unplaced) :
    a.keySetMetadataLen = b.keySetMetadataLen :=
  show a.unplaced.keySetMetadataLen = b.unplaced.keySetMetadataLen by rw [h]

end unplaced

/-- The block rule survives for records that moved, and holds for records without
metadata. -/
theorem KeyBlocksFit.of_unplaced {n : ℕ} {c c' : DfcCredential} (h : KeyBlocksFit n c)
    (hu : ∀ j, (c'.apps j).unplaced = (c.apps j).unplaced ∨ (c'.apps j).keySetMetadataLen = 0) :
    KeyBlocksFit n c' := by
  intro j hn hj
  rcases hu j with hu | h0
  · rw [keyPoolLen_of_unplaced hu, numKeys_of_unplaced hu, numKeySets_of_unplaced hu,
      keyStorageLen_of_unplaced hu]
    exact h j hn (keySetMetadataLen_of_unplaced hu ▸ hj)
  · exact absurd h0 hj

theorem metadataCompact_apps (c : DfcCredential) (o l j : ℕ) :
    ((dfcKeySetMetadataCompactAfterRelease c o l).apps j).unplaced = (c.apps j).unplaced ∧
    ((dfcKeySetMetadataCompactAfterRelease c o l).apps j).keyOffset = (c.apps j).keyOffset := by
  rw [dfcKeySetMetadataCompactAfterRelease]
  split_ifs
  · exact ⟨rfl, rfl⟩
  · exact ⟨rfl, rfl⟩

theorem metadataCompact_offset {c : DfcCredential} {o l : ℕ} (hl : l ≠ 0)
    (ho : o ≠ dfcKeySetMetadataPoolNone) (j : ℕ) :
    ((dfcKeySetMetadataCompactAfterRelease c o l).apps j).keySetMetadataOffset =
      poolOffsetAfterRelease o l dfcKeySetMetadataPoolNone (c.apps j).keySetMetadataOffset := by
  rw [dfcKeySetMetadataCompactAfterRelease, if_neg (by simp [hl, ho])]

theorem metadataCompact_used {c : DfcCredential} {o l : ℕ} (hl : l ≠ 0)
    (ho : o ≠ dfcKeySetMetadataPoolNone)
    (hfit : c.keySetMetadataPoolUsed ≤ dfcKeySetMetadataPoolSize) :
    (dfcKeySetMetadataCompactAfterRelease c o l).keySetMetadataPoolUsed =
      c.keySetMetadataPoolUsed - l := by
  rw [dfcKeySetMetadataCompactAfterRelease, if_neg (by simp [hl, ho])]
  apply u16_of_lt
  simp only [dfcKeySetMetadataPoolSize, dfcKeyPoolSize] at hfit
  omega

/-- Releasing the metadata of an application. -/
theorem MetadataPoolInv.release {n : ℕ} {c : DfcCredential} (h : MetadataPoolInv n c) {i : ℕ}
    (hin : i < n) :
    MetadataPoolInv n (dfcKeySetMetadataRelease c i) ∧
      ((dfcKeySetMetadataRelease c i).apps i).keySetMetadataLen = 0 := by
  rw [dfcKeySetMetadataRelease]
  by_cases hn : (c.apps i).keySetMetadataLen = 0
  · have hs := h.sentinel i hin hn
    rw [if_pos (Or.inr hn)]
    refine ⟨h.frame rfl (fun j => ?_) (fun j => ?_), by simp⟩
    · rw [modifyApp_apps]
      split_ifs with hj
      · rw [hj, hs, dropMetadata_offset]
      · rfl
    · rw [modifyApp_apps]
      split_ifs with hj
      · rw [hj, hn, dropMetadata_len]
      · rfl
  · obtain ⟨hb, hoff⟩ := h.slice hin hn
    have hu : (c.modifyApp i DfcApplication.dropMetadata).keySetMetadataPoolUsed =
        c.keySetMetadataPoolUsed := rfl
    rw [if_neg (by simp [hoff, hn]), if_neg (by rw [hu]; omega)]
    have hused :=
      metadataCompact_used (c := c.modifyApp i DfcApplication.dropMetadata) hn hoff h.fit
    have hlen (j : ℕ) : ((dfcKeySetMetadataCompactAfterRelease
        (c.modifyApp i DfcApplication.dropMetadata) (c.apps i).keySetMetadataOffset
        (c.apps i).keySetMetadataLen).apps j).keySetMetadataLen =
        if j = i then 0 else (c.apps j).keySetMetadataLen := by
      have hu := (metadataCompact_apps (c.modifyApp i DfcApplication.dropMetadata)
        (c.apps i).keySetMetadataOffset (c.apps i).keySetMetadataLen j).1
      rw [keySetMetadataLen_of_unplaced hu, modifyApp_apps]
      split_ifs <;> rfl
    refine ⟨⟨?_, ?_, ?_⟩, by rw [hlen, if_pos rfl]⟩
    · rw [hused, hu]
      refine h.packed.release (Finset.mem_range.mpr hin) hn ?_ ?_ ?_
      · rw [hlen, if_pos rfl]
      · intro j _ hji
        rw [hlen, if_neg hji]
      · intro j hj hji hnj
        have hsj := h.slice (Finset.mem_range.mp hj) hnj
        have hfit := h.fit
        simp only [dfcKeySetMetadataPoolSize, dfcKeyPoolSize] at hfit
        rw [metadataCompact_offset hn hoff, modifyApp_apps, if_neg hji]
        exact poolOffsetAfterRelease_eq (by omega)
    · rw [hused, hu]
      exact le_trans (Nat.sub_le _ _) h.fit
    · intro j hj h0
      rw [hlen] at h0
      have hs : ((c.modifyApp i DfcApplication.dropMetadata).apps j).keySetMetadataOffset =
          dfcKeySetMetadataPoolNone := by
        rw [modifyApp_apps]
        split_ifs with hji
        · rfl
        · rw [if_neg hji] at h0
          exact h.sentinel j hj h0
      rw [metadataCompact_offset hn hoff, hs, poolOffsetAfterRelease_none]

/-- Everything but the metadata slice of `i` survives its release. -/
theorem metadataRelease_apps (c : DfcCredential) (i j : ℕ) :
    ((dfcKeySetMetadataRelease c i).apps j).unplaced =
      (if j = i then (c.apps j).dropMetadata else c.apps j).unplaced ∧
    ((dfcKeySetMetadataRelease c i).apps j).keyOffset = (c.apps j).keyOffset := by
  have hdrop : ((c.modifyApp i DfcApplication.dropMetadata).apps j).unplaced =
      (if j = i then (c.apps j).dropMetadata else c.apps j).unplaced ∧
      ((c.modifyApp i DfcApplication.dropMetadata).apps j).keyOffset = (c.apps j).keyOffset := by
    rw [modifyApp_apps]
    split_ifs with hj
    · rw [hj]; exact ⟨rfl, rfl⟩
    · exact ⟨rfl, rfl⟩
  rw [dfcKeySetMetadataRelease]
  by_cases h₁ : (c.apps i).keySetMetadataOffset = dfcKeySetMetadataPoolNone ∨
      (c.apps i).keySetMetadataLen = 0
  · rw [if_pos h₁]
    exact hdrop
  rw [if_neg h₁]
  by_cases h₂ : (c.modifyApp i DfcApplication.dropMetadata).keySetMetadataPoolUsed <
      (c.apps i).keySetMetadataOffset ∨
      (c.modifyApp i DfcApplication.dropMetadata).keySetMetadataPoolUsed -
        (c.apps i).keySetMetadataOffset < (c.apps i).keySetMetadataLen
  · rw [if_pos h₂]
    exact hdrop
  rw [if_neg h₂]
  have hc := metadataCompact_apps (c.modifyApp i DfcApplication.dropMetadata)
    (c.apps i).keySetMetadataOffset (c.apps i).keySetMetadataLen j
  exact ⟨hc.1.trans hdrop.1, hc.2.trans hdrop.2⟩

/-- Releasing metadata touches the application records and the metadata pool only. -/
theorem metadataRelease_frame (c : DfcCredential) (i : ℕ) :
    ∃ apps pool used, dfcKeySetMetadataRelease c i =
      { c with apps := apps, keySetMetadataPool := pool, keySetMetadataPoolUsed := used } := by
  rw [dfcKeySetMetadataRelease]
  split_ifs
  · exact ⟨_, _, _, rfl⟩
  · exact ⟨_, _, _, rfl⟩
  · rw [dfcKeySetMetadataCompactAfterRelease]
    split_ifs
    · exact ⟨_, _, _, rfl⟩
    · exact ⟨_, _, _, rfl⟩

theorem keyPoolCompact_apps (c : DfcCredential) (o l j : ℕ) :
    ((dfcKeyPoolCompactAfterRelease c o l).apps j).unplaced = (c.apps j).unplaced ∧
    ((dfcKeyPoolCompactAfterRelease c o l).apps j).keySetMetadataOffset =
      (c.apps j).keySetMetadataOffset := by
  rw [dfcKeyPoolCompactAfterRelease]
  by_cases h : l = 0 ∨ o = dfcKeyPoolNone
  · rw [if_pos h]
    exact ⟨rfl, rfl⟩
  · rw [if_neg h]
    exact ⟨rfl, rfl⟩

theorem keyPoolCompact_len (c : DfcCredential) (o l : ℕ) (p : Option ℕ) :
    keyPoolLenOf (dfcKeyPoolCompactAfterRelease c o l) p = keyPoolLenOf c p := by
  cases p with
  | none =>
    rw [dfcKeyPoolCompactAfterRelease]
    split_ifs <;> rfl
  | some j => exact keyPoolLen_of_unplaced (keyPoolCompact_apps c o l j).1

theorem keyPoolCompact_offset {c : DfcCredential} {o l : ℕ} (hl : l ≠ 0)
    (ho : o ≠ dfcKeyPoolNone) (p : Option ℕ) :
    keyOffsetOf (dfcKeyPoolCompactAfterRelease c o l) p =
      poolOffsetAfterRelease o l dfcKeyPoolNone (keyOffsetOf c p) := by
  rw [dfcKeyPoolCompactAfterRelease, if_neg (by simp [hl, ho])]
  cases p <;> rfl

theorem keyPoolCompact_pool {c : DfcCredential} {o l : ℕ} (hl : l ≠ 0) (ho : o ≠ dfcKeyPoolNone)
    (hfit : c.keyPoolUsed ≤ dfcKeyPoolSize) :
    (dfcKeyPoolCompactAfterRelease c o l).keyPoolUsed = c.keyPoolUsed - l ∧
      (dfcKeyPoolCompactAfterRelease c o l).keyPool = closeHoleMem c.keyPool c.keyPoolUsed o l := by
  have hu : u16 (c.keyPoolUsed - l) = c.keyPoolUsed - l := by
    apply u16_of_lt
    simp only [dfcKeyPoolSize] at hfit
    omega
  rw [dfcKeyPoolCompactAfterRelease, if_neg (by simp [hl, ho])]
  simp only [hu, move_tail_eq, closeHoleMem, and_self]

/-- Compaction touches the offsets held by the records and the key pool only. -/
theorem keyPoolCompact_frame (c : DfcCredential) (o l : ℕ) :
    ∃ apps pool used picc, dfcKeyPoolCompactAfterRelease c o l =
      { c with apps := apps, keyPool := pool, keyPoolUsed := used, piccKeyOffset := picc } := by
  rw [dfcKeyPoolCompactAfterRelease]
  split_ifs
  · exact ⟨_, _, _, _, rfl⟩
  · exact ⟨_, _, _, _, rfl⟩

/-- Closing the hole an owner left. `c'` is the credential in which the owner `p` has
already dropped its slice and every other owner still has its own. -/
theorem KeyPoolInv.compact {n : ℕ} {c c' : DfcCredential} (h : KeyPoolInv z n c) {p : Option ℕ}
    (hp : p ∈ keyOwners n) (hn : keyPoolLenOf c p ≠ 0) (hu : c'.keyPoolUsed = c.keyPoolUsed)
    (hm : c'.keyPool = c.keyPool)
    (ho : ∀ q, keyOffsetOf c' q = if q = p then dfcKeyPoolNone else keyOffsetOf c q)
    (hl : ∀ q, keyPoolLenOf c' q = if q = p then 0 else keyPoolLenOf c q) :
    KeyPoolInv z n (dfcKeyPoolCompactAfterRelease c' (keyOffsetOf c p) (keyPoolLenOf c p)) := by
  obtain ⟨hb, hoff⟩ := h.slice hp hn
  have hpool := keyPoolCompact_pool (c := c') hn hoff (hu ▸ h.fit)
  have hlen (q : Option ℕ) : keyPoolLenOf (dfcKeyPoolCompactAfterRelease c' (keyOffsetOf c p)
      (keyPoolLenOf c p)) q = if q = p then 0 else keyPoolLenOf c q := by
    rw [keyPoolCompact_len, hl]
  constructor
  · rw [hpool.1, hu]
    refine h.packed.release hp hn ?_ ?_ ?_
    · rw [hlen, if_pos rfl]
    · intro q _ hqp
      rw [hlen, if_neg hqp]
    · intro q hq hqp hnq
      have hsq := h.slice hq hnq
      have hfit := h.fit
      simp only [dfcKeyPoolSize] at hfit
      rw [keyPoolCompact_offset hn hoff, ho, if_neg hqp]
      exact poolOffsetAfterRelease_eq (by omega)
  · rw [hpool.1, hu]
    exact le_trans (Nat.sub_le _ _) h.fit
  · intro hz
    rw [hpool.1, hpool.2, hu, hm]
    exact closeHoleMem_zero hb (h.zero hz)
  · intro q hq h0
    rw [hlen] at h0
    have hnone : keyOffsetOf c' q = dfcKeyPoolNone := by
      rw [ho]
      split_ifs with hqp
      · rfl
      · rw [if_neg hqp] at h0
        exact h.sentinel q hq h0
    rw [keyPoolCompact_offset hn hoff, hnone, poolOffsetAfterRelease_none]

/-- The application record the release leaves before the metadata goes. -/
def DfcApplication.dropKeys (app : DfcApplication) : DfcApplication :=
  { app with keyOffset := dfcKeyPoolNone, keyPoolLen := 0, numKeys := 0, keyLen := 0,
             keyStorageLen := 0 }

theorem dropKeyRecord_some (c : DfcCredential) (i : ℕ) :
    dfcCredentialDropKeyRecord c (some i) =
      dfcKeySetMetadataRelease (c.modifyApp i DfcApplication.dropKeys) i := by
  simp only [dfcCredentialDropKeyRecord, setKeyOffset, setKeyPoolLen, setNumKeys, setKeyLen,
    setKeyStorageLen, modifyApp_modifyApp]
  rfl

theorem dropKeyRecord_none (c : DfcCredential) :
    dfcCredentialDropKeyRecord c none =
      { c with piccKeyOffset := dfcKeyPoolNone, piccKeyPoolLen := 0, piccNumKeys := 0,
               piccKeyLen := 0 } := rfl

theorem dropKeyRecord_offset (c : DfcCredential) (p q : Option ℕ) :
    keyOffsetOf (dfcCredentialDropKeyRecord c p) q =
      if q = p then dfcKeyPoolNone else keyOffsetOf c q := by
  cases p with
  | none => cases q <;> simp [dropKeyRecord_none, keyOffsetOf]
  | some i =>
    rw [dropKeyRecord_some]
    cases q with
    | none =>
      obtain ⟨apps, pool, used, h⟩ :=
        metadataRelease_frame (c.modifyApp i DfcApplication.dropKeys) i
      rw [h]
      rfl
    | some j =>
      simp only [keyOffsetOf, (metadataRelease_apps _ i j).2, modifyApp_apps, Option.some.injEq]
      split_ifs <;> rfl

theorem dropKeyRecord_len (c : DfcCredential) (p q : Option ℕ) :
    keyPoolLenOf (dfcCredentialDropKeyRecord c p) q = if q = p then 0 else keyPoolLenOf c q := by
  cases p with
  | none => cases q <;> simp [dropKeyRecord_none, keyPoolLenOf]
  | some i =>
    rw [dropKeyRecord_some]
    cases q with
    | none =>
      obtain ⟨apps, pool, used, h⟩ :=
        metadataRelease_frame (c.modifyApp i DfcApplication.dropKeys) i
      rw [h]
      rfl
    | some j =>
      have h := (metadataRelease_apps (c.modifyApp i DfcApplication.dropKeys) i j).1
      refine (keyPoolLen_of_unplaced h).trans ?_
      simp only [modifyApp_apps, Option.some.injEq, keyPoolLenOf]
      split_ifs with hj
      · rfl
      · rfl

theorem dropKeyRecord_pool (c : DfcCredential) (p : Option ℕ) :
    (dfcCredentialDropKeyRecord c p).keyPool = c.keyPool ∧
      (dfcCredentialDropKeyRecord c p).keyPoolUsed = c.keyPoolUsed := by
  cases p with
  | none => exact ⟨rfl, rfl⟩
  | some i =>
    obtain ⟨apps, pool, used, h⟩ := metadataRelease_frame (c.modifyApp i DfcApplication.dropKeys) i
    rw [dropKeyRecord_some, h]
    exact ⟨rfl, rfl⟩

theorem MetadataPoolInv.dropKeyRecord {n : ℕ} {c : DfcCredential} (h : MetadataPoolInv n c)
    {p : Option ℕ} (hp : p ∈ keyOwners n) : MetadataPoolInv n (dfcCredentialDropKeyRecord c p) := by
  cases p with
  | none => exact h.frame rfl (fun _ => rfl) (fun _ => rfl)
  | some i =>
    rw [dropKeyRecord_some]
    have hframe : MetadataPoolInv n (c.modifyApp i DfcApplication.dropKeys) := by
      refine h.frame rfl (fun j => ?_) (fun j => ?_)
      all_goals
        rw [modifyApp_apps]
        split_ifs with hj
        · rw [hj]; rfl
        · rfl
    exact (hframe.release ((some_mem_keyOwners n i).mp hp)).1

theorem KeyPoolInv.release {n : ℕ} {c : DfcCredential} (h : KeyPoolInv z n c) {p : Option ℕ}
    (hp : p ∈ keyOwners n) :
    KeyPoolInv z n (dfcCredentialKeysRelease c p) ∧
      keyPoolLenOf (dfcCredentialKeysRelease c p) p = 0 ∧
      (dfcCredentialKeysRelease c p).keyPoolUsed = c.keyPoolUsed - keyPoolLenOf c p := by
  rw [dfcCredentialKeysRelease]
  by_cases hn : keyPoolLenOf c p = 0
  · have hs := h.sentinel p hp hn
    rw [if_neg (by simp [hs])]
    obtain ⟨hpool, hused⟩ := dropKeyRecord_pool c p
    refine ⟨h.frame hused (fun _ _ _ => by rw [hpool]) (fun q => ?_) (fun q => ?_), ?_, ?_⟩
    · rw [dropKeyRecord_offset]
      split_ifs with hq
      · rw [hq, hs]
      · rfl
    · rw [dropKeyRecord_len]
      split_ifs with hq
      · rw [hq, hn]
      · rfl
    · rw [dropKeyRecord_len, if_pos rfl]
    · rw [hused, hn, Nat.sub_zero]
  · obtain ⟨-, hoff⟩ := h.slice hp hn
    obtain ⟨hpool, hused⟩ := dropKeyRecord_pool c p
    rw [if_pos ⟨hoff, Nat.pos_of_ne_zero hn⟩]
    refine ⟨h.compact hp hn hused hpool (dropKeyRecord_offset c p) (dropKeyRecord_len c p), ?_, ?_⟩
    · rw [keyPoolCompact_len, dropKeyRecord_len, if_pos rfl]
    · rw [(keyPoolCompact_pool hn hoff (hused ▸ h.fit)).1, hused]

theorem MetadataPoolInv.keysRelease {n : ℕ} {c : DfcCredential} (h : MetadataPoolInv n c)
    {p : Option ℕ} (hp : p ∈ keyOwners n) : MetadataPoolInv n (dfcCredentialKeysRelease c p) := by
  have hd := h.dropKeyRecord hp
  rw [dfcCredentialKeysRelease]
  split_ifs
  · obtain ⟨apps, pool, used, picc, hf⟩ := keyPoolCompact_frame (dfcCredentialDropKeyRecord c p)
      (keyOffsetOf c p) (keyPoolLenOf c p)
    refine hd.frame (by rw [hf]) (fun j => (keyPoolCompact_apps _ _ _ j).2) (fun j => ?_)
    exact keySetMetadataLen_of_unplaced (keyPoolCompact_apps _ _ _ j).1
  · exact hd

/-- What the release of the keys of `p` leaves of the record of application `j`. -/
theorem keysRelease_apps (c : DfcCredential) (p : Option ℕ) (j : ℕ) :
    ((dfcCredentialKeysRelease c p).apps j).unplaced =
      (if p = some j then (c.apps j).dropKeys.dropMetadata else c.apps j).unplaced := by
  have hdrop : ((dfcCredentialDropKeyRecord c p).apps j).unplaced =
      (if p = some j then (c.apps j).dropKeys.dropMetadata else c.apps j).unplaced := by
    cases p with
    | none => rfl
    | some i =>
      rw [dropKeyRecord_some, (metadataRelease_apps _ i j).1, modifyApp_apps]
      by_cases hij : i = j
      · simp [hij]
      · simp [hij, Ne.symm hij]
  rw [dfcCredentialKeysRelease]
  by_cases h : keyOffsetOf c p ≠ dfcKeyPoolNone ∧ 0 < keyPoolLenOf c p
  · rw [if_pos h]
    exact (keyPoolCompact_apps _ _ _ j).1.trans hdrop
  · rw [if_neg h]
    exact hdrop

/-- Releasing keys touches the application records, the PICC key fields and the two key
pools only. -/
theorem keysRelease_frame (c : DfcCredential) (p : Option ℕ) :
    ∃ apps keyPool keyUsed metaPool metaUsed o l k n, dfcCredentialKeysRelease c p =
      { c with
        apps := apps, keyPool := keyPool, keyPoolUsed := keyUsed
        keySetMetadataPool := metaPool, keySetMetadataPoolUsed := metaUsed
        piccKeyOffset := o, piccKeyPoolLen := l, piccKeyLen := k, piccNumKeys := n } := by
  have hdrop : ∃ apps metaPool metaUsed o l k n, dfcCredentialDropKeyRecord c p =
      { c with
        apps := apps
        keySetMetadataPool := metaPool, keySetMetadataPoolUsed := metaUsed
        piccKeyOffset := o, piccKeyPoolLen := l, piccKeyLen := k, piccNumKeys := n } := by
    cases p with
    | none => exact ⟨_, _, _, _, _, _, _, rfl⟩
    | some i =>
      obtain ⟨apps, pool, used, h⟩ :=
        metadataRelease_frame (c.modifyApp i DfcApplication.dropKeys) i
      rw [dropKeyRecord_some, h]
      exact ⟨_, _, _, _, _, _, _, rfl⟩
  obtain ⟨apps, metaPool, metaUsed, o, l, k, n, hd⟩ := hdrop
  rw [dfcCredentialKeysRelease, hd]
  by_cases h : keyOffsetOf c p ≠ dfcKeyPoolNone ∧ 0 < keyPoolLenOf c p
  · rw [if_pos h]
    obtain ⟨apps', pool', used', picc', hc⟩ := keyPoolCompact_frame
      { c with
        apps := apps
        keySetMetadataPool := metaPool, keySetMetadataPoolUsed := metaUsed
        piccKeyOffset := o, piccKeyPoolLen := l, piccKeyLen := k, piccNumKeys := n }
      (keyOffsetOf c p) (keyPoolLenOf c p)
    rw [hc]
    exact ⟨_, _, _, _, _, _, _, _, _, rfl⟩
  · rw [if_neg h]
    exact ⟨_, _, _, _, _, _, _, _, _, rfl⟩

theorem PoolCore.keysRelease {n : ℕ} {c : DfcCredential} (h : PoolCore z n c) {p : Option ℕ}
    (hp : p ∈ keyOwners n) : PoolCore z n (dfcCredentialKeysRelease c p) where
  keys := (h.keys.release hp).1
  metadata := h.metadata.keysRelease hp
  files := by
    obtain ⟨_, _, _, _, _, _, _, _, _, hf⟩ := keysRelease_frame c p
    rw [hf]
    exact h.files.frame rfl rfl (fun _ _ _ => rfl) (fun _ => rfl) (fun _ => rfl)

theorem PoolInv.keysRelease {n : ℕ} {c : DfcCredential} (h : PoolInv z n c) {p : Option ℕ}
    (hp : p ∈ keyOwners n) : PoolInv z n (dfcCredentialKeysRelease c p) where
  toPoolCore := h.toPoolCore.keysRelease hp
  blocks := by
    apply h.blocks.of_unplaced
    intro j
    have hu := keysRelease_apps c p j
    by_cases hp : p = some j
    · rw [if_pos hp] at hu
      exact Or.inr (keySetMetadataLen_of_unplaced hu)
    · rw [if_neg hp] at hu
      exact Or.inl hu

theorem keyOffsetOf_setKeyCounts (c : DfcCredential) (p : Option ℕ) (a b d : ℕ) (q : Option ℕ) :
    keyOffsetOf (setKeyCounts c p a b d) q = keyOffsetOf c q := by
  cases p with
  | none => cases q <;> rfl
  | some i =>
    cases q with
    | none => rfl
    | some j =>
      simp only [setKeyCounts, setKeyStorageLen, setKeyLen, setNumKeys, modifyApp_modifyApp,
        keyOffsetOf, modifyApp_apps]
      split_ifs with hj
      · rw [hj]
      · rfl

theorem keyPoolLenOf_setKeyCounts (c : DfcCredential) (p : Option ℕ) (a b d : ℕ) (q : Option ℕ) :
    keyPoolLenOf (setKeyCounts c p a b d) q = keyPoolLenOf c q := by
  cases p with
  | none => cases q <;> rfl
  | some i =>
    cases q with
    | none => rfl
    | some j =>
      simp only [setKeyCounts, setKeyStorageLen, setKeyLen, setNumKeys, modifyApp_modifyApp,
        keyPoolLenOf, modifyApp_apps]
      split_ifs with hj
      · rw [hj]
      · rfl

/-- The record of application `j` after the counts of `p` were recorded. -/
theorem setKeyCounts_apps (c : DfcCredential) (p : Option ℕ) (a b d j : ℕ) :
    (setKeyCounts c p a b d).apps j =
      if p = some j then { c.apps j with numKeys := u8 a, keyLen := u8 b, keyStorageLen := u8 d }
      else c.apps j := by
  cases p with
  | none => rfl
  | some i =>
    simp only [setKeyCounts, setKeyStorageLen, setKeyLen, setNumKeys, modifyApp_modifyApp,
      modifyApp_apps, Option.some.injEq]
    by_cases hj : j = i
    · rw [if_pos hj, if_pos hj.symm, hj]
    · rw [if_neg hj, if_neg (Ne.symm hj)]

theorem PoolCore.setKeyCounts {n : ℕ} {c : DfcCredential} (h : PoolCore z n c) (p : Option ℕ)
    (a b d : ℕ) : PoolCore z n (setKeyCounts c p a b d) where
  keys := by
    refine h.keys.frame ?_ (fun _ _ _ => ?_) (keyOffsetOf_setKeyCounts c p a b d)
      (keyPoolLenOf_setKeyCounts c p a b d)
    · cases p <;> rfl
    · cases p <;> rfl
  metadata := by
    refine h.metadata.frame (by cases p <;> rfl) (fun j => ?_) (fun j => ?_)
    all_goals
      rw [setKeyCounts_apps]
      split_ifs <;> rfl
  files := by
    cases p
    all_goals exact h.files.frame rfl rfl (fun _ _ _ => rfl) (fun _ => rfl) (fun _ => rfl)

/-- The record of application `j` after `p` was given a slice. -/
theorem cutKeySlice_apps (c : DfcCredential) (p : Option ℕ) (want j : ℕ) :
    (dfcCredentialCutKeySlice c p want).apps j =
      if p = some j then { c.apps j with keyOffset := u16 c.keyPoolUsed, keyPoolLen := u16 want }
      else c.apps j := by
  cases p with
  | none => rfl
  | some i =>
    simp only [dfcCredentialCutKeySlice, setKeyOffset, setKeyPoolLen, modifyApp_modifyApp,
      modifyApp_apps, Option.some.injEq]
    by_cases hj : j = i
    · rw [if_pos hj, if_pos hj.symm, hj]
    · rw [if_neg hj, if_neg (Ne.symm hj)]

theorem cutKeySlice_offset (c : DfcCredential) (p : Option ℕ) (want : ℕ) (q : Option ℕ) :
    keyOffsetOf (dfcCredentialCutKeySlice c p want) q =
      if q = p then u16 c.keyPoolUsed else keyOffsetOf c q := by
  cases q with
  | none => cases p <;> rfl
  | some j =>
    simp only [keyOffsetOf, cutKeySlice_apps]
    by_cases hj : p = some j
    · rw [if_pos hj, if_pos hj.symm]
    · rw [if_neg hj, if_neg (Ne.symm hj)]

theorem cutKeySlice_len (c : DfcCredential) (p : Option ℕ) (want : ℕ) (q : Option ℕ) :
    keyPoolLenOf (dfcCredentialCutKeySlice c p want) q =
      if q = p then u16 want else keyPoolLenOf c q := by
  cases q with
  | none => cases p <;> rfl
  | some j =>
    simp only [keyPoolLenOf, cutKeySlice_apps]
    by_cases hj : p = some j
    · rw [if_pos hj, if_pos hj.symm]
    · rw [if_neg hj, if_neg (Ne.symm hj)]

theorem cutKeySlice_pool (c : DfcCredential) (p : Option ℕ) (want : ℕ) :
    (dfcCredentialCutKeySlice c p want).keyPool = c.keyPool.fill c.keyPoolUsed want 0 ∧
      (dfcCredentialCutKeySlice c p want).keyPoolUsed = u16 (c.keyPoolUsed + want) := by
  cases p <;> exact ⟨rfl, rfl⟩

theorem PoolCore.cutKeySlice {n : ℕ} {c : DfcCredential} (h : PoolCore z n c) {p : Option ℕ}
    (hp : p ∈ keyOwners n) (want : ℕ) (h0 : keyPoolLenOf c p = 0) (hw : want ≠ 0)
    (hfit : c.keyPoolUsed + want ≤ dfcKeyPoolSize) :
    PoolCore z n (dfcCredentialCutKeySlice c p want) := by
  obtain ⟨hpool, hused⟩ := cutKeySlice_pool c p want
  have hlen := cutKeySlice_len c p want
  have hoff := cutKeySlice_offset c p want
  simp only [dfcKeyPoolSize] at hfit
  rw [u16_of_lt (by omega)] at hused
  refine ⟨⟨?_, ?_, ?_, ?_⟩, ?_, ?_⟩
  · rw [hused]
    refine h.keys.packed.append hp h0 ?_ ?_ ?_ ?_
    · rw [hlen, if_pos rfl]
      exact u16_of_lt (by omega)
    · rw [hoff, if_pos rfl]
      exact u16_of_lt (by omega)
    · intro q _ hq
      rw [hlen, if_neg hq]
    · intro q _ hq _
      rw [hoff, if_neg hq]
  · rw [hused]
    exact hfit
  · intro hz i hi hs
    rw [hused] at hi
    rw [hpool, Mem.fill_apply_of_out (by omega)]
    exact h.keys.zero hz i (by omega) hs
  · intro q hm hq
    rw [hlen] at hq
    rw [hoff]
    split_ifs at hq ⊢ with hqp
    · rw [u16_of_lt (by omega)] at hq
      exact absurd hq hw
    · exact h.keys.sentinel q hm hq
  · refine h.metadata.frame (by cases p <;> rfl) (fun j => ?_) (fun j => ?_)
    all_goals
      rw [cutKeySlice_apps]
      split_ifs <;> rfl
  · cases p
    all_goals exact h.files.frame rfl rfl (fun _ _ _ => rfl) (fun _ => rfl) (fun _ => rfl)

theorem KeyPoolInv.resolve {n : ℕ} {c : DfcCredential} (h : KeyPoolInv z n c) {p : Option ℕ}
    (hp : p ∈ keyOwners n) :
    dfcPoolSliceResolve (keyOffsetOf c p) (keyPoolLenOf c p) c.keyPoolUsed dfcKeyPoolNone =
      some (keyOffsetOf c p) :=
  dfcPoolSliceResolve_eq (h.sentinel p hp) (h.slice hp)

theorem KeyPoolInv.offset_eq_none {n : ℕ} {c : DfcCredential} (h : KeyPoolInv z n c) {p : Option ℕ}
    (hp : p ∈ keyOwners n) :
    keyOffsetOf c p = dfcKeyPoolNone ↔ keyPoolLenOf c p = 0 := by
  constructor
  · intro ho
    by_contra hn
    exact (h.slice hp hn).2 ho
  · exact h.sentinel p hp

/-- Everything `dfc_credential_keys_resize_total` can do when the pool is in order: refuse,
keep a slice that already has the length, or release it and cut a new one. -/
theorem keysResizeTotal_cases {n : ℕ} {c : DfcCredential} (h : KeyPoolInv z n c) {p : Option ℕ}
    (hp : p ∈ keyOwners n) (numKeys allocatedKeys keyLen storageKeyLen : ℕ) :
    dfcCredentialKeysResizeTotal c p numKeys allocatedKeys keyLen storageKeyLen = (c, false) ∨
    numKeys ≤ dfcMaxKeys ∧ numKeys ≤ allocatedKeys ∧ keyLen ≤ dfcMaxKeyLen ∧
      storageKeyLen ≤ dfcMaxKeyLen ∧
      (dfcCredentialKeysResizeTotal c p numKeys allocatedKeys keyLen storageKeyLen =
          (setKeyCounts c p numKeys keyLen storageKeyLen, true) ∧
        keyPoolLenOf c p = allocatedKeys * dfcCredentialStoredKeyLength storageKeyLen ∧
        allocatedKeys ≠ 0 ∨
      dfcCredentialKeysResizeTotal c p numKeys allocatedKeys keyLen storageKeyLen =
          (setKeyLen (setNumKeys (dfcCredentialKeysRelease c p) p (u8 numKeys)) p (u8 keyLen),
            true) ∧ allocatedKeys = 0 ∨
      dfcCredentialKeysResizeTotal c p numKeys allocatedKeys keyLen storageKeyLen =
          (setKeyCounts (dfcCredentialCutKeySlice (dfcCredentialKeysRelease c p) p
            (allocatedKeys * dfcCredentialStoredKeyLength storageKeyLen)) p numKeys keyLen
            storageKeyLen, true) ∧ allocatedKeys ≠ 0 ∧
        c.keyPoolUsed - keyPoolLenOf c p +
          allocatedKeys * dfcCredentialStoredKeyLength storageKeyLen ≤ dfcKeyPoolSize) := by
  have hstride := storedKeyLength_pos storageKeyLen
  rw [dfcCredentialKeysResizeTotal]
  by_cases h₁ : dfcMaxKeys < numKeys
  · simp only [h₁, if_true, true_or]
  by_cases h₂ : dfcMaxKeyLen < keyLen ∨ dfcMaxKeyLen < storageKeyLen
  · simp only [h₁, h₂, if_true, if_false, true_or]
  by_cases h₃ : allocatedKeys < numKeys
  · simp only [h₁, h₂, h₃, if_true, if_false, true_or]
  simp only [h₁, h₂, h₃, if_false, h.resolve hp]
  by_cases h₄ : dfcKeyPoolSize / dfcCredentialStoredKeyLength storageKeyLen < allocatedKeys
  · simp only [h₄, if_true, true_or]
  by_cases h₅ : dfcKeyPoolSize < allocatedKeys * dfcCredentialStoredKeyLength storageKeyLen
  · simp only [h₄, h₅, if_true, if_false, true_or]
  by_cases h₆ : dfcKeyPoolSize < c.keyPoolUsed
  · simp only [h₄, h₅, h₆, if_true, if_false, true_or]
  simp only [h₄, h₅, h₆, if_false]
  have hw : 0 < allocatedKeys * dfcCredentialStoredKeyLength storageKeyLen ↔ allocatedKeys ≠ 0 := by
    rw [Nat.mul_pos_iff_of_pos_right hstride, Nat.pos_iff_ne_zero]
  by_cases h₇ : keyOffsetOf c p ≠ dfcKeyPoolNone ∧
      keyPoolLenOf c p = allocatedKeys * dfcCredentialStoredKeyLength storageKeyLen ∧
      0 < allocatedKeys * dfcCredentialStoredKeyLength storageKeyLen
  · rw [if_pos h₇]
    exact Or.inr ⟨by omega, by omega, by omega, by omega, Or.inl ⟨rfl, h₇.2.1, hw.mp h₇.2.2⟩⟩
  rw [if_neg h₇]
  by_cases h₈ : keyOffsetOf c p ≠ dfcKeyPoolNone ∧ c.keyPoolUsed < keyPoolLenOf c p
  · rw [if_pos h₈]
    exact Or.inl rfl
  rw [if_neg h₈]
  have hold : (if keyOffsetOf c p ≠ dfcKeyPoolNone then c.keyPoolUsed - keyPoolLenOf c p
      else c.keyPoolUsed) = c.keyPoolUsed - keyPoolLenOf c p := by
    split_ifs with ho
    · rfl
    · rw [(h.offset_eq_none hp).mp (not_not.mp ho), Nat.sub_zero]
  rw [hold]
  by_cases h₉ : dfcKeyPoolSize - (c.keyPoolUsed - keyPoolLenOf c p) <
      allocatedKeys * dfcCredentialStoredKeyLength storageKeyLen
  · rw [if_pos h₉]
    exact Or.inl rfl
  rw [if_neg h₉]
  refine Or.inr ⟨by omega, by omega, by omega, by omega, Or.inr ?_⟩
  by_cases h0 : allocatedKeys * dfcCredentialStoredKeyLength storageKeyLen = 0
  · rw [if_pos h0]
    refine Or.inl ⟨rfl, ?_⟩
    by_contra hne
    have := hw.mpr hne
    omega
  · rw [if_neg h0]
    exact Or.inr ⟨rfl, hw.mp (by omega), by omega⟩

/-- What a resize of the key slice of `p` guarantees, whatever it answers. -/
structure KeysResized (z : Prop) (n : ℕ) (c : DfcCredential) (p : Option ℕ) (numKeys allocatedKeys
    storageKeyLen : ℕ) (c' : DfcCredential) : Prop where
  core : PoolCore z n c'
  others : ∀ j, p ≠ some j → (c'.apps j).unplaced = (c.apps j).unplaced
  len : keyPoolLenOf c' p = allocatedKeys * dfcCredentialStoredKeyLength storageKeyLen
  counts : ∀ i, p = some i → (c'.apps i).numKeys = numKeys ∧
    (allocatedKeys ≠ 0 → (c'.apps i).keyStorageLen = storageKeyLen)

theorem PoolCore.keysResizeTotal {n : ℕ} {c c' : DfcCredential} (h : PoolCore z n c) {p : Option ℕ}
    (hp : p ∈ keyOwners n) {numKeys allocatedKeys keyLen storageKeyLen : ℕ} {ok : Bool}
    (hr : dfcCredentialKeysResizeTotal c p numKeys allocatedKeys keyLen storageKeyLen = (c', ok)) :
    if ok then KeysResized z n c p numKeys allocatedKeys storageKeyLen c' else c' = c := by
  obtain hc | ⟨hk, -, -, hsl, ⟨hc, hlen, hne⟩ | ⟨hc, hz⟩ | ⟨hc, hne, hfit⟩⟩ :=
    keysResizeTotal_cases h.keys hp numKeys allocatedKeys keyLen storageKeyLen
  all_goals
    rw [hc, Prod.mk.injEq] at hr
    obtain ⟨rfl, rfl⟩ := hr
    simp only [if_true, Bool.false_eq_true, if_false]
  · refine ⟨h.setKeyCounts p _ _ _, ?_, by rw [keyPoolLenOf_setKeyCounts, hlen], ?_⟩
    · intro j hj
      rw [setKeyCounts_apps, if_neg hj]
    · rintro i rfl
      rw [setKeyCounts_apps, if_pos rfl]
      simp only [dfcMaxKeys, dfcMaxKeyLen] at hk hsl
      exact ⟨u8_of_lt (by omega), fun _ => u8_of_lt (by omega)⟩
  · -- An empty list keeps no slice, and records the counts only.
    have hrel := h.keysRelease hp
    have hcnt : setKeyLen (setNumKeys (dfcCredentialKeysRelease c p) p (u8 numKeys)) p (u8 keyLen) =
        DfcCore.setKeyCounts (dfcCredentialKeysRelease c p) p numKeys keyLen 0 := by
      cases p with
      | none => rfl
      | some i =>
        have h0 : ((dfcCredentialKeysRelease c (some i)).apps i).keyStorageLen = 0 := by
          have hu := keysRelease_apps c (some i) i
          rw [if_pos rfl] at hu
          exact keyStorageLen_of_unplaced hu
        simp only [DfcCore.setKeyCounts, setKeyStorageLen, setKeyLen, setNumKeys,
          modifyApp_modifyApp]
        apply modifyApp_congr
        rw [show u8 0 = 0 from rfl, ← h0]
    rw [hcnt]
    refine ⟨hrel.setKeyCounts p _ _ _, ?_, ?_, ?_⟩
    · intro j hj
      rw [setKeyCounts_apps, if_neg hj]
      have hu := keysRelease_apps c p j
      rwa [if_neg hj] at hu
    · rw [keyPoolLenOf_setKeyCounts, (h.keys.release hp).2.1, hz, zero_mul]
    · rintro i rfl
      rw [setKeyCounts_apps, if_pos rfl]
      simp only [dfcMaxKeys] at hk
      exact ⟨u8_of_lt (by omega), fun hh => absurd hz hh⟩
  · have hrel := h.keysRelease hp
    obtain ⟨-, h0, hu⟩ := h.keys.release hp
    have hwant : allocatedKeys * dfcCredentialStoredKeyLength storageKeyLen ≠ 0 :=
      Nat.mul_ne_zero hne (Nat.ne_of_gt (storedKeyLength_pos _))
    have hcut := hrel.cutKeySlice hp (allocatedKeys *
      dfcCredentialStoredKeyLength storageKeyLen) h0 hwant (by rw [hu]; exact hfit)
    refine ⟨hcut.setKeyCounts p _ _ _, ?_, ?_, ?_⟩
    · intro j hj
      rw [setKeyCounts_apps, if_neg hj, cutKeySlice_apps, if_neg hj]
      have hu := keysRelease_apps c p j
      rwa [if_neg hj] at hu
    · rw [keyPoolLenOf_setKeyCounts, cutKeySlice_len, if_pos rfl]
      simp only [dfcKeyPoolSize] at hfit
      exact u16_of_lt (by omega)
    · rintro i rfl
      rw [setKeyCounts_apps, if_pos rfl]
      simp only [dfcMaxKeys, dfcMaxKeyLen] at hk hsl
      exact ⟨u8_of_lt (by omega), fun _ => u8_of_lt (by omega)⟩

/-- Changing how many sets a record declares moves no slice. -/
theorem PoolCore.modifyApp {n : ℕ} {c : DfcCredential} (h : PoolCore z n c) (i : ℕ)
    {f : DfcApplication → DfcApplication} (hko : ∀ a, (f a).keyOffset = a.keyOffset)
    (hkl : ∀ a, (f a).keyPoolLen = a.keyPoolLen)
    (hmo : ∀ a, (f a).keySetMetadataOffset = a.keySetMetadataOffset)
    (hml : ∀ a, (f a).keySetMetadataLen = a.keySetMetadataLen) :
    PoolCore z n (c.modifyApp i f) where
  keys := by
    refine h.keys.frame rfl (fun _ _ _ => rfl) (fun q => ?_) (fun q => ?_)
    all_goals
      cases q with
      | none => rfl
      | some j =>
        simp only [keyOffsetOf, keyPoolLenOf, modifyApp_apps]
        split_ifs with hj
        · first | rw [hko, hj] | rw [hkl, hj]
        · rfl
  metadata := by
    refine h.metadata.frame rfl (fun j => ?_) (fun j => ?_)
    all_goals
      rw [modifyApp_apps]
      split_ifs with hj
      · first | rw [hmo, hj] | rw [hml, hj]
      · rfl
  files := h.files.frame rfl rfl (fun _ _ _ => rfl) (fun _ => rfl) (fun _ => rfl)

end DfcCore
