import DfcCore.DerLoadFiles
import DfcCore.KeyPoolInvariant

/-!
# Keys in a vacant record

The decoder reserves keys only for records that hold none, so the slice it fills is cut
at the end of the used part of the pool. The fold over the keys of a list then is one
write.
-/
namespace DfcCore
open Der

/-- An application record that holds no slice of the key pool or of the metadata pool. -/
structure DfcApplication.Vacant (a : DfcApplication) : Prop where
  keyOffset : a.keyOffset = dfcKeyPoolNone
  keyPoolLen : a.keyPoolLen = 0
  keySetMetadataOffset : a.keySetMetadataOffset = dfcKeySetMetadataPoolNone
  keySetMetadataLen : a.keySetMetadataLen = 0
  numKeySets : a.numKeySets = 1
  maxKeySize : a.maxKeySize = 0
  keySetSettings : a.keySetSettings = 0

/-- The record of an owner holds no keys. -/
def Vacant (c : DfcCredential) : Option ℕ → Prop
  | some i => (c.apps i).Vacant
  | none => c.piccKeyOffset = dfcKeyPoolNone ∧ c.piccKeyPoolLen = 0

theorem Vacant.slice {c : DfcCredential} {app : Option ℕ} (h : Vacant c app) :
    keyOffsetOf c app = dfcKeyPoolNone ∧ keyPoolLenOf c app = 0 := by
  cases app with
  | none => exact h
  | some i => exact ⟨h.keyOffset, h.keyPoolLen⟩

/-- The record of an application with `n` keys behind the used part of the pool. -/
def DfcApplication.reserveKeys (a : DfcApplication) (used n keyLen : ℕ) : DfcApplication :=
  { a with
    keyOffset := used, keyPoolLen := n * keyLen, numKeys := n, keyLen := keyLen
    keyStorageLen := keyLen }

/-- A fresh slice for `n` keys. -/
def reserveKeys (c : DfcCredential) (app : Option ℕ) (n keyLen : ℕ) : DfcCredential :=
  let c' := match app with
    | some i => c.modifyApp i fun a => a.reserveKeys c.keyPoolUsed n keyLen
    | none =>
      { c with
        piccKeyOffset := c.keyPoolUsed, piccKeyPoolLen := n * keyLen, piccNumKeys := n
        piccKeyLen := keyLen }
  { c' with
    keyPool := c.keyPool.fill c.keyPoolUsed (n * keyLen) 0
    keyPoolUsed := c.keyPoolUsed + n * keyLen }

/-- The versions of the keys from slot `n` on. -/
def storeKeyVersions (c : DfcCredential) (app : Option ℕ) (n : ℕ) (versions : List UInt8) :
    DfcCredential :=
  match app with
  | some i => c.modifyApp i fun a => { a with keyVersions := a.keyVersions.write n versions }
  | none => { c with piccKeyVersions := c.piccKeyVersions.write n versions }

/-- The octets of the keys from `dst` on and their versions from slot `n` on. -/
def storeKeys (c : DfcCredential) (app : Option ℕ) (dst n : ℕ) (keys : List KeyImage) :
    DfcCredential :=
  storeKeyVersions { c with keyPool := c.keyPool.write dst (keys.flatMap KeyImage.value) } app n
    (keys.map KeyImage.version)

/-- The record of an owner without keys. -/
def noKeys (c : DfcCredential) (app : Option ℕ) : DfcCredential :=
  match app with
  | some i => c.modifyApp i DfcApplication.dropKeys
  | none =>
    { c with
      piccKeyOffset := dfcKeyPoolNone, piccKeyPoolLen := 0, piccNumKeys := 0, piccKeyLen := 0 }

/-- What the decoder makes of a key list. -/
def placeKeys (c : DfcCredential) (app : Option ℕ) (keyLen : ℕ) (keys : List KeyImage) :
    DfcCredential :=
  if keys = [] then noKeys c app
  else storeKeys (reserveKeys c app keys.length keyLen) app c.keyPoolUsed 0 keys

theorem dropMetadata_of_vacant {a : DfcApplication}
    (ho : a.keySetMetadataOffset = dfcKeySetMetadataPoolNone) (hl : a.keySetMetadataLen = 0) :
    a.dropMetadata = a := by
  rw [DfcApplication.dropMetadata, ← ho, ← hl]

theorem modifyApp_id (c : DfcCredential) (i : ℕ) {f : DfcApplication → DfcApplication}
    (h : f (c.apps i) = c.apps i) : c.modifyApp i f = c := by
  rw [DfcCredential.modifyApp, h, Function.update_eq_self]

/-- The release of metadata that is not there. -/
theorem metadataRelease_vacant {c : DfcCredential} {i : ℕ}
    (ho : (c.apps i).keySetMetadataOffset = dfcKeySetMetadataPoolNone)
    (hl : (c.apps i).keySetMetadataLen = 0) : dfcKeySetMetadataRelease c i = c := by
  rw [dfcKeySetMetadataRelease]
  simp only [ho, hl, or_self, if_true]
  exact modifyApp_id c i (dropMetadata_of_vacant ho hl)

theorem keysRelease_vacant {c : DfcCredential} {app : Option ℕ} (h : Vacant c app) :
    dfcCredentialKeysRelease c app = noKeys c app := by
  obtain ⟨ho, hl⟩ := h.slice
  rw [dfcCredentialKeysRelease, if_neg (by simp [ho])]
  cases app with
  | none => rw [dropKeyRecord_none, noKeys]
  | some i =>
    rw [dropKeyRecord_some, metadataRelease_vacant, noKeys]
    · simpa [DfcCredential.modifyApp, DfcApplication.dropKeys] using h.keySetMetadataOffset
    · simpa [DfcCredential.modifyApp, DfcApplication.dropKeys] using h.keySetMetadataLen

theorem resizeTotal_vacant {c c' : DfcCredential} {app : Option ℕ} (h : Vacant c app)
    (hused : c.keyPoolUsed ≤ dfcKeyPoolSize) {n total keyLen : ℕ} (storageLen : ℕ)
    (hn : n ≤ dfcMaxKeys)
    (htotal : n ≤ total) (hpos : 0 < total) (hk : keyLen ≤ dfcMaxKeyLen)
    (hs : storageLen ≤ dfcMaxKeyLen) :
    dfcCredentialKeysResizeTotal c app n total keyLen storageLen = (c', true) ↔
      c.keyPoolUsed + total * dfcCredentialStoredKeyLength storageLen ≤ dfcKeyPoolSize ∧
      c' = setKeyCounts (dfcCredentialCutKeySlice (noKeys c app) app
        (total * dfcCredentialStoredKeyLength storageLen)) app n keyLen storageLen := by
  obtain ⟨ho, hl⟩ := h.slice
  have hstride := storedKeyLength_pos storageLen
  have hwant : total * dfcCredentialStoredKeyLength storageLen ≠ 0 := by positivity
  have hresolve : dfcPoolSliceResolve dfcKeyPoolNone 0 c.keyPoolUsed dfcKeyPoolNone =
      some dfcKeyPoolNone := rfl
  have hdiv : dfcKeyPoolSize / dfcCredentialStoredKeyLength storageLen < total ↔
      dfcKeyPoolSize < total * dfcCredentialStoredKeyLength storageLen :=
    Nat.div_lt_iff_lt_mul hstride
  rw [dfcCredentialKeysResizeTotal, if_neg (by omega), if_neg (by omega), if_neg (by omega)]
  simp only [hdiv, ho, hl, hresolve, ne_eq, not_true_eq_false, false_and, if_false,
    keysRelease_vacant h]
  split_ifs with h₁ h₂ h₃
  · simp only [Prod.mk.injEq, Bool.false_eq_true, and_false, false_iff]
    omega
  · omega
  · simp only [Prod.mk.injEq, Bool.false_eq_true, and_false, false_iff]
    omega
  · simp only [Prod.mk.injEq, and_true]
    exact ⟨fun h => ⟨by omega, h.symm⟩, fun h => h.2.symm⟩

theorem metadataResize_none {c : DfcCredential} {i : ℕ}
    (ho : (c.apps i).keySetMetadataOffset = dfcKeySetMetadataPoolNone)
    (hl : (c.apps i).keySetMetadataLen = 0)
    (hused : c.keySetMetadataPoolUsed ≤ dfcKeySetMetadataPoolSize) :
    dfcKeySetMetadataResize c i 0 = (c, true) := by
  have hcan : dfcKeySetMetadataCanResize c i 0 = true := by
    rw [dfcKeySetMetadataCanResize, if_neg (by omega), ho, hl]
    rfl
  rw [dfcKeySetMetadataResize, hcan, metadataRelease_vacant ho hl]
  rfl

/-- Both pools hold no more than they can. -/
def PoolsBounded (c : DfcCredential) : Prop :=
  c.keyPoolUsed ≤ dfcKeyPoolSize ∧ c.keySetMetadataPoolUsed ≤ dfcKeySetMetadataPoolSize

theorem setKeyCounts_cut {c : DfcCredential} {app : Option ℕ} {n keyLen : ℕ} (hn : n ≤ dfcMaxKeys)
    (hk : keyLen ≤ dfcMaxKeyLen) (hroom : c.keyPoolUsed + n * keyLen ≤ dfcKeyPoolSize) :
    setKeyCounts (dfcCredentialCutKeySlice (noKeys c app) app (n * keyLen)) app n keyLen keyLen =
      reserveKeys c app n keyLen := by
  simp only [dfcMaxKeys, dfcMaxKeyLen, dfcKeyPoolSize] at hn hk hroom
  have h₁ : u8 n = n := u8_of_lt (by omega)
  have h₂ : u8 keyLen = keyLen := u8_of_lt (by omega)
  have h₃ : u16 c.keyPoolUsed = c.keyPoolUsed := u16_of_lt (by omega)
  have h₄ : u16 (n * keyLen) = n * keyLen := u16_of_lt (by omega)
  have h₅ : u16 (c.keyPoolUsed + n * keyLen) = c.keyPoolUsed + n * keyLen := u16_of_lt (by omega)
  cases app with
  | none =>
    simp only [noKeys, dfcCredentialCutKeySlice, setKeyCounts, setKeyOffset, setKeyPoolLen,
      setNumKeys, setKeyLen, setKeyStorageLen, reserveKeys, h₁, h₂, h₃, h₄, h₅]
  | some i =>
    have hu : (noKeys c (some i)).keyPoolUsed = c.keyPoolUsed := rfl
    simp only [dfcCredentialCutKeySlice, hu, h₃, h₄, h₅]
    simp only [noKeys, setKeyCounts, setKeyOffset, setKeyPoolLen, setNumKeys, setKeyLen,
      setKeyStorageLen, reserveKeys, h₁, h₂, DfcCredential.modifyApp, Function.update_self,
      Function.update_idem, DfcApplication.dropKeys, DfcApplication.reserveKeys]

theorem storedKeyLength_eq {keyLen : ℕ} (h : keyLen = 16 ∨ keyLen = 24) :
    dfcCredentialStoredKeyLength keyLen = keyLen := by
  rcases h with rfl | rfl <;> rfl

theorem keysResize_vacant {c c' : DfcCredential} {app : Option ℕ} (h : Vacant c app)
    (hused : PoolsBounded c) {n keyLen : ℕ} (hn : n ≤ dfcMaxKeys) (hpos : 0 < n)
    (hk : keyLen = 16 ∨ keyLen = 24) :
    dfcCredentialKeysResize c app n keyLen = (c', true) ↔
      c.keyPoolUsed + n * keyLen ≤ dfcKeyPoolSize ∧ c' = reserveKeys c app n keyLen := by
  have hle : keyLen ≤ dfcMaxKeyLen := by simp only [dfcMaxKeyLen]; omega
  have htotal (c₁ : DfcCredential) : dfcCredentialKeysResizeTotal c app n n keyLen keyLen =
      (c₁, true) ↔ c.keyPoolUsed + n * keyLen ≤ dfcKeyPoolSize ∧
      c₁ = reserveKeys c app n keyLen := by
    rw [resizeTotal_vacant h hused.1 keyLen hn le_rfl hpos hle hle, storedKeyLength_eq hk]
    constructor
    · rintro ⟨hroom, hc₁⟩
      exact ⟨hroom, by rw [hc₁, setKeyCounts_cut hn hle hroom]⟩
    · rintro ⟨hroom, hc₁⟩
      exact ⟨hroom, by rw [hc₁, setKeyCounts_cut hn hle hroom]⟩
  have hmeta (i : ℕ) (hi : app = some i) :
      dfcKeySetMetadataResize ((reserveKeys c app n keyLen).modifyApp i fun a =>
        { a with numKeySets := 1, maxKeySize := 0, keySetSettings := 0 }) i 0 =
      (reserveKeys c app n keyLen, true) := by
    subst hi
    have hid : ((reserveKeys c (some i) n keyLen).modifyApp i fun a =>
        { a with numKeySets := 1, maxKeySize := 0, keySetSettings := 0 }) =
        reserveKeys c (some i) n keyLen := by
      apply modifyApp_id
      simp [reserveKeys, DfcCredential.modifyApp, DfcApplication.reserveKeys, h.numKeySets,
        h.maxKeySize, h.keySetSettings]
    rw [hid]
    refine metadataResize_none ?_ ?_ hused.2
    · simpa [reserveKeys, DfcCredential.modifyApp, DfcApplication.reserveKeys] using
        h.keySetMetadataOffset
    · simpa [reserveKeys, DfcCredential.modifyApp, DfcApplication.reserveKeys] using
        h.keySetMetadataLen
  rw [dfcCredentialKeysResize]
  cases hr : dfcCredentialKeysResizeTotal c app n n keyLen keyLen with
  | mk c₁ ok =>
    cases ok with
    | false =>
      simp only [Prod.mk.injEq, Bool.false_eq_true, and_false, false_iff, not_and]
      intro hroom hc'
      have := (htotal c').mpr ⟨hroom, hc'⟩
      rw [hr] at this
      simp at this
    | true =>
      obtain ⟨hroom, rfl⟩ := (htotal c₁).mp hr
      cases app with
      | none =>
        simp only [Prod.mk.injEq, and_true, hroom, true_and]
        exact eq_comm
      | some i =>
        dsimp only
        rw [hmeta i rfl]
        simp only [Prod.mk.injEq, and_true, hroom, true_and]
        exact eq_comm

theorem key_storeKeys (c : DfcCredential) (app : Option ℕ) (dst n : ℕ) (keys : List KeyImage)
    (slot : ℕ) : dfcCredentialKey (storeKeys c app dst n keys) app slot =
    dfcCredentialKey c app slot := by
  cases app with
  | none => rfl
  | some i => simp [dfcCredentialKey, storeKeys, storeKeyVersions, DfcCredential.modifyApp,
      dfcCredentialKeyAt]

theorem storeKeys_cons (c : DfcCredential) (app : Option ℕ) (dst n : ℕ) (k : KeyImage)
    (keys : List KeyImage) :
    storeKeys (storeKeys c app dst n [k]) app (dst + k.value.length) (n + 1) keys =
      storeKeys c app dst n (k :: keys) := by
  have hpool := Mem.write_append c.keyPool dst k.value (keys.flatMap KeyImage.value)
  cases app with
  | none =>
    have hver := Mem.write_append c.piccKeyVersions n [k.version] (keys.map KeyImage.version)
    simp only [List.length_singleton, List.singleton_append] at hver
    simp only [storeKeys, storeKeyVersions, List.flatMap_cons, List.flatMap_nil, List.append_nil,
      List.map_cons, List.map_nil, hpool, hver]
  | some i =>
    have hver := Mem.write_append (c.apps i).keyVersions n [k.version] (keys.map KeyImage.version)
    simp only [List.length_singleton, List.singleton_append] at hver
    simp only [storeKeys, storeKeyVersions, List.flatMap_cons, List.flatMap_nil, List.append_nil,
      List.map_cons, List.map_nil, hpool, DfcCredential.modifyApp, Function.update_self,
      Function.update_idem, hver]

theorem storeKeys_nil (c : DfcCredential) (app : Option ℕ) (dst n : ℕ) :
    storeKeys c app dst n [] = c := by
  cases app with
  | none => simp [storeKeys, storeKeyVersions]
  | some i => simp [storeKeys, storeKeyVersions, DfcCredential.modifyApp]

theorem loadKey_eq {c : DfcCredential} {app : Option ℕ} {n dst : ℕ} {k : KeyImage}
    (h : dfcCredentialKey c app n = some dst) :
    loadKey app (c, n) k = (storeKeys c app dst n [k], n + 1) := by
  simp only [loadKey, h, Option.getD_some, storeKeys, List.flatMap_cons, List.flatMap_nil,
    List.append_nil, List.map_cons, List.map_nil]
  cases app <;> rfl

/-- The turns of the key loop together are one store. -/
theorem foldl_loadKey {app : Option ℕ} {off stride : ℕ} {keys : List KeyImage} {c : DfcCredential}
    {n : ℕ} (hl : ∀ k ∈ keys, k.value.length = stride)
    (hkey : ∀ slot < n + keys.length, dfcCredentialKey c app slot = some (off + slot * stride)) :
    keys.foldl (loadKey app) (c, n) =
    (storeKeys c app (off + n * stride) n keys, n + keys.length) := by
  induction keys generalizing c n with
  | nil => rw [List.foldl_nil, storeKeys_nil, List.length_nil, Nat.add_zero]
  | cons k keys ih =>
    rw [List.forall_mem_cons] at hl
    rw [List.length_cons] at hkey
    have hdst : off + (n + 1) * stride = off + n * stride + k.value.length := by
      rw [hl.1, Nat.succ_mul, Nat.add_assoc]
    rw [List.foldl_cons, loadKey_eq (hkey n (by omega)), ih hl.2, hdst, storeKeys_cons,
      List.length_cons]
    · congr 1
      omega
    · intro slot hslot
      rw [key_storeKeys]
      exact hkey slot (by omega)

theorem allFrom_keyLoadable {app : Option ℕ} {off stride keyLen : ℕ} {keys : List KeyImage}
    {c : DfcCredential} {n : ℕ} (hmax : n + keys.length ≤ dfcMaxKeys)
    (hkey : ∀ slot < n + keys.length, dfcCredentialKey c app slot = some (off + slot * stride)) :
    AllFrom (KeyLoadable app keyLen) (loadKey app) (c, n) keys ↔
      ∀ k ∈ keys, k.value.length = keyLen := by
  induction keys generalizing c n with
  | nil => simp [AllFrom]
  | cons k keys ih =>
    rw [List.length_cons] at hmax hkey
    have hn := hkey n (by omega)
    rw [AllFrom, loadKey_eq hn, ih (by omega) (fun slot hslot => by
      rw [key_storeKeys]; exact hkey slot (by omega)), List.forall_mem_cons]
    refine and_congr_left fun _ => ⟨fun h => h.length, fun h => ⟨?_, h, by simp [hn]⟩⟩
    dsimp only
    omega

theorem key_reserveKeys {c : DfcCredential} {app : Option ℕ} {n keyLen slot : ℕ}
    (hk : keyLen = 16 ∨ keyLen = 24) (hroom : c.keyPoolUsed + n * keyLen ≤ dfcKeyPoolSize)
    (hslot : slot < n) :
    dfcCredentialKey (reserveKeys c app n keyLen) app slot =
    some (c.keyPoolUsed + slot * keyLen) := by
  simp only [dfcKeyPoolSize] at hroom
  have hpos : 0 < n * keyLen := by
    have : 0 < n := by omega
    have : 0 < keyLen := by omega
    positivity
  have hmul : (slot + 1) * keyLen ≤ n * keyLen := Nat.mul_le_mul_right _ hslot
  have hat : dfcCredentialKeyAt (reserveKeys c app n keyLen) c.keyPoolUsed (n * keyLen) n keyLen
      slot = some (c.keyPoolUsed + slot * keyLen) := by
    simp only [dfcCredentialKeyAt, storedKeyLength_eq hk, dfcKeyPoolNone]
    rw [if_neg (by omega), if_neg (by omega), if_neg (by omega), if_neg (by simp [reserveKeys])]
  cases app with
  | none => exact hat
  | some i =>
    rw [dfcCredentialKey]
    simpa [reserveKeys, DfcCredential.modifyApp, DfcApplication.reserveKeys] using hat

/-- The key lists that can be loaded into a vacant record. -/
structure KeysLoadable (c : DfcCredential) (keyLen : ℕ) (keys : List KeyImage) : Prop where
  count : keys.length ≤ dfcMaxKeys
  room : c.keyPoolUsed + keys.length * keyLen ≤ dfcKeyPoolSize
  length : ∀ k ∈ keys, k.value.length = keyLen

/-- The decode of a key list into a record from which a slice is cut as from the vacant
record of `c₀`. -/
theorem decodeKeys_placed {c c₀ c' : DfcCredential} {app : Option ℕ} {body : Slice} {keyLen : ℕ}
    (hb : body.length ≤ 0xFFFF) (hused : c₀.keyPoolUsed ≤ dfcKeyPoolSize)
    (hk : keyLen = 16 ∨ keyLen = 24) (hrelease : dfcCredentialKeysRelease c app = noKeys c₀ app)
    (hresize : ∀ n c₁, 0 < n → n ≤ dfcMaxKeys →
      (dfcCredentialKeysResize c app n keyLen = (c₁, true) ↔
        c₀.keyPoolUsed + n * keyLen ≤ dfcKeyPoolSize ∧ c₁ = reserveKeys c₀ app n keyLen)) :
    decodeKeys c app body keyLen dfcMaxKeys = .ok c' ↔
      ∃ keys : List KeyImage, body = encKeys keys ∧ KeysLoadable c₀ keyLen keys ∧
        c' = placeKeys c₀ app keyLen keys := by
  have hstep (keys : List KeyImage) (hmax : keys.length ≤ dfcMaxKeys) (hne : keys ≠ []) :
      (∃ c₁, dfcCredentialKeysResize c app keys.length keyLen = (c₁, true) ∧
        AllFrom (KeyLoadable app keyLen) (loadKey app) (c₁, 0) keys ∧
        c' = (keys.foldl (loadKey app) (c₁, 0)).1) ↔
      KeysLoadable c₀ keyLen keys ∧ c' = placeKeys c₀ app keyLen keys := by
    have hpos : 0 < keys.length := List.length_pos_of_ne_nil hne
    have hkey (hroom : c₀.keyPoolUsed + keys.length * keyLen ≤ dfcKeyPoolSize) :
        ∀ slot < 0 + keys.length,
        dfcCredentialKey (reserveKeys c₀ app keys.length keyLen) app slot =
          some (c₀.keyPoolUsed + slot * keyLen) :=
      fun slot hslot => key_reserveKeys hk hroom (by omega)
    simp only [hresize _ _ hpos hmax]
    rw [placeKeys, if_neg hne]
    constructor
    · rintro ⟨c₁, ⟨hroom, rfl⟩, hall, rfl⟩
      have hl := (allFrom_keyLoadable (by omega) (hkey hroom)).mp hall
      refine ⟨⟨hmax, hroom, hl⟩, ?_⟩
      rw [foldl_loadKey hl (hkey hroom), Nat.zero_mul, Nat.add_zero]
    · rintro ⟨hload, rfl⟩
      refine ⟨_, ⟨hload.room, rfl⟩,
        (allFrom_keyLoadable (by omega) (hkey hload.room)).mpr hload.length, ?_⟩
      rw [foldl_loadKey hload.length (hkey hload.room), Nat.zero_mul, Nat.add_zero]
  rw [decodeKeys_eq_ok hb]
  refine exists_congr fun keys => and_congr_right fun _ => ?_
  split_ifs with hnil
  · subst hnil
    rw [hrelease, placeKeys, if_pos rfl]
    exact ⟨fun ⟨_, hc'⟩ => ⟨⟨by simp, by simpa using hused, by simp⟩, hc'⟩,
      fun ⟨_, hc'⟩ => ⟨by simp, hc'⟩⟩
  · constructor
    · rintro ⟨hmax, hex⟩
      exact (hstep keys hmax hnil).mp hex
    · rintro ⟨hload, hc'⟩
      exact ⟨hload.count, (hstep keys hload.count hnil).mpr ⟨hload, hc'⟩⟩

theorem decodeKeys_vacant {c c' : DfcCredential} {app : Option ℕ} {body : Slice} {keyLen : ℕ}
    (hb : body.length ≤ 0xFFFF) (h : Vacant c app) (hused : PoolsBounded c)
    (hk : keyLen = 16 ∨ keyLen = 24) :
    decodeKeys c app body keyLen dfcMaxKeys = .ok c' ↔
      ∃ keys : List KeyImage, body = encKeys keys ∧ KeysLoadable c keyLen keys ∧
        c' = placeKeys c app keyLen keys :=
  decodeKeys_placed hb hused.1 hk (keysRelease_vacant h) fun _ _ hpos hn =>
    keysResize_vacant h hused hn hpos hk

/-- The PICC record holds the master key a cleared credential is seeded with. -/
structure Seeded (c : DfcCredential) : Prop where
  keyOffset : c.piccKeyOffset = 0
  keyPoolLen : c.piccKeyPoolLen = 16
  used : c.keyPoolUsed = 16
  pool : c.keyPool = Mem.zero
  apps : ∀ j, (c.apps j).keyOffset = dfcKeyPoolNone

/-- The credential without the seeded key. -/
def unseeded (c : DfcCredential) : DfcCredential :=
  { c with
    piccKeyOffset := dfcKeyPoolNone, piccKeyPoolLen := 0, piccNumKeys := 0, piccKeyLen := 0
    keyPoolUsed := 0 }

theorem fill_zero (off n : ℕ) : Mem.zero.fill off n 0 = Mem.zero := by
  funext a
  simp [Mem.fill, Mem.zero]

theorem keysRelease_seeded {c : DfcCredential} (h : Seeded c) :
    dfcCredentialKeysRelease c none = unseeded c := by
  have hoff : keyOffsetOf c none = 0 := h.keyOffset
  have hlen : keyPoolLenOf c none = 16 := h.keyPoolLen
  have happs : (fun j => { c.apps j with
      keyOffset := poolOffsetAfterRelease 0 16 dfcKeyPoolNone (c.apps j).keyOffset }) = c.apps := by
    funext j
    have hj : poolOffsetAfterRelease 0 16 dfcKeyPoolNone (c.apps j).keyOffset =
        (c.apps j).keyOffset := by
      rw [h.apps j]
      rfl
    rw [hj]
  rw [dfcCredentialKeysRelease, hoff, hlen, if_pos (by decide), dropKeyRecord_none,
    dfcKeyPoolCompactAfterRelease, if_neg (by decide)]
  have hnone : poolOffsetAfterRelease 0 16 dfcKeyPoolNone dfcKeyPoolNone = dfcKeyPoolNone := rfl
  have hzero : u16 0 = 0 := rfl
  simp only [h.used, h.pool, happs, hnone, hzero, Nat.zero_add, Nat.sub_self, lt_irrefl, if_false,
    fill_zero, unseeded]

theorem keysResize_seeded {c : DfcCredential} (h : Seeded c) {n keyLen : ℕ} (hn : n ≤ dfcMaxKeys)
    (hpos : 0 < n) (hk : keyLen = 16 ∨ keyLen = 24) :
    dfcCredentialKeysResize c none n keyLen = (reserveKeys (unseeded c) none n keyLen, true) := by
  have hoff : keyOffsetOf c none = 0 := h.keyOffset
  have hlen : keyPoolLenOf c none = 16 := h.keyPoolLen
  have hstride := storedKeyLength_eq hk
  simp only [dfcMaxKeys] at hn
  have hwant : 0 < n * keyLen := by
    have : 0 < keyLen := by omega
    positivity
  have hmax : n * keyLen ≤ 14 * 24 := Nat.mul_le_mul hn (by omega)
  have hdiv : ¬dfcKeyPoolSize / keyLen < n := by
    rw [Nat.div_lt_iff_lt_mul (by omega)]
    simp only [dfcKeyPoolSize]
    omega
  have hresolve : dfcPoolSliceResolve 0 16 16 dfcKeyPoolNone = some 0 := rfl
  have htotal : dfcCredentialKeysResizeTotal c none n n keyLen keyLen =
      (reserveKeys (unseeded c) none n keyLen, true) := by
    rw [dfcCredentialKeysResizeTotal]
    simp only [dfcMaxKeys, dfcMaxKeyLen, hoff, hlen, hstride, h.used, hresolve, hdiv, if_false]
    rw [if_neg (by omega), if_neg (by omega), if_neg (by omega),
      if_neg (by simp only [dfcKeyPoolSize]; omega), if_neg (by decide)]
    by_cases hsame : 16 = n * keyLen
    · have hn1 : n = 1 := by
        rcases hk with rfl | rfl <;> omega
      have hk16 : keyLen = 16 := by
        rcases hk with rfl | rfl <;> omega
      rw [if_pos ⟨by decide, hsame, hwant⟩, hn1, hk16]
      simp only [setKeyCounts, setKeyStorageLen, setKeyLen, setNumKeys, reserveKeys, unseeded,
        h.pool, fill_zero, Prod.mk.injEq, and_true]
      have hu := h.used
      have ho := h.keyOffset
      have hl := h.keyPoolLen
      have hp := h.pool
      cases c
      simp only at hu ho hl hp ⊢
      subst hu ho hl hp
      rfl
    · have hold : (if (0 : ℕ) ≠ dfcKeyPoolNone then 16 - 16 else 16) = 0 := rfl
      rw [if_neg (by omega), if_neg (by omega), hold,
        if_neg (by simp only [dfcKeyPoolSize]; omega), if_neg (by omega), keysRelease_seeded h]
      have hno : noKeys (unseeded c) none = unseeded c := rfl
      rw [← setKeyCounts_cut (by simpa using hn) (by simp only [dfcMaxKeyLen]; omega)
        (show (unseeded c).keyPoolUsed + n * keyLen ≤ dfcKeyPoolSize by
          simp only [unseeded, dfcKeyPoolSize]; omega), hno]
  rw [dfcCredentialKeysResize, htotal]

/-- The seeded key does not show in what the decoder makes of a key list. -/
theorem decodeKeys_seeded {c c' : DfcCredential} {body : Slice} {keyLen : ℕ}
    (hb : body.length ≤ 0xFFFF) (h : Seeded c) (hk : keyLen = 16 ∨ keyLen = 24) :
    decodeKeys c none body keyLen dfcMaxKeys = .ok c' ↔
      ∃ keys : List KeyImage, body = encKeys keys ∧ KeysLoadable (unseeded c) keyLen keys ∧
        c' = placeKeys (unseeded c) none keyLen keys := by
  refine decodeKeys_placed hb (by simp [unseeded]) hk (keysRelease_seeded h) fun n c₁ hpos hn => ?_
  rw [keysResize_seeded h hn hpos hk]
  have hroom : (unseeded c).keyPoolUsed + n * keyLen ≤ dfcKeyPoolSize := by
    have hmax : n * keyLen ≤ 14 * 24 := Nat.mul_le_mul hn (by omega)
    simp only [unseeded, dfcKeyPoolSize]
    omega
  simp only [Prod.mk.injEq, and_true, hroom, true_and]
  exact eq_comm

end DfcCore
