import DfcCore.DerLoad

/-!
# Decoding keys

A decode of a key list or of key sets succeeds on exactly the encodings of the keys that
fit, and stores them one by one.
-/
namespace DfcCore
open Der

theorem countItems_eq_ok {body : Slice} {n : ℕ} :
    countItems body = .ok n ↔ ∃ items : List Tlv, (∀ t ∈ items, t.Readable) ∧
      body = encItems items ∧ (∀ t ∈ items, t.tag = Tag.sequence) ∧ n = items.length := by
  have hcount : ∀ (items : List Tlv) (k : ℕ),
      handleAll (fun n tlv => do
        refuseIf (tlv.tag ≠ Tag.sequence) DfcModelStatus.malformed
        pure (n + 1)) items k = .ok n ↔
      (∀ t ∈ items, t.tag = Tag.sequence) ∧ n = k + items.length := by
    intro items
    induction items with
    | nil =>
      intro k
      simp only [handleAll, Except.ok.injEq]
      simp
      omega
    | cons t items ih =>
      intro k
      rw [handleAll]
      by_cases ht : t.tag = Tag.sequence
      · have hstep : (do
            refuseIf (t.tag ≠ Tag.sequence) DfcModelStatus.malformed
            pure (k + 1) : Except DfcModelStatus ℕ) = .ok (k + 1) := by
          simp only [bind_eq_ok, refuseIf_eq_ok, pure_eq_ok]
          exact ⟨(), by simpa using ht, trivial⟩
        rw [hstep]
        dsimp only
        rw [ih, List.forall_mem_cons, List.length_cons]
        constructor
        · rintro ⟨h, rfl⟩
          exact ⟨⟨ht, h⟩, by omega⟩
        · rintro ⟨⟨-, h⟩, rfl⟩
          exact ⟨h, by omega⟩
      · have hstep : (do
            refuseIf (t.tag ≠ Tag.sequence) DfcModelStatus.malformed
            pure (k + 1) : Except DfcModelStatus ℕ) = .error .malformed := by
          rw [refuseIf, if_pos ht]
          rfl
        rw [hstep]
        simp [ht]
  rw [countItems, rWalk_eq_ok le_rfl]
  simp only [hcount, Nat.zero_add]

theorem readable_sequence {items : List Tlv} (ht : ∀ t ∈ items, t.tag = Tag.sequence)
    (hl : (encItems items).length ≤ 0xFFFF) : ∀ t ∈ items, t.Readable := by
  intro t hmem
  refine ⟨?_, (length_le_encItems hmem).trans hl⟩
  rw [ht t hmem]
  decide

theorem keyComponents_fields {slot : ℕ} {k : KeyImage} {body : Slice} (hb : body.length ≤ 0xFFFF) :
    body = encFields (keyComponents slot k) ↔
      ∃ f, rFields body keyOrder = some f ∧ ∀ p ∈ keyComponents slot k, fGet f p.1 = p.2 :=
  eq_encFields_iff rfl (by decide) (by decide) (by decide) hb

/-- The key a slot holds after a turn of the loop. -/
theorem decodeKeyFields_eq_ok {body value : Slice} {slot keyLen : ℕ} {versionField : Option Slice}
    {version : UInt8} (hb : body.length ≤ 0xFFFF) :
    (decodeKeyFields body slot keyLen = .ok (value, versionField) ∧
      rOctet versionField = some version) ↔
    body = encFields (keyComponents slot ⟨value, version⟩) ∧ slot < dfcMaxKeys ∧
      value.length = keyLen ∧ versionField = some [version] := by
  simp only [keyComponents_fields hb]
  simp only [keyComponents, List.forall_mem_cons, List.not_mem_nil, false_implies, implies_true,
    and_true, rOctet_eq_some]
  simp only [decodeKeyFields, bind_eq_ok, orFail_eq_ok, refuseIf_eq_ok, pure_eq_ok,
    rUint_eq_some (dfcMaxKeys - 1) (by decide), not_not, Prod.mk.injEq]
  constructor
  · rintro ⟨⟨f, hf, n, ⟨h₁, l₁⟩, _, rfl, v, h₂, _, rfl, rfl, rfl⟩, hv⟩
    exact ⟨⟨f, hf, h₁, h₂, hv⟩, by simp only [dfcMaxKeys] at *; omega, rfl, hv⟩
  · rintro ⟨⟨f, hf, h₁, h₂, h₃⟩, hlt, rfl, rfl⟩
    exact ⟨⟨f, hf, slot, ⟨h₁, by simp only [dfcMaxKeys] at *; omega⟩, (), rfl, value, h₂, (), rfl,
      rfl, h₃⟩, rfl⟩

/-- What a turn of the key loop stores. -/
def loadKey (app : Option ℕ) (st : DfcCredential × ℕ) (k : KeyImage) : DfcCredential × ℕ :=
  let dst := (dfcCredentialKey st.1 app st.2).getD 0
  (storeKeyVersion { st.1 with keyPool := st.1.keyPool.write dst k.value } app st.2 k.version,
    st.2 + 1)

structure KeyLoadable (app : Option ℕ) (keyLen : ℕ) (st : DfcCredential × ℕ) (k : KeyImage) :
    Prop where
  slot : st.2 < dfcMaxKeys
  length : k.value.length = keyLen
  place : (dfcCredentialKey st.1 app st.2).isSome

def keyItem (st : DfcCredential × ℕ) (k : KeyImage) : Tlv := sequenceItem (keyComponents st.2 k)

theorem decodeKey_eq_ok {app : Option ℕ} {keyLen : ℕ} {st st' : DfcCredential × ℕ} {tlv : Tlv}
    (hb : tlv.body.length ≤ 0xFFFF) :
    decodeKey app keyLen st tlv = .ok st' ↔
      ∃ k, tlv = keyItem st k ∧ KeyLoadable app keyLen st k ∧ st' = loadKey app st k := by
  obtain ⟨c, n⟩ := st
  obtain ⟨tag, body⟩ := tlv
  simp only [decodeKey, bind_eq_ok, orFail_eq_ok, refuseIf_eq_ok, pure_eq_ok, not_not]
  constructor
  · rintro ⟨_, rfl, ⟨value, versionField⟩, hfields, dst, hdst, version, hver, rfl⟩
    obtain ⟨hbody, hlt, hlen, -⟩ := (decodeKeyFields_eq_ok hb).mp ⟨hfields, hver⟩
    refine ⟨⟨value, version⟩, ?_, ⟨hlt, hlen, by simp [hdst]⟩, ?_⟩
    · dsimp only at hbody
      rw [hbody]
      rfl
    · simp [loadKey, hdst]
  · rintro ⟨k, hk, hload, rfl⟩
    simp only [keyItem, sequenceItem, Tlv.mk.injEq] at hk
    obtain ⟨rfl, hbody⟩ := hk
    obtain ⟨dst, hdst⟩ := Option.isSome_iff_exists.mp hload.place
    obtain ⟨hfields, hver⟩ := (decodeKeyFields_eq_ok hb).mpr
      ⟨hbody, hload.slot, hload.length, rfl⟩
    dsimp only at hdst
    refine ⟨(), rfl, (k.value, some [k.version]), hfields, dst, hdst, k.version, hver, ?_⟩
    simp [loadKey, hdst]

theorem keyItems_itemsFrom (app : Option ℕ) (keys : List KeyImage) (st : DfcCredential × ℕ) :
    itemsFrom keyItem (loadKey app) st keys = keyItems st.2 keys := by
  induction keys generalizing st with
  | nil => rfl
  | cons k keys ih =>
    rw [itemsFrom, ih, keyItems]
    rfl

theorem tag_keyItems (n : ℕ) (keys : List KeyImage) :
    ∀ t ∈ keyItems n keys, t.tag = Tag.sequence := by
  induction keys generalizing n with
  | nil => simp [keyItems]
  | cons k keys ih =>
    rw [keyItems, List.forall_mem_cons]
    exact ⟨rfl, ih (n + 1)⟩

theorem length_keyItems (n : ℕ) (keys : List KeyImage) :
    (keyItems n keys).length = keys.length := by
  induction keys generalizing n with
  | nil => rfl
  | cons k keys ih => rw [keyItems, List.length_cons, List.length_cons, ih]

theorem lowTag_sequence : LowTag Tag.sequence := by decide

/-- What a decoded key list is made of. -/
theorem decodeKeys_eq_ok {c c' : DfcCredential} {app : Option ℕ} {body : Slice}
    {keyLen maxKeys : ℕ} (hb : body.length ≤ 0xFFFF) :
    decodeKeys c app body keyLen maxKeys = .ok c' ↔
      ∃ keys : List KeyImage, body = encKeys keys ∧ keys.length ≤ maxKeys ∧
        if keys = [] then c' = dfcCredentialKeysRelease c app
        else ∃ c₁, dfcCredentialKeysResize c app keys.length keyLen = (c₁, true) ∧
          AllFrom (KeyLoadable app keyLen) (loadKey app) (c₁, 0) keys ∧
          c' = (keys.foldl (loadKey app) (c₁, 0)).1 := by
  have hwalk (c₁ : DfcCredential) (st' : DfcCredential × ℕ) :
      rWalk .malformed (decodeKey app keyLen) body.length body (c₁, 0) = .ok st' ↔
        ∃ keys, body = encKeys keys ∧ AllFrom (KeyLoadable app keyLen) (loadKey app) (c₁, 0) keys ∧
          st' = keys.foldl (loadKey app) (c₁, 0) := by
    rw [rWalk_loads (decodeKey app keyLen) keyItem (KeyLoadable app keyLen) (loadKey app) hb
      (fun _ _ => lowTag_sequence) fun st tlv st' hr => decodeKey_eq_ok hr.2]
    simp only [keyItems_itemsFrom, encKeys]
  have hcount (keys : List KeyImage) (hbody : body = encKeys keys) (n : ℕ) :
      countItems body = .ok n ↔ n = keys.length := by
    have htags := tag_keyItems 0 keys
    rw [hbody, encKeys] at hb
    rw [countItems_eq_ok]
    constructor
    · rintro ⟨items, hr, hitems, -, rfl⟩
      rw [hbody, encKeys] at hitems
      rw [← encItems_injective (readable_sequence htags hb) hr hitems, length_keyItems]
    · rintro rfl
      exact ⟨_, readable_sequence htags hb, hbody, htags, (length_keyItems 0 keys).symm⟩
  rw [decodeKeys]
  constructor
  · intro h
    simp only [bind_eq_ok, refuseIf_eq_ok, not_lt] at h
    obtain ⟨n, hn, _, hmax, h⟩ := h
    split_ifs at h with h0
    · simp only [pure_eq_ok] at h
      obtain ⟨items, -, hbody, -, hlen⟩ := countItems_eq_ok.mp hn
      have hnil : items = [] := List.eq_nil_of_length_eq_zero (by omega)
      refine ⟨[], ?_, by simp, ?_⟩
      · rw [hbody, hnil]
        rfl
      · rw [if_pos rfl]
        exact h.symm
    · simp only [bind_eq_ok, orRefuse_eq_ok, pure_eq_ok] at h
      obtain ⟨c₁, hc₁, st, hst, rfl⟩ := h
      obtain ⟨keys, hbody, hall, rfl⟩ := (hwalk c₁ st).mp hst
      have hlen := (hcount keys hbody n).mp hn
      subst hlen
      refine ⟨keys, hbody, hmax, ?_⟩
      rw [if_neg (by rintro rfl; exact h0 rfl)]
      exact ⟨c₁, hc₁, hall, rfl⟩
  · rintro ⟨keys, hbody, hmax, h⟩
    simp only [bind_eq_ok, refuseIf_eq_ok, not_lt]
    refine ⟨keys.length, (hcount keys hbody _).mpr rfl, (), hmax, ?_⟩
    split_ifs at h with hnil
    · rw [if_pos (by rw [hnil]; rfl), h]
      rfl
    · obtain ⟨c₁, hc₁, hall, hc'⟩ := h
      have h0 : keys.length ≠ 0 := fun h0 => hnil (List.eq_nil_of_length_eq_zero h0)
      rw [if_neg h0]
      simp only [bind_eq_ok, orRefuse_eq_ok, pure_eq_ok]
      exact ⟨c₁, hc₁, _, (hwalk c₁ _).mpr ⟨keys, hbody, hall, rfl⟩, hc'.symm⟩

/-- What a turn of the key loop of a set stores. -/
def loadSetKey (i index : ℕ) (st : DfcCredential × ℕ) (k : KeyImage) : DfcCredential × ℕ :=
  let dst := (dfcCredentialKeyInSet st.1 (st.1.apps i) index st.2).getD 0
  let c := { st.1 with keyPool := st.1.keyPool.write dst k.value }
  ((dfcCredentialStoreKeyVersionInSet c i index st.2 k.version).getD c, st.2 + 1)

structure SetKeyLoadable (i index keyCount required : ℕ) (st : DfcCredential × ℕ) (k : KeyImage) :
    Prop where
  slot : st.2 < keyCount ∧ st.2 < dfcMaxKeys
  length : k.value.length = required
  place : (dfcCredentialKeyInSet st.1 (st.1.apps i) index st.2).isSome
  version : (dfcCredentialKeyVersionInSet st.1 (st.1.apps i) index st.2).isSome

/-- The store of a version succeeds where its load does. -/
theorem storeKeyVersionInSet_isSome (c : DfcCredential) (i index slot : ℕ) (version : UInt8) :
    (dfcCredentialStoreKeyVersionInSet c i index slot version).isSome =
      (dfcCredentialKeyVersionInSet c (c.apps i) index slot).isSome := by
  rw [dfcCredentialStoreKeyVersionInSet, dfcCredentialKeyVersionInSet]
  split_ifs
  · rfl
  · rfl
  · cases dfcKeySetMetadataSlice c (c.apps i) <;> rfl

theorem decodeKeySetKey_eq_ok {i index keyCount required : ℕ} {st st' : DfcCredential × ℕ}
    {tlv : Tlv} (hb : tlv.body.length ≤ 0xFFFF) :
    decodeKeySetKey i index keyCount required st tlv = .ok st' ↔
      ∃ k, tlv = keyItem st k ∧ SetKeyLoadable i index keyCount required st k ∧
        st' = loadSetKey i index st k := by
  obtain ⟨c, slot⟩ := st
  obtain ⟨tag, body⟩ := tlv
  simp only [decodeKeySetKey, bind_eq_ok, orFail_eq_ok, refuseIf_eq_ok, pure_eq_ok, not_not, not_le]
  constructor
  · rintro ⟨_, rfl, _, hslot, ⟨value, versionField⟩, hfields, dst, hdst, _, hversion, version, hver,
      c', hc', rfl⟩
    obtain ⟨hbody, hlt, hlen, -⟩ := (decodeKeyFields_eq_ok hb).mp ⟨hfields, hver⟩
    refine ⟨⟨value, version⟩, ?_, ⟨⟨hslot, hlt⟩, hlen, by simp [hdst],
      Option.isSome_iff_ne_none.mpr (by simpa using hversion)⟩, ?_⟩
    · dsimp only at hbody
      rw [hbody]
      rfl
    · simp only [loadSetKey, hdst, Option.getD_some, hc']
  · rintro ⟨k, hk, hload, rfl⟩
    simp only [keyItem, sequenceItem, Tlv.mk.injEq] at hk
    obtain ⟨rfl, hbody⟩ := hk
    obtain ⟨dst, hdst⟩ := Option.isSome_iff_exists.mp hload.place
    obtain ⟨hfields, hver⟩ := (decodeKeyFields_eq_ok hb).mpr
      ⟨hbody, hload.slot.2, hload.length, rfl⟩
    dsimp only at hdst
    have hstore : (dfcCredentialStoreKeyVersionInSet
        { c with keyPool := c.keyPool.write dst k.value } i index slot k.version).isSome := by
      rw [storeKeyVersionInSet_isSome]
      exact hload.version
    obtain ⟨c', hc'⟩ := Option.isSome_iff_exists.mp hstore
    refine ⟨(), rfl, (), hload.slot.1, (k.value, some [k.version]), hfields, dst, hdst, (),
      by simpa using Option.isSome_iff_ne_none.mp hload.version, k.version, hver, c', hc', ?_⟩
    simp only [loadSetKey, hdst, Option.getD_some, hc']

theorem setKeyItems_itemsFrom (i index : ℕ) (keys : List KeyImage) (st : DfcCredential × ℕ) :
    itemsFrom keyItem (loadSetKey i index) st keys = keyItems st.2 keys := by
  induction keys generalizing st with
  | nil => rfl
  | cons k keys ih =>
    rw [itemsFrom, ih, keyItems]
    rfl

/-- The version, the type and the initialized bit of a set. -/
def storeKeySetHeader (c : DfcCredential) (i index : ℕ) (s : KeySetImage) : DfcCredential :=
  let c := { c with
    keySetMetadataPool := (c.keySetMetadataPool.write
      ((dfcCredentialKeySetVersion c (c.apps i) index).getD 0) [s.version]).write
      ((dfcCredentialKeySetType c (c.apps i) index).getD 0) [s.type] }
  (dfcCredentialKeySetSetInitialized c i index s.initialized).1

/-- What a turn of the set loop stores. -/
def loadKeySet (i : ℕ) (st : DfcCredential × ℕ) (s : KeySetImage) : DfcCredential × ℕ :=
  ((s.keys.foldl (loadSetKey i st.2) (storeKeySetHeader st.1 i st.2 s, 0)).1, st.2 + 1)

structure KeySetLoadable (i keyCount maxSize : ℕ) (st : DfcCredential × ℕ) (s : KeySetImage) :
    Prop where
  number : st.2 < dfcMaxKeySets
  type : s.type.toNat ≤ dfcKeySetTypeAes.toNat
  width : dfcKeySetTypeLength s.type ≤ maxSize
  place : (dfcCredentialKeySetVersion st.1 (st.1.apps i) st.2).isSome
  keys : AllFrom (SetKeyLoadable i st.2 keyCount (dfcKeySetTypeLength s.type)) (loadSetKey i st.2)
    (storeKeySetHeader st.1 i st.2 s, 0) s.keys

def keySetItem (st : DfcCredential × ℕ) (s : KeySetImage) : Tlv :=
  sequenceItem (keySetComponents st.2 s)

theorem keySetComponents_fields {n : ℕ} {s : KeySetImage} {body : Slice}
    (hb : body.length ≤ 0xFFFF) :
    body = encFields (keySetComponents n s) ↔
      ∃ f, rFields body keySetOrder = some f ∧ ∀ p ∈ keySetComponents n s, fGet f p.1 = p.2 :=
  eq_encFields_iff rfl (by decide) (by decide) (by decide) hb

theorem keySetVersion_isSome {c : DfcCredential} {app : DfcApplication} {set : ℕ}
    (h : (dfcCredentialKeySetVersion c app set).isSome) :
    ∃ data, dfcKeySetMetadataSlice c app = some data ∧ set < app.numKeySets := by
  rw [dfcCredentialKeySetVersion] at h
  cases hs : dfcKeySetMetadataSlice c app with
  | none => simp [hs] at h
  | some data =>
    rw [hs] at h
    dsimp only at h
    split_ifs at h with hset
    · exact ⟨data, rfl, hset⟩
    · simp at h

/-- The metadata slice of a record does not depend on the octets of the pool. -/
theorem keySetSetInitialized_eq {c : DfcCredential} {i index data : ℕ}
    (hs : dfcKeySetMetadataSlice c (c.apps i) = some data) (hi : index < (c.apps i).numKeySets)
    (pool : Mem) (initialized : Bool) :
    (dfcCredentialKeySetSetInitialized { c with keySetMetadataPool := pool } i index
      initialized).2 = true := by
  have hs' : dfcKeySetMetadataSlice { c with keySetMetadataPool := pool } (c.apps i) =
    some data := hs
  simp only [dfcCredentialKeySetSetInitialized, hs']
  rw [if_neg (by omega)]

theorem decodeKeySet_eq_ok {i keyCount maxSize : ℕ} {st st' : DfcCredential × ℕ} {tlv : Tlv}
    (hb : tlv.body.length ≤ 0xFFFF) (ht : tlv.tag = Tag.sequence) :
    decodeKeySet i keyCount maxSize st tlv = .ok st' ↔
      ∃ s, tlv = keySetItem st s ∧ KeySetLoadable i keyCount maxSize st s ∧
        st' = loadKeySet i st s := by
  obtain ⟨c, index⟩ := st
  obtain ⟨tag, body⟩ := tlv
  dsimp only at hb ht
  subst ht
  have hitem (s : KeySetImage) : (⟨Tag.sequence, body⟩ : Tlv) = keySetItem (c, index) s ↔
      ∃ f, rFields body keySetOrder = some f ∧
      ∀ p ∈ keySetComponents index s, fGet f p.1 = p.2 := by
    rw [← keySetComponents_fields hb, keySetItem, sequenceItem, Tlv.mk.injEq]
    simp
  simp only [hitem]
  simp only [keySetComponents, List.forall_mem_cons, List.not_mem_nil, false_implies, implies_true,
    and_true]
  have hkeys (keys : Slice) (hk : keys.length ≤ 0xFFFF) (c₁ : DfcCredential) (required : ℕ)
      (st' : DfcCredential × ℕ) :
      rWalk .malformed (decodeKeySetKey i index keyCount required) keys.length keys (c₁, 0) =
        .ok st' ↔ ∃ l, keys = encKeys l ∧
          AllFrom (SetKeyLoadable i index keyCount required) (loadSetKey i index) (c₁, 0) l ∧
          st' = l.foldl (loadSetKey i index) (c₁, 0) := by
    rw [rWalk_loads (decodeKeySetKey i index keyCount required) keyItem
      (SetKeyLoadable i index keyCount required) (loadSetKey i index) hk
      (fun _ _ => lowTag_sequence) fun st tlv st' hr => decodeKeySetKey_eq_ok hr.2]
    simp only [setKeyItems_itemsFrom, encKeys]
  simp only [decodeKeySet, bind_eq_ok, orFail_eq_ok, refuseIf_eq_ok, pure_eq_ok, orRefuse_eq_ok,
    rUint_eq_some (dfcMaxKeySets - 1) (by decide), rUint_eq_some 0xFF (by decide),
    rOctet_eq_some, rBool_eq_some, not_not, not_lt]
  constructor
  · rintro ⟨f, hf, n, ⟨h₁, l₁⟩, _, rfl, type, ⟨h₂, l₂⟩, _, g₂, _, hwidth, ver, hver, typ, htyp,
      version, h₃, init, h₄, c₁, hinit, keys, h₅, ⟨c₂, m⟩, hst, rfl⟩
    have hk : keys.length ≤ 0xFFFF := (fGet_length (by decide) hf h₅).trans hb
    obtain ⟨l, hl, hall, hst'⟩ := (hkeys keys hk c₁ _ _).mp hst
    have hnat := toNat_ofNat_octet l₂ (by decide)
    have hhead : storeKeySetHeader c i n ⟨version, UInt8.ofNat type, init, l⟩ = c₁ := by
      simp only [storeKeySetHeader, hver, htyp, Option.getD_some, hinit]
    refine ⟨⟨version, UInt8.ofNat type, init, l⟩, ⟨f, hf, h₁, h₃, ?_, h₄, ?_⟩,
      ⟨?_, ?_, hwidth, ?_, ?_⟩, ?_⟩
    · rw [hnat]
      exact h₂
    · rw [h₅, hl]
    · simp only [dfcMaxKeySets] at *
      omega
    · dsimp only
      rw [hnat]
      exact g₂
    · simp [hver]
    · dsimp only
      rw [hhead]
      exact hall
    · simp only [loadKeySet]
      rw [hhead, ← hst']
  · rintro ⟨s, ⟨f, hf, h₁, h₂, h₃, h₄, h₅⟩, hs, rfl⟩
    have hplace := hs.place
    dsimp only at hplace
    obtain ⟨data, hslice, hset⟩ := keySetVersion_isSome hplace
    have hver := keySetVersion_eq hslice hset
    have htyp := keySetType_eq hslice hset
    have hk : (encKeys s.keys).length ≤ 0xFFFF := (fGet_length (by decide) hf h₅).trans hb
    have hnum := hs.number
    have htype := hs.type
    simp only [dfcMaxKeySets] at hnum
    have htwo : dfcKeySetTypeAes.toNat = 2 := rfl
    refine ⟨f, hf, index, ⟨h₁, by simp only [dfcMaxKeySets]; omega⟩, (), rfl, s.type.toNat,
      ⟨h₃, by omega⟩, (), hs.type, (), by simpa using hs.width, _, hver, _, htyp, s.version, h₂,
      s.initialized, h₄, storeKeySetHeader c i index s, ?_, _, h₅,
      s.keys.foldl (loadSetKey i index) (storeKeySetHeader c i index s, 0), ?_, rfl⟩
    · simp only [storeKeySetHeader, hver, htyp, Option.getD_some, UInt8.ofNat_toNat]
      exact Prod.ext rfl (keySetSetInitialized_eq hslice hset _ s.initialized)
    · rw [UInt8.ofNat_toNat]
      exact (hkeys _ hk _ _ _).mpr ⟨s.keys, rfl, hs.keys, rfl⟩

theorem keySetItems_itemsFrom (i : ℕ) (sets : List KeySetImage) (st : DfcCredential × ℕ) :
    itemsFrom keySetItem (loadKeySet i) st sets = keySetItems st.2 sets := by
  induction sets generalizing st with
  | nil => rfl
  | cons s sets ih =>
    rw [itemsFrom, ih, keySetItems]
    rfl

theorem tag_keySetItems (n : ℕ) (sets : List KeySetImage) :
    ∀ t ∈ keySetItems n sets, t.tag = Tag.sequence := by
  induction sets generalizing n with
  | nil => simp [keySetItems]
  | cons s sets ih =>
    rw [keySetItems, List.forall_mem_cons]
    exact ⟨rfl, ih (n + 1)⟩

theorem length_keySetItems (n : ℕ) (sets : List KeySetImage) :
    (keySetItems n sets).length = sets.length := by
  induction sets generalizing n with
  | nil => rfl
  | cons s sets ih => rw [keySetItems, List.length_cons, List.length_cons, ih]

theorem keySetsComponents_fields {keyCount maxSize : ℕ} {settings : UInt8}
    {sets : List KeySetImage} {body : Slice} (hb : body.length ≤ 0xFFFF) :
    body = encFields (keySetsComponents keyCount maxSize settings sets) ↔
      ∃ f, rFields body keySetsOrder = some f ∧
        ∀ p ∈ keySetsComponents keyCount maxSize settings sets, fGet f p.1 = p.2 :=
  eq_encFields_iff rfl (by decide) (by decide) (by decide) hb

/-- What decoded key sets are made of. -/
structure KeySetsDecoded (c : DfcCredential) (i keyCount maxSize : ℕ) (settings : UInt8)
    (sets : List KeySetImage) (c' : DfcCredential) : Prop where
  keys : 0 < keyCount ∧ keyCount ≤ dfcMaxKeys
  width : maxSize = 16 ∨ maxSize = 24
  count : dfcKeySetMinimumCount ≤ sets.length ∧ sets.length ≤ dfcMaxKeySets
  stored : ∃ c₁, dfcCredentialKeySetsResize c i sets.length keyCount (c.apps i).keyLen maxSize =
      (c₁, true) ∧
    AllFrom (KeySetLoadable i keyCount maxSize) (loadKeySet i)
      (c₁.modifyApp i fun a => { a with keySetSettings := settings }, 0) sets ∧
    c' = (sets.foldl (loadKeySet i)
      (c₁.modifyApp i fun a => { a with keySetSettings := settings }, 0)).1
  initialized : dfcCredentialKeySetIsInitialized c' (c'.apps i) 0 = true

theorem decodeKeySets_eq_ok {c c' : DfcCredential} {i : ℕ} {body : Slice}
    (hb : body.length ≤ 0xFFFF) :
    decodeKeySets c i body = .ok c' ↔ ∃ keyCount maxSize settings sets,
      body = encFields (keySetsComponents keyCount maxSize settings sets) ∧
      KeySetsDecoded c i keyCount maxSize settings sets c' := by
  simp only [keySetsComponents_fields hb]
  simp only [keySetsComponents, List.forall_mem_cons, List.not_mem_nil, false_implies, implies_true,
    and_true]
  have hlen (f : Fields) (hf : rFields body keySetsOrder = some f) (sets : Slice)
      (hs : fGet f Tag.ksSets = some sets) : sets.length ≤ 0xFFFF :=
    (fGet_length (by decide) hf hs).trans hb
  have hwalk (sets : Slice) (hs : sets.length ≤ 0xFFFF) (keyCount maxSize n : ℕ)
      (c₁ : DfcCredential) (st' : DfcCredential × ℕ) :
      (countItems sets = .ok n ∧
        rWalk .malformed (decodeKeySet i keyCount maxSize) sets.length sets (c₁, 0) = .ok st') ↔
      ∃ l, sets = encItems (keySetItems 0 l) ∧ n = l.length ∧
        AllFrom (KeySetLoadable i keyCount maxSize) (loadKeySet i) (c₁, 0) l ∧
        st' = l.foldl (loadKeySet i) (c₁, 0) := by
    rw [countItems_eq_ok, rWalk_eq_ok le_rfl]
    constructor
    · rintro ⟨⟨items, hr, hitems, htag, rfl⟩, items', hr', hitems', hh⟩
      have heq := encItems_injective hr hr' (hitems.symm.trans hitems')
      subst heq
      obtain ⟨l, hl, hall, rfl⟩ := (handleAll_eq_ok (decodeKeySet i keyCount maxSize) keySetItem
        (KeySetLoadable i keyCount maxSize) (loadKeySet i) fun st t ht st' =>
          decodeKeySet_eq_ok (hr t ht).2 (htag t ht)).mp hh
      rw [keySetItems_itemsFrom] at hl
      subst hl
      exact ⟨l, hitems, length_keySetItems 0 l, hall, rfl⟩
    · rintro ⟨l, rfl, rfl, hall, rfl⟩
      have htag := tag_keySetItems 0 l
      have hr := readable_sequence htag hs
      refine ⟨⟨_, hr, rfl, htag, (length_keySetItems 0 l).symm⟩, _, hr, rfl, ?_⟩
      exact (handleAll_eq_ok (decodeKeySet i keyCount maxSize) keySetItem
        (KeySetLoadable i keyCount maxSize) (loadKeySet i) fun st t ht st' =>
          decodeKeySet_eq_ok (hr t ht).2 (htag t ht)).mpr
            ⟨l, (keySetItems_itemsFrom i l (c₁, 0)).symm, hall, rfl⟩
  simp only [decodeKeySets, bind_eq_ok, orFail_eq_ok, refuseIf_eq_ok, pure_eq_ok, orRefuse_eq_ok,
    rUint_eq_some dfcMaxKeys (by decide), rUint_eq_some 24 (by decide), rOctet_eq_some, not_lt,
    Bool.not_eq_false]
  constructor
  · rintro ⟨f, hf, keyCount, ⟨h₁, l₁⟩, _, hpos, maxSize, ⟨h₂, l₂⟩, _, hmax, settings, h₃, sets, h₄,
      count, hcount, _, hmin, _, hcap, c₁, hc₁, ⟨c₂, n⟩, hst, _, hinit, rfl⟩
    obtain ⟨l, hl, rfl, hall, hst'⟩ := (hwalk sets (hlen f hf sets h₄) _ _ _ _ _).mp ⟨hcount, hst⟩
    refine ⟨keyCount, maxSize, settings, l, ⟨f, hf, h₁, h₂, h₃, ?_⟩, ⟨⟨by omega, l₁⟩, by omega,
      ⟨hmin, hcap⟩, ⟨c₁, hc₁, hall, ?_⟩, hinit⟩⟩
    · rw [h₄, hl]
    · rw [← hst']
  · rintro ⟨keyCount, maxSize, settings, l, ⟨f, hf, h₁, h₂, h₃, h₄⟩, h⟩
    obtain ⟨c₁, hc₁, hall, hc'⟩ := h.stored
    obtain ⟨hcount, hst⟩ := (hwalk _ (hlen f hf _ h₄) keyCount maxSize _ _ _).mpr
      ⟨l, rfl, rfl, hall, rfl⟩
    have hm := h.width
    have hinit := h.initialized
    rw [hc'] at hinit
    exact ⟨f, hf, keyCount, ⟨h₁, h.keys.2⟩, (), by have := h.keys.1; omega, maxSize,
      ⟨h₂, by omega⟩, (), by omega, settings, h₃, _, h₄, _, hcount, (), h.count.1, (), h.count.2,
      c₁, hc₁, _, hst, (), hinit, hc'.symm⟩

end DfcCore
