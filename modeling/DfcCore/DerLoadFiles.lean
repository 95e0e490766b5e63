import DfcCore.DerLoadKeys

/-!
# Decoding files

A decode of a file succeeds on exactly the encodings of the files that fit. The contents
of a decoded file are the next octets of the file pool.
-/
namespace DfcCore
open Der

/-- Whether a slice of `n` octets can be cut. -/
def SliceFits (c : DfcCredential) (n : ℕ) : Prop :=
  n ≤ dfcMaxFileData ∧ c.filePoolUsed + n ≤ dfcFilePoolSize

/-- A file that holds no slice yet. -/
def NoSlice (file : DfcFile) : Prop := file.dataOffset = dfcFilePoolNone ∧ file.dataLen = 0

/-- The octets of a file, placed at the end of the used part of the pool. -/
def placeOctets (c : DfcCredential) (i : ℕ) (octets : Slice) : DfcCredential :=
  if octets = [] then c
  else
    { c.modifyFile i fun file =>
        { file with dataOffset := c.filePoolUsed, dataLen := octets.length } with
      filePool := c.filePool.write c.filePoolUsed octets
      filePoolUsed := c.filePoolUsed + octets.length }

theorem dfcFileResize_noSlice {c c' : DfcCredential} {i n : ℕ} (h : NoSlice (c.files i)) :
    dfcFileResize c i n = (c', true) ↔ SliceFits c n ∧ c' = dfcFileCutSlice c i n := by
  have hresolve : dfcPoolSliceResolve (c.files i).dataOffset (c.files i).dataLen c.filePoolUsed
      dfcFilePoolNone = some dfcFilePoolNone := by
    rw [h.1, h.2]
    rfl
  rw [dfcFileResize, hresolve, SliceFits]
  simp only [ne_eq, not_true_eq_false, false_and, if_false, dfcFileDropOldSlice]
  split_ifs with h₁ h₂ h₃ h₄
  · simp only [Prod.mk.injEq, Bool.false_eq_true, and_false, false_iff, not_and]
    omega
  · simp only [Prod.mk.injEq, Bool.false_eq_true, and_false, false_iff, not_and]
    omega
  · simp only [Prod.mk.injEq, Bool.false_eq_true, and_false, false_iff, not_and]
    omega
  · simp only [Prod.mk.injEq, Bool.false_eq_true, and_false, false_iff, not_and]
    omega
  · simp only [Prod.mk.injEq, and_true]
    constructor
    · rintro rfl
      exact ⟨by omega, rfl⟩
    · rintro ⟨-, rfl⟩
      rfl

/-- A fresh slice that is filled at once. -/
theorem cutSlice_write {c : DfcCredential} {i : ℕ} {octets : Slice} (hne : octets ≠ [])
    (hfit : SliceFits c octets.length) :
    dfcFileData (dfcFileCutSlice c i octets.length)
        ((dfcFileCutSlice c i octets.length).files i) = some c.filePoolUsed ∧
      { dfcFileCutSlice c i octets.length with
        filePool := (dfcFileCutSlice c i octets.length).filePool.write c.filePoolUsed octets } =
      placeOctets c i octets := by
  have hlen : octets.length ≠ 0 := fun h => hne (List.eq_nil_of_length_eq_zero h)
  simp only [SliceFits, dfcMaxFileData, dfcFilePoolSize] at hfit
  have hu : u16 c.filePoolUsed = c.filePoolUsed := u16_of_lt (by omega)
  have hl : u16 octets.length = octets.length := u16_of_lt (by omega)
  have hs : u16 (c.filePoolUsed + octets.length) = c.filePoolUsed + octets.length :=
    u16_of_lt (by omega)
  constructor
  · rw [dfcFileCutSlice, if_neg hlen, dfcFileData]
    simp only [DfcCredential.modifyFile, Function.update_self, hu, hl, hs, dfcFilePoolNone]
    rw [if_neg (by omega), if_neg (by omega)]
  · rw [dfcFileCutSlice, if_neg hlen, placeOctets, if_neg hne]
    simp only [hu, hl, hs, Mem.write_fill]

theorem decodeOctets_eq_ok {c c' : DfcCredential} {i : ℕ} {octets : Slice} (hne : octets ≠ [])
    (h : NoSlice (c.files i)) :
    decodeOctets c i octets = .ok c' ↔
      SliceFits c octets.length ∧ c' = placeOctets c i octets := by
  simp only [decodeOctets, bind_eq_ok, orFail_eq_ok, orRefuse_eq_ok, pure_eq_ok,
    dfcFileResize_noSlice h]
  constructor
  · rintro ⟨c₁, ⟨hfit, rfl⟩, dst, hdst, rfl⟩
    obtain ⟨hdata, hplace⟩ := cutSlice_write (i := i) hne hfit
    rw [hdata, Option.some.injEq] at hdst
    subst hdst
    exact ⟨hfit, hplace⟩
  · rintro ⟨hfit, rfl⟩
    obtain ⟨hdata, hplace⟩ := cutSlice_write (i := i) hne hfit
    exact ⟨_, ⟨hfit, rfl⟩, _, hdata, hplace⟩

/-- What the decoder makes of the contents of the file at `i`. -/
def loadContents (c : DfcCredential) (i : ℕ) : ContentsImage → DfcCredential
  | .data size known complete =>
    placeOctets (c.modifyFile i fun file => (file.withData
      { file.state.data with declaredSize := size }).withComplete complete) i known
  | .value lower upper current limited limit =>
    c.modifyFile i fun file => file.withValue
      { file.state.value with
        lowerLimit := lower
        upperLimit := upper
        current := current
        limitedCredit := limited
        limitedCreditValue := limit.getD file.state.value.limitedCreditValue }
  | .record size maxRecords count complete records =>
    placeOctets (c.modifyFile i fun file => (file.withRecord
      { size := size, maxRecords := maxRecords, count := count }).withComplete complete) i
      records.flatten
  | .transactionMac counter mac keyType keyVersion key readerId =>
    c.modifyFile i fun file =>
      let t := file.state.transactionMac
      file.withTransactionMac
        { counter := counter
          mac := t.mac.write 0 mac
          keyType := keyType
          keyVersion := keyVersion
          key := t.key.write 0 key
          previousReaderId := t.previousReaderId.write 0 readerId }

/-- The contents a file of a type can be given. -/
def ContentsImage.Loadable (c : DfcCredential) (type : UInt8) : ContentsImage → Prop
  | .data size known complete =>
    dfcFileTypeIsData type = true ∧ 0 < size ∧ size ≤ dfcU24Max ∧ known.length ≤ size ∧
      (known ≠ [] → SliceFits c known.length) ∧ (complete = true → known.length = size)
  | .value lower upper current _ limit =>
    type = dfcFileTypeValue ∧ lower.toInt ≤ current.toInt ∧ current.toInt ≤ upper.toInt ∧
      ∀ v ∈ limit, 0 ≤ v.toInt
  | .record size maxRecords count complete records =>
    dfcFileTypeIsRecord type = true ∧ 0 < size ∧ size ≤ dfcU24Max ∧ 0 < maxRecords ∧
      maxRecords ≤ dfcU24Max ∧ count ≤ maxRecords ∧
      (type = dfcFileTypeCyclicRecord → 2 ≤ maxRecords) ∧ (∀ r ∈ records, r.length = size) ∧
      records.length ≤ count ∧ (complete = true → records.length = count) ∧
      (records ≠ [] → SliceFits c (records.length * size))
  | .transactionMac _ mac _ _ key readerId =>
    type = dfcFileTypeTransactionMac ∧ mac.length = 8 ∧ key.length = 16 ∧ readerId.length = 16

theorem dataComponents_fields {size : ℕ} {known : Slice} {complete : Bool} {body : Slice}
    (hb : body.length ≤ 0xFFFF) :
    body = encFields (contentsComponents (.data size known complete)) ↔
      ∃ f, rFields body dataOrder = some f ∧
        ∀ p ∈ contentsComponents (.data size known complete), fGet f p.1 = p.2 :=
  eq_encFields_iff rfl (by decide) (by decide) (by decide) hb

theorem decodeDataContents_eq_ok {c c' : DfcCredential} {i : ℕ} {body : Slice}
    (hb : body.length ≤ 0xFFFF) (hn : NoSlice (c.files i))
    (ht : dfcFileTypeIsData (c.files i).type = true) :
    decodeDataContents c i body = .ok c' ↔ ∃ size known complete,
      body = encFields (contentsComponents (.data size known complete)) ∧
      (ContentsImage.data size known complete).Loadable c (c.files i).type ∧
      c' = loadContents c i (.data size known complete) := by
  simp only [dataComponents_fields hb]
  simp only [contentsComponents, List.forall_mem_cons, List.not_mem_nil,
    false_implies, implies_true, and_true]
  simp only [decodeDataContents, bind_eq_ok, orFail_eq_ok, refuseIf_eq_ok, pure_eq_ok,
    rUint_eq_some dfcU24Max (by decide), rBool_eq_some]
  have hset (size : ℕ) : dfcFileSetDeclaredSize (c.files i) size =
      some ((c.files i).withData { (c.files i).state.data with declaredSize := size }) := by
    rw [dfcFileSetDeclaredSize, if_neg (by simp [ht])]
  have hknown (c₁ : DfcCredential) (hn : NoSlice (c₁.files i)) (size : ℕ) (field : Option Slice)
      (c₂ : DfcCredential) : decodeKnown c₁ i size field = .ok c₂ ↔ ∃ known : Slice,
        field = nonemptyField known ∧ known.length ≤ size ∧
        (known ≠ [] → SliceFits c₁ known.length) ∧ c₂ = placeOctets c₁ i known := by
    cases field with
    | none =>
      simp only [decodeKnown, pure_eq_ok]
      constructor
      · rintro rfl
        exact ⟨[], rfl, by simp, by simp, rfl⟩
      · rintro ⟨known, hfield, -, -, rfl⟩
        have hnil : known = [] := by
          by_contra hne
          simp [nonemptyField, hne] at hfield
        rw [hnil]
        rfl
    | some known =>
      simp only [decodeKnown, bind_eq_ok, refuseIf_eq_ok, not_or, not_lt]
      constructor
      · rintro ⟨_, ⟨h0, hle⟩, hd⟩
        have hne : known ≠ [] := fun h => h0 (by rw [h]; rfl)
        obtain ⟨hfit, rfl⟩ := (decodeOctets_eq_ok hne hn).mp hd
        exact ⟨known, by rw [nonemptyField, if_neg hne], hle, fun _ => hfit, rfl⟩
      · rintro ⟨known', hfield, hle, hfit, rfl⟩
        have hne : known' ≠ [] := by
          intro h
          simp [nonemptyField, h] at hfield
        rw [nonemptyField, if_neg hne, Option.some.injEq] at hfield
        subst hfield
        exact ⟨(), ⟨fun h => hne (List.eq_nil_of_length_eq_zero h), hle⟩,
          (decodeOctets_eq_ok hne hn).mpr ⟨hfit hne, rfl⟩⟩
  have hlen (size : ℕ) (known : Slice) (complete : Bool) :
      ((loadContents c i (.data size known complete)).files i).dataLen = known.length := by
    rw [loadContents, placeOctets]
    split_ifs with hnil
    · simp [DfcCredential.modifyFile, DfcFile.withComplete, DfcFile.withData, hn.2, hnil]
    · simp [DfcCredential.modifyFile]
  simp only [hset, Option.some.injEq]
  constructor
  · rintro ⟨f, hf, size, ⟨h₁, l₁⟩, _, hpos, _, rfl, complete, h₂, c₁, hc₁, _, hall, rfl⟩
    obtain ⟨known, h₃, hle, hfit, rfl⟩ := (hknown _ (by
      simpa [DfcCredential.modifyFile, DfcFile.withComplete, DfcFile.withData, NoSlice] using hn)
      _ _ _).mp hc₁
    refine ⟨size, known, complete, ⟨f, hf, h₁, h₃, h₂⟩, ⟨ht, by omega, l₁, hle, hfit, ?_⟩, rfl⟩
    intro hcomplete
    by_contra hne
    exact hall ⟨hcomplete, by rw [← hlen size known complete] at hne; exact hne⟩
  · rintro ⟨size, known, complete, ⟨f, hf, h₁, h₂, h₃⟩, ⟨-, hpos, hmax, hle, hfit, hall⟩, hc'⟩
    refine ⟨f, hf, size, ⟨h₁, hmax⟩, (), by omega, _, rfl, complete, h₃,
      loadContents c i (.data size known complete), ?_, (), ?_, hc'.symm⟩
    · refine (hknown _ ?_ _ _ _).mpr ⟨known, h₂, hle, hfit, rfl⟩
      simpa [DfcCredential.modifyFile, DfcFile.withComplete, DfcFile.withData, NoSlice] using hn
    · rintro ⟨hcomplete, hne⟩
      exact hne (by rw [hlen, hall hcomplete])

theorem valueComponents_fields {lower upper current : Int32} {limited : UInt8}
    {limit : Option Int32} {body : Slice} (hb : body.length ≤ 0xFFFF) :
    body = encFields (contentsComponents (.value lower upper current limited limit)) ↔
      ∃ f, rFields body valueOrder = some f ∧
        ∀ p ∈ contentsComponents (.value lower upper current limited limit), fGet f p.1 = p.2 :=
  eq_encFields_iff rfl (by decide) (by decide) (by decide) hb

theorem rOptional_int {field : Option Slice} {o : Option ℤ} :
    rOptional rInt field = some o ↔ field = o.map encInt ∧ ∀ v ∈ o, -2 ^ 63 ≤ v ∧ v < 2 ^ 63 :=
  rOptional_eq_some fun _ _ => rInt_eq_some

theorem decodeValueContents_eq_ok {c c' : DfcCredential} {i : ℕ} {body : Slice}
    (hb : body.length ≤ 0xFFFF) (ht : (c.files i).type = dfcFileTypeValue) :
    decodeValueContents c i body = .ok c' ↔ ∃ lower upper current limited limit,
      body = encFields (contentsComponents (.value lower upper current limited limit)) ∧
      (ContentsImage.value lower upper current limited limit).Loadable c (c.files i).type ∧
      c' = loadContents c i (.value lower upper current limited limit) := by
  simp only [valueComponents_fields hb]
  simp only [contentsComponents, List.forall_mem_cons, List.not_mem_nil,
    false_implies, implies_true, and_true]
  simp only [decodeValueContents, bind_eq_ok, orFail_eq_ok, refuseIf_eq_ok, pure_eq_ok,
    rInt_eq_some, rOctet_eq_some, rOptional_int, not_or, not_lt]
  constructor
  · rintro ⟨f, hf, lower, ⟨h₁, -, -⟩, upper, ⟨h₂, -, -⟩, current, ⟨h₃, -, -⟩, _, hrange, _, hle,
      limited, h₄, limit, ⟨h₅, -⟩, _, hlimit, hc'⟩
    have hlower : (Int32.ofInt lower).toInt = lower :=
      Int32.toInt_ofInt_of_le (by omega) (by omega)
    have hupper : (Int32.ofInt upper).toInt = upper :=
      Int32.toInt_ofInt_of_le (by omega) (by omega)
    have hcurrent : (Int32.ofInt current).toInt = current :=
      Int32.toInt_ofInt_of_le (by omega) (by omega)
    have hlim : ∀ v ∈ limit, (Int32.ofInt v).toInt = v ∧ 0 ≤ v := by
      intro v hv
      rw [Option.mem_def] at hv
      rw [hv, Option.getD_some] at hlimit
      exact ⟨Int32.toInt_ofInt_of_le (by omega) (by omega), hlimit.1⟩
    refine ⟨Int32.ofInt lower, Int32.ofInt upper, Int32.ofInt current, limited,
      limit.map Int32.ofInt, ⟨f, hf, ?_, ?_, ?_, h₄, ?_⟩, ⟨ht, ?_, ?_, ?_⟩, hc'.symm⟩
    · rw [hlower]; exact h₁
    · rw [hupper]; exact h₂
    · rw [hcurrent]; exact h₃
    · rw [h₅]
      cases limit with
      | none => rfl
      | some v => simp [(hlim v rfl).1]
    · rw [hlower, hcurrent]; exact hle.1
    · rw [hupper, hcurrent]; exact hle.2
    · intro v hv
      obtain ⟨w, hw, rfl⟩ := Option.map_eq_some_iff.mp hv
      rw [(hlim w hw).1]
      exact (hlim w hw).2
  · rintro ⟨lower, upper, current, limited, limit, ⟨f, hf, h₁, h₂, h₃, h₄, h₅⟩,
      ⟨-, hle, hle', hlimit⟩, hc'⟩
    have l₁ := lower.le_toInt
    have l₂ := upper.toInt_lt
    have l₃ := current.le_toInt
    have l₄ := current.toInt_lt
    have l₅ := lower.toInt_lt
    have l₆ := upper.le_toInt
    refine ⟨f, hf, lower.toInt, ⟨h₁, by omega, by omega⟩, upper.toInt, ⟨h₂, by omega, by omega⟩,
      current.toInt, ⟨h₃, by omega, by omega⟩, (), ⟨by omega, by omega, by omega, by omega⟩, (),
      ⟨hle, hle'⟩, limited, h₄, limit.map Int32.toInt, ⟨?_, ?_⟩, (), ?_, ?_⟩
    · rw [h₅]
      cases limit <;> rfl
    · intro v hv
      obtain ⟨w, -, rfl⟩ := Option.map_eq_some_iff.mp hv
      have := w.le_toInt
      have := w.toInt_lt
      constructor <;> omega
    · cases limit with
      | none => simp
      | some v =>
        have := v.toInt_lt
        have := hlimit v rfl
        simp only [Option.map_some, Option.getD_some]
        omega
    · have hmap : (limit.map Int32.toInt).map Int32.ofInt = limit := by
        cases limit <;> simp
      rw [hc', hmap]
      simp only [Int32.ofInt_toInt]
      rfl

theorem transactionMacComponents_fields {counter : UInt32} {mac key readerId : Slice}
    {keyType keyVersion : UInt8} {body : Slice} (hb : body.length ≤ 0xFFFF) :
    body = encFields
        (contentsComponents (.transactionMac counter mac keyType keyVersion key readerId)) ↔
      ∃ f, rFields body transactionMacOrder = some f ∧
        ∀ p ∈ contentsComponents (.transactionMac counter mac keyType keyVersion key readerId),
          fGet f p.1 = p.2 :=
  eq_encFields_iff rfl (by decide) (by decide) (by decide) hb

theorem decodeTransactionMacContents_eq_ok {c c' : DfcCredential} {i : ℕ} {body : Slice}
    (hb : body.length ≤ 0xFFFF) (ht : (c.files i).type = dfcFileTypeTransactionMac) :
    decodeTransactionMacContents c i body = .ok c' ↔
      ∃ counter mac keyType keyVersion key readerId,
        body = encFields
          (contentsComponents (.transactionMac counter mac keyType keyVersion key readerId)) ∧
        (ContentsImage.transactionMac counter mac keyType keyVersion key readerId).Loadable c
          (c.files i).type ∧
        c' = loadContents c i (.transactionMac counter mac keyType keyVersion key readerId) := by
  simp only [transactionMacComponents_fields hb]
  simp only [contentsComponents, List.forall_mem_cons, List.not_mem_nil,
    false_implies, implies_true, and_true]
  simp only [decodeTransactionMacContents, bind_eq_ok, orFail_eq_ok, pure_eq_ok,
    rUint_eq_some (2 ^ 32 - 1) (by decide), rOctets_eq_some, rOctet_eq_some]
  constructor
  · rintro ⟨f, hf, n, ⟨h₁, l₁⟩, mac, ⟨h₂, l₂⟩, keyType, h₃, keyVersion, h₄, key, ⟨h₅, l₅⟩, readerId,
      ⟨h₆, l₆⟩, hc'⟩
    have hn : (UInt32.ofNat n).toNat = n := by
      rw [UInt32.toNat_ofNat']
      omega
    refine ⟨UInt32.ofNat n, mac, keyType, keyVersion, key, readerId,
      ⟨f, hf, ?_, h₂, h₃, h₄, h₅, h₆⟩, ⟨ht, l₂, l₅, l₆⟩, hc'.symm⟩
    rw [hn]
    exact h₁
  · rintro ⟨counter, mac, keyType, keyVersion, key, readerId, ⟨f, hf, h₁, h₂, h₃, h₄, h₅, h₆⟩,
      ⟨-, l₂, l₅, l₆⟩, hc'⟩
    have hn := counter.toNat_lt
    refine ⟨f, hf, counter.toNat, ⟨h₁, by omega⟩, mac, ⟨h₂, l₂⟩, keyType, h₃, keyVersion, h₄, key,
      ⟨h₅, l₅⟩, readerId, ⟨h₆, l₆⟩, ?_⟩
    rw [hc', UInt32.ofNat_toNat]
    rfl

theorem lowTag_octets : LowTag Tag.octets := by decide

theorem encItems_recordItems_length {records : List Slice} {body : Slice}
    (hb : body.length ≤ 0xFFFF) (h : body = encItems (recordItems records)) :
    ∀ t ∈ recordItems records, t.Readable := by
  intro t ht
  refine ⟨?_, (length_le_encItems ht).trans (h ▸ hb)⟩
  obtain ⟨r, -, rfl⟩ := List.mem_map.mp ht
  exact lowTag_octets

theorem countRecords_eq_ok {size n : ℕ} {body : Slice} (hb : body.length ≤ 0xFFFF) :
    countRecords size body = .ok n ↔ ∃ records : List Slice, body = encItems (recordItems records) ∧
      (∀ r ∈ records, r.length = size) ∧ n = records.length := by
  have hstep (st : ℕ) (tlv : Tlv) (st' : ℕ) : (do
      refuseIf (tlv.tag ≠ Tag.octets) DfcModelStatus.malformed
      refuseIf (tlv.body.length ≠ size) DfcModelStatus.malformed
      pure (st + 1)) = Except.ok st' ↔
      ∃ r : Slice, tlv = ⟨Tag.octets, r⟩ ∧ r.length = size ∧ st' = st + 1 := by
    simp only [bind_eq_ok, refuseIf_eq_ok, pure_eq_ok, not_not]
    constructor
    · rintro ⟨_, htag, _, hl, rfl⟩
      exact ⟨tlv.body, by rw [← htag], hl, rfl⟩
    · rintro ⟨r, rfl, hl, rfl⟩
      exact ⟨(), rfl, (), hl, rfl⟩
  have hall (st : ℕ) (l : List Slice) :
      AllFrom (fun _ (r : Slice) => r.length = size) (fun n _ => n + 1) st l ↔
        ∀ r ∈ l, r.length = size := by
    induction l generalizing st with
    | nil => simp [AllFrom]
    | cons r l ih => rw [AllFrom, ih, List.forall_mem_cons]
  have hfold (st : ℕ) (l : List Slice) : l.foldl (fun n _ => n + 1) st = st + l.length := by
    induction l generalizing st with
    | nil => rfl
    | cons r l ih =>
      rw [List.foldl_cons, ih, List.length_cons]
      omega
  rw [countRecords, rWalk_loads _ (fun _ (r : Slice) => ⟨Tag.octets, r⟩)
    (fun _ (r : Slice) => r.length = size) (fun n _ => n + 1) hb (fun _ _ => lowTag_octets)
    fun st tlv st' _ => hstep st tlv st']
  simp only [itemsFrom_const, hall, hfold, Nat.zero_add, recordItems]

theorem copyRecords_eq_ok {dst : ℕ} {c : DfcCredential} {records : List Slice}
    (hb : (encItems (recordItems records)).length ≤ 0xFFFF) :
    copyRecords dst c (encItems (recordItems records)) =
      .ok { c with filePool := c.filePool.write dst records.flatten } := by
  have hr := encItems_recordItems_length hb rfl
  have hcopy : ∀ (l : List Slice) (c : DfcCredential) (off : ℕ),
      handleAll (fun (st : DfcCredential × ℕ) item =>
        (pure ({ st.1 with filePool := st.1.filePool.write (dst + st.2) item.body },
          st.2 + item.body.length) : Except DfcModelStatus (DfcCredential × ℕ)))
        (recordItems l) (c, off) =
      .ok ({ c with filePool := c.filePool.write (dst + off) l.flatten },
        off + l.flatten.length) := by
    intro l
    induction l with
    | nil => intro c off; simp [handleAll, recordItems]
    | cons r l ih =>
      intro c off
      have hcons : recordItems (r :: l) = ⟨Tag.octets, r⟩ :: recordItems l := rfl
      rw [hcons, handleAll]
      simp only [pure, Except.pure] at ih ⊢
      rw [ih, List.flatten_cons, ← Mem.write_append, List.length_append]
      simp only [Nat.add_assoc]
  rw [copyRecords, rWalk_encItems _ _ hr le_rfl, hcopy]
  simp [bind, Except.bind, pure, Except.pure]

theorem recordComponents_fields {size maxRecords count : ℕ} {complete : Bool}
    {records : List Slice} {body : Slice} (hb : body.length ≤ 0xFFFF) :
    body = encFields (contentsComponents (.record size maxRecords count complete records)) ↔
      ∃ f, rFields body recordOrder = some f ∧
        ∀ p ∈ contentsComponents (.record size maxRecords count complete records),
          fGet f p.1 = p.2 :=
  eq_encFields_iff rfl (by decide) (by decide) (by decide) hb

theorem length_flatten_of_forall {records : List Slice} {size : ℕ}
    (h : ∀ r ∈ records, r.length = size) : records.flatten.length = records.length * size := by
  induction records with
  | nil => simp
  | cons r records ih =>
    rw [List.forall_mem_cons] at h
    rw [List.flatten_cons, List.length_append, ih h.2, h.1, List.length_cons, Nat.succ_mul,
      Nat.add_comm]

theorem decodeRecordContents_eq_ok {c c' : DfcCredential} {i : ℕ} {body : Slice}
    (hb : body.length ≤ 0xFFFF) (hn : NoSlice (c.files i))
    (ht : dfcFileTypeIsRecord (c.files i).type = true) :
    decodeRecordContents c i body = .ok c' ↔ ∃ size maxRecords count complete records,
      body = encFields (contentsComponents (.record size maxRecords count complete records)) ∧
      (ContentsImage.record size maxRecords count complete records).Loadable c (c.files i).type ∧
      c' = loadContents c i (.record size maxRecords count complete records) := by
  simp only [recordComponents_fields hb]
  simp only [contentsComponents, List.forall_mem_cons, List.not_mem_nil,
    false_implies, implies_true, and_true]
  have hrecs (f : Fields) (hf : rFields body recordOrder = some f) (recs : Slice)
      (h : fGet f Tag.recRecords = some recs) : recs.length ≤ 0xFFFF :=
    (fGet_length (by decide) hf h).trans hb
  -- The part behind the counts: the slice is reserved and filled if there are records.
  have hstore (c₁ : DfcCredential) (hn : NoSlice (c₁.files i)) (records : List Slice) (size : ℕ)
      (hl : ∀ r ∈ records, r.length = size) (hpos : 0 < size)
      (hlen : (encItems (recordItems records)).length ≤ 0xFFFF) (c₂ : DfcCredential) :
      (if 0 < records.length then do
        let c ← orRefuse DfcModelStatus.capacity (dfcFileResize c₁ i (records.length * size))
        let dst ← orFail .capacity (dfcFileData c (c.files i))
        copyRecords dst c (encItems (recordItems records))
      else pure c₁) = .ok c₂ ↔ (records ≠ [] → SliceFits c₁ (records.length * size)) ∧
        c₂ = placeOctets c₁ i records.flatten := by
    have hflat := length_flatten_of_forall hl
    by_cases hnil : records = []
    · subst hnil
      simp only [List.length_nil, lt_irrefl, if_false, pure_eq_ok, ne_eq, not_true_eq_false,
        false_implies, true_and, placeOctets, List.flatten_nil, if_true]
      exact eq_comm
    · have hcount : 0 < records.length := List.length_pos_of_ne_nil hnil
      have hne : records.flatten ≠ [] := by
        intro h
        have hz := congrArg List.length h
        rw [hflat, List.length_nil] at hz
        have := Nat.mul_pos hcount hpos
        omega
      rw [if_pos hcount]
      simp only [bind_eq_ok, orRefuse_eq_ok, orFail_eq_ok, dfcFileResize_noSlice hn,
        copyRecords_eq_ok hlen, ne_eq, hnil, not_false_eq_true, forall_const]
      rw [← hflat]
      constructor
      · rintro ⟨c₃, ⟨hfit, rfl⟩, dst, hdst, hc₂⟩
        obtain ⟨hdata, hplace⟩ := cutSlice_write (i := i) hne hfit
        rw [hdata, Option.some.injEq] at hdst
        subst hdst
        rw [Except.ok.injEq, hplace] at hc₂
        exact ⟨hfit, hc₂.symm⟩
      · rintro ⟨hfit, rfl⟩
        obtain ⟨hdata, hplace⟩ := cutSlice_write (i := i) hne hfit
        exact ⟨_, ⟨hfit, rfl⟩, _, hdata, by rw [hplace]⟩
  simp only [decodeRecordContents, bind_eq_ok, orFail_eq_ok, refuseIf_eq_ok,
    rUint_eq_some dfcU24Max (by decide), rBool_eq_some, not_lt, not_and]
  constructor
  · rintro ⟨f, hf, size, ⟨h₁, l₁⟩, _, hpos, maxRecords, ⟨h₂, l₂⟩, _, hpos', count, ⟨h₃, l₃⟩, _,
      hcount, _, hcyclic, complete, h₄, recs, h₅, stored, hstored, _, hle, _, hall, h⟩
    obtain ⟨records, rfl, hl, rfl⟩ := (countRecords_eq_ok (hrecs f hf recs h₅)).mp hstored
    obtain ⟨hfit, rfl⟩ := (hstore _ (by
      simpa [DfcCredential.modifyFile, DfcFile.withComplete, DfcFile.withRecord, NoSlice] using hn)
      records size hl (by omega) (hrecs f hf _ h₅) _).mp h
    refine ⟨size, maxRecords, count, complete, records, ⟨f, hf, h₁, h₂, h₃, h₄, h₅⟩,
      ⟨ht, by omega, l₁, by omega, l₂, hcount, hcyclic, hl, hle, ?_, hfit⟩, rfl⟩
    intro hc
    simpa using hall hc
  · rintro ⟨size, maxRecords, count, complete, records, ⟨f, hf, h₁, h₂, h₃, h₄, h₅⟩,
      ⟨-, hpos, l₁, hpos', l₂, hcount, hcyclic, hl, hle, hall, hfit⟩, hc'⟩
    refine ⟨f, hf, size, ⟨h₁, l₁⟩, (), by omega, maxRecords, ⟨h₂, l₂⟩, (), by omega, count,
      ⟨h₃, by omega⟩, (), hcount, (), hcyclic, complete, h₄, _, h₅, records.length,
      (countRecords_eq_ok (hrecs f hf _ h₅)).mpr ⟨records, rfl, hl, rfl⟩, (), hle, (), ?_, ?_⟩
    · intro hc
      simpa using hall hc
    · refine (hstore _ ?_ records size hl hpos (hrecs f hf _ h₅) _).mpr ⟨hfit, hc'⟩
      simpa [DfcCredential.modifyFile, DfcFile.withComplete, DfcFile.withRecord, NoSlice] using hn

theorem octet_record_type (t : UInt8) (h : t.toNat ≤ dfcFileTypeTransactionMac.toNat)
    (hd : dfcFileTypeIsData t = false) (hv : (t == dfcFileTypeValue) = false)
    (hm : (t == dfcFileTypeTransactionMac) = false) : dfcFileTypeIsRecord t = true := by
  revert t
  exact forall_octet (by decide +kernel)

/-- The kinds of contents by file type. -/
theorem contents_kind (t : UInt8) :
    (dfcFileTypeIsData t = true → (t == dfcFileTypeValue) = false ∧
      (t == dfcFileTypeTransactionMac) = false ∧ dfcFileTypeIsRecord t = false) ∧
    (dfcFileTypeIsRecord t = true → dfcFileTypeIsData t = false ∧
      (t == dfcFileTypeValue) = false ∧ (t == dfcFileTypeTransactionMac) = false) := by
  revert t
  exact forall_octet (by decide +kernel)

/-- The identifiers of the four alternatives. -/
def contentsTags : List UInt8 := [Tag.fileData, Tag.fileValue, Tag.fileRecord, Tag.fileTmac]

/-- The identifier the type of a file selects. -/
def contentsTagFor (type : UInt8) : UInt8 :=
  if dfcFileTypeIsData type then Tag.fileData
  else if type == dfcFileTypeValue then Tag.fileValue
  else if type == dfcFileTypeTransactionMac then Tag.fileTmac
  else Tag.fileRecord

theorem contentsAlternatives_iff {f : Fields} {x : ContentsImage} :
    (∀ p ∈ contentsAlternatives x, fGet f p.1 = p.2) ↔
      fGet f x.tag = some (encFields (contentsComponents x)) ∧
        ∀ t ∈ contentsTags, t ≠ x.tag → fGet f t = none := by
  have hx : x.tag ∈ contentsTags := by
    cases x <;> simp [ContentsImage.tag, contentsTags]
  have hmap : contentsAlternatives x = contentsTags.map fun t => (t, contentsField t x) := rfl
  rw [hmap, List.forall_mem_map]
  constructor
  · intro h
    refine ⟨?_, fun t ht hne => ?_⟩
    · rw [h x.tag hx, contentsField, if_pos rfl]
    · rw [h t ht, contentsField, if_neg hne.symm]
  · rintro ⟨h, hother⟩ t ht
    by_cases hne : t = x.tag
    · rw [hne, h, contentsField, if_pos rfl]
    · rw [hother t ht hne, contentsField, if_neg (Ne.symm hne)]

/-- The contents are there under one identifier. -/
def OneAlternative (f : Fields) (tag : UInt8) (body : Slice) : Prop :=
  fGet f tag = some body ∧ ∀ t ∈ contentsTags, t ≠ tag → fGet f t = none

/-- How many of the alternatives are there, as `decode_file` counts them. -/
def alternativesPresent (f : Fields) : ℕ :=
  (if (fGet f Tag.fileData).isSome then 1 else 0) +
    (if (fGet f Tag.fileValue).isSome then 1 else 0) +
    (if (fGet f Tag.fileRecord).isSome then 1 else 0) +
    (if (fGet f Tag.fileTmac).isSome then 1 else 0)

theorem alternatives_count {f : Fields} {tag : UInt8} {body : Slice} (ht : tag ∈ contentsTags) :
    ¬alternativesPresent f ≠ 1 ∧ fGet f tag = some body ↔ OneAlternative f tag body := by
  unfold alternativesPresent
  simp only [contentsTags, List.mem_cons, List.not_mem_nil, or_false] at ht
  simp only [OneAlternative, contentsTags, List.forall_mem_cons, List.not_mem_nil, false_implies,
    implies_true, and_true, not_not]
  have hdv : Tag.fileData ≠ Tag.fileValue := by decide
  have hdr : Tag.fileData ≠ Tag.fileRecord := by decide
  have hdt : Tag.fileData ≠ Tag.fileTmac := by decide
  have hvr : Tag.fileValue ≠ Tag.fileRecord := by decide
  have hvt : Tag.fileValue ≠ Tag.fileTmac := by decide
  have hrt : Tag.fileRecord ≠ Tag.fileTmac := by decide
  rcases ht with rfl | rfl | rfl | rfl <;>
    cases h₁ : fGet f Tag.fileData <;> cases h₂ : fGet f Tag.fileValue <;>
    cases h₃ : fGet f Tag.fileRecord <;> cases h₄ : fGet f Tag.fileTmac <;>
    simp [hdv, hdr, hdt, hvr, hvt, hrt, hdv.symm, hdr.symm, hdt.symm, hvr.symm, hvt.symm, hrt.symm]

/-- Contents are stored under the tag of the file's type. -/
theorem ContentsImage.Loadable.tag_eq {c : DfcCredential} {type : UInt8} {x : ContentsImage}
    (h : x.Loadable c type) : x.tag = contentsTagFor type := by
  obtain ⟨-, hrecord⟩ := contents_kind type
  cases x with
  | data => simp only [ContentsImage.tag, contentsTagFor, h.1, if_true]
  | value =>
    rw [ContentsImage.Loadable] at h
    rw [h.1]
    rfl
  | record =>
    obtain ⟨h₁, h₂, h₃⟩ := hrecord h.1
    simp only [ContentsImage.tag, contentsTagFor, h₁, h₂, h₃, Bool.false_eq_true, if_false]
  | transactionMac =>
    rw [ContentsImage.Loadable] at h
    rw [h.1]
    rfl

/-- The body of the contents under `tag` is that of an image which is loaded. -/
def StoresContents (c c' : DfcCredential) (i : ℕ) (tag : UInt8) (body : Slice) : Prop :=
  ∃ x : ContentsImage, x.tag = tag ∧ body = encFields (contentsComponents x) ∧
    x.Loadable c (c.files i).type ∧ c' = loadContents c i x

section
variable {c c' : DfcCredential} {i : ℕ} {f : Fields} {body : Slice}

theorem decodeDataContents_stores (hb : body.length ≤ 0xFFFF) (hn : NoSlice (c.files i))
    (hd : dfcFileTypeIsData (c.files i).type = true) :
    decodeDataContents c i body = .ok c' ↔ StoresContents c c' i Tag.fileData body := by
  rw [decodeDataContents_eq_ok hb hn hd]
  constructor
  · rintro ⟨size, known, complete, h⟩
    exact ⟨.data size known complete, rfl, h⟩
  · rintro ⟨x, hx, h⟩
    cases x with
    | data size known complete => exact ⟨size, known, complete, h⟩
    | _ => simp [ContentsImage.tag, Tag.fileData, Tag.fileValue, Tag.fileRecord, Tag.fileTmac] at hx

theorem decodeValueContents_stores (hb : body.length ≤ 0xFFFF)
    (hv : (c.files i).type = dfcFileTypeValue) :
    decodeValueContents c i body = .ok c' ↔ StoresContents c c' i Tag.fileValue body := by
  rw [decodeValueContents_eq_ok hb hv]
  constructor
  · rintro ⟨lower, upper, current, limited, limit, h⟩
    exact ⟨.value lower upper current limited limit, rfl, h⟩
  · rintro ⟨x, hx, h⟩
    cases x with
    | value lower upper current limited limit =>
      exact ⟨lower, upper, current, limited, limit, h⟩
    | _ => simp [ContentsImage.tag, Tag.fileData, Tag.fileValue, Tag.fileRecord, Tag.fileTmac] at hx

theorem decodeTransactionMacContents_stores (hb : body.length ≤ 0xFFFF)
    (hm : (c.files i).type = dfcFileTypeTransactionMac) :
    decodeTransactionMacContents c i body = .ok c' ↔ StoresContents c c' i Tag.fileTmac body := by
  rw [decodeTransactionMacContents_eq_ok hb hm]
  constructor
  · rintro ⟨counter, mac, keyType, keyVersion, key, readerId, h⟩
    exact ⟨.transactionMac counter mac keyType keyVersion key readerId, rfl, h⟩
  · rintro ⟨x, hx, h⟩
    cases x with
    | transactionMac counter mac keyType keyVersion key readerId =>
      exact ⟨counter, mac, keyType, keyVersion, key, readerId, h⟩
    | _ => simp [ContentsImage.tag, Tag.fileData, Tag.fileValue, Tag.fileRecord, Tag.fileTmac] at hx

theorem decodeRecordContents_stores (hb : body.length ≤ 0xFFFF) (hn : NoSlice (c.files i))
    (hr : dfcFileTypeIsRecord (c.files i).type = true) :
    decodeRecordContents c i body = .ok c' ↔ StoresContents c c' i Tag.fileRecord body := by
  rw [decodeRecordContents_eq_ok hb hn hr]
  constructor
  · rintro ⟨size, maxRecords, count, complete, records, h⟩
    exact ⟨.record size maxRecords count complete records, rfl, h⟩
  · rintro ⟨x, hx, h⟩
    cases x with
    | record size maxRecords count complete records =>
      exact ⟨size, maxRecords, count, complete, records, h⟩
    | _ => simp [ContentsImage.tag, Tag.fileData, Tag.fileValue, Tag.fileRecord, Tag.fileTmac] at hx

/-- One kind of file: the branch of the decoder and the shape of the image. -/
theorem decodeContents_kind {tag : UInt8} {dec : Slice → Except DfcModelStatus DfcCredential}
    (hlen : ∀ tag b, fGet f tag = some b → b.length ≤ 0xFFFF) (hmem : tag ∈ contentsTags)
    (htag : contentsTagFor (c.files i).type = tag)
    (hdec : decodeContents c i f = .ok c' ↔
      ¬alternativesPresent f ≠ 1 ∧ ∃ body, fGet f tag = some body ∧ dec body = .ok c')
    (hok : ∀ body : Slice, body.length ≤ 0xFFFF →
      (dec body = .ok c' ↔ StoresContents c c' i tag body)) :
    decodeContents c i f = .ok c' ↔ ∃ x : ContentsImage,
      (fGet f x.tag = some (encFields (contentsComponents x)) ∧
        ∀ t ∈ contentsTags, t ≠ x.tag → fGet f t = none) ∧
      x.Loadable c (c.files i).type ∧ c' = loadContents c i x := by
  rw [hdec]
  constructor
  · rintro ⟨hcount, body, hbody, hd⟩
    obtain ⟨x, rfl, rfl, hx, hc'⟩ := (hok body (hlen _ _ hbody)).mp hd
    exact ⟨x, (alternatives_count hmem).mp ⟨hcount, hbody⟩, hx, hc'⟩
  · rintro ⟨x, hone, hx, hc'⟩
    obtain rfl := hx.tag_eq.trans htag
    obtain ⟨hcount, hbody⟩ := (alternatives_count hmem).mpr hone
    exact ⟨hcount, _, hbody, (hok _ (hlen _ _ hbody)).mpr ⟨x, rfl, rfl, hx, hc'⟩⟩

theorem decodeContents_eq_ok
    (hlen : ∀ tag b, fGet f tag = some b → b.length ≤ 0xFFFF) (hn : NoSlice (c.files i))
    (ht : (c.files i).type.toNat ≤ dfcFileTypeTransactionMac.toNat) :
    decodeContents c i f = .ok c' ↔ ∃ x : ContentsImage,
      (∀ p ∈ contentsAlternatives x, fGet f p.1 = p.2) ∧ x.Loadable c (c.files i).type ∧
        c' = loadContents c i x := by
  simp only [contentsAlternatives_iff]
  cases hd : dfcFileTypeIsData (c.files i).type with
  | true =>
    refine decodeContents_kind hlen (by decide) ?_ ?_
      fun body hb => decodeDataContents_stores hb hn hd
    · simp only [contentsTagFor, hd, if_true]
    · simp only [decodeContents, bind_eq_ok, refuseIf_eq_ok, orFail_eq_ok, hd, if_true,
        exists_const, alternativesPresent]
  | false =>
    cases hv : (c.files i).type == dfcFileTypeValue with
    | true =>
      refine decodeContents_kind hlen (by decide) ?_ ?_
        fun body hb => decodeValueContents_stores hb (by simpa using hv)
      · simp only [contentsTagFor, hd, hv, Bool.false_eq_true, if_true, if_false]
      · simp only [decodeContents, bind_eq_ok, refuseIf_eq_ok, orFail_eq_ok, hd, hv, if_true,
          Bool.false_eq_true, if_false, exists_const, alternativesPresent]
    | false =>
      cases hm : (c.files i).type == dfcFileTypeTransactionMac with
      | true =>
        refine decodeContents_kind hlen (by decide) ?_ ?_
          fun body hb => decodeTransactionMacContents_stores hb (by simpa using hm)
        · simp only [contentsTagFor, hd, hv, hm, Bool.false_eq_true, if_true, if_false]
        · simp only [decodeContents, bind_eq_ok, refuseIf_eq_ok, orFail_eq_ok, hd, hv, hm, if_true,
            Bool.false_eq_true, if_false, exists_const, alternativesPresent]
      | false =>
        refine decodeContents_kind hlen (by decide) ?_ ?_
          fun body hb => decodeRecordContents_stores hb hn (octet_record_type _ ht hd hv hm)
        · simp only [contentsTagFor, hd, hv, hm, Bool.false_eq_true, if_false]
        · simp only [decodeContents, bind_eq_ok, refuseIf_eq_ok, orFail_eq_ok, hd, hv, hm,
            Bool.false_eq_true, if_false, exists_const, alternativesPresent]

end

/-- The record a decoded file starts from. -/
def newFile (owner : ℕ) (x : FileImage) : DfcFile :=
  { appIndex := u8 owner, number := x.number, type := x.type
    dataOffset := dfcFilePoolNone, commSettings := x.commSettings, accessRights := x.accessRights
    hasIsoFileId := x.isoFileId.isSome, isoFileId := x.isoFileId.getD 0 }

/-- The secure dynamic messaging of the file at `i`. -/
def loadSdm (c : DfcCredential) (i : ℕ) (sdm : Option SdmImage) : DfcCredential :=
  match sdm with
  | none => c
  | some s => c.modifyFile i fun file => storeSdm file s

/-- What the decoder makes of a file. -/
def loadFile (owner : ℕ) (c : DfcCredential) (x : FileImage) : DfcCredential :=
  let c := c.modifyFile c.numFiles fun _ => newFile owner x
  countFile (loadSdm (loadContents c c.numFiles x.contents) c.numFiles x.sdm)

structure FileImage.Loadable (owner : ℕ) (c : DfcCredential) (x : FileImage) : Prop where
  number : x.number.toNat ≤ dfcEv1MaxFileNumber
  type : x.type.toNat ≤ dfcFileTypeTransactionMac.toNat
  room : c.numFiles < dfcMaxFiles
  fresh : ¬∃ j < c.numFiles, (c.files j).appIndex = owner ∧ (c.files j).number = x.number
  isoFileId : ∀ id ∈ x.isoFileId, dfcIsoFileIdIsReserved id = false
  contents : x.contents.Loadable c x.type
  sdm : ∀ s ∈ x.sdm, x.type = dfcFileTypeStandardData ∧ s.Loadable

theorem fileComponents_fields {x : FileImage} {body : Slice} (hb : body.length ≤ 0xFFFF) :
    body = encFields (fileComponents x) ↔
      ∃ f, rFields body fileOrder = some f ∧ ∀ p ∈ fileComponents x, fGet f p.1 = p.2 :=
  eq_encFields_iff rfl (by decide) (by decide) (by decide) hb

theorem placeOctets_numFiles (c : DfcCredential) (i : ℕ) (octets : Slice) :
    (placeOctets c i octets).numFiles = c.numFiles := by
  rw [placeOctets]
  split_ifs <;> rfl

theorem loadContents_numFiles (c : DfcCredential) (i : ℕ) (x : ContentsImage) :
    (loadContents c i x).numFiles = c.numFiles := by
  cases x with
  | data => rw [loadContents, placeOctets_numFiles]; rfl
  | value => rfl
  | record => rw [loadContents, placeOctets_numFiles]; rfl
  | transactionMac => rfl

theorem placeOctets_file (c : DfcCredential) (i : ℕ) (octets : Slice) :
    ((placeOctets c i octets).files i).type = (c.files i).type := by
  rw [placeOctets]
  split_ifs
  · rfl
  · simp [DfcCredential.modifyFile]

theorem loadContents_type (c : DfcCredential) (i : ℕ) (x : ContentsImage) :
    ((loadContents c i x).files i).type = (c.files i).type := by
  cases x with
  | data =>
    rw [loadContents, placeOctets_file]
    simp [DfcCredential.modifyFile, DfcFile.withComplete, DfcFile.withData]
  | value => simp [loadContents, DfcCredential.modifyFile, DfcFile.withValue]
  | record =>
    rw [loadContents, placeOctets_file]
    simp [DfcCredential.modifyFile, DfcFile.withComplete, DfcFile.withRecord]
  | transactionMac => simp [loadContents, DfcCredential.modifyFile, DfcFile.withTransactionMac]

theorem decodeFileSdm_eq_ok {c c' : DfcCredential} {i : ℕ} {field : Option Slice}
    (hlen : ∀ b, field = some b → b.length ≤ 0xFFFF) :
    decodeFileSdm c i field = .ok c' ↔ ∃ sdm : Option SdmImage,
      field = sdm.map (fun s => encFields (sdmComponents s)) ∧
      (∀ s ∈ sdm, (c.files i).type = dfcFileTypeStandardData ∧ s.Loadable) ∧
      c' = loadSdm c i sdm := by
  cases field with
  | none =>
    simp only [decodeFileSdm, pure_eq_ok]
    constructor
    · rintro rfl
      exact ⟨none, rfl, by simp, rfl⟩
    · rintro ⟨sdm, hsdm, -, rfl⟩
      have hnone : sdm = none := by simpa using hsdm.symm
      rw [hnone]
      rfl
  | some body =>
    simp only [decodeFileSdm, bind_eq_ok, refuseIf_eq_ok, pure_eq_ok, not_not,
      decodeSdm_eq_ok (hlen body rfl)]
    have hmod (s : SdmImage) : (c.modifyFile i fun _ => storeSdm (c.files i) s) =
        loadSdm c i (some s) := by
      rw [loadSdm, DfcCredential.modifyFile, DfcCredential.modifyFile]
    constructor
    · rintro ⟨_, ht, file, ⟨s, rfl, hs, hfile⟩, rfl⟩
      refine ⟨some s, rfl, ?_, by rw [hfile, hmod]⟩
      intro s' hs'
      rw [Option.mem_some_iff] at hs'
      exact hs' ▸ ⟨ht, hs⟩
    · rintro ⟨sdm, hsdm, hall, rfl⟩
      obtain ⟨s, rfl, hs⟩ := Option.map_eq_some_iff.mp hsdm.symm
      obtain ⟨ht, hload⟩ := hall s rfl
      exact ⟨(), ht, _, ⟨s, hs.symm, hload, rfl⟩, by rw [hmod]⟩

theorem forall_mem_fileComponents {x : FileImage} {f : Fields} :
    (∀ p ∈ fileComponents x, fGet f p.1 = p.2) ↔
      fGet f Tag.fileNumber = intField x.number.toNat ∧
      fGet f Tag.fileType = intField x.type.toNat ∧
      fGet f Tag.fileComm = octetField x.commSettings ∧
      fGet f Tag.fileRights = some (u16Octets x.accessRights) ∧
      fGet f Tag.fileIsoFid = x.isoFileId.map u16Octets ∧
      (∀ p ∈ contentsAlternatives x.contents, fGet f p.1 = p.2) ∧
      fGet f Tag.fileSdm = x.sdm.map fun s => encFields (sdmComponents s) := by
  simp only [fileComponents, List.forall_mem_append, List.forall_mem_cons, List.not_mem_nil,
    false_implies, implies_true, and_true, and_assoc]

theorem any_isReserved {o : Option UInt16} :
    ¬o.any dfcIsoFileIdIsReserved = true ↔ ∀ id ∈ o, dfcIsoFileIdIsReserved id = false := by
  cases o <;> simp

theorem decodeFile_eq_ok {owner : ℕ} {c c' : DfcCredential} {body : Slice}
    (hb : body.length ≤ 0xFFFF) :
    decodeFile owner c body = .ok c' ↔
      ∃ x : FileImage, body = encFields (fileComponents x) ∧ x.Loadable owner c ∧
        c' = loadFile owner c x := by
  simp only [fileComponents_fields hb, forall_mem_fileComponents]
  simp only [decodeFile, bind_eq_ok, orFail_eq_ok, refuseIf_eq_ok, pure_eq_ok, rOctet_eq_some,
    rU16_eq_some, rOptional_u16, rUint_eq_some dfcEv1MaxFileNumber (by decide),
    rUint_eq_some 0xFF (by decide), not_lt, not_le, any_isReserved]
  have hstart (x : FileImage) :
      (c.modifyFile c.numFiles fun _ => newFile owner x).files c.numFiles =
      newFile owner x := by
    simp [DfcCredential.modifyFile]
  have hcontents (x : FileImage) (ht : x.type.toNat ≤ dfcFileTypeTransactionMac.toNat) (f : Fields)
      (hf : rFields body fileOrder = some f) (c₂ : DfcCredential) :
      decodeContents (c.modifyFile c.numFiles fun _ => newFile owner x) c.numFiles f = .ok c₂ ↔
        ∃ y : ContentsImage, (∀ p ∈ contentsAlternatives y, fGet f p.1 = p.2) ∧
          y.Loadable c x.type ∧
          c₂ = loadContents (c.modifyFile c.numFiles fun _ => newFile owner x) c.numFiles y := by
    have hlen : ∀ tag b, fGet f tag = some b → b.length ≤ 0xFFFF := fun tag b h =>
      (fGet_length (by decide) hf h).trans hb
    rw [decodeContents_eq_ok hlen (by rw [hstart]; exact ⟨rfl, rfl⟩) (by rw [hstart]; exact ht),
      hstart]
    rfl
  constructor
  · rintro ⟨f, hf, number, ⟨h₁, l₁⟩, type, ⟨h₂, l₂⟩, _, ht, _, hroom, _, hfresh, comm,
      h₃, rights, h₄, fid, h₅, _, hfid, c₂, hc₂, c₃, hc₃, hc'⟩
    have hnum : (UInt8.ofNat number).toNat = number := toNat_ofNat_octet l₁ (by decide)
    have htype : (UInt8.ofNat type).toNat = type := toNat_ofNat_octet l₂ le_rfl
    let start (y : ContentsImage) : FileImage :=
      ⟨UInt8.ofNat number, UInt8.ofNat type, comm, rights, fid, y, none⟩
    obtain ⟨y, hy, hload, hc₂⟩ := (hcontents (start (.data 0 [] false)) (by
      dsimp only [start]; rw [htype]; exact ht) f hf c₂).mp hc₂
    have htype₂ : (c₂.files c.numFiles).type = UInt8.ofNat type := by
      rw [hc₂, loadContents_type, hstart]
      rfl
    obtain ⟨sdm, hsdm, hall, hc₃⟩ := (decodeFileSdm_eq_ok fun b h =>
      (fGet_length (by decide) hf h).trans hb).mp hc₃
    rw [htype₂] at hall
    refine ⟨⟨UInt8.ofNat number, UInt8.ofNat type, comm, rights, fid, y, sdm⟩,
      ⟨f, hf, ?_, ?_, h₃, h₄, h₅, hy, hsdm⟩, ⟨?_, ?_, hroom, hfresh, hfid, hload, hall⟩, ?_⟩
    · rw [hnum]; exact h₁
    · rw [htype]; exact h₂
    · rw [hnum]; exact l₁
    · rw [htype]; exact ht
    · rw [← hc', hc₃, hc₂]
      rfl
  · rintro ⟨x, ⟨f, hf, h₁, h₂, h₃, h₄, h₅, h₆, h₇⟩, hx, hc'⟩
    have hnum : UInt8.ofNat x.number.toNat = x.number := UInt8.ofNat_toNat
    have htype : UInt8.ofNat x.type.toNat = x.type := UInt8.ofNat_toNat
    have htlt := x.type.toNat_lt
    let c₂ := loadContents (c.modifyFile c.numFiles fun _ => newFile owner x) c.numFiles x.contents
    have htype₂ : (c₂.files c.numFiles).type = x.type := by
      rw [loadContents_type, hstart]
      rfl
    refine ⟨f, hf, _, ⟨h₁, hx.number⟩, _, ⟨h₂, by omega⟩, (), hx.type, (), hx.room,
      (), ?_, _, h₃, _, h₄, _, h₅, (), hx.isoFileId, c₂, ?_, loadSdm c₂ c.numFiles x.sdm, ?_, ?_⟩
    · rw [hnum]
      exact hx.fresh
    · rw [hnum, htype]
      exact (hcontents x hx.type f hf c₂).mpr ⟨x.contents, h₆, hx.contents, rfl⟩
    · refine (decodeFileSdm_eq_ok fun b h => (fGet_length (by decide) hf h).trans hb).mpr
        ⟨x.sdm, h₇, ?_, rfl⟩
      rw [htype₂]
      exact hx.sdm
    · rw [hc']
      rfl

/-- A list of files is decoded one after the other. -/
theorem decodeFiles_eq_ok {owner : ℕ} {c c' : DfcCredential} {body : Slice}
    (hb : body.length ≤ 0xFFFF) :
    decodeFiles owner c body = .ok c' ↔ ∃ files : List FileImage,
      body = encItems (fileItems files) ∧
      AllFrom (fun c x => FileImage.Loadable owner c x) (loadFile owner) c files ∧
      c' = files.foldl (loadFile owner) c := by
  have hstep (c : DfcCredential) (tlv : Tlv) (c' : DfcCredential) (hr : tlv.Readable) : (do
      refuseIf (tlv.tag ≠ Tag.sequence) DfcModelStatus.malformed
      decodeFile owner c tlv.body) = .ok c' ↔
      ∃ x : FileImage, tlv = sequenceItem (fileComponents x) ∧ x.Loadable owner c ∧
        c' = loadFile owner c x := by
    simp only [bind_eq_ok, refuseIf_eq_ok, not_not, decodeFile_eq_ok hr.2]
    constructor
    · rintro ⟨_, htag, x, hbody, h⟩
      exact ⟨x, by rw [sequenceItem, ← hbody, ← htag], h⟩
    · rintro ⟨x, rfl, h⟩
      exact ⟨(), rfl, x, rfl, h⟩
  rw [decodeFiles, rWalk_loads _ (fun _ x => sequenceItem (fileComponents x))
    (fun c x => FileImage.Loadable owner c x) (loadFile owner) hb
    (fun _ _ => lowTag_sequence) hstep]
  simp only [itemsFrom_const, fileItems]

end DfcCore
