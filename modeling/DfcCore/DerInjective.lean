import DfcCore.DerLoadCredential

/-!
# One image for an encoding

Two images with the same octets are the same. An INTEGER has at most eight octets, so this
holds as long as the counts of the images fit them.
-/
namespace DfcCore
open Der

theorem components_eq {l l' : Components} (order : List UInt8) (ho : l.map Prod.fst = order)
    (ho' : l'.map Prod.fst = order) (hn : order.Nodup) (hlow : order.all fun t => LowTag t)
    (hl : order.length ≤ 17) (hs : (encFields l).length ≤ 0xFFFF)
    (h : encFields l = encFields l') : l = l' := by
  subst ho
  exact encFields_injective hn (by simpa using hlow) (by simpa using hl) hs ho'.symm h

/-- A count that an INTEGER can hold. -/
def IntSized (n : ℕ) : Prop := n < 2 ^ 63

theorem intField_nat_injective {m n : ℕ} (hm : IntSized m) (hn : IntSized n)
    (h : intField m = intField n) : m = n := by
  rw [IntSized] at hm hn
  have := encInt_injective (by omega) (by omega) (by omega) (by omega) (Option.some.inj h)
  omega

theorem encInt_octet_injective {a b : UInt8} (h : encInt a.toNat = encInt b.toNat) : a = b := by
  have ha := a.toNat_lt
  have hb := b.toNat_lt
  have := encInt_injective (by omega) (by omega) (by omega) (by omega) h
  exact UInt8.toNat_inj.mp (by omega)

theorem encInt_u16_injective {a b : UInt16} (h : encInt a.toNat = encInt b.toNat) : a = b := by
  have ha := a.toNat_lt
  have hb := b.toNat_lt
  have := encInt_injective (by omega) (by omega) (by omega) (by omega) h
  exact UInt16.toNat_inj.mp (by omega)

theorem encInt_u32_injective {a b : UInt32} (h : encInt a.toNat = encInt b.toNat) : a = b := by
  have ha := a.toNat_lt
  have hb := b.toNat_lt
  have := encInt_injective (by omega) (by omega) (by omega) (by omega) h
  exact UInt32.toNat_inj.mp (by omega)

theorem encInt_i32_injective {a b : Int32} (h : encInt a.toInt = encInt b.toInt) : a = b := by
  have h₁ := a.le_toInt
  have h₂ := a.toInt_lt
  have h₃ := b.le_toInt
  have h₄ := b.toInt_lt
  exact Int32.toInt_inj.mp
    (encInt_injective (by omega) (by omega) (by omega) (by omega) h)

theorem u16Octets_injective {a b : UInt16} (h : u16Octets a = u16Octets b) : a = b := by
  rw [← join_u16Octets a, ← join_u16Octets b, h]

theorem encBool_injective {a b : Bool} (h : encBool a = encBool b) : a = b := by
  cases a <;> cases b <;> simp [encBool] at h ⊢

theorem defaultFalseField_injective {a b : Bool} (h : defaultFalseField a = defaultFalseField b) :
    a = b := by
  rw [← isSome_defaultFalseField a, h, isSome_defaultFalseField]

theorem nonemptyField_injective {a b : Slice} (h : nonemptyField a = nonemptyField b) : a = b := by
  rw [← getD_nonemptyField a, h, getD_nonemptyField]

theorem map_singleton_injective {a b : Option UInt8}
    (h : (a.map fun b => ([b] : Slice)) = b.map fun b => [b]) : a = b :=
  Option.map_injective (fun _ _ h => List.singleton_injective h) h

theorem map_encInt_injective {a b : Option UInt8}
    (h : (a.map fun b => encInt b.toNat) = b.map fun b => encInt b.toNat) : a = b :=
  Option.map_injective (fun _ _ h => encInt_octet_injective h) h

theorem offsetField_injective {a b : Option UInt32} (h : offsetField a = offsetField b) : a = b :=
  Option.map_injective (fun _ _ h => encInt_u32_injective h) h

theorem map_u16Octets_injective {a b : Option UInt16} (h : a.map u16Octets = b.map u16Octets) :
    a = b :=
  Option.map_injective (fun _ _ h => u16Octets_injective h) h

/-- Optional groups with injective encodings. -/
theorem map_components_injective {α : Type} {components : α → Components} {p : α → Prop}
    (hinj : ∀ a b, p a → p b → (encFields (components a)).length ≤ 0xFFFF →
      encFields (components a) = encFields (components b) → a = b)
    {a b : Option α} (ha : ∀ x ∈ a, p x) (hb : ∀ x ∈ b, p x)
    (hlen : ∀ s, a.map (fun x => encFields (components x)) = some s → s.length ≤ 0xFFFF)
    (h : a.map (fun x => encFields (components x)) = b.map fun x => encFields (components x)) :
    a = b := by
  cases a with
  | none => cases b <;> simp_all
  | some x =>
    cases b with
    | none => simp at h
    | some y =>
      simp only [Option.map_some, Option.some.injEq] at h
      rw [hinj x y (ha x rfl) (hb y rfl) (hlen _ rfl) h]

/-- Lists of sequences with injective encodings. -/
theorem map_sequence_injective {α : Type} {components : α → Components} {p : α → Prop}
    (hinj : ∀ a b, p a → p b → (encFields (components a)).length ≤ 0xFFFF →
      encFields (components a) = encFields (components b) → a = b)
    {l l' : List α} (hl : ∀ x ∈ l, p x) (hl' : ∀ x ∈ l', p x)
    (hs : (encItems (l.map fun x => sequenceItem (components x))).length ≤ 0xFFFF)
    (h : encItems (l.map fun x => sequenceItem (components x)) =
      encItems (l'.map fun x => sequenceItem (components x))) : l = l' := by
  have htag (m : List α) : ∀ t ∈ m.map (fun x => sequenceItem (components x)),
      t.tag = Tag.sequence := by
    intro t ht
    obtain ⟨x, -, rfl⟩ := List.mem_map.mp ht
    rfl
  have hr := readable_sequence (htag l) hs
  have hitems := encItems_injective hr (readable_sequence (htag l') (h ▸ hs)) h
  clear h hs
  induction l generalizing l' with
  | nil => cases l' <;> simp_all
  | cons x l ih =>
    cases l' with
    | nil => simp at hitems
    | cons y l' =>
      rw [List.forall_mem_cons] at hl hl'
      simp only [List.map_cons, List.cons.injEq, sequenceItem, Tlv.mk.injEq, true_and] at hitems
      have hx := (hr _ List.mem_cons_self).2
      rw [hinj x y hl.1 hl'.1 hx hitems.1,
        ih hl.2 hl'.2 (fun t ht => hr t (List.mem_cons_of_mem _ ht))
        hitems.2]

theorem keyComponents_injective {n : ℕ} {k k' : KeyImage}
    (hs : (encFields (keyComponents n k)).length ≤ 0xFFFF)
    (h : encFields (keyComponents n k) = encFields (keyComponents n k')) : k = k' := by
  have heq := components_eq keyOrder rfl rfl (by decide) (by decide) (by decide) hs h
  simp only [keyComponents, List.cons.injEq, Prod.mk.injEq, true_and, and_true, octetField,
    Option.some.injEq] at heq
  cases k
  cases k'
  simp_all

theorem keyItems_injective {keys keys' : List KeyImage} {n : ℕ}
    (hr : ∀ t ∈ keyItems n keys, t.Readable) (h : keyItems n keys = keyItems n keys') :
    keys = keys' := by
  induction keys generalizing keys' n with
  | nil => cases keys' <;> simp_all [keyItems]
  | cons k keys ih =>
    cases keys' with
    | nil => simp [keyItems] at h
    | cons k' keys' =>
      simp only [keyItems, List.cons.injEq, sequenceItem, Tlv.mk.injEq, true_and] at h
      rw [keyItems, List.forall_mem_cons] at hr
      rw [keyComponents_injective hr.1.2 h.1, ih hr.2 h.2]

theorem encKeys_injective {keys keys' : List KeyImage} (hs : (encKeys keys).length ≤ 0xFFFF)
    (h : encKeys keys = encKeys keys') : keys = keys' := by
  have hr := readable_sequence (tag_keyItems 0 keys) hs
  have hr' := readable_sequence (tag_keyItems 0 keys') (by rw [← encKeys, ← h]; exact hs)
  exact keyItems_injective hr (encItems_injective hr hr' h)

theorem keySetComponents_injective {n : ℕ} {s s' : KeySetImage}
    (hs : (encFields (keySetComponents n s)).length ≤ 0xFFFF)
    (h : encFields (keySetComponents n s) = encFields (keySetComponents n s')) : s = s' := by
  have heq := components_eq keySetOrder rfl rfl (by decide) (by decide) (by decide) hs h
  have hkeys : (encKeys s.keys).length ≤ 0xFFFF :=
    (length_le_encFields Tag.setKeys (by simp [keySetComponents])).trans hs
  simp only [keySetComponents, List.cons.injEq, Prod.mk.injEq, true_and, and_true, octetField,
    boolField, intField, Option.some.injEq] at heq
  obtain ⟨h₁, h₂, h₃, h₄⟩ := heq
  have h₅ := encKeys_injective hkeys h₄
  have h₆ := encInt_octet_injective h₂
  have h₇ := encBool_injective h₃
  cases s
  cases s'
  simp_all

theorem keySetItems_injective {sets sets' : List KeySetImage} {n : ℕ}
    (hr : ∀ t ∈ keySetItems n sets, t.Readable) (h : keySetItems n sets = keySetItems n sets') :
    sets = sets' := by
  induction sets generalizing sets' n with
  | nil => cases sets' <;> simp_all [keySetItems]
  | cons s sets ih =>
    cases sets' with
    | nil => simp [keySetItems] at h
    | cons s' sets' =>
      simp only [keySetItems, List.cons.injEq, sequenceItem, Tlv.mk.injEq, true_and] at h
      rw [keySetItems, List.forall_mem_cons] at hr
      rw [keySetComponents_injective hr.1.2 h.1, ih hr.2 h.2]

/-- The counts of a key store fit an INTEGER. -/
def KeyStoreImage.Sized : KeyStoreImage → Prop
  | .list _ => True
  | .sets keyCount maxKeySize _ _ => IntSized keyCount ∧ IntSized maxKeySize

theorem keyStore_injective {a b : KeyStoreImage} (ha : a.Sized) (hb : b.Sized)
    (hl : ∀ s, a.listField = some s → s.length ≤ 0xFFFF)
    (hs : ∀ s, a.setsField = some s → s.length ≤ 0xFFFF) (h₁ : a.listField = b.listField)
    (h₂ : a.setsField = b.setsField) : a = b := by
  cases a with
  | list keys =>
    cases b with
    | list keys' =>
      rw [encKeys_injective (hl _ rfl) (Option.some.inj h₁)]
    | sets => simp [KeyStoreImage.listField] at h₁
  | sets keyCount maxKeySize settings keySets =>
    cases b with
    | list => simp [KeyStoreImage.listField] at h₁
    | sets keyCount' maxKeySize' settings' keySets' =>
      have hlen := hs _ rfl
      have heq := components_eq keySetsOrder rfl rfl (by decide) (by decide) (by decide) hlen
        (Option.some.inj h₂)
      have hsets : (encItems (keySetItems 0 keySets)).length ≤ 0xFFFF :=
        (length_le_encFields Tag.ksSets (by simp [keySetsComponents])).trans hlen
      simp only [keySetsComponents, List.cons.injEq, Prod.mk.injEq, true_and, and_true, octetField,
        Option.some.injEq] at heq
      obtain ⟨h₃, h₄, h₅, h₆⟩ := heq
      have hr := readable_sequence (tag_keySetItems 0 keySets) hsets
      have hr' := readable_sequence (tag_keySetItems 0 keySets') (h₆ ▸ hsets)
      rw [intField_nat_injective ha.1 hb.1 h₃, intField_nat_injective ha.2 hb.2 h₄, h₅,
        keySetItems_injective hr (encItems_injective hr hr' h₆)]

theorem sdmComponents_injective {s s' : SdmImage}
    (hs : (encFields (sdmComponents s)).length ≤ 0xFFFF)
    (h : encFields (sdmComponents s) = encFields (sdmComponents s')) : s = s' := by
  have heq := components_eq sdmOrder rfl rfl (by decide) (by decide) (by decide) hs h
  simp only [sdmComponents, List.cons.injEq, Prod.mk.injEq, true_and, and_true,
    octetField, intField, Option.some.injEq] at heq
  obtain ⟨h₁, h₂, h₃, h₄, h₅, h₆, h₇, h₈, h₉, ha, hb⟩ := heq
  have hc := offsetField_injective h₈
  have hd := offsetField_injective h₉
  have he : s.encryptedFile = s'.encryptedFile := by
    cases hx : s.encryptedFile <;> cases hy : s'.encryptedFile <;> simp_all [Prod.ext_iff]
  have := u16Octets_injective h₂
  have := offsetField_injective h₃
  have := offsetField_injective h₄
  have := offsetField_injective h₅
  have := offsetField_injective h₆
  have := offsetField_injective h₇
  have := offsetField_injective ha
  have := encInt_u32_injective hb
  cases s
  cases s'
  simp_all

/-- The counts of a file's contents fit an INTEGER. -/
def ContentsImage.Sized : ContentsImage → Prop
  | .data size _ _ => IntSized size
  | .record size maxRecords count _ _ => IntSized size ∧ IntSized maxRecords ∧ IntSized count
  | _ => True

theorem recordItems_injective {records records' : List Slice}
    (hs : (encItems (recordItems records)).length ≤ 0xFFFF)
    (h : encItems (recordItems records) = encItems (recordItems records')) :
    records = records' := by
  have hr := encItems_recordItems_length hs rfl
  have hr' := encItems_recordItems_length (h ▸ hs) rfl
  have hitems := encItems_injective hr hr' h
  rw [recordItems, recordItems] at hitems
  exact List.map_injective_iff.mpr (fun a b h => by simpa using h) hitems

theorem contentsComponents_injective {x x' : ContentsImage} (hx : x.Sized) (hx' : x'.Sized)
    (htag : x.tag = x'.tag) (hs : (encFields (contentsComponents x)).length ≤ 0xFFFF)
    (h : encFields (contentsComponents x) = encFields (contentsComponents x')) : x = x' := by
  cases x with
  | data size known complete =>
    cases x' with
    | data size' known' complete' =>
      have heq := components_eq dataOrder rfl rfl (by decide) (by decide) (by decide) hs h
      simp only [contentsComponents, List.cons.injEq, Prod.mk.injEq, true_and, and_true, boolField,
        Option.some.injEq] at heq
      obtain ⟨h₁, h₂, h₃⟩ := heq
      rw [intField_nat_injective hx hx' h₁, nonemptyField_injective h₂, encBool_injective h₃]
    | _ => simp [ContentsImage.tag, Tag.fileData, Tag.fileValue, Tag.fileRecord,
        Tag.fileTmac] at htag
  | value lower upper current limited limit =>
    cases x' with
    | value lower' upper' current' limited' limit' =>
      have heq := components_eq valueOrder rfl rfl (by decide) (by decide) (by decide) hs h
      simp only [contentsComponents, List.cons.injEq, Prod.mk.injEq, true_and, and_true, octetField,
        intField, Option.some.injEq] at heq
      obtain ⟨h₁, h₂, h₃, h₄, h₅⟩ := heq
      rw [encInt_i32_injective h₁, encInt_i32_injective h₂, encInt_i32_injective h₃, h₄,
        Option.map_injective (fun _ _ h => encInt_i32_injective h) h₅]
    | _ => simp [ContentsImage.tag, Tag.fileData, Tag.fileValue, Tag.fileRecord,
        Tag.fileTmac] at htag
  | record size maxRecords count complete records =>
    cases x' with
    | record size' maxRecords' count' complete' records' =>
      have heq := components_eq recordOrder rfl rfl (by decide) (by decide) (by decide) hs h
      have hrec : (encItems (recordItems records)).length ≤ 0xFFFF :=
        (length_le_encFields Tag.recRecords (by simp [contentsComponents])).trans hs
      simp only [contentsComponents, List.cons.injEq, Prod.mk.injEq, true_and, and_true, boolField,
        Option.some.injEq] at heq
      obtain ⟨h₁, h₂, h₃, h₄, h₅⟩ := heq
      rw [intField_nat_injective hx.1 hx'.1 h₁, intField_nat_injective hx.2.1 hx'.2.1 h₂,
        intField_nat_injective hx.2.2 hx'.2.2 h₃, encBool_injective h₄,
        recordItems_injective hrec h₅]
    | _ => simp [ContentsImage.tag, Tag.fileData, Tag.fileValue, Tag.fileRecord,
        Tag.fileTmac] at htag
  | transactionMac counter mac keyType keyVersion key readerId =>
    cases x' with
    | transactionMac counter' mac' keyType' keyVersion' key' readerId' =>
      have heq := components_eq transactionMacOrder rfl rfl (by decide) (by decide) (by decide) hs h
      simp only [contentsComponents, List.cons.injEq, Prod.mk.injEq, true_and, and_true, octetField,
        intField, Option.some.injEq] at heq
      obtain ⟨h₁, h₂, h₃, h₄, h₅, h₆⟩ := heq
      rw [encInt_u32_injective h₁, h₂, h₃, h₄, h₅, h₆]
    | _ => simp [ContentsImage.tag, Tag.fileData, Tag.fileValue, Tag.fileRecord,
        Tag.fileTmac] at htag

/-- The alternative that is there says the kind. -/
theorem contentsAlternatives_injective {x x' : ContentsImage} (hx : x.Sized) (hx' : x'.Sized)
    (hs : (encFields (contentsComponents x)).length ≤ 0xFFFF)
    (h : contentsAlternatives x = contentsAlternatives x') : x = x' := by
  have hmem : (x.tag, some (encFields (contentsComponents x))) ∈ contentsAlternatives x' := by
    rw [← h]
    cases x <;> simp [contentsAlternatives, contentsField, ContentsImage.tag]
  have hfield : contentsField x.tag x' = some (encFields (contentsComponents x)) := by
    simp only [contentsAlternatives, List.mem_cons, Prod.mk.injEq, List.not_mem_nil,
      or_false] at hmem
    rcases hmem with ⟨ht, hf⟩ | ⟨ht, hf⟩ | ⟨ht, hf⟩ | ⟨ht, hf⟩ <;> rw [ht, hf]
  rw [contentsField] at hfield
  split_ifs at hfield with htag
  exact contentsComponents_injective hx hx' htag.symm hs (Option.some.inj hfield).symm

theorem fileComponents_injective {x x' : FileImage} (hx : x.contents.Sized)
    (hx' : x'.contents.Sized) (hs : (encFields (fileComponents x)).length ≤ 0xFFFF)
    (h : encFields (fileComponents x) = encFields (fileComponents x')) : x = x' := by
  have heq := components_eq fileOrder rfl rfl (by decide) (by decide) (by decide) hs h
  have hcontents : (encFields (contentsComponents x.contents)).length ≤ 0xFFFF := by
    refine (length_le_encFields x.contents.tag ?_).trans hs
    rw [fileComponents]
    refine List.mem_append_left _ (List.mem_append_right _ ?_)
    cases x.contents <;> simp [contentsAlternatives, contentsField, ContentsImage.tag]
  have hsdm : ∀ s, x.sdm.map (fun s => encFields (sdmComponents s)) = some s →
      s.length ≤ 0xFFFF := by
    intro s hmap
    refine (length_le_encFields Tag.fileSdm ?_).trans hs
    rw [fileComponents, hmap]
    simp
  rw [fileComponents, fileComponents, List.append_assoc, List.append_assoc] at heq
  obtain ⟨hhead, htail⟩ := List.append_inj heq rfl
  obtain ⟨halt, hlast⟩ := List.append_inj htail rfl
  simp only [List.cons.injEq, Prod.mk.injEq, true_and, and_true, octetField, intField,
    Option.some.injEq] at hhead hlast
  obtain ⟨h₁, h₂, h₃, h₄, h₅⟩ := hhead
  have := encInt_octet_injective h₁
  have := encInt_octet_injective h₂
  have := u16Octets_injective h₄
  have := map_u16Octets_injective h₅
  have := contentsAlternatives_injective hx hx' hcontents halt
  have := map_components_injective (p := fun _ => True)
    (fun a b _ _ hl hab => sdmComponents_injective hl hab) (by simp) (by simp) hsdm hlast
  cases x
  cases x'
  simp_all

theorem fileItems_injective {files files' : List FileImage} (hf : ∀ x ∈ files, x.contents.Sized)
    (hf' : ∀ x ∈ files', x.contents.Sized)
    (hs : (encItems (fileItems files)).length ≤ 0xFFFF)
    (h : encItems (fileItems files) = encItems (fileItems files')) : files = files' :=
  map_sequence_injective (p := fun x : FileImage => x.contents.Sized)
    (fun _ _ hx hx' hl hab => fileComponents_injective hx hx' hl hab) hf hf' hs h

theorem delegatedComponents_injective {d d' : DelegatedImage}
    (hs : (encFields (delegatedComponents d)).length ≤ 0xFFFF)
    (h : encFields (delegatedComponents d) = encFields (delegatedComponents d')) : d = d' := by
  have heq := components_eq delegatedOrder rfl rfl (by decide) (by decide) (by decide) hs h
  simp only [delegatedComponents, List.cons.injEq, Prod.mk.injEq, true_and, and_true, octetField,
    intField, Option.some.injEq] at heq
  obtain ⟨h₁, h₂, h₃, h₄, h₅⟩ := heq
  have := encInt_u16_injective h₁
  have := encInt_u16_injective h₃
  have := encInt_u16_injective h₄
  have := defaultFalseField_injective h₅
  cases d
  cases d'
  simp_all

/-- The counts of an application fit an INTEGER. -/
structure AppImage.Sized (a : AppImage) : Prop where
  keys : a.keys.Sized
  files : ∀ x ∈ a.files, x.contents.Sized

theorem appComponents_injective {a a' : AppImage} (ha : a.Sized) (ha' : a'.Sized)
    (hs : (encFields (appComponents a)).length ≤ 0xFFFF)
    (h : encFields (appComponents a) = encFields (appComponents a')) : a = a' := by
  have heq := components_eq appOrder rfl rfl (by decide) (by decide) (by decide) hs h
  have hlen (tag : UInt8) (s : Slice) (hmem : (tag, some s) ∈ appComponents a) :
      s.length ≤ 0xFFFF := (length_le_encFields tag hmem).trans hs
  have hlist : ∀ s, a.keys.listField = some s → s.length ≤ 0xFFFF :=
    fun s hx => hlen Tag.appKeys s (by simp [appComponents, hx])
  have hsets : ∀ s, a.keys.setsField = some s → s.length ≤ 0xFFFF :=
    fun s hx => hlen Tag.appKeySets s (by simp [appComponents, hx])
  have hfiles := hlen Tag.appFiles (encItems (fileItems a.files)) (by simp [appComponents])
  have hdel : ∀ s, a.delegated.map (fun d => encFields (delegatedComponents d)) = some s →
      s.length ≤ 0xFFFF := fun s hx => hlen Tag.appDelegated s (by simp [appComponents, hx])
  simp only [appComponents, List.cons.injEq, Prod.mk.injEq, true_and, and_true,
    octetField, intField, Option.some.injEq] at heq
  obtain ⟨h₁, h₂, h₃, h₄, h₅, h₆, h₇, h₈, h₉, hb, hc, hd, he⟩ := heq
  have := map_u16Octets_injective h₂
  have := nonemptyField_injective h₃
  have := encInt_octet_injective h₆
  have := keyStore_injective ha.keys ha'.keys hlist hsets h₇ h₉
  have := fileItems_injective ha.files ha'.files hfiles h₈
  have := map_components_injective (p := fun _ => True)
    (fun a b _ _ hl hab => delegatedComponents_injective hl hab) (by simp) (by simp) hdel hc
  have := map_singleton_injective hd
  have := map_encInt_injective he
  obtain ⟨⟨⟩, _⟩ := a
  obtain ⟨⟨⟩, _⟩ := a'
  simp_all

theorem cardComponents_injective {x x' : CardImage}
    (hx : IntSized x.generation ∧ IntSized x.uidProvenance)
    (hx' : IntSized x'.generation ∧ IntSized x'.uidProvenance)
    (hs : (encFields (cardComponents x)).length ≤ 0xFFFF)
    (h : encFields (cardComponents x) = encFields (cardComponents x')) : x = x' := by
  have heq := components_eq cardOrderV5 rfl rfl (by decide) (by decide) (by decide) hs h
  simp only [cardComponents, List.cons.injEq, Prod.mk.injEq, true_and, and_true,
    Option.some.injEq] at heq
  obtain ⟨h₁, h₂, h₃, h₄, h₅, h₆, h₇⟩ := heq
  have := intField_nat_injective hx.1 hx'.1 h₁
  have := encInt_u32_injective (Option.some.inj h₂)
  have := intField_nat_injective hx.2 hx'.2 h₄
  cases x
  cases x'
  simp_all

theorem proximityComponents_injective {x x' : ProximityImage}
    (hs : (encFields (proximityComponents x)).length ≤ 0xFFFF)
    (h : encFields (proximityComponents x) = encFields (proximityComponents x')) : x = x' := by
  have heq := components_eq proximityOrder rfl rfl (by decide) (by decide) (by decide) hs h
  simp only [proximityComponents, List.cons.injEq, Prod.mk.injEq, true_and, and_true, octetField,
    intField, Option.some.injEq] at heq
  obtain ⟨h₁, h₂, h₃, h₄⟩ := heq
  have := encInt_u16_injective h₃
  have := map_singleton_injective h₄
  cases x
  cases x'
  simp_all

theorem virtualCardComponents_injective {x x' : VirtualCardImage}
    (hs : (encFields (virtualCardComponents x)).length ≤ 0xFFFF)
    (h : encFields (virtualCardComponents x) = encFields (virtualCardComponents x')) : x = x' := by
  have heq := components_eq virtualCardOrder rfl rfl (by decide) (by decide) (by decide) hs h
  simp only [virtualCardComponents, List.cons.injEq, Prod.mk.injEq, true_and, and_true, octetField,
    boolField, Option.some.injEq] at heq
  obtain ⟨h₁, h₂, h₃, h₄, h₅, h₆, h₇, h₈⟩ := heq
  have := encBool_injective h₇
  have := encBool_injective h₈
  cases x
  cases x'
  simp_all

theorem damComponents_injective {x x' : DamImage}
    (hs : (encFields (damComponents x)).length ≤ 0xFFFF)
    (h : encFields (damComponents x) = encFields (damComponents x')) : x = x' := by
  have heq := components_eq damOrder rfl rfl (by decide) (by decide) (by decide) hs h
  simp only [damComponents, List.cons.injEq, Prod.mk.injEq, true_and, and_true,
    Option.some.injEq] at heq
  cases x
  cases x'
  simp_all

theorem piccComponents_injective {x x' : PiccImage} (hx : ∀ f ∈ x.files, f.contents.Sized)
    (hx' : ∀ f ∈ x'.files, f.contents.Sized)
    (hs : (encFields (piccComponents x)).length ≤ 0xFFFF)
    (h : encFields (piccComponents x) = encFields (piccComponents x')) : x = x' := by
  have heq := components_eq piccOrder rfl rfl (by decide) (by decide) (by decide) hs h
  have hlen (tag : UInt8) (s : Slice) (hmem : (tag, some s) ∈ piccComponents x) :
      s.length ≤ 0xFFFF := (length_le_encFields tag hmem).trans hs
  have hkeys := hlen Tag.piccKeys (encKeys x.keys) (by simp [piccComponents])
  have hfiles := hlen Tag.piccFiles (encItems (fileItems x.files)) (by simp [piccComponents])
  have hprox : ∀ s, x.proximity.map (fun x => encFields (proximityComponents x)) = some s →
      s.length ≤ 0xFFFF := fun s hx => hlen Tag.piccProximity s (by simp [piccComponents, hx])
  have hvc : ∀ s, x.virtualCard.map (fun x => encFields (virtualCardComponents x)) = some s →
      s.length ≤ 0xFFFF := fun s hx => hlen Tag.piccVcard s (by simp [piccComponents, hx])
  have hdam : ∀ s, x.dam.map (fun x => encFields (damComponents x)) = some s →
      s.length ≤ 0xFFFF := fun s hx => hlen Tag.piccDam s (by simp [piccComponents, hx])
  simp only [piccComponents, List.cons.injEq, Prod.mk.injEq, true_and, and_true,
    octetField, intField, Option.some.injEq] at heq
  obtain ⟨h₁, h₂, h₃, h₄, h₅, h₆, h₇, h₈, h₉, ha, hb, hc, hd, he, hf, hg, hh⟩ := heq
  have := encInt_octet_injective h₃
  have := defaultFalseField_injective h₄
  have := defaultFalseField_injective h₅
  have := nonemptyField_injective h₆
  have := map_singleton_injective h₇
  have := map_singleton_injective h₉
  have := encKeys_injective hkeys ha
  have := fileItems_injective hx hx' hfiles hb
  have := map_components_injective (p := fun _ => True)
    (fun a b _ _ hl hab => proximityComponents_injective hl hab) (by simp) (by simp) hprox hd
  have := map_components_injective (p := fun _ => True)
    (fun a b _ _ hl hab => virtualCardComponents_injective hl hab) (by simp) (by simp) hvc he
  have := map_components_injective (p := fun _ => True)
    (fun a b _ _ hl hab => damComponents_injective hl hab) (by simp) (by simp) hdam hf
  have := map_encInt_injective hg
  have := defaultFalseField_injective hh
  obtain ⟨⟨⟩, _⟩ := x
  obtain ⟨⟨⟩, _⟩ := x'
  simp_all

/-- The counts of an image fit an INTEGER. -/
structure Image.Sized (w : Image) : Prop where
  card : IntSized w.card.generation ∧ IntSized w.card.uidProvenance
  files : ∀ x ∈ w.picc.files, x.contents.Sized
  apps : ∀ a ∈ w.apps, a.Sized

/-- An encoding has one version and one image. -/
theorem encImage_injective {version version' : ℕ} {w w' : Image} (hw : w.Sized) (hw' : w'.Sized)
    (hv : IntSized version) (hv' : IntSized version')
    (hs : (encImage version w).length ≤ dfcDerMaxSize)
    (h : encImage version w = encImage version' w') : version = version' ∧ w = w' := by
  have hbody : (encFields (imageComponents version w)).length ≤ 0xFFFF :=
    Nat.le_of_succ_le ((length_body_le Tag.credential _).trans hs)
  have hread := (rTlv_all (by decide) hs).mpr h
  rw [(rTlv_all (by decide) hs).mpr rfl] at hread
  simp only [Option.some.injEq, Prod.mk.injEq, Tlv.mk.injEq, true_and, and_true] at hread
  have heq := components_eq credentialOrder rfl rfl (by decide) (by decide) (by decide) hbody hread
  have hlen (tag : UInt8) (s : Slice) (hmem : (tag, some s) ∈ imageComponents version w) :
      s.length ≤ 0xFFFF := (length_le_encFields tag hmem).trans hbody
  have hcard := hlen Tag.credCard (encFields (cardComponents w.card)) (by simp [imageComponents])
  have hpicc := hlen Tag.credPicc (encFields (piccComponents w.picc)) (by simp [imageComponents])
  have happs := hlen Tag.credApps (encItems (appItems w.apps)) (by simp [imageComponents])
  simp only [imageComponents, List.cons.injEq, Prod.mk.injEq, true_and, and_true,
    Option.some.injEq] at heq
  obtain ⟨h₁, h₂, h₃, h₄⟩ := heq
  have := cardComponents_injective hw.card hw'.card hcard h₂
  have := piccComponents_injective hw.files hw'.files hpicc h₃
  have := map_sequence_injective (p := AppImage.Sized)
    (fun a b ha hb hl hab => appComponents_injective ha hb hl hab) hw.apps hw'.apps happs h₄
  refine ⟨intField_nat_injective hv hv' h₁, ?_⟩
  cases w
  cases w'
  simp_all

end DfcCore
