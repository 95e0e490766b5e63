import DfcCore.DerOctets

/-!
# Reading TLVs

The reader of the DER subset: one TLV, the walk over a sequence of them, and the
components of a SEQUENCE keyed by identifier with declaration order enforced. A slice is
the list of its octets, and a pointer at a component is the body of that component. Each
reader accepts exactly the octets of its encoding, so what was accepted has one encoding.
-/
namespace DfcCore.Der

/-- Reads one TLV and the slice behind it. -/
def rTlv : Slice → Option (Tlv × Slice)
  | tag :: n :: s =>
    if tag &&& 0x1F == 0x1F then none  -- high-tag-number form
    else if n &&& 0x80 != 0 then
      let count := (n &&& 0x7F).toNat
      if count = 0 ∨ 2 < count then none
      else if s.length < count then none
      else
        let n := beNat (s.take count)
        if n < 128 then none  -- non-minimal long form
        else if count = 2 ∧ n < 256 then none
        else if s.length < count + n then none
        else some (⟨tag, (s.drop count).take n⟩, s.drop (count + n))
    else if s.length < n.toNat then none
    else some (⟨tag, s.take n.toNat⟩, s.drop n.toNat)
  | _ => none

/-- An identifier of the low-tag-number form. -/
def LowTag (tag : UInt8) : Prop := tag &&& 0x1F ≠ 0x1F

instance (tag : UInt8) : Decidable (LowTag tag) := inferInstanceAs (Decidable (_ ≠ _))

theorem octet_high_clear (n : UInt8) : n &&& 0x80 = 0 ↔ n.toNat < 128 := by
  revert n
  exact forall_octet (by decide +kernel)

theorem octet_long_one (n : UInt8) (h : n &&& 0x80 ≠ 0) (h' : (n &&& 0x7F).toNat = 1) :
    n = 0x81 := by
  revert n
  exact forall_octet (by decide +kernel)

theorem octet_long_two (n : UInt8) (h : n &&& 0x80 ≠ 0) (h' : (n &&& 0x7F).toNat = 2) :
    n = 0x82 := by
  revert n
  exact forall_octet (by decide +kernel)

theorem rTlv_encTlv {tag : UInt8} {body : Slice} (rest : Slice) (ht : LowTag tag)
    (hb : body.length ≤ 0xFFFF) :
    rTlv (encTlv tag body ++ rest) = some (⟨tag, body⟩, rest) := by
  have htag : ¬ (tag &&& 0x1F == 0x1F) = true := by simpa [LowTag] using ht
  unfold encTlv encLen
  by_cases h₁ : body.length < 128
  · have hn : (UInt8.ofNat body.length).toNat = body.length := by
      rw [UInt8.toNat_ofNat']
      omega
    have hclear : UInt8.ofNat body.length &&& 0x80 = 0 := by
      rw [octet_high_clear, hn]
      exact h₁
    rw [if_pos h₁]
    simp only [List.cons_append, List.nil_append, rTlv, htag, hclear, hn]
    simp
  rw [if_neg h₁]
  have h81 : (0x81 : UInt8) &&& 0x80 ≠ 0 := by decide
  have h81' : ((0x81 : UInt8) &&& 0x7F).toNat = 1 := by decide
  have h82 : (0x82 : UInt8) &&& 0x80 ≠ 0 := by decide
  have h82' : ((0x82 : UInt8) &&& 0x7F).toNat = 2 := by decide
  by_cases h₂ : body.length < 256
  · have hn : (UInt8.ofNat body.length).toNat = body.length := by
      rw [UInt8.toNat_ofNat']
      omega
    rw [if_pos h₂]
    simp only [List.cons_append, List.nil_append, rTlv, htag, h81']
    simp [h81, beNat, hn, h₁, Nat.add_comm 1]
  rw [if_neg h₂, if_pos hb]
  have hhi : (UInt8.ofNat (body.length / 256)).toNat = body.length / 256 := by
    rw [UInt8.toNat_ofNat']
    omega
  have hlo : (UInt8.ofNat body.length).toNat = body.length % 256 := UInt8.toNat_ofNat'
  have hval : body.length / 256 * 256 + body.length % 256 = body.length := by omega
  simp only [List.cons_append, List.nil_append, rTlv, htag, h82']
  simp [h82, beNat, hhi, hlo, hval, h₁, h₂, Nat.add_comm 2]

theorem rTlv_some {s rest : Slice} {tlv : Tlv} (h : rTlv s = some (tlv, rest)) :
    s = encTlv tlv.tag tlv.body ++ rest ∧ LowTag tlv.tag ∧ tlv.body.length ≤ 0xFFFF := by
  match s with
  | [] => simp [rTlv] at h
  | [_] => simp [rTlv] at h
  | tag :: n :: s =>
    simp only [rTlv] at h
    split_ifs at h with h₁ h₂ h₃ h₄ h₅ h₆ h₇ h₈
    · have htag : LowTag tag := by simpa [LowTag] using h₁
      have hlong : n &&& 0x80 ≠ 0 := by simpa using h₂
      simp only [Option.some.injEq, Prod.mk.injEq] at h
      obtain ⟨rfl, rfl⟩ := h
      have hlen : ((s.drop (n &&& 0x7F).toNat).take (beNat (s.take (n &&& 0x7F).toNat))).length =
          beNat (s.take (n &&& 0x7F).toNat) := by
        rw [List.length_take, List.length_drop]
        omega
      have hsplit : s = s.take (n &&& 0x7F).toNat ++
          (s.drop (n &&& 0x7F).toNat).take (beNat (s.take (n &&& 0x7F).toNat)) ++
          s.drop ((n &&& 0x7F).toNat + beNat (s.take (n &&& 0x7F).toNat)) := by
        rw [List.append_assoc, ← List.drop_drop, List.take_append_drop, List.take_append_drop]
      have hcount : (n &&& 0x7F).toNat = 1 ∨ (n &&& 0x7F).toNat = 2 := by omega
      rcases hcount with hc | hc
      · have hn := octet_long_one n hlong hc
        rw [hc] at hlen hsplit h₄ h₅ ⊢
        obtain ⟨a, t, rfl⟩ := List.exists_cons_of_length_pos (l := s) (by omega)
        have hval : beNat (List.take 1 (a :: t)) = a.toNat := by simp [beNat]
        have ha := a.toNat_lt
        rw [hval] at hlen hsplit h₅ ⊢
        refine ⟨?_, htag, by dsimp only; omega⟩
        simp only [encTlv, encLen, hlen]
        rw [if_neg h₅, if_pos (by omega), hn]
        simp [Nat.add_comm 1]
      · have hn := octet_long_two n hlong hc
        rw [hc] at hlen hsplit h₄ h₅ h₆ ⊢
        obtain ⟨a, t, rfl⟩ := List.exists_cons_of_length_pos (l := s) (by omega)
        obtain ⟨b, t, rfl⟩ := List.exists_cons_of_length_pos (l := t)
          (by simp only [List.length_cons] at h₄; omega)
        have hval : beNat (List.take 2 (a :: b :: t)) = a.toNat * 256 + b.toNat := by simp [beNat]
        have ha := a.toNat_lt
        have hb := b.toNat_lt
        rw [hval] at hlen hsplit h₅ h₆ ⊢
        refine ⟨?_, htag, by dsimp only; omega⟩
        simp only [encTlv, encLen, hlen]
        have hhi : UInt8.ofNat ((a.toNat * 256 + b.toNat) / 256) = a := by
          apply UInt8.toNat_inj.mp
          rw [UInt8.toNat_ofNat']
          omega
        have hlo : UInt8.ofNat (a.toNat * 256 + b.toNat) = b := by
          apply UInt8.toNat_inj.mp
          rw [UInt8.toNat_ofNat']
          omega
        rw [if_neg h₅, if_neg (by omega), if_pos (by omega), hn, hhi, hlo]
        simpa [List.drop_drop] using hsplit
    · have htag : LowTag tag := by simpa [LowTag] using h₁
      have hclear : n.toNat < 128 := by
        rw [← octet_high_clear]
        simpa using h₂
      simp only [Option.some.injEq, Prod.mk.injEq] at h
      obtain ⟨rfl, rfl⟩ := h
      have hlen : (s.take n.toNat).length = n.toNat := by
        rw [List.length_take]
        omega
      refine ⟨?_, htag, by dsimp only; omega⟩
      simp only [encTlv, encLen, hlen]
      rw [if_pos hclear]
      simp

/-- A TLV takes at least two octets. -/
theorem rTlv_length {s rest : Slice} {tlv : Tlv} (h : rTlv s = some (tlv, rest)) :
    rest.length + 2 ≤ s.length := by
  obtain ⟨hs, -, hb⟩ := rTlv_some h
  rw [hs, List.length_append, length_encTlv _ hb]
  omega

/-- The loop `while(len > 0)` that reads TLVs and handles each. Every turn takes octets,
so the length of the slice bounds the number of turns. -/
def rWalk {σ ε : Type} (bad : ε) (step : σ → Tlv → Except ε σ) : ℕ → Slice → σ → Except ε σ
  | _, [], st => .ok st
  | 0, _ :: _, _ => .error bad
  | fuel + 1, b :: s, st =>
    match rTlv (b :: s) with
    | none => .error bad
    | some (tlv, rest) =>
      match step st tlv with
      | .error e => .error e
      | .ok st => rWalk bad step fuel rest st

/-- A TLV the reader can return. -/
def Tlv.Readable (t : Tlv) : Prop := LowTag t.tag ∧ t.body.length ≤ 0xFFFF

/-- The handling of a list of TLVs, stopping at the first error. -/
def handleAll {σ ε : Type} (step : σ → Tlv → Except ε σ) : List Tlv → σ → Except ε σ
  | [], st => .ok st
  | t :: items, st =>
    match step st t with
    | .error e => .error e
    | .ok st => handleAll step items st

theorem rWalk_encItems {σ ε : Type} (bad : ε) (step : σ → Tlv → Except ε σ) {items : List Tlv}
    (hr : ∀ t ∈ items, t.Readable) {fuel : ℕ} (hf : (encItems items).length ≤ fuel) (st : σ) :
    rWalk bad step fuel (encItems items) st = handleAll step items st := by
  induction items generalizing fuel st with
  | nil => cases fuel <;> rfl
  | cons t items ih =>
    have ht := hr t List.mem_cons_self
    have hsplit : encItems (t :: items) = encTlv t.tag t.body ++ encItems items := rfl
    have hread := rTlv_encTlv (encItems items) ht.1 ht.2
    rw [← hsplit] at hread
    have hlen := rTlv_length hread
    obtain ⟨b, s, hbs⟩ := List.exists_cons_of_length_pos (l := encItems (t :: items)) (by omega)
    cases fuel with
    | zero => omega
    | succ fuel =>
      rw [hbs] at hread ⊢
      rw [rWalk, hread, handleAll]
      dsimp only
      cases step st t with
      | error e => rfl
      | ok st => exact ih (fun u hu => hr u (List.mem_cons_of_mem _ hu)) (by omega) st

theorem rWalk_ok {σ ε : Type} {bad : ε} {step : σ → Tlv → Except ε σ} {fuel : ℕ} {s : Slice}
    {st st' : σ} (h : rWalk bad step fuel s st = .ok st') :
    ∃ items : List Tlv, (∀ t ∈ items, t.Readable) ∧ s = encItems items ∧
      handleAll step items st = .ok st' := by
  induction fuel generalizing s st with
  | zero =>
    cases s with
    | nil => exact ⟨[], by simp, rfl, h⟩
    | cons b s => simp [rWalk] at h
  | succ fuel ih =>
    cases s with
    | nil => exact ⟨[], by simp, rfl, h⟩
    | cons b s =>
      rw [rWalk] at h
      cases hread : rTlv (b :: s) with
      | none => simp [hread] at h
      | some p =>
        obtain ⟨tlv, rest⟩ := p
        rw [hread] at h
        dsimp only at h
        cases hstep : step st tlv with
        | error e => simp [hstep] at h
        | ok st₁ =>
          rw [hstep] at h
          obtain ⟨items, hr, hs, hh⟩ := ih h
          obtain ⟨hsplit, hlow, hlen⟩ := rTlv_some hread
          refine ⟨tlv :: items, ?_, ?_, ?_⟩
          · intro t ht
            rcases List.mem_cons.mp ht with rfl | ht
            · exact ⟨hlow, hlen⟩
            · exact hr t ht
          · rw [hsplit, hs]
            rfl
          · rw [handleAll, hstep]
            exact hh

/-- What a walk over a slice of at most `fuel` octets returns. -/
theorem rWalk_eq_ok {σ ε : Type} {bad : ε} {step : σ → Tlv → Except ε σ} {fuel : ℕ} {s : Slice}
    {st st' : σ} (hf : s.length ≤ fuel) :
    rWalk bad step fuel s st = .ok st' ↔ ∃ items : List Tlv, (∀ t ∈ items, t.Readable) ∧
      s = encItems items ∧ handleAll step items st = .ok st' := by
  refine ⟨rWalk_ok, ?_⟩
  rintro ⟨items, hr, rfl, hh⟩
  rw [rWalk_encItems bad step hr hf]
  exact hh

/-- The items of the values of a list, where an item may depend on the state it meets. -/
def itemsFrom {σ α : Type} (item : σ → α → Tlv) (load : σ → α → σ) : σ → List α → List Tlv
  | _, [] => []
  | st, a :: l => item st a :: itemsFrom item load (load st a) l

/-- Every value of a list is acceptable in the state it meets. -/
def AllFrom {σ α : Type} (cond : σ → α → Prop) (load : σ → α → σ) : σ → List α → Prop
  | _, [] => True
  | st, a :: l => cond st a ∧ AllFrom cond load (load st a) l

/-- If a step reads one value into a state that meets `inv`, a walk reads a list of them. -/
theorem handleAll_eq_ok_of {σ ε α : Type} (inv : σ → Prop) (step : σ → Tlv → Except ε σ)
    (item : σ → α → Tlv) (cond : σ → α → Prop) (load : σ → α → σ) {items : List Tlv}
    (hinv : ∀ st a, inv st → cond st a → inv (load st a))
    (h : ∀ st, inv st → ∀ t ∈ items, ∀ st', step st t = .ok st' ↔
      ∃ a, t = item st a ∧ cond st a ∧ st' = load st a) {st st' : σ} (hst : inv st) :
    handleAll step items st = .ok st' ↔ ∃ l, items = itemsFrom item load st l ∧
      AllFrom cond load st l ∧ st' = l.foldl load st := by
  induction items generalizing st with
  | nil =>
    constructor
    · intro hh
      simp only [handleAll, Except.ok.injEq] at hh
      exact ⟨[], rfl, trivial, hh.symm⟩
    · rintro ⟨l, hl, -, rfl⟩
      cases l with
      | nil => rfl
      | cons a l => simp [itemsFrom] at hl
  | cons t items ih =>
    have htail := fun st hst u hu => h st hst u (List.mem_cons_of_mem t hu)
    rw [handleAll]
    constructor
    · intro hh
      cases hs : step st t with
      | error e => simp [hs] at hh
      | ok st₁ =>
        rw [hs] at hh
        obtain ⟨a, rfl, hc, rfl⟩ := (h st hst t List.mem_cons_self st₁).mp hs
        obtain ⟨l, rfl, hl, rfl⟩ := (ih htail (hinv st a hst hc)).mp hh
        exact ⟨a :: l, rfl, ⟨hc, hl⟩, rfl⟩
    · rintro ⟨l, hl, hc, rfl⟩
      cases l with
      | nil => simp [itemsFrom] at hl
      | cons a l =>
        simp only [itemsFrom, List.cons.injEq] at hl
        obtain ⟨rfl, rfl⟩ := hl
        rw [(h st hst _ List.mem_cons_self (load st a)).mpr ⟨a, rfl, hc.1, rfl⟩]
        exact (ih htail (hinv st a hst hc.1)).mpr ⟨l, rfl, hc.2, rfl⟩

theorem handleAll_eq_ok {σ ε α : Type} (step : σ → Tlv → Except ε σ) (item : σ → α → Tlv)
    (cond : σ → α → Prop) (load : σ → α → σ) {items : List Tlv}
    (h : ∀ st, ∀ t ∈ items, ∀ st', step st t = .ok st' ↔
      ∃ a, t = item st a ∧ cond st a ∧ st' = load st a) {st st' : σ} :
    handleAll step items st = .ok st' ↔ ∃ l, items = itemsFrom item load st l ∧
      AllFrom cond load st l ∧ st' = l.foldl load st :=
  handleAll_eq_ok_of (fun _ => True) step item cond load (fun _ _ _ _ => trivial)
    (fun st _ => h st) trivial

/-- The components that were found, by their place in the declaration order. -/
structure Fields where
  order : List UInt8
  component : ℕ → Option Slice

/-- The loop of `r_fields`; `total` is the length of the whole body. -/
def rFieldsLoop (order : List UInt8) (total : ℕ) :
    ℕ → Slice → ℕ → (ℕ → Option Slice) → Option (ℕ → Option Slice)
  | _, [], _, out => some out
  | 0, _ :: _, _, _ => none
  | fuel + 1, b :: s, cursor, out =>
    match rTlv (b :: s) with
    | none => none
    | some (tlv, rest) =>
      match order.findIdx? (· == tlv.tag) with
      | none => none  -- unknown tag
      | some idx =>
        if (out idx).isSome then none  -- duplicate
        else if idx < cursor then none  -- out of declaration order
        else if 0xFFFF < total - (s.length + 1) then none
        else rFieldsLoop order total fuel rest (idx + 1) (Function.update out idx (some tlv.body))

def rFields (body : Slice) (order : List UInt8) : Option Fields :=
  if 17 < order.length then none
  else (rFieldsLoop order body.length body.length body 0 fun _ => none).map (Fields.mk order)

/-- The body of a component, if it is there. -/
def fGet (f : Fields) (tag : UInt8) : Option Slice :=
  (List.range f.order.length).findSome? fun i =>
    if f.order[i]? = some tag then f.component i else none

/-- The components from place `k` on. -/
def encFrom (order : List UInt8) (g : ℕ → Option Slice) (k : ℕ) : Slice :=
  (List.range' k (order.length - k)).flatMap fun i => optTlv (order.getD i 0) (g i)

theorem encFrom_end {order : List UInt8} (g : ℕ → Option Slice) {k : ℕ} (h : order.length ≤ k) :
    encFrom order g k = [] := by
  rw [encFrom, Nat.sub_eq_zero_of_le h]
  rfl

theorem encFrom_step {order : List UInt8} (g : ℕ → Option Slice) {k : ℕ} (h : k < order.length) :
    encFrom order g k = optTlv (order.getD k 0) (g k) ++ encFrom order g (k + 1) := by
  have hsub : order.length - k = (order.length - (k + 1)) + 1 := by omega
  rw [encFrom, hsub, List.range'_succ, List.flatMap_cons, encFrom]

theorem encFrom_skip {order : List UInt8} {g : ℕ → Option Slice} {k m : ℕ} (hkm : k ≤ m)
    (hm : m ≤ order.length) (hg : ∀ i, k ≤ i → i < m → g i = none) :
    encFrom order g k = encFrom order g m := by
  induction m, hkm using Nat.le_induction with
  | base => rfl
  | succ m hkm ih =>
    rw [ih (by omega) (fun i hi him => hg i hi (by omega)), encFrom_step g (by omega),
      hg m hkm (by omega)]
    rfl

theorem findIdx?_tag {order : List UInt8} (hn : order.Nodup) {tag : UInt8} {i : ℕ} :
    order.findIdx? (· == tag) = some i ↔ order[i]? = some tag := by
  rw [List.findIdx?_eq_some_iff_getElem]
  constructor
  · rintro ⟨hi, ht, -⟩
    rw [List.getElem?_eq_getElem hi]
    simpa using ht
  · intro h
    obtain ⟨hi, ht⟩ := List.getElem?_eq_some_iff.mp h
    refine ⟨hi, by simpa using ht, fun j hj => ?_⟩
    have hne : order[j] ≠ order[i] := by
      intro he
      have := (List.Nodup.getElem_inj_iff hn).mp he
      omega
    rw [ht] at hne
    simpa using hne

/-- What the loop found, it found in declaration order. -/
theorem rFieldsLoop_some {order : List UInt8} (hn : order.Nodup) {total fuel : ℕ} {s : Slice}
    {cursor : ℕ} {out f : ℕ → Option Slice} (hout : ∀ i, cursor ≤ i → out i = none)
    (h : rFieldsLoop order total fuel s cursor out = some f) :
    s = encFrom order f cursor ∧ (∀ i < cursor, f i = out i) ∧
      ∀ i, order.length ≤ i → cursor ≤ i → f i = none := by
  induction fuel generalizing s cursor out with
  | zero =>
    cases s with
    | nil =>
      simp only [rFieldsLoop, Option.some.injEq] at h
      subst h
      refine ⟨?_, fun _ _ => rfl, fun i _ hi => hout i hi⟩
      rcases Nat.lt_or_ge order.length cursor with hc | hc
      · rw [encFrom_end _ (by omega)]
      · rw [encFrom_skip hc le_rfl (fun i hi _ => hout i hi), encFrom_end _ le_rfl]
    | cons b s => simp [rFieldsLoop] at h
  | succ fuel ih =>
    cases s with
    | nil =>
      simp only [rFieldsLoop, Option.some.injEq] at h
      subst h
      refine ⟨?_, fun _ _ => rfl, fun i _ hi => hout i hi⟩
      rcases Nat.lt_or_ge order.length cursor with hc | hc
      · rw [encFrom_end _ (by omega)]
      · rw [encFrom_skip hc le_rfl (fun i hi _ => hout i hi), encFrom_end _ le_rfl]
    | cons b s =>
      rw [rFieldsLoop] at h
      cases hread : rTlv (b :: s) with
      | none => simp [hread] at h
      | some p =>
        obtain ⟨tlv, rest⟩ := p
        rw [hread] at h
        dsimp only at h
        cases hidx : order.findIdx? (· == tlv.tag) with
        | none => simp [hidx] at h
        | some idx =>
          rw [hidx] at h
          dsimp only at h
          split_ifs at h with h₁ h₂ h₃
          have hget := (findIdx?_tag hn).mp hidx
          obtain ⟨hlt, htag⟩ := List.getElem?_eq_some_iff.mp hget
          have hout' : ∀ i, idx + 1 ≤ i → Function.update out idx (some tlv.body) i = none := by
            intro i hi
            rw [Function.update_of_ne (by omega)]
            exact hout i (by omega)
          obtain ⟨hrest, hkeep, hend⟩ := ih hout' h
          have hf : f idx = some tlv.body := by
            rw [hkeep idx (by omega), Function.update_self]
          refine ⟨?_, fun i hi => ?_, fun i hi hc => hend i hi (by omega)⟩
          · have hgap : ∀ i, cursor ≤ i → i < idx → f i = none := by
              intro i hi him
              rw [hkeep i (by omega), Function.update_of_ne (by omega)]
              exact hout i hi
            have hd : order.getD idx 0 = tlv.tag := by
              rw [List.getD_eq_getElem?_getD, hget]
              rfl
            rw [encFrom_skip (by omega) (by omega) hgap, encFrom_step f hlt, hf, hd, ← hrest]
            exact (rTlv_some hread).1
          · rw [hkeep i (by omega), Function.update_of_ne (by omega)]

/-- The loop finds every component of a well-formed body. -/
theorem rFieldsLoop_encFrom {order : List UInt8} (hn : order.Nodup)
    (hlow : ∀ t ∈ order, LowTag t) {total : ℕ} (ht : total ≤ 0xFFFF) (g : ℕ → Option Slice)
    (n : ℕ) {k : ℕ} (hk : k + n = order.length) (cursor : ℕ) (hc : cursor ≤ k) (fuel : ℕ)
    (out : ℕ → Option Slice) (hout : ∀ i, k ≤ i → out i = none)
    (hs : (encFrom order g k).length ≤ fuel) (hsize : (encFrom order g k).length ≤ 0xFFFF) :
    ∃ f, rFieldsLoop order total fuel (encFrom order g k) cursor out = some f ∧
      (∀ i < k, f i = out i) ∧ ∀ i, k ≤ i → i < order.length → f i = g i := by
  induction n generalizing k cursor fuel out with
  | zero =>
    rw [encFrom_end g (by omega)] at hs ⊢
    exact ⟨out, by cases fuel <;> rfl, fun _ _ => rfl, fun i h₁ h₂ => by omega⟩
  | succ n ih =>
    have hlt : k < order.length := by omega
    cases hg : g k with
    | none =>
      have hskip : encFrom order g k = encFrom order g (k + 1) := by
        rw [encFrom_step g hlt, hg]
        rfl
      rw [hskip] at hs hsize ⊢
      obtain ⟨f, hf, hkeep, hnew⟩ := ih (k := k + 1) (by omega) cursor (by omega) fuel out
        (fun i hi => hout i (by omega)) hs hsize
      refine ⟨f, hf, fun i hi => hkeep i (by omega), fun i hi hil => ?_⟩
      rcases Nat.eq_or_lt_of_le hi with rfl | hi
      · rw [hkeep k (by omega), hout k le_rfl, hg]
      · exact hnew i hi hil
    | some body =>
      have hstep : encFrom order g k = encTlv (order.getD k 0) body ++ encFrom order g (k + 1) := by
        rw [encFrom_step g hlt, hg]
        rfl
      have hget : order[k]? = some (order.getD k 0) := by
        rw [List.getD_eq_getElem?_getD, List.getElem?_eq_getElem hlt]
        rfl
      have htag : order.getD k 0 ∈ order := List.mem_of_getElem? hget
      have hbody : body.length ≤ 0xFFFF := by
        have := length_body_le (order.getD k 0) body
        rw [hstep, List.length_append] at hsize
        omega
      have hread := rTlv_encTlv (encFrom order g (k + 1)) (hlow _ htag) hbody
      rw [← hstep] at hread
      have hlen := rTlv_length hread
      obtain ⟨b, s, hbs⟩ := List.exists_cons_of_length_pos (l := encFrom order g k) (by omega)
      cases fuel with
      | zero => omega
      | succ fuel =>
        obtain ⟨f, hf, hkeep, hnew⟩ := ih (k := k + 1) (by omega) (k + 1) le_rfl fuel
          (Function.update out k (some body))
          (fun i hi => by rw [Function.update_of_ne (by omega)]; exact hout i (by omega))
          (by omega) (by omega)
        refine ⟨f, ?_, fun i hi => ?_, fun i hi hil => ?_⟩
        · rw [hbs] at hread ⊢
          rw [rFieldsLoop, hread]
          dsimp only
          rw [(findIdx?_tag hn).mpr hget]
          dsimp only
          rw [hout k le_rfl, if_neg (by simp), if_neg (by omega), if_neg (by omega)]
          exact hf
        · rw [hkeep i (by omega), Function.update_of_ne (by omega)]
        · rcases Nat.eq_or_lt_of_le hi with rfl | hi
          · rw [hkeep k (by omega), Function.update_self, hg]
          · exact hnew i hi hil

theorem fGet_eq {f : Fields} (hn : f.order.Nodup) {tag : UInt8} {i : ℕ}
    (h : f.order[i]? = some tag) : fGet f tag = f.component i := by
  obtain ⟨hi, ht⟩ := List.getElem?_eq_some_iff.mp h
  have honly : ∀ j, f.order[j]? = some tag → j = i := by
    intro j hj
    obtain ⟨hjl, hjt⟩ := List.getElem?_eq_some_iff.mp hj
    exact (List.Nodup.getElem_inj_iff hn).mp (hjt.trans ht.symm)
  rw [fGet]
  cases hc : f.component i with
  | none =>
    rw [List.findSome?_eq_none_iff]
    intro j _
    split_ifs with hj
    · rw [honly j hj, hc]
    · rfl
  | some body =>
    rw [List.findSome?_eq_some_iff]
    refine ⟨List.range i, i, List.range' (i + 1) (f.order.length - (i + 1)), ?_, ?_, ?_⟩
    · have happ := List.range'_append_1 (s := 0) (m := i) (n := f.order.length - i)
      rw [Nat.zero_add, Nat.add_sub_cancel' (by omega)] at happ
      rw [List.range_eq_range', List.range_eq_range', ← List.range'_succ,
        show f.order.length - (i + 1) + 1 = f.order.length - i by omega, happ]
    · rw [if_pos h, hc]
    · intro j hj
      have hji : j < i := List.mem_range.mp hj
      rw [if_neg]
      intro hj'
      have := honly j hj'
      omega

theorem fGet_eq_none {f : Fields} {tag : UInt8} (h : tag ∉ f.order) : fGet f tag = none := by
  rw [fGet, List.findSome?_eq_none_iff]
  intro i _
  rw [if_neg]
  intro hi
  exact h (List.mem_of_getElem? hi)

theorem encFrom_zero {f : Fields} (hn : f.order.Nodup) :
    encFrom f.order f.component 0 = encFields (f.order.map fun t => (t, fGet f t)) := by
  rw [encFrom, encFields, List.flatMap_map]
  have hmap : f.order = (List.range' 0 f.order.length).map fun i => f.order.getD i 0 := by
    apply List.ext_getElem
    · simp
    · intro i h₁ h₂
      simp [List.getD_eq_getElem?_getD, List.getElem?_eq_getElem h₁]
  conv_rhs => rw [hmap, List.flatMap_map]
  rw [Nat.sub_zero]
  apply List.flatMap_congr
  intro i hi
  have hlt : i < f.order.length := by
    have := List.mem_range'_1.mp hi
    omega
  have hget : f.order[i]? = some (f.order.getD i 0) := by
    rw [List.getD_eq_getElem?_getD, List.getElem?_eq_getElem hlt]
    rfl
  rw [fGet_eq hn hget]

/-- A body the reader accepted is the encoding of the components it found. -/
theorem rFields_some {body : Slice} {order : List UInt8} {f : Fields} (hn : order.Nodup)
    (h : rFields body order = some f) :
    body = encFields (order.map fun t => (t, fGet f t)) ∧ f.order = order := by
  rw [rFields] at h
  split_ifs at h
  obtain ⟨g, hg, rfl⟩ := Option.map_eq_some_iff.mp h
  obtain ⟨hs, -, -⟩ := rFieldsLoop_some hn (fun _ _ => rfl) hg
  exact ⟨hs.trans (encFrom_zero (f := ⟨order, g⟩) hn), rfl⟩

/-- The components of an encoding are found. -/
theorem rFields_encFields {l : List (UInt8 × Option Slice)} (hn : (l.map Prod.fst).Nodup)
    (hlow : ∀ t ∈ l.map Prod.fst, LowTag t) (hl : l.length ≤ 17)
    (hs : (encFields l).length ≤ 0xFFFF) :
    ∃ f, rFields (encFields l) (l.map Prod.fst) = some f ∧ ∀ p ∈ l, fGet f p.1 = p.2 := by
  let g : ℕ → Option Slice := fun i => (l[i]?).bind Prod.snd
  have henc : encFrom (l.map Prod.fst) g 0 = encFields l := by
    rw [encFrom, encFields]
    have hmap : l = (List.range' 0 l.length).map fun i => ((l.map Prod.fst).getD i 0, g i) := by
      apply List.ext_getElem
      · simp
      · intro i h₁ h₂
        simp [g, List.getD_eq_getElem?_getD, List.getElem?_eq_getElem h₁]
    conv_rhs => rw [hmap, List.flatMap_map]
    simp
  obtain ⟨f, hf, -, hget⟩ := rFieldsLoop_encFrom hn hlow hs g (l.map Prod.fst).length (k := 0)
    (by omega) 0 le_rfl (encFields l).length (fun _ => none) (fun _ _ => rfl) (by rw [henc])
    (by rw [henc]; exact hs)
  rw [henc] at hf
  refine ⟨⟨l.map Prod.fst, f⟩, ?_, ?_⟩
  · rw [rFields, if_neg (by simp; omega), hf]
    rfl
  · intro p hp
    obtain ⟨i, hi, rfl⟩ := List.getElem_of_mem hp
    rw [fGet_eq (f := ⟨l.map Prod.fst, f⟩) hn (i := i) (by simp [hi])]
    dsimp only
    rw [hget i (by omega) (by simpa using hi)]
    simp [g, hi]

/-- The body with the given components is the one in which the reader finds just these. -/
theorem eq_encFields_iff {l : List (UInt8 × Option Slice)} {order : List UInt8} {body : Slice}
    (ho : l.map Prod.fst = order) (hn : order.Nodup) (hlow : order.all fun t => LowTag t)
    (hl : order.length ≤ 17) (hb : body.length ≤ 0xFFFF) :
    body = encFields l ↔ ∃ f, rFields body order = some f ∧ ∀ p ∈ l, fGet f p.1 = p.2 := by
  subst ho
  constructor
  · rintro rfl
    exact rFields_encFields hn (by simpa using hlow) (by simpa using hl) hb
  · rintro ⟨f, hf, hget⟩
    have henc := (rFields_some hn hf).1
    rw [List.map_map] at henc
    rw [henc]
    congr 1
    conv_rhs => rw [← List.map_id l]
    apply List.map_congr_left
    intro p hp
    exact Prod.ext rfl (hget p hp)

/-- Two encodings with the same identifiers have the same components. -/
theorem encFields_injective {l l' : List (UInt8 × Option Slice)} (hn : (l.map Prod.fst).Nodup)
    (hlow : ∀ t ∈ l.map Prod.fst, LowTag t) (hl : l.length ≤ 17)
    (hs : (encFields l).length ≤ 0xFFFF) (htags : l.map Prod.fst = l'.map Prod.fst)
    (h : encFields l = encFields l') : l = l' := by
  obtain ⟨f, hf, hget⟩ := rFields_encFields hn hlow hl hs
  have hlen : l.length = l'.length := by simpa using congrArg List.length htags
  obtain ⟨f', hf', hget'⟩ := rFields_encFields (l := l') (htags ▸ hn) (htags ▸ hlow)
    (by omega) (h ▸ hs)
  rw [← h, ← htags, hf, Option.some.injEq] at hf'
  subst hf'
  apply List.ext_getElem hlen
  intro i h₁ h₂
  have hfst : l[i].1 = l'[i].1 := by
    have := congrArg (fun m : List UInt8 => m[i]?) htags
    simpa [h₁, h₂] using this
  refine Prod.ext hfst ?_
  rw [← hget _ (List.getElem_mem h₁), ← hget' _ (List.getElem_mem h₂), hfst]

theorem length_le_encFields {l : List (UInt8 × Option Slice)} (tag : UInt8) {body : Slice}
    (h : (tag, some body) ∈ l) : body.length ≤ (encFields l).length := by
  induction l with
  | nil => simp at h
  | cons p l ih =>
    have hsplit : encFields (p :: l) = optTlv p.1 p.2 ++ encFields l := rfl
    rw [hsplit, List.length_append]
    rcases List.mem_cons.mp h with rfl | h
    · have := length_body_le tag body
      simp only [optTlv]
      omega
    · have := ih h
      omega

/-- A component is no longer than the body it stands in. -/
theorem fGet_length {body b : Slice} {order : List UInt8} {f : Fields} {tag : UInt8}
    (hn : order.Nodup) (hf : rFields body order = some f) (h : fGet f tag = some b) :
    b.length ≤ body.length := by
  obtain ⟨henc, horder⟩ := rFields_some hn hf
  by_cases ht : tag ∈ order
  · rw [henc]
    apply length_le_encFields tag
    rw [← h]
    exact List.mem_map_of_mem (f := fun t => (t, fGet f t)) ht
  · rw [fGet_eq_none (by rwa [horder])] at h
    exact absurd h (by simp)

theorem itemsFrom_const {σ α : Type} (item : α → Tlv) (load : σ → α → σ) (st : σ) (l : List α) :
    itemsFrom (fun _ => item) load st l = l.map item := by
  induction l generalizing st with
  | nil => rfl
  | cons a l ih => rw [itemsFrom, ih, List.map_cons]

theorem length_le_encItems {items : List Tlv} {t : Tlv} (h : t ∈ items) :
    t.body.length ≤ (encItems items).length := by
  induction items with
  | nil => simp at h
  | cons u items ih =>
    have hsplit : encItems (u :: items) = encTlv u.tag u.body ++ encItems items := rfl
    rw [hsplit, List.length_append]
    rcases List.mem_cons.mp h with rfl | h
    · have := length_body_le t.tag t.body
      omega
    · have := ih h
      omega

theorem forall_mem_itemsFrom {σ α : Type} {item : σ → α → Tlv} {load : σ → α → σ} {q : Tlv → Prop}
    (h : ∀ st a, q (item st a)) (st : σ) (l : List α) : ∀ t ∈ itemsFrom item load st l, q t := by
  induction l generalizing st with
  | nil => simp [itemsFrom]
  | cons a l ih =>
    rw [itemsFrom, List.forall_mem_cons]
    exact ⟨h st a, ih (load st a)⟩

/-- If a step reads one value into a state that meets `inv`, a walk reads a list of them. -/
theorem rWalk_loads_of {σ ε α : Type} {bad : ε} (inv : σ → Prop) (step : σ → Tlv → Except ε σ)
    (item : σ → α → Tlv) (cond : σ → α → Prop) (load : σ → α → σ) {body : Slice}
    (hb : body.length ≤ 0xFFFF) (hlow : ∀ st a, LowTag (item st a).tag)
    (hinv : ∀ st a, inv st → cond st a → inv (load st a))
    (h : ∀ st tlv st', inv st → tlv.Readable →
      (step st tlv = .ok st' ↔ ∃ a, tlv = item st a ∧ cond st a ∧ st' = load st a)) {st st' : σ}
    (hst : inv st) :
    rWalk bad step body.length body st = .ok st' ↔
      ∃ l, body = encItems (itemsFrom item load st l) ∧ AllFrom cond load st l ∧
        st' = l.foldl load st := by
  rw [rWalk_eq_ok le_rfl]
  constructor
  · rintro ⟨items, hr, hbody, hh⟩
    obtain ⟨l, rfl, hl⟩ := (handleAll_eq_ok_of inv step item cond load hinv (fun st hst t ht st' =>
      h st t st' hst (hr t ht)) hst).mp hh
    exact ⟨l, hbody, hl⟩
  · rintro ⟨l, hbody, hl⟩
    have hr : ∀ t ∈ itemsFrom item load st l, t.Readable := by
      intro t ht
      refine ⟨forall_mem_itemsFrom (q := fun t => LowTag t.tag) hlow st l t ht, ?_⟩
      rw [hbody] at hb
      exact (length_le_encItems ht).trans hb
    exact ⟨_, hr, hbody, (handleAll_eq_ok_of inv step item cond load hinv (fun st hst t ht st' =>
      h st t st' hst (hr t ht)) hst).mpr ⟨l, rfl, hl⟩⟩

theorem rWalk_loads {σ ε α : Type} {bad : ε} (step : σ → Tlv → Except ε σ) (item : σ → α → Tlv)
    (cond : σ → α → Prop) (load : σ → α → σ) {body : Slice} (hb : body.length ≤ 0xFFFF)
    (hlow : ∀ st a, LowTag (item st a).tag)
    (h : ∀ st tlv st', tlv.Readable →
      (step st tlv = .ok st' ↔ ∃ a, tlv = item st a ∧ cond st a ∧ st' = load st a)) {st st' : σ} :
    rWalk bad step body.length body st = .ok st' ↔
      ∃ l, body = encItems (itemsFrom item load st l) ∧ AllFrom cond load st l ∧
        st' = l.foldl load st :=
  rWalk_loads_of (fun _ => True) step item cond load hb hlow (fun _ _ _ _ => trivial)
    (fun st tlv st' _ => h st tlv st') trivial

theorem encItems_injective {items items' : List Tlv} (hr : ∀ t ∈ items, t.Readable)
    (hr' : ∀ t ∈ items', t.Readable) (h : encItems items = encItems items') : items = items' := by
  induction items generalizing items' with
  | nil =>
    cases items' with
    | nil => rfl
    | cons t items' => simp [encItems, encTlv] at h
  | cons t items ih =>
    cases items' with
    | nil => simp [encItems, encTlv] at h
    | cons u items' =>
      have ht := hr t List.mem_cons_self
      have hu := hr' u List.mem_cons_self
      have h₁ := rTlv_encTlv (encItems items) ht.1 ht.2
      have h₂ := rTlv_encTlv (encItems items') hu.1 hu.2
      have hsplit : encTlv t.tag t.body ++ encItems items =
          encTlv u.tag u.body ++ encItems items' := h
      rw [hsplit, h₂, Option.some.injEq, Prod.mk.injEq] at h₁
      rw [show t = u from h₁.1.symm,
        ih (fun v hv => hr v (List.mem_cons_of_mem _ hv))
          (fun v hv => hr' v (List.mem_cons_of_mem _ hv)) h₁.2.symm]

def rInt (field : Option Slice) : Option ℤ :=
  match field with
  | none => none
  | some s => decInt s

def rUint (field : Option Slice) (max : ℕ) : Option ℕ :=
  match rInt field with
  | none => none
  | some v => if v < 0 ∨ (max : ℤ) < v then none else some v.toNat

def rBool (field : Option Slice) : Option Bool :=
  match field with
  | some [b] => if b ≠ 0x00 ∧ b ≠ 0xFF then none else some (b == 0xFF)
  | _ => none

/-- A DEFAULT FALSE boolean: absent means false, and an explicit false is refused. -/
def rDefaultFalse (f : Fields) (tag : UInt8) : Option Bool :=
  match fGet f tag with
  | none => some false
  | some body =>
    match rBool (some body) with
    | none => none
    | some v => if !v then none else some true

def rOctets (field : Option Slice) (want : ℕ) : Option Slice :=
  match field with
  | none => none
  | some s => if s.length ≠ want then none else some s

/-- An optional component: absent, or present and read by `r`. -/
def rOptional {α : Type} (r : Option Slice → Option α) (field : Option Slice) :
    Option (Option α) :=
  match field with
  | none => some none
  | some body => (r (some body)).map some

theorem rInt_eq_some {field : Option Slice} {v : ℤ} :
    rInt field = some v ↔ field = some (encInt v) ∧ -2 ^ 63 ≤ v ∧ v < 2 ^ 63 := by
  cases field with
  | none => simp [rInt]
  | some s => simp only [rInt, decInt_eq_some, Option.some.injEq]

theorem rUint_eq_some {field : Option Slice} (max : ℕ) {n : ℕ} (hmax : max < 2 ^ 63) :
    rUint field max = some n ↔ field = some (encInt n) ∧ n ≤ max := by
  constructor
  · intro h
    rw [rUint] at h
    cases hi : rInt field with
    | none => simp [hi] at h
    | some v =>
      rw [hi] at h
      dsimp only at h
      split_ifs at h with hv
      rw [Option.some.injEq] at h
      have hv' : v = (n : ℤ) := by omega
      obtain ⟨hf, -, -⟩ := rInt_eq_some.mp hi
      exact ⟨by rw [hf, hv'], by omega⟩
  · rintro ⟨hf, hn⟩
    have hi : rInt field = some (n : ℤ) := rInt_eq_some.mpr ⟨hf, by omega, by omega⟩
    rw [rUint, hi]
    dsimp only
    rw [if_neg (by omega), Int.toNat_natCast]

theorem rBool_eq_some {field : Option Slice} {v : Bool} :
    rBool field = some v ↔ field = some (encBool v) := by
  constructor
  · intro h
    unfold rBool at h
    split at h
    · rename_i b
      split_ifs at h with hb
      rw [Option.some.injEq] at h
      subst h
      rcases not_and_or.mp hb with hb | hb
      · rw [not_not] at hb
        subst hb
        rfl
      · rw [not_not] at hb
        subst hb
        rfl
    · exact absurd h (by simp)
  · rintro rfl
    cases v <;> rfl

theorem rDefaultFalse_eq_some {f : Fields} {tag : UInt8} {v : Bool} :
    rDefaultFalse f tag = some v ↔ fGet f tag = if v then some (encBool true) else none := by
  unfold rDefaultFalse
  cases hf : fGet f tag with
  | none => cases v <;> simp
  | some body =>
    dsimp only
    cases hb : rBool (some body) with
    | none =>
      have hne : body ≠ encBool true := by
        rintro rfl
        exact absurd hb (by decide)
      cases v <;> simp [hne]
    | some w =>
      rw [rBool_eq_some, Option.some.injEq] at hb
      subst hb
      cases v <;> cases w <;> simp [encBool]

theorem rOctets_eq_some {field : Option Slice} {want : ℕ} {bs : Slice} :
    rOctets field want = some bs ↔ field = some bs ∧ bs.length = want := by
  cases field with
  | none => simp [rOctets]
  | some s =>
    rw [rOctets]
    split_ifs with h
    · simp only [Option.some.injEq, false_iff, not_and]
      rintro rfl
      exact h
    · rw [Option.some.injEq]
      constructor
      · rintro rfl
        exact ⟨rfl, not_not.mp h⟩
      · exact fun h => h.1

/-- A reader of optional components that accepts what `enc` makes of the values in `p`. -/
theorem rOptional_eq_some {α : Type} {r : Option Slice → Option α} {enc : α → Slice}
    {p : α → Prop} (h : ∀ field a, r field = some a ↔ field = some (enc a) ∧ p a)
    {field : Option Slice} {o : Option α} :
    rOptional r field = some o ↔ field = o.map enc ∧ ∀ a ∈ o, p a := by
  cases field with
  | none =>
    cases o <;> simp [rOptional]
  | some body =>
    cases o with
    | none => simp [rOptional]
    | some a =>
      simp only [rOptional, Option.map_eq_some_iff, Option.some.injEq, exists_eq_right, h,
        Option.map_some, Option.mem_def, forall_eq']

/-- Fails with `e` when a reader did. -/
def orFail {ε α : Type} (e : ε) : Option α → Except ε α
  | none => .error e
  | some a => .ok a

/-- Fails with `e` under a condition. -/
def refuseIf {ε : Type} (p : Prop) [Decidable p] (e : ε) : Except ε Unit :=
  if p then .error e else .ok ()

/-- Fails with `e` when an operation reports that it did. -/
def orRefuse {ε α : Type} (e : ε) : α × Bool → Except ε α
  | (a, true) => .ok a
  | (_, false) => .error e

theorem bind_eq_ok {ε α β : Type} {x : Except ε α} {f : α → Except ε β} {b : β} :
    (x >>= f) = .ok b ↔ ∃ a, x = .ok a ∧ f a = .ok b := by
  cases x with
  | error e => simp [bind, Except.bind]
  | ok a => simp [bind, Except.bind]

theorem orFail_eq_ok {ε α : Type} {e : ε} {o : Option α} {a : α} :
    orFail e o = .ok a ↔ o = some a := by
  cases o <;> simp [orFail]

theorem refuseIf_eq_ok {ε : Type} {p : Prop} [Decidable p] {e : ε} {u : Unit} :
    refuseIf p e = .ok u ↔ ¬p := by
  unfold refuseIf
  split_ifs with h <;> simp [h]

theorem orRefuse_eq_ok {ε α : Type} {e : ε} {x : α × Bool} {a : α} :
    orRefuse e x = .ok a ↔ x = (a, true) := by
  obtain ⟨b, flag⟩ := x
  cases flag <;> simp [orRefuse]

theorem pure_eq_ok {ε α : Type} {a b : α} : (pure a : Except ε α) = .ok b ↔ a = b := by
  simp [pure, Except.pure]

end DfcCore.Der
