import DfcCore.DerDecode

/-!
# The reader on pointers

The decoder holds pointers into its input, not lists: a slice is a pointer and a length, and what
`r_fields` keeps of a component is a 16-bit offset at which `field_body` reads the header again.
Here the reader works on positions of the input and every octet is fetched by an access that may
miss. On slices inside the input no access misses, and what is read there is what the reader on
lists reads from the octets of the slice.
-/
namespace DfcCore.Der

/-- A pointer into the input and a length. -/
structure Span where
  start : ℕ
  len : ℕ
  deriving Repr, DecidableEq

/-- A TLV whose body is still in the input. -/
structure SpanTlv where
  tag : UInt8
  body : Span
  deriving Repr, DecidableEq

/-- The outcome of code that reads the input: `none` stands for a read outside it. -/
abbrev Access (α : Type) : Type := Option α

/-- The loop over the octets of a long-form length, in `size_t`. -/
def readLength (input : List UInt8) : ℕ → ℕ → ℕ → Access ℕ
  | _, 0, n => some n
  | pos, count + 1, n => do
    let octet ← input[pos]?
    readLength input (pos + 1) count (n * 256 % 2 ^ 64 + octet.toNat)

/-- `r_tlv`: the inner `none` is its refusal. -/
def rTlvAt (input : List UInt8) (s : Span) : Access (Option (SpanTlv × Span)) :=
  if s.len < 2 then some none
  else input[s.start]?.bind fun tag =>
    if tag &&& 0x1F == 0x1F then some none  -- high-tag-number form
    else input[s.start + 1]?.bind fun n =>
      if n &&& 0x80 != 0 then
        let count := (n &&& 0x7F).toNat
        if count = 0 ∨ 2 < count then some none
        else if s.len < 2 + count then some none
        else (readLength input (s.start + 2) count 0).bind fun n =>
          if n < 128 then some none  -- non-minimal long form
          else if count = 2 ∧ n < 256 then some none
          else if s.len < 2 + count + n then some none
          else some (some (⟨tag, ⟨s.start + (2 + count), n⟩⟩,
            ⟨s.start + (2 + count + n), s.len - (2 + count + n)⟩))
      else
        let n := n.toNat
        if s.len < 2 + n then some none
        else some (some (⟨tag, ⟨s.start + 2, n⟩⟩, ⟨s.start + (2 + n), s.len - (2 + n)⟩))

/-- `field_body`: the header at a component, read without any check. -/
def fieldBodyAt (input : List UInt8) (field : ℕ) : Access Span :=
  input[field + 1]?.bind fun length =>
    if length &&& 0x80 != 0 then
      let count := (length &&& 0x7F).toNat
      (readLength input (field + 2) count 0).map fun length => ⟨field + (2 + count), length⟩
    else some ⟨field + 2, length.toNat⟩

/-- An accepted TLV: where its body and the rest lie. The header alone, read again without the
checks, gives the same body. -/
structure Accepted (input : List UInt8) (s : Span) (t : SpanTlv) (rest : Span) (header : ℕ) :
    Prop where
  two : 2 ≤ header
  fits : header + t.body.len ≤ s.len
  tag : input[s.start]? = some t.tag
  body : t.body.start = s.start + header
  rest_eq : rest = ⟨s.start + (header + t.body.len), s.len - (header + t.body.len)⟩
  again : fieldBodyAt input s.start = some t.body

/-- A reader that goes on was not refused by a check. -/
theorem of_unrefused {α : Type} {p : Prop} [Decidable p] {x : Access (Option α)} {a : α}
    (h : (if p then some none else x) = some (some a)) : ¬p ∧ x = some (some a) := by
  by_cases hp : p
  · rw [if_pos hp] at h
    cases h
  · rw [if_neg hp] at h
    exact ⟨hp, h⟩

theorem rTlvAt_accepted {input : List UInt8} {s rest : Span} {t : SpanTlv}
    (h : rTlvAt input s = some (some (t, rest))) : ∃ header, Accepted input s t rest header := by
  unfold rTlvAt at h
  obtain ⟨hlen, h⟩ := of_unrefused h
  obtain ⟨tag, htag, h⟩ := Option.bind_eq_some_iff.1 h
  obtain ⟨hhigh, h⟩ := of_unrefused h
  obtain ⟨n, hn, h⟩ := Option.bind_eq_some_iff.1 h
  by_cases hlong : (n &&& 0x80 != 0) = true
  · rw [if_pos hlong] at h
    obtain ⟨hcount, h⟩ := of_unrefused h
    obtain ⟨hroom, h⟩ := of_unrefused h
    obtain ⟨length, hlength, h⟩ := Option.bind_eq_some_iff.1 h
    obtain ⟨hminimal, h⟩ := of_unrefused h
    obtain ⟨hwide, h⟩ := of_unrefused h
    obtain ⟨hfits, h⟩ := of_unrefused h
    obtain ⟨rfl, rfl⟩ := Prod.mk.injEq .. ▸ Option.some.inj (Option.some.inj h)
    refine ⟨2 + (n &&& 0x7F).toNat, by omega, by dsimp only; omega, htag, rfl, rfl, ?_⟩
    unfold fieldBodyAt
    rw [hn, Option.bind_some, if_pos hlong]
    dsimp only
    rw [hlength]
    rfl
  · rw [if_neg hlong] at h
    obtain ⟨hfits, h⟩ := of_unrefused h
    obtain ⟨rfl, rfl⟩ := Prod.mk.injEq .. ▸ Option.some.inj (Option.some.inj h)
    refine ⟨2, le_rfl, by dsimp only; omega, htag, rfl, rfl, ?_⟩
    unfold fieldBodyAt
    rw [hn, Option.bind_some, if_neg hlong]

/-- A TLV takes at least two octets, so a walk over a slice ends. -/
theorem rTlvAt_shrinks {input : List UInt8} {s rest : Span} {t : SpanTlv}
    (h : rTlvAt input s = some (some (t, rest))) : rest.len + 2 ≤ s.len := by
  obtain ⟨header, haccepted⟩ := rTlvAt_accepted h
  have htwo := haccepted.two
  have hfits := haccepted.fits
  rw [haccepted.rest_eq]
  dsimp only
  omega

/-- The slice lies inside the input. -/
def Span.Within (s : Span) (input : List UInt8) : Prop := s.start + s.len ≤ input.length

/-- The octets of a slice. -/
def Span.octets (s : Span) (input : List UInt8) : Slice := (input.drop s.start).take s.len

theorem Span.length_octets {input : List UInt8} {s : Span} (h : s.Within input) :
    (s.octets input).length = s.len := by
  unfold Span.Within at h
  rw [Span.octets, List.length_take, List.length_drop]
  omega

/-- An octet of a slice, fetched from the input. -/
theorem Span.fetch {input : List UInt8} {s : Span} {k : ℕ} (hk : k < s.len) :
    input[s.start + k]? = (s.octets input)[k]? := by
  rw [Span.octets, List.getElem?_take_of_lt hk, List.getElem?_drop]

/-- The octets of a part of a slice. -/
theorem Span.octets_part {input : List UInt8} {s : Span} {k n : ℕ} (hfits : k + n ≤ s.len) :
    (Span.mk (s.start + k) n).octets input = ((s.octets input).drop k).take n := by
  unfold Span.octets
  dsimp only
  rw [List.drop_take, List.drop_drop, List.take_take, Nat.min_eq_left (by omega)]

/-- A part behind the identifier and the first length octet, and what follows it. -/
theorem Span.octets_behind {input : List UInt8} {s : Span} (hs : s.Within input) {tag first : UInt8}
    {tail : Slice} (h : s.octets input = tag :: first :: tail) {k n : ℕ}
    (hfits : 2 + k + n ≤ s.len) :
    (Span.mk (s.start + (2 + k)) n).octets input = (tail.drop k).take n ∧
      (Span.mk (s.start + (2 + k + n)) (s.len - (2 + k + n))).octets input =
        tail.drop (k + n) := by
  have hlen := Span.length_octets hs
  rw [h, List.length_cons, List.length_cons] at hlen
  constructor
  · rw [Span.octets_part hfits, h, Nat.add_comm 2 k, List.drop_succ_cons, List.drop_succ_cons]
  · have hadd : 2 + k + n = (k + n) + 2 := by omega
    rw [Span.octets_part (by omega), h, hadd, List.drop_succ_cons, List.drop_succ_cons]
    apply List.take_of_length_le
    rw [List.length_drop]
    omega

theorem Accepted.within {input : List UInt8} {s rest : Span} {t : SpanTlv} {header : ℕ}
    (h : Accepted input s t rest header) (hs : s.Within input) :
    t.body.Within input ∧ rest.Within input := by
  have hfits := h.fits
  have hbody := h.body
  unfold Span.Within at hs ⊢
  rw [h.rest_eq]
  dsimp only
  omega

/-- A long-form length of one or two octets. -/
theorem readLength_octets {input : List UInt8} {s : Span} {k count n : ℕ}
    (hfits : k + count ≤ s.len) (hs : s.Within input)
    (hn : n * 256 ^ count + 256 ^ count ≤ 2 ^ 64) :
    readLength input (s.start + k) count n =
      some ((((s.octets input).drop k).take count).foldl (fun v b => v * 256 + b.toNat) n) := by
  induction count generalizing k n with
  | zero =>
    rw [List.take_zero]
    rfl
  | succ count ih =>
    have hlen := Span.length_octets hs
    have hk : k < (s.octets input).length := by omega
    have hoctet := UInt8.toNat_lt ((s.octets input)[k])
    have hpow : 1 ≤ 256 ^ count := Nat.one_le_pow _ _ (by omega)
    rw [pow_succ] at hn
    have hwrap : n * 256 % 2 ^ 64 = n * 256 := by
      apply Nat.mod_eq_of_lt
      nlinarith
    rw [readLength, Span.fetch (by omega), List.getElem?_eq_getElem hk, Nat.add_assoc,
      List.drop_eq_getElem_cons hk, List.take_succ_cons, List.foldl_cons]
    refine (ih (k := k + 1) (by omega) ?_).trans ?_
    · rw [hwrap]
      nlinarith
    · rw [hwrap]

/-- What an accepted TLV and the slice behind it hold. -/
def readOctets (input : List UInt8) (p : SpanTlv × Span) : Tlv × Slice :=
  (⟨p.1.tag, p.1.body.octets input⟩, p.2.octets input)

/-- Inside the input no access misses, and the reader on pointers is the reader on lists. -/
theorem rTlvAt_eq {input : List UInt8} {s : Span} (hs : s.Within input) :
    ∃ r, rTlvAt input s = some r ∧ r.map (readOctets input) = rTlv (s.octets input) := by
  have hlen := Span.length_octets hs
  have hfetch (k : ℕ) (hk : k < s.len) : input[s.start + k]? = (s.octets input)[k]? :=
    Span.fetch hk
  have hbehind (tag first : UInt8) (tail : Slice) (h : s.octets input = tag :: first :: tail)
      (k n : ℕ) (hfits : 2 + k + n ≤ s.len) := Span.octets_behind hs h hfits
  have hlength (count : ℕ) (hfits : 2 + count ≤ s.len) (htwo : count ≤ 2) :
      readLength input (s.start + 2) count 0 =
        some (beNat (((s.octets input).drop 2).take count)) := by
    refine readLength_octets hfits hs ?_
    have : 256 ^ count ≤ 256 ^ 2 := Nat.pow_le_pow_right (by omega) htwo
    omega
  generalize s.octets input = octets at hlen hfetch hbehind hlength
  match octets, hlen with
  | [], hlen =>
    refine ⟨none, ?_, rfl⟩
    rw [rTlvAt, if_pos (by simp at hlen; omega)]
  | [_], hlen =>
    refine ⟨none, ?_, rfl⟩
    rw [rTlvAt, if_pos (by simp at hlen; omega)]
  | tag :: n :: tail, hlen =>
    simp only [List.length_cons] at hlen
    have htag : input[s.start]? = some tag := hfetch 0 (by omega)
    have hn : input[s.start + 1]? = some n := hfetch 1 (by omega)
    rw [rTlvAt, if_neg (by omega), htag, Option.bind_some, hn, rTlv]
    by_cases hhigh : (tag &&& 0x1F == 0x1F) = true
    · rw [if_pos hhigh, if_pos hhigh]
      exact ⟨none, rfl, rfl⟩
    rw [if_neg hhigh, if_neg hhigh, Option.bind_some]
    dsimp only
    by_cases hlong : (n &&& 0x80 != 0) = true
    · rw [if_pos hlong, if_pos hlong]
      generalize (n &&& 0x7F).toNat = count
      by_cases hcount : count = 0 ∨ 2 < count
      · rw [if_pos hcount, if_pos hcount]
        exact ⟨none, rfl, rfl⟩
      rw [if_neg hcount, if_neg hcount]
      by_cases hroom : s.len < 2 + count
      · rw [if_pos hroom, if_pos (by omega)]
        exact ⟨none, rfl, rfl⟩
      rw [if_neg hroom, if_neg (by omega), hlength count (by omega) (by omega), Option.bind_some]
      have htail : (tag :: n :: tail).drop 2 = tail := rfl
      rw [htail]
      generalize beNat (tail.take count) = length
      by_cases hminimal : length < 128
      · rw [if_pos hminimal, if_pos hminimal]
        exact ⟨none, rfl, rfl⟩
      rw [if_neg hminimal, if_neg hminimal]
      by_cases hwide : count = 2 ∧ length < 256
      · rw [if_pos hwide, if_pos hwide]
        exact ⟨none, rfl, rfl⟩
      rw [if_neg hwide, if_neg hwide]
      by_cases hfits : s.len < 2 + count + length
      · rw [if_pos hfits, if_pos (by omega)]
        exact ⟨none, rfl, rfl⟩
      rw [if_neg hfits, if_neg (by omega)]
      obtain ⟨hbody, hrest⟩ := hbehind tag n tail rfl count length (by omega)
      refine ⟨_, rfl, ?_⟩
      rw [Option.map_some, readOctets]
      dsimp only
      rw [hbody, hrest]
    · rw [if_neg hlong, if_neg hlong]
      by_cases hfits : s.len < 2 + n.toNat
      · rw [if_pos hfits, if_pos (by omega)]
        exact ⟨none, rfl, rfl⟩
      rw [if_neg hfits, if_neg (by omega)]
      obtain ⟨hbody, hrest⟩ := hbehind tag n tail rfl 0 n.toNat (by omega)
      rw [Nat.add_zero] at hbody hrest
      rw [Nat.zero_add] at hrest
      refine ⟨_, rfl, ?_⟩
      rw [Option.map_some, readOctets]
      dsimp only
      rw [hbody, hrest, List.drop_zero]

/-- What `r_fields` keeps of a body: where it starts, and by place in the declaration order the
offset at which a component was found. -/
structure SpanFields where
  base : ℕ
  order : List UInt8
  encodedOffset : ℕ → Option ℕ

/-- The loop of `r_fields`. Every turn takes octets, so it ends. -/
def rFieldsAtLoop (input : List UInt8) (base : ℕ) (order : List UInt8) (body : Span) (cursor : ℕ)
    (out : ℕ → Option ℕ) : Access (Option (ℕ → Option ℕ)) :=
  if body.len = 0 then some (some out)
  else match _h : rTlvAt input body with
  | none => none
  | some none => some none
  | some (some (tlv, rest)) =>
    match order.findIdx? (· == tlv.tag) with
    | none => some none  -- unknown tag
    | some idx =>
      if (out idx).isSome then some none  -- duplicate
      else if idx < cursor then some none  -- out of declaration order
      else
        let offset := body.start - base
        if 0xFFFF < offset then some none
        else rFieldsAtLoop input base order rest (idx + 1)
          (Function.update out idx (some (u16 offset)))
termination_by body.len
decreasing_by
  have := rTlvAt_shrinks _h
  omega

def rFieldsAt (input : List UInt8) (body : Span) (order : List UInt8) :
    Access (Option SpanFields) :=
  if 17 < order.length then some none
  else (rFieldsAtLoop input body.start order body 0 fun _ => none).map
    (Option.map (SpanFields.mk body.start order))

/-- `f_get`: a pointer at the component. -/
def fGetAt (f : SpanFields) (tag : UInt8) : Option ℕ :=
  (List.range f.order.length).findSome? fun i =>
    if f.order[i]? = some tag then (f.encodedOffset i).map (f.base + ·) else none

/-- A component that was recorded: at its offset the reader accepts a TLV, up to the end of the
body, under the identifier of its place. -/
structure RecordedAt (input : List UInt8) (body : Span) (order : List UInt8) (i offset : ℕ)
    (t : SpanTlv) : Prop where
  offset_le : offset ≤ 0xFFFF
  offset_lt : offset < body.len
  place : order[i]? = some t.tag
  accepted : ∃ rest, rTlvAt input ⟨body.start + offset, body.len - offset⟩ = some (some (t, rest))

/-- The offsets stand for the components. -/
def RecordedAs (input : List UInt8) (body : Span) (order : List UInt8) (out : ℕ → Option ℕ)
    (component : ℕ → Option Slice) : Prop :=
  ∀ i, (out i = none ∧ component i = none) ∨ ∃ offset t, out i = some offset ∧
    RecordedAt input body order i offset t ∧ component i = some (t.body.octets input)

theorem RecordedAs.isSome {input : List UInt8} {body : Span} {order : List UInt8}
    {out : ℕ → Option ℕ} {component : ℕ → Option Slice}
    (h : RecordedAs input body order out component) (i : ℕ) :
    (out i).isSome = (component i).isSome := by
  obtain ⟨hout, hcomponent⟩ | ⟨offset, t, hout, -, hcomponent⟩ := h i
  · rw [hout, hcomponent]
    rfl
  · rw [hout, hcomponent]
    rfl

theorem RecordedAs.update {input : List UInt8} {body : Span} {order : List UInt8}
    {out : ℕ → Option ℕ} {component : ℕ → Option Slice} {idx offset : ℕ} {t : SpanTlv}
    (h : RecordedAs input body order out component)
    (hrecorded : RecordedAt input body order idx offset t) :
    RecordedAs input body order (Function.update out idx (some offset))
      (Function.update component idx (some (t.body.octets input))) := by
  intro i
  by_cases hi : i = idx
  · subst hi
    rw [Function.update_self, Function.update_self]
    exact .inr ⟨offset, t, rfl, hrecorded, rfl⟩
  · rw [Function.update_of_ne hi, Function.update_of_ne hi]
    exact h i

theorem findIdx?_place {order : List UInt8} {tag : UInt8} {idx : ℕ}
    (h : order.findIdx? (· == tag) = some idx) : order[idx]? = some tag := by
  obtain ⟨hlt, htag, -⟩ := List.findIdx?_eq_some_iff_getElem.1 h
  rw [List.getElem?_eq_getElem hlt, eq_of_beq htag]

/-- One turn of the loop on a TLV that was accepted. -/
theorem rFieldsAtLoop_turn {input : List UInt8} {base : ℕ} {order : List UInt8} {body rest : Span}
    {cursor : ℕ} {out : ℕ → Option ℕ} {t : SpanTlv} (hne : body.len ≠ 0)
    (hread : rTlvAt input body = some (some (t, rest))) :
    rFieldsAtLoop input base order body cursor out =
      match order.findIdx? (· == t.tag) with
      | none => some none
      | some idx =>
        if (out idx).isSome then some none
        else if idx < cursor then some none
        else if 0xFFFF < body.start - base then some none
        else rFieldsAtLoop input base order rest (idx + 1)
          (Function.update out idx (some (u16 (body.start - base)))) := by
  rw [rFieldsAtLoop, if_neg hne]
  split
  · rename_i hnone
    rw [hread] at hnone
    cases hnone
  · rename_i hrefused
    rw [hread] at hrefused
    cases hrefused
  · rename_i tlv rest' haccepted
    rw [hread] at haccepted
    cases haccepted
    rfl

theorem rFieldsAtLoop_refused {input : List UInt8} {base : ℕ} {order : List UInt8} {body : Span}
    {cursor : ℕ} {out : ℕ → Option ℕ} (hne : body.len ≠ 0)
    (hread : rTlvAt input body = some none) :
    rFieldsAtLoop input base order body cursor out = some none := by
  rw [rFieldsAtLoop, if_neg hne]
  split
  · rename_i hnone
    rw [hread] at hnone
    cases hnone
  · rfl
  · rename_i tlv rest' haccepted
    rw [hread] at haccepted
    cases haccepted

/-- The loop on pointers is the loop on lists. `fuel` bounds the turns of the latter. -/
theorem rFieldsAtLoop_eq {input : List UInt8} {whole : Span} {order : List UInt8} {fuel : ℕ}
    {body : Span} {cursor : ℕ} {out : ℕ → Option ℕ} {component : ℕ → Option Slice}
    (hbody : body.Within input) (hstart : whole.start ≤ body.start)
    (hend : body.start + body.len = whole.start + whole.len) (hfuel : body.len ≤ fuel)
    (hout : RecordedAs input whole order out component) :
    (rFieldsAtLoop input whole.start order body cursor out = some none ∧
      rFieldsLoop order whole.len fuel (body.octets input) cursor component = none) ∨
    ∃ out' component', rFieldsAtLoop input whole.start order body cursor out = some (some out') ∧
      rFieldsLoop order whole.len fuel (body.octets input) cursor component = some component' ∧
      RecordedAs input whole order out' component' := by
  induction fuel generalizing body cursor out component with
  | zero =>
    have hlen := Span.length_octets hbody
    have hempty : body.octets input = [] := List.eq_nil_of_length_eq_zero (by omega)
    rw [rFieldsAtLoop, if_pos (by omega), hempty]
    exact .inr ⟨out, component, rfl, rfl, hout⟩
  | succ fuel ih =>
    have hlen := Span.length_octets hbody
    by_cases hzero : body.len = 0
    · have hempty : body.octets input = [] := List.eq_nil_of_length_eq_zero (by omega)
      rw [rFieldsAtLoop, if_pos hzero, hempty]
      exact .inr ⟨out, component, rfl, rfl, hout⟩
    obtain ⟨r, hread, hoctets⟩ := rTlvAt_eq hbody
    obtain ⟨b, s, hbs⟩ := List.exists_cons_of_length_pos (l := body.octets input) (by omega)
    rw [hbs] at hoctets hlen ⊢
    rw [List.length_cons] at hlen
    rw [rFieldsLoop, ← hoctets]
    cases r with
    | none => exact .inl ⟨rFieldsAtLoop_refused hzero hread, rfl⟩
    | some p =>
      obtain ⟨t, rest⟩ := p
      rw [rFieldsAtLoop_turn hzero hread]
      simp only [Option.map_some, readOctets]
      cases hidx : order.findIdx? (· == t.tag) with
      | none => exact .inl ⟨rfl, rfl⟩
      | some idx =>
        dsimp only
        rw [hout.isSome idx]
        by_cases hduplicate : (component idx).isSome = true
        · rw [if_pos hduplicate, if_pos hduplicate]
          exact .inl ⟨rfl, rfl⟩
        rw [if_neg hduplicate, if_neg hduplicate]
        by_cases hunordered : idx < cursor
        · rw [if_pos hunordered, if_pos hunordered]
          exact .inl ⟨rfl, rfl⟩
        rw [if_neg hunordered, if_neg hunordered]
        by_cases hfar : 0xFFFF < body.start - whole.start
        · rw [if_pos hfar, if_pos (by omega)]
          exact .inl ⟨rfl, rfl⟩
        rw [if_neg hfar, if_neg (by omega), u16_of_lt (by omega)]
        obtain ⟨header, haccepted⟩ := rTlvAt_accepted hread
        have hfits := haccepted.fits
        have hrest := haccepted.rest_eq
        have hshrinks := rTlvAt_shrinks hread
        have hhere : (⟨whole.start + (body.start - whole.start),
            whole.len - (body.start - whole.start)⟩ : Span) = body := by
          cases body
          simp only [Span.mk.injEq]
          dsimp only at hstart hend
          omega
        have hrecorded : RecordedAt input whole order idx (body.start - whole.start) t :=
          ⟨by omega, by omega, findIdx?_place hidx, rest, by rw [hhere]; exact hread⟩
        refine ih (haccepted.within hbody).2 ?_ ?_ (by omega) (hout.update hrecorded)
        · rw [hrest]
          dsimp only
          omega
        · rw [hrest]
          dsimp only
          omega

/-- The components on lists that the recorded offsets stand for. -/
def SpanFields.onLists (f : SpanFields) (input : List UInt8) : Fields where
  order := f.order
  component i := (f.encodedOffset i).bind fun offset =>
    (fieldBodyAt input (f.base + offset)).map fun body => body.octets input

theorem RecordedAt.again {input : List UInt8} {body : Span} {order : List UInt8} {i offset : ℕ}
    {t : SpanTlv} (h : RecordedAt input body order i offset t) :
    fieldBodyAt input (body.start + offset) = some t.body := by
  obtain ⟨rest, haccepted⟩ := h.accepted
  obtain ⟨header, haccepted⟩ := rTlvAt_accepted haccepted
  exact haccepted.again

/-- Inside the input `r_fields` records components that `field_body` finds again, and they are the
components of the reader on lists. -/
theorem rFieldsAt_eq {input : List UInt8} {s : Span} (hs : s.Within input) (order : List UInt8) :
    ∃ r, rFieldsAt input s order = some r ∧
      r.map (fun f => f.onLists input) = rFields (s.octets input) order ∧
      ∀ f, r = some f → f.base = s.start ∧ f.order = order ∧
        ∀ i offset, f.encodedOffset i = some offset → ∃ t, RecordedAt input s order i offset t := by
  have hnothing : RecordedAs input s order (fun _ => none) (fun _ => none) :=
    fun _ => .inl ⟨rfl, rfl⟩
  unfold rFieldsAt rFields
  by_cases hmany : 17 < order.length
  · rw [if_pos hmany, if_pos hmany]
    exact ⟨none, rfl, rfl, fun f hf => by cases hf⟩
  rw [if_neg hmany, if_neg hmany, Span.length_octets hs]
  obtain ⟨hloop, hlists⟩ | ⟨out, component, hloop, hlists, hrecorded⟩ :=
    @rFieldsAtLoop_eq input s order s.len s 0 _ _ hs le_rfl rfl le_rfl hnothing
  · rw [hloop, hlists]
    exact ⟨none, rfl, rfl, fun f hf => by cases hf⟩
  · rw [hloop, hlists]
    refine ⟨some ⟨s.start, order, out⟩, rfl, ?_, ?_⟩
    · have hcomponent : (fun i => (out i).bind fun offset =>
          (fieldBodyAt input (s.start + offset)).map fun body => body.octets input) =
          component := by
        funext i
        obtain ⟨hout, hnone⟩ | ⟨offset, t, hout, hat, hsome⟩ := hrecorded i
        · rw [hout, hnone]
          rfl
        · rw [hout, Option.bind_some, hat.again, hsome]
          rfl
      rw [Option.map_some, Option.map_some, SpanFields.onLists, hcomponent]
    · intro f hf
      cases hf
      refine ⟨rfl, rfl, fun i offset hoffset => ?_⟩
      have hoffset : out i = some offset := hoffset
      obtain ⟨hout, -⟩ | ⟨offset', t, hout, hat, -⟩ := hrecorded i
      · rw [hoffset] at hout
        cases hout
      · rw [hoffset] at hout
        cases hout
        exact ⟨t, hat⟩

/-- What `f_get` returns is a recorded component. -/
theorem fGetAt_some {f : SpanFields} {tag : UInt8} {field : ℕ} (h : fGetAt f tag = some field) :
    ∃ i offset, f.order[i]? = some tag ∧ f.encodedOffset i = some offset ∧
      field = f.base + offset := by
  obtain ⟨i, -, hi⟩ := List.exists_of_findSome?_eq_some h
  split_ifs at hi with hplace
  obtain ⟨offset, hoffset, hfield⟩ := Option.map_eq_some_iff.1 hi
  exact ⟨i, offset, hplace, hoffset, hfield.symm⟩

/-- The first entry found stands for the same thing, if every entry found stands for something. -/
theorem findSome?_bind {α β γ : Type} {l : List α} {found : α → Option β} {g : β → Option γ}
    (h : ∀ a ∈ l, ∀ b, found a = some b → (g b).isSome = true) :
    (l.findSome? fun a => (found a).bind g) = (l.findSome? found).bind g := by
  induction l with
  | nil => rfl
  | cons a l ih =>
    rw [List.forall_mem_cons] at h
    rw [List.findSome?_cons, List.findSome?_cons, ih h.2]
    cases hfound : found a with
    | none => rfl
    | some b =>
      obtain ⟨c, hc⟩ := Option.isSome_iff_exists.1 (h.1 b hfound)
      dsimp only [Option.bind_some]
      rw [hc]

/-- What `f_get` points at is what the list of the components has under the tag. -/
theorem fGetAt_eq {input : List UInt8} {f : SpanFields}
    (hbody : ∀ i offset, f.encodedOffset i = some offset →
      (fieldBodyAt input (f.base + offset)).isSome = true) (tag : UInt8) :
    ((fGetAt f tag).bind fun field =>
        (fieldBodyAt input field).map fun body => body.octets input) =
      fGet (f.onLists input) tag := by
  unfold fGetAt fGet
  rw [← findSome?_bind]
  · refine congrArg (List.findSome? · _) (funext fun i => ?_)
    unfold SpanFields.onLists
    dsimp only
    split_ifs
    · rw [Option.bind_map]
      rfl
    · rfl
  · intro i _ field hfield
    split_ifs at hfield
    obtain ⟨offset, hoffset, rfl⟩ := Option.map_eq_some_iff.1 hfield
    rw [Option.isSome_map]
    exact hbody i offset hoffset

/-- The slices a decoder can hold: the input, and whatever the reader returns for a slice that is
held. Nothing else in the decoder makes a slice. -/
inductive Held (input : List UInt8) : Span → Prop where
  | whole : Held input ⟨0, input.length⟩
  | body {s rest : Span} {t : SpanTlv} (hs : Held input s)
      (h : rTlvAt input s = some (some (t, rest))) : Held input t.body
  | rest {s rest : Span} {t : SpanTlv} (hs : Held input s)
      (h : rTlvAt input s = some (some (t, rest))) : Held input rest
  | component {s body : Span} {order : List UInt8} {f : SpanFields} {tag : UInt8} {field : ℕ}
      (hs : Held input s) (hfields : rFieldsAt input s order = some (some f))
      (hget : fGetAt f tag = some field) (hbody : fieldBodyAt input field = some body) :
      Held input body

/-- The turns of a loop `while(len > 0)` that reads TLVs. -/
inductive Walk (input : List UInt8) : Span → ℕ → Span → Prop where
  | start (s : Span) : Walk input s 0 s
  | turn {s s' rest : Span} {n : ℕ} {t : SpanTlv} (hwalk : Walk input s n s')
      (h : rTlvAt input s' = some (some (t, rest))) : Walk input s (n + 1) rest

theorem Walk.bounded {input : List UInt8} {s s' : Span} {n : ℕ} (h : Walk input s n s') :
    s'.len + 2 * n ≤ s.len := by
  induction h with
  | start => omega
  | turn _ hread ih =>
    have := rTlvAt_shrinks hread
    omega

/-- What reading a slice comes to. -/
structure ReadsInside (input : List UInt8) (s : Span) : Prop where
  within : s.Within input
  /-- The octets of the slice are octets of the input. -/
  octet : ∀ i < s.len, input[s.start + i]?.isSome = true
  /-- `r_tlv` stays inside and reads what is there. -/
  tlv : ∃ r, rTlvAt input s = some r ∧ r.map (readOctets input) = rTlv (s.octets input)
  /-- Loops over the slice end. -/
  walk : ∀ n s', Walk input s n s' → s'.len + 2 * n ≤ s.len
  /-- `r_fields` stays inside and finds the components that are there. -/
  fields : ∀ order, ∃ r, rFieldsAt input s order = some r ∧
    r.map (fun f => f.onLists input) = rFields (s.octets input) order
  /-- Wherever `r_fields` recorded a component, `r_tlv` accepts one under the tag of its place, and
  `field_body` stays inside and finds the slice that was accepted. -/
  recorded : ∀ order f i offset, rFieldsAt input s order = some (some f) →
    f.encodedOffset i = some offset → ∃ t, RecordedAt input s order i offset t ∧
      fieldBodyAt input (f.base + offset) = some t.body ∧ t.body.Within input
  /-- `f_get` points at the component that is there. -/
  get : ∀ order f tag, rFieldsAt input s order = some (some f) →
    ((fGetAt f tag).bind fun field =>
      (fieldBodyAt input field).map fun body => body.octets input) = fGet (f.onLists input) tag
  /-- So `field_body` finds what `f_get` points at. -/
  component : ∀ order f tag field, rFieldsAt input s order = some (some f) →
    fGetAt f tag = some field → ∃ offset t rest, field = s.start + offset ∧ offset ≤ 0xFFFF ∧
      t.tag = tag ∧ rTlvAt input ⟨field, s.len - offset⟩ = some (some (t, rest)) ∧
      fieldBodyAt input field = some t.body ∧ t.body.Within input

theorem Span.Within.fields {input : List UInt8} {s : Span} (hs : s.Within input)
    {order : List UInt8} {f : SpanFields} (hfields : rFieldsAt input s order = some (some f)) :
    f.base = s.start ∧ f.order = order ∧
      ∀ i offset, f.encodedOffset i = some offset → ∃ t, RecordedAt input s order i offset t := by
  obtain ⟨r, hr, -, hrecorded⟩ := rFieldsAt_eq hs order
  rw [hfields] at hr
  obtain rfl := Option.some.inj hr
  exact hrecorded f rfl

theorem RecordedAt.within {input : List UInt8} {s : Span} {order : List UInt8} {i offset : ℕ}
    {t : SpanTlv} (h : RecordedAt input s order i offset t) (hs : s.Within input) :
    t.body.Within input := by
  obtain ⟨rest, hread⟩ := h.accepted
  obtain ⟨header, haccepted⟩ := rTlvAt_accepted hread
  refine (haccepted.within ?_).1
  have hlt := h.offset_lt
  unfold Span.Within at hs ⊢
  dsimp only
  omega

theorem Span.Within.recorded {input : List UInt8} {s : Span} (hs : s.Within input)
    {order : List UInt8} {f : SpanFields} {i offset : ℕ}
    (hfields : rFieldsAt input s order = some (some f))
    (hoffset : f.encodedOffset i = some offset) :
    ∃ t, RecordedAt input s order i offset t ∧ fieldBodyAt input (f.base + offset) = some t.body ∧
      t.body.Within input := by
  obtain ⟨hbase, -, hrecorded⟩ := hs.fields hfields
  obtain ⟨t, hat⟩ := hrecorded i offset hoffset
  rw [hbase]
  exact ⟨t, hat, hat.again, hat.within hs⟩

theorem Span.Within.component {input : List UInt8} {s : Span} (hs : s.Within input)
    {order : List UInt8} {f : SpanFields} {tag : UInt8} {field : ℕ}
    (hfields : rFieldsAt input s order = some (some f)) (hget : fGetAt f tag = some field) :
    ∃ offset t rest, field = s.start + offset ∧ offset ≤ 0xFFFF ∧ t.tag = tag ∧
      rTlvAt input ⟨field, s.len - offset⟩ = some (some (t, rest)) ∧
      fieldBodyAt input field = some t.body ∧ t.body.Within input := by
  obtain ⟨hbase, horder, -⟩ := hs.fields hfields
  obtain ⟨i, offset, hplace, hoffset, rfl⟩ := fGetAt_some hget
  obtain ⟨t, hat, hagain, hwithin⟩ := hs.recorded hfields hoffset
  obtain ⟨rest, hread⟩ := hat.accepted
  have htag : t.tag = tag := by
    rw [horder, hat.place] at hplace
    exact Option.some.inj hplace
  rw [hbase] at hagain ⊢
  exact ⟨offset, t, rest, rfl, hat.offset_le, htag, hread, hagain, hwithin⟩

theorem Held.within {input : List UInt8} {s : Span} (h : Held input s) : s.Within input := by
  induction h with
  | whole => exact (Nat.zero_add _).le
  | body _ hread ih =>
    obtain ⟨header, haccepted⟩ := rTlvAt_accepted hread
    exact (haccepted.within ih).1
  | rest _ hread ih =>
    obtain ⟨header, haccepted⟩ := rTlvAt_accepted hread
    exact (haccepted.within ih).2
  | component _ hfields hget hbody ih =>
    obtain ⟨offset, t, rest, -, -, -, -, hagain, hwithin⟩ := ih.component hfields hget
    rw [hagain] at hbody
    obtain rfl := Option.some.inj hbody
    exact hwithin

/-- Whatever the input, no slice the decoder comes to hold is read outside the input, every loop
over one ends, and the body a component is taken to have is the one that was accepted. -/
theorem derReader_readsInside (input : List UInt8) {s : Span} (h : Held input s) :
    ReadsInside input s := by
  have hs := h.within
  refine ⟨hs, ?_, rTlvAt_eq hs, fun n s' => Walk.bounded, ?_, ?_, ?_, ?_⟩
  · intro i hi
    unfold Span.Within at hs
    rw [List.getElem?_eq_getElem (by omega)]
    rfl
  · intro order
    obtain ⟨r, hr, hlists, -⟩ := rFieldsAt_eq hs order
    exact ⟨r, hr, hlists⟩
  · intro order f i offset hfields hoffset
    exact hs.recorded hfields hoffset
  · intro order f tag hfields
    refine fGetAt_eq (fun i offset hoffset => ?_) tag
    obtain ⟨t, -, hagain, -⟩ := hs.recorded hfields hoffset
    rw [hagain]
    rfl
  · intro order f tag field hfields hget
    exact hs.component hfields hget

/-- The body of a SEQUENCE that holds the INTEGER 5. -/
theorem derReader_readsInside_sequence :
    ReadsInside [0x30, 0x03, 0x02, 0x01, 0x05] ⟨2, 3⟩ :=
  derReader_readsInside _ (.body .whole (by decide :
    rTlvAt [0x30, 0x03, 0x02, 0x01, 0x05] ⟨0, 5⟩ = some (some (⟨0x30, ⟨2, 3⟩⟩, ⟨5, 0⟩))))

end DfcCore.Der
