import Mathlib.Data.List.Basic
import Mathlib.Logic.Relation
import Mathlib.Order.Nat

/-!
# Transactional stores

A store is a list of cells. A cell shows what is staged in it, or what was committed to it. Some
cells are covered by the transaction: what is written to them is staged, and is published or
dropped as a whole. The other cells are written through. Whatever the moves, and wherever a cell
stands when others are taken out or renamed, what is committed to the covered cells changes at a
commit alone.
-/
namespace DfcCore
variable {κ κ' α : Type}

/-- A cell of a store. -/
structure Cell (κ α : Type) where
  key : κ
  committed : α
  staged : Option α
  deriving Repr, DecidableEq

namespace Cell

/-- What the cell holds at the moment. -/
def shown (x : Cell κ α) : α := x.staged.getD x.committed

def stage (x : Cell κ α) (v : α) : Cell κ α := { x with staged := some v }

def overwrite (x : Cell κ α) (v : α) : Cell κ α := { x with committed := v }

def commit (x : Cell κ α) : Cell κ α := { x with committed := x.shown, staged := none }

def rollback (x : Cell κ α) : Cell κ α := { x with staged := none }

/-- Everything the cell holds is allowed. -/
def Holds (allowed : α → Prop) (x : Cell κ α) : Prop :=
  allowed x.committed ∧ ∀ v ∈ x.staged, allowed v

theorem Holds.shown {allowed : α → Prop} {x : Cell κ α} (h : x.Holds allowed) :
    allowed x.shown := by
  unfold Cell.shown
  cases hstaged : x.staged with
  | none => exact h.1
  | some v => exact h.2 v hstaged

end Cell

/-- One move of a store in which every cell stays where it is; the flag tells a commit. `initial`
says what a new cell may hold, `allowed` what may be written. -/
inductive StoreMove (covered : κ → Bool) (initial allowed : α → Prop) :
    Bool → List (Cell κ α) → List (Cell κ α) → Prop where
  | stage {S : List (Cell κ α)} {i : ℕ} {x : Cell κ α} (h : S[i]? = some x)
      (hx : covered x.key = true) {v : α} (hv : allowed v) :
      StoreMove covered initial allowed false S (S.set i (x.stage v))
  | overwrite {S : List (Cell κ α)} {i : ℕ} {x : Cell κ α} (h : S[i]? = some x)
      (hx : covered x.key = false) {v : α} (hv : allowed v) :
      StoreMove covered initial allowed false S (S.set i (x.overwrite v))
  | rollback (S : List (Cell κ α)) : StoreMove covered initial allowed false S (S.map Cell.rollback)
  | add (S : List (Cell κ α)) (key : κ) {v : α} (h : initial v) :
      StoreMove covered initial allowed false S (S ++ [⟨key, v, none⟩])
  | commit (S : List (Cell κ α)) : StoreMove covered initial allowed true S (S.map Cell.commit)

/-- Any number of moves none of which is a commit. -/
def StoreRun (covered : κ → Bool) (initial allowed : α → Prop) :
    List (Cell κ α) → List (Cell κ α) → Prop :=
  Relation.ReflTransGen (StoreMove covered initial allowed false)

/-- What is committed to the covered cells, in order. -/
def ledger (covered : κ → Bool) (S : List (Cell κ α)) : List (κ × α) :=
  (S.filter fun x => covered x.key).map fun x => (x.key, x.committed)

/-- Where each cell of a store stood before some steps; a new cell stood nowhere. -/
abbrev Origin := ℕ → Option ℕ

/-- The first `n` cells stay where they are. -/
def Origin.stay (n : ℕ) : Origin := fun j => if j < n then some j else none

/-- The cells at these places are left, in this order. -/
def Origin.left (places : List ℕ) : Origin := fun j => places[j]?

/-- One step after another. -/
def Origin.andThen (o o' : Origin) : Origin := fun j => (o' j).bind o

section
variable (kind : κ → κ') (covered : κ → Bool) (initial : α → Prop)

/-- The cell holds what is committed to the cell it was, and is still of its kind; a new one holds
what a new cell may hold. -/
def HoldsFrom (S : List (Cell κ α)) (x : Cell κ α) : Option ℕ → Prop
  | some i => ∃ y, S[i]? = some y ∧ kind x.key = kind y.key ∧ x.committed = y.committed
  | none => initial x.committed

/-- Nothing is committed to a covered cell on the way from `S` to `S'`. -/
def CommittedKept (origin : Origin) (S S' : List (Cell κ α)) : Prop :=
  ∀ j x, S'[j]? = some x → covered x.key = true → HoldsFrom kind initial S x (origin j)

end

variable {kind : κ → κ'} {covered : κ → Bool} {initial allowed : α → Prop} {commits : Bool}
  {origin origin' : Origin} {S S' : List (Cell κ α)}

theorem CommittedKept.refl (S : List (Cell κ α)) :
    CommittedKept kind covered initial some S S :=
  fun _ x hx _ => ⟨x, hx, rfl, rfl⟩

/-- Whether a cell is covered is a matter of its kind. -/
theorem CommittedKept.trans {S₁ : List (Cell κ α)}
    (hkind : ∀ k k', kind k = kind k' → covered k = covered k')
    (h : CommittedKept kind covered initial origin S S₁)
    (h' : CommittedKept kind covered initial origin' S₁ S') :
    CommittedKept kind covered initial (origin.andThen origin') S S' := by
  intro j x hx hcovered
  have hlast := h' j x hx hcovered
  unfold Origin.andThen
  cases hplace : origin' j with
  | none =>
    rw [hplace] at hlast
    exact hlast
  | some i =>
    rw [hplace] at hlast
    obtain ⟨y, hy, hxy, hsame⟩ := hlast
    have hfirst := h i y hy ((hkind _ _ hxy).symm.trans hcovered)
    show HoldsFrom kind initial S x (origin i)
    cases hbefore : origin i with
    | none =>
      rw [hbefore] at hfirst
      show initial x.committed
      rw [hsame]
      exact hfirst
    | some k =>
      rw [hbefore] at hfirst
      obtain ⟨z, hz, hyz, hcommitted⟩ := hfirst
      exact ⟨z, hz, hxy.trans hyz, hsame.trans hcommitted⟩

/-- Only the places of cells that are there matter. -/
theorem CommittedKept.congr (h : CommittedKept kind covered initial origin S S')
    (horigin : ∀ j < S'.length, origin' j = origin j) :
    CommittedKept kind covered initial origin' S S' := by
  intro j x hx hcovered
  rw [horigin j (List.getElem?_eq_some_iff.mp hx).1]
  exact h j x hx hcovered

/-- Cells that are kept, at some places and under keys of the same kind. -/
theorem CommittedKept.of_left {places : List ℕ}
    (h : ∀ (j : ℕ) (x : Cell κ α), S'[j]? = some x →
      ∃ (i : ℕ) (y : Cell κ α), places[j]? = some i ∧ S[i]? = some y ∧
        kind x.key = kind y.key ∧ x.committed = y.committed) :
    CommittedKept kind covered initial (.left places) S S' := by
  intro j x hx _
  obtain ⟨i, y, hplace, hy⟩ := h j x hx
  unfold Origin.left
  rw [hplace]
  exact ⟨y, hy⟩

/-- One cell is taken out of a store whose cells keep what is committed. -/
theorem CommittedKept.eraseIdx {f : Cell κ α → Cell κ α} (hkey : ∀ x, (f x).key = x.key)
    (hcommitted : ∀ x, (f x).committed = x.committed) (S : List (Cell κ α)) (i : ℕ) :
    CommittedKept kind covered initial (.left ((List.range S.length).eraseIdx i)) S
      ((S.map f).eraseIdx i) := by
  have hplace {k : ℕ} {x : Cell κ α} (hx : (S.map f)[k]? = some x) :
      ∃ j y, (List.range S.length)[k]? = some j ∧ S[j]? = some y ∧ kind x.key = kind y.key ∧
        x.committed = y.committed := by
    rw [List.getElem?_map, Option.map_eq_some_iff] at hx
    obtain ⟨y, hy, rfl⟩ := hx
    exact ⟨k, y, List.getElem?_range (List.getElem?_eq_some_iff.mp hy).1, hy,
      congrArg kind (hkey y), hcommitted y⟩
  refine .of_left fun j x hx => ?_
  rw [List.getElem?_eraseIdx] at hx ⊢
  split_ifs at hx ⊢
  · exact hplace hx
  · exact hplace hx

/-- A cell that is rewritten without its key and what is committed is the same to the ledger. -/
theorem ledger_map {f : Cell κ α → Cell κ α} (hkey : ∀ x, (f x).key = x.key)
    (hcommitted : ∀ x, (f x).committed = x.committed) (S : List (Cell κ α)) :
    ledger covered (S.map f) = ledger covered S := by
  induction S with
  | nil => rfl
  | cons x S ih =>
    simp only [ledger, List.map_cons, List.filter_cons, hkey] at ih ⊢
    split_ifs
    · simp only [List.map_cons, hkey, hcommitted, ih]
    · exact ih

theorem getElem?_set_committed {i j : ℕ} {x y z : Cell κ α} (h : S[i]? = some x)
    (hkey : y.key = x.key) (hcommitted : covered x.key = true → y.committed = x.committed)
    (hz : (S.set i y)[j]? = some z) (hcovered : covered z.key = true) :
    ∃ w, S[j]? = some w ∧ z.key = w.key ∧ z.committed = w.committed := by
  by_cases hij : i = j
  · subst hij
    rw [List.getElem?_set_self (List.getElem?_eq_some_iff.mp h).1] at hz
    obtain rfl := Option.some.inj hz
    exact ⟨x, h, hkey, hcommitted (hkey ▸ hcovered)⟩
  · rw [List.getElem?_set_ne hij] at hz
    exact ⟨z, hz, rfl, rfl⟩

/-- A move that is no commit keeps what is committed. -/
theorem StoreMove.committedKept (h : StoreMove covered initial allowed false S S') :
    S.length ≤ S'.length ∧ CommittedKept kind covered initial (.stay S.length) S S' := by
  have hstay {j : ℕ} {x : Cell κ α} (hj : j < S.length)
      (hx : ∃ y, S[j]? = some y ∧ x.key = y.key ∧ x.committed = y.committed) :
      HoldsFrom kind initial S x (Origin.stay S.length j) := by
    obtain ⟨y, hy, hkey, hcommitted⟩ := hx
    unfold Origin.stay
    rw [if_pos hj]
    exact ⟨y, hy, congrArg kind hkey, hcommitted⟩
  have hlt {T : List (Cell κ α)} {j : ℕ} {x : Cell κ α} (hx : T[j]? = some x) : j < T.length :=
    (List.getElem?_eq_some_iff.mp hx).1
  cases h with
  | @stage _ i x h hx v hv =>
    refine ⟨(List.length_set ..).ge, fun j z hz hcovered => hstay ?_ ?_⟩
    · simpa using hlt hz
    · exact getElem?_set_committed (y := x.stage v) h rfl (fun _ => rfl) hz hcovered
  | @overwrite _ i x h hx v hv =>
    refine ⟨(List.length_set ..).ge, fun j z hz hcovered => hstay ?_ ?_⟩
    · simpa using hlt hz
    · exact getElem?_set_committed (y := x.overwrite v) h rfl
        (fun hno => absurd (hx.symm.trans hno) Bool.false_ne_true) hz hcovered
  | rollback =>
    refine ⟨(List.length_map ..).ge, fun j z hz hcovered => hstay ?_ ?_⟩
    · simpa using hlt hz
    · rw [List.getElem?_map, Option.map_eq_some_iff] at hz
      obtain ⟨y, hy, rfl⟩ := hz
      exact ⟨y, hy, rfl, rfl⟩
  | @add _ key v h =>
    refine ⟨by simp, fun j z hz hcovered => ?_⟩
    by_cases hj : j < S.length
    · rw [List.getElem?_append_left hj] at hz
      exact hstay hj ⟨z, hz, rfl, rfl⟩
    · rw [List.getElem?_append_right (not_lt.mp hj)] at hz
      have hnew := List.mem_singleton.mp (List.mem_of_getElem? hz)
      unfold Origin.stay
      rw [if_neg hj, hnew]
      exact h

/-- Whatever is staged, dropped or created, what is committed is kept until the next commit. -/
theorem StoreRun.committedKept (hkind : ∀ k k', kind k = kind k' → covered k = covered k')
    (h : StoreRun covered initial allowed S S') :
    S.length ≤ S'.length ∧ CommittedKept kind covered initial (.stay S.length) S S' := by
  induction h with
  | refl =>
    exact ⟨le_rfl, (CommittedKept.refl S).congr fun j hj => if_pos hj⟩
  | @tail S₁ S₂ _ hmove ih =>
    obtain ⟨hlonger, hkept⟩ := ih
    obtain ⟨hlonger', hkept'⟩ : S₁.length ≤ S₂.length ∧
      CommittedKept kind covered initial (.stay S₁.length) S₁ S₂ := hmove.committedKept
    refine ⟨hlonger.trans hlonger', (hkept.trans hkind hkept').congr fun j _ => ?_⟩
    unfold Origin.andThen Origin.stay
    by_cases hj : j < S₁.length
    · rw [if_pos hj]
      rfl
    · rw [if_neg hj, if_neg (fun hless => hj (hless.trans_le hlonger))]
      rfl

/-- What may be written is all a store ever holds. -/
theorem StoreMove.holds (hinitial : ∀ v, initial v → allowed v)
    (h : StoreMove covered initial allowed commits S S') (hS : ∀ x ∈ S, x.Holds allowed) :
    ∀ x ∈ S', x.Holds allowed := by
  intro y hy
  cases h with
  | @stage _ i x h hx v hv =>
    obtain hy | rfl := List.mem_or_eq_of_mem_set hy
    · exact hS y hy
    · refine ⟨(hS x (List.mem_of_getElem? h)).1, fun w hw => ?_⟩
      obtain rfl : v = w := Option.some.inj hw
      exact hv
  | @overwrite _ i x h hx v hv =>
    obtain hy | rfl := List.mem_or_eq_of_mem_set hy
    · exact hS y hy
    · exact ⟨hv, (hS x (List.mem_of_getElem? h)).2⟩
  | rollback =>
    obtain ⟨x, hx, rfl⟩ := List.mem_map.mp hy
    exact ⟨(hS x hx).1, by simp [Cell.rollback]⟩
  | @add _ key v h =>
    obtain hy | hy := List.mem_append.mp hy
    · exact hS y hy
    · rw [List.mem_singleton.mp hy]
      exact ⟨hinitial v h, by simp⟩
  | commit =>
    obtain ⟨x, hx, rfl⟩ := List.mem_map.mp hy
    exact ⟨(hS x hx).shown, by simp [Cell.commit]⟩

theorem StoreRun.holds (hinitial : ∀ v, initial v → allowed v)
    (h : StoreRun covered initial allowed S S') (hS : ∀ x ∈ S, x.Holds allowed) :
    ∀ x ∈ S', x.Holds allowed := by
  induction h with
  | refl => exact hS
  | tail _ hmove ih => exact hmove.holds hinitial ih

/-- A commit publishes what every cell shows. -/
theorem ledger_commit (S : List (Cell κ α)) :
    ledger covered (S.map Cell.commit) =
      (S.filter fun x => covered x.key).map fun x => (x.key, x.shown) := by
  induction S with
  | nil => rfl
  | cons x S ih =>
    simp only [ledger, List.map_cons, List.filter_cons, Cell.commit] at ih ⊢
    split_ifs
    · simp only [List.map_cons, ih]
    · exact ih

end DfcCore
