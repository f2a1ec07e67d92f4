import Mathlib.Data.List.Basic

/-!
# Work that can fail

Work that can fail is done step by step, item by item, or round by round, and the first
failure is the outcome. These are the facts about such work that reading a grammar and
running with checks rest on: when it succeeds, with which result, and which step is to blame
if it fails.

## Main results

* `bind_eq_ok_iff`, `bind_eq_error_iff` — two steps, one after the other.
* `mapM_eq_ok`, `mapM_eq_ok_iff_eq_map` — each item succeeds.
* `exists_mem_of_mapM_eq_error`         — some item fails.
* `foldlM_eq_foldlM_flatMap`            — rounds that go through items, as one run.
* `exists_foldlM_range'_eq_ok`          — each round succeeds and keeps what holds before it.
-/

namespace Constituency

variable {ε α β : Type}

-- ---------------------------------------------------------------------------
-- Two steps
-- ---------------------------------------------------------------------------

theorem ok_bind (a : α) (f : α → Except ε β) : (Except.ok a >>= f) = f a :=
  rfl

theorem bind_eq_ok_iff {x : Except ε α} {f : α → Except ε β} {b : β} :
    x >>= f = .ok b ↔ ∃ a, x = .ok a ∧ f a = .ok b := by
  cases x <;> simp [bind, Except.bind]

theorem bind_eq_error_iff {x : Except ε α} {f : α → Except ε β} {e : ε} :
    x >>= f = .error e ↔ x = .error e ∨ ∃ a, x = .ok a ∧ f a = .error e := by
  cases x <;> simp [bind, Except.bind]

-- ---------------------------------------------------------------------------
-- Item by item
-- ---------------------------------------------------------------------------

theorem mapM_eq_ok {f : α → Except ε β} {result : α → β} {as : List α}
    (h : ∀ a ∈ as, f a = .ok (result a)) : as.mapM f = .ok (as.map result) := by
  induction as with
  | nil => rfl
  | cons a as ih =>
    obtain ⟨ha, has⟩ := List.forall_mem_cons.1 h
    rw [List.mapM_cons, ha, ok_bind, ih has]
    rfl

/-- If each item is read as what writes it, so is a list. -/
theorem mapM_eq_ok_iff_eq_map {f : α → Except ε β} {g : β → α}
    (hf : ∀ {a b}, f a = .ok b ↔ a = g b) {as : List α} {bs : List β} :
    as.mapM f = .ok bs ↔ as = bs.map g := by
  induction as generalizing bs with
  | nil => cases bs <;> simp [pure, Except.pure]
  | cons a as ih =>
    simp only [List.mapM_cons, bind_eq_ok_iff, hf, ih]
    constructor
    · rintro ⟨b, rfl, rest, rfl, heq⟩
      obtain rfl := Except.ok.inj heq
      rfl
    · intro h
      cases bs with
      | nil => cases h
      | cons b bs =>
        obtain ⟨rfl, rfl⟩ := List.cons.inj h
        exact ⟨b, rfl, bs, rfl, rfl⟩

/-- A list that cannot be read has an item that cannot. -/
theorem exists_mem_of_mapM_eq_error {f : α → Except ε β} {as : List α} {e : ε}
    (h : as.mapM f = .error e) : ∃ a ∈ as, f a = .error e := by
  induction as with
  | nil => cases h
  | cons a as ih =>
    simp only [List.mapM_cons, bind_eq_error_iff] at h
    rcases h with ha | ⟨b, -, has | ⟨bs, -, hcons⟩⟩
    · exact ⟨a, List.mem_cons_self, ha⟩
    · obtain ⟨a', hmem, ha'⟩ := ih has
      exact ⟨a', List.mem_cons_of_mem _ hmem, ha'⟩
    · cases hcons

-- ---------------------------------------------------------------------------
-- Round by round
-- ---------------------------------------------------------------------------

/-- Rounds that each go through some items go through all items, one after the other. -/
theorem foldlM_eq_foldlM_flatMap {σ : Type} {round : σ → α → Except ε σ}
    {step : σ → β → Except ε σ} {items : α → List β} {as : List α}
    (h : ∀ a ∈ as, ∀ x, round x a = (items a).foldlM step x) (x : σ) :
    as.foldlM round x = (as.flatMap items).foldlM step x := by
  induction as generalizing x with
  | nil => rfl
  | cons a as ih =>
    obtain ⟨ha, has⟩ := List.forall_mem_cons.1 h
    rw [List.foldlM_cons, ha, List.flatMap_cons, List.foldlM_append]
    exact congrArg _ (funext (ih has))

/-- A loop succeeds if, with what holds before each round, the round succeeds, and the same
holds after it. -/
theorem exists_foldlM_range'_eq_ok {σ : Type} (step : σ → Nat → Except ε σ)
    (holds : Nat → σ → Prop) (first count : Nat) {x : σ} (hfirst : holds first x)
    (hstep : ∀ i x, first ≤ i → i < first + count → holds i x →
      ∃ y, step x i = .ok y ∧ holds (i + 1) y) :
    ∃ y, (List.range' first count).foldlM step x = .ok y ∧ holds (first + count) y := by
  induction count generalizing first x with
  | zero => exact ⟨x, rfl, hfirst⟩
  | succ count ih =>
    obtain ⟨y, hy, hnext⟩ := hstep first x (Nat.le_refl _) (by omega) hfirst
    obtain ⟨z, hz, hlast⟩ :=
      ih (first + 1) hnext fun i x hi hlt hx => hstep i x (by omega) (by omega) hx
    refine ⟨z, ?_, ?_⟩
    · rw [List.range'_succ, List.foldlM_cons, hy]
      exact hz
    · rw [Nat.add_right_comm] at hlast
      exact hlast

end Constituency
