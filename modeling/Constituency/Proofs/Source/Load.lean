import Constituency.Proofs.Source.Rule
import Constituency.Source.Load
import Mathlib.Data.List.Basic

/-!
# Where the productions of a grammar come from

The verdict on a line depends on the line and its number only. If no verdict is an
error, the productions on all the lines, in order, are made into a grammar. So each
production of a grammar that was loaded stands on one of the lines, as an alternative
of the rule there. And lines that are productions, written out one by one, are made
into a grammar as the productions themselves would be.

## Main results

* `exists_line_of_mem_productions` — each production stands on a line.
* `loadLines_texts`                — written productions load as the productions.
-/

namespace Constituency.Source

-- ---------------------------------------------------------------------------
-- The verdicts
-- ---------------------------------------------------------------------------

theorem judge_eq_ok_iff {file : String} {line : Option String} {number m : Nat} {r : Rule} :
    judge file line number = some (.ok (r, m)) ↔
      m = number ∧ ∃ text, line = some text ∧ isRuleLine text.toList = true ∧
        Rule.ofLine text.toList = .ok r := by
  refine ⟨fun h => ?_, ?_⟩
  · unfold judge at h
    split at h
    · cases Option.some.inj h
    · next text =>
      split at h
      · next hline =>
        split at h
        · next r' hr' =>
          obtain ⟨rfl, rfl⟩ := Prod.mk.inj (Except.ok.inj (Option.some.inj h))
          exact ⟨rfl, text, rfl, hline, hr'⟩
        · cases Option.some.inj h
      · cases h
  · rintro ⟨rfl, text, rfl, hline, hr⟩
    rw [judge, if_pos hline, hr]

/-- The verdicts are given line by line. -/
theorem mem_verdicts {file : String} {lines : List (Option String)}
    {v : Except LoadError (Rule × Nat)} :
    v ∈ verdicts file lines ↔
      ∃ line number, (line, number) ∈ lines.zipIdx 1 ∧ judge file line number = some v := by
  rw [verdicts, List.mem_filterMap, Prod.exists]

theorem errorsOf_eq_nil_iff {vs : List (Except LoadError (Rule × Nat))} :
    errorsOf vs = [] ↔ ∀ v ∈ vs, ∃ r, v = .ok r := by
  rw [errorsOf, List.filterMap_eq_nil_iff]
  refine forall₂_congr fun v _ => ?_
  cases v <;> simp

theorem mem_productionsOf {vs : List (Except LoadError (Rule × Nat))} {p : Production}
    {number : Nat} :
    (p, number) ∈ productionsOf vs ↔ ∃ r, .ok (r, number) ∈ vs ∧ p ∈ r.productions := by
  rw [productionsOf, List.mem_flatMap]
  refine ⟨?_, ?_⟩
  · rintro ⟨v, hv, hp⟩
    cases v with
    | error e => exact absurd hp List.not_mem_nil
    | ok located =>
      obtain ⟨q, hq, heq⟩ := List.mem_map.1 hp
      obtain ⟨rfl, rfl⟩ := Prod.mk.inj heq
      exact ⟨located.1, hv, hq⟩
  · rintro ⟨r, hr, hp⟩
    exact ⟨_, hr, List.mem_map_of_mem hp⟩

-- ---------------------------------------------------------------------------
-- The grammar
-- ---------------------------------------------------------------------------

theorem assemble_eq_ok_iff {file : String} {start : Option String}
    {located : List (Production × Nat)} {g : Grammar} :
    assemble file start located = .ok g ↔
      Grammar.ofProductions (start.getD (Grammar.defaultStart (located.map (·.1))))
        (located.map (·.1)) = .ok g := by
  unfold assemble
  simp only
  split
  · next g' hg' => rw [hg', Except.ok.injEq, Except.ok.injEq]
  · next hes => simp [hes]

/-- When no line is bad, the productions on the lines are put together. -/
theorem loadLines_of_errorsOf_eq_nil {file : String} (start : Option String)
    {lines : List (Option String)} (h : errorsOf (verdicts file lines) = []) :
    loadLines file start lines = assemble file start (productionsOf (verdicts file lines)) :=
  if_neg (not_not_intro h)

/-- A grammar is loaded when no line is bad and the productions form it. -/
theorem loadLines_eq_ok_iff {file : String} {start : Option String}
    {lines : List (Option String)} {g : Grammar} :
    loadLines file start lines = .ok g ↔
      errorsOf (verdicts file lines) = [] ∧
        assemble file start (productionsOf (verdicts file lines)) = .ok g := by
  by_cases h : errorsOf (verdicts file lines) = []
  · rw [loadLines_of_errorsOf_eq_nil start h]
    exact (and_iff_right h).symm
  · have herror : loadLines file start lines = .error (errorsOf (verdicts file lines)) := if_pos h
    simp [herror, h]

/-- Each production of a loaded grammar is an alternative of the rule on a line. -/
theorem exists_line_of_mem_productions {file : String} {start : Option String}
    {lines : List (Option String)} {g : Grammar} (h : loadLines file start lines = .ok g)
    {p : Production} (hp : p ∈ g.productions) :
    ∃ line r, some line ∈ lines ∧ isRuleLine line.toList = true ∧
      Rule.ofLine line.toList = .ok r ∧ p.lhs = r.lhs ∧ p.rhs ∈ r.alternatives := by
  obtain ⟨-, hg⟩ := loadLines_eq_ok_iff.1 h
  have hp' := (Grammar.mem_productions_of_ofProductions (assemble_eq_ok_iff.1 hg)).1 hp
  obtain ⟨⟨q, number⟩, hlocated, rfl⟩ := List.mem_map.1 hp'
  obtain ⟨r, hr, hq⟩ := mem_productionsOf.1 hlocated
  obtain ⟨line, number', hline, hjudge⟩ := mem_verdicts.1 hr
  obtain ⟨-, text, rfl, hrule, hparse⟩ := judge_eq_ok_iff.1 hjudge
  obtain ⟨rhs, hrhs, rfl⟩ := List.mem_map.1 hq
  exact ⟨text, r, List.fst_mem_of_mem_zipIdx hline, hrule, hparse, rfl, hrhs⟩

-- ---------------------------------------------------------------------------
-- Productions as lines
-- ---------------------------------------------------------------------------

variable (file : String) {ps : List Production}

theorem verdicts_texts (h : ∀ p ∈ ps, p.IsWritable) :
    verdicts file (ps.map fun p => some p.text) =
      (ps.zipIdx 1).map fun (p, number) => .ok (⟨p.lhs, [p.rhs]⟩, number) := by
  rw [verdicts, List.zipIdx_map, List.filterMap_map]
  refine List.filterMap_eq_map_iff_forall_eq_some.2 fun (p, number) hp => ?_
  have hp' := h p (List.fst_mem_of_mem_zipIdx hp)
  exact judge_eq_ok_iff.2 ⟨rfl, p.text, rfl, isRuleLine_text hp', Rule.ofLine_text hp'⟩

/-- Productions that are written out load as the productions themselves. -/
theorem loadLines_texts (start : Option String)
    (h : ∀ p ∈ ps, p.IsWritable) :
    loadLines file start (ps.map fun p => some p.text) = assemble file start (ps.zipIdx 1) := by
  have hverdicts := verdicts_texts file h
  have herrors : errorsOf (verdicts file (ps.map fun p => some p.text)) = [] := by
    rw [hverdicts, errorsOf_eq_nil_iff]
    exact List.forall_mem_map.2 fun q _ => ⟨_, rfl⟩
  have hproductions : productionsOf (verdicts file (ps.map fun p => some p.text)) =
      ps.zipIdx 1 := by
    rw [hverdicts, productionsOf, List.flatMap_map]
    exact List.flatMap_singleton' _
  rw [loadLines_of_errorsOf_eq_nil start herrors, hproductions]

end Constituency.Source
