import Constituency.Distinct
import Constituency.Grammar.Basic
import Mathlib.Data.List.Sort

/-!
# The report on productions

What is wrong with productions is wrong at a place: with all of them, with one production,
or with one symbol on a right-hand side. The place has an address, the positions that lead
to it, and `Violation` says of an address and a defect that the defect is there. It does
not say how defects are found, and a name that has no rule violates at every place where it
is used.

A report lists the violations by increasing addresses, so there is one report only: what
concerns all productions comes first, then production after production, and in each symbol
after symbol. The defects of productions are this report without the addresses, and making
a grammar succeeds if there is nothing in it.

## Main declarations

* `Violation`, `IsReport`       — what is wrong where, and the list of it.
* `isReport_locatedDefects`     — the defects, with their addresses, are a report.
* `defects_exact`               — defects are the report, and a grammar is made without them.
-/

namespace Constituency

/-- The defect, blamed on a production or on nobody, is at the address. -/
inductive Violation (start : String) (ps : List Production) : List Nat → Option Nat × Defect → Prop
  | noProductions (h : ps = []) : Violation start ps [] (none, .noProductions)
  | undefinedStart (hne : ps ≠ []) (h : start ∉ ps.map (·.lhs)) :
      Violation start ps [] (none, .undefinedStart start)
  | emptyRightHandSide {i : Nat} {p : Production} (hp : ps[i]? = some p) (h : p.rhs = []) :
      Violation start ps [i] (some i, .emptyRightHandSide p.lhs)
  | undefinedNonterminal {i k : Nat} {p : Production} {b : String} (hp : ps[i]? = some p)
      (hb : p.rhs[k]? = some (.nonterminal b)) (h : b ∉ ps.map (·.lhs)) :
      Violation start ps [i, k] (some i, .undefinedNonterminal b p.lhs)

/-- The report has all violations, by increasing addresses. -/
structure IsReport (start : String) (ps : List Production)
    (report : List (List Nat × Option Nat × Defect)) : Prop where
  increasing : report.Pairwise fun x y => x.1 < y.1
  mem_iff : ∀ address d, (address, d) ∈ report ↔ Violation start ps address d

/-- There is one report only. -/
theorem IsReport.unique {start : String} {ps : List Production}
    {report report' : List (List Nat × Option Nat × Defect)} (h : IsReport start ps report)
    (h' : IsReport start ps report') : report = report' := by
  have hnodup {r : List (List Nat × Option Nat × Defect)} (hr : IsReport start ps r) : r.Nodup :=
    hr.increasing.imp fun {x y} hlt heq => by
      subst heq
      exact List.lt_asymm hlt hlt
  have hperm : report.Perm report' :=
    (List.perm_ext_iff_of_nodup (hnodup h) (hnodup h')).2 fun (address, d) => by
      rw [h.mem_iff, h'.mem_iff]
  refine hperm.eq_of_pairwise (fun x y _ _ hxy hyx => ?_) h.increasing h'.increasing
  exact absurd hyx (List.lt_asymm hxy)

-- ---------------------------------------------------------------------------
-- One production
-- ---------------------------------------------------------------------------

/-- The defects of a production at a position, each with its address. -/
def Production.locatedDefects (defined : List String) (i : Nat) (p : Production) :
    List (List Nat × Option Nat × Defect) :=
  if p.rhs = [] then
    [([i], some i, .emptyRightHandSide p.lhs)]
  else
    p.rhs.zipIdx.filterMap fun (s, k) =>
      (s.nonterminal?.filter fun b => !defined.contains b).map fun b =>
        ([i, k], some i, .undefinedNonterminal b p.lhs)

namespace Production

variable {defined : List String} {i : Nat} {p : Production}

theorem map_snd_locatedDefects (defined : List String) (i : Nat) (p : Production) :
    (p.locatedDefects defined i).map (·.2) = (p.defects defined).map (some i, ·) := by
  unfold locatedDefects Production.defects
  split
  · rfl
  · have hpositions : p.rhs.filterMap (fun s =>
        (s.nonterminal?.filter fun b => !defined.contains b).map fun b =>
          (some i, Defect.undefinedNonterminal b p.lhs)) =
        p.rhs.zipIdx.filterMap fun (s, _) =>
          (s.nonterminal?.filter fun b => !defined.contains b).map fun b =>
            (some i, Defect.undefinedNonterminal b p.lhs) := by
      conv_lhs => rw [← List.zipIdx_map_fst 0 p.rhs, List.filterMap_map]
      rfl
    rw [children, List.filter_filterMap, List.map_filterMap, List.map_filterMap, List.map_filterMap]
    simp only [Option.map_map]
    exact hpositions.symm

theorem mem_locatedDefects_iff {address : List Nat} {d : Option Nat × Defect} :
    (address, d) ∈ p.locatedDefects defined i ↔
      (p.rhs = [] ∧ address = [i] ∧ d = (some i, .emptyRightHandSide p.lhs)) ∨
        ∃ k b, p.rhs[k]? = some (.nonterminal b) ∧ b ∉ defined ∧ address = [i, k] ∧
          d = (some i, .undefinedNonterminal b p.lhs) := by
  unfold locatedDefects
  split
  · next hrhs => simp [hrhs]
  · next hrhs =>
    rw [List.mem_filterMap]
    constructor
    · rintro ⟨⟨s, k⟩, hs, hd⟩
      obtain ⟨b, hb, heq⟩ := Option.map_eq_some_iff.1 hd
      obtain ⟨hb, hundefined⟩ := Option.filter_eq_some_iff.1 hb
      obtain rfl := Symbol.nonterminal?_eq_some.1 hb
      obtain ⟨rfl, rfl⟩ := Prod.mk.inj heq
      exact Or.inr ⟨k, b, List.mem_zipIdx_iff_getElem?.1 hs, by simpa using hundefined, rfl, rfl⟩
    · rintro (⟨hnil, -⟩ | ⟨k, b, hb, hundefined, rfl, rfl⟩)
      · exact absurd hnil hrhs
      · refine ⟨(.nonterminal b, k), List.mem_zipIdx_iff_getElem?.2 hb, ?_⟩
        simp [Symbol.nonterminal?, Option.filter, hundefined]

theorem exists_address_eq_cons {v : List Nat × Option Nat × Defect}
    (h : v ∈ p.locatedDefects defined i) : ∃ rest, v.1 = i :: rest := by
  rcases mem_locatedDefects_iff.1 h with ⟨-, heq, -⟩ | ⟨k, b, -, -, heq, -⟩
  · exact ⟨_, heq⟩
  · exact ⟨_, heq⟩

theorem locatedDefects_increasing (defined : List String) (i : Nat) (p : Production) :
    (p.locatedDefects defined i).Pairwise fun x y => x.1 < y.1 := by
  unfold locatedDefects
  split
  · exact List.pairwise_singleton _ _
  · rw [List.pairwise_filterMap]
    refine (pairwise_zipIdx_lt p.rhs 0).imp fun {x y} hlt v hv w hw => ?_
    obtain ⟨_, _, rfl⟩ := Option.map_eq_some_iff.1 hv
    obtain ⟨_, _, rfl⟩ := Option.map_eq_some_iff.1 hw
    exact List.cons_lt_cons_iff.2 (Or.inr ⟨rfl, List.cons_lt_cons_iff.2 (Or.inl hlt)⟩)

end Production

-- ---------------------------------------------------------------------------
-- All productions
-- ---------------------------------------------------------------------------

/-- Every defect of the productions, with its address. -/
def locatedDefects (start : String) (ps : List Production) :
    List (List Nat × Option Nat × Defect) :=
  if ps = [] then
    [([], none, .noProductions)]
  else
    let defined := ps.map (·.lhs)
    let atStart := if defined.contains start then [] else [([], none, .undefinedStart start)]
    atStart ++ ps.zipIdx.flatMap fun (p, i) => p.locatedDefects defined i

variable {start : String} {ps : List Production}

theorem map_snd_locatedDefects (start : String) (ps : List Production) :
    (locatedDefects start ps).map (·.2) = defects start ps := by
  unfold locatedDefects defects
  split
  · rfl
  · simp only [List.map_append, List.map_flatMap, Production.map_snd_locatedDefects]
    congr 1
    split <;> rfl

theorem mem_locatedDefects_iff {address : List Nat} {d : Option Nat × Defect} :
    (address, d) ∈ locatedDefects start ps ↔ Violation start ps address d := by
  unfold locatedDefects
  split
  · next hps =>
    subst hps
    constructor
    · intro h
      obtain ⟨rfl, rfl⟩ := Prod.mk.inj (List.mem_singleton.1 h)
      exact .noProductions rfl
    · intro h
      cases h with
      | noProductions _ => exact List.mem_singleton_self _
      | undefinedStart hne _ => exact absurd rfl hne
      | emptyRightHandSide hp _ => cases hp
      | undefinedNonterminal hp _ _ => cases hp
  · next hps =>
    simp only [List.contains_iff_mem, List.mem_append, List.mem_flatMap]
    constructor
    · rintro (h | ⟨⟨p, i⟩, hp, h⟩)
      · split at h
        · cases h
        · next hstart =>
          obtain ⟨rfl, rfl⟩ := Prod.mk.inj (List.mem_singleton.1 h)
          exact .undefinedStart hps hstart
      · have hp := List.mem_zipIdx_iff_getElem?.1 hp
        rcases Production.mem_locatedDefects_iff.1 h with
          ⟨hrhs, rfl, rfl⟩ | ⟨k, b, hb, hundefined, rfl, rfl⟩
        · exact .emptyRightHandSide hp hrhs
        · exact .undefinedNonterminal hp hb hundefined
    · intro h
      cases h with
      | noProductions h => exact absurd h hps
      | undefinedStart _ hstart =>
        rw [if_neg hstart]
        exact Or.inl (List.mem_singleton_self _)
      | @emptyRightHandSide i p hp hrhs =>
        exact Or.inr ⟨(p, i), List.mem_zipIdx_iff_getElem?.2 hp,
          Production.mem_locatedDefects_iff.2 (Or.inl ⟨hrhs, rfl, rfl⟩)⟩
      | @undefinedNonterminal i k p b hp hb hundefined =>
        exact Or.inr ⟨(p, i), List.mem_zipIdx_iff_getElem?.2 hp,
          Production.mem_locatedDefects_iff.2 (Or.inr ⟨k, b, hb, hundefined, rfl, rfl⟩)⟩

/-- The defects are the violations. -/
theorem mem_defects_iff {d : Option Nat × Defect} :
    d ∈ defects start ps ↔ ∃ address, Violation start ps address d := by
  rw [← map_snd_locatedDefects, List.mem_map]
  constructor
  · rintro ⟨⟨address, d⟩, hd, rfl⟩
    exact ⟨address, mem_locatedDefects_iff.1 hd⟩
  · rintro ⟨address, hd⟩
    exact ⟨(address, d), mem_locatedDefects_iff.2 hd, rfl⟩

theorem locatedDefects_increasing (start : String) (ps : List Production) :
    (locatedDefects start ps).Pairwise fun x y => x.1 < y.1 := by
  unfold locatedDefects
  split
  · exact List.pairwise_singleton _ _
  · refine List.pairwise_append.2 ⟨?_, ?_, ?_⟩
    · split
      · exact .nil
      · exact List.pairwise_singleton _ _
    · refine List.pairwise_flatMap.2 ⟨fun (p, i) _ => p.locatedDefects_increasing _ i, ?_⟩
      refine (pairwise_zipIdx_lt ps 0).imp fun {x y} hlt v hv w hw => ?_
      obtain ⟨_, hv⟩ := Production.exists_address_eq_cons hv
      obtain ⟨_, hw⟩ := Production.exists_address_eq_cons hw
      rw [hv, hw]
      exact List.cons_lt_cons_iff.2 (Or.inl hlt)
    · -- the address of what concerns all productions is empty
      intro v hv w hw
      have hv : v.1 = [] := by
        split at hv
        · cases hv
        · rw [List.mem_singleton.1 hv]
      obtain ⟨_, -, hw⟩ := List.mem_flatMap.1 hw
      obtain ⟨_, hw⟩ := Production.exists_address_eq_cons hw
      rw [hv, hw]
      exact List.nil_lt_cons _ _

/-- The defects, with their addresses, are a report. -/
theorem isReport_locatedDefects (start : String) (ps : List Production) :
    IsReport start ps (locatedDefects start ps) :=
  ⟨locatedDefects_increasing start ps, fun _ _ => mem_locatedDefects_iff⟩

-- ---------------------------------------------------------------------------
-- Making a grammar
-- ---------------------------------------------------------------------------

namespace Grammar

theorem exists_ofProductions_eq_ok_iff :
    (∃ g, ofProductions start ps = .ok g) ↔ defects start ps = [] := by
  constructor
  · rintro ⟨g, hg⟩
    exact (ofProductions_eq_ok_iff.1 hg).1
  · intro h
    exact ⟨_, dif_pos h⟩

theorem ofProductions_eq_error_iff {ds : List Defect} :
    ofProductions start ps = .error ds ↔
      defects start ps ≠ [] ∧ ds = (defects start ps).map (·.2) := by
  unfold ofProductions
  split
  · next h => simp [h]
  · next h => simp [h, eq_comm]

/-- Without productions it does not matter which start symbol is asked for. -/
theorem ofProductionsFromFirst_eq (h : ∀ p, ps.head? = some p → p.lhs = start) :
    ofProductionsFromFirst ps = ofProductions start ps := by
  cases ps with
  | nil => rfl
  | cons p ps =>
    obtain rfl := h p rfl
    rfl

/-- The defects of productions are the report on them, without the addresses: there are
none just if there is a production, the start symbol has a rule, and right-hand sides are
made of words and defined names and not empty. Then productions make a grammar, and
otherwise all defects are given. The same holds if the start symbol is not given and taken
from the first production. -/
theorem defects_exact (start : String) (ps : List Production) :
    (defects start ps = [] ↔
      ps ≠ [] ∧ start ∈ ps.map (·.lhs) ∧
        ∀ p ∈ ps, p.rhs ≠ [] ∧ ∀ b, Symbol.nonterminal b ∈ p.rhs → b ∈ ps.map (·.lhs)) ∧
    (∃ report, IsReport start ps report ∧ (∀ report', IsReport start ps report' → report' = report) ∧
      defects start ps = report.map (·.2)) ∧
    ((∃ g, ofProductions start ps = .ok g) ↔ defects start ps = []) ∧
    (∀ ds, ofProductions start ps = .error ds ↔
      defects start ps ≠ [] ∧ ds = (defects start ps).map (·.2)) ∧
    ((∀ p, ps.head? = some p → p.lhs = start) →
      ((∃ g, ofProductionsFromFirst ps = .ok g) ↔ defects start ps = []) ∧
      ∀ ds, ofProductionsFromFirst ps = .error ds ↔
        defects start ps ≠ [] ∧ ds = (defects start ps).map (·.2)) := by
  have hreport := isReport_locatedDefects start ps
  refine ⟨defects_eq_nil_iff,
    ⟨_, hreport, fun report' h' => h'.unique hreport, (map_snd_locatedDefects start ps).symm⟩,
    exists_ofProductions_eq_ok_iff, fun ds => ofProductions_eq_error_iff, fun hfirst => ?_⟩
  rw [ofProductionsFromFirst_eq hfirst]
  exact ⟨exists_ofProductions_eq_ok_iff, fun ds => ofProductions_eq_error_iff⟩

/-- Productions with every defect that productions can have. The name `B` is used twice by
the same production, and `C` before its own rule. -/
def defectiveProductions : List Production :=
  [⟨"S", [.nonterminal "C", .nonterminal "B", .terminal "x", .nonterminal "B"]⟩,
   ⟨"C", []⟩,
   ⟨"C", [.nonterminal "C", .nonterminal "D"]⟩]

theorem defects_exact_defectiveProductions :
    ofProductionsFromFirst defectiveProductions =
        .error [.undefinedNonterminal "B" "S", .undefinedNonterminal "B" "S",
          .emptyRightHandSide "C", .undefinedNonterminal "D" "C"] ∧
      ∃ report, IsReport "T" defectiveProductions report ∧
        report.map (·.1) = [[], [0, 1], [0, 3], [1], [2, 1]] ∧
        defects "T" defectiveProductions = report.map (·.2) := by
  constructor
  · obtain ⟨-, -, -, -, hfirst⟩ := defects_exact "S" defectiveProductions
    obtain ⟨-, herror⟩ := hfirst fun p hp => by
      rw [← Option.some.inj hp]
    exact (herror _).2 ⟨by decide, by decide⟩
  · obtain ⟨-, ⟨report, hreport, hunique, hdefects⟩, -⟩ := defects_exact "T" defectiveProductions
    refine ⟨report, hreport, ?_, hdefects⟩
    rw [← hunique _ (isReport_locatedDefects "T" defectiveProductions)]
    decide

end Grammar

end Constituency
