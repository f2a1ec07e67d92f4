import Constituency.Distinct
import Constituency.Proofs.Grammar.Licence
import Constituency.Proofs.Grammar.RuleTable
import Mathlib.Data.List.Induction

/-!
# The canonical form of productions

A grammar keeps two things of the productions it is made of: the order in which phrase
kinds are defined for the first time, and for each kind the order in which its productions
are given for the first time. How productions for different kinds are mixed, and that a
production is given twice, is forgotten.

Both orders are kept by every single insertion: the new production is the last, and what
is last in a list either repeats an earlier element or is a new one at the end. So after
all insertions the views of the table are the first occurrences in the list. The views say
all there is to a table. Hence productions make the same grammar just if both orders are
the same, and the productions of a grammar, which come kind by kind and once each, are the
form that all of them share.

## Main results

* `RuleTable.names_ofList`, `RuleTable.rulesFor_ofList` — the views of a table.
* `RuleTable.ofList_eq_iff`   — which productions make the same table.
* `ofProductions_canonical`   — a grammar is the canonical form of its productions.
-/

namespace Constituency

/-- The left-hand sides of productions, each at its first occurrence. -/
def leftHandSides (ps : List Production) : List String :=
  (ps.map (·.lhs)).eraseDups

/-- The productions for a phrase kind, each at its first occurrence. -/
def productionsFor (ps : List Production) (a : String) : List Production :=
  (ps.filter fun p => p.lhs = a).eraseDups

-- ---------------------------------------------------------------------------
-- First occurrences
-- ---------------------------------------------------------------------------

theorem leftHandSides_concat (ps : List Production) (p : Production) :
    leftHandSides (ps ++ [p]) =
      if p.lhs ∈ leftHandSides ps then leftHandSides ps else leftHandSides ps ++ [p.lhs] := by
  unfold leftHandSides
  rw [List.map_append, List.map_singleton, eraseDups_concat]
  simp only [List.mem_eraseDups]

theorem productionsFor_concat (ps : List Production) (p : Production) (a : String) :
    productionsFor (ps ++ [p]) a =
      if a = p.lhs ∧ p ∉ productionsFor ps a then productionsFor ps a ++ [p]
      else productionsFor ps a := by
  unfold productionsFor
  rw [List.filter_append, List.filter_singleton]
  by_cases ha : p.lhs = a
  · subst ha
    simp only [decide_true, cond_true, eraseDups_concat, List.mem_eraseDups, true_and, ite_not]
  · have hne : ¬a = p.lhs := fun h => ha h.symm
    simp [ha, hne]

theorem productionsFor_eq_nil {ps : List Production} {a : String} (h : a ∉ ps.map (·.lhs)) :
    productionsFor ps a = [] := by
  have hnone : ps.filter (fun p => p.lhs = a) = [] :=
    List.filter_eq_nil_iff.2 fun p hp hlhs =>
      h (List.mem_map.2 ⟨p, hp, of_decide_eq_true hlhs⟩)
  rw [productionsFor, hnone, List.eraseDups_nil]

-- ---------------------------------------------------------------------------
-- Rule tables
-- ---------------------------------------------------------------------------

namespace RuleTable

theorem ofList_concat (ps : List Production) (p : Production) :
    ofList (ps ++ [p]) = (ofList ps).insert p := by
  rw [ofList, List.foldl_append]
  rfl

/-- The names of a table are defined in the order of their first productions. -/
theorem names_ofList (ps : List Production) : (ofList ps).names = leftHandSides ps := by
  induction ps using List.reverseRecOn with
  | nil => rfl
  | append_singleton ps p ih => rw [ofList_concat, names_insert, ih, leftHandSides_concat]

/-- The rules for a name are its productions in the order of their first occurrences. -/
theorem rulesFor_ofList (ps : List Production) (a : String) :
    (ofList ps).rulesFor a = productionsFor ps a := by
  induction ps using List.reverseRecOn with
  | nil => rfl
  | append_singleton ps p ih => rw [ofList_concat, rulesFor_insert, ih, productionsFor_concat]

/-- The views say all there is to a table. -/
theorem eq_of_views {t u : RuleTable} (hnames : t.names = u.names)
    (hrules : ∀ a, t.rulesFor a = u.rulesFor a) : t = u := by
  have hproductions : t.productions = u.productions := by
    rw [productions_eq_flatMap_rulesFor, productions_eq_flatMap_rulesFor, hnames, funext hrules]
  rw [← t.ofList_productions, hproductions, u.ofList_productions]

/-- Productions make the same table just if they have the same first occurrences. -/
theorem ofList_eq_iff {ps qs : List Production} :
    ofList ps = ofList qs ↔
      leftHandSides ps = leftHandSides qs ∧ ∀ a, productionsFor ps a = productionsFor qs a := by
  constructor
  · intro h
    refine ⟨?_, fun a => ?_⟩
    · rw [← names_ofList, ← names_ofList, h]
    · rw [← rulesFor_ofList, ← rulesFor_ofList, h]
  · rintro ⟨hnames, hrules⟩
    refine eq_of_views ?_ fun a => ?_
    · rw [names_ofList, names_ofList, hnames]
    · rw [rulesFor_ofList, rulesFor_ofList, hrules]

end RuleTable

-- ---------------------------------------------------------------------------
-- Grammars
-- ---------------------------------------------------------------------------

namespace Grammar

/-- The grammar is the canonical form of the productions, rooted at `start`. -/
structure IsCanonical (g : Grammar) (start : String) (ps : List Production) : Prop where
  start_eq : g.start = start
  nonterminals_eq : g.nonterminals = leftHandSides ps
  rulesFor_eq : ∀ a, g.rulesFor a = productionsFor ps a
  rulesFor_eq_nil : ∀ a, a ∉ ps.map (·.lhs) → g.rulesFor a = []
  productions_eq : g.productions = g.nonterminals.flatMap g.rulesFor
  productions_distinct : g.productions.Nodup
  mem_productions : ∀ p, p ∈ g.productions ↔ p ∈ ps
  size_eq : g.size = g.productions.length
  rhs_ne_nil : ∀ p ∈ g.productions, p.rhs ≠ []
  rulesFor_ne_nil : ∀ p ∈ g.productions, ∀ b, Symbol.nonterminal b ∈ p.rhs → g.rulesFor b ≠ []
  rulesFor_start_ne_nil : g.rulesFor start ≠ []

theorem rulesFor_ne_nil_of_mem {g : Grammar} {a : String} (h : a ∈ g.nonterminals) :
    g.rulesFor a ≠ [] := by
  obtain ⟨p, hp, rfl⟩ := List.mem_map.1 (mem_nonterminals_iff.1 h)
  exact List.ne_nil_of_mem (mem_rulesFor_iff.2 ⟨hp, rfl⟩)

theorem isCanonical_of_ofProductions {start : String} {ps : List Production} {g : Grammar}
    (h : ofProductions start ps = .ok g) : g.IsCanonical start ps := by
  obtain ⟨-, rfl, hrules⟩ := ofProductions_eq_ok_iff.1 h
  have hrulesFor (a : String) : g.rulesFor a = productionsFor ps a := by
    rw [rulesFor, hrules, RuleTable.rulesFor_ofList]
  refine
    { start_eq := rfl
      nonterminals_eq := ?names
      rulesFor_eq := hrulesFor
      rulesFor_eq_nil := fun a ha => (hrulesFor a).trans (productionsFor_eq_nil ha)
      productions_eq := g.rules.productions_eq_flatMap_rulesFor
      productions_distinct := g.productions_nodup
      mem_productions := fun p => mem_productions_of_ofProductions h
      size_eq := g.rules.length_productions.symm
      rhs_ne_nil := g.rhs_ne_nil
      rulesFor_ne_nil := fun p hp b hb => rulesFor_ne_nil_of_mem (g.closed p hp b hb)
      rulesFor_start_ne_nil := rulesFor_ne_nil_of_mem g.start_mem }
  case names => rw [nonterminals, hrules, RuleTable.names_ofList]

/-- Productions make a given grammar just if they make its table. -/
theorem ofProductions_eq_ok_iff_ofList {g : Grammar} {qs : List Production} :
    ofProductions g.start qs = .ok g ↔ g.rules = .ofList qs := by
  rw [ofProductions_eq_ok_iff]
  refine ⟨fun h => h.2.2, fun hrules => ⟨?_, rfl, hrules⟩⟩
  -- the conditions on a grammar are met by the productions of the table, and these are `qs`
  have hmem (q : Production) : q ∈ g.productions ↔ q ∈ qs := by
    rw [productions, hrules, RuleTable.mem_productions_ofList]
  have hnames (a : String) : a ∈ g.productions.map (·.lhs) ↔ a ∈ qs.map (·.lhs) := by
    simp only [List.mem_map, hmem]
  obtain ⟨hne, hstart, hall⟩ := defects_eq_nil_iff.1 g.defects_productions
  refine defects_eq_nil_iff.2 ⟨?_, (hnames _).1 hstart, fun q hq => ?_⟩
  · obtain ⟨p, hp⟩ := List.exists_mem_of_ne_nil _ hne
    exact List.ne_nil_of_mem ((hmem p).1 hp)
  · obtain ⟨hrhs, hclosed⟩ := hall q ((hmem q).2 hq)
    exact ⟨hrhs, fun b hb => (hnames b).1 (hclosed b hb)⟩

/-- A grammar is the canonical form of its productions. Made of its own productions it is
the same again, and it is made of just those productions whose first occurrences are the
same, that of each phrase kind and that of each production for a kind. -/
theorem ofProductions_canonical {start : String} {ps : List Production} {g : Grammar}
    (h : ofProductions start ps = .ok g) :
    g.IsCanonical start ps ∧ ofProductions g.start g.productions = .ok g ∧
      ∀ qs, ofProductions start qs = .ok g ↔
        leftHandSides ps = leftHandSides qs ∧ ∀ a, productionsFor ps a = productionsFor qs a := by
  refine ⟨isCanonical_of_ofProductions h, g.ofProductions_productions, fun qs => ?_⟩
  obtain ⟨-, rfl, hrules⟩ := ofProductions_eq_ok_iff.1 h
  rw [ofProductions_eq_ok_iff_ofList, hrules, RuleTable.ofList_eq_iff]

/-- Productions for three kinds, mixed and with repetitions. -/
def mixedProductions : List Production :=
  [⟨"S", [.nonterminal "B", .nonterminal "A"]⟩,
   ⟨"A", [.terminal "x"]⟩,
   ⟨"S", [.nonterminal "A"]⟩,
   ⟨"A", [.terminal "x"]⟩,
   ⟨"B", [.nonterminal "A"]⟩,
   ⟨"S", [.nonterminal "B", .nonterminal "A"]⟩,
   ⟨"A", [.terminal "y"]⟩]

/-- The same productions in another mixture, with another repetition. -/
def remixedProductions : List Production :=
  [⟨"S", [.nonterminal "B", .nonterminal "A"]⟩,
   ⟨"S", [.nonterminal "A"]⟩,
   ⟨"A", [.terminal "x"]⟩,
   ⟨"A", [.terminal "y"]⟩,
   ⟨"A", [.terminal "x"]⟩,
   ⟨"B", [.nonterminal "A"]⟩]

theorem productionsFor_remixedProductions (a : String) :
    productionsFor mixedProductions a = productionsFor remixedProductions a := by
  have hdefined : ∀ b ∈ ["S", "A", "B"],
      productionsFor mixedProductions b = productionsFor remixedProductions b := by decide
  have hmixed : ∀ b ∈ mixedProductions.map (·.lhs), b ∈ ["S", "A", "B"] := by decide
  have hremixed : ∀ b ∈ remixedProductions.map (·.lhs), b ∈ ["S", "A", "B"] := by decide
  by_cases ha : a ∈ ["S", "A", "B"]
  · exact hdefined a ha
  · rw [productionsFor_eq_nil fun h => ha (hmixed a h), productionsFor_eq_nil fun h => ha (hremixed a h)]

theorem ofProductions_canonical_mixedProductions :
    ∃ g, ofProductions "S" mixedProductions = .ok g ∧
      g.nonterminals = ["S", "A", "B"] ∧
      g.rulesFor "A" = [⟨"A", [.terminal "x"]⟩, ⟨"A", [.terminal "y"]⟩] ∧
      ofProductions "S" remixedProductions = .ok g ∧
      ofProductions "S" mixedProductions.reverse ≠ .ok g := by
  obtain ⟨g, hg⟩ : ∃ g, ofProductions "S" mixedProductions = .ok g := ⟨_, dif_pos (by decide)⟩
  obtain ⟨hcanonical, -, hsame⟩ := ofProductions_canonical hg
  refine ⟨g, hg, ?_, ?_, ?_, ?_⟩
  · rw [hcanonical.nonterminals_eq]
    decide
  · rw [hcanonical.rulesFor_eq]
    decide
  · exact (hsame _).2 ⟨by decide, productionsFor_remixedProductions⟩
  · -- the kinds come in another order
    intro hreverse
    have hnames := ((hsame _).1 hreverse).1
    revert hnames
    decide

end Grammar

end Constituency
