import Constituency.Production

/-!
# What keeps productions from forming a grammar

A list of productions and a start symbol form a grammar when there is at least
one production, the start symbol has a rule, no right-hand side is empty, and
every nonterminal that is used is also defined, before or after its use. All
violations are listed, not only the first one, so that a grammar can be mended in
one pass.

## Main declarations

* `Defect`   — a single violation, with its message.
* `defects`  — every violation, each with the production that causes it.
-/

namespace Constituency

/-- One reason why productions do not form a grammar. -/
inductive Defect where
  /-- There is no production at all. -/
  | noProductions
  /-- A production for `lhs` has nothing on its right-hand side. -/
  | emptyRightHandSide (lhs : String)
  /-- The nonterminal `symbol` is used by a rule for `usedBy` and has no rule of
  its own. -/
  | undefinedNonterminal (symbol usedBy : String)
  /-- The start symbol has no rule. -/
  | undefinedStart (start : String)
deriving DecidableEq, Repr, Inhabited

/-- The message shown for a defect. -/
def Defect.message : Defect → String
  | .noProductions => "Grammar has no productions"
  | .emptyRightHandSide a => "Rule for `" ++ a ++ "` has an empty right-hand side"
  | .undefinedNonterminal b a =>
    "Could not find definition for `" ++ b ++ "` (used by `" ++ a ++ "`)"
  | .undefinedStart s => "Start symbol `" ++ s ++ "` has no rules"

/-- The defects of one production, where `defined` are the names that have a
rule: an empty right-hand side, or each use of an undefined name from left to
right. -/
def Production.defects (defined : List String) (p : Production) : List Defect :=
  if p.rhs = [] then
    [.emptyRightHandSide p.lhs]
  else
    (p.children.filter fun b => !defined.contains b).map fun b => .undefinedNonterminal b p.lhs

/-- Every defect of the productions `ps` rooted at `start`, each with the
position of the production at fault. A missing start symbol is nobody's fault in
particular and comes first; the others follow in production order. -/
def defects (start : String) (ps : List Production) : List (Option Nat × Defect) :=
  if ps = [] then
    [(none, .noProductions)]
  else
    let defined := ps.map (·.lhs)
    let atStart := if defined.contains start then [] else [(none, .undefinedStart start)]
    atStart ++ ps.zipIdx.flatMap fun (p, i) => (p.defects defined).map (some i, ·)

-- ---------------------------------------------------------------------------
-- Productions without defects
-- ---------------------------------------------------------------------------

/-- A production is free of defects when its right-hand side is not empty and uses
only defined names. -/
theorem Production.defects_eq_nil_iff {defined : List String} {p : Production} :
    p.defects defined = [] ↔
      p.rhs ≠ [] ∧ ∀ b, Symbol.nonterminal b ∈ p.rhs → b ∈ defined := by
  unfold Production.defects
  split
  · simp_all
  · simp_all [List.filter_eq_nil_iff, Production.mem_children]

/-- Productions are free of defects exactly when there is one, the start symbol
has a rule, and every right-hand side is made of defined symbols and not empty. -/
theorem defects_eq_nil_iff {start : String} {ps : List Production} :
    defects start ps = [] ↔
      ps ≠ [] ∧ start ∈ ps.map (·.lhs) ∧
        ∀ p ∈ ps, p.rhs ≠ [] ∧ ∀ b, Symbol.nonterminal b ∈ p.rhs → b ∈ ps.map (·.lhs) := by
  unfold defects
  split
  · simp_all
  · next hne =>
    simp only [List.append_eq_nil_iff, List.flatMap_eq_nil_iff, List.map_eq_nil_iff,
      Production.defects_eq_nil_iff]
    constructor
    · rintro ⟨hstart, hps⟩
      refine ⟨hne, ?_, fun p hp => ?_⟩
      · by_cases h : start ∈ ps.map (·.lhs)
        · exact h
        · simp [h] at hstart
      · obtain ⟨i, hi⟩ := List.mem_iff_getElem?.1 hp
        exact hps (p, i) (List.mem_zipIdx_iff_getElem?.2 hi)
    · rintro ⟨_, hstart, hps⟩
      refine ⟨if_pos (List.contains_iff_mem.2 hstart), fun q hq => hps q.1 ?_⟩
      exact List.mem_of_getElem? (List.mem_zipIdx_iff_getElem?.1 hq)

end Constituency
