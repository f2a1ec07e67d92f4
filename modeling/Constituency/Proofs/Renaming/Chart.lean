import Constituency.Proofs.Chart.Filling
import Constituency.Proofs.Renaming.Grammar

/-!
# Charts under renaming

A cell is filled by asking which word stands where, and which phrase kinds the cells of
shorter spans build. Both questions compare names or words, and so a renamed grammar
gets the same answers over the renamed words, provided that the shorter cells already
hold the renamed derivations. The derivations that it makes of them are then the renamed
ones, in the same order (`cellOver_rename`).

By induction on the length of the span this becomes a fact about filled charts, with no
proviso. Cells are compared as lists, so the order of discovery is part of it, and with
it the order in which the unary rules are applied.

## Main results

* `Grammar.IsRenamed.cellOver` — one cell, given the shorter ones.
* `Chart.IsRenamed.cell`       — every cell of a filled chart.
-/

namespace Constituency

variable {ρ : Renaming} {tokens : List String} {cells : Span → Cell}

-- ---------------------------------------------------------------------------
-- Asking a cell
-- ---------------------------------------------------------------------------

namespace Cell

/-- The cell with every derivation renamed, in the same order. -/
def rename (ρ : Renaming) (c : Cell) : Cell :=
  c.map (Derivation.rename ρ)

theorem symbols_rename (hρ : ρ.Injective) (c : Cell) :
    (c.rename ρ).symbols = c.symbols.map ρ.name := by
  have hsymbols : (c.rename ρ).map Derivation.symbol = (c.map Derivation.symbol).map ρ.name := by
    rw [rename, List.map_map, List.map_map]
    rfl
  rw [symbols, hsymbols, map_eraseDups hρ.name, symbols]

theorem has_rename (hρ : ρ.Injective) (c : Cell) (a : String) :
    (c.rename ρ).has (ρ.name a) = c.has a := by
  rw [Bool.eq_iff_iff, has_iff, has_iff, symbols_rename hρ, List.mem_map_of_injective hρ.name]

theorem derivationsOf_rename (hρ : ρ.Injective) (c : Cell) (a : String) :
    (c.rename ρ).derivationsOf (ρ.name a) = (c.derivationsOf a).map (Derivation.rename ρ) := by
  rw [derivationsOf, rename, List.filter_map, derivationsOf]
  congr 1
  refine List.filter_congr fun d _ => ?_
  simp [hρ.name.eq_iff]

end Cell

-- ---------------------------------------------------------------------------
-- Matching symbols
-- ---------------------------------------------------------------------------

theorem matchSymbol_rename (hρ : ρ.Injective) (s : Symbol) (u : Span) :
    matchSymbol (tokens.map ρ.word) (fun v => (cells v).rename ρ) (s.rename ρ) u =
      (matchSymbol tokens cells s u).map (Part.rename ρ) := by
  cases s with
  | terminal w =>
    have hword : (tokens.map ρ.word)[u.start]? = some (ρ.word w) ↔ tokens[u.start]? = some w := by
      rw [List.getElem?_map]
      exact (Option.map_injective hρ.word).eq_iff' rfl
    simp only [Symbol.rename, matchSymbol, hword]
    split <;> rfl
  | nonterminal a =>
    rw [Symbol.rename, matchSymbol, matchSymbol, Cell.has_rename hρ]
    split <;> rfl

theorem matchSymbols_rename (hρ : ρ.Injective) (rhs : List Symbol) (spans : List Span) :
    matchSymbols (tokens.map ρ.word) (fun v => (cells v).rename ρ) (rhs.map (Symbol.rename ρ))
        spans =
      (matchSymbols tokens cells rhs spans).map (List.map (Part.rename ρ)) := by
  induction rhs generalizing spans with
  | nil => cases spans <;> rfl
  | cons s rest ih =>
    cases spans with
    | nil => rfl
    | cons u us =>
      rw [List.map_cons, matchSymbols, matchSymbols, matchSymbol_rename hρ, ih]
      cases matchSymbol tokens cells s u with
      | none => rfl
      | some part => cases matchSymbols tokens cells rest us <;> rfl

namespace Production

/-- A renamed rule is tried on the same splits and succeeds on the same ones. -/
theorem derivationsOver_rename (hρ : ρ.Injective) (p : Production) (s : Span) :
    (p.rename ρ).derivationsOver (tokens.map ρ.word) (fun v => (cells v).rename ρ) s =
      (p.derivationsOver tokens cells s).map (Derivation.rename ρ) := by
  have hunary : (p.rename ρ).unaryChild?.isSome = p.unaryChild?.isSome := by
    rw [unaryChild?_rename, Option.isSome_map]
  rw [derivationsOver, derivationsOver, isLexical_rename, hunary, rhs_rename, List.length_map,
    matchSymbols_rename hρ]
  split
  · split
    · cases matchSymbols tokens cells p.rhs [s] <;> rfl
    · rfl
  · split
    · rfl
    · rw [List.map_filterMap]
      refine List.filterMap_congr fun spans _ => ?_
      rw [matchSymbols_rename hρ]
      cases matchSymbols tokens cells p.rhs spans <;> rfl

end Production

-- ---------------------------------------------------------------------------
-- One cell
-- ---------------------------------------------------------------------------

namespace Grammar.IsRenamed

variable {g g' : Grammar}

theorem splitCell (h : IsRenamed ρ g g') (hρ : ρ.Injective) (s : Span) :
    g'.splitCell (tokens.map ρ.word) (fun v => (cells v).rename ρ) s =
      (g.splitCell tokens cells s).rename ρ := by
  rw [Grammar.splitCell, h.productions, List.flatMap_map, Grammar.splitCell, Cell.rename,
    List.map_flatMap]
  exact congrArg (List.flatMap · _) (funext fun p => p.derivationsOver_rename hρ s)

theorem unaryDerivations (h : IsRenamed ρ g g') (hρ : ρ.Injective) (s : Span) (b : String) :
    g'.unaryDerivations s (ρ.name b) = (g.unaryDerivations s b).map (Derivation.rename ρ) := by
  rw [Grammar.unaryDerivations, h.unaryParents hρ, Grammar.unaryDerivations, List.map_map,
    List.map_map]
  rfl

/-- The cell of a span is renamed if the cells of the shorter spans are. -/
theorem cellOver (h : IsRenamed ρ g g') (hρ : ρ.Injective) (s : Span) :
    g'.cellOver (tokens.map ρ.word) (fun v => (cells v).rename ρ) s =
      (g.cellOver tokens cells s).rename ρ := by
  have hunary (kinds : List String) :
      (kinds.map ρ.name).flatMap (g'.unaryDerivations s) =
        (kinds.flatMap (g.unaryDerivations s)).map (Derivation.rename ρ) := by
    rw [List.flatMap_map, List.map_flatMap]
    exact congrArg (List.flatMap · kinds) (funext (h.unaryDerivations hρ s))
  rw [Grammar.cellOver, h.splitCell hρ, Cell.symbols_rename hρ, h.unaryClosure hρ, hunary,
    Grammar.cellOver, Cell.rename, Cell.rename, List.map_append]

end Grammar.IsRenamed

-- ---------------------------------------------------------------------------
-- The filled chart
-- ---------------------------------------------------------------------------

namespace Chart

/-- The chart is that of the renamed grammar and the renamed words of the other one. -/
structure IsRenamed (ρ : Renaming) (c c' : Chart) : Prop where
  grammar : c.grammar.IsRenamed ρ c'.grammar
  tokens : c'.tokens = c.tokens.map ρ.word

namespace IsRenamed

variable {c c' : Chart}

theorem whole (h : IsRenamed ρ c c') : c'.whole = c.whole := by
  rw [Chart.whole, h.tokens, List.length_map, Chart.whole]

/-- Every cell holds the renamed derivations, in the same order. -/
theorem cell (h : IsRenamed ρ c c') (hρ : ρ.Injective) (s : Span) :
    c'.cell s = (c.cell s).rename ρ := by
  by_cases hs : s.Within c.tokens.length
  · have hs' : s.Within c'.tokens.length := by
      rw [h.tokens, List.length_map]
      exact hs
    have hshorter : ∀ u : Span, u.length < s.length → c'.cell u = (c.cell u).rename ρ :=
      fun u _ => cell h hρ u
    rw [cell_eq_cellOver hs', Grammar.cellOver_congr hshorter, h.tokens, h.grammar.cellOver hρ,
      ← cell_eq_cellOver hs]
  · have hs' : ¬s.Within c'.tokens.length := by
      rw [h.tokens, List.length_map]
      exact hs
    rw [cell_eq_nil hs', cell_eq_nil hs]
    rfl
termination_by s.length

theorem derivations (h : IsRenamed ρ c c') (hρ : ρ.Injective) (s : Span) (a : String) :
    c'.derivations s (ρ.name a) = (c.derivations s a).map (Derivation.rename ρ) := by
  rw [Chart.derivations, h.cell hρ, Cell.derivationsOf_rename hρ, Chart.derivations]

end IsRenamed

end Chart

end Constituency
