import Constituency.Chart.Basic
import Constituency.Proofs.Chart.Span
import Mathlib.Data.List.Basic

/-!
# The filled chart solves its own equation

The chart is filled level by level, each level from the ones before it. Once it
is full, the history of the filling no longer matters: the cell of every span of
the sentence is what `cellOver` makes of the finished chart itself, and every
other cell is empty. So later arguments never mention levels.

The reason is that `cellOver` looks only at strictly shorter spans
(`cellOver_congr`). A rule with one symbol on its right is lexical or unary; the
first kind consults no cell, and the second kind is left to the closure. Every
other rule cuts the span.

## Main results

* `cellOver_congr`        — a cell is determined by the cells of shorter spans.
* `Chart.cell_eq_cellOver` — the equation of the finished chart.
* `Chart.cell_eq_nil`     — cells outside the sentence are empty.
-/

namespace Constituency

-- ---------------------------------------------------------------------------
-- A cell looks at shorter spans only
-- ---------------------------------------------------------------------------

theorem matchSymbol_congr {tokens : List String} {cells cells' : Span → Cell} {s : Symbol}
    {span : Span} (h : cells span = cells' span) :
    matchSymbol tokens cells s span = matchSymbol tokens cells' s span := by
  cases s with
  | terminal w => rfl
  | nonterminal a => rw [matchSymbol, matchSymbol, h]

theorem matchSymbols_congr {tokens : List String} {cells cells' : Span → Cell} {rhs : List Symbol}
    {spans : List Span} (h : ∀ u ∈ spans, cells u = cells' u) :
    matchSymbols tokens cells rhs spans = matchSymbols tokens cells' rhs spans := by
  induction rhs generalizing spans with
  | nil => cases spans <;> rfl
  | cons s rest ih =>
    cases spans with
    | nil => rfl
    | cons u us =>
      rw [matchSymbols, matchSymbols, matchSymbol_congr (h u List.mem_cons_self),
        ih fun v hv => h v (List.mem_cons_of_mem _ hv)]

namespace Production

theorem isLexical_iff {p : Production} :
    p.isLexical = true ↔ ∃ w, p.rhs = [.terminal w] := by
  unfold isLexical
  split <;> simp_all

/-- A rule with a single symbol is lexical or unary. -/
theorem isLexical_or_unaryChild? {p : Production} (h : p.rhs.length = 1) :
    p.isLexical = true ∨ p.unaryChild?.isSome = true := by
  obtain ⟨s, hs⟩ := List.length_eq_one_iff.1 h
  cases s with
  | terminal w => exact Or.inl (isLexical_iff.2 ⟨w, hs⟩)
  | nonterminal b => exact Or.inr (by rw [unaryChild?_eq_some.2 hs]; rfl)

/-- A rule that has to be tried on splits does not have a single symbol. -/
theorem length_rhs_ne_one {p : Production} (hlex : ¬p.isLexical = true)
    (hunary : ¬p.unaryChild?.isSome = true) : p.rhs.length ≠ 1 := fun h =>
  (isLexical_or_unaryChild? h).elim hlex hunary

/-- For a lexical rule a word is compared with the sentence, and no cell is consulted. -/
theorem matchSymbols_of_isLexical {p : Production} (hlex : p.isLexical = true)
    (tokens : List String) (cells cells' : Span → Cell) (u : Span) :
    matchSymbols tokens cells p.rhs [u] = matchSymbols tokens cells' p.rhs [u] := by
  obtain ⟨w, hw⟩ := isLexical_iff.1 hlex
  rw [hw]
  rfl

theorem derivationsOver_congr {p : Production} {tokens : List String} {cells cells' : Span → Cell}
    {s : Span} (h : ∀ u : Span, u.length < s.length → cells u = cells' u) :
    p.derivationsOver tokens cells s = p.derivationsOver tokens cells' s := by
  unfold derivationsOver
  by_cases hlex : p.isLexical = true
  · rw [if_pos hlex, if_pos hlex, matchSymbols_of_isLexical hlex]
  · rw [if_neg hlex, if_neg hlex]
    by_cases hskip : p.unaryChild?.isSome = true ∨ s.length < p.rhs.length
    · rw [if_pos hskip, if_pos hskip]
    · rw [if_neg hskip, if_neg hskip]
      have hlen : p.rhs.length ≠ 1 := length_rhs_ne_one hlex fun h => hskip (Or.inl h)
      refine List.filterMap_congr fun spans hspans => ?_
      rw [matchSymbols_congr fun u hu => h u (Span.length_lt_of_mem_splits hspans hlen hu)]

end Production

namespace Grammar

/-- A cell is determined by the cells of the shorter spans. -/
theorem cellOver_congr {g : Grammar} {tokens : List String} {cells cells' : Span → Cell} {s : Span}
    (h : ∀ u : Span, u.length < s.length → cells u = cells' u) :
    g.cellOver tokens cells s = g.cellOver tokens cells' s := by
  have hsplit : g.splitCell tokens cells s = g.splitCell tokens cells' s := by
    unfold splitCell
    rw [List.flatMap_def, List.flatMap_def]
    exact congrArg _ (List.map_congr_left fun p _ => Production.derivationsOver_congr h)
  rw [cellOver, cellOver, hsplit]

end Grammar

-- ---------------------------------------------------------------------------
-- The levels
-- ---------------------------------------------------------------------------

variable {g : Grammar} {tokens : List String}

@[simp] theorem size_fillLevels (count : Nat) : (fillLevels g tokens count).size = count := by
  induction count with
  | zero => rfl
  | succ count ih => rw [fillLevels, Array.size_push, ih]

/-- A level keeps the place and the content it has when it is made. -/
theorem getElem?_fillLevels {count k : Nat} (h : k < count) :
    (fillLevels g tokens count)[k]? =
      some ((Array.range (tokens.length - k)).map fun start =>
        g.cellOver tokens (cellIn (fillLevels g tokens k)) ⟨start, start + k + 1⟩) := by
  induction count with
  | zero => exact absurd h (Nat.not_lt_zero k)
  | succ count ih =>
    rw [fillLevels, Array.getElem?_push, size_fillLevels]
    by_cases hk : k = count
    · rw [if_pos hk, hk]
    · rw [if_neg hk, ih (by omega)]

/-- The cell of a span that is no longer than the levels go. -/
theorem cellIn_fillLevels {count : Nat} {s : Span} (hs : s.Within tokens.length)
    (hcount : s.length ≤ count) :
    cellIn (fillLevels g tokens count) s =
      g.cellOver tokens (cellIn (fillLevels g tokens (s.length - 1))) s := by
  obtain ⟨hlt, hle⟩ := hs
  have hlen : 0 < s.length := by unfold Span.length; omega
  have hstart : s.start < tokens.length - (s.length - 1) := by unfold Span.length; omega
  have hspan : (⟨s.start, s.start + (s.length - 1) + 1⟩ : Span) = s := by
    have hstop : s.start + (s.length - 1) + 1 = s.stop := by unfold Span.length; omega
    rw [hstop]
  rw [cellIn, if_pos hlt, getElem?_fillLevels (by omega), Option.bind_some, Array.getElem?_map,
    Array.getElem?_range, if_pos hstart, Option.map_some, hspan]
  rfl

theorem cellIn_fillLevels_eq_nil {count : Nat} {s : Span} (hs : ¬s.Within tokens.length) :
    cellIn (fillLevels g tokens count) s = [] := by
  unfold cellIn
  split
  · next hlt =>
    have hstop : tokens.length < s.stop := Nat.lt_of_not_le fun hle => hs ⟨hlt, hle⟩
    by_cases hcount : s.length - 1 < count
    · have hstart : ¬s.start < tokens.length - (s.length - 1) := by unfold Span.length; omega
      rw [getElem?_fillLevels hcount, Option.bind_some, Array.getElem?_map, Array.getElem?_range,
        if_neg hstart]
      rfl
    · rw [Array.getElem?_eq_none (by rw [size_fillLevels]; omega)]
      rfl
  · rfl

-- ---------------------------------------------------------------------------
-- The finished chart
-- ---------------------------------------------------------------------------

namespace Chart

theorem cell_eq_nil {c : Chart} {s : Span} (hs : ¬s.Within c.tokens.length) : c.cell s = [] := by
  rw [cell, c.levels_eq]
  exact cellIn_fillLevels_eq_nil hs

/-- The levels below a span already have the final cells of the shorter spans. -/
theorem cellIn_fillLevels_eq_cell {c : Chart} {count : Nat} {u : Span} (hu : u.length ≤ count) :
    cellIn (fillLevels c.grammar c.tokens count) u = c.cell u := by
  by_cases hwithin : u.Within c.tokens.length
  · rw [cell, c.levels_eq, cellIn_fillLevels hwithin hu,
      cellIn_fillLevels hwithin hwithin.length_le]
  · rw [cellIn_fillLevels_eq_nil hwithin, cell_eq_nil hwithin]

/-- The cell of a span is what the finished chart gives for it. -/
theorem cell_eq_cellOver {c : Chart} {s : Span} (hs : s.Within c.tokens.length) :
    c.cell s = c.grammar.cellOver c.tokens c.cell s := by
  rw [cell, c.levels_eq, cellIn_fillLevels hs hs.length_le]
  exact Grammar.cellOver_congr fun u hu => cellIn_fillLevels_eq_cell (by omega)

end Chart

end Constituency
