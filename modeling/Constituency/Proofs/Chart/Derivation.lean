import Constituency.Proofs.Chart.Filling
import Constituency.Proofs.Grammar.UnaryClosure

/-!
# What the cells of a chart hold

A derivation over a span is right when its rule is one of the grammar and its
parts, side by side over the span, are where the symbols of the rule are found: a
word at its position, a phrase kind over a span whose cell builds it. `Found`
states this of any symbols, parts and cells.

The chart gets its derivations in two ways. Rules that cut the span are tried on
every split of it, and unary rules are applied to the kinds that the closure
visits. `Chart.mem_cell_iff` says that both together come to one condition, the
same for every rule: the cell of a span holds a derivation if and only if it is
right. Cyclic unary rules are no exception; there the cell refers to itself.

## Main results

* `found_iff_exists_tiles`   — `Found` is a tiling on which the symbols match.
* `mem_derivationsOver_iff`  — a rule that cuts the span is tried completely.
* `mem_symbols_cellOver_iff` — the kinds of a cell are those its splits raise.
* `Chart.mem_cell_iff`       — the cells hold the right derivations.
-/

namespace Constituency

/-- The symbols are found at the parts, side by side over the words from one
position up to another. -/
inductive Found (tokens : List String) (cells : Span → Cell) :
    Nat → Nat → List Symbol → List Part → Prop
  | nil {i : Nat} : Found tokens cells i i [] []
  | word {i j : Nat} {w : String} {rest : List Symbol} {parts : List Part}
      (hw : tokens[i]? = some w) (hrest : Found tokens cells (i + 1) j rest parts) :
      Found tokens cells i j (.terminal w :: rest) (.leaf i :: parts)
  | phrase {i k j : Nat} {b : String} {rest : List Symbol} {parts : List Part}
      (hik : i < k) (hb : b ∈ (cells ⟨i, k⟩).symbols) (hrest : Found tokens cells k j rest parts) :
      Found tokens cells i j (.nonterminal b :: rest) (.node ⟨i, k⟩ b :: parts)

variable {g : Grammar} {tokens : List String} {cells : Span → Cell}

-- ---------------------------------------------------------------------------
-- Matching symbols one by one
-- ---------------------------------------------------------------------------

theorem matchSymbol_terminal_eq_some {w : String} {u : Span} {part : Part} :
    matchSymbol tokens cells (.terminal w) u = some part ↔
      (u.length = 1 ∧ tokens[u.start]? = some w) ∧ part = .leaf u.start := by
  rw [matchSymbol]
  split
  · next h =>
    rw [Option.some_inj, eq_comm]
    exact ⟨fun hp => ⟨h, hp⟩, fun hp => hp.2⟩
  · next h =>
    constructor
    · intro hp
      cases hp
    · intro hp
      exact absurd hp.1 h

theorem matchSymbol_nonterminal_eq_some {b : String} {u : Span} {part : Part} :
    matchSymbol tokens cells (.nonterminal b) u = some part ↔
      b ∈ (cells u).symbols ∧ part = .node u b := by
  rw [matchSymbol, ← Cell.has_iff]
  split
  · next h =>
    rw [Option.some_inj, eq_comm]
    exact ⟨fun hp => ⟨h, hp⟩, fun hp => hp.2⟩
  · next h =>
    constructor
    · intro hp
      cases hp
    · intro hp
      exact absurd hp.1 h

theorem matchSymbols_cons_eq_some {s : Symbol} {rest : List Symbol} {u : Span} {us : List Span}
    {parts : List Part} :
    matchSymbols tokens cells (s :: rest) (u :: us) = some parts ↔
      ∃ part ps, matchSymbol tokens cells s u = some part ∧
        matchSymbols tokens cells rest us = some ps ∧ parts = part :: ps := by
  rw [matchSymbols]
  constructor
  · intro h
    split at h
    · next part ps hpart hps => exact ⟨part, ps, hpart, hps, (Option.some.inj h).symm⟩
    · cases h
  · intro h
    obtain ⟨part, ps, hpart, hps, rfl⟩ := h
    rw [hpart, hps]

theorem matchSymbols_word_eq_some {w : String} {u : Span} {parts : List Part} :
    matchSymbols tokens cells [.terminal w] [u] = some parts ↔
      (u.length = 1 ∧ tokens[u.start]? = some w) ∧ parts = [.leaf u.start] := by
  rw [matchSymbols_cons_eq_some]
  constructor
  · intro h
    obtain ⟨part, ps, hpart, hps, rfl⟩ := h
    obtain ⟨hw, rfl⟩ := matchSymbol_terminal_eq_some.1 hpart
    obtain rfl := Option.some.inj hps
    exact ⟨hw, rfl⟩
  · intro h
    obtain ⟨hw, rfl⟩ := h
    exact ⟨_, _, matchSymbol_terminal_eq_some.2 ⟨hw, rfl⟩, rfl, rfl⟩

theorem length_of_matchSymbols {rhs : List Symbol} {spans : List Span} {parts : List Part}
    (h : matchSymbols tokens cells rhs spans = some parts) : spans.length = rhs.length := by
  induction rhs generalizing spans parts with
  | nil =>
    cases spans with
    | nil => rfl
    | cons u us => cases h
  | cons s rest ih =>
    cases spans with
    | nil => cases h
    | cons u us =>
      obtain ⟨_, _, _, hrest, _⟩ := matchSymbols_cons_eq_some.1 h
      rw [List.length_cons, List.length_cons, ih hrest]

-- ---------------------------------------------------------------------------
-- Symbols found side by side
-- ---------------------------------------------------------------------------

theorem Found.exists_tiles {i j : Nat} {rhs : List Symbol} {parts : List Part}
    (h : Found tokens cells i j rhs parts) :
    ∃ spans, Tiles i j spans ∧ matchSymbols tokens cells rhs spans = some parts := by
  induction h with
  | nil => exact ⟨[], .nil, rfl⟩
  | @word i j w rest parts hw _ ih =>
    obtain ⟨spans, htiles, hmatch⟩ := ih
    have hlen : (⟨i, i + 1⟩ : Span).length = 1 := by rw [Span.length, Nat.add_sub_cancel_left]
    have hpart : matchSymbol tokens cells (.terminal w) ⟨i, i + 1⟩ = some (.leaf i) :=
      matchSymbol_terminal_eq_some.2 ⟨⟨hlen, hw⟩, rfl⟩
    refine ⟨⟨i, i + 1⟩ :: spans, .cons (Nat.lt_succ_self i) htiles, ?_⟩
    exact matchSymbols_cons_eq_some.2 ⟨_, _, hpart, hmatch, rfl⟩
  | @phrase i k j b rest parts hik hb _ ih =>
    obtain ⟨spans, htiles, hmatch⟩ := ih
    have hpart : matchSymbol tokens cells (.nonterminal b) ⟨i, k⟩ = some (.node ⟨i, k⟩ b) :=
      matchSymbol_nonterminal_eq_some.2 ⟨hb, rfl⟩
    refine ⟨⟨i, k⟩ :: spans, .cons hik htiles, ?_⟩
    exact matchSymbols_cons_eq_some.2 ⟨_, _, hpart, hmatch, rfl⟩

theorem Tiles.found {i j : Nat} {spans : List Span} (h : Tiles i j spans) {rhs : List Symbol}
    {parts : List Part} (hmatch : matchSymbols tokens cells rhs spans = some parts) :
    Found tokens cells i j rhs parts := by
  induction h generalizing rhs parts with
  | nil =>
    cases rhs with
    | nil =>
      obtain rfl := Option.some.inj hmatch
      exact .nil
    | cons s rest => cases hmatch
  | @cons i cut j spans hcut _ ih =>
    cases rhs with
    | nil => cases hmatch
    | cons s rest =>
      obtain ⟨part, ps, hpart, hps, rfl⟩ := matchSymbols_cons_eq_some.1 hmatch
      cases s with
      | terminal w =>
        obtain ⟨⟨hlen, hw⟩, rfl⟩ := matchSymbol_terminal_eq_some.1 hpart
        have hone : cut = i + 1 := by
          unfold Span.length at hlen
          dsimp only at hlen
          omega
        exact .word hw (hone ▸ ih hps)
      | nonterminal b =>
        obtain ⟨hb, rfl⟩ := matchSymbol_nonterminal_eq_some.1 hpart
        exact .phrase hcut hb (ih hps)

/-- Symbols are found over a stretch when they match the spans of a tiling. -/
theorem found_iff_exists_tiles {i j : Nat} {rhs : List Symbol} {parts : List Part} :
    Found tokens cells i j rhs parts ↔
      ∃ spans, Tiles i j spans ∧ matchSymbols tokens cells rhs spans = some parts := by
  constructor
  · intro h
    exact h.exists_tiles
  · intro h
    obtain ⟨spans, htiles, hmatch⟩ := h
    exact htiles.found hmatch

namespace Found

/-- Each symbol takes at least one word. -/
theorem add_length_le {i j : Nat} {rhs : List Symbol} {parts : List Part}
    (h : Found tokens cells i j rhs parts) : i + rhs.length ≤ j := by
  obtain ⟨spans, htiles, hmatch⟩ := found_iff_exists_tiles.1 h
  rw [← length_of_matchSymbols hmatch]
  exact htiles.add_length_le

theorem le {i j : Nat} {rhs : List Symbol} {parts : List Part}
    (h : Found tokens cells i j rhs parts) : i ≤ j :=
  Nat.le_of_add_right_le h.add_length_le

theorem exists_getElem? {i j : Nat} {rhs : List Symbol} {parts : List Part}
    (h : Found tokens cells i j rhs parts) {k : Nat} (hk : .leaf k ∈ parts) :
    ∃ w, tokens[k]? = some w := by
  induction h with
  | nil => exact absurd hk List.not_mem_nil
  | word hw _ ih =>
    rcases List.mem_cons.1 hk with hk | hk
    · obtain rfl := Part.leaf.inj hk
      exact ⟨_, hw⟩
    · exact ih hk
  | phrase _ _ _ ih =>
    rcases List.mem_cons.1 hk with hk | hk
    · cases hk
    · exact ih hk

/-- Where a part for a phrase kind lies, and that its cell builds the kind. -/
theorem bounds {i j : Nat} {rhs : List Symbol} {parts : List Part}
    (h : Found tokens cells i j rhs parts) {u : Span} {b : String} (hu : .node u b ∈ parts) :
    i ≤ u.start ∧ u.start < u.stop ∧ u.stop ≤ j ∧ b ∈ (cells u).symbols := by
  induction h with
  | nil => exact absurd hu List.not_mem_nil
  | word _ _ ih =>
    rcases List.mem_cons.1 hu with hu | hu
    · cases hu
    · have := ih hu
      exact ⟨by omega, this.2⟩
  | phrase hik hb hrest ih =>
    rcases List.mem_cons.1 hu with hu | hu
    · obtain ⟨rfl, rfl⟩ := Part.node.inj hu
      exact ⟨Nat.le_refl _, hik, hrest.le, hb⟩
    · have := ih hu
      exact ⟨by omega, this.2⟩

/-- A part is shorter than the whole stretch, unless it is the part of a unary
rule. -/
theorem length_lt_or_unary {i j : Nat} {rhs : List Symbol} {parts : List Part}
    (h : Found tokens cells i j rhs parts) {u : Span} {b : String} (hu : .node u b ∈ parts) :
    u.length < (⟨i, j⟩ : Span).length ∨ rhs = [.nonterminal b] ∧ u = ⟨i, j⟩ := by
  unfold Span.length
  dsimp only
  cases h with
  | nil => exact absurd hu List.not_mem_nil
  | word _ hrest =>
    rcases List.mem_cons.1 hu with hu | hu
    · cases hu
    · have := hrest.bounds hu
      omega
  | phrase hik _ hrest =>
    rcases List.mem_cons.1 hu with hu | hu
    · obtain ⟨rfl, rfl⟩ := Part.node.inj hu
      cases hrest with
      | nil => exact Or.inr ⟨rfl, rfl⟩
      | word _ hrest =>
        have := hrest.le
        exact Or.inl (by dsimp only; omega)
      | phrase _ _ hrest =>
        have := hrest.le
        exact Or.inl (by dsimp only; omega)
    · have := hrest.bounds hu
      omega

/-- What is found lies within the sentence, if the cells beyond it are empty. -/
theorem stop_le (hcells : ∀ s : Span, ¬s.Within tokens.length → cells s = []) {i j : Nat}
    {rhs : List Symbol} {parts : List Part} (h : Found tokens cells i j rhs parts)
    (hi : i ≤ tokens.length) : j ≤ tokens.length := by
  induction h with
  | nil => exact hi
  | word hw _ ih => exact ih (List.getElem?_eq_some_iff.1 hw).1
  | phrase _ hb _ ih =>
    refine ih (Classical.byContradiction fun hk => ?_)
    rw [hcells _ fun hwithin => hk hwithin.stop_le] at hb
    exact List.not_mem_nil hb

theorem within (hcells : ∀ s : Span, ¬s.Within tokens.length → cells s = []) {i j : Nat}
    {rhs : List Symbol} {parts : List Part} (h : Found tokens cells i j rhs parts)
    (hrhs : rhs ≠ []) : (⟨i, j⟩ : Span).Within tokens.length := by
  have hle := h.add_length_le
  have hpos := List.length_pos_of_ne_nil hrhs
  refine ⟨by dsimp only; omega, ?_⟩
  by_cases hi : i ≤ tokens.length
  · exact h.stop_le hcells hi
  · -- beyond the sentence there is neither a word nor a cell with anything in it
    cases h with
    | nil => exact absurd rfl hrhs
    | word hw _ => exact absurd (Nat.le_of_lt (List.getElem?_eq_some_iff.1 hw).1) hi
    | phrase hik hb _ =>
      rw [hcells _ fun hwithin => hi (by have := hwithin.stop_le; dsimp only at this; omega)] at hb
      exact absurd hb List.not_mem_nil

/-- A single word is found where it is the only one. -/
theorem word_iff {i j : Nat} {w : String} {parts : List Part} :
    Found tokens cells i j [.terminal w] parts ↔
      j = i + 1 ∧ tokens[i]? = some w ∧ parts = [.leaf i] := by
  constructor
  · intro h
    cases h with
    | word hw hrest =>
      cases hrest
      exact ⟨rfl, hw, rfl⟩
  · intro h
    obtain ⟨rfl, hw, rfl⟩ := h
    exact .word hw .nil

/-- A single phrase kind is found over the whole stretch. -/
theorem unary_iff {i j : Nat} {b : String} {parts : List Part} :
    Found tokens cells i j [.nonterminal b] parts ↔
      i < j ∧ b ∈ (cells ⟨i, j⟩).symbols ∧ parts = [.node ⟨i, j⟩ b] := by
  constructor
  · intro h
    cases h with
    | phrase hik hb hrest =>
      cases hrest
      exact ⟨hik, hb, rfl⟩
  · intro h
    obtain ⟨hij, hb, rfl⟩ := h
    exact .phrase hij hb .nil

end Found

-- ---------------------------------------------------------------------------
-- Rules that cut the span
-- ---------------------------------------------------------------------------

/-- A rule for a single word has one derivation, over the place of that word. -/
theorem mem_derivationsOver_of_isLexical {p : Production} (hlex : p.isLexical = true) {s : Span}
    {d : Derivation} :
    d ∈ p.derivationsOver tokens cells s ↔
      d.production = p ∧ Found tokens cells s.start s.stop p.rhs d.parts := by
  obtain ⟨w, hw⟩ := Production.isLexical_iff.1 hlex
  rw [Production.derivationsOver, if_pos hlex, hw, Found.word_iff]
  constructor
  · intro h
    split at h
    · next hlen =>
      obtain ⟨parts, hmatch, rfl⟩ := List.mem_map.1 h
      obtain ⟨hget, rfl⟩ := matchSymbols_word_eq_some.1 (Option.mem_toList.1 hmatch)
      unfold Span.length at hlen
      exact ⟨rfl, by omega, hget.2, rfl⟩
    · exact absurd h List.not_mem_nil
  · intro h
    obtain ⟨rfl, hstop, hget, hparts⟩ := h
    have hlen : s.length = 1 := by rw [Span.length, hstop, Nat.add_sub_cancel_left]
    rw [if_pos hlen]
    refine List.mem_map.2 ⟨[.leaf s.start], Option.mem_toList.2 ?_, by rw [← hparts]⟩
    exact matchSymbols_word_eq_some.2 ⟨⟨hlen, hget⟩, rfl⟩

/-- Every other rule is tried on all splits of the span, unless the span is too short
for one. -/
theorem mem_derivationsOver_of_not_isLexical {p : Production} (hlex : ¬p.isLexical = true)
    (hunary : p.unaryChild? = none) {s : Span} {d : Derivation} :
    d ∈ p.derivationsOver tokens cells s ↔
      d.production = p ∧ Found tokens cells s.start s.stop p.rhs d.parts := by
  rw [Production.derivationsOver, if_neg hlex, hunary, found_iff_exists_tiles]
  by_cases hshort : s.length < p.rhs.length
  · rw [if_pos (Or.inr hshort)]
    constructor
    · intro h
      exact absurd h List.not_mem_nil
    · intro h
      obtain ⟨-, spans, htiles, hmatch⟩ := h
      have hle := htiles.add_length_le
      rw [length_of_matchSymbols hmatch] at hle
      rw [Span.length] at hshort
      omega
  · have hskip : ¬((none : Option String).isSome = true ∨ s.length < p.rhs.length) := by
      simp only [Option.isSome_none, Bool.false_eq_true, false_or]
      exact hshort
    rw [if_neg hskip, List.mem_filterMap]
    constructor
    · intro h
      obtain ⟨spans, hspans, h⟩ := h
      obtain ⟨parts, hmatch, rfl⟩ := Option.map_eq_some_iff.1 h
      exact ⟨rfl, spans, (Span.mem_splits_iff.1 hspans).2, hmatch⟩
    · intro h
      obtain ⟨rfl, spans, htiles, hmatch⟩ := h
      refine ⟨spans, Span.mem_splits_iff.2 ⟨length_of_matchSymbols hmatch, htiles⟩, ?_⟩
      rw [hmatch]
      rfl

/-- A rule that is not unary has every right derivation over the span, and no
other one. -/
theorem mem_derivationsOver_iff {p : Production} {s : Span} {d : Derivation} :
    d ∈ p.derivationsOver tokens cells s ↔
      d.production = p ∧ p.unaryChild? = none ∧
        Found tokens cells s.start s.stop p.rhs d.parts := by
  by_cases hlex : p.isLexical = true
  · obtain ⟨w, hw⟩ := Production.isLexical_iff.1 hlex
    have hunary : p.unaryChild? = none := by rw [Production.unaryChild?, hw]
    rw [mem_derivationsOver_of_isLexical hlex, hunary, eq_self_iff_true, true_and]
  · cases hunary : p.unaryChild? with
    | none =>
      rw [mem_derivationsOver_of_not_isLexical hlex hunary, eq_self_iff_true, true_and]
    | some b =>
      rw [Production.derivationsOver, if_neg hlex, hunary, if_pos (Or.inl Option.isSome_some)]
      constructor
      · intro h
        exact absurd h List.not_mem_nil
      · intro h
        cases h.2.1

namespace Grammar

theorem mem_splitCell_iff {s : Span} {d : Derivation} :
    d ∈ g.splitCell tokens cells s ↔
      d.production ∈ g.productions ∧ d.production.unaryChild? = none ∧
        Found tokens cells s.start s.stop d.production.rhs d.parts := by
  rw [splitCell, List.mem_flatMap]
  constructor
  · intro h
    obtain ⟨p, hp, h⟩ := h
    obtain ⟨rfl, hunary, hfound⟩ := mem_derivationsOver_iff.1 h
    exact ⟨hp, hunary, hfound⟩
  · intro h
    obtain ⟨hp, h⟩ := h
    exact ⟨_, hp, mem_derivationsOver_iff.2 ⟨rfl, h⟩⟩

-- ---------------------------------------------------------------------------
-- The whole cell
-- ---------------------------------------------------------------------------

theorem mem_unaryDerivations_iff {s : Span} {b : String} {d : Derivation} :
    d ∈ g.unaryDerivations s b ↔ d.production ∈ g.unaryParents b ∧ d.parts = [.node s b] := by
  rw [unaryDerivations, List.mem_map]
  constructor
  · intro h
    obtain ⟨p, hp, rfl⟩ := h
    exact ⟨hp, rfl⟩
  · intro h
    obtain ⟨hp, hparts⟩ := h
    exact ⟨d.production, hp, by rw [← hparts]⟩

theorem unaryChild?_of_mem_unaryDerivations {s : Span} {b : String} {d : Derivation}
    (h : d ∈ g.unaryDerivations s b) : d.production.unaryChild? = some b :=
  Production.unaryChild?_eq_some.2 (mem_unaryParents.1 (mem_unaryDerivations_iff.1 h).1).2

theorem mem_cellOver_iff {s : Span} {d : Derivation} :
    d ∈ g.cellOver tokens cells s ↔
      d ∈ g.splitCell tokens cells s ∨
        ∃ b, g.Raised (g.splitCell tokens cells s).symbols b ∧ d.production ∈ g.unaryParents b ∧
          d.parts = [.node s b] := by
  simp only [cellOver, List.mem_append, List.mem_flatMap, mem_unaryClosure_iff,
    mem_unaryDerivations_iff]

/-- The phrase kinds of a cell are those raised from the kinds of its splits. -/
theorem mem_symbols_cellOver_iff {s : Span} {a : String} :
    a ∈ (g.cellOver tokens cells s).symbols ↔ g.Raised (g.splitCell tokens cells s).symbols a := by
  rw [Cell.mem_symbols]
  constructor
  · intro h
    obtain ⟨d, hd, rfl⟩ := h
    rcases mem_cellOver_iff.1 hd with hd | ⟨b, hb, hp, -⟩
    · exact .found (Cell.mem_symbols.2 ⟨d, hd, rfl⟩)
    · exact .unary hb hp
  · intro h
    cases h with
    | found h =>
      obtain ⟨d, hd, rfl⟩ := Cell.mem_symbols.1 h
      exact ⟨d, mem_cellOver_iff.2 (Or.inl hd), rfl⟩
    | @unary b p hb hp =>
      exact ⟨⟨p, [.node s b]⟩, mem_cellOver_iff.2 (Or.inr ⟨b, hb, hp, rfl⟩), rfl⟩

end Grammar

-- ---------------------------------------------------------------------------
-- The finished chart
-- ---------------------------------------------------------------------------

namespace Chart

/-- What the cell of a span holds is right. -/
theorem found_of_mem_cell {c : Chart} {s : Span} {d : Derivation} (h : d ∈ c.cell s) :
    d.production ∈ c.grammar.productions ∧
      Found c.tokens c.cell s.start s.stop d.production.rhs d.parts := by
  by_cases hs : s.Within c.tokens.length
  · have hcell := cell_eq_cellOver hs
    rw [hcell] at h
    rcases Grammar.mem_cellOver_iff.1 h with h | ⟨b, hb, hp, hparts⟩
    · obtain ⟨hp, -, hfound⟩ := Grammar.mem_splitCell_iff.1 h
      exact ⟨hp, hfound⟩
    · obtain ⟨hp, hrhs⟩ := Grammar.mem_unaryParents.1 hp
      have hsym : b ∈ (c.cell s).symbols := by
        rw [hcell]
        exact Grammar.mem_symbols_cellOver_iff.2 hb
      rw [hrhs]
      exact ⟨hp, Found.unary_iff.2 ⟨hs.start_lt, hsym, hparts⟩⟩
  · rw [cell_eq_nil hs] at h
    exact absurd h List.not_mem_nil

/-- What is right over a span is in its cell. -/
theorem mem_cell_of_found {c : Chart} {s : Span} {d : Derivation}
    (hp : d.production ∈ c.grammar.productions)
    (hfound : Found c.tokens c.cell s.start s.stop d.production.rhs d.parts) :
    d ∈ c.cell s := by
  have hs : s.Within c.tokens.length :=
    hfound.within (fun _ => cell_eq_nil) (c.grammar.rhs_ne_nil _ hp)
  have hcell := cell_eq_cellOver hs
  cases hunary : d.production.unaryChild? with
  | none =>
    have hsplit := Grammar.mem_splitCell_iff.2 ⟨hp, hunary, hfound⟩
    rw [hcell]
    exact Grammar.mem_cellOver_iff.2 (Or.inl hsplit)
  | some b =>
    have hrhs := Production.unaryChild?_eq_some.1 hunary
    rw [hrhs] at hfound
    obtain ⟨-, hb, hparts⟩ := Found.unary_iff.1 hfound
    have hraised : c.grammar.Raised (c.grammar.splitCell c.tokens c.cell s).symbols b := by
      rw [← Grammar.mem_symbols_cellOver_iff, ← hcell]
      exact hb
    have hparent := Grammar.mem_unaryParents.2 ⟨hp, hrhs⟩
    rw [hcell]
    exact Grammar.mem_cellOver_iff.2 (Or.inr ⟨b, hraised, hparent, hparts⟩)

/-- The cell of a span holds a derivation if and only if its rule is one of the
grammar and its parts are found side by side over the span. -/
theorem mem_cell_iff {c : Chart} {s : Span} {d : Derivation} :
    d ∈ c.cell s ↔
      d.production ∈ c.grammar.productions ∧
        Found c.tokens c.cell s.start s.stop d.production.rhs d.parts := by
  constructor
  · intro h
    exact found_of_mem_cell h
  · intro h
    exact mem_cell_of_found h.1 h.2

theorem mem_symbols_cell_iff {c : Chart} {s : Span} {a : String} :
    a ∈ (c.cell s).symbols ↔
      ∃ rhs parts, ⟨a, rhs⟩ ∈ c.grammar.productions ∧
        Found c.tokens c.cell s.start s.stop rhs parts := by
  rw [Cell.mem_symbols]
  constructor
  · intro h
    obtain ⟨⟨p, parts⟩, hd, rfl⟩ := h
    obtain ⟨hp, hfound⟩ := mem_cell_iff.1 hd
    exact ⟨p.rhs, parts, hp, hfound⟩
  · intro h
    obtain ⟨rhs, parts, hp, hfound⟩ := h
    exact ⟨⟨⟨a, rhs⟩, parts⟩, mem_cell_iff.2 ⟨hp, hfound⟩, rfl⟩

end Chart

end Constituency
