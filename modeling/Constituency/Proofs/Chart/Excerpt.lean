import Constituency.Chart.Expand
import Constituency.Proofs.Chart.Derivation
import Constituency.Proofs.Parse
import Mathlib.Data.List.Basic

/-!
# Charts of excerpts

A part of a sentence can be parsed for itself. Its chart is then found again within the
chart of the sentence, at the spans that lie inside the part: the derivations are the same
and come in the same order, and only the positions are counted from another word.

That nothing from outside gets in is a matter of where a cell looks. Its words lie inside
the span, and so do the parts of its splits, which are shorter. So a cell is moved along
if the shorter cells inside it are (`cellOver_shift`), and by induction on the length all
of them are. The trees do not mention positions. They are the same, whatever words stand
before and behind.

## Main declarations

* `Span.shift`, `Derivation.shift` — the same further on.
* `Chart.IsExcerpt`                — the words of one chart stand within another.
* `Chart.IsExcerpt.cell`, `Chart.IsExcerpt.expand` — the cells are moved, the trees stay.
* `derivations_extract`            — a cell depends on the words that it spans.
-/

namespace Constituency

-- ---------------------------------------------------------------------------
-- Positions further on
-- ---------------------------------------------------------------------------

/-- The span `i` words further on. -/
def Span.shift (i : Nat) (s : Span) : Span :=
  ⟨i + s.start, i + s.stop⟩

/-- The part `i` words further on. -/
def Part.shift (i : Nat) : Part → Part
  | .leaf k => .leaf (i + k)
  | .node s a => .node (s.shift i) a

/-- The derivation with its parts `i` words further on. -/
def Derivation.shift (i : Nat) (d : Derivation) : Derivation :=
  { d with parts := d.parts.map (Part.shift i) }

namespace Span

variable {i : Nat} {s : Span}

@[simp] theorem length_shift (i : Nat) (s : Span) : (s.shift i).length = s.length := by
  show i + s.stop - (i + s.start) = s.stop - s.start
  omega

theorem shift_injective (i : Nat) : Function.Injective (shift i) := by
  intro s t h
  obtain ⟨hstart, hstop⟩ := Span.mk.inj h
  have hstart : s.start = t.start := Nat.add_left_cancel hstart
  have hstop : s.stop = t.stop := Nat.add_left_cancel hstop
  cases s
  cases t
  simp_all

theorem splitsFrom_shift (i start stop parts : Nat) :
    splitsFrom (i + start) (i + stop) parts =
      (splitsFrom start stop parts).map (List.map (shift i)) := by
  induction parts generalizing start with
  | zero =>
    unfold splitsFrom
    by_cases h : start = stop <;> simp [h]
  | succ parts ih =>
    have hcuts : List.range' (i + start + 1) (i + stop - (i + start) - parts) =
        (List.range' (start + 1) (stop - start - parts)).map (i + ·) := by
      rw [List.map_add_range', Nat.add_sub_add_left, Nat.add_assoc]
    rw [splitsFrom, splitsFrom, hcuts, List.flatMap_map, List.map_flatMap]
    refine List.flatMap_congr fun cut _ => ?_
    rw [ih, List.map_map, List.map_map]
    rfl

/-- A span is cut in the same ways wherever it stands. -/
theorem splits_shift (i : Nat) (s : Span) (parts : Nat) :
    (s.shift i).splits parts = (s.splits parts).map (List.map (shift i)) :=
  splitsFrom_shift i s.start s.stop parts

end Span

namespace Cell

/-- The cell of a span `i` words further on. -/
def shift (i : Nat) (c : Cell) : Cell :=
  c.map (Derivation.shift i)

@[simp] theorem symbols_shift (i : Nat) (c : Cell) : (c.shift i).symbols = c.symbols := by
  rw [symbols, shift, List.map_map]
  rfl

@[simp] theorem has_shift (i : Nat) (c : Cell) (a : String) : (c.shift i).has a = c.has a := by
  rw [Bool.eq_iff_iff, has_iff, has_iff, symbols_shift]

theorem derivationsOf_shift (i : Nat) (c : Cell) (a : String) :
    (c.shift i).derivationsOf a = (c.derivationsOf a).map (Derivation.shift i) := by
  rw [derivationsOf, shift, List.filter_map]
  rfl

end Cell

-- ---------------------------------------------------------------------------
-- Matching symbols
-- ---------------------------------------------------------------------------

variable {i : Nat} {tokens tokens' : List String} {cells cells' : Span → Cell}

theorem matchSymbol_shift (htokens : ∀ k < tokens'.length, tokens[i + k]? = tokens'[k]?)
    {u : Span} (hu : u.stop ≤ tokens'.length) (hcell : cells (u.shift i) = (cells' u).shift i)
    (s : Symbol) :
    matchSymbol tokens cells s (u.shift i) =
      (matchSymbol tokens' cells' s u).map (Part.shift i) := by
  cases s with
  | terminal w =>
    have hword : u.length = 1 → tokens[(u.shift i).start]? = tokens'[u.start]? := fun hlen => by
      unfold Span.length at hlen
      exact htokens _ (by omega)
    rw [matchSymbol, matchSymbol, Span.length_shift]
    by_cases hlen : u.length = 1
    · rw [hword hlen]
      split <;> rfl
    · rw [if_neg fun h => hlen h.1, if_neg fun h => hlen h.1]
      rfl
  | nonterminal a =>
    rw [matchSymbol, matchSymbol, hcell, Cell.has_shift]
    split <;> rfl

theorem matchSymbols_shift (htokens : ∀ k < tokens'.length, tokens[i + k]? = tokens'[k]?)
    {spans : List Span} (hspans : ∀ u ∈ spans, u.stop ≤ tokens'.length)
    (hcells : ∀ u ∈ spans, cells (u.shift i) = (cells' u).shift i) (rhs : List Symbol) :
    matchSymbols tokens cells rhs (spans.map (Span.shift i)) =
      (matchSymbols tokens' cells' rhs spans).map (List.map (Part.shift i)) := by
  induction rhs generalizing spans with
  | nil => cases spans <;> rfl
  | cons s rest ih =>
    cases spans with
    | nil => rfl
    | cons u us =>
      obtain ⟨hu, hus⟩ := List.forall_mem_cons.1 hspans
      obtain ⟨hcell, hcells⟩ := List.forall_mem_cons.1 hcells
      rw [List.map_cons, matchSymbols, matchSymbols, matchSymbol_shift htokens hu hcell,
        ih hus hcells]
      cases matchSymbol tokens' cells' s u with
      | none => rfl
      | some part => cases matchSymbols tokens' cells' rest us <;> rfl

-- ---------------------------------------------------------------------------
-- One cell
-- ---------------------------------------------------------------------------

section Cell

variable {s : Span}

/-- A rule has the same derivations further on if the shorter cells inside the span have. -/
theorem Production.derivationsOver_shift
    (htokens : ∀ k < tokens'.length, tokens[i + k]? = tokens'[k]?) (hs : s.stop ≤ tokens'.length)
    (hcells : ∀ u : Span, u.length < s.length → u.stop ≤ tokens'.length →
      cells (u.shift i) = (cells' u).shift i) (p : Production) :
    p.derivationsOver tokens cells (s.shift i) =
      (p.derivationsOver tokens' cells' s).map (Derivation.shift i) := by
  rw [derivationsOver, derivationsOver, Span.length_shift]
  by_cases hlex : p.isLexical = true
  · rw [if_pos hlex, if_pos hlex]
    -- the cell of the span itself is not consulted, so any cells will do
    have hmatch : matchSymbols tokens (fun _ => []) p.rhs [s.shift i] =
        (matchSymbols tokens' (fun _ => []) p.rhs [s]).map (List.map (Part.shift i)) :=
      matchSymbols_shift htokens (List.forall_mem_singleton.2 hs) (fun _ _ => rfl) p.rhs
    rw [matchSymbols_of_isLexical hlex tokens cells fun _ => [],
      matchSymbols_of_isLexical hlex tokens' cells' fun _ => [], hmatch]
    split
    · cases matchSymbols tokens' (fun _ => []) p.rhs [s] <;> rfl
    · rfl
  · rw [if_neg hlex, if_neg hlex]
    by_cases hskip : p.unaryChild?.isSome = true ∨ s.length < p.rhs.length
    · rw [if_pos hskip, if_pos hskip]
      rfl
    · rw [if_neg hskip, if_neg hskip]
      have hlen : p.rhs.length ≠ 1 := length_rhs_ne_one hlex fun h => hskip (Or.inl h)
      rw [Span.splits_shift, List.filterMap_map, List.map_filterMap]
      refine List.filterMap_congr fun spans hspans => ?_
      have hinside : ∀ u ∈ spans, u.stop ≤ tokens'.length := fun u hu =>
        Nat.le_trans ((Span.mem_splits_iff.1 hspans).2.bounds hu).2.2 hs
      have hmatch := matchSymbols_shift htokens hinside
        (fun u hu => hcells u (Span.length_lt_of_mem_splits hspans hlen hu) (hinside u hu)) p.rhs
      rw [Function.comp_apply, hmatch]
      cases matchSymbols tokens' cells' p.rhs spans <;> rfl

namespace Grammar

theorem unaryDerivations_shift (g : Grammar) (i : Nat) (s : Span) (b : String) :
    g.unaryDerivations (s.shift i) b = (g.unaryDerivations s b).map (Derivation.shift i) := by
  rw [unaryDerivations, unaryDerivations, List.map_map]
  rfl

/-- The cell of a span is the same further on if the shorter cells inside it are. -/
theorem cellOver_shift (htokens : ∀ k < tokens'.length, tokens[i + k]? = tokens'[k]?)
    (hs : s.stop ≤ tokens'.length)
    (hcells : ∀ u : Span, u.length < s.length → u.stop ≤ tokens'.length →
      cells (u.shift i) = (cells' u).shift i) (g : Grammar) :
    g.cellOver tokens cells (s.shift i) = (g.cellOver tokens' cells' s).shift i := by
  have hsplit : g.splitCell tokens cells (s.shift i) = (g.splitCell tokens' cells' s).shift i := by
    rw [splitCell, splitCell, Cell.shift, List.map_flatMap]
    exact congrArg (List.flatMap · g.productions)
      (funext fun p => p.derivationsOver_shift htokens hs hcells)
  have hunary (kinds : List String) : kinds.flatMap (g.unaryDerivations (s.shift i)) =
      (kinds.flatMap (g.unaryDerivations s)).map (Derivation.shift i) := by
    rw [List.map_flatMap]
    exact congrArg (List.flatMap · kinds) (funext (g.unaryDerivations_shift i s))
  rw [cellOver, cellOver, hsplit, Cell.symbols_shift, hunary, Cell.shift, Cell.shift,
    List.map_append]

end Grammar

end Cell

-- ---------------------------------------------------------------------------
-- The chart of an excerpt
-- ---------------------------------------------------------------------------

namespace Chart

/-- The words of the second chart stand within those of the first, from position `i` on. -/
structure IsExcerpt (i : Nat) (c c' : Chart) : Prop where
  grammar : c'.grammar = c.grammar
  tokens : ∀ k < c'.tokens.length, c.tokens[i + k]? = c'.tokens[k]?

namespace IsExcerpt

variable {c c' : Chart} {s : Span} {a : String} {d : Derivation}

theorem add_length_le (h : IsExcerpt i c c') : i + c'.tokens.length ≤ c.tokens.length := by
  have hpos := List.length_pos_of_ne_nil c'.tokens_ne_nil
  obtain ⟨w, hw⟩ : ∃ w, c'.tokens[c'.tokens.length - 1]? = some w :=
    ⟨_, List.getElem?_eq_getElem (by omega)⟩
  have hlast := h.tokens (c'.tokens.length - 1) (by omega)
  rw [hw] at hlast
  obtain ⟨hlt, -⟩ := List.getElem?_eq_some_iff.1 hlast
  omega

/-- The cells inside the excerpt hold its derivations, in the same order. -/
theorem cell (h : IsExcerpt i c c') {s : Span} (hs : s.stop ≤ c'.tokens.length) :
    c.cell (s.shift i) = (c'.cell s).shift i := by
  have hle := h.add_length_le
  by_cases hlt : s.start < s.stop
  · have hwithin : (s.shift i).Within c.tokens.length :=
      ⟨Nat.add_lt_add_left hlt i, Nat.le_trans (Nat.add_le_add_left hs i) hle⟩
    have hshorter : ∀ u : Span, u.length < s.length → u.stop ≤ c'.tokens.length →
        c.cell (u.shift i) = (c'.cell u).shift i := fun u _ hu => cell h hu
    rw [cell_eq_cellOver hwithin, Grammar.cellOver_shift h.tokens hs hshorter, ← h.grammar,
      ← cell_eq_cellOver ⟨hlt, hs⟩]
  · rw [cell_eq_nil fun hwithin => hlt (Nat.lt_of_add_lt_add_left hwithin.start_lt),
      cell_eq_nil fun hwithin => hlt hwithin.start_lt]
    rfl
termination_by s.length

theorem derivations (h : IsExcerpt i c c') (hs : s.stop ≤ c'.tokens.length) (a : String) :
    c.derivations (s.shift i) a = (c'.derivations s a).map (Derivation.shift i) := by
  rw [Chart.derivations, h.cell hs, Cell.derivationsOf_shift, Chart.derivations]

theorem expand_of_expandDerivation (h : IsExcerpt i c c') (hs : s.stop ≤ c'.tokens.length)
    (chain : List String)
    (hexpand : ∀ d ∈ c'.derivations s a,
      c.expandDerivation (s.shift i) (a :: chain) (d.shift i) =
        c'.expandDerivation s (a :: chain) d) :
    c.expand (s.shift i) a chain = c'.expand s a chain := by
  rw [Chart.expand, h.derivations hs, List.flatMap_map, Chart.expand]
  exact List.flatMap_congr hexpand

/-- A derivation stands for the same trees. The induction is along the expansion: to shorter
spans, or on the same span to a longer chain. -/
theorem expandDerivation (h : IsExcerpt i c c') (chain : List String) (hd : d ∈ c'.cell s) :
    c.expandDerivation (s.shift i) chain (d.shift i) = c'.expandDerivation s chain d := by
  induction s, chain, d using Chart.expandDerivation.induct c' with
  | case1 s chain d ihshort ihsame =>
    obtain ⟨hp, hfound⟩ := mem_cell_iff.1 hd
    have hwithin : s.Within c'.tokens.length :=
      hfound.within (fun _ => cell_eq_nil) (c'.grammar.rhs_ne_nil _ hp)
    have hparts : ∀ part ∈ d.parts,
        c.expandPart (s.shift i) chain (part.shift i) = c'.expandPart s chain part := by
      intro part hpart
      cases part with
      | leaf k =>
        obtain ⟨w, hw⟩ := hfound.exists_getElem? hpart
        obtain ⟨hk, -⟩ := List.getElem?_eq_some_iff.1 hw
        rw [Part.shift, expandPart, expandPart, h.tokens k hk]
      | node u b =>
        have hu : u.stop ≤ c'.tokens.length :=
          Nat.le_trans (hfound.bounds hpart).2.2.1 hwithin.stop_le
        simp only [Part.shift, expandPart, Span.length_shift, (Span.shift_injective i).eq_iff]
        split
        · next hlt =>
          exact h.expand_of_expandDerivation hu [] fun e he =>
            ihshort u b hlt e (mem_derivations.1 he).1
        · split
          · next hsame =>
            obtain rfl := hsame.1
            exact h.expand_of_expandDerivation hu chain fun e he =>
              ihsame u b hsame e he (mem_derivations.1 he).1
          · rfl
    have hoptions : (d.shift i).parts.map (c.expandPart (s.shift i) chain) =
        d.parts.map (c'.expandPart s chain) := by
      rw [Derivation.shift, List.map_map]
      exact List.map_congr_left hparts
    rw [expandDerivation_eq, expandDerivation_eq, hoptions]
    rfl

/-- The trees of a phrase kind over a span of the excerpt are the same in both charts. -/
theorem expand (h : IsExcerpt i c c') (hs : s.stop ≤ c'.tokens.length) (a : String)
    (chain : List String) : c.expand (s.shift i) a chain = c'.expand s a chain :=
  h.expand_of_expandDerivation hs chain fun _ hd =>
    h.expandDerivation _ (mem_derivations.1 hd).1

end IsExcerpt

theorem eq_of_ofTokens {g : Grammar} {c : Chart} (h : ofTokens g tokens = .ok c) :
    c.grammar = g ∧ c.tokens = tokens := by
  unfold ofTokens at h
  split at h
  · cases h
  · obtain rfl := Except.ok.inj h
    exact ⟨rfl, rfl⟩

variable {g : Grammar} {c c' : Chart} {j : Nat}

/-- The words of a span make a chart that is an excerpt. -/
theorem isExcerpt_extract (hc : ofTokens g tokens = .ok c)
    (hc' : ofTokens g (tokens.extract i j) = .ok c') (hj : j ≤ tokens.length) :
    c'.tokens.length = j - i ∧ IsExcerpt i c c' := by
  obtain ⟨rfl, rfl⟩ := eq_of_ofTokens hc
  obtain ⟨hg, htokens⟩ := eq_of_ofTokens hc'
  have hlen : c'.tokens.length = j - i := by
    rw [htokens]
    exact Span.length_words (s := ⟨i, j⟩) hj
  refine ⟨hlen, hg, fun k hk => ?_⟩
  rw [hlen] at hk
  rw [htokens, List.extract_eq_take_drop, List.getElem?_take_of_lt hk, List.getElem?_drop]

/-- The trees over a span are those of its words. -/
theorem expand_extract (hc : ofTokens g tokens = .ok c)
    (hc' : ofTokens g (tokens.extract i j) = .ok c') (hij : i < j) (hj : j ≤ tokens.length)
    (a : String) (chain : List String) :
    c.expand ⟨i, j⟩ a chain = c'.expand c'.whole a chain := by
  obtain ⟨hlen, hexcerpt⟩ := isExcerpt_extract hc hc' hj
  have hwhole : c'.whole.shift i = ⟨i, j⟩ := by
    rw [whole, hlen, Span.shift, Nat.add_sub_cancel' (Nat.le_of_lt hij)]
    rfl
  rw [← hwhole]
  exact hexcerpt.expand (Nat.le_refl _) a chain

end Chart

namespace Grammar

/-- A cell depends only on the words that it spans: inside a part of a sentence, the cells
of its chart are those of the chart of the part alone, moved to the place of the part. The
trees over the part are those that it has alone, and so they are the same in every sentence
in which these words stand. -/
theorem derivations_extract (g : Grammar) {tokens : List String} {i j : Nat} (hij : i < j)
    (hj : j ≤ tokens.length) :
    ∃ c c', Chart.ofTokens g tokens = .ok c ∧ Chart.ofTokens g (tokens.extract i j) = .ok c' ∧
      (∀ start stop, start < stop → stop ≤ j - i → ∀ a,
        c.derivations ⟨i + start, i + stop⟩ a =
          (c'.derivations ⟨start, stop⟩ a).map (Derivation.shift i)) ∧
      (∀ a, c.expand ⟨i, j⟩ a [] = c'.expand c'.whole a []) ∧
      ∀ others c₂ i₂ j₂, Chart.ofTokens g others = .ok c₂ → i₂ < j₂ → j₂ ≤ others.length →
        others.extract i₂ j₂ = tokens.extract i j →
          ∀ a, c₂.expand ⟨i₂, j₂⟩ a [] = c.expand ⟨i, j⟩ a [] := by
  have hlen : (tokens.extract i j).length = j - i := Span.length_words (s := ⟨i, j⟩) hj
  have hne : tokens ≠ [] := List.ne_nil_of_length_pos (by omega)
  have hne' : tokens.extract i j ≠ [] := List.ne_nil_of_length_pos (by omega)
  obtain ⟨c, hc, -⟩ := Chart.exists_ofTokens g hne
  obtain ⟨c', hc', -⟩ := Chart.exists_ofTokens g hne'
  obtain ⟨hlen', hexcerpt⟩ := Chart.isExcerpt_extract hc hc' hj
  refine ⟨c, c', hc, hc', ?_, fun a => Chart.expand_extract hc hc' hij hj a [], ?_⟩
  · intro start stop _ hstop a
    rw [← hlen'] at hstop
    exact hexcerpt.derivations (s := ⟨start, stop⟩) hstop a
  · intro others c₂ i₂ j₂ hc₂ hij₂ hj₂ hwords a
    have hc₂' : Chart.ofTokens g (others.extract i₂ j₂) = .ok c' := hwords ▸ hc'
    rw [Chart.expand_extract hc₂ hc₂' hij₂ hj₂, Chart.expand_extract hc hc' hij hj]

theorem derivations_extract_circular :
    2 < 5 ∧ ∃ c, Chart.ofTokens circular ["x", "and", "x", "and", "x"] = .ok c ∧
      c.derivations ⟨2, 5⟩ "A" =
        [⟨⟨"A", [.nonterminal "A", .terminal "and", .nonterminal "S"]⟩,
            [.node ⟨2, 3⟩ "A", .leaf 3, .node ⟨4, 5⟩ "S"]⟩,
          ⟨⟨"A", [.nonterminal "A"]⟩, [.node ⟨2, 5⟩ "A"]⟩,
          ⟨⟨"A", [.nonterminal "S"]⟩, [.node ⟨2, 5⟩ "S"]⟩] ∧
      c.expand ⟨0, 3⟩ "A" [] = c.expand ⟨2, 5⟩ "A" [] := by
  obtain ⟨c, c', hc, hc', hcells, -, hothers⟩ :=
    @derivations_extract circular ["x", "and", "x", "and", "x"] 2 5 (by decide) (by decide)
  refine ⟨by decide, c, hc, ?_, hothers _ c 0 3 hc (by decide) (by decide) rfl "A"⟩
  have halone : c'.derivations ⟨0, 3⟩ "A" =
      [⟨⟨"A", [.nonterminal "A", .terminal "and", .nonterminal "S"]⟩,
          [.node ⟨0, 1⟩ "A", .leaf 1, .node ⟨2, 3⟩ "S"]⟩,
        ⟨⟨"A", [.nonterminal "A"]⟩, [.node ⟨0, 3⟩ "A"]⟩,
        ⟨⟨"A", [.nonterminal "S"]⟩, [.node ⟨0, 3⟩ "S"]⟩] := by
    obtain rfl := Except.ok.inj hc'
    cbv
  rw [hcells 0 3 (by decide) (by decide) "A", halone]
  rfl

end Grammar

end Constituency
