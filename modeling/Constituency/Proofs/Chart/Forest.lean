import Constituency.Proofs.Chart.Derivation
import Constituency.Proofs.Grammar.RuleTable

/-!
# The packed forest

The cells of a chart refer to one another: a derivation names the cells in which its
parts are built, and all the trees below a part are shared by the derivations that
name it. Two things make this a faithful account of the sentence. A reference never
dangles, and no way of building a phrase is missing or listed twice.

That nothing is listed twice has a reason at each step of the filling. The rules of a
grammar are distinct, and so are the splits of a span; the parts of a derivation show
the spans they were matched on, so different splits give different parts. The unary
rules come last, over one phrase kind after the other, and the closure visits no kind
twice. No derivation is of both sorts, since the one sort is by unary rules only and
the other by none.

## Main declarations

* `Chart.Places`, `Chart.Placed` — where a symbol, and a right-hand side, is found.
* `Chart.derivations_nodup`      — no derivation is listed twice.
* `Chart.mem_derivations_iff_exists_placed` — the derivations of a phrase kind are the
  rules for it, placed over contiguous spans.
-/

namespace Constituency

variable {g : Grammar} {tokens : List String} {cells : Span → Cell}

-- ---------------------------------------------------------------------------
-- Parts show their spans
-- ---------------------------------------------------------------------------

/-- The span that the part covers. -/
def Part.span : Part → Span
  | .leaf i => ⟨i, i + 1⟩
  | .node u _ => u

theorem span_of_matchSymbol {s : Symbol} {u : Span} {part : Part}
    (h : matchSymbol tokens cells s u = some part) : part.span = u := by
  cases s with
  | terminal w =>
    obtain ⟨⟨hlen, -⟩, rfl⟩ := matchSymbol_terminal_eq_some.1 h
    have hstop : u.start + 1 = u.stop := by
      unfold Span.length at hlen
      omega
    show (⟨u.start, u.start + 1⟩ : Span) = u
    rw [hstop]
  | nonterminal b =>
    obtain ⟨-, rfl⟩ := matchSymbol_nonterminal_eq_some.1 h
    rfl

theorem map_span_of_matchSymbols {rhs : List Symbol} {spans : List Span} {parts : List Part}
    (h : matchSymbols tokens cells rhs spans = some parts) : parts.map Part.span = spans := by
  induction rhs generalizing spans parts with
  | nil =>
    cases spans with
    | nil =>
      obtain rfl := Option.some.inj h
      rfl
    | cons u us => cases h
  | cons s rest ih =>
    cases spans with
    | nil => cases h
    | cons u us =>
      obtain ⟨part, ps, hpart, hps, rfl⟩ := matchSymbols_cons_eq_some.1 h
      rw [List.map_cons, span_of_matchSymbol hpart, ih hps]

-- ---------------------------------------------------------------------------
-- No derivation is found twice
-- ---------------------------------------------------------------------------

theorem Production.derivationsOver_nodup (p : Production) (s : Span) :
    (p.derivationsOver tokens cells s).Nodup := by
  unfold derivationsOver
  split
  · split
    · cases matchSymbols tokens cells p.rhs [s] with
      | none => exact List.nodup_nil
      | some parts => exact List.nodup_singleton _
    · exact List.nodup_nil
  · split
    · exact List.nodup_nil
    · refine List.Nodup.filterMap (fun us vs d hus hvs => ?_) (s.splits_nodup p.rhs.length)
      obtain ⟨parts, hmatch, rfl⟩ := Option.map_eq_some_iff.1 hus
      obtain ⟨parts', hmatch', heq⟩ := Option.map_eq_some_iff.1 hvs
      obtain rfl : parts' = parts := (Derivation.mk.inj heq).2
      rw [← map_span_of_matchSymbols hmatch, map_span_of_matchSymbols hmatch']

namespace Grammar

theorem splitCell_nodup (s : Span) : (g.splitCell tokens cells s).Nodup := by
  rw [splitCell, List.nodup_flatMap]
  refine ⟨fun p _ => p.derivationsOver_nodup s, ?_⟩
  have hrules : g.productions.Pairwise (· ≠ ·) := g.productions_nodup
  refine hrules.imp fun {p q} hne d hd hd' => hne ?_
  rw [← (mem_derivationsOver_iff.1 hd).1, (mem_derivationsOver_iff.1 hd').1]

theorem unaryDerivations_nodup (s : Span) (b : String) : (g.unaryDerivations s b).Nodup := by
  have hparents : (g.unaryParents b).Nodup := g.productions_nodup.filter _
  exact hparents.map fun _ _ h => (Derivation.mk.inj h).1

theorem flatMap_unaryDerivations_nodup (s : Span) {kinds : List String} (h : kinds.Nodup) :
    (kinds.flatMap (g.unaryDerivations s)).Nodup := by
  rw [List.nodup_flatMap]
  refine ⟨fun b _ => unaryDerivations_nodup s b, ?_⟩
  have hkinds : kinds.Pairwise (· ≠ ·) := h
  refine hkinds.imp fun {b b'} hne d hd hd' => hne ?_
  -- the only part names the kind
  have hparts : [Part.node s b] = [Part.node s b'] := by
    rw [← (mem_unaryDerivations_iff.1 hd).2, (mem_unaryDerivations_iff.1 hd').2]
  exact (Part.node.inj (List.singleton_inj.1 hparts)).2

/-- A cell lists no derivation twice. -/
theorem cellOver_nodup (s : Span) : (g.cellOver tokens cells s).Nodup := by
  have hkinds := g.unaryClosure_nodup (nodup_eraseDups ((g.splitCell tokens cells s).map (·.symbol)))
  refine List.nodup_append.2 ⟨splitCell_nodup s, flatMap_unaryDerivations_nodup s hkinds, ?_⟩
  rintro d hd _ hd' rfl
  have hnone := (mem_splitCell_iff.1 hd).2.1
  obtain ⟨b, -, hb⟩ := List.mem_flatMap.1 hd'
  rw [unaryChild?_of_mem_unaryDerivations hb] at hnone
  cases hnone

end Grammar

namespace Chart

variable {c : Chart}

theorem cell_nodup (c : Chart) (s : Span) : (c.cell s).Nodup := by
  by_cases hs : s.Within c.tokens.length
  · rw [cell_eq_cellOver hs]
    exact Grammar.cellOver_nodup s
  · rw [cell_eq_nil hs]
    exact List.nodup_nil

/-- No derivation of a phrase kind over a span is listed twice. -/
theorem derivations_nodup (c : Chart) (s : Span) (a : String) : (c.derivations s a).Nodup :=
  (c.cell_nodup s).filter _

-- ---------------------------------------------------------------------------
-- Which derivations there are
-- ---------------------------------------------------------------------------

/-- The symbol is found over the span, at the part: a word is the only word of the
span, a phrase kind has a derivation over it. -/
def Places (c : Chart) (u : Span) : Symbol → Part → Prop
  | .terminal w, part =>
    part = .leaf u.start ∧ u.stop = u.start + 1 ∧ c.tokens[u.start]? = some w
  | .nonterminal b, part => part = .node u b ∧ c.derivations u b ≠ []

/-- The symbols of a right-hand side are found at the parts, one by one, over spans
that lie side by side from `start` up to `stop`. -/
structure Placed (c : Chart) (start stop : Nat) (rhs : List Symbol) (parts : List Part)
    (spans : List Span) : Prop where
  tiles        : Tiles start stop spans
  length_spans : spans.length = rhs.length
  length_parts : parts.length = rhs.length
  places       : ∀ (k : Nat) (u : Span) (s : Symbol) (part : Part),
    spans[k]? = some u → rhs[k]? = some s → parts[k]? = some part → c.Places u s part

theorem matchSymbol_eq_some_iff {s : Symbol} {u : Span} {part : Part} :
    matchSymbol c.tokens c.cell s u = some part ↔ c.Places u s part := by
  cases s with
  | terminal w =>
    have hlen : u.length = 1 ↔ u.stop = u.start + 1 := by
      unfold Span.length
      omega
    rw [matchSymbol_terminal_eq_some, hlen, and_comm]
    rfl
  | nonterminal b =>
    rw [matchSymbol_nonterminal_eq_some, ← Cell.derivationsOf_ne_nil_iff, and_comm]
    rfl

theorem places_of_matchSymbols {rhs : List Symbol} {spans : List Span} {parts : List Part}
    (h : matchSymbols c.tokens c.cell rhs spans = some parts) {k : Nat} {u : Span} {s : Symbol}
    {part : Part} (hu : spans[k]? = some u) (hs : rhs[k]? = some s) (hp : parts[k]? = some part) :
    c.Places u s part := by
  induction rhs generalizing spans parts k with
  | nil => cases hs
  | cons s₀ rest ih =>
    cases spans with
    | nil => cases h
    | cons u₀ us =>
      obtain ⟨part₀, ps, hpart, hps, rfl⟩ := matchSymbols_cons_eq_some.1 h
      cases k with
      | zero =>
        obtain rfl := Option.some.inj hu
        obtain rfl := Option.some.inj hs
        obtain rfl := Option.some.inj hp
        exact matchSymbol_eq_some_iff.1 hpart
      | succ k => exact ih hps hu hs hp

theorem Placed.matchSymbols_eq {start stop : Nat} {rhs : List Symbol} {parts : List Part}
    {spans : List Span} (h : c.Placed start stop rhs parts spans) :
    matchSymbols c.tokens c.cell rhs spans = some parts := by
  obtain ⟨-, hspans, hparts, hplaces⟩ := h
  induction rhs generalizing spans parts with
  | nil =>
    obtain rfl := List.length_eq_zero_iff.1 hspans
    obtain rfl := List.length_eq_zero_iff.1 hparts
    rfl
  | cons s₀ rest ih =>
    obtain ⟨u₀, us, rfl⟩ := List.exists_cons_of_length_eq_add_one hspans
    obtain ⟨part₀, ps, rfl⟩ := List.exists_cons_of_length_eq_add_one hparts
    have hpart := matchSymbol_eq_some_iff.2 (hplaces 0 u₀ s₀ part₀ rfl rfl rfl)
    have hps := ih (Nat.succ.inj hspans) (Nat.succ.inj hparts) fun k => hplaces (k + 1)
    exact matchSymbols_cons_eq_some.2 ⟨_, _, hpart, hps, rfl⟩

theorem found_iff_exists_placed {i j : Nat} {rhs : List Symbol} {parts : List Part} :
    Found c.tokens c.cell i j rhs parts ↔ ∃ spans, c.Placed i j rhs parts spans := by
  rw [found_iff_exists_tiles]
  constructor
  · rintro ⟨spans, htiles, hmatch⟩
    have hspans := length_of_matchSymbols hmatch
    have hparts : parts.length = rhs.length := by
      rw [← hspans, ← map_span_of_matchSymbols hmatch, List.length_map]
    exact ⟨spans, htiles, hspans, hparts, fun _ _ _ _ => places_of_matchSymbols hmatch⟩
  · rintro ⟨spans, h⟩
    exact ⟨spans, h.tiles, h.matchSymbols_eq⟩

/-- The derivations of a phrase kind over a span are the rules for it whose right-hand
sides are found over contiguous spans. -/
theorem mem_derivations_iff_exists_placed {s : Span} {a : String} {d : Derivation} :
    d ∈ c.derivations s a ↔ d.production ∈ c.grammar.productions ∧ d.production.lhs = a ∧
      ∃ spans, c.Placed s.start s.stop d.production.rhs d.parts spans := by
  rw [mem_derivations, mem_cell_iff, found_iff_exists_placed, Derivation.symbol, and_assoc]
  exact and_congr_right fun _ => and_comm

end Chart

end Constituency
