import Constituency.Proofs.Chart.Checked
import Constituency.Proofs.Chart.Termination

/-!
# No step of a run is out of place

A run fills a table by growing length, and on each length by the start of the spans. Then it
makes the trees of the start symbol over the whole sentence. Here the run is done with checks:
a place of the table or a word that is not there, a negative difference, a split that does not
exist, symbols and spans that do not pair up, a look at the cell that is being filled, and a
part that is not shorter where it has to be, each ends it with a fault.

No run has a fault. While the table is filled, the cells that come before the one to be filled
are those of the finished chart, and all others are empty (`Filled`). The shorter spans come
before, so that the next cell is the one of the chart, and `Filled` moves on by one. The trees
are then made from derivations of the chart, which names only words and spans of the sentence.
The run with checks thus has the same table and the same trees as the chart without.

## Main declarations

* `Checked.fill`             — the table of a sentence, with checks.
* `Checked.expandDerivation` — the trees of a derivation, with checks.
* `Checked.trees`            — the whole run.
* `Filled`                   — which cells of the table are in place.
* `fill_eq_ok`, `expandDerivation_eq_ok` — neither has a fault.
* `run_faultless`            — the run has none.
-/

namespace Constituency

namespace Checked

-- ---------------------------------------------------------------------------
-- The run
-- ---------------------------------------------------------------------------

/-- Fills the cell of a span, and puts it into its place. -/
def fillSpan (g : Grammar) (tokens : List String) (table : Table tokens.length) (s : Span) :
    Except Fault (Table tokens.length) := do
  table.write s (← cellOver g tokens table s)

/-- Fills the cells of the spans of a length, by their start. -/
def fillLength (g : Grammar) (tokens : List String) (table : Table tokens.length)
    (length : Nat) : Except Fault (Table tokens.length) := do
  let last ← difference tokens.length length
  (List.range' 0 (last + 1)).foldlM (fun table start =>
    fillSpan g tokens table ⟨start, start + length⟩) table

/-- Fills the cells of all spans, by growing length. -/
def fill (g : Grammar) (tokens : List String) : Except Fault (Table tokens.length) :=
  (List.range' 1 tokens.length).foldlM (fillLength g tokens) (.empty tokens.length)

section Reading

variable {n : Nat}

/-- The ways in which a phrase kind covers a span. -/
def derivations (table : Table n) (s : Span) (a : String) : Except Fault (List Derivation) := do
  let cell ← table.read s
  return cell.derivationsOf a

/-- How many phrase kinds over a span are not in the chain. -/
def unchained (table : Table n) (s : Span) (chain : List String) : Nat :=
  match table.read s with
  | .ok cell => (missing cell.symbols chain).length
  | .error _ => 0

variable {table : Table n} {s : Span} {a : String} {ds : List Derivation}

theorem derivations_eq_ok_iff :
    derivations table s a = .ok ds ↔
      ∃ cell, table.read s = .ok cell ∧ cell.derivationsOf a = ds := by
  rw [derivations, bind_eq_ok_iff]
  refine exists_congr fun cell => and_congr_right fun _ => ⟨fun h => Except.ok.inj h, ?_⟩
  rintro rfl
  rfl

theorem unchained_cons_lt (h : derivations table s a = .ok ds) {d : Derivation} (hd : d ∈ ds)
    {chain : List String} (ha : a ∉ chain) :
    unchained table s (a :: chain) < unchained table s chain := by
  obtain ⟨cell, hcell, rfl⟩ := derivations_eq_ok_iff.1 h
  obtain ⟨hmem, hsymbol⟩ := Cell.mem_derivationsOf.1 hd
  unfold unchained
  rw [hcell]
  exact length_missing_cons_lt (mem_missing.2 ⟨Cell.mem_symbols.2 ⟨d, hmem, hsymbol⟩, ha⟩)

end Reading

/-- The trees of a derivation over a span, below the phrase kinds in `chain` on the same span.
A part over another span has to be shorter. -/
def expandDerivation (tokens : List String) (table : Table tokens.length) (s : Span)
    (chain : List String) (d : Derivation) : Except Fault (List Tree) := do
  let options ← d.parts.mapM fun part =>
    match part with
    | .leaf i => do return [Tree.leaf (← wordAt tokens i)]
    | .node u b =>
      if u = s then
        if b ∈ chain then return []
        else
          match _h : derivations table s b with
          | .error fault => throw fault
          | .ok ds => do
            let trees ← ds.attach.mapM fun ⟨e, _⟩ => expandDerivation tokens table s (b :: chain) e
            return trees.flatten
      else if u.length < s.length then do
        let ds ← derivations table u b
        let trees ← ds.mapM fun e => expandDerivation tokens table u [b] e
        return trees.flatten
      else throw (.length s u)
  return (product options).map (Tree.branch d.symbol)
termination_by (s.length, unchained table s chain)
decreasing_by
  · exact Prod.Lex.right _ (unchained_cons_lt ‹_› ‹_› ‹_›)
  · exact Prod.Lex.left _ _ ‹_›

/-- The trees of a phrase kind over a span, below the phrase kinds in `chain`. -/
def expand (tokens : List String) (table : Table tokens.length) (s : Span) (a : String)
    (chain : List String) : Except Fault (List Tree) := do
  let ds ← derivations table s a
  let trees ← ds.mapM (expandDerivation tokens table s (a :: chain))
  return trees.flatten

/-- The trees that a part of a derivation over a span stands for. -/
def expandPart (tokens : List String) (table : Table tokens.length) (s : Span)
    (chain : List String) : Part → Except Fault (List Tree)
  | .leaf i => do return [Tree.leaf (← wordAt tokens i)]
  | .node u b =>
    if u = s then
      if b ∈ chain then return [] else expand tokens table s b chain
    else if u.length < s.length then expand tokens table u b []
    else throw (.length s u)

theorem expandDerivation_eq (tokens : List String) (table : Table tokens.length) (s : Span)
    (chain : List String) (d : Derivation) :
    expandDerivation tokens table s chain d = (do
      let options ← d.parts.mapM (expandPart tokens table s chain)
      return (product options).map (Tree.branch d.symbol)) := by
  rw [expandDerivation]
  congr 2
  funext part
  cases part with
  | leaf i => rfl
  | node u b =>
    simp only [expandPart, expand]
    split
    · split
      · rfl
      · split
        · next fault h =>
          rw [h]
          rfl
        · next ds h =>
          rw [h, List.mapM_subtype (fun _ _ => rfl), List.unattach_attach]
          rfl
    · rfl

/-- The trees of the start symbol over the whole sentence, from an empty table. -/
def trees (g : Grammar) (tokens : List String) : Except Fault (List Tree) := do
  let table ← fill g tokens
  expand tokens table ⟨0, tokens.length⟩ g.start []

-- ---------------------------------------------------------------------------
-- Filling the table
-- ---------------------------------------------------------------------------

/-- Before the span with the given length and start is filled, the cells of the spans in front
of it are those of the chart. The others are empty. -/
def Filled (c : Chart) (table : Table c.tokens.length) (length start : Nat) : Prop :=
  ∀ u : Span, u.start ≤ c.tokens.length → u.stop ≤ c.tokens.length →
    table.read u =
      .ok (if u.length < length ∨ u.length = length ∧ u.start < start then c.cell u else [])

variable {c : Chart}

/-- In the empty table there is nothing of a word yet, and spans without words have no more. -/
theorem filled_empty : Filled c (.empty c.tokens.length) 1 0 := by
  intro u hstart hstop
  rw [Table.read_empty hstart hstop]
  split
  · next h =>
    have hnot : ¬u.Within c.tokens.length := by
      intro hu
      have hlt := hu.start_lt
      unfold Span.length at h
      omega
    rw [Chart.cell_eq_nil hnot]
  · rfl

namespace Filled

variable {table table' : Table c.tokens.length} {length start : Nat}

theorem read_of_length_lt (h : Filled c table length start) {u : Span}
    (hu : u.Within c.tokens.length) (hlt : u.length < length) : table.read u = .ok (c.cell u) := by
  rw [h u (Nat.le_of_lt hu.start_lt_length) hu.stop_le, if_pos (Or.inl hlt)]

/-- With the cell of the next span in its place, the span after it is next. -/
theorem succ_start (hlength : 0 < length) (h : Filled c table length start)
    (hread : ∀ u, table'.read u =
      if u = ⟨start, start + length⟩ then .ok (c.cell ⟨start, start + length⟩)
      else table.read u) : Filled c table' length (start + 1) := by
  intro u hstart hstop
  rw [hread]
  by_cases hu : u = ⟨start, start + length⟩
  · have hlen : u.length = length := by
      rw [hu]
      exact Nat.add_sub_cancel_left _ _
    have hfirst : u.start < start + 1 := by
      rw [hu]
      exact Nat.lt_succ_self start
    rw [if_pos hu, if_pos (Or.inr ⟨hlen, hfirst⟩), hu]
  · -- no other span has this length and this start
    have hne : ¬(u.length = length ∧ u.start = start) := by
      rintro ⟨hl, rfl⟩
      have hstop : u.stop = u.start + length := by
        unfold Span.length at hl
        omega
      rw [← hstop] at hu
      exact hu rfl
    have hsame : (u.length < length ∨ u.length = length ∧ u.start < start + 1) ↔
        (u.length < length ∨ u.length = length ∧ u.start < start) := by omega
    rw [if_neg hu, h u hstart hstop]
    simp only [hsame]

/-- The spans of a length all start early enough, so that the next length is next. -/
theorem succ_length (h : Filled c table length (c.tokens.length - length + 1)) :
    Filled c table (length + 1) 0 := by
  intro u hstart hstop
  have hsame : (u.length < length + 1 ∨ u.length = length + 1 ∧ u.start < 0) ↔
      (u.length < length ∨ u.length = length ∧ u.start < c.tokens.length - length + 1) := by
    unfold Span.length
    omega
  rw [h u hstart hstop]
  simp only [hsame]

end Filled

theorem fillSpan_eq_ok {table : Table c.tokens.length} {length start : Nat} (hlength : 0 < length)
    (hle : start + length ≤ c.tokens.length) (h : Filled c table length start) :
    ∃ table', fillSpan c.grammar c.tokens table ⟨start, start + length⟩ = .ok table' ∧
      Filled c table' length (start + 1) := by
  have hs : (⟨start, start + length⟩ : Span).Within c.tokens.length :=
    ⟨Nat.lt_add_of_pos_right hlength, hle⟩
  have hlen : (⟨start, start + length⟩ : Span).length = length := Nat.add_sub_cancel_left _ _
  have hcell : cellOver c.grammar c.tokens table ⟨start, start + length⟩ =
      .ok (c.cell ⟨start, start + length⟩) := by
    rw [Chart.cell_eq_cellOver hs]
    exact cellOver_eq_ok (fun u hu hlt => h.read_of_length_lt hu (hlen ▸ hlt)) hs
  obtain ⟨table', htable', hread⟩ := table.exists_write_eq_ok
    (Nat.le_of_lt hs.start_lt_length) hs.stop_le (c.cell ⟨start, start + length⟩)
  refine ⟨table', ?_, h.succ_start hlength hread⟩
  rw [fillSpan, hcell, ok_bind, htable']

theorem fillLength_eq_ok {table : Table c.tokens.length} {length : Nat} (hlength : 0 < length)
    (hle : length ≤ c.tokens.length) (h : Filled c table length 0) :
    ∃ table', fillLength c.grammar c.tokens table length = .ok table' ∧
      Filled c table' (length + 1) 0 := by
  obtain ⟨table', htable', hfilled⟩ :=
    exists_foldlM_range'_eq_ok
      (fun table start => fillSpan c.grammar c.tokens table ⟨start, start + length⟩)
      (fun start table => Filled c table length start) 0 (c.tokens.length - length + 1) h
      fun start table _ hlt h => fillSpan_eq_ok hlength (by omega) h
  rw [Nat.zero_add] at hfilled
  refine ⟨table', ?_, hfilled.succ_length⟩
  rw [fillLength, difference_eq_ok hle, ok_bind, htable']

/-- Filling the table has no fault, and every place has the cell of the chart in the end. -/
theorem fill_eq_ok (c : Chart) :
    ∃ table, fill c.grammar c.tokens = .ok table ∧
      ∀ u : Span, u.start ≤ c.tokens.length → u.stop ≤ c.tokens.length →
        table.read u = .ok (c.cell u) := by
  obtain ⟨table, htable, hfilled⟩ :=
    exists_foldlM_range'_eq_ok (fillLength c.grammar c.tokens)
      (fun length table => Filled c table length 0) 1 c.tokens.length filled_empty
      fun length table hle hlt h => fillLength_eq_ok hle (by omega) h
  refine ⟨table, htable, fun u hstart hstop => ?_⟩
  have hlt : u.length < 1 + c.tokens.length := by
    unfold Span.length
    omega
  rw [hfilled u hstart hstop, if_pos (Or.inl hlt)]

-- ---------------------------------------------------------------------------
-- Making the trees
-- ---------------------------------------------------------------------------

section Expansion

variable {table : Table c.tokens.length}
  (htable : ∀ u : Span, u.start ≤ c.tokens.length → u.stop ≤ c.tokens.length →
    table.read u = .ok (c.cell u))

include htable

theorem derivations_eq_ok {s : Span} (hs : s.Within c.tokens.length) (a : String) :
    derivations table s a = .ok (c.derivations s a) :=
  derivations_eq_ok_iff.2
    ⟨c.cell s, htable s (Nat.le_of_lt hs.start_lt_length) hs.stop_le, rfl⟩

theorem expand_eq_ok {s : Span} (hs : s.Within c.tokens.length) {a : String}
    {chain : List String}
    (h : ∀ d ∈ c.derivations s a, expandDerivation c.tokens table s (a :: chain) d =
      .ok (c.expandDerivation s (a :: chain) d)) :
    expand c.tokens table s a chain = .ok (c.expand s a chain) := by
  rw [expand, derivations_eq_ok htable hs, ok_bind, mapM_eq_ok h, ok_bind]
  rfl

/-- A derivation of the chart is expanded without a fault, and gives the trees that the chart
gives. From one derivation to the next, the span gets shorter, or the chain longer by a kind
that it lacked. -/
theorem expandDerivation_eq_ok {s : Span} {d : Derivation} (hd : d ∈ c.cell s)
    (chain : List String) :
    expandDerivation c.tokens table s chain d = .ok (c.expandDerivation s chain d) := by
  have hparts : ∀ part ∈ d.parts,
      expandPart c.tokens table s chain part = .ok (c.optionsOf s chain part) := by
    intro part hpart
    obtain ⟨-, hfound⟩ := Chart.mem_cell_iff.1 hd
    cases part with
    | leaf i =>
      obtain ⟨w, hw⟩ := hfound.exists_getElem? hpart
      rw [expandPart, wordAt_eq_ok hw, ok_bind, Chart.optionsOf, hw]
      rfl
    | node u b =>
      have hu := Chart.within_of_mem_symbols (hfound.bounds hpart).2.2.2
      rw [expandPart, Chart.optionsOf]
      by_cases hsame : u = s
      · rw [if_pos hsame, if_pos hsame]
        by_cases hb : b ∈ chain
        · rw [if_pos hb, if_pos hb]
          rfl
        · have hmissing : b ∈ missing c.grammar.nonterminals chain :=
            mem_missing.2 ⟨Chart.mem_nonterminals_of_node_mem hd hpart, hb⟩
          have hlt := length_missing_cons_lt hmissing
          rw [hsame] at hu ⊢
          rw [if_neg hb, if_neg hb]
          exact expand_eq_ok htable hu fun e he =>
            expandDerivation_eq_ok (Chart.mem_derivations.1 he).1 (b :: chain)
      · have hlt := Chart.length_lt_of_node_mem hd hpart hsame
        rw [if_neg hsame, if_neg hsame, if_pos hlt]
        exact expand_eq_ok htable hu fun e he =>
          expandDerivation_eq_ok (Chart.mem_derivations.1 he).1 [b]
  rw [expandDerivation_eq, mapM_eq_ok hparts, ok_bind, Chart.expandDerivation_eq_optionsOf hd]
  rfl
termination_by (s.length, (missing c.grammar.nonterminals chain).length)
decreasing_by
  · exact Prod.Lex.right _ hlt
  · exact Prod.Lex.left _ _ hlt

end Expansion

/-- The whole run has no fault, and gives the trees that the chart gives. -/
theorem trees_eq_ok (c : Chart) : trees c.grammar c.tokens = .ok c.trees := by
  obtain ⟨table, hfill, htable⟩ := fill_eq_ok c
  rw [trees, hfill, ok_bind]
  exact expand_eq_ok htable c.within_whole fun d hd =>
    expandDerivation_eq_ok htable (Chart.mem_derivations.1 hd).1 _

end Checked

namespace Grammar

/-- Over a sentence with words, the run with checks has no fault, neither while the table is
filled nor while any derivation in it is expanded. The table has the cells of the chart in the
end, each expansion gives the trees that the chart gives, and so does the whole run. -/
theorem run_faultless (g : Grammar) {tokens : List String} (h : tokens ≠ []) :
    ∃ c table, Chart.ofTokens g tokens = .ok c ∧ Checked.fill g tokens = .ok table ∧
      (∀ s : Span, s.start ≤ tokens.length → s.stop ≤ tokens.length →
        table.read s = .ok (c.cell s)) ∧
      (∀ s d, d ∈ c.cell s → ∀ chain,
        Checked.expandDerivation tokens table s chain d = .ok (c.expandDerivation s chain d)) ∧
      Checked.trees g tokens = .ok c.trees := by
  obtain ⟨c, hc, rfl, rfl⟩ := Chart.exists_ofTokens g h
  obtain ⟨table, hfill, htable⟩ := Checked.fill_eq_ok c
  exact ⟨c, table, hc, hfill, htable,
    fun s d hd chain => Checked.expandDerivation_eq_ok htable hd chain, Checked.trees_eq_ok c⟩

/-- The theorem on a grammar with unary cycles. -/
theorem run_faultless_circular :
    ["x", "and", "x"] ≠ [] ∧
      ∃ c table, Chart.ofTokens circular ["x", "and", "x"] = .ok c ∧
        Checked.fill circular ["x", "and", "x"] = .ok table ∧
        (∀ s : Span, s.start ≤ 3 → s.stop ≤ 3 → table.read s = .ok (c.cell s)) ∧
        (∀ s d, d ∈ c.cell s → ∀ chain,
          Checked.expandDerivation ["x", "and", "x"] table s chain d =
            .ok (c.expandDerivation s chain d)) ∧
        Checked.trees circular ["x", "and", "x"] = .ok c.trees :=
  ⟨by decide, run_faultless circular (by decide)⟩

end Grammar

end Constituency
