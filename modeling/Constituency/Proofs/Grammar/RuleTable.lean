import Constituency.Grammar.Basic
import Mathlib.Data.List.Nodup

/-!
# A rule table is made of its own productions

The productions of a table come entry by entry, and no production is listed twice.
Filing them again into an empty table meets each left-hand side for the first time
when its entry begins, and each alternative as a new one. So every entry is built up
where it stood, and the table comes out as it was. The same holds of a grammar: its
productions and its start symbol say all there is to it.

## Main results

* `productions_nodup`         — no production is listed twice.
* `ofList_productions`        — filing the productions of a table gives the table.
* `ofProductions_productions` — the productions of a grammar give the grammar.
-/

namespace Constituency

-- ---------------------------------------------------------------------------
-- Filing one production
-- ---------------------------------------------------------------------------

theorem insertRule_of_not_mem {p : Production} {es : List Entry} (h : p.lhs ∉ es.map Entry.lhs) :
    insertRule p es = es ++ [⟨p.lhs, [p.rhs]⟩] := by
  induction es with
  | nil => rfl
  | cons e es ih =>
    rw [List.map_cons, List.mem_cons, not_or] at h
    obtain ⟨hne, hrest⟩ := h
    rw [insertRule, if_neg (Ne.symm hne), ih hrest, List.cons_append]

/-- A production for the last entry joins that entry. -/
theorem insertRule_append_singleton {p : Production} {es : List Entry} {e : Entry}
    (hlhs : e.lhs = p.lhs) (h : p.lhs ∉ es.map Entry.lhs) :
    insertRule p (es ++ [e]) = es ++ [e.add p.rhs] := by
  induction es with
  | nil => rw [List.nil_append, insertRule, if_pos hlhs, List.nil_append]
  | cons e₀ es ih =>
    rw [List.map_cons, List.mem_cons, not_or] at h
    obtain ⟨hne, hrest⟩ := h
    rw [List.cons_append, insertRule, if_neg (Ne.symm hne), ih hrest, List.cons_append]

-- ---------------------------------------------------------------------------
-- Filing one entry, and then all of them
-- ---------------------------------------------------------------------------

/-- The remaining alternatives of the last entry are filed behind the ones it has. -/
theorem foldl_insertRule_alternatives {a : String} {es : List Entry} (h : a ∉ es.map Entry.lhs) :
    ∀ filed rest : List (List Symbol), (filed ++ rest).Nodup →
      (rest.map (Production.mk a)).foldl (fun es p => insertRule p es) (es ++ [⟨a, filed⟩]) =
        es ++ [⟨a, filed ++ rest⟩] := by
  intro filed rest
  induction rest generalizing filed with
  | nil =>
    intro _
    rw [List.map_nil, List.foldl_nil, List.append_nil]
  | cons rhs rest ih =>
    intro hnodup
    have hnew : rhs ∉ filed := by
      have hdisjoint := (List.nodup_append.1 hnodup).2.2
      exact fun hmem => hdisjoint rhs hmem rhs List.mem_cons_self rfl
    have hadd : (⟨a, filed⟩ : Entry).add rhs = ⟨a, filed ++ [rhs]⟩ := by
      rw [Entry.add, if_neg hnew]
    have hstep : insertRule ⟨a, rhs⟩ (es ++ [⟨a, filed⟩]) = es ++ [⟨a, filed ++ [rhs]⟩] := by
      rw [insertRule_append_singleton rfl h, hadd]
    have hnodup' : (filed ++ [rhs] ++ rest).Nodup := by
      rw [List.append_assoc, List.singleton_append]
      exact hnodup
    rw [List.map_cons, List.foldl_cons, hstep, ih _ hnodup', List.append_assoc,
      List.singleton_append]

theorem foldl_insertRule_entry {es : List Entry} {e : Entry} (h : e.lhs ∉ es.map Entry.lhs)
    (hne : e.alternatives ≠ []) (hnodup : e.alternatives.Nodup) :
    e.productions.foldl (fun es p => insertRule p es) es = es ++ [e] := by
  obtain ⟨a, alternatives⟩ := e
  cases alternatives with
  | nil => exact absurd rfl hne
  | cons rhs rest =>
    -- the first alternative opens the entry, the others join it
    rw [Entry.productions, List.map_cons, List.foldl_cons, insertRule_of_not_mem h]
    exact foldl_insertRule_alternatives h [rhs] rest hnodup

theorem foldl_insertRule_entries :
    ∀ es filed : List Entry, ((filed ++ es).map Entry.lhs).Nodup →
      (∀ e ∈ es, e.alternatives ≠ [] ∧ e.alternatives.Nodup) →
      (es.flatMap Entry.productions).foldl (fun es p => insertRule p es) filed = filed ++ es := by
  intro es
  induction es with
  | nil =>
    intro filed _ _
    rw [List.flatMap_nil, List.foldl_nil, List.append_nil]
  | cons e es ih =>
    intro filed hnames hentries
    obtain ⟨⟨hne, hnodup⟩, hrest⟩ := List.forall_mem_cons.1 hentries
    have hnew : e.lhs ∉ filed.map Entry.lhs := by
      rw [List.map_append, List.map_cons] at hnames
      have hdisjoint := (List.nodup_append.1 hnames).2.2
      exact fun hmem => hdisjoint _ hmem _ List.mem_cons_self rfl
    have hnames' : ((filed ++ [e] ++ es).map Entry.lhs).Nodup := by
      rw [List.append_assoc, List.singleton_append]
      exact hnames
    rw [List.flatMap_cons, List.foldl_append, foldl_insertRule_entry hnew hne hnodup,
      ih _ hnames' hrest, List.append_assoc, List.singleton_append]

namespace RuleTable

theorem entries_foldl_insert (ps : List Production) (t : RuleTable) :
    (ps.foldl insert t).entries = ps.foldl (fun es p => insertRule p es) t.entries := by
  induction ps generalizing t with
  | nil => rfl
  | cons p ps ih => rw [List.foldl_cons, List.foldl_cons, ih, insert]

/-- Filing the productions of a table gives the table. -/
theorem ofList_productions (t : RuleTable) : ofList t.productions = t := by
  have hentries := foldl_insertRule_entries t.entries [] t.names_nodup fun e he =>
    ⟨t.alternatives_ne_nil e he, t.alternatives_nodup e he⟩
  exact RuleTable.ext ((entries_foldl_insert _ _).trans hentries)

-- ---------------------------------------------------------------------------
-- The list of productions
-- ---------------------------------------------------------------------------

theorem mem_names_iff {t : RuleTable} {a : String} :
    a ∈ t.names ↔ a ∈ t.productions.map (·.lhs) := by
  conv_lhs => rw [← t.ofList_productions, mem_names_ofList]

/-- No production is listed twice. -/
theorem productions_nodup (t : RuleTable) : t.productions.Nodup := by
  rw [productions, List.nodup_flatMap]
  refine ⟨fun e he => ?_, ?_⟩
  · have hinj : Function.Injective (Production.mk e.lhs) := fun _ _ h => (Production.mk.inj h).2
    exact (t.alternatives_nodup e he).map hinj
  · have hnames : t.entries.Pairwise fun e f => e.lhs ≠ f.lhs := List.pairwise_map.1 t.names_nodup
    refine hnames.imp fun {e f} hne p hp hp' => hne ?_
    rw [← Entry.lhs_of_mem_productions hp, Entry.lhs_of_mem_productions hp']

end RuleTable

namespace Grammar

theorem productions_nodup (g : Grammar) : g.productions.Nodup :=
  g.rules.productions_nodup

theorem mem_nonterminals_iff {g : Grammar} {a : String} :
    a ∈ g.nonterminals ↔ a ∈ g.productions.map (·.lhs) :=
  RuleTable.mem_names_iff

theorem defects_productions (g : Grammar) : defects g.start g.productions = [] := by
  have hstart : g.start ∈ g.productions.map (·.lhs) := mem_nonterminals_iff.1 g.start_mem
  have hne : g.productions ≠ [] := fun hnil => by
    rw [hnil] at hstart
    exact List.not_mem_nil hstart
  refine defects_eq_nil_iff.2 ⟨hne, hstart, fun p hp => ⟨g.rhs_ne_nil p hp, fun b hb => ?_⟩⟩
  exact mem_nonterminals_iff.1 (g.closed p hp b hb)

/-- The productions of a grammar, with its start symbol, give the grammar. -/
theorem ofProductions_productions (g : Grammar) :
    ofProductions g.start g.productions = .ok g :=
  ofProductions_eq_ok_iff.2 ⟨g.defects_productions, rfl, g.rules.ofList_productions.symm⟩

end Grammar

end Constituency
