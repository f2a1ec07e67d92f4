import Constituency.Production

/-!
# Rule tables

A rule table files productions under their left-hand sides. Left-hand sides
stand in the order in which they were first defined; under each, the
alternatives stand in the order in which they were given, and an alternative
that repeats an earlier one is dropped. Each of these orders shows in the trees
that a grammar yields, so the table is a list of entries.

## Main declarations

* `RuleTable.insert`, `RuleTable.ofList` — filing productions.
* `RuleTable.names`, `RuleTable.rulesFor`, `RuleTable.productions` — the views.
* `names_insert`, `rulesFor_insert` — what one insertion does to the views.
* `productions_eq_flatMap_rulesFor` — the productions are the rules of the
  names, name after name.
-/

namespace Constituency

/-- The alternatives of one phrase kind. -/
structure Entry where
  /-- The phrase kind. -/
  lhs : String
  /-- Its right-hand sides, in the order they were given. -/
  alternatives : List (List Symbol)
deriving DecidableEq, Repr, Inhabited

namespace Entry

/-- The productions that an entry stands for. -/
def productions (e : Entry) : List Production :=
  e.alternatives.map (⟨e.lhs, ·⟩)

/-- Files one more alternative, unless it is already there. -/
def add (e : Entry) (rhs : List Symbol) : Entry :=
  if rhs ∈ e.alternatives then e else { e with alternatives := e.alternatives ++ [rhs] }

@[simp] theorem lhs_add (e : Entry) (rhs : List Symbol) : (e.add rhs).lhs = e.lhs := by
  unfold add; split <;> rfl

theorem lhs_of_mem_productions {e : Entry} {p : Production} (h : p ∈ e.productions) :
    p.lhs = e.lhs := by
  obtain ⟨_, _, rfl⟩ := List.mem_map.1 h
  rfl

@[simp] theorem mem_productions {e : Entry} {p : Production} :
    p ∈ e.productions ↔ p.lhs = e.lhs ∧ p.rhs ∈ e.alternatives := by
  constructor
  · intro h
    obtain ⟨rhs, hrhs, rfl⟩ := List.mem_map.1 h
    exact ⟨rfl, hrhs⟩
  · rintro ⟨hl, hr⟩
    exact List.mem_map.2 ⟨p.rhs, hr, by cases p; simp_all⟩

/-- Adding an alternative appends its production, unless the entry has it. -/
theorem productions_add (e : Entry) (rhs : List Symbol) :
    (e.add rhs).productions =
      if ⟨e.lhs, rhs⟩ ∈ e.productions then e.productions else e.productions ++ [⟨e.lhs, rhs⟩] := by
  by_cases h : rhs ∈ e.alternatives <;> simp [add, productions, h]

end Entry

/-- Files a production: under its left-hand side if that has an entry, and under
a new last entry otherwise. -/
def insertRule (p : Production) : List Entry → List Entry
  | [] => [⟨p.lhs, [p.rhs]⟩]
  | e :: es => if e.lhs = p.lhs then e.add p.rhs :: es else e :: insertRule p es

/-- The productions that the first entry for `a` stands for; none if there is no
such entry. -/
def rulesIn (a : String) : List Entry → List Production
  | [] => []
  | e :: es => if e.lhs = a then e.productions else rulesIn a es

/-- Productions grouped by left-hand side, without repetitions. -/
structure RuleTable where
  /-- One entry for each left-hand side, in the order of first definition. -/
  entries : List Entry
  /-- No left-hand side has two entries. -/
  names_nodup : (entries.map Entry.lhs).Nodup
  /-- No entry is empty. -/
  alternatives_ne_nil : ∀ e ∈ entries, e.alternatives ≠ []
  /-- No alternative is listed twice. -/
  alternatives_nodup : ∀ e ∈ entries, e.alternatives.Nodup
deriving DecidableEq

-- ---------------------------------------------------------------------------
-- Filing one production keeps the table in shape
-- ---------------------------------------------------------------------------

/-- A new left-hand side comes last, a known one stays where it is. -/
theorem map_lhs_insertRule (p : Production) (es : List Entry) :
    (insertRule p es).map Entry.lhs =
      if p.lhs ∈ es.map Entry.lhs then es.map Entry.lhs else es.map Entry.lhs ++ [p.lhs] := by
  induction es with
  | nil => rfl
  | cons e es ih =>
    by_cases h : e.lhs = p.lhs
    · simp [insertRule, h]
    · have h' : p.lhs ≠ e.lhs := fun hc => h hc.symm
      simp only [insertRule, if_neg h, List.map_cons, ih, List.mem_cons, h', false_or]
      split <;> simp

/-- Every entry after an insertion is an old one, an old one with one more
alternative, or a new one with a single alternative. -/
theorem mem_insertRule {p : Production} {es : List Entry} {e : Entry}
    (h : e ∈ insertRule p es) :
    e ∈ es ∨ (∃ e₀ ∈ es, e = e₀.add p.rhs) ∨ e = ⟨p.lhs, [p.rhs]⟩ := by
  induction es with
  | nil => exact Or.inr (Or.inr (List.mem_singleton.1 h))
  | cons e₀ es ih =>
    by_cases hl : e₀.lhs = p.lhs
    · rw [insertRule, if_pos hl] at h
      rcases List.mem_cons.1 h with rfl | h
      · exact Or.inr (Or.inl ⟨e₀, List.mem_cons_self, rfl⟩)
      · exact Or.inl (List.mem_cons_of_mem _ h)
    · rw [insertRule, if_neg hl] at h
      rcases List.mem_cons.1 h with rfl | h
      · exact Or.inl List.mem_cons_self
      · rcases ih h with h | ⟨e₁, h₁, rfl⟩ | h
        · exact Or.inl (List.mem_cons_of_mem _ h)
        · exact Or.inr (Or.inl ⟨e₁, List.mem_cons_of_mem _ h₁, rfl⟩)
        · exact Or.inr (Or.inr h)

theorem Entry.alternatives_add_ne_nil {e : Entry} {rhs : List Symbol}
    (h : e.alternatives ≠ []) : (e.add rhs).alternatives ≠ [] := by
  unfold add
  split <;> simp [h]

theorem Entry.alternatives_add_nodup {e : Entry} {rhs : List Symbol}
    (h : e.alternatives.Nodup) : (e.add rhs).alternatives.Nodup := by
  unfold add
  split
  · exact h
  · next hn =>
    refine List.nodup_append.2 ⟨h, by simp, ?_⟩
    rintro a ha b hb rfl
    exact hn (List.mem_singleton.1 hb ▸ ha)

namespace RuleTable

/-- The table without productions. -/
def empty : RuleTable := ⟨[], by simp, by simp, by simp⟩

/-- Files a production; a repeated one leaves the table as it is. -/
def insert (t : RuleTable) (p : Production) : RuleTable where
  entries := insertRule p t.entries
  names_nodup := by
    rw [map_lhs_insertRule]
    split
    · exact t.names_nodup
    · next hn =>
      refine List.nodup_append.2 ⟨t.names_nodup, by simp, ?_⟩
      rintro a ha b hb rfl
      exact hn (List.mem_singleton.1 hb ▸ ha)
  alternatives_ne_nil := by
    intro e he
    rcases mem_insertRule he with h | ⟨e₀, h₀, rfl⟩ | rfl
    · exact t.alternatives_ne_nil e h
    · exact Entry.alternatives_add_ne_nil (t.alternatives_ne_nil e₀ h₀)
    · simp
  alternatives_nodup := by
    intro e he
    rcases mem_insertRule he with h | ⟨e₀, h₀, rfl⟩ | rfl
    · exact t.alternatives_nodup e h
    · exact Entry.alternatives_add_nodup (t.alternatives_nodup e₀ h₀)
    · simp

/-- Files productions one after the other. -/
def ofList (ps : List Production) : RuleTable :=
  ps.foldl insert empty

/-- The left-hand sides, in the order of first definition. -/
def names (t : RuleTable) : List String :=
  t.entries.map Entry.lhs

/-- The productions for the phrase kind `a`; none if `a` has no entry. -/
def rulesFor (t : RuleTable) (a : String) : List Production :=
  rulesIn a t.entries

/-- Every production, grouped by left-hand side. -/
def productions (t : RuleTable) : List Production :=
  t.entries.flatMap Entry.productions

/-- The number of productions. -/
def size (t : RuleTable) : Nat :=
  (t.entries.map fun e => e.alternatives.length).foldr (· + ·) 0

-- ---------------------------------------------------------------------------
-- The views of an insertion
-- ---------------------------------------------------------------------------

/-- Two tables with the same entries are the same. -/
@[ext] theorem ext {t u : RuleTable} (h : t.entries = u.entries) : t = u := by
  cases t; cases u; simp_all

@[simp] theorem names_empty : empty.names = [] := rfl

@[simp] theorem rulesFor_empty (a : String) : empty.rulesFor a = [] := rfl

@[simp] theorem productions_empty : empty.productions = [] := rfl

/-- Inserting a production defines its left-hand side, last if it is new. -/
theorem names_insert (t : RuleTable) (p : Production) :
    (t.insert p).names = if p.lhs ∈ t.names then t.names else t.names ++ [p.lhs] :=
  map_lhs_insertRule p t.entries

/-- Inserting a production appends it to the rules of its left-hand side, unless
it is among them, and touches no other rules. -/
theorem rulesFor_insert (t : RuleTable) (p : Production) (a : String) :
    (t.insert p).rulesFor a =
      if a = p.lhs ∧ p ∉ t.rulesFor a then t.rulesFor a ++ [p] else t.rulesFor a := by
  show rulesIn a (insertRule p t.entries) =
    if a = p.lhs ∧ p ∉ rulesIn a t.entries then rulesIn a t.entries ++ [p] else rulesIn a t.entries
  induction t.entries with
  | nil =>
    by_cases h : a = p.lhs
    · simp [insertRule, rulesIn, Entry.productions, h]
    · simp [insertRule, rulesIn, h, Ne.symm h]
  | cons e es ih =>
    by_cases hl : e.lhs = p.lhs
    · by_cases ha : a = p.lhs
      · have hp : (⟨e.lhs, p.rhs⟩ : Production) = p := by rw [hl]
        simp only [insertRule, rulesIn, if_pos hl, Entry.lhs_add,
          Entry.productions_add, hp, ha, true_and]
        by_cases hm : p ∈ e.productions <;> simp [hm]
      · have ha' : ¬p.lhs = a := Ne.symm ha
        simp [insertRule, rulesIn, hl, ha, ha']
    · by_cases ha : e.lhs = a
      · have ha' : ¬a = p.lhs := fun hc => hl (ha.trans hc)
        simp [insertRule, rulesIn, ha, ha']
      · simpa [insertRule, rulesIn, hl, ha] using ih

theorem mem_names_insert {t : RuleTable} {p : Production} {a : String} :
    a ∈ (t.insert p).names ↔ a ∈ t.names ∨ a = p.lhs := by
  rw [names_insert]
  split
  · exact ⟨Or.inl, fun h => h.elim id fun h => h ▸ ‹_›⟩
  · simp

theorem mem_productions_insertRule {p q : Production} {es : List Entry} :
    q ∈ (insertRule p es).flatMap Entry.productions ↔
      q ∈ es.flatMap Entry.productions ∨ q = p := by
  induction es with
  | nil => simp [insertRule, Entry.productions]
  | cons e es ih =>
    by_cases hl : e.lhs = p.lhs
    · have hp : (⟨e.lhs, p.rhs⟩ : Production) = p := by rw [hl]
      simp only [insertRule, if_pos hl, List.flatMap_cons, List.mem_append,
        Entry.productions_add, hp]
      split
      · next hmem =>
        refine ⟨Or.inl, fun h => h.elim id fun h => Or.inl (h ▸ hmem)⟩
      · simp [or_comm, or_assoc]
    · simp only [insertRule, if_neg hl, List.flatMap_cons, List.mem_append, ih, or_assoc]

theorem mem_productions_insert {t : RuleTable} {p q : Production} :
    q ∈ (t.insert p).productions ↔ q ∈ t.productions ∨ q = p :=
  mem_productions_insertRule

-- ---------------------------------------------------------------------------
-- The views of a list of productions
-- ---------------------------------------------------------------------------

theorem mem_names_foldl_insert {ps : List Production} {t : RuleTable} {a : String} :
    a ∈ (ps.foldl insert t).names ↔ a ∈ t.names ∨ a ∈ ps.map (·.lhs) := by
  induction ps generalizing t with
  | nil => simp
  | cons p ps ih => simp [ih, mem_names_insert, or_assoc]

theorem mem_productions_foldl_insert {ps : List Production} {t : RuleTable} {q : Production} :
    q ∈ (ps.foldl insert t).productions ↔ q ∈ t.productions ∨ q ∈ ps := by
  induction ps generalizing t with
  | nil => simp
  | cons p ps ih => simp [ih, mem_productions_insert, or_assoc]

/-- The names of a table are the left-hand sides of its productions. -/
theorem mem_names_ofList {ps : List Production} {a : String} :
    a ∈ (ofList ps).names ↔ a ∈ ps.map (·.lhs) := by
  simp [ofList, mem_names_foldl_insert]

/-- A table holds exactly the productions it was made of. -/
theorem mem_productions_ofList {ps : List Production} {q : Production} :
    q ∈ (ofList ps).productions ↔ q ∈ ps := by
  simp [ofList, mem_productions_foldl_insert]

-- ---------------------------------------------------------------------------
-- How the views hang together
-- ---------------------------------------------------------------------------

theorem flatMap_productions_eq {es : List Entry} (hnd : (es.map Entry.lhs).Nodup) :
    es.flatMap Entry.productions = (es.map Entry.lhs).flatMap fun a => rulesIn a es := by
  induction es with
  | nil => rfl
  | cons e es ih =>
    obtain ⟨hne, hnd⟩ := List.nodup_cons.1 hnd
    have hrest : (es.map Entry.lhs).flatMap (fun a => rulesIn a (e :: es)) =
        (es.map Entry.lhs).flatMap fun a => rulesIn a es := by
      simp only [List.flatMap]
      refine congrArg _ (List.map_congr_left fun a ha => ?_)
      have : ¬e.lhs = a := fun hc => hne (hc ▸ ha)
      simp [rulesIn, this]
    rw [List.flatMap_cons, List.map_cons, List.flatMap_cons, hrest, ih hnd]
    simp [rulesIn]

/-- The productions are the rules of each name, name after name. -/
theorem productions_eq_flatMap_rulesFor (t : RuleTable) :
    t.productions = t.names.flatMap t.rulesFor :=
  flatMap_productions_eq t.names_nodup

theorem length_productions (t : RuleTable) : t.productions.length = t.size := by
  simp [productions, size, List.length_flatMap, Entry.productions, List.sum_eq_foldr]

end RuleTable

end Constituency
