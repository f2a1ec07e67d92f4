import Constituency.Proofs.Enumeration

/-!
# Several cursors on one chart

A chart can be read by any number of cursors at a time. Two things can be done to them:
another cursor is opened, or one that is open is asked for its next tree. `Chart.run`
does such acts one after the other and writes down who answered what.

A cursor has a place of its own. Asking it moves it and no other, and opening another one
moves none, so its answers depend only on how often it was asked. The `n`-th answer is the
`n`-th tree of the expansion, or nothing if there are not so many. Root derivations that
expand to nothing are passed over on the way: the first answer after them is that of the
next derivation with a tree.

## Main declarations

* `Act`, `Chart.act`, `Chart.run` — what is done to the cursors, one act and all of them.
* `Chart.answersOf`               — the answers of one cursor in a run.
* `answersOf_eq`                  — an open cursor answers with the trees to come.
* `readers_independent`           — every cursor reads the expansion from its start.
-/

namespace Constituency

/-- What is done to the cursors on a chart. -/
inductive Act where
  /-- Another cursor is opened. -/
  | start
  /-- The cursor with this number is asked, where the first one has the number 0. -/
  | ask (i : Nat)
deriving DecidableEq, Repr

namespace Chart

/-- The cursors after an act, and what is written down. A cursor that is not open gives no
answer. -/
def act (c : Chart) (cursors : List Cursor) : Act → List Cursor × List (Nat × Option Tree)
  | .start => (cursors ++ [c.cursor], [])
  | .ask i =>
    match cursors[i]? with
    | none => (cursors, [])
    | some k => (cursors.set i k.next.2, [(i, k.next.1)])

/-- The cursors after some acts, and all that is written down. -/
def run (c : Chart) (cursors : List Cursor) : List Act → List Cursor × List (Nat × Option Tree)
  | [] => (cursors, [])
  | a :: acts =>
    let (after, first) := c.act cursors a
    let (final, rest) := c.run after acts
    (final, first ++ rest)

/-- The answers that are written down for one cursor. -/
def answersIn (i : Nat) (written : List (Nat × Option Tree)) : List (Option Tree) :=
  (written.filter (·.1 = i)).map (·.2)

/-- The answers of one cursor, when there is none at first. -/
def answersOf (c : Chart) (i : Nat) (acts : List Act) : List (Option Tree) :=
  answersIn i (c.run [] acts).2

-- ---------------------------------------------------------------------------
-- One act
-- ---------------------------------------------------------------------------

variable {c : Chart} {cursors : List Cursor}

theorem length_act (a : Act) :
    (c.act cursors a).1.length = cursors.length + [a].count .start := by
  cases a with
  | start => simp [act]
  | ask i =>
    have hcount : [Act.ask i].count .start = 0 := rfl
    rw [hcount, act]
    split
    · rfl
    · exact List.length_set

/-- An act leaves a cursor where it is, unless the cursor is asked. -/
theorem getElem?_act_of_ne {i : Nat} {k : Cursor} (hk : cursors[i]? = some k) {a : Act}
    (ha : a ≠ .ask i) : (c.act cursors a).1[i]? = some k ∧ answersIn i (c.act cursors a).2 = [] := by
  cases a with
  | start =>
    have hi : i < cursors.length := (List.getElem?_eq_some_iff.1 hk).1
    refine ⟨?_, rfl⟩
    rw [act, List.getElem?_append_left hi, hk]
  | ask j =>
    have hne : j ≠ i := fun heq => ha (heq ▸ rfl)
    rw [act]
    split
    · exact ⟨hk, rfl⟩
    · exact ⟨by rw [List.getElem?_set_ne hne, hk], by simp [answersIn, hne]⟩

/-- A cursor that is asked answers and moves on. -/
theorem act_ask {i : Nat} {k : Cursor} (hk : cursors[i]? = some k) :
    c.act cursors (.ask i) = (cursors.set i k.next.2, [(i, k.next.1)]) := by
  rw [act, hk]

/-- Only open cursors answer. -/
theorem lt_length_of_mem_act {a : Act} {entry : Nat × Option Tree}
    (h : entry ∈ (c.act cursors a).2) : entry.1 < cursors.length := by
  cases a with
  | start => cases h
  | ask i =>
    rw [act] at h
    split at h
    · cases h
    · next k hk =>
      rw [List.mem_singleton.1 h]
      exact (List.getElem?_eq_some_iff.1 hk).1

-- ---------------------------------------------------------------------------
-- All acts
-- ---------------------------------------------------------------------------

theorem answersIn_append (i : Nat) (ws ws' : List (Nat × Option Tree)) :
    answersIn i (ws ++ ws') = answersIn i ws ++ answersIn i ws' := by
  rw [answersIn, List.filter_append, List.map_append]
  rfl

theorem run_append (acts acts' : List Act) :
    (c.run cursors (acts ++ acts')).2 =
      (c.run cursors acts).2 ++ (c.run (c.run cursors acts).1 acts').2 := by
  induction acts generalizing cursors with
  | nil => rfl
  | cons a acts ih =>
    show (c.act cursors a).2 ++ (c.run (c.act cursors a).1 (acts ++ acts')).2 = _
    rw [ih, ← List.append_assoc]
    rfl

theorem length_run (acts : List Act) :
    (c.run cursors acts).1.length = cursors.length + acts.count .start := by
  induction acts generalizing cursors with
  | nil => rfl
  | cons a acts ih =>
    have hcount : (a :: acts).count .start = [a].count .start + acts.count .start := by
      rw [← List.count_append, List.singleton_append]
    show (c.run (c.act cursors a).1 acts).1.length = _
    rw [ih, length_act, hcount, Nat.add_assoc]

theorem lt_length_of_mem_run {acts : List Act} {entry : Nat × Option Tree}
    (h : entry ∈ (c.run cursors acts).2) : entry.1 < (c.run cursors acts).1.length := by
  induction acts generalizing cursors with
  | nil => cases h
  | cons a acts ih =>
    rcases List.mem_append.1 h with h | h
    · have hopen := lt_length_of_mem_act h
      rw [length_run]
      omega
    · exact ih h

/-- The answers of a cursor that is open are the trees to come, whatever is done to the
other cursors meanwhile. -/
theorem answersIn_run {i : Nat} {k : Cursor} (hk : cursors[i]? = some k) (acts : List Act) :
    answersIn i (c.run cursors acts).2 =
      (List.range (acts.count (.ask i))).map fun n => (k.after n).next.1 := by
  induction acts generalizing cursors k with
  | nil => rfl
  | cons a acts ih =>
    show answersIn i ((c.act cursors a).2 ++ (c.run (c.act cursors a).1 acts).2) = _
    rw [answersIn_append]
    by_cases ha : a = .ask i
    · subst ha
      have hi : i < cursors.length := (List.getElem?_eq_some_iff.1 hk).1
      have hnext : (cursors.set i k.next.2)[i]? = some k.next.2 := List.getElem?_set_self hi
      rw [act_ask hk, ih hnext, List.count_cons_self, List.range_succ_eq_map, List.map_cons,
        List.map_map]
      simp only [answersIn, List.filter_singleton, decide_true]
      rfl
    · obtain ⟨hk', hnone⟩ := getElem?_act_of_ne (c := c) hk ha
      rw [hnone, List.nil_append, ih hk', List.count_cons_of_ne ha]

/-- The cursor that is opened next reads the trees of the chart, however far the cursors
before it have been moved. -/
theorem answersOf_eq (c : Chart) (before after : List Act) :
    c.answersOf (before.count .start) (before ++ .start :: after) =
      (List.range (after.count (.ask (before.count .start)))).map (c.trees[·]?) := by
  set i := before.count .start with hi
  have hlength : (c.run [] before).1.length = i := by
    rw [length_run, hi, List.length_nil, Nat.zero_add]
  have hbefore : answersIn i (c.run [] before).2 = [] := by
    have hnone : (c.run [] before).2.filter (·.1 = i) = [] := by
      refine List.filter_eq_nil_iff.2 fun entry hentry heq => ?_
      have hopen := lt_length_of_mem_run hentry
      have hnumber := of_decide_eq_true heq
      omega
    rw [answersIn, hnone]
    rfl
  have hopened : ((c.run [] before).1 ++ [c.cursor])[i]? = some c.cursor := by
    rw [← hlength, List.getElem?_concat_length]
  rw [answersOf, run_append, answersIn_append, hbefore, List.nil_append]
  show answersIn i (c.run ((c.run [] before).1 ++ [c.cursor]) after).2 = _
  rw [answersIn_run hopened]
  exact List.map_congr_left fun n _ => c.next_after_cursor n

end Chart

namespace Grammar

/-- A new cursor answers with the expansion of the start symbol over the whole sentence,
tree by tree, and with nothing once that is used up. Root derivations without a tree make
no difference. With several cursors on the chart, opened and asked in any order, each one
reads the expansion from its start. -/
theorem readers_independent {g : Grammar} {tokens : List String} (h : tokens ≠ []) :
    ∃ c, Chart.ofTokens g tokens = .ok c ∧
      (∀ n, (c.cursor.after n).next.1 = (c.expand ⟨0, tokens.length⟩ g.start [])[n]?) ∧
      (∀ n, (c.expand ⟨0, tokens.length⟩ g.start []).length ≤ n →
        (c.cursor.after n).next.1 = none) ∧
      (∀ n, (c.cursor.after n).remaining = (c.expand ⟨0, tokens.length⟩ g.start []).drop n) ∧
      (∀ passed roots, (∀ d ∈ passed, c.expandDerivation ⟨0, tokens.length⟩ [g.start] d = []) →
        c.advance (passed ++ roots) = c.advance roots) ∧
      ∀ before after : List Act,
        c.answersOf (before.count .start) (before ++ .start :: after) =
          (List.range (after.count (.ask (before.count .start)))).map
            ((c.expand ⟨0, tokens.length⟩ g.start [])[·]?) := by
  obtain ⟨c, hc, rfl, rfl⟩ := Chart.exists_ofTokens g h
  refine ⟨c, hc, c.next_after_cursor, fun n hn => ?_, Cursor.remaining_after c.cursor,
    fun passed roots => (Cursor.advance_append_of_expand_eq_nil · roots), c.answersOf_eq⟩
  rw [c.next_after_cursor]
  exact List.getElem?_eq_none hn

/-- The productions of `detour`. -/
def detourProductions : List Production :=
  [⟨"S", [.terminal "x"]⟩, ⟨"S", [.nonterminal "A"]⟩, ⟨"S", [.nonterminal "B"]⟩,
   ⟨"A", [.nonterminal "S"]⟩, ⟨"B", [.nonterminal "C"]⟩, ⟨"C", [.terminal "x"]⟩]

/-- A grammar in which `x` has a tree, then a derivation that only runs in a circle, and then
another tree. -/
def detour : Grammar where
  start := "S"
  rules := .ofList detourProductions
  start_mem := by decide
  rhs_ne_nil := by decide
  closed := by
    have hall : ∀ p ∈ (RuleTable.ofList detourProductions).productions,
        ∀ b ∈ p.children, b ∈ (RuleTable.ofList detourProductions).names := by decide
    intro p hp b hb
    exact hall p hp b (Production.mem_children.2 hb)

theorem parse_detour :
    detour.parse ["x"] = .ok
      [.branch "S" [.leaf "x"], .branch "S" [.branch "B" [.branch "C" [.leaf "x"]]]] := by
  cbv

theorem readers_independent_detour :
    ["x"] ≠ [] ∧ ∃ c, Chart.ofTokens detour ["x"] = .ok c ∧
      c.roots.map (fun d => (c.expandDerivation c.whole ["S"] d).length) = [1, 0, 1] ∧
      c.answersOf 1 [.start, .ask 0, .ask 0, .start, .ask 1, .ask 0, .ask 1, .ask 1] =
        [some (.branch "S" [.leaf "x"]),
          some (.branch "S" [.branch "B" [.branch "C" [.leaf "x"]]]), none] := by
  have hne : ["x"] ≠ [] := by decide
  obtain ⟨c, hc, hread, -, -, -, hanswers⟩ := readers_independent (g := detour) hne
  have hroots : (Chart.ofTokens detour ["x"]).map (fun c =>
      c.roots.map fun d => (c.expandDerivation c.whole ["S"] d).length) = .ok [1, 0, 1] := by
    cbv
  rw [hc] at hroots
  have htrees : c.expand ⟨0, ["x"].length⟩ detour.start [] =
      [.branch "S" [.leaf "x"], .branch "S" [.branch "B" [.branch "C" [.leaf "x"]]]] := by
    have hparses := parses_of_parse_eq_ok hc parse_detour
    refine List.ext_getElem? fun n => ?_
    rw [← hread, c.next_after_cursor, ← c.parses_eq_trees, hparses]
  refine ⟨hne, c, hc, Except.ok.inj hroots, ?_⟩
  have h := hanswers [.start, .ask 0, .ask 0] [.ask 1, .ask 0, .ask 1, .ask 1]
  rw [htrees] at h
  exact h

end Grammar

end Constituency
