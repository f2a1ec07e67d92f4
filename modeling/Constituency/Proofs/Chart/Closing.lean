import Constituency.Proofs.Answers
import Constituency.Proofs.Chart.Discovery

/-!
# Closing a cell step by step

A cell is made in two stages. The rules that are not unary come first, and what they give is
recorded derivation by derivation. Then the unary rules are applied to the phrase kinds of the
cell, and this adds to the cell while it is gone through. Here both stages are steps of one
*draft*: the derivations found so far, with an agenda of the kinds that are still to be
visited. A derivation is recorded unless it is there already. If it is the first one of its
kind, the kind comes onto the agenda. A visit takes the first kind off the agenda and records
the unary rules over it.

A draft thus decides by its cell alone what is new, and nothing but the agenda tells when to
stop. Still, what will be visited can be said from the start, in any draft: it is the closure
of the agenda, where the kinds of the cell are known. Each visit takes the first kind of this
list and leaves the others (`remaining_eq_next`). So the visits come to an end, even where
unary rules run in circles, and no kind has two of them.

It follows that a draft repeats nothing. A unary derivation names the kind that it was found
over, and that kind is not visited again. So every visit puts its derivations behind all
others, and the last draft is the cell that the chart stores.

## Main declarations

* `Draft`, `Draft.record`, `Draft.next` — a draft, and what changes it.
* `Draft.remaining`, `Draft.next_after` — the kinds to be visited, and that they are.
* `Draft.cell_after`                    — the derivations after some visits.
* `Draft.close`                         — visits until nothing is on the agenda.
* `Grammar.draft`                       — the draft that the first stage leaves.
* `draft_visits_once`                   — the second stage, from there to the finished cell.
-/

namespace Constituency

/-- A cell that is being filled. -/
structure Draft where
  /-- The derivations found so far. -/
  cell : Cell
  /-- The phrase kinds that are still to be visited, first come first served. -/
  agenda : List String

namespace Draft

/-- The draft in which nothing is found yet. -/
def empty : Draft :=
  ⟨[], []⟩

/-- Records a derivation, unless it is there already. The first derivation of a phrase kind
puts the kind at the end of the agenda. -/
def record (w : Draft) (d : Derivation) : Draft where
  cell := if d ∈ w.cell then w.cell else w.cell ++ [d]
  agenda := if w.cell.has d.symbol then w.agenda else w.agenda ++ [d.symbol]

/-- Records derivations one after the other. -/
def recordAll (w : Draft) (ds : List Derivation) : Draft :=
  ds.foldl record w

/-- The kind that comes first on the agenda, if any, and the draft after the visit to it: the
kind is taken off, and the unary rules over it are recorded. -/
def next (g : Grammar) (s : Span) (w : Draft) : Option String × Draft :=
  match w.agenda with
  | [] => (none, w)
  | child :: rest => (some child, (⟨w.cell, rest⟩ : Draft).recordAll (g.unaryDerivations s child))

/-- The draft after `n` more visits. -/
def after (g : Grammar) (s : Span) (w : Draft) (n : Nat) : Draft :=
  (fun w => (w.next g s).2)^[n] w

/-- The kinds that are still to be visited, those included that are yet to be found. -/
def remaining (g : Grammar) (w : Draft) : List String :=
  g.unaryVisits w.cell.symbols w.agenda

variable {g : Grammar} {s : Span} {w : Draft} {ds : List Derivation}

-- ---------------------------------------------------------------------------
-- Recording
-- ---------------------------------------------------------------------------

/-- The kinds that derivations add to those of the draft. -/
def fresh (w : Draft) (ds : List Derivation) : List String :=
  ((ds.map Derivation.symbol).removeAll w.cell.symbols).eraseDups

theorem recordAll_append (w : Draft) (ds es : List Derivation) :
    w.recordAll (ds ++ es) = (w.recordAll ds).recordAll es :=
  List.foldl_append

theorem symbols_record (w : Draft) (d : Derivation) :
    (w.record d).cell.symbols =
      w.cell.symbols ++ if d.symbol ∈ w.cell.symbols then [] else [d.symbol] := by
  by_cases hd : d ∈ w.cell
  · have hsymbol : d.symbol ∈ w.cell.symbols := Cell.mem_symbols.2 ⟨d, hd, rfl⟩
    rw [record, if_pos hd, if_pos hsymbol, List.append_nil]
  · have hmem : d.symbol ∈ w.cell.map Derivation.symbol ↔ d.symbol ∈ w.cell.symbols :=
      List.mem_eraseDups.symm
    rw [record, if_neg hd, Cell.symbols, List.map_append, List.map_singleton, eraseDups_concat]
    simp only [hmem]
    split
    · exact (List.append_nil _).symm
    · rfl

/-- The agenda grows by the same kinds as the cell. -/
theorem agenda_record (w : Draft) (d : Derivation) :
    (w.record d).agenda = w.agenda ++ if d.symbol ∈ w.cell.symbols then [] else [d.symbol] := by
  simp only [record, Cell.has_iff]
  split
  · exact (List.append_nil _).symm
  · rfl

theorem fresh_cons (w : Draft) (d : Derivation) (ds : List Derivation) :
    w.fresh (d :: ds) =
      (if d.symbol ∈ w.cell.symbols then [] else [d.symbol]) ++ (w.record d).fresh ds := by
  rw [fresh, fresh, symbols_record, List.map_cons, eraseDups_removeAll_cons]
  split
  · rw [List.append_nil, List.nil_append]
  · rfl

theorem symbols_recordAll (w : Draft) (ds : List Derivation) :
    (w.recordAll ds).cell.symbols = w.cell.symbols ++ w.fresh ds := by
  induction ds generalizing w with
  | nil => exact (List.append_nil _).symm
  | cons d ds ih =>
    rw [recordAll, List.foldl_cons, ← recordAll, ih, symbols_record, fresh_cons, List.append_assoc]

theorem agenda_recordAll (w : Draft) (ds : List Derivation) :
    (w.recordAll ds).agenda = w.agenda ++ w.fresh ds := by
  induction ds generalizing w with
  | nil => exact (List.append_nil _).symm
  | cons d ds ih =>
    rw [recordAll, List.foldl_cons, ← recordAll, ih, agenda_record, fresh_cons, List.append_assoc]

/-- Derivations that are new and different from each other come behind the others. -/
theorem cell_recordAll (h : (w.cell ++ ds).Nodup) : (w.recordAll ds).cell = w.cell ++ ds := by
  induction ds generalizing w with
  | nil => exact (List.append_nil _).symm
  | cons d ds ih =>
    have hd : d ∉ w.cell := fun hmem =>
      (List.nodup_append.1 h).2.2 d hmem d List.mem_cons_self rfl
    have hrecord : (w.record d).cell = w.cell ++ [d] := if_neg hd
    have hassoc : w.cell ++ d :: ds = (w.record d).cell ++ ds := by
      rw [hrecord, List.append_assoc, List.singleton_append]
    rw [hassoc] at h ⊢
    exact ih h

-- ---------------------------------------------------------------------------
-- Visits
-- ---------------------------------------------------------------------------

theorem fresh_unaryDerivations (w : Draft) (child : String) :
    w.fresh (g.unaryDerivations s child) = g.freshParents w.cell.symbols child := by
  rw [fresh, Grammar.map_symbol_unaryDerivations]
  rfl

/-- A visit is to the first of the kinds to be visited, and leaves the others. -/
theorem remaining_eq_next (w : Draft) :
    w.remaining g = (w.next g s).1.toList ++ (w.next g s).2.remaining g := by
  obtain ⟨cell, agenda⟩ := w
  cases agenda with
  | nil => simp [remaining, next, Grammar.unaryVisits]
  | cons child rest =>
    rw [remaining, Grammar.unaryVisits, next, remaining, symbols_recordAll, agenda_recordAll,
      fresh_unaryDerivations]
    rfl

/-- The kinds to be visited account for the visits. -/
theorem accounts : Accounts (next g s) (remaining g) := by
  refine ⟨remaining_eq_next, fun w h => ?_⟩
  obtain ⟨cell, agenda⟩ := w
  cases agenda with
  | nil => rw [next, remaining, Grammar.unaryVisits]
  | cons child rest => cases h

/-- After `n` visits comes the visit to the `n`-th of the kinds to be visited. -/
theorem next_after (w : Draft) (n : Nat) : ((w.after g s n).next g s).1 = (w.remaining g)[n]? :=
  accounts.next_iterate w n

theorem remaining_after (w : Draft) (n : Nat) :
    (w.after g s n).remaining g = (w.remaining g).drop n :=
  accounts.remaining_iterate w n

theorem agenda_eq_nil_of_remaining_eq_nil (h : w.remaining g = []) : w.agenda = [] := by
  obtain ⟨cell, agenda⟩ := w
  cases agenda with
  | nil => rfl
  | cons child rest =>
    rw [remaining, Grammar.unaryVisits] at h
    cases h

/-- If no derivation is found twice, a visit adds its derivations behind the others. -/
theorem cell_next (h : (w.cell ++ (w.remaining g).flatMap (g.unaryDerivations s)).Nodup) :
    (w.next g s).2.cell = w.cell ++ (w.next g s).1.toList.flatMap (g.unaryDerivations s) := by
  obtain ⟨cell, agenda⟩ := w
  cases agenda with
  | nil => exact (List.append_nil _).symm
  | cons child rest =>
    have hnodup : (cell ++ g.unaryDerivations s child).Nodup := by
      rw [remaining, Grammar.unaryVisits, List.flatMap_cons, ← List.append_assoc] at h
      exact (List.nodup_append.1 h).1
    show (recordAll ⟨cell, rest⟩ (g.unaryDerivations s child)).cell = _
    rw [cell_recordAll hnodup]
    exact congrArg (cell ++ ·) (List.flatMap_singleton _ _).symm

/-- If no derivation is found twice, `n` visits add the derivations over the first `n` of the
kinds to be visited. -/
theorem cell_after (h : (w.cell ++ (w.remaining g).flatMap (g.unaryDerivations s)).Nodup)
    (n : Nat) :
    (w.after g s n).cell = w.cell ++ ((w.remaining g).take n).flatMap (g.unaryDerivations s) := by
  induction n generalizing w with
  | zero => exact (List.append_nil _).symm
  | succ n ih =>
    have hafter : w.after g s (n + 1) = (w.next g s).2.after g s n :=
      Function.iterate_succ_apply _ n w
    have hcell := cell_next h
    rw [w.remaining_eq_next (s := s)] at h ⊢
    rw [List.flatMap_append, ← List.append_assoc, ← hcell] at h
    rw [hafter, ih h, hcell, List.append_assoc, ← List.flatMap_append]
    cases hnext : (w.next g s).1 with
    | none =>
      rw [accounts.stop w hnext, List.take_nil]
      rfl
    | some child => rfl

/-- Visits kinds until there is none on the agenda. -/
def close (g : Grammar) (s : Span) (w : Draft) : Draft :=
  match _h : w.next g s with
  | (none, last) => last
  | (some _, rest) => rest.close g s
termination_by (w.remaining g).length
decreasing_by
  have hremaining := w.remaining_eq_next (g := g) (s := s)
  rw [_h] at hremaining
  rw [hremaining]
  exact Nat.lt_succ_self _

/-- The last draft is the one after all visits. -/
theorem close_eq_after (w : Draft) : w.close g s = w.after g s (w.remaining g).length := by
  fun_induction close g s w with
  | case1 w last h =>
    obtain ⟨cell, agenda⟩ := w
    cases agenda with
    | nil =>
      obtain rfl : ⟨cell, []⟩ = last := (Prod.mk.inj h).2
      rw [remaining, Grammar.unaryVisits]
      rfl
    | cons child rest => cases h
  | case2 w child rest h ih =>
    have hremaining := w.remaining_eq_next (g := g) (s := s)
    rw [h] at hremaining
    rw [ih, hremaining]
    show _ = (fun w => (w.next g s).2)^[(rest.remaining g).length + 1] w
    rw [Function.iterate_succ_apply, h]
    rfl

end Draft

namespace Grammar

variable {g : Grammar} {tokens : List String} {cells : Span → Cell} {s : Span}

-- ---------------------------------------------------------------------------
-- From the rules that are not unary to the finished cell
-- ---------------------------------------------------------------------------

/-- The draft after the rules that are not unary: all their derivations are recorded, and none
of their kinds is visited yet. -/
def draft (g : Grammar) (tokens : List String) (cells : Span → Cell) (s : Span) : Draft :=
  Draft.empty.recordAll (g.splitCell tokens cells s)

theorem cell_draft : (g.draft tokens cells s).cell = g.splitCell tokens cells s :=
  Draft.cell_recordAll (splitCell_nodup s)

theorem agenda_draft :
    (g.draft tokens cells s).agenda = (g.splitCell tokens cells s).symbols := by
  rw [← cell_draft, draft, Draft.agenda_recordAll, Draft.symbols_recordAll]
  rfl

/-- What is visited is the finished cell, kind by kind. -/
theorem remaining_draft :
    (g.draft tokens cells s).remaining g = (g.cellOver tokens cells s).symbols := by
  rw [Draft.remaining, cell_draft, agenda_draft, symbols_cellOver]
  rfl

theorem cell_append_remaining_draft :
    (g.draft tokens cells s).cell ++
      ((g.draft tokens cells s).remaining g).flatMap (g.unaryDerivations s) =
        g.cellOver tokens cells s := by
  rw [Draft.remaining, cell_draft, agenda_draft]
  rfl

/-- After a visit to each kind, the draft is the finished cell, and nothing is on the agenda. -/
theorem after_draft :
    (g.draft tokens cells s).after g s (g.cellOver tokens cells s).symbols.length =
      ⟨g.cellOver tokens cells s, []⟩ := by
  have hnodup : (g.cellOver tokens cells s).Nodup := cellOver_nodup s
  rw [← cell_append_remaining_draft] at hnodup
  rw [← remaining_draft]
  have hcell := Draft.cell_after hnodup ((g.draft tokens cells s).remaining g).length
  rw [List.take_length, cell_append_remaining_draft] at hcell
  have hremaining := (g.draft tokens cells s).remaining_after (g := g) (s := s)
    ((g.draft tokens cells s).remaining g).length
  rw [List.drop_length] at hremaining
  have hagenda := Draft.agenda_eq_nil_of_remaining_eq_nil hremaining
  rw [← hcell, ← hagenda]

/-- Closing the draft gives the cell that the chart stores. -/
theorem close_draft : (g.draft tokens cells s).close g s = ⟨g.cellOver tokens cells s, []⟩ := by
  rw [Draft.close_eq_after, remaining_draft, after_draft]

/-- The derivations by rules that are not unary stay in front. -/
theorem derivationsOf_draft_prefix (a : String) :
    (g.draft tokens cells s).cell.derivationsOf a <+:
      (g.cellOver tokens cells s).derivationsOf a := by
  rw [cell_draft, Cell.derivationsOf, Cell.derivationsOf, cellOver, List.filter_append]
  exact List.prefix_append _ _

/-- Each unary rule over a kind of the cell is there once. -/
theorem count_unary_eq_one {p : Production} (hp : p ∈ g.productions) {b : String}
    (hrhs : p.rhs = [.nonterminal b]) (hb : b ∈ (g.cellOver tokens cells s).symbols) :
    ((g.cellOver tokens cells s).derivationsOf p.lhs).count ⟨p, [.node s b]⟩ = 1 := by
  have hmem : (⟨p, [.node s b]⟩ : Derivation) ∈ g.cellOver tokens cells s :=
    mem_cellOver_iff.2 (Or.inr
      ⟨b, mem_symbols_cellOver_iff.1 hb, mem_unaryParents.2 ⟨hp, hrhs⟩, rfl⟩)
  have hnodup : ((g.cellOver tokens cells s).derivationsOf p.lhs).Nodup :=
    (cellOver_nodup s).filter _
  exact List.count_eq_one_of_mem hnodup (Cell.mem_derivationsOf.2 ⟨hmem, rfl⟩)

/-- Closing a cell visits every phrase kind that the finished cell builds, each once, and no
other kind. Then it is at its end, and the draft is the finished cell. The derivations that
were there before the first visit stay in front for each kind. And every unary rule over a
kind of the cell has been recorded, exactly once. -/
theorem draft_visits_once (g : Grammar) (tokens : List String) (cells : Span → Cell) (s : Span) :
    ∃ visited : List String,
      (∀ n, (((g.draft tokens cells s).after g s n).next g s).1 = visited[n]?) ∧
      (g.draft tokens cells s).after g s visited.length = ⟨g.cellOver tokens cells s, []⟩ ∧
      visited.Nodup ∧
      (∀ a, a ∈ visited ↔ (g.cellOver tokens cells s).derivationsOf a ≠ []) ∧
      (∀ a, (g.draft tokens cells s).cell.derivationsOf a <+:
        (g.cellOver tokens cells s).derivationsOf a) ∧
      ∀ p ∈ g.productions, ∀ b, p.rhs = [.nonterminal b] →
        (g.cellOver tokens cells s).derivationsOf b ≠ [] →
          ((g.cellOver tokens cells s).derivationsOf p.lhs).count ⟨p, [.node s b]⟩ = 1 := by
  refine ⟨(g.cellOver tokens cells s).symbols, fun n => ?_, after_draft, nodup_eraseDups _,
    fun a => Cell.derivationsOf_ne_nil_iff.symm, derivationsOf_draft_prefix, ?_⟩
  · rw [Draft.next_after, remaining_draft]
  · intro p hp b hrhs hb
    exact count_unary_eq_one hp hrhs (Cell.derivationsOf_ne_nil_iff.1 hb)

end Grammar

end Constituency
