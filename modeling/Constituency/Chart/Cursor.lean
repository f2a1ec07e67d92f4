import Constituency.Chart.Expand

/-!
# Reading the trees one by one

A cursor walks through the trees of a chart without expanding them all at once:
it expands one root derivation when the trees of the one before it are used up.
A root derivation may have no tree at all, when all its continuations run in
circles; the cursor then goes on to the next one.

## Main declarations

* `Cursor`          — a position in the trees of a chart.
* `Chart.cursor`    — the position before the first tree.
* `Cursor.next`     — the next tree, if any, and the position after it.
-/

namespace Constituency

/-- A position in the trees of a chart. -/
structure Cursor where
  chart : Chart
  /-- The root derivations that are not yet expanded. -/
  roots : List Derivation
  /-- The trees of the last expanded root derivation that are still to come. -/
  pending : List Tree

/-- The position before the first tree. -/
def Chart.cursor (c : Chart) : Cursor :=
  ⟨c, c.roots, []⟩

/-- Expands root derivations up to the first one that has a tree. The answer is
that tree, if any, and the position after it. -/
def Chart.advance (c : Chart) : List Derivation → Option Tree × Cursor
  | [] => (none, ⟨c, [], []⟩)
  | d :: roots =>
    match c.expandDerivation c.whole [c.grammar.start] d with
    | [] => c.advance roots
    | t :: pending => (some t, ⟨c, roots, pending⟩)

namespace Cursor

/-- The next tree, if any, and the position after it. At the end there is no
next tree, and the position stays. -/
def next (k : Cursor) : Option Tree × Cursor :=
  match k.pending with
  | t :: pending => (some t, { k with pending })
  | [] => k.chart.advance k.roots

/-- The trees still to come. -/
def remaining (k : Cursor) : List Tree :=
  k.pending ++ k.roots.flatMap (k.chart.expandDerivation k.chart.whole [k.chart.grammar.start])

/-- Before the first tree, all trees of the chart are still to come. -/
theorem remaining_cursor (c : Chart) : c.cursor.remaining = c.trees := rfl

/-- The next tree is the first of those to come, and the others are still to come
after it. -/
theorem remaining_eq_next (k : Cursor) :
    k.remaining = k.next.1.toList ++ k.next.2.remaining := by
  have hadvance : ∀ (c : Chart) (ds : List Derivation),
      ds.flatMap (c.expandDerivation c.whole [c.grammar.start]) =
        (c.advance ds).1.toList ++ (c.advance ds).2.remaining := by
    intro c ds
    induction ds with
    | nil => rfl
    | cons d ds ih =>
      unfold Chart.advance
      rw [List.flatMap_cons]
      split
      · next h => rw [h, List.nil_append, ih]
      · next t pending h => simp [h, remaining]
  obtain ⟨c, roots, pending⟩ := k
  cases pending with
  | nil => exact hadvance c roots
  | cons t pending => rfl

end Cursor

end Constituency
