import Constituency.Chart.Cursor
import Constituency.Proofs.Answers

/-!
# Reading a cursor to its end

Asking a cursor again and again reads the trees that are still to come, each in
its place, and then nothing more: a cursor at its end stays there. So the trees
that a cursor yields, however late, are those that it has before it.

## Main results

* `next_after`               — what the cursor answers after `n` answers.
* `remaining_after`          — what is still to come after `n` answers.
* `yields_iff_mem_remaining` — what the cursor answers at some time.
-/

namespace Constituency.Cursor

/-- The cursor after `n` more answers. -/
def after (k : Cursor) : Nat → Cursor
  | 0 => k
  | n + 1 => k.next.2.after n

/-- Sooner or later the cursor answers with the tree. -/
def Yields (k : Cursor) (t : Tree) : Prop :=
  ∃ n, (k.after n).next.1 = some t

theorem advance_snd_of_fst_eq_none {c : Chart} {ds : List Derivation}
    (h : (c.advance ds).1 = none) : (c.advance ds).2.remaining = [] := by
  induction ds with
  | nil => rfl
  | cons d ds ih =>
    rw [Chart.advance] at h ⊢
    split at h
    · exact ih h
    · exact absurd h (Option.some_ne_none _)

/-- Without an answer, nothing is still to come. -/
theorem remaining_eq_nil_of_next_eq_none {k : Cursor} (h : k.next.1 = none) :
    k.next.2.remaining = [] := by
  rw [next] at h ⊢
  split at h
  · exact absurd h (Option.some_ne_none _)
  · exact advance_snd_of_fst_eq_none h

/-- The trees that a cursor has before it account for its answers. -/
theorem accounts : Accounts next remaining :=
  ⟨remaining_eq_next, fun _ => remaining_eq_nil_of_next_eq_none⟩

theorem after_eq_iterate (k : Cursor) (n : Nat) : k.after n = (fun k => k.next.2)^[n] k := by
  induction n generalizing k with
  | zero => rfl
  | succ n ih => exact ih k.next.2

/-- Every answer takes the first of the trees to come, as long as there is one. -/
theorem remaining_after (k : Cursor) (n : Nat) : (k.after n).remaining = k.remaining.drop n := by
  rw [after_eq_iterate, accounts.remaining_iterate]

/-- After `n` answers, the cursor answers with the `n`-th tree to come. -/
theorem next_after (k : Cursor) (n : Nat) : (k.after n).next.1 = k.remaining[n]? := by
  rw [after_eq_iterate, accounts.next_iterate]

/-- Root derivations that expand to nothing are passed over. -/
theorem advance_append_of_expand_eq_nil {c : Chart} {passed : List Derivation}
    (h : ∀ d ∈ passed, c.expandDerivation c.whole [c.grammar.start] d = [])
    (roots : List Derivation) : c.advance (passed ++ roots) = c.advance roots := by
  induction passed with
  | nil => rfl
  | cons d passed ih =>
    obtain ⟨hd, hpassed⟩ := List.forall_mem_cons.1 h
    rw [List.cons_append, Chart.advance, hd]
    exact ih hpassed

theorem yields_iff_mem_remaining {k : Cursor} {t : Tree} : k.Yields t ↔ t ∈ k.remaining := by
  simp only [Yields, next_after, List.mem_iff_getElem?]

/-- Reading a chart from its start gives its trees. -/
theorem yields_cursor_iff {c : Chart} {t : Tree} : c.cursor.Yields t ↔ t ∈ c.trees := by
  rw [yields_iff_mem_remaining, remaining_cursor]

end Constituency.Cursor
