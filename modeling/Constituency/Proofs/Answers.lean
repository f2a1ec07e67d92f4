import Mathlib.Logic.Function.Iterate

/-!
# Answers one by one

Something that can be asked for the next element of a list has a state and, in every state,
an account of what is still to come. If a single answer is always the first element of the
account and leaves the others, and if there is no answer only where nothing is to come, then
asking again and again reads the list: each element in its place, and then nothing more.

## Main declarations

* `Accounts`                   — the account is right about a single answer.
* `Accounts.remaining_iterate` — what is to come after `n` answers.
* `Accounts.next_iterate`      — what is answered after `n` answers.
-/

namespace Constituency

/-- One answer is right: it is the first of what is to come and leaves the others, and
without one nothing is left. -/
structure Accounts {σ α : Type} (next : σ → Option α × σ) (remaining : σ → List α) : Prop where
  step : ∀ s, remaining s = (next s).1.toList ++ remaining (next s).2
  stop : ∀ s, (next s).1 = none → remaining (next s).2 = []

namespace Accounts

variable {σ α : Type} {next : σ → Option α × σ} {remaining : σ → List α}

theorem next_fst (h : Accounts next remaining) (s : σ) : (next s).1 = (remaining s).head? := by
  rw [h.step s]
  cases hnext : (next s).1 with
  | none =>
    rw [h.stop s hnext]
    rfl
  | some a => rfl

/-- Every answer takes the first of what is to come, as long as there is something. -/
theorem remaining_iterate (h : Accounts next remaining) (s : σ) (n : Nat) :
    remaining ((fun s => (next s).2)^[n] s) = (remaining s).drop n := by
  induction n generalizing s with
  | zero => rfl
  | succ n ih =>
    rw [Function.iterate_succ_apply, ih, h.step s]
    cases hnext : (next s).1 with
    | none =>
      rw [h.stop s hnext, List.drop_nil]
      rfl
    | some a => rfl

/-- After `n` answers comes the `n`-th element. -/
theorem next_iterate (h : Accounts next remaining) (s : σ) (n : Nat) :
    (next ((fun s => (next s).2)^[n] s)).1 = (remaining s)[n]? := by
  rw [h.next_fst, h.remaining_iterate, List.head?_drop]

end Accounts

end Constituency
