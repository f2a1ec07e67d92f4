/-!
# Ranges of code points

A property of characters is given by the ranges of code points that have it, in
ascending order. A look-up goes through the ranges from below and stops at the
first one that begins beyond the code point.
-/

namespace Constituency.Unicode

/-- The code points from `first` to `last`, both included. -/
structure CodeRange where
  /-- The lowest code point. -/
  first : Nat
  /-- The highest code point. -/
  last : Nat
deriving DecidableEq, Repr

/-- Whether one of the ascending ranges holds the code point. -/
def covers : List CodeRange → Nat → Bool
  | [], _ => false
  | r :: rest, n => if n < r.first then false else n ≤ r.last || covers rest n

/-- A code point that is covered lies in one of the ranges. -/
theorem exists_mem_of_covers {rs : List CodeRange} {n : Nat} (h : covers rs n = true) :
    ∃ r ∈ rs, r.first ≤ n ∧ n ≤ r.last := by
  induction rs with
  | nil => simp [covers] at h
  | cons r rest ih =>
    unfold covers at h
    split at h
    · simp at h
    · next hfirst =>
      rcases Bool.or_eq_true_iff.1 h with hlast | hrest
      · exact ⟨r, List.mem_cons_self, Nat.le_of_not_lt hfirst, of_decide_eq_true hlast⟩
      · obtain ⟨q, hq, hn⟩ := ih hrest
        exact ⟨q, List.mem_cons_of_mem _ hq, hn⟩

end Constituency.Unicode
