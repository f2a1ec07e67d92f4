import Constituency.Proofs.Failure
import Constituency.Proofs.Source.Token
import Constituency.Source.Rule

/-!
# Alternatives and their tokens

Behind the arrow of a rule every symbol is written as one token, and a bar stands between
two alternatives. `barred` writes a row of alternatives in this way. Splitting at the bars
gives the alternatives back, whatever they are: an empty one is a piece without tokens,
whether it stands first, last or between two bars.

So tokens without an arrow spell one row of alternatives, with one more alternative than
there are bars. With an arrow among them they spell none, and the arrow is reported. A bar
cannot be reported, since a piece between bars holds none.

## Main declarations

* `Symbol.token`, `barred`      — how symbols and alternatives are written.
* `alternativesOf_eq_ok_iff`    — the alternatives that tokens spell are those they write.
* `alternativesOf_eq_error_iff` — only an arrow keeps tokens from spelling alternatives.
-/

namespace Constituency

/-- The token that writes a symbol. -/
def Symbol.token : Symbol → Source.Token
  | .terminal w => .word w
  | .nonterminal a => .name a

theorem Symbol.token_ne_bar (s : Symbol) : s.token ≠ .bar := by
  cases s <;> exact nofun

theorem Symbol.token_ne_arrow (s : Symbol) : s.token ≠ .arrow := by
  cases s <;> exact nofun

namespace Source

/-- The tokens that write alternatives, with a bar between two of them. -/
def barred (alternatives : List (List Symbol)) : List Token :=
  [Token.bar].intercalate (alternatives.map (·.map Symbol.token))

-- ---------------------------------------------------------------------------
-- Cutting a list
-- ---------------------------------------------------------------------------

variable {α : Type} [BEq α] [LawfulBEq α]

theorem flatten_splitOn (x : α) (xs : List α) : (xs.splitOn x).flatten = xs.filter (· != x) := by
  induction xs with
  | nil => rfl
  | cons y ys ih =>
    obtain ⟨piece, pieces, hpieces⟩ := List.exists_cons_of_ne_nil (List.splitOn_ne_nil x ys)
    rw [List.splitOn_cons_eq_if_modifyHead, List.filter_cons, ← ih, hpieces]
    by_cases hy : y = x <;> simp [hy]

theorem length_splitOn (x : α) (xs : List α) : (xs.splitOn x).length = xs.count x + 1 := by
  induction xs with
  | nil => rfl
  | cons y ys ih =>
    rw [List.splitOn_cons_eq_if_modifyHead, List.count_cons]
    by_cases hy : y = x <;> simp [hy, ih]

theorem mem_of_mem_splitOn {x a : α} {xs piece : List α} (hpiece : piece ∈ xs.splitOn x)
    (ha : a ∈ piece) : a ∈ xs ∧ a ≠ x := by
  have hmem : a ∈ xs.filter (· != x) := by
    rw [← flatten_splitOn]
    exact List.mem_flatten.2 ⟨piece, hpiece, ha⟩
  simpa using hmem

-- ---------------------------------------------------------------------------
-- Alternatives
-- ---------------------------------------------------------------------------

theorem symbolOf_eq_ok_iff {t : Token} {s : Symbol} : symbolOf t = .ok s ↔ t = s.token := by
  cases t <;> cases s <;> simp [symbolOf, Symbol.token]

theorem alternativeOf_eq_ok_iff {ts : List Token} {rhs : List Symbol} :
    alternativeOf ts = .ok rhs ↔ ts = rhs.map Symbol.token :=
  mapM_eq_ok_iff_eq_map symbolOf_eq_ok_iff

/-- The pieces between the bars are the alternatives. -/
theorem alternativesOf_eq_ok_iff_splitOn {ts : List Token} {alternatives : List (List Symbol)} :
    alternativesOf ts = .ok alternatives ↔
      ts.splitOn .bar = alternatives.map (·.map Symbol.token) :=
  mapM_eq_ok_iff_eq_map alternativeOf_eq_ok_iff

theorem bar_not_mem_map_token (rhs : List Symbol) : Token.bar ∉ rhs.map Symbol.token := by
  intro hmem
  obtain ⟨s, -, hs⟩ := List.mem_map.1 hmem
  exact s.token_ne_bar hs

/-- The alternatives that tokens spell are those they write. -/
theorem alternativesOf_eq_ok_iff {ts : List Token} {alternatives : List (List Symbol)} :
    alternativesOf ts = .ok alternatives ↔ alternatives ≠ [] ∧ ts = barred alternatives := by
  rw [alternativesOf_eq_ok_iff_splitOn]
  constructor
  · intro h
    refine ⟨?_, ?_⟩
    · rintro rfl
      exact List.splitOn_ne_nil _ _ h
    · rw [barred, ← h, List.intercalate_splitOn]
  · rintro ⟨hne, rfl⟩
    refine List.splitOn_intercalate _ ?_ fun hnil => hne (List.map_eq_nil_iff.1 hnil)
    exact List.forall_mem_map.2 fun rhs _ => bar_not_mem_map_token rhs

theorem alternativesOf_map_token (rhs : List Symbol) :
    alternativesOf (rhs.map Symbol.token) = .ok [rhs] :=
  alternativesOf_eq_ok_iff_splitOn.2 (List.splitOn_eq_singleton (bar_not_mem_map_token rhs))

theorem length_alternativesOf {ts : List Token} {alternatives : List (List Symbol)}
    (h : alternativesOf ts = .ok alternatives) : alternatives.length = ts.count .bar + 1 := by
  rw [← length_splitOn, alternativesOf_eq_ok_iff_splitOn.1 h, List.length_map]

/-- A bar ends the alternatives before it and begins those behind it. -/
theorem alternativesOf_append_bar {ts us : List Token} {front back : List (List Symbol)}
    (hts : alternativesOf ts = .ok front) (hus : alternativesOf us = .ok back) :
    alternativesOf (ts ++ .bar :: us) = .ok (front ++ back) := by
  rw [alternativesOf_eq_ok_iff_splitOn] at hts hus ⊢
  rw [List.splitOn_append_cons_self, hts, hus, List.map_append]

/-- The symbols of the alternatives are written by the tokens. -/
theorem token_mem_of_alternativesOf {ts : List Token} {alternatives : List (List Symbol)}
    (h : alternativesOf ts = .ok alternatives) {rhs : List Symbol} (hrhs : rhs ∈ alternatives)
    {s : Symbol} (hs : s ∈ rhs) : s.token ∈ ts := by
  have hpiece : rhs.map Symbol.token ∈ ts.splitOn .bar := by
    rw [alternativesOf_eq_ok_iff_splitOn.1 h]
    exact List.mem_map_of_mem hrhs
  exact (mem_of_mem_splitOn hpiece (List.mem_map_of_mem hs)).1

/-- Tokens that spell alternatives hold no arrow. -/
theorem arrow_not_mem_of_alternativesOf {ts : List Token} {alternatives : List (List Symbol)}
    (h : alternativesOf ts = .ok alternatives) : Token.arrow ∉ ts := by
  intro harrow
  have hmem : Token.arrow ∈ (ts.splitOn .bar).flatten := by
    rw [flatten_splitOn]
    exact List.mem_filter.2 ⟨harrow, rfl⟩
  rw [alternativesOf_eq_ok_iff_splitOn.1 h, ← List.map_flatten] at hmem
  obtain ⟨s, -, hs⟩ := List.mem_map.1 hmem
  exact s.token_ne_arrow hs

/-- Only an arrow keeps tokens from spelling alternatives. -/
theorem alternativesOf_eq_error_iff {ts : List Token} {e : RuleError} :
    alternativesOf ts = .error e ↔ e = .unexpectedArrow ∧ .arrow ∈ ts := by
  have hreported {e : RuleError} (h : alternativesOf ts = .error e) :
      e = .unexpectedArrow ∧ .arrow ∈ ts := by
    obtain ⟨piece, hpiece, he⟩ := exists_mem_of_mapM_eq_error h
    obtain ⟨t, ht, he⟩ := exists_mem_of_mapM_eq_error he
    obtain ⟨hmem, hbar⟩ := mem_of_mem_splitOn hpiece ht
    cases t with
    | arrow => exact ⟨(Except.error.inj he).symm, hmem⟩
    | bar => exact absurd rfl hbar
    | name a => cases he
    | word w => cases he
  constructor
  · exact hreported
  · rintro ⟨rfl, harrow⟩
    cases h : alternativesOf ts with
    | error e' => rw [(hreported h).1]
    | ok alternatives => exact absurd harrow (arrow_not_mem_of_alternativesOf h)

end Source

end Constituency
