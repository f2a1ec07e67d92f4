import Constituency.Proofs.Chart.Closing
import Constituency.Proofs.Failure

/-!
# Filling a cell with checks

A list is looked up past its end without complaint, a difference of numbers stops at zero,
and two lists are paired up as far as the shorter one goes. So the definitions that fill a
chart give an answer whether or not each of these steps makes sense. Here a cell is filled
once more, rule by rule, by steps that can fail: each says what it needs, and ends the work
with a *fault* if it does not have it. Above all there is a single table for the cells of all
spans, finished or not. A place for a cell can be missing, and the cell that is being filled
must not be looked at.

Over a span of the sentence there is no fault, and the cell is the one that the chart has
(`cellOver_eq_ok`). All that is asked of the table is that the cells of the shorter spans are
in place. The reasons lie in three other places. A grammar has no rule with nothing on its
right; a rule with one symbol there is lexical or unary, and is not tried on splits; and the
splits into several parts are tilings by shorter spans.

## Main declarations

* `Fault`                      — what can be wrong with a step.
* `Table`                      — a square of cells.
* `Checked.tryRule`            — one rule, with checks.
* `Checked.cellOver`           — the cell of a span, with checks.
* `cellOver_eq_ok`             — there is no fault, and the cell is that of the chart.
-/

namespace Constituency

/-- What can be wrong while a chart is filled and its trees are made. -/
inductive Fault where
  /-- A number is to be made smaller by a greater one. -/
  | difference (a b : Nat)
  /-- There is no word at the position. -/
  | word (position : Nat)
  /-- There is no place for the cell of the span. -/
  | cell (s : Span)
  /-- The cell of a span is looked at while it is being filled. -/
  | unfinished (s : Span)
  /-- A span is to be cut into fewer than two parts or into more than it has words, or there
  is no way to do so. -/
  | parts (s : Span) (count : Nat)
  /-- Symbols are to be found over spans that are fewer or more than the symbols, or of which
  one is none of the sentence. -/
  | pairing (rhs : List Symbol) (spans : List Span)
  /-- A part over another span than its derivation is not shorter. -/
  | length (s u : Span)
deriving DecidableEq, Repr

/-- A square of cells: a row for every position where a span can start, and in each row a cell
for every position where it can stop. -/
structure Table (n : Nat) where
  rows : Vector (Vector Cell (n + 1)) (n + 1)

-- ---------------------------------------------------------------------------
-- The table
-- ---------------------------------------------------------------------------

namespace Table

variable {n : Nat}

/-- The table of empty cells. -/
def empty (n : Nat) : Table n :=
  ⟨.replicate (n + 1) (.replicate (n + 1) [])⟩

/-- The cell of a span. -/
def read (t : Table n) (s : Span) : Except Fault Cell :=
  if h : s.start < n + 1 ∧ s.stop < n + 1 then
    have := h.1
    have := h.2
    .ok t.rows[s.start][s.stop]
  else .error (.cell s)

/-- Puts a cell into the place of a span. -/
def write (t : Table n) (s : Span) (cell : Cell) : Except Fault (Table n) :=
  if h : s.start < n + 1 ∧ s.stop < n + 1 then
    have := h.1
    have := h.2
    .ok ⟨t.rows.set s.start (t.rows[s.start].set s.stop cell)⟩
  else .error (.cell s)

theorem read_empty {s : Span} (hstart : s.start ≤ n) (hstop : s.stop ≤ n) :
    (empty n).read s = .ok [] := by
  rw [read, dif_pos ⟨Nat.lt_succ_of_le hstart, Nat.lt_succ_of_le hstop⟩]
  simp [empty]

theorem exists_write_eq_ok (t : Table n) {s : Span} (hstart : s.start ≤ n) (hstop : s.stop ≤ n)
    (cell : Cell) :
    ∃ t', t.write s cell = .ok t' ∧
      ∀ u, t'.read u = if u = s then .ok cell else t.read u := by
  have h : s.start < n + 1 ∧ s.stop < n + 1 := ⟨Nat.lt_succ_of_le hstart, Nat.lt_succ_of_le hstop⟩
  refine ⟨_, dif_pos h, fun u => ?_⟩
  by_cases hu : u.start < n + 1 ∧ u.stop < n + 1
  · rw [read, read, dif_pos hu, dif_pos hu]
    obtain ⟨i, j⟩ := s
    obtain ⟨k, l⟩ := u
    by_cases hi : i = k
    · by_cases hj : j = l
      · subst hi hj
        simp
      · subst hi
        simp [hj, Ne.symm hj]
    · simp [hi, Ne.symm hi]
  · have hne : u ≠ s := by
      rintro rfl
      exact hu h
    rw [read, read, dif_neg hu, dif_neg hu, if_neg hne]

/-- The other cells stay as they are. -/
theorem read_of_write_eq_ok {t t' : Table n} {s u : Span} {cell : Cell}
    (h : t.write s cell = .ok t') (hu : u ≠ s) : t'.read u = t.read u := by
  have hs : s.start < n + 1 ∧ s.stop < n + 1 := by
    by_contra hs
    rw [write, dif_neg hs] at h
    cases h
  obtain ⟨t'', ht'', hread⟩ :=
    t.exists_write_eq_ok (Nat.le_of_lt_succ hs.1) (Nat.le_of_lt_succ hs.2) cell
  obtain rfl : t'' = t' := Except.ok.inj (ht''.symm.trans h)
  rw [hread, if_neg hu]

end Table

-- ---------------------------------------------------------------------------
-- Steps with checks
-- ---------------------------------------------------------------------------

namespace Checked

variable {g : Grammar} {tokens : List String} {cells : Span → Cell}

/-- Subtracts, unless the result would be negative. -/
def difference (a b : Nat) : Except Fault Nat :=
  if b ≤ a then .ok (a - b) else .error (.difference a b)

/-- The word at a position, if there is one. -/
def wordAt (tokens : List String) (i : Nat) : Except Fault String :=
  match tokens[i]? with
  | some w => .ok w
  | none => .error (.word i)

/-- Cuts a span, if it is to be cut into several parts and has the words for them. -/
def splits (s : Span) (parts : Nat) : Except Fault (List (List Span)) :=
  if 2 ≤ parts ∧ parts ≤ s.length ∧ s.splits parts ≠ [] then .ok (s.splits parts)
  else .error (.parts s parts)

/-- Looks for a symbol over a span, while the cell of the span `filling` is being filled. -/
def matchSymbol (tokens : List String) (table : Table tokens.length) (filling : Span)
    (symbol : Symbol) (u : Span) : Except Fault (Option Part) :=
  match symbol with
  | .terminal w => do
    let length ← difference u.stop u.start
    if length = 1 then
      let word ← wordAt tokens u.start
      return if word = w then some (.leaf u.start) else none
    else
      return none
  | .nonterminal a => do
    if u = filling then
      throw (.unfinished u)
    let cell ← table.read u
    return if cell.has a then some (.node u a) else none

/-- Looks for symbols over spans, pair by pair, up to the first one that is not found. -/
def matchPairs (tokens : List String) (table : Table tokens.length) (filling : Span) :
    List (Symbol × Span) → Except Fault (Option (List Part))
  | [] => return some []
  | (symbol, u) :: pairs => do
    match ← matchSymbol tokens table filling symbol u with
    | none => return none
    | some part => return (← matchPairs tokens table filling pairs).map (part :: ·)

/-- Looks for symbols over spans, if there is a span of the sentence for each of them. -/
def matchSymbols (tokens : List String) (table : Table tokens.length) (filling : Span)
    (rhs : List Symbol) (spans : List Span) : Except Fault (Option (List Part)) :=
  if spans.length = rhs.length ∧ ∀ u ∈ spans, u.start < u.stop ∧ u.stop ≤ tokens.length then
    matchPairs tokens table filling (rhs.zip spans)
  else
    throw (.pairing rhs spans)

/-- Tries a rule on spans for its symbols, and records the derivation if there is one. -/
def tryOn (tokens : List String) (table : Table tokens.length) (s : Span) (p : Production)
    (w : Draft) (spans : List Span) : Except Fault Draft := do
  match ← matchSymbols tokens table s p.rhs spans with
  | none => return w
  | some parts => return w.record ⟨p, parts⟩

/-- Tries a rule over a span of the given length. A lexical rule is for a single word, a unary
rule has to wait, and any other rule is tried on all splits, unless it has more symbols than
there are words. -/
def tryRule (tokens : List String) (table : Table tokens.length) (s : Span) (length : Nat)
    (w : Draft) (p : Production) : Except Fault Draft := do
  if p.isLexical then
    if length = 1 then tryOn tokens table s p w [s] else return w
  else if p.unaryChild?.isSome ∨ length < p.rhs.length then
    return w
  else
    (← splits s p.rhs.length).foldlM (tryOn tokens table s p) w

/-- Fills the cell of a span: tries the rules one by one, and closes what they leave. -/
def cellOver (g : Grammar) (tokens : List String) (table : Table tokens.length) (s : Span) :
    Except Fault Cell := do
  let length ← difference s.stop s.start
  let w ← g.productions.foldlM (tryRule tokens table s length) .empty
  return (w.close g s).cell

-- ---------------------------------------------------------------------------
-- No fault over a span
-- ---------------------------------------------------------------------------

theorem difference_eq_ok {a b : Nat} (h : b ≤ a) : difference a b = .ok (a - b) :=
  if_pos h

theorem wordAt_eq_ok {i : Nat} {w : String} (h : tokens[i]? = some w) : wordAt tokens i = .ok w := by
  rw [wordAt, h]

theorem splits_eq_ok {s : Span} {parts : Nat} (htwo : 2 ≤ parts) (hle : parts ≤ s.length) :
    splits s parts = .ok (s.splits parts) :=
  if_pos ⟨htwo, hle, Span.splits_ne_nil (by omega) hle⟩

/-- Steps of which each records its derivations together record all of them. -/
theorem foldlM_recordAll_eq_ok {α : Type} {step : Draft → α → Except Fault Draft}
    {found : α → List Derivation} {as : List α}
    (h : ∀ a ∈ as, ∀ w, step w a = .ok (w.recordAll (found a))) (w : Draft) :
    as.foldlM step w = .ok (w.recordAll (as.flatMap found)) := by
  induction as generalizing w with
  | nil => rfl
  | cons a as ih =>
    obtain ⟨ha, has⟩ := List.forall_mem_cons.1 h
    rw [List.foldlM_cons, ha, ok_bind, List.flatMap_cons, Draft.recordAll_append]
    exact ih has _

section Cell

variable {table : Table tokens.length} {s : Span}
  (htable : ∀ u : Span, u.Within tokens.length → u.length < s.length → table.read u = .ok (cells u))

include htable

theorem matchSymbol_eq_ok {u : Span} (hu : u.Within tokens.length) (symbol : Symbol)
    (hshorter : ∀ b, symbol = .nonterminal b → u.length < s.length) :
    matchSymbol tokens table s symbol u = .ok (Constituency.matchSymbol tokens cells symbol u) := by
  cases symbol with
  | terminal w =>
    have hget := List.getElem?_eq_getElem hu.start_lt_length
    rw [matchSymbol, difference_eq_ok (Nat.le_of_lt hu.start_lt), ok_bind,
      Constituency.matchSymbol, hget]
    show (if u.length = 1 then _ else _) = _
    by_cases hone : u.length = 1
    · rw [if_pos hone, wordAt_eq_ok hget, ok_bind]
      simp only [hone, true_and, Option.some.injEq]
      rfl
    · rw [if_neg hone, if_neg fun h => hone h.1]
      rfl
  | nonterminal b =>
    have hlt := hshorter b rfl
    have hne : u ≠ s := by
      rintro rfl
      exact Nat.lt_irrefl _ hlt
    rw [matchSymbol, if_neg hne, htable u hu hlt]
    rfl

theorem matchPairs_eq_ok {rhs : List Symbol} {spans : List Span} (hlen : spans.length = rhs.length)
    (hwithin : ∀ u ∈ spans, u.Within tokens.length)
    (hshorter : ∀ b, .nonterminal b ∈ rhs → ∀ u ∈ spans, u.length < s.length) :
    matchPairs tokens table s (rhs.zip spans) =
      .ok (Constituency.matchSymbols tokens cells rhs spans) := by
  induction rhs generalizing spans with
  | nil =>
    obtain rfl := List.length_eq_zero_iff.1 hlen
    rfl
  | cons symbol rest ih =>
    obtain ⟨u, us, rfl⟩ := List.exists_cons_of_length_eq_add_one hlen
    have hsymbol := matchSymbol_eq_ok htable (hwithin u List.mem_cons_self) symbol
      fun b hb => hshorter b (hb ▸ List.mem_cons_self) u List.mem_cons_self
    have hrest := ih (Nat.succ.inj hlen) (fun v hv => hwithin v (List.mem_cons_of_mem _ hv))
      fun b hb v hv => hshorter b (List.mem_cons_of_mem _ hb) v (List.mem_cons_of_mem _ hv)
    rw [List.zip_cons_cons, matchPairs, hsymbol, Constituency.matchSymbols]
    cases Constituency.matchSymbol tokens cells symbol u with
    | none => rfl
    | some part =>
      show (do return (← matchPairs tokens table s (rest.zip us)).map (part :: ·)) = _
      rw [hrest]
      cases Constituency.matchSymbols tokens cells rest us <;> rfl

theorem tryOn_eq_ok {p : Production} {spans : List Span} (hlen : spans.length = p.rhs.length)
    (hwithin : ∀ u ∈ spans, u.Within tokens.length)
    (hshorter : ∀ b, .nonterminal b ∈ p.rhs → ∀ u ∈ spans, u.length < s.length) (w : Draft) :
    tryOn tokens table s p w spans =
      .ok (w.recordAll
        ((Constituency.matchSymbols tokens cells p.rhs spans).map (⟨p, ·⟩)).toList) := by
  have hguard : spans.length = p.rhs.length ∧
      ∀ u ∈ spans, u.start < u.stop ∧ u.stop ≤ tokens.length :=
    ⟨hlen, fun u hu => ⟨(hwithin u hu).start_lt, (hwithin u hu).stop_le⟩⟩
  rw [tryOn, matchSymbols, if_pos hguard, matchPairs_eq_ok htable hlen hwithin hshorter]
  cases Constituency.matchSymbols tokens cells p.rhs spans <;> rfl

theorem tryRule_eq_ok (hs : s.Within tokens.length) {p : Production} (hp : p.rhs ≠ [])
    (w : Draft) :
    tryRule tokens table s s.length w p = .ok (w.recordAll (p.derivationsOver tokens cells s)) := by
  rw [tryRule, Production.derivationsOver]
  by_cases hlex : p.isLexical = true
  · rw [if_pos hlex, if_pos hlex]
    by_cases hone : s.length = 1
    · obtain ⟨word, hrhs⟩ := Production.isLexical_iff.1 hlex
      have hlen : [s].length = p.rhs.length := by rw [hrhs]; rfl
      have hno (b : String) : Symbol.nonterminal b ∉ p.rhs := by simp [hrhs]
      rw [if_pos hone, if_pos hone, tryOn_eq_ok htable hlen (List.forall_mem_singleton.2 hs)
        (fun b hb => absurd hb (hno b)), Option.toList_map]
    · rw [if_neg hone, if_neg hone]
      rfl
  · rw [if_neg hlex, if_neg hlex]
    by_cases hskip : p.unaryChild?.isSome = true ∨ s.length < p.rhs.length
    · rw [if_pos hskip, if_pos hskip]
      rfl
    · have hle : p.rhs.length ≤ s.length := Nat.le_of_not_lt fun h => hskip (Or.inr h)
      have hone : p.rhs.length ≠ 1 :=
        Production.length_rhs_ne_one hlex fun h => hskip (Or.inl h)
      have hpos : 0 < p.rhs.length := List.length_pos_iff.2 hp
      rw [if_neg hskip, if_neg hskip, splits_eq_ok (by omega) hle, ok_bind,
        List.filterMap_eq_flatMap_toList]
      refine foldlM_recordAll_eq_ok (fun spans hspans w => ?_) w
      obtain ⟨hlen, htiles⟩ := Span.mem_splits_iff.1 hspans
      refine tryOn_eq_ok htable hlen (fun u hu => ?_) (fun b _ u hu => ?_) w
      · have hbounds := htiles.bounds hu
        exact ⟨hbounds.2.1, Nat.le_trans hbounds.2.2 hs.stop_le⟩
      · exact Span.length_lt_of_mem_splits hspans hone hu

/-- A rule with nothing on its right would be tried on a split into no parts. -/
example : tryRule ["a"] (.empty 1) ⟨0, 1⟩ 1 .empty ⟨"S", []⟩ = .error (.parts ⟨0, 1⟩ 0) := rfl

/-- If the cells of the shorter spans are in place, filling the cell of a span has no fault. -/
theorem cellOver_eq_ok (hs : s.Within tokens.length) :
    cellOver g tokens table s = .ok (g.cellOver tokens cells s) := by
  have hrules : g.productions.foldlM (tryRule tokens table s (s.stop - s.start)) .empty =
      .ok (g.draft tokens cells s) :=
    foldlM_recordAll_eq_ok (fun p hp w => tryRule_eq_ok htable hs (g.rhs_ne_nil p hp) w) .empty
  rw [cellOver, difference_eq_ok (Nat.le_of_lt hs.start_lt), ok_bind, hrules, ok_bind,
    Grammar.close_draft]
  rfl

end Cell

end Checked
end Constituency
