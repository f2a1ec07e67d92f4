import Constituency.Chart.Span

/-!
# Spans, their words and their tilings

A span stands for the words between two positions. The parts of a phrase lie side
by side: the first starts where the phrase starts, each starts where the one
before it stops, and the last stops where the phrase stops. `Tiles` says so of a
list of spans, and `mem_splits_iff` that the splits of a span are its tilings,
for every number of parts.

A tiling by several spans makes each of them shorter than the whole. This is why
a cell of the chart needs the cells of shorter spans only.

## Main declarations

* `Span.Within`              — a non-empty span of a sentence.
* `Span.words`               — the words that a span stands for.
* `words_append`, `eq_words_of_append` — side by side spans have their words side
  by side, and words side by side have spans.
* `mem_splits_iff`           — the splits are the tilings with as many spans.
* `splits_increasing`, `splits_increasing_dropLast` — they come in the lexicographic
  order of their cuts.
* `length_lt_of_mem_splits`  — several parts are each shorter than the whole.
* `splits_ne_nil`            — there is a split if there are enough words.
* `splits_two`               — the splits into two parts.
-/

namespace Constituency

namespace Span

-- ---------------------------------------------------------------------------
-- The words of a span
-- ---------------------------------------------------------------------------

/-- The span is not empty and ends within a sentence of `n` words. -/
structure Within (s : Span) (n : Nat) : Prop where
  start_lt : s.start < s.stop
  stop_le  : s.stop ≤ n

theorem Within.start_lt_length {s : Span} {n : Nat} (h : s.Within n) : s.start < n :=
  Nat.lt_of_lt_of_le h.start_lt h.stop_le

theorem Within.length_le {s : Span} {n : Nat} (h : s.Within n) : s.length ≤ n := by
  have hle := h.stop_le
  unfold length
  omega

/-- The words that the span stands for. -/
def words (s : Span) (tokens : List String) : List String :=
  tokens.extract s.start s.stop

variable {tokens : List String} {i j k : Nat}

theorem words_eq (s : Span) (tokens : List String) :
    s.words tokens = (tokens.drop s.start).take s.length :=
  List.extract_eq_take_drop

theorem words_self (i : Nat) (tokens : List String) : (⟨i, i⟩ : Span).words tokens = [] := by
  rw [words_eq, length, Nat.sub_self, List.take_zero]

theorem words_whole (tokens : List String) : (⟨0, tokens.length⟩ : Span).words tokens = tokens := by
  rw [words_eq, length, List.drop_zero, Nat.sub_zero, List.take_length]

theorem words_singleton {w : String} (h : tokens[i]? = some w) :
    (⟨i, i + 1⟩ : Span).words tokens = [w] := by
  obtain ⟨hi, rfl⟩ := List.getElem?_eq_some_iff.1 h
  rw [words_eq, length, Nat.add_sub_cancel_left, List.drop_eq_getElem_cons hi, List.take_succ_cons,
    List.take_zero]

theorem getElem?_of_words_singleton {w : String} (h : (⟨i, i + 1⟩ : Span).words tokens = [w]) :
    tokens[i]? = some w := by
  rw [words_eq, length, Nat.add_sub_cancel_left] at h
  have hget : ((tokens.drop i).take 1)[0]? = some w := by
    rw [h]
    rfl
  rwa [List.getElem?_take_of_lt Nat.one_pos, List.getElem?_drop, Nat.add_zero] at hget

theorem length_words {s : Span} (h : s.stop ≤ tokens.length) :
    (s.words tokens).length = s.length := by
  rw [words_eq, List.length_take, List.length_drop, length]
  omega

theorem words_append (hik : i ≤ k) (hkj : k ≤ j) :
    (⟨i, k⟩ : Span).words tokens ++ (⟨k, j⟩ : Span).words tokens = (⟨i, j⟩ : Span).words tokens := by
  have hlen : j - i = (k - i) + (j - k) := by omega
  have hdrop : i + (k - i) = k := by omega
  rw [words_eq, words_eq, words_eq, length, length, length, hlen, List.take_add, List.drop_drop,
    hdrop]

/-- Where the words of a span fall into two lists, so does the span. -/
theorem eq_words_of_append {ws rest : List String} (hij : i ≤ j) (hj : j ≤ tokens.length)
    (h : ws ++ rest = (⟨i, j⟩ : Span).words tokens) :
    i + ws.length ≤ j ∧ ws = (⟨i, i + ws.length⟩ : Span).words tokens ∧
      rest = (⟨i + ws.length, j⟩ : Span).words tokens := by
  have hlen : ws.length + rest.length = j - i := by
    rw [← List.length_append, h, length_words hj, length]
  have hle : i + ws.length ≤ j := by omega
  have hcut : (⟨i, i + ws.length⟩ : Span).words tokens ++ (⟨i + ws.length, j⟩ : Span).words tokens =
      (⟨i, j⟩ : Span).words tokens :=
    words_append (Nat.le_add_right i ws.length) hle
  have hws : ws.length = ((⟨i, i + ws.length⟩ : Span).words tokens).length := by
    rw [length_words (Nat.le_trans hle hj), length, Nat.add_sub_cancel_left]
  exact ⟨hle, List.append_inj (h.trans hcut.symm) hws⟩

end Span

-- ---------------------------------------------------------------------------
-- Tilings
-- ---------------------------------------------------------------------------

/-- The spans are non-empty and lie side by side from `start` up to `stop`. -/
inductive Tiles : Nat → Nat → List Span → Prop
  | nil {start : Nat} : Tiles start start []
  | cons {start cut stop : Nat} {spans : List Span} (h : start < cut)
      (hrest : Tiles cut stop spans) : Tiles start stop (⟨start, cut⟩ :: spans)

namespace Tiles

/-- Each span takes at least one word. -/
theorem add_length_le {start stop : Nat} {spans : List Span} (h : Tiles start stop spans) :
    start + spans.length ≤ stop := by
  induction h with
  | nil => exact Nat.le_refl _
  | cons hcut _ ih =>
    rw [List.length_cons]
    omega

theorem bounds {start stop : Nat} {spans : List Span} (h : Tiles start stop spans) {s : Span}
    (hs : s ∈ spans) : start ≤ s.start ∧ s.start < s.stop ∧ s.stop ≤ stop := by
  induction h with
  | nil => exact absurd hs List.not_mem_nil
  | cons hcut hrest ih =>
    have hle := hrest.add_length_le
    rcases List.mem_cons.1 hs with rfl | hs
    · exact ⟨Nat.le_refl _, hcut, Nat.le_of_add_right_le hle⟩
    · have := ih hs
      exact ⟨by omega, this.2.1, this.2.2⟩

/-- The last span ends with the whole stretch, and the other ends are the cuts. -/
theorem dropLast_append_stop {start stop : Nat} {spans : List Span} (h : Tiles start stop spans)
    (hne : spans ≠ []) :
    (spans.map Span.stop).dropLast ++ [stop] = spans.map Span.stop := by
  induction h with
  | nil => exact absurd rfl hne
  | @cons start cut stop rest hcut hrest ih =>
    cases hrest with
    | nil => rfl
    | cons _ _ => exact congrArg (cut :: ·) (ih (List.cons_ne_nil _ _))

/-- With other spans beside it, a span is shorter than the whole. -/
theorem length_lt {start stop : Nat} {spans : List Span} (h : Tiles start stop spans)
    (hlen : spans.length ≠ 1) {s : Span} (hs : s ∈ spans) : s.length < stop - start := by
  cases h with
  | nil => exact absurd hs List.not_mem_nil
  | @cons start cut stop rest hcut hrest =>
    rw [List.length_cons] at hlen
    have hle := hrest.add_length_le
    unfold Span.length
    rcases List.mem_cons.1 hs with rfl | hs
    · dsimp only
      omega
    · have := hrest.bounds hs
      omega

end Tiles

/-- A stretch with enough words has a tiling: all spans but the last take one word. -/
theorem exists_tiles {start stop parts : Nat} (hparts : parts ≠ 0) (h : start + parts ≤ stop) :
    ∃ spans, spans.length = parts ∧ Tiles start stop spans := by
  induction parts generalizing start with
  | zero => exact absurd rfl hparts
  | succ k ih =>
    by_cases hk : k = 0
    · subst hk
      exact ⟨[⟨start, stop⟩], rfl, .cons h .nil⟩
    · have hrest : start + 1 + k ≤ stop := by omega
      obtain ⟨spans, hlen, htiles⟩ := ih hk hrest
      refine ⟨⟨start, start + 1⟩ :: spans, ?_, .cons (Nat.lt_succ_self start) htiles⟩
      rw [List.length_cons, hlen]

-- ---------------------------------------------------------------------------
-- Splits
-- ---------------------------------------------------------------------------

namespace Span

theorem mem_splitsFrom_iff {start stop parts : Nat} {spans : List Span} :
    spans ∈ splitsFrom start stop parts ↔ spans.length = parts ∧ Tiles start stop spans := by
  induction parts generalizing start spans with
  | zero =>
    unfold splitsFrom
    constructor
    · intro h
      split at h
      · next heq =>
        rw [List.mem_singleton.1 h, heq]
        exact ⟨rfl, .nil⟩
      · exact absurd h List.not_mem_nil
    · intro h
      obtain ⟨hlen, h⟩ := h
      obtain rfl := List.length_eq_zero_iff.1 hlen
      cases h
      rw [if_pos rfl]
      exact List.mem_cons_self
  | succ k ih =>
    rw [splitsFrom, List.mem_flatMap]
    constructor
    · intro h
      obtain ⟨cut, hcut, h⟩ := h
      obtain ⟨rest, hrest, rfl⟩ := List.mem_map.1 h
      obtain ⟨hlen, htiles⟩ := ih.1 hrest
      rw [List.mem_range'_1] at hcut
      exact ⟨by rw [List.length_cons, hlen], .cons (by omega) htiles⟩
    · intro h
      obtain ⟨hlen, h⟩ := h
      cases h with
      | nil => simp at hlen
      | @cons _ cut _ rest hcut hrest =>
        rw [List.length_cons] at hlen
        have hle := hrest.add_length_le
        refine ⟨cut, List.mem_range'_1.2 (by omega), List.mem_map.2 ⟨rest, ?_, rfl⟩⟩
        exact ih.2 ⟨by omega, hrest⟩

/-- The splits of a span into a number of parts are its tilings by as many
spans. -/
theorem mem_splits_iff {s : Span} {parts : Nat} {spans : List Span} :
    spans ∈ s.splits parts ↔ spans.length = parts ∧ Tiles s.start s.stop spans :=
  mem_splitsFrom_iff

theorem length_lt_of_mem_splits {s : Span} {parts : Nat} {spans : List Span}
    (h : spans ∈ s.splits parts) (hparts : parts ≠ 1) {u : Span} (hu : u ∈ spans) :
    u.length < s.length := by
  obtain ⟨rfl, htiles⟩ := mem_splits_iff.1 h
  exact htiles.length_lt hparts hu

theorem splitsFrom_increasing (start stop parts : Nat) :
    (splitsFrom start stop parts).Pairwise fun us vs =>
      us.map Span.stop < vs.map Span.stop := by
  induction parts generalizing start with
  | zero =>
    unfold splitsFrom
    split
    · exact List.pairwise_singleton _ _
    · exact .nil
  | succ k ih =>
    have hcuts : (List.range' (start + 1) (stop - start - k)).Pairwise (· < ·) :=
      List.pairwise_lt_range'
    rw [splitsFrom, List.pairwise_flatMap]
    refine ⟨fun cut _ => ?_, hcuts.imp fun {cut cut'} hlt us hus vs hvs => ?_⟩
    · -- the same first cut: the rest decides
      rw [List.pairwise_map]
      exact (ih cut).imp fun hlt => List.cons_lt_cons_iff.2 (Or.inr ⟨rfl, hlt⟩)
    · obtain ⟨us, -, rfl⟩ := List.mem_map.1 hus
      obtain ⟨vs, -, rfl⟩ := List.mem_map.1 hvs
      exact List.cons_lt_cons_iff.2 (Or.inl hlt)

/-- The splits of a span come in the lexicographic order of their ends. -/
theorem splits_increasing (s : Span) (parts : Nat) :
    (s.splits parts).Pairwise fun us vs => us.map Span.stop < vs.map Span.stop :=
  splitsFrom_increasing s.start s.stop parts

/-- Among lists of one length, a common last element decides nothing. -/
theorem lt_of_append_singleton_lt {us vs : List Nat} {n : Nat} (hlen : us.length = vs.length)
    (h : us ++ [n] < vs ++ [n]) : us < vs := by
  induction us generalizing vs with
  | nil =>
    obtain rfl := List.length_eq_zero_iff.1 hlen.symm
    exact absurd h (List.lt_irrefl _)
  | cons u us ih =>
    obtain ⟨v, vs, rfl⟩ := List.exists_cons_of_length_eq_add_one hlen.symm
    rw [List.cons_append, List.cons_append, List.cons_lt_cons_iff] at h
    refine List.cons_lt_cons_iff.2 (h.imp_right fun h => ⟨h.1, ih ?_ h.2⟩)
    exact Nat.succ.inj hlen

/-- The end of the span itself can be left out of the comparison. -/
theorem splits_increasing_dropLast (s : Span) (parts : Nat) :
    (s.splits parts).Pairwise fun us vs =>
      (us.map stop).dropLast < (vs.map stop).dropLast := by
  refine (s.splits_increasing parts).imp_of_mem fun {us vs} hus hvs hlt => ?_
  obtain ⟨hlen, hus⟩ := mem_splits_iff.1 hus
  obtain ⟨hlen', hvs⟩ := mem_splits_iff.1 hvs
  have hvs_ne : vs ≠ [] := by
    rintro rfl
    exact List.not_lt_nil _ hlt
  have hus_ne : us ≠ [] := by
    rintro rfl
    exact hvs_ne (List.length_eq_zero_iff.1 (hlen'.trans hlen.symm))
  rw [← hus.dropLast_append_stop hus_ne, ← hvs.dropLast_append_stop hvs_ne] at hlt
  refine lt_of_append_singleton_lt ?_ hlt
  rw [List.length_dropLast, List.length_dropLast, List.length_map, List.length_map, hlen, hlen']

theorem splits_nodup (s : Span) (parts : Nat) : (s.splits parts).Nodup := by
  refine (s.splits_increasing parts).imp fun {us vs} hlt heq => ?_
  rw [heq] at hlt
  exact List.lt_irrefl _ hlt

/-- There is a split into any number of parts that the words suffice for. -/
theorem splits_ne_nil {s : Span} {parts : Nat} (hparts : parts ≠ 0) (h : parts ≤ s.length) :
    s.splits parts ≠ [] := by
  have hstop : s.start + parts ≤ s.stop := by
    unfold length at h
    omega
  obtain ⟨spans, hlen, htiles⟩ := exists_tiles hparts hstop
  exact List.ne_nil_of_mem (mem_splits_iff.2 ⟨hlen, htiles⟩)

/-- For one part, a span is not cut. -/
theorem splitsFrom_one {start stop : Nat} (h : start < stop) :
    splitsFrom start stop 1 = [[⟨start, stop⟩]] := by
  have hcuts : List.range' (start + 1) (stop - start) =
      List.range' (start + 1) (stop - start - 1) ++ [stop] := by
    obtain ⟨k, rfl⟩ : ∃ k, stop = start + 1 + k := ⟨stop - start - 1, by omega⟩
    have hlen : start + 1 + k - start = k + 1 := by omega
    rw [hlen, Nat.add_sub_cancel, List.range'_1_concat]
  -- a part that ends earlier leaves words over
  have hearlier : ∀ cut ∈ List.range' (start + 1) (stop - start - 1),
      (splitsFrom cut stop 0).map (⟨start, cut⟩ :: ·) = [] := by
    intro cut hcut
    rw [List.mem_range'_1] at hcut
    rw [splitsFrom, if_neg (by omega), List.map_nil]
  rw [splitsFrom, Nat.sub_zero, hcuts, List.flatMap_append, List.flatMap_eq_nil_iff.2 hearlier,
    List.flatMap_singleton, splitsFrom, if_pos rfl]
  rfl

/-- For two parts, a span is cut once, behind any of its words but the last. -/
theorem splits_two (s : Span) :
    s.splits 2 = (List.range' (s.start + 1) (s.length - 1)).map fun cut =>
      [⟨s.start, cut⟩, ⟨cut, s.stop⟩] := by
  rw [splits, splitsFrom, List.map_eq_flatMap, List.flatMap_def, List.flatMap_def]
  refine congrArg List.flatten (List.map_congr_left fun cut hcut => ?_)
  have hlt : cut < s.stop := by
    rw [List.mem_range'_1] at hcut
    omega
  rw [splitsFrom_one hlt]
  rfl

end Span

end Constituency
