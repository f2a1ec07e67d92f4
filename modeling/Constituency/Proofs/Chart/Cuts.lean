import Constituency.Proofs.Chart.Span
import Mathlib.Data.List.Sublists

/-!
# Splits and their cuts

To cut a span into several parts is to choose the positions of the cuts: one less than there
are parts, all of them strictly between the ends of the span. `splits` does not go by
positions. It chooses where the first part stops, leaves room for the other parts, and splits
the rest in the same way. This module shows that nothing gets lost on the way: the splits are
the choices of the cuts, one by one and in the same order.

Which choices there are, and in which order, can be said without making them. They are the
combinations of the positions in lexicographic order, and there is one such list only
(`IsCombinations`). To compare it with the splits, both are taken apart by the first cut. Among
the choices of several numbers from an interval, those that begin with the same number are the
choices of the others from what is behind it. The last numbers of the interval begin no choice,
because too few come after them. And for one part there is nothing to choose, so that the span
itself is the only one.

## Main declarations

* `Span.CutInto`        — spans that lie side by side within a span, and fill it.
* `Span.cutAt`          — a span, cut at some positions.
* `IsCombinations`      — the combinations of some numbers, in lexicographic order.
* `cutInto_iff_tiles`   — to fill a span side by side is to tile it.
* `splits_eq_map_cutAt` — a split for each choice of the cuts.
* `splits_exact`        — the splits of a span: which they are, how many, and in which order.
-/

namespace Constituency

/-- The list has every choice of `count` of the numbers, each in the order in which the numbers
are listed, and the choices are in lexicographic order. -/
structure IsCombinations (count : Nat) (numbers : List Nat) (choices : List (List Nat)) : Prop where
  mem_iff    : ∀ choice, choice ∈ choices ↔ choice.Sublist numbers ∧ choice.length = count
  increasing : choices.Pairwise (· < ·)

/-- Two lists of the same combinations are equal, since their order is strict. -/
theorem IsCombinations.unique {count : Nat} {numbers : List Nat} {xs ys : List (List Nat)}
    (hxs : IsCombinations count numbers xs) (hys : IsCombinations count numbers ys) : xs = ys := by
  have hperm : xs.Perm ys := by
    refine (List.perm_ext_iff_of_nodup hxs.increasing.nodup hys.increasing.nodup).2 fun choice => ?_
    rw [hxs.mem_iff, hys.mem_iff]
  exact hperm.eq_of_pairwise (fun u v _ _ huv hvu => (List.lt_asymm huv hvu).elim)
    hxs.increasing hys.increasing

namespace Span

/-- The spans begin where the span begins, each of them goes on where the one in front of it
stops, and the last one stops where the span stops. None is empty. -/
structure CutInto (s : Span) (spans : List Span) : Prop where
  first      : spans.head?.map start = some s.start
  last       : spans.getLast?.map stop = some s.stop
  nonempty   : ∀ u ∈ spans, u.start < u.stop
  contiguous : spans.IsChain fun u v => u.stop = v.start

/-- The spans between neighbours among the ends of the span and the positions in `cuts`. -/
def cutAt (s : Span) (cuts : List Nat) : List Span :=
  let points := s.start :: cuts ++ [s.stop]
  points.zipWith mk points.tail

/-- The positions strictly between the ends of the span. -/
def innerPositions (s : Span) : List Nat :=
  List.range' (s.start + 1) (s.stop - (s.start + 1))

/-- The choices of `count` positions between the ends of the span, by the first of them, then
by the second, and so on. -/
def cutChoices (s : Span) (count : Nat) : List (List Nat) :=
  (s.innerPositions.sublistsLen count).reverse

-- ---------------------------------------------------------------------------
-- Side by side
-- ---------------------------------------------------------------------------

theorem CutInto.tiles {start stop : Nat} {spans : List Span}
    (h : CutInto ⟨start, stop⟩ spans) : Tiles start stop spans := by
  induction spans generalizing start with
  | nil => cases h.first
  | cons u rest ih =>
    obtain ⟨first, last, nonempty, contiguous⟩ := h
    obtain rfl : u.start = start := Option.some.inj first
    obtain ⟨hu, hrest⟩ := List.forall_mem_cons.1 nonempty
    cases rest with
    | nil =>
      obtain rfl : u.stop = stop := Option.some.inj last
      exact .cons hu .nil
    | cons v rest =>
      obtain ⟨huv, hchain⟩ := List.isChain_cons_cons.1 contiguous
      rw [List.getLast?_cons_cons] at last
      exact .cons hu (ih ⟨congrArg some huv.symm, last, hrest, hchain⟩)

theorem cutInto_of_tiles {start stop : Nat} {spans : List Span} (h : Tiles start stop spans)
    (hne : spans ≠ []) : CutInto ⟨start, stop⟩ spans := by
  induction h with
  | nil => exact absurd rfl hne
  | @cons start cut stop rest hcut hrest ih =>
    cases hrest with
    | nil => exact ⟨rfl, rfl, List.forall_mem_singleton.2 hcut, .singleton _⟩
    | cons hnext htail =>
      obtain ⟨-, last, nonempty, contiguous⟩ := ih (List.cons_ne_nil _ _)
      refine ⟨rfl, ?_, List.forall_mem_cons.2 ⟨hcut, nonempty⟩, ?_⟩
      · rw [List.getLast?_cons_cons]
        exact last
      · exact List.isChain_cons_cons.2 ⟨rfl, contiguous⟩

/-- To fill a span side by side is to tile it, with one span at least. -/
theorem cutInto_iff_tiles {s : Span} {spans : List Span} :
    s.CutInto spans ↔ spans ≠ [] ∧ Tiles s.start s.stop spans := by
  constructor
  · intro h
    refine ⟨?_, h.tiles⟩
    rintro rfl
    cases h.first
  · intro h
    exact cutInto_of_tiles h.2 h.1

-- ---------------------------------------------------------------------------
-- Choosing the cuts
-- ---------------------------------------------------------------------------

/-- The choices of several numbers from an interval, by the first number chosen. The last `k`
numbers begin no choice of `k + 1`. -/
theorem reverse_sublistsLen_range' (k first count : Nat) :
    ((List.range' first count).sublistsLen (k + 1)).reverse =
      (List.range' first (count - k)).flatMap fun i =>
        (((List.range' (i + 1) (first + count - (i + 1))).sublistsLen k).reverse).map (i :: ·) := by
  induction count generalizing first with
  | zero =>
    rw [Nat.zero_sub]
    rfl
  | succ count ih =>
    have hbehind : first + (count + 1) - (first + 1) = count := by omega
    rw [List.range'_succ, List.sublistsLen_succ_cons, List.reverse_append, ← List.map_reverse, ih]
    by_cases hk : k ≤ count
    · have hcount : count + 1 - k = count - k + 1 := by omega
      have hshift : first + 1 + count = first + (count + 1) := by omega
      rw [hcount, List.range'_succ, List.flatMap_cons, hbehind, hshift]
    · -- too few numbers are left even behind the first one
      have hlt : (List.range' (first + 1) count).length < k := by
        rw [List.length_range']
        omega
      have hnone : count - k = 0 ∧ count + 1 - k = 0 := by omega
      rw [List.sublistsLen_of_length_lt hlt, hnone.1, hnone.2]
      rfl

theorem splitsFrom_eq_map_cutAt {start stop : Nat} (h : start < stop) (count : Nat) :
    splitsFrom start stop (count + 1) =
      (cutChoices ⟨start, stop⟩ count).map (cutAt ⟨start, stop⟩) := by
  induction count generalizing start with
  | zero =>
    rw [splitsFrom_one h, cutChoices, List.sublistsLen_zero]
    rfl
  | succ count ih =>
    have hroom : stop - start - (count + 1) = stop - (start + 1) - count := by omega
    have hstop : start + 1 + (stop - (start + 1)) = stop := by omega
    rw [splitsFrom, cutChoices, innerPositions, reverse_sublistsLen_range', hroom, hstop, List.map_flatMap]
    refine List.flatMap_congr fun cut hcut => ?_
    have hlt : cut < stop := by
      rw [List.mem_range'_1] at hcut
      omega
    rw [ih hlt, List.map_map, List.map_map]
    rfl

/-- For each choice of the cuts there is a split, in the order of the choices. -/
theorem splits_eq_map_cutAt {s : Span} (hs : s.start < s.stop) {parts : Nat} (hparts : 1 ≤ parts) :
    s.splits parts = (s.cutChoices (parts - 1)).map s.cutAt := by
  obtain ⟨count, rfl⟩ := Nat.exists_eq_add_of_le' hparts
  exact splitsFrom_eq_map_cutAt hs count

/-- Each part but the last one stops at a cut. -/
theorem map_stop_cutAt (s : Span) (cuts : List Nat) :
    (s.cutAt cuts).map stop = cuts ++ [s.stop] := by
  induction cuts generalizing s with
  | nil => rfl
  | cons cut cuts ih => exact congrArg (cut :: ·) (ih ⟨cut, s.stop⟩)

theorem isCombinations_cutChoices {s : Span} (hs : s.start < s.stop) (count : Nat) :
    IsCombinations count s.innerPositions (s.cutChoices count) := by
  refine ⟨fun choice => ?_, ?_⟩
  · rw [cutChoices, List.mem_reverse, List.mem_sublistsLen]
  · have hsplits := s.splits_increasing_dropLast (count + 1)
    rw [splits_eq_map_cutAt hs (Nat.le_add_left 1 count), Nat.add_sub_cancel,
      List.pairwise_map] at hsplits
    simpa only [map_stop_cutAt, List.dropLast_concat] using hsplits

theorem length_cutChoices (s : Span) (count : Nat) :
    (s.cutChoices count).length = (s.length - 1).choose count := by
  rw [cutChoices, List.length_reverse, List.length_sublistsLen, innerPositions,
    List.length_range', length, Nat.sub_sub]

-- ---------------------------------------------------------------------------
-- The splits of a span
-- ---------------------------------------------------------------------------

/-- The splits of a span into one part or more are the lists of that many non-empty spans that
lie side by side and fill the span. Each is there once, and they are in the lexicographic order
of their cuts. To list them, it is enough to cut the span at the combinations of the positions
between its ends, with one cut less than parts. Their number is that of these combinations, and
there is none for more parts than words. -/
theorem splits_exact {s : Span} (hs : s.start < s.stop) {parts : Nat} (hparts : 1 ≤ parts) :
    (∀ spans, spans ∈ s.splits parts ↔ spans.length = parts ∧ s.CutInto spans) ∧
      (s.splits parts).Nodup ∧
      ((s.splits parts).Pairwise fun us vs =>
        (us.map stop).dropLast < (vs.map stop).dropLast) ∧
      (∀ choices, IsCombinations (parts - 1) s.innerPositions choices →
        s.splits parts = choices.map s.cutAt) ∧
      (s.splits parts).length = (s.length - 1).choose (parts - 1) ∧
      (s.length < parts → s.splits parts = []) := by
  have hchoices := splits_eq_map_cutAt hs hparts
  have hlength : (s.splits parts).length = (s.length - 1).choose (parts - 1) := by
    rw [hchoices, List.length_map, length_cutChoices]
  refine ⟨fun spans => ?_, s.splits_nodup parts, s.splits_increasing_dropLast parts,
    fun choices h => ?_, hlength, fun hlt => ?_⟩
  · rw [mem_splits_iff, cutInto_iff_tiles]
    refine and_congr_right fun hlen => (and_iff_right ?_).symm
    rintro rfl
    rw [← hlen] at hparts
    exact absurd hparts (Nat.not_succ_le_zero 0)
  · rw [h.unique (isCombinations_cutChoices hs (parts - 1)), hchoices]
  · have hpos : 0 < s.length := Nat.sub_pos_of_lt hs
    refine List.eq_nil_of_length_eq_zero ?_
    rw [hlength, Nat.choose_eq_zero_of_lt (by omega)]

/-- Four words fall into three parts in three ways. -/
theorem splits_exact_four :
    1 < 5 ∧ 1 ≤ 3 ∧
      IsCombinations 2 [2, 3, 4] [[2, 3], [2, 4], [3, 4]] ∧
      (⟨1, 5⟩ : Span).splits 3 = [[2, 3], [2, 4], [3, 4]].map (cutAt ⟨1, 5⟩) ∧
      (∀ spans, spans ∈ (⟨1, 5⟩ : Span).splits 3 ↔ spans.length = 3 ∧ CutInto ⟨1, 5⟩ spans) ∧
      ((⟨1, 5⟩ : Span).splits 3).length = 3 := by
  have hcombinations : IsCombinations 2 [2, 3, 4] [[2, 3], [2, 4], [3, 4]] :=
    isCombinations_cutChoices (s := ⟨1, 5⟩) (by decide : 1 < 5) 2
  obtain ⟨hmem, -, -, hchoices, hlength, -⟩ :=
    splits_exact (s := ⟨1, 5⟩) (by decide : 1 < 5) (by decide : 1 ≤ 3)
  exact ⟨by decide, by decide, hcombinations, hchoices _ hcombinations, hmem, hlength⟩

end Span

end Constituency
