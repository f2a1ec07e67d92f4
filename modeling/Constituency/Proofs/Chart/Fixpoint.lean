import Constituency.Proofs.Chart.Safety

/-!
# The finished chart is a fixpoint

The cell of a span is filled from the cells of shorter spans, whatever these are at that
moment. If one of them were filled later, the chart would go without the derivations that need
it, and nothing would say so. So it matters in which order the spans have their turn.

The run with checks fills one table in place. Its two loops come down to a single list, that of
the spans of the sentence by growing length (`fill_eq_foldlM`). A moment of the run is a cut of
this list: in front are the spans that are filled already, and behind come the span to be filled
now and those to be filled later. To fill the cell of a span changes no other cell, so the rest
of the run changes no cell of a span that is not behind the cut. No shorter span is. At each
moment the cells of the shorter spans are thus what they are in the end, and nothing had to be
said about what they contain.

What they contain in the end is known: the cells of the chart. Since a cell is determined by
the cells of the shorter spans, filling it again from the finished table gives it back. The
chart itself is made level by level, and there too each cell finds the shorter ones finished.

## Main declarations

* `Span.fillOrder`         — the spans of a sentence, in the order of filling.
* `mem_fillOrder_iff`      — all non-empty spans are there.
* `Checked.fill_eq_foldlM` — the table is filled in this order.
* `Checked.read_of_foldlM_fillSpan_eq_ok` — what a part of the run leaves alone.
* `finished_fixpoint`      — shorter spans are final at each moment, and the finished chart
  is what filling it again would give.
-/

namespace Constituency

-- ---------------------------------------------------------------------------
-- The order of the spans
-- ---------------------------------------------------------------------------

namespace Span

/-- The spans of a length in a sentence of `n` words, by their start. -/
def ofLength (n length : Nat) : List Span :=
  (List.range' 0 (n - length + 1)).map fun start => ⟨start, start + length⟩

/-- The spans of a sentence of `n` words, by growing length, and on each length by their
start. -/
def fillOrder (n : Nat) : List Span :=
  (List.range' 1 n).flatMap (ofLength n)

variable {n : Nat}

theorem mem_ofLength_iff {length : Nat} (h : length ≤ n) {s : Span} :
    s ∈ ofLength n length ↔ s.stop = s.start + length ∧ s.stop ≤ n := by
  rw [ofLength, List.mem_map]
  constructor
  · rintro ⟨start, hstart, rfl⟩
    rw [List.mem_range'_1] at hstart
    refine ⟨rfl, ?_⟩
    show start + length ≤ n
    omega
  · rintro ⟨hstop, hle⟩
    refine ⟨s.start, List.mem_range'_1.2 (by omega), ?_⟩
    rw [← hstop]

theorem length_of_mem_ofLength {length : Nat} {s : Span} (h : s ∈ ofLength n length) :
    s.length = length := by
  obtain ⟨start, -, rfl⟩ := List.mem_map.1 h
  exact Nat.add_sub_cancel_left start length

/-- Every non-empty span of the sentence has its turn. -/
theorem mem_fillOrder_iff {s : Span} : s ∈ fillOrder n ↔ s.Within n := by
  rw [fillOrder, List.mem_flatMap]
  constructor
  · rintro ⟨length, hlength, hs⟩
    rw [List.mem_range'_1] at hlength
    obtain ⟨hstop, hle⟩ := (mem_ofLength_iff (by omega)).1 hs
    exact ⟨by omega, hle⟩
  · intro hs
    obtain ⟨hlt, hle⟩ := hs
    have hlength : 1 ≤ s.length ∧ s.length ≤ n := by
      unfold length
      omega
    refine ⟨s.length, List.mem_range'_1.2 (by omega), (mem_ofLength_iff hlength.2).2 ⟨?_, hle⟩⟩
    exact (Nat.add_sub_cancel' (Nat.le_of_lt hlt)).symm

theorem fillOrder_pairwise (n : Nat) : (fillOrder n).Pairwise fun u v => u.length ≤ v.length := by
  have hlengths : (List.range' 1 n).Pairwise (· < ·) := List.pairwise_lt_range'
  rw [fillOrder, List.pairwise_flatMap]
  refine ⟨fun length _ => List.pairwise_of_forall_mem_list fun u hu v hv => ?_,
    hlengths.imp fun {k l} hlt u hu v hv => ?_⟩
  · rw [length_of_mem_ofLength hu, length_of_mem_ofLength hv]
  · rw [length_of_mem_ofLength hu, length_of_mem_ofLength hv]
    exact Nat.le_of_lt hlt

/-- When the turn of a span has come, no shorter span has its turn still to come. -/
theorem notMem_of_fillOrder_eq {before after : List Span} {s u : Span}
    (h : fillOrder n = before ++ s :: after) (hu : u.length < s.length) : u ∉ s :: after := by
  have hpairwise := fillOrder_pairwise n
  rw [h, List.pairwise_append, List.pairwise_cons] at hpairwise
  have hafter : ∀ v ∈ s :: after, s.length ≤ v.length :=
    List.forall_mem_cons.2 ⟨Nat.le_refl _, hpairwise.2.1.1⟩
  exact fun hmem => Nat.not_lt_of_le (hafter u hmem) hu

end Span

-- ---------------------------------------------------------------------------
-- The moments of a run
-- ---------------------------------------------------------------------------

namespace Checked

variable {g : Grammar} {tokens : List String} {table last : Table tokens.length}

/-- The two loops are one run over the spans. -/
theorem fill_eq_foldlM (g : Grammar) (tokens : List String) :
    fill g tokens =
      (Span.fillOrder tokens.length).foldlM (fillSpan g tokens) (.empty tokens.length) := by
  refine foldlM_eq_foldlM_flatMap (fun length hlength table => ?_) _
  have hle : length ≤ tokens.length := by
    rw [List.mem_range'_1] at hlength
    omega
  rw [fillLength, difference_eq_ok hle, ok_bind, Span.ofLength, List.foldlM_map]

theorem read_of_fillSpan_eq_ok {s u : Span} (h : fillSpan g tokens table s = .ok last)
    (hu : u ≠ s) : last.read u = table.read u := by
  obtain ⟨cell, -, hwrite⟩ := bind_eq_ok_iff.1 h
  exact Table.read_of_write_eq_ok hwrite hu

/-- A part of the run leaves the cells of all spans that do not have their turn in it. -/
theorem read_of_foldlM_fillSpan_eq_ok {spans : List Span}
    (h : spans.foldlM (fillSpan g tokens) table = .ok last) {u : Span} (hu : u ∉ spans) :
    last.read u = table.read u := by
  induction spans generalizing table with
  | nil =>
    obtain rfl : table = last := Except.ok.inj h
    rfl
  | cons s rest ih =>
    rw [List.foldlM_cons, bind_eq_ok_iff] at h
    rw [List.mem_cons, not_or] at hu
    obtain ⟨next, hnext, hrest⟩ := h
    obtain ⟨hne, hmem⟩ := hu
    rw [ih hrest hmem, read_of_fillSpan_eq_ok hnext hne]

/-- At the moment of a span, the cells of the shorter spans are what they are in the end. -/
theorem exists_moment {before after : List Span} {s : Span} (hfill : fill g tokens = .ok last)
    (h : Span.fillOrder tokens.length = before ++ s :: after) :
    ∃ sofar, before.foldlM (fillSpan g tokens) (.empty tokens.length) = .ok sofar ∧
      (s :: after).foldlM (fillSpan g tokens) sofar = .ok last ∧
      ∀ u : Span, u.length < s.length → sofar.read u = last.read u := by
  rw [fill_eq_foldlM, h, List.foldlM_append, bind_eq_ok_iff] at hfill
  obtain ⟨sofar, hsofar, hrest⟩ := hfill
  refine ⟨sofar, hsofar, hrest, fun u hu => ?_⟩
  exact (read_of_foldlM_fillSpan_eq_ok hrest (Span.notMem_of_fillOrder_eq h hu)).symm

end Checked

-- ---------------------------------------------------------------------------
-- The finished chart
-- ---------------------------------------------------------------------------

namespace Grammar

/-- The table of a sentence is filled span by span, in an order in which each non-empty span of
the sentence has its turn. At that moment, the cells of all shorter spans are what they are in
the end. Filling the cell of a span of the sentence again, from the finished table, gives the
cell that is stored there. The cells of empty spans are empty. The cells of the chart are those
of the finished table: each is made from levels in which the shorter spans have their cells, and
the finished chart gives it back. -/
theorem finished_fixpoint (g : Grammar) {tokens : List String} (h : tokens ≠ []) :
    ∃ c table, Chart.ofTokens g tokens = .ok c ∧ Checked.fill g tokens = .ok table ∧
      (∀ s : Span, s.start ≤ tokens.length → s.stop ≤ tokens.length →
        table.read s = .ok (c.cell s)) ∧
      Checked.fill g tokens =
        (Span.fillOrder tokens.length).foldlM (Checked.fillSpan g tokens) (.empty tokens.length) ∧
      (∀ s, s ∈ Span.fillOrder tokens.length ↔ s.Within tokens.length) ∧
      (∀ before s after, Span.fillOrder tokens.length = before ++ s :: after →
        ∃ sofar,
          before.foldlM (Checked.fillSpan g tokens) (.empty tokens.length) = .ok sofar ∧
          (s :: after).foldlM (Checked.fillSpan g tokens) sofar = .ok table ∧
          ∀ u : Span, u.length < s.length → sofar.read u = table.read u) ∧
      (∀ s : Span, s.Within tokens.length →
        Checked.cellOver g tokens table s = table.read s ∧
        g.cellOver tokens (cellIn (fillLevels g tokens (s.length - 1))) s = c.cell s ∧
        (∀ u : Span, u.length < s.length →
          cellIn (fillLevels g tokens (s.length - 1)) u = c.cell u) ∧
        g.cellOver tokens c.cell s = c.cell s) ∧
      (∀ s : Span, s.stop ≤ s.start → s.start ≤ tokens.length → table.read s = .ok []) := by
  obtain ⟨c, hc, rfl, rfl⟩ := Chart.exists_ofTokens g h
  obtain ⟨table, hfill, htable⟩ := Checked.fill_eq_ok c
  refine ⟨c, table, hc, hfill, htable, Checked.fill_eq_foldlM _ _, fun s => Span.mem_fillOrder_iff,
    fun before s after hmoment => Checked.exists_moment hfill hmoment, fun s hs => ?_,
    fun s hempty hstart => ?_⟩
  · have hread (u : Span) (hu : u.Within c.tokens.length) : table.read u = .ok (c.cell u) :=
      htable u (Nat.le_of_lt hu.start_lt_length) hu.stop_le
    have hfixed : c.grammar.cellOver c.tokens c.cell s = c.cell s := (Chart.cell_eq_cellOver hs).symm
    refine ⟨?_, ?_, fun u hu => Chart.cellIn_fillLevels_eq_cell (by omega), hfixed⟩
    · rw [Checked.cellOver_eq_ok (fun u hu _ => hread u hu) hs, hfixed, hread s hs]
    · rw [Chart.cell, c.levels_eq, cellIn_fillLevels hs hs.length_le]
  · have hnot : ¬s.Within c.tokens.length := fun hs => Nat.not_lt_of_le hempty hs.start_lt
    rw [htable s hstart (Nat.le_trans hempty hstart), Chart.cell_eq_nil hnot]

/-- The theorem on a grammar with unary cycles, at the moment of the first span of two words. -/
theorem finished_fixpoint_circular :
    ["x", "and", "x"] ≠ [] ∧
      ∃ c table, Chart.ofTokens circular ["x", "and", "x"] = .ok c ∧
        Checked.fill circular ["x", "and", "x"] = .ok table ∧
        Span.fillOrder 3 = [⟨0, 1⟩, ⟨1, 2⟩, ⟨2, 3⟩] ++ ⟨0, 2⟩ :: [⟨1, 3⟩, ⟨0, 3⟩] ∧
        (∃ sofar, [⟨0, 1⟩, ⟨1, 2⟩, ⟨2, 3⟩].foldlM
            (Checked.fillSpan circular ["x", "and", "x"]) (.empty 3) = .ok sofar ∧
          ∀ u : Span, u.length < 2 → sofar.read u = table.read u) ∧
        Checked.cellOver circular ["x", "and", "x"] table ⟨0, 3⟩ = .ok (c.cell ⟨0, 3⟩) ∧
        (c.cell ⟨0, 3⟩).symbols = ["A", "S"] ∧
        table.read ⟨2, 2⟩ = .ok [] := by
  obtain ⟨c, table, hc, hfill, htable, -, -, hmoment, hfixed, hempty⟩ :=
    finished_fixpoint circular (by decide : ["x", "and", "x"] ≠ [])
  have horder : Span.fillOrder 3 = [⟨0, 1⟩, ⟨1, 2⟩, ⟨2, 3⟩] ++ ⟨0, 2⟩ :: [⟨1, 3⟩, ⟨0, 3⟩] := rfl
  have hwithin : (⟨0, 3⟩ : Span).Within 3 := ⟨by decide, by decide⟩
  obtain ⟨sofar, hsofar, -, hshorter⟩ := hmoment _ _ _ horder
  have hsymbols : (c.cell ⟨0, 3⟩).symbols = ["A", "S"] := by
    obtain rfl := Except.ok.inj hc
    cbv
  refine ⟨by decide, c, table, hc, hfill, horder, ⟨sofar, hsofar, hshorter⟩, ?_, hsymbols,
    hempty ⟨2, 2⟩ (by decide) (by decide)⟩
  rw [(hfixed _ hwithin).1, htable ⟨0, 3⟩ (by decide) (by decide)]

end Grammar

end Constituency
