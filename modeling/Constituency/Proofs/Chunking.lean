import Constituency.Proofs.Parse
import Constituency.Proofs.Tree.Chunk

/-!
# Where the chunks of a sentence stand

A licensed tree over the words between two positions has its children side by side over
the same words, each over at least one. So the chunks of the children follow one another
in the sentence as they do in the list, and each is a stretch of words with nothing left
out. What a chunk stands over is a phrase of its kind, and the chart has recorded it
there.

## Main declarations

* `Stretches`        — trees over spans that follow one another between two positions.
* `exists_stretches` — the chunks of a licensed tree are such trees.
* `chunks_spans`     — the chunks of a parse, in the sentence and in the chart.
-/

namespace Constituency

variable {tokens : List String} {i j k : Nat}

/-- The trees have the words of the spans, and the spans are not empty and follow one
another between two positions, with or without words between them. -/
structure Stretches (tokens : List String) (i j : Nat) (ts : List Tree) (us : List Span) :
    Prop where
  words   : List.Forall₂ (fun t u => t.leaves = Span.words u tokens) ts us
  bounds  : ∀ u ∈ us, i ≤ u.start ∧ u.start < u.stop ∧ u.stop ≤ j
  ordered : us.Pairwise fun u v => u.stop ≤ v.start

namespace Stretches

theorem nil : Stretches tokens i j [] [] :=
  ⟨.nil, by simp, .nil⟩

theorem singleton {t : Tree} (h : t.leaves = (⟨i, j⟩ : Span).words tokens) (hij : i < j) :
    Stretches tokens i j [t] [⟨i, j⟩] :=
  ⟨.cons h .nil, by simpa using hij, List.pairwise_singleton _ _⟩

theorem append {ts ts' : List Tree} {us us' : List Span} (h : Stretches tokens i k ts us)
    (h' : Stretches tokens k j ts' us') (hik : i ≤ k) (hkj : k ≤ j) :
    Stretches tokens i j (ts ++ ts') (us ++ us') := by
  refine ⟨List.rel_append h.words h'.words, fun u hu => ?_, ?_⟩
  · rcases List.mem_append.1 hu with hu | hu
    · have := h.bounds u hu
      omega
    · have := h'.bounds u hu
      omega
  · refine List.pairwise_append.2 ⟨h.ordered, h'.ordered, fun u hu v hv => ?_⟩
    have := h.bounds u hu
    have := h'.bounds v hv
    omega

end Stretches

/-- Trees side by side have their stretches one after the other. -/
theorem exists_stretches_flatMap {f : Tree → List Tree} {cs : List Tree}
    (h : ∀ c ∈ cs, ∀ i j, i ≤ j → j ≤ tokens.length → c.leaves = (⟨i, j⟩ : Span).words tokens →
      ∃ us, Stretches tokens i j (f c) us)
    (hij : i ≤ j) (hj : j ≤ tokens.length)
    (hwords : cs.flatMap Tree.leaves = (⟨i, j⟩ : Span).words tokens) :
    ∃ us, Stretches tokens i j (cs.flatMap f) us := by
  induction cs generalizing i with
  | nil => exact ⟨[], .nil⟩
  | cons c cs ih =>
    obtain ⟨hc, hcs⟩ := List.forall_mem_cons.1 h
    rw [List.flatMap_cons] at hwords
    obtain ⟨hle, hleaves, hrest⟩ := Span.eq_words_of_append hij hj hwords
    obtain ⟨us, hus⟩ := hc i _ (Nat.le_add_right _ _) (Nat.le_trans hle hj) hleaves
    obtain ⟨us', hus'⟩ := ih hcs hle hrest
    exact ⟨us ++ us', hus.append hus' (Nat.le_add_right _ _) hle⟩

/-- The chunks of a licensed tree stand one after the other. -/
theorem exists_stretches {g : Grammar} {t : Tree} (hlicensed : g.licenses t = true)
    (hij : i ≤ j) (hj : j ≤ tokens.length) (hwords : t.leaves = (⟨i, j⟩ : Span).words tokens)
    (name : String) : ∃ us, Stretches tokens i j (t.chunks name) us := by
  induction t generalizing i j with
  | node l cs ih =>
    rw [Tree.chunks_node]
    split
    · split
      · -- the whole tree, which is not without words
        have hpos : 0 < j - i := by
          have hne := List.length_pos_of_ne_nil (Grammar.leaves_ne_nil hlicensed)
          rwa [hwords, Span.length_words hj] at hne
        exact ⟨_, .singleton hwords (by omega)⟩
      · exact ⟨[], .nil⟩
    · obtain ⟨-, hchildren⟩ := Grammar.licenses_node_iff.1 hlicensed
      refine exists_stretches_flatMap (fun c hc i j hij hj => ih c hc (hchildren c hc) hij hj)
        hij hj ?_
      cases l with
      | terminal w =>
        -- a word has no children, so there would be no chunks in them
        obtain rfl := Grammar.licenses_terminal_iff.1 hlicensed
        contradiction
      | nonterminal a => rw [← hwords, ← Tree.branch, Tree.leaves_branch]

namespace Grammar

/-- The chunks of a parse are stretches of the sentence that follow one another, in the
order of the chunks. Each has just the words of its stretch, with a blank between any two
when it is shown, and its kind is recorded there in the chart. -/
theorem chunks_spans {g : Grammar} {tokens : List String} (h : tokens ≠ []) :
    ∃ c ts, Chart.ofTokens g tokens = .ok c ∧ g.parse tokens = .ok ts ∧
      ∀ t ∈ ts, ∀ name, ∃ spans : List Span,
        spans.Pairwise (fun u v => u.stop ≤ v.start) ∧
        (∀ u ∈ spans, u.start < u.stop ∧ u.stop ≤ tokens.length) ∧
        List.Forall₂ (fun s u => s.leaves = tokens.extract u.start u.stop ∧
          s.phrase = " ".intercalate (tokens.extract u.start u.stop) ∧
          c.derivations u name ≠ []) (t.chunks name) spans := by
  obtain ⟨c, hc, rfl, rfl⟩ := Chart.exists_ofTokens g h
  refine ⟨c, c.parses, hc, parse_eq_ok hc, fun t ht name => ?_⟩
  obtain ⟨hphrase, -⟩ := Chart.mem_trees_iff.1 (Chart.mem_parses.1 ht)
  have hwords : t.leaves = (⟨0, c.tokens.length⟩ : Span).words c.tokens := by
    rw [hphrase.leaves, Span.words_whole]
  obtain ⟨spans, hspans⟩ :=
    exists_stretches hphrase.licensed (Nat.zero_le _) (Nat.le_refl _) hwords name
  refine ⟨spans, hspans.ordered, fun u hu => (hspans.bounds u hu).2, ?_⟩
  refine forall₂_of_mem hspans.words fun s hs u hu hleaves => ⟨hleaves, ?_, ?_⟩
  · rw [Tree.phrase, hleaves, Span.words]
  · obtain ⟨hsub, hlabel, -⟩ := Tree.mem_chunks.1 hs
    obtain ⟨-, hstart, hstop⟩ := hspans.bounds u hu
    refine Chart.derivations_ne_nil_iff.2 ⟨⟨hstart, hstop⟩, s, Tree.hasLabel_iff.1 hlabel, ?_, hleaves⟩
    exact licenses_of_mem_subtrees hphrase.licensed hsub

/-- Of the spans of `x and x`, those of the first and of the last word are an `x`. -/
theorem eq_of_words_x {u : Span} (hu : u.start < u.stop ∧ u.stop ≤ 3)
    (h : ["x"] = ["x", "and", "x"].extract u.start u.stop) : u = ⟨0, 1⟩ ∨ u = ⟨2, 3⟩ := by
  have hall : ∀ stop < 4, ∀ start < stop, ["x"] = ["x", "and", "x"].extract start stop →
      start = 0 ∧ stop = 1 ∨ start = 2 ∧ stop = 3 := by decide
  obtain ⟨start, stop⟩ := u
  rw [Span.mk.injEq, Span.mk.injEq]
  exact hall stop (Nat.lt_succ_of_le hu.2) start hu.1 h

theorem chunks_spans_circular :
    ["x", "and", "x"] ≠ [] ∧ ∃ c, Chart.ofTokens circular ["x", "and", "x"] = .ok c ∧
      circular.parse ["x", "and", "x"] = .ok [circularTree] ∧
      (∀ t ∈ [circularTree], ∀ name, ∃ spans : List Span,
        spans.Pairwise (fun u v => u.stop ≤ v.start) ∧
        (∀ u ∈ spans, u.start < u.stop ∧ u.stop ≤ 3) ∧
        List.Forall₂ (fun s u => s.leaves = ["x", "and", "x"].extract u.start u.stop ∧
          s.phrase = " ".intercalate (["x", "and", "x"].extract u.start u.stop) ∧
          c.derivations u name ≠ []) (t.chunks name) spans) ∧
      circularTree.chunks "S" = [.branch "S" [.leaf "x"], .branch "S" [.leaf "x"]] ∧
      c.derivations ⟨0, 1⟩ "S" ≠ [] ∧ c.derivations ⟨2, 3⟩ "S" ≠ [] := by
  have hne : ["x", "and", "x"] ≠ [] := by decide
  obtain ⟨c, ts, hc, hts, hspans⟩ := chunks_spans (g := circular) hne
  obtain rfl := Except.ok.inj (parse_circular.symm.trans hts)
  have hchunks : circularTree.chunks "S" = [.branch "S" [.leaf "x"], .branch "S" [.leaf "x"]] := by
    cbv
  refine ⟨hne, c, hc, hts, hspans, hchunks, ?_⟩
  obtain ⟨spans, hordered, hbounds, hall⟩ := hspans circularTree (List.mem_singleton_self _) "S"
  rw [hchunks] at hall
  obtain ⟨u, us, ⟨hu, -, hfirst⟩, hrest, rfl⟩ := List.forall₂_cons_left_iff.1 hall
  obtain ⟨v, us, ⟨hv, -, hsecond⟩, -, rfl⟩ := List.forall₂_cons_left_iff.1 hrest
  have hword : (Tree.branch "S" [.leaf "x"]).leaves = ["x"] := by cbv
  have hu := eq_of_words_x (hbounds u List.mem_cons_self) (hword ▸ hu)
  have hv := eq_of_words_x (hbounds v (List.mem_cons_of_mem _ List.mem_cons_self)) (hword ▸ hv)
  have huv : u.stop ≤ v.start := List.rel_of_pairwise_cons hordered List.mem_cons_self
  rcases hu with rfl | rfl <;> rcases hv with rfl | rfl
  · exact absurd huv (by decide)
  · exact ⟨hfirst, hsecond⟩
  · exact absurd huv (by decide)
  · exact absurd huv (by decide)

end Grammar

end Constituency
