import Constituency.Proofs.Chart.Visit

/-!
# The order of the trees

The trees of a phrase kind come derivation by derivation, as the chart lists them, and
for one derivation with the leftmost part varying slowest. Seen on two trees side by
side, this is an order by first difference: walk both, and where they part for the
first time, they are at a phrase of one kind over one span, and the tree that comes
earlier uses the derivation that is listed earlier.

What two trees have in common before they part can lie anywhere, so `Precedes` speaks
of lists of visits. It does not mind what stands before two lists, if that is the same,
nor what stands behind them. The chain of the expansion plays no part: it takes trees
away, and a list stays in order when some of its elements are taken away.

No list of visits precedes itself. So the trees are different, and the ranks of their
derivations, read off in pre-order, increase lexicographically.

## Main results

* `expand_increasing` — each tree precedes the trees after it.
* `expand_nodup`      — no tree comes twice.
* `Precedes.ranks_lt` — what precedes has smaller ranks.
-/

namespace Constituency

namespace Chart

variable {c : Chart} {s : Span} {a : String} {chain : List String} {d : Derivation} {t : Tree}

/-- The place of a derivation among those of its phrase kind. -/
def rank (c : Chart) (s : Span) (d : Derivation) : Nat :=
  (c.derivations s d.symbol).idxOf d

/-- Two walks part at a phrase of one kind over one span, and there the first uses a
derivation that the chart lists before that of the second. -/
def Precedes (c : Chart) (vs ws : List Visit) : Prop :=
  ∃ shared s d e rest rest',
    vs = shared ++ .phrase s d :: rest ∧ ws = shared ++ .phrase s e :: rest' ∧
      d.symbol = e.symbol ∧ d ∈ c.derivations s d.symbol ∧ e ∈ c.derivations s e.symbol ∧
        c.rank s d < c.rank s e

/-- The rank of the derivation that a visit uses; a word uses none. -/
def rankAt (c : Chart) : Visit → Nat
  | .word _ _ => 0
  | .phrase s d => c.rank s d

-- ---------------------------------------------------------------------------
-- Order by first difference
-- ---------------------------------------------------------------------------

namespace Precedes

variable {vs ws : List Visit}

theorem append_left (shared : List Visit) (h : c.Precedes vs ws) :
    c.Precedes (shared ++ vs) (shared ++ ws) := by
  obtain ⟨shared', s, d, e, rest, rest', rfl, rfl, h⟩ := h
  have hassoc (v : Visit) (rest : List Visit) :
      shared ++ (shared' ++ v :: rest) = shared ++ shared' ++ v :: rest :=
    (List.append_assoc _ _ _).symm
  exact ⟨shared ++ shared', s, d, e, rest, rest', hassoc _ _, hassoc _ _, h⟩

theorem append_right (h : c.Precedes vs ws) (after after' : List Visit) :
    c.Precedes (vs ++ after) (ws ++ after') := by
  obtain ⟨shared, s, d, e, rest, rest', rfl, rfl, h⟩ := h
  have hassoc (v : Visit) (rest after : List Visit) :
      shared ++ v :: rest ++ after = shared ++ v :: (rest ++ after) := by
    rw [List.append_assoc, List.cons_append]
  exact ⟨shared, s, d, e, rest ++ after, rest' ++ after', hassoc _ _ _, hassoc _ _ _, h⟩

theorem ne (h : c.Precedes vs ws) : vs ≠ ws := by
  rintro rfl
  obtain ⟨shared, s, d, e, rest, rest', rfl, heq, -, -, -, hlt⟩ := h
  obtain ⟨hvisit, -⟩ := List.cons.inj (List.append_cancel_left heq)
  rw [(Visit.phrase.inj hvisit).2] at hlt
  exact Nat.lt_irrefl _ hlt

/-- What precedes has lexicographically smaller ranks. -/
theorem ranks_lt (h : c.Precedes vs ws) : vs.map c.rankAt < ws.map c.rankAt := by
  obtain ⟨shared, s, d, e, rest, rest', rfl, rfl, -, -, -, hlt⟩ := h
  rw [List.map_append, List.map_append, List.map_cons, List.map_cons]
  exact List.append_left_lt (List.cons_lt_cons_iff.2 (Or.inl hlt))

end Precedes

-- ---------------------------------------------------------------------------
-- One derivation
-- ---------------------------------------------------------------------------

/-- Trees in order in front of tails in order: the first tree decides, and after the
same tree the tail does. -/
theorem pairwise_precedes_cons {i k : Nat} {options : List Tree} {tails : List (List Tree)}
    (hlen : ∀ t ∈ options, i + t.leaves.length = k)
    (hoptions : options.Pairwise fun t u => c.Precedes (t.visits i) (u.visits i))
    (htails : tails.Pairwise fun ts us =>
      c.Precedes (Tree.visitsAll k ts) (Tree.visitsAll k us)) :
    (options.flatMap fun t => tails.map (t :: ·)).Pairwise fun ts us =>
      c.Precedes (Tree.visitsAll i ts) (Tree.visitsAll i us) := by
  rw [List.pairwise_flatMap]
  refine ⟨fun t ht => ?_, hoptions.imp fun {t u} htu ts hts us hus => ?_⟩
  · rw [List.pairwise_map]
    refine htails.imp fun {ts us} h => ?_
    rw [Tree.visitsAll, Tree.visitsAll, hlen t ht]
    exact h.append_left _
  · obtain ⟨ts, -, rfl⟩ := List.mem_map.1 hts
    obtain ⟨us, -, rfl⟩ := List.mem_map.1 hus
    exact htu.append_right _ _

theorem pairwise_precedes_product {i j : Nat} {rhs : List Symbol} {parts : List Part}
    (h : Found c.tokens c.cell i j rhs parts) (hj : j ≤ c.tokens.length)
    {options : Part → List Tree}
    (hstands : ∀ part ∈ parts, ∀ t ∈ options part, part.StandsFor c.grammar c.tokens t)
    (hoptions : ∀ part ∈ parts, (options part).Pairwise fun t u =>
      c.Precedes (t.visits part.span.start) (u.visits part.span.start)) :
    (product (parts.map options)).Pairwise fun ts us =>
      c.Precedes (Tree.visitsAll i ts) (Tree.visitsAll i us) := by
  induction parts generalizing i rhs with
  | nil => exact List.pairwise_singleton _ _
  | cons part parts ih =>
    obtain ⟨hstand, hstands⟩ := List.forall_mem_cons.1 hstands
    obtain ⟨hoption, hoptions⟩ := List.forall_mem_cons.1 hoptions
    cases rhs with
    | nil => cases h
    | cons s rest =>
      obtain ⟨rfl, hspan, hrest⟩ := h.uncons
      have hstop : part.span.stop ≤ c.tokens.length := Nat.le_trans hrest.le hj
      have hlen : ∀ t ∈ options part, part.span.start + t.leaves.length = part.span.stop := by
        intro t ht
        rw [(hstand t ht).length_leaves hstop, Span.length]
        omega
      exact pairwise_precedes_cons hlen hoption (ih hrest hstands hoptions)

-- ---------------------------------------------------------------------------
-- All derivations of a phrase kind
-- ---------------------------------------------------------------------------

theorem pairwise_rank_lt (c : Chart) (s : Span) (a : String) :
    (c.derivations s a).Pairwise fun d e => c.rank s d < c.rank s e := by
  rw [List.pairwise_iff_getElem]
  intro i j hi hj hij
  have hrank (k : Nat) (hk : k < (c.derivations s a).length) :
      c.rank s (c.derivations s a)[k] = k := by
    have hsymbol := (mem_derivations.1 (List.getElem_mem hk)).2
    rw [rank, hsymbol]
    exact (c.derivations_nodup s a).idxOf_getElem k hk
  rw [hrank i hi, hrank j hj]
  exact hij

/-- The trees of a phrase kind are in order if those of each derivation are. -/
theorem expand_increasing_of_expandDerivation
    (h : ∀ d ∈ c.derivations s a, (c.expandDerivation s (a :: chain) d).Pairwise fun t u =>
      c.Precedes (t.visits s.start) (u.visits s.start)) :
    (c.expand s a chain).Pairwise fun t u =>
      c.Precedes (t.visits s.start) (u.visits s.start) := by
  rw [expand, List.pairwise_flatMap]
  refine ⟨h, (c.pairwise_rank_lt s a).imp_of_mem fun {d e} hd he hlt t ht u hu => ?_⟩
  obtain ⟨hdcell, hda⟩ := mem_derivations.1 hd
  obtain ⟨hecell, hea⟩ := mem_derivations.1 he
  refine ⟨[], s, d, e, _, _, visits_of_mem_expandDerivation hdcell ht,
    visits_of_mem_expandDerivation hecell hu, hda.trans hea.symm, ?_, ?_, hlt⟩
  · rw [hda]
    exact hd
  · rw [hea]
    exact he

/-- The trees of a derivation are in order. The induction is along the expansion: to
shorter spans, or on the same span to a longer chain. -/
theorem expandDerivation_increasing (hd : d ∈ c.cell s) :
    (c.expandDerivation s chain d).Pairwise fun t u =>
      c.Precedes (t.visits s.start) (u.visits s.start) := by
  induction s, chain, d using expandDerivation.induct c with
  | case1 s chain d ihshort ihsame =>
    obtain ⟨hp, hfound⟩ := mem_cell_iff.1 hd
    have hs : s.Within c.tokens.length :=
      hfound.within (fun _ => cell_eq_nil) (c.grammar.rhs_ne_nil _ hp)
    have hparts : ∀ part ∈ d.parts, (c.expandPart s chain part).Pairwise fun t u =>
        c.Precedes (t.visits part.span.start) (u.visits part.span.start) := by
      intro part _
      cases part with
      | leaf i => exact List.pairwise_singleton _ _
      | node u b =>
        rw [expandPart]
        split
        · next hlt =>
          exact expand_increasing_of_expandDerivation fun e he =>
            ihshort u b hlt e (mem_derivations.1 he).1
        · split
          · next hsame =>
            obtain rfl := hsame.1
            exact expand_increasing_of_expandDerivation fun e he =>
              ihsame u b hsame e he (mem_derivations.1 he).1
          · exact .nil
    have hproduct := pairwise_precedes_product hfound hs.stop_le
      (fun part _ t ht => expandPart_standsFor ht) hparts
    have hvisits : ∀ cs ∈ product (d.parts.map (c.expandPart s chain)),
        (Tree.branch d.symbol cs).visits s.start = .phrase s d :: Tree.visitsAll s.start cs := by
      intro cs hcs
      have hmem : Tree.branch d.symbol cs ∈ c.expandDerivation s chain d := by
        rw [expandDerivation_eq]
        exact List.mem_map_of_mem hcs
      exact visits_of_mem_expandDerivation hd hmem
    rw [expandDerivation_eq, List.pairwise_map]
    refine hproduct.imp_of_mem fun {ts us} hts hus h => ?_
    rw [hvisits ts hts, hvisits us hus]
    exact h.append_left [.phrase s d]

/-- Each tree of a phrase kind precedes the trees after it. -/
theorem expand_increasing (c : Chart) (s : Span) (a : String) (chain : List String) :
    (c.expand s a chain).Pairwise fun t u =>
      c.Precedes (t.visits s.start) (u.visits s.start) :=
  expand_increasing_of_expandDerivation fun _ hd =>
    expandDerivation_increasing (mem_derivations.1 hd).1

/-- No tree of a phrase kind comes twice. -/
theorem expand_nodup (c : Chart) (s : Span) (a : String) (chain : List String) :
    (c.expand s a chain).Nodup :=
  (c.expand_increasing s a chain).imp fun h heq => h.ne (by rw [heq])

end Chart

end Constituency
