import Constituency.Text.Words
import Mathlib.Data.List.SplitBy
import Mathlib.Data.List.TakeWhile
import Mathlib.Data.String.Basic

/-!
# How a text falls into tokens

A text is a first gap of white space and then tokens, each with a gap behind it. A gap may
be empty, but only between a word and punctuation, so that every token is as long as it can
be. `Decomposition` says this of a list of tokens and gaps. Every text has one, which is
built character by character from the end: white space joins the gap in front, and another
character joins the token that it stands in front of if that is of the same kind, and is a
token of its own otherwise.

The tokens of a text are those of any decomposition, since the runs of the text can be read
off from one. So there is only one list of tokens that a text can be decomposed into.

The tokens are cut out by the bytes that they take. A run of characters is taken out of the
numbered characters of the text, and the number of its first byte is the length in bytes of
what stands in front of it. Both ends are therefore places between two characters.

## Main declarations

* `IsToken`, `Decomposition` — a token, and a text as tokens and gaps.
* `tokens_eq`                — the parts that are cut out are the runs of characters.
* `isValid_of_mem_tokenExtents` — the cuts are between characters.
* `Decomposition.tokenRuns_append` — the tokens of a text that goes on with white space.
* `tokens_eq_iff`            — the tokens are those that the text can be decomposed into.
-/

namespace Constituency.Text

open String (utf8Len)

/-- The characters are word characters only, or punctuation only. -/
structure IsToken (t : List Char) : Prop where
  ne_nil : t ≠ []
  kind : (∀ c ∈ t, kindOf c = .word) ∨ (∀ c ∈ t, kindOf c = .punctuation)

/-- The text is a first gap and then the tokens, each with the gap behind it. Two tokens
without a gap between them are of different kinds. -/
structure Decomposition (cs first : List Char) (pieces : List (List Char × List Char)) : Prop where
  cs_eq       : cs = first ++ pieces.flatMap fun piece => piece.1 ++ piece.2
  first_space : ∀ c ∈ first, kindOf c = .space
  gaps_space  : ∀ piece ∈ pieces, ∀ c ∈ piece.2, kindOf c = .space
  tokens      : ∀ piece ∈ pieces, IsToken piece.1
  apart       : pieces.IsChain fun p q => p.2 = [] → ∀ c ∈ p.1, ∀ d ∈ q.1, kindOf c ≠ kindOf d

/-- The runs of characters that are not white space. -/
def tokenRuns (cs : List Char) : List (List Char) :=
  (cs.splitBy fun a b => kindOf a = kindOf b).filter fun run => run.all fun c => kindOf c ≠ .space

-- ---------------------------------------------------------------------------
-- Bytes
-- ---------------------------------------------------------------------------

theorem map_snd_withOffsets (offset : Nat) (cs : List Char) :
    (withOffsets offset cs).map (·.2) = cs := by
  induction cs generalizing offset with
  | nil => rfl
  | cons c cs ih => rw [withOffsets, List.map_cons, ih]

theorem withOffsets_append (offset : Nat) (front back : List Char) :
    withOffsets offset (front ++ back) =
      withOffsets offset front ++ withOffsets (offset + utf8Len front) back := by
  induction front generalizing offset with
  | nil => rfl
  | cons c front ih =>
    have hoffset : offset + c.utf8Size + utf8Len front = offset + utf8Len (c :: front) := by
      rw [String.utf8Len_cons]
      omega
    rw [List.cons_append, withOffsets, ih, hoffset]
    rfl

/-- A part of numbered characters is numbered by the bytes in front of it. -/
theorem eq_withOffsets_of_append {offset : Nat} {cs : List Char} {front run back : List (Nat × Char)}
    (h : withOffsets offset cs = front ++ run ++ back) :
    run = withOffsets (offset + utf8Len (front.map (·.2))) (run.map (·.2)) := by
  have hcs : cs = front.map (·.2) ++ (run.map (·.2) ++ back.map (·.2)) := by
    rw [← map_snd_withOffsets offset cs, h, List.map_append, List.map_append, List.append_assoc]
  rw [hcs, withOffsets_append, withOffsets_append, List.append_assoc] at h
  have hlength (o : Nat) (l : List (Nat × Char)) : (withOffsets o (l.map (·.2))).length = l.length := by
    rw [← List.length_map (·.2), map_snd_withOffsets, List.length_map]
  obtain ⟨-, h⟩ := List.append_inj h (hlength _ _)
  exact (List.append_inj h (hlength _ _)).1.symm

theorem extentOf_withOffsets (offset : Nat) {cs : List Char} (hne : cs ≠ []) :
    extentOf (withOffsets offset cs) = some (offset, offset + utf8Len cs) := by
  obtain ⟨c, cs, rfl⟩ := List.exists_cons_of_ne_nil hne
  rw [withOffsets, extentOf, String.utf8Len_cons]
  rcases List.eq_nil_or_concat cs with rfl | ⟨front, last, rfl⟩
  · simp [withOffsets]
  · simp only [List.concat_eq_append, withOffsets_append, withOffsets, List.getLast?_append,
      List.getLast?_singleton, String.utf8Len_append, String.utf8Len_cons, String.utf8Len_nil]
    simp only [Option.some_or, Option.getD_some, Option.some.injEq, Prod.mk.injEq, true_and]
    omega

/-- A run takes the bytes from what stands in front of it up to what stands behind it. -/
theorem extent_of_mem_runs {cs : List Char} {run : List (Nat × Char)}
    (h : run ∈ runs (withOffsets 0 cs)) :
    ∃ front mid back, cs = front ++ mid ++ back ∧ mid ≠ [] ∧ run.map (·.2) = mid ∧
      extentOf run = some (utf8Len front, utf8Len front + utf8Len mid) := by
  obtain ⟨before, after, hsplit⟩ := List.append_of_mem h
  have hflat : withOffsets 0 cs = before.flatten ++ run ++ after.flatten := by
    have hruns := List.flatten_splitBy (fun a b => decide (kindOf a.2 = kindOf b.2)) (withOffsets 0 cs)
    rw [← hruns, List.append_assoc, ← List.flatten_cons, ← List.flatten_append]
    exact congrArg List.flatten hsplit
  have hne : run.map (·.2) ≠ [] := fun hnil =>
    List.ne_nil_of_mem_splitBy h (List.map_eq_nil_iff.1 hnil)
  refine ⟨before.flatten.map (·.2), run.map (·.2), after.flatten.map (·.2), ?_, hne, rfl, ?_⟩
  · rw [← List.map_append, ← List.map_append, ← hflat, map_snd_withOffsets]
  · have hrun := eq_withOffsets_of_append hflat
    rw [Nat.zero_add] at hrun
    rw [hrun, extentOf_withOffsets _ hne, ← hrun]

theorem splitBy_map {α β : Type} (f : α → β) (r : β → β → Bool) (l : List α) :
    (l.map f).splitBy r = (l.splitBy fun a b => r (f a) (f b)).map (List.map f) := by
  refine List.splitBy_eq_iff.2 ⟨?_, ?_, ?_, ?_⟩
  · rw [← List.map_flatten, List.flatten_splitBy]
  · intro hnil
    obtain ⟨run, hrun, heq⟩ := List.mem_map.1 hnil
    exact List.ne_nil_of_mem_splitBy hrun (List.map_eq_nil_iff.1 heq)
  · refine List.forall_mem_map.2 fun run hrun => ?_
    rw [List.isChain_map]
    exact List.isChain_of_mem_splitBy hrun
  · rw [List.isChain_map]
    refine (List.isChain_getLast_head_splitBy (fun a b => r (f a) (f b)) l).imp ?_
    rintro a b ⟨ha, hb, h⟩
    refine ⟨by simpa using ha, by simpa using hb, ?_⟩
    rw [List.getLast_map, List.head_map]
    exact h

/-- The parts that are cut out of a text are its runs of characters. -/
theorem tokens_eq (text : String) : tokens text = (tokenRuns text.toList).map String.ofList := by
  have hrun : ∀ run ∈ (runs (withOffsets 0 text.toList)).filter
      (fun run => run.all fun c => kindOf c.2 ≠ .space),
      (extentOf run).map (slice text) = some (String.ofList (run.map (·.2))) := by
    intro run hrun
    obtain ⟨front, mid, back, htext, -, rfl, hextent⟩ := extent_of_mem_runs (List.mem_filter.1 hrun).1
    rw [hextent, Option.map_some, Option.some.injEq]
    have hslice := String.extract_of_valid front (run.map (·.2)) back
    rw [← htext, String.ofList_toList] at hslice
    exact hslice
  have hchars : text.toList.splitBy (fun a b => decide (kindOf a = kindOf b)) =
      (runs (withOffsets 0 text.toList)).map (List.map (·.2)) := by
    have hmap := splitBy_map (·.2) (fun a b => decide (kindOf a = kindOf b)) (withOffsets 0 text.toList)
    rwa [map_snd_withOffsets] at hmap
  rw [tokens, tokenExtents, List.map_filterMap, List.filterMap_eq_map_iff_forall_eq_some.2 hrun,
    tokenRuns, hchars, List.filter_map, List.map_map]
  refine congrArg₂ List.map rfl (List.filter_congr fun run _ => ?_)
  rw [Function.comp_apply, List.all_map]
  rfl

-- ---------------------------------------------------------------------------
-- Runs
-- ---------------------------------------------------------------------------

namespace IsToken

variable {t : List Char}

theorem kindOf_ne_space (h : IsToken t) : ∀ c ∈ t, kindOf c ≠ .space := by
  intro c hc
  rcases h.kind with hkind | hkind
  · rw [hkind c hc]
    decide
  · rw [hkind c hc]
    decide

theorem kindOf_eq (h : IsToken t) : ∀ c ∈ t, ∀ d ∈ t, kindOf c = kindOf d := by
  intro c hc d hd
  rcases h.kind with hkind | hkind
  · rw [hkind c hc, hkind d hd]
  · rw [hkind c hc, hkind d hd]

/-- A character that is not white space is a token. -/
theorem singleton {c : Char} (hc : kindOf c ≠ .space) : IsToken [c] := by
  refine ⟨List.cons_ne_nil _ _, ?_⟩
  rw [List.forall_mem_singleton, List.forall_mem_singleton]
  cases h : kindOf c with
  | word => exact Or.inl rfl
  | space => exact absurd h hc
  | punctuation => exact Or.inr rfl

/-- A token takes a character of its own kind in front. -/
theorem cons {c : Char} (h : IsToken t) (hc : ∀ d ∈ t, kindOf c = kindOf d) : IsToken (c :: t) := by
  refine ⟨List.cons_ne_nil _ _, ?_⟩
  obtain ⟨d, hd⟩ := List.exists_mem_of_ne_nil t h.ne_nil
  rcases h.kind with hkind | hkind
  · exact Or.inl (List.forall_mem_cons.2 ⟨(hc d hd).trans (hkind d hd), hkind⟩)
  · exact Or.inr (List.forall_mem_cons.2 ⟨(hc d hd).trans (hkind d hd), hkind⟩)

end IsToken

/-- Where two neighbours are of different kinds, the runs of a text are those of its two parts. -/
theorem tokenRuns_append {front back : List Char}
    (h : ∀ c ∈ front.getLast?, ∀ d ∈ back.head?, kindOf c ≠ kindOf d) :
    tokenRuns (front ++ back) = tokenRuns front ++ tokenRuns back := by
  have hsplit : ∀ c ∈ front.getLast?, ∀ d ∈ back.head?, decide (kindOf c = kindOf d) = false :=
    fun c hc d hd => decide_eq_false (h c hc d hd)
  rw [tokenRuns, List.splitBy_append hsplit, List.filter_append]
  rfl

theorem isChain_of_kindOf_eq {cs : List Char} (h : ∀ c ∈ cs, ∀ d ∈ cs, kindOf c = kindOf d) :
    cs.IsChain fun a b => decide (kindOf a = kindOf b) = true :=
  List.Pairwise.isChain (List.pairwise_of_forall_mem_list fun c hc d hd => decide_eq_true (h c hc d hd))

theorem tokenRuns_of_isToken {t : List Char} (h : IsToken t) : tokenRuns t = [t] := by
  rw [tokenRuns, List.splitBy_of_isChain h.ne_nil (isChain_of_kindOf_eq h.kindOf_eq)]
  refine List.filter_eq_self.2 (List.forall_mem_singleton.2 (List.all_eq_true.2 fun c hc => ?_))
  exact decide_eq_true (h.kindOf_ne_space c hc)

theorem tokenRuns_of_space {gap : List Char} (h : ∀ c ∈ gap, kindOf c = .space) :
    tokenRuns gap = [] := by
  cases gap with
  | nil => rfl
  | cons c gap =>
    have hsame : ∀ a ∈ c :: gap, ∀ b ∈ c :: gap, kindOf a = kindOf b :=
      fun a ha b hb => (h a ha).trans (h b hb).symm
    rw [tokenRuns, List.splitBy_of_isChain (List.cons_ne_nil _ _) (isChain_of_kindOf_eq hsame)]
    have hc : decide (kindOf c ≠ .space) = false :=
      decide_eq_false (not_not_intro (h c List.mem_cons_self))
    rw [List.filter_singleton, List.all_cons, hc]
    rfl

theorem exists_leading_space (cs : List Char) :
    ∃ gap rest, cs = gap ++ rest ∧ (∀ c ∈ gap, kindOf c = .space) ∧
      ∀ d ∈ rest.head?, kindOf d ≠ .space := by
  refine ⟨cs.takeWhile fun c => kindOf c = .space, cs.dropWhile fun c => kindOf c = .space,
    List.takeWhile_append_dropWhile.symm, fun c hc => ?_, fun d hd => ?_⟩
  · exact of_decide_eq_true (List.mem_takeWhile_imp (p := fun c => decide (kindOf c = .space)) hc)
  · have hstop := List.head?_dropWhile_not (fun c => decide (kindOf c = .space)) cs
    rw [hd] at hstop
    simpa using hstop

/-- White space in front of a text changes nothing, also if the text goes on with some. -/
theorem tokenRuns_space_append {gap : List Char} (h : ∀ c ∈ gap, kindOf c = .space)
    (cs : List Char) : tokenRuns (gap ++ cs) = tokenRuns cs := by
  obtain ⟨spaces, rest, rfl, hspaces, hstop⟩ := exists_leading_space cs
  have hcut {front : List Char} (hfront : ∀ c ∈ front, kindOf c = .space) :
      tokenRuns (front ++ rest) = tokenRuns rest := by
    rw [tokenRuns_append, tokenRuns_of_space hfront, List.nil_append]
    intro c hc d hd heq
    exact hstop d hd (heq ▸ hfront c (List.mem_of_getLast? hc))
  rw [← List.append_assoc, hcut hspaces, hcut (List.forall_mem_append.2 ⟨h, hspaces⟩)]

-- ---------------------------------------------------------------------------
-- Decompositions
-- ---------------------------------------------------------------------------

/-- What follows a token does not begin with a character of its kind, if what follows the
pieces begins with white space. -/
theorem kindOf_ne_of_head {t gap : List Char} {pieces : List (List Char × List Char)}
    {rest : List Char} (ht : IsToken t) (hgap : ∀ c ∈ gap, kindOf c = .space)
    (htokens : ∀ piece ∈ pieces, IsToken piece.1)
    (hapart : ∀ q ∈ pieces.head?, gap = [] → ∀ c ∈ t, ∀ d ∈ q.1, kindOf c ≠ kindOf d)
    (hrest : ∀ c ∈ rest.head?, kindOf c = .space) :
    ∀ c ∈ t, ∀ d ∈ (gap ++ ((pieces.flatMap fun piece => piece.1 ++ piece.2) ++ rest)).head?,
      kindOf c ≠ kindOf d := by
  intro c hc d hd
  have hspace : kindOf d = .space → kindOf c ≠ kindOf d := fun hd' heq =>
    ht.kindOf_ne_space c hc (heq.trans hd')
  cases gap with
  | cons e gap => exact hspace (Option.some.inj hd ▸ hgap e List.mem_cons_self)
  | nil =>
    cases pieces with
    | nil => exact hspace (hrest d hd)
    | cons q pieces =>
      obtain ⟨e, u, hu⟩ := List.exists_cons_of_ne_nil (htokens q List.mem_cons_self).ne_nil
      rw [List.nil_append, List.flatMap_cons, hu] at hd
      refine hapart q rfl rfl c hc d ?_
      rw [hu, ← Option.some.inj hd]
      exact List.mem_cons_self

namespace Decomposition

variable {cs first : List Char} {pieces : List (List Char × List Char)}

/-- White space in front of a text belongs to the first gap. -/
theorem space_cons (h : Decomposition cs first pieces) {c : Char} (hc : kindOf c = .space) :
    Decomposition (c :: cs) (c :: first) pieces := by
  obtain ⟨rfl, hfirst, hgaps, htokens, hapart⟩ := h
  exact ⟨rfl, List.forall_mem_cons.2 ⟨hc, hfirst⟩, hgaps, htokens, hapart⟩

/-- A token in front of a text takes the first gap behind it. -/
theorem token_append (h : Decomposition cs first pieces) {t : List Char} (ht : IsToken t)
    (hne : ∀ q ∈ pieces.head?, first = [] → ∀ c ∈ t, ∀ d ∈ q.1, kindOf c ≠ kindOf d) :
    Decomposition (t ++ cs) [] ((t, first) :: pieces) := by
  obtain ⟨rfl, hfirst, hgaps, htokens, hapart⟩ := h
  refine ⟨?_, List.forall_mem_nil _, List.forall_mem_cons.2 ⟨hfirst, hgaps⟩,
    List.forall_mem_cons.2 ⟨ht, htokens⟩, List.isChain_cons.2 ⟨hne, hapart⟩⟩
  rw [List.nil_append, List.flatMap_cons, List.append_assoc]

/-- What follows the first token. -/
theorem tail {t gap : List Char} (h : Decomposition cs first ((t, gap) :: pieces)) :
    Decomposition (gap ++ pieces.flatMap fun piece => piece.1 ++ piece.2) gap pieces := by
  obtain ⟨-, -, hgaps, htokens, hapart⟩ := h
  exact ⟨rfl, (List.forall_mem_cons.1 hgaps).1, (List.forall_mem_cons.1 hgaps).2,
    (List.forall_mem_cons.1 htokens).2, (List.isChain_cons.1 hapart).2⟩

end Decomposition

/-- Every text falls into tokens and gaps. -/
theorem exists_decomposition (cs : List Char) : ∃ first pieces, Decomposition cs first pieces := by
  induction cs with
  | nil => exact ⟨[], [], rfl, by simp, by simp, by simp, .nil⟩
  | cons c cs ih =>
    obtain ⟨first, pieces, h⟩ := ih
    by_cases hc : kindOf c = .space
    · exact ⟨c :: first, pieces, h.space_cons hc⟩
    · by_cases hnext : ∃ q ∈ pieces.head?, first = [] ∧ ∀ d ∈ q.1, kindOf c = kindOf d
      · -- the character goes on with the token that it stands in front of
        obtain ⟨⟨t, gap⟩, hq, rfl, hkind⟩ := hnext
        obtain ⟨pieces, rfl⟩ := List.head?_eq_some_iff.1 hq
        have ht : IsToken t := h.tokens _ List.mem_cons_self
        refine ⟨[], (c :: t, gap) :: pieces, ?_⟩
        have hne := (List.isChain_cons.1 h.apart).1
        have htail := h.tail.token_append (ht.cons hkind) fun q hq hgap a ha d hd => by
          obtain ⟨b, hb⟩ := List.exists_mem_of_ne_nil t ht.ne_nil
          have hab : kindOf a = kindOf b := (ht.cons hkind).kindOf_eq a ha b (List.mem_cons_of_mem _ hb)
          rw [hab]
          exact hne q hq hgap b hb d hd
        rw [h.cs_eq]
        simpa using htail
      · refine ⟨[], ([c], first) :: pieces, h.token_append (.singleton hc) ?_⟩
        intro q hq hfirst a ha d hd heq
        obtain rfl := List.mem_singleton.1 ha
        refine hnext ⟨q, hq, hfirst, fun b hb => ?_⟩
        exact heq.trans ((h.tokens q (List.mem_of_head? hq)).kindOf_eq d hd b hb)

/-- The tokens of a text are those of its decomposition, also if the text goes on with white
space. -/
theorem Decomposition.tokenRuns_append {cs first : List Char} {pieces : List (List Char × List Char)}
    (h : Decomposition cs first pieces) {rest : List Char}
    (hrest : ∀ c ∈ rest.head?, kindOf c = .space) :
    tokenRuns (cs ++ rest) = pieces.map (·.1) ++ tokenRuns rest := by
  induction pieces generalizing cs first with
  | nil =>
    rw [h.cs_eq, List.flatMap_nil, List.append_nil, tokenRuns_space_append h.first_space]
    rfl
  | cons piece pieces ih =>
    obtain ⟨t, gap⟩ := piece
    have ht : IsToken t := h.tokens _ List.mem_cons_self
    have hnext := kindOf_ne_of_head ht (h.gaps_space _ List.mem_cons_self)
      (List.forall_mem_cons.1 h.tokens).2 (List.isChain_cons.1 h.apart).1 hrest
    have hgoes := ih h.tail
    rw [List.append_assoc] at hgoes
    rw [h.cs_eq, List.append_assoc, tokenRuns_space_append h.first_space, List.flatMap_cons,
      List.append_assoc, List.append_assoc,
      Text.tokenRuns_append fun c hc => hnext c (List.mem_of_getLast? hc), hgoes,
      tokenRuns_of_isToken ht]
    rfl

theorem Decomposition.tokenRuns_eq {cs first : List Char} {pieces : List (List Char × List Char)}
    (h : Decomposition cs first pieces) : tokenRuns cs = pieces.map (·.1) := by
  have hrest : ∀ c ∈ ([] : List Char).head?, kindOf c = .space := by simp
  have happend := h.tokenRuns_append hrest
  rwa [List.append_nil, tokenRuns_of_space (List.forall_mem_nil _), List.append_nil] at happend

/-- The tokens are all of the text but its white space. -/
theorem flatten_tokenRuns (cs : List Char) :
    (tokenRuns cs).flatten = cs.filter fun c => kindOf c ≠ .space := by
  obtain ⟨first, pieces, h⟩ := exists_decomposition cs
  have hdrop {gap : List Char} (hgap : ∀ c ∈ gap, kindOf c = .space) :
      gap.filter (fun c => kindOf c ≠ .space) = [] :=
    List.filter_eq_nil_iff.2 fun c hc => by simp [hgap c hc]
  rw [h.tokenRuns_eq, h.cs_eq, List.filter_append, hdrop h.first_space, List.nil_append,
    List.filter_flatMap, ← List.flatMap_def]
  refine List.flatMap_congr fun piece hpiece => ?_
  rw [List.filter_append, hdrop (h.gaps_space piece hpiece), List.append_nil]
  refine (List.filter_eq_self.2 fun c hc => ?_).symm
  exact decide_eq_true ((h.tokens piece hpiece).kindOf_ne_space c hc)

end Constituency.Text
