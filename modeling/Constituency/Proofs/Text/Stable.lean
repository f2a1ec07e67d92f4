import Constituency.Proofs.Text.Words

/-!
# Words written as a sentence

The words of a sentence, with a blank between any two of them, are a sentence again, and it
has the same words. The text of this sentence is in lower case already: it consists of blanks
and of characters that the lower case of a text has, and none of these changes a second time.
So nothing in it depends on the characters around it, not even a sigma, for there is no
capital one left. The blanks cut it where the words end, each word is one run of word
characters, and each of them has a letter.

That no character changes a second time is a fact about the table of lower cases: what a run
maps to is mapped by no run. It is enough to compare the runs with each other. Two of them
either lie apart or are interleaved, as where capital and small letters take turns.

## Main declarations

* `lowerChar_of_mem_lowerChar` — what is in lower case stays as it is.
* `lowercase_lowercase`        — the same for texts.
* `IsWord`, `isWord_of_mem_words` — a text that is a word in lower case; words are.
* `words_intercalate`          — the words of words with blanks between them.
* `words_stable`               — the words of a sentence, and all lists of words there are.
-/

namespace Constituency.Unicode

-- ---------------------------------------------------------------------------
-- The table of lower cases
-- ---------------------------------------------------------------------------

/-- The run has a code point among those that it maps. -/
def CaseRun.Maps (r : CaseRun) (n : Nat) : Prop :=
  r.first ≤ n ∧ n ≤ r.last ∧ (n - r.first) % r.step = 0

/-- What `r` maps to lies above or below the code points of `q`, or between them, two apart
like these. -/
def CaseRun.avoids (r q : CaseRun) : Bool :=
  -- Boolean tests on numbers, as all pairs of runs have to be gone through
  q.last.blt r.image || ((r.image + (r.last - r.first)).blt q.first ||
    (q.step.beq 2 && ((r.step.beq 2 || r.first.beq r.last) && ((r.image + q.first) % 2).beq 1)))

/-- The capital I with a dot above, as a run. -/
def dottedRun : CaseRun :=
  ⟨0x130, 0x130, 1, 0x69⟩

theorem not_maps_of_avoids {r q : CaseRun} (h : r.avoids q = true) {n : Nat} (hn : r.Maps n) :
    ¬q.Maps (r.image + (n - r.first)) := by
  obtain ⟨hfirst, hlast, hstep⟩ := hn
  rintro ⟨hfirst', hlast', hstep'⟩
  simp only [CaseRun.avoids, Bool.or_eq_true, Bool.and_eq_true, Nat.blt_eq, Nat.beq_eq] at h
  rcases h with hbelow | habove | ⟨hq, hr, hparity⟩
  · omega
  · omega
  · -- one of the two code points is even and the other one odd
    rw [hq] at hstep'
    rcases hr with hr | hr
    · rw [hr] at hstep
      omega
    · omega

theorem imageIn_eq_self {rs : List CaseRun} {n : Nat} (h : ∀ r ∈ rs, ¬r.Maps n) :
    imageIn rs n = n := by
  induction rs with
  | nil => rfl
  | cons r rest ih =>
    obtain ⟨hr, hrest⟩ := List.forall_mem_cons.1 h
    rw [imageIn]
    split
    · rfl
    · next hfirst =>
      rw [if_neg fun hmaps => hr ⟨Nat.le_of_not_lt hfirst, hmaps⟩]
      exact ih hrest

theorem imageIn_cases (rs : List CaseRun) (n : Nat) :
    imageIn rs n = n ∨ ∃ r ∈ rs, r.Maps n ∧ imageIn rs n = r.image + (n - r.first) := by
  induction rs with
  | nil => exact Or.inl rfl
  | cons r rest ih =>
    rw [imageIn]
    split
    · exact Or.inl rfl
    · next hfirst =>
      split
      · next hmaps =>
        exact Or.inr ⟨r, List.mem_cons_self, ⟨Nat.le_of_not_lt hfirst, hmaps⟩, rfl⟩
      · refine ih.imp_right ?_
        rintro ⟨q, hq, hmaps⟩
        exact ⟨q, List.mem_cons_of_mem _ hq, hmaps⟩

/-- The runs map to no code point that a run maps. -/
theorem avoids_of_mem_caseRuns {r q : CaseRun} (hr : r ∈ caseRuns) (hq : q ∈ dottedRun :: caseRuns) :
    r.avoids q = true := by
  have hall : caseRuns.all (fun r => (dottedRun :: caseRuns).all r.avoids) = true := by
    decide +kernel
  exact List.all_eq_true.1 (List.all_eq_true.1 hall r hr) q hq

theorem imageIn_imageIn (n : Nat) :
    imageIn caseRuns (imageIn caseRuns n) = imageIn caseRuns n := by
  rcases imageIn_cases caseRuns n with hself | ⟨r, hr, hmaps, himage⟩
  · rw [hself, hself]
  · rw [himage]
    refine imageIn_eq_self fun q hq => ?_
    exact not_maps_of_avoids (avoids_of_mem_caseRuns hr (List.mem_cons_of_mem _ hq)) hmaps

theorem imageIn_ne_dotted {n : Nat} (hn : n ≠ 0x130) : imageIn caseRuns n ≠ 0x130 := by
  rcases imageIn_cases caseRuns n with hself | ⟨r, hr, hmaps, himage⟩
  · rwa [hself]
  · intro hdotted
    have hnot := not_maps_of_avoids (avoids_of_mem_caseRuns hr List.mem_cons_self) hmaps
    rw [← himage, hdotted] at hnot
    exact hnot (by unfold CaseRun.Maps; decide)

/-- What a character is in lower case is its own lower case. -/
theorem lowerChar_of_mem_lowerChar {c d : Char} (h : d ∈ lowerChar c) : lowerChar d = [d] := by
  rw [lowerChar] at h
  split at h
  · rcases List.mem_pair.1 h with rfl | rfl
    · decide +kernel
    · decide +kernel
  · next hc =>
    obtain rfl := List.mem_singleton.1 h
    by_cases hvalid : (imageIn caseRuns c.toNat).isValidChar
    · have hnat : (Char.ofNat (imageIn caseRuns c.toNat)).toNat = imageIn caseRuns c.toNat := by
        rw [Char.ofNat, dif_pos hvalid]
        rfl
      have hne : Char.ofNat (imageIn caseRuns c.toNat) ≠ '\u0130' := fun heq => by
        refine imageIn_ne_dotted (n := c.toNat) (fun hn => hc ?_) (by rw [← hnat, heq]; rfl)
        exact Char.toNat_inj.1 hn
      rw [lowerChar, if_neg hne, hnat, imageIn_imageIn]
    · -- a number of no character stands for the null character
      have hnull : Char.ofNat (imageIn caseRuns c.toNat) = '\x00' := dif_neg hvalid
      rw [hnull]
      decide +kernel

end Constituency.Unicode

namespace Constituency.Text

open Unicode

-- ---------------------------------------------------------------------------
-- Texts in lower case
-- ---------------------------------------------------------------------------

theorem lowerChar_of_mem_lowerAfter {before cs : List Char} {d : Char}
    (h : d ∈ lowerAfter before cs) : lowerChar d = [d] := by
  induction cs generalizing before with
  | nil => exact absurd h List.not_mem_nil
  | cons c cs ih =>
    rw [lowerAfter] at h
    rcases List.mem_append.1 h with hd | hd
    · split at hd
      · rw [List.mem_singleton.1 hd, smallSigma]
        split
        · decide +kernel
        · decide +kernel
      · exact lowerChar_of_mem_lowerChar hd
    · exact ih hd

/-- A text whose characters are in lower case has no capital sigma, so nothing in it depends
on what stands around it. -/
theorem lowerAfter_eq_self {cs : List Char} (h : ∀ c ∈ cs, lowerChar c = [c]) (before : List Char) :
    lowerAfter before cs = cs := by
  induction cs generalizing before with
  | nil => rfl
  | cons c cs ih =>
    obtain ⟨hc, hcs⟩ := List.forall_mem_cons.1 h
    have hsigma : c ≠ 'Σ' := by
      rintro rfl
      exact absurd hc (by decide +kernel)
    rw [lowerAfter, if_neg hsigma, hc, ih hcs]
    rfl

theorem lowercase_eq_self {text : String} (h : ∀ c ∈ text.toList, lowerChar c = [c]) :
    lowercase text = text := by
  rw [lowercase, lowerAfter_eq_self h, String.ofList_toList]

/-- Putting a text into lower case twice is putting it into lower case. -/
theorem lowercase_lowercase (text : String) : lowercase (lowercase text) = lowercase text := by
  refine lowercase_eq_self fun c hc => ?_
  rw [lowercase, String.toList_ofList] at hc
  exact lowerChar_of_mem_lowerAfter hc

-- ---------------------------------------------------------------------------
-- Words
-- ---------------------------------------------------------------------------

/-- The text is a run of word characters in lower case with a letter among them. -/
structure IsWord (w : String) : Prop where
  lower  : ∀ c ∈ w.toList, lowerChar c = [c]
  kind   : ∀ c ∈ w.toList, kindOf c = .word
  letter : w.toList.any isAlphabetic = true

theorem IsWord.isToken {w : String} (h : IsWord w) : IsToken w.toList := by
  refine ⟨fun hnil => ?_, Or.inl h.kind⟩
  have hletter := h.letter
  rw [hnil] at hletter
  cases hletter

theorem isToken_of_mem_tokenRuns {cs t : List Char} (h : t ∈ tokenRuns cs) : IsToken t := by
  obtain ⟨first, pieces, hpieces⟩ := exists_decomposition cs
  rw [hpieces.tokenRuns_eq] at h
  obtain ⟨piece, hpiece, rfl⟩ := List.mem_map.1 h
  exact hpieces.tokens piece hpiece

theorem mem_of_mem_tokenRuns {cs t : List Char} (h : t ∈ tokenRuns cs) {c : Char} (hc : c ∈ t) :
    c ∈ cs := by
  have hflat : c ∈ (tokenRuns cs).flatten := List.mem_flatten.2 ⟨t, h, hc⟩
  rw [flatten_tokenRuns] at hflat
  exact (List.mem_filter.1 hflat).1

theorem isWord_of_mem_words {sentence w : String} (h : w ∈ words sentence) : IsWord w := by
  obtain ⟨htoken, hletter⟩ := List.mem_filter.1 h
  rw [tokens_eq] at htoken
  obtain ⟨t, ht, rfl⟩ := List.mem_map.1 htoken
  rw [String.toList_ofList] at hletter
  refine ⟨fun c hc => ?_, fun c hc => ?_, by rwa [String.toList_ofList]⟩
  · rw [String.toList_ofList] at hc
    have hlower := mem_of_mem_tokenRuns ht hc
    rw [lowercase, String.toList_ofList] at hlower
    exact lowerChar_of_mem_lowerAfter hlower
  · rw [String.toList_ofList] at hc
    obtain ⟨d, hd, hletter⟩ := List.any_eq_true.1 hletter
    rw [(isToken_of_mem_tokenRuns ht).kindOf_eq c hc d hd]
    exact kindOf_of_isAlphabetic hletter

-- ---------------------------------------------------------------------------
-- Words with blanks between them
-- ---------------------------------------------------------------------------

theorem intercalate_cons_cons_blank (w v : String) (ws : List String) :
    " ".intercalate (w :: v :: ws) = w ++ String.singleton ' ' ++ " ".intercalate (v :: ws) :=
  String.intercalate_cons_cons

theorem lowercase_intercalate {ws : List String} (h : ∀ w ∈ ws, lowercase w = w) :
    lowercase (" ".intercalate ws) = " ".intercalate ws := by
  induction ws with
  | nil => rfl
  | cons w ws ih =>
    obtain ⟨hw, hws⟩ := List.forall_mem_cons.1 h
    cases ws with
    | nil => rwa [String.intercalate_singleton]
    | cons v ws =>
      have hblank : isWhiteSpace ' ' = true := by decide
      rw [intercalate_cons_cons_blank, lowercase_append_space hblank, hw, ih hws]

theorem tokens_intercalate {ws : List String} (h : ∀ w ∈ ws, IsToken w.toList) :
    tokens (" ".intercalate ws) = ws := by
  induction ws with
  | nil => rfl
  | cons w ws ih =>
    obtain ⟨hw, hws⟩ := List.forall_mem_cons.1 h
    have hself : tokens w = [w] := by
      rw [tokens_eq, tokenRuns_of_isToken hw, List.map_singleton, String.ofList_toList]
    cases ws with
    | nil => rwa [String.intercalate_singleton]
    | cons v ws =>
      have hblank : kindOf ' ' = .space := by decide
      rw [intercalate_cons_cons_blank, tokens_append_space _ _ hblank, hself, ih hws]
      rfl

/-- Words with blanks between them have no other words. -/
theorem words_intercalate {ws : List String} (h : ∀ w ∈ ws, IsWord w) :
    words (" ".intercalate ws) = ws := by
  rw [words, lowercase_intercalate fun w hw => lowercase_eq_self (h w hw).lower,
    tokens_intercalate fun w hw => (h w hw).isToken]
  exact List.filter_eq_self.2 fun w hw => (h w hw).letter

/-- The words of a sentence, with blanks between them, are a sentence with the same words.
The lists of words for which this holds are those of runs of word characters in lower case
with a letter in each. -/
theorem words_stable (sentence : String) :
    words (" ".intercalate (words sentence)) = words sentence ∧
    ∀ ws : List String, words (" ".intercalate ws) = ws ↔ ∀ w ∈ ws, IsWord w := by
  refine ⟨words_intercalate fun w => isWord_of_mem_words, fun ws => ⟨fun h w hw => ?_,
    words_intercalate⟩⟩
  rw [← h] at hw
  exact isWord_of_mem_words hw

-- the dot of the capital I becomes a mark of its own, which cuts the word
example : words "İZ ΟΔΟΣ" = ["i", "z", "οδος"] := by decide +kernel

end Constituency.Text
