import Constituency.Source.Token
import Mathlib.Data.List.TakeWhile

/-!
# What a line spells

A line spells tokens when it is the tokens written one after the other, with white
space anywhere between them. The arrow and the bar are written as they are, a word
between two quotes of one kind that it does not hold itself, and a name as it is. A
name ends where no further character could belong to it, so that the text of one name
is not cut into two.

The lexer reads one token after the other and never goes back. `lexLine_eq_ok_iff` says
that it finds the tokens that a line spells, and finds none for any other line. So a
line is written by laying out its tokens, and what holds of the characters of a line
holds of its names and words.

## Main declarations

* `Spelled`           — the characters spell the tokens.
* `lexLine_eq_ok_iff` — the lexer finds what is spelled.
-/

namespace Constituency.Source

open Unicode

/-- The characters spell the tokens. -/
inductive Spelled : List Char → List Token → Prop
  | nil : Spelled [] []
  | blank {c : Char} {cs : List Char} {ts : List Token} (hc : isWhiteSpace c = true)
      (h : Spelled cs ts) : Spelled (c :: cs) ts
  | arrow {cs : List Char} {ts : List Token} (h : Spelled cs ts) :
      Spelled ('-' :: '>' :: cs) (.arrow :: ts)
  | bar {cs : List Char} {ts : List Token} (h : Spelled cs ts) : Spelled ('|' :: cs) (.bar :: ts)
  | word {q : Char} {w cs : List Char} {ts : List Token} (hq : isQuote q = true) (hw : q ∉ w)
      (h : Spelled cs ts) : Spelled (q :: (w ++ q :: cs)) (.word (String.ofList w) :: ts)
  | name {a cs : List Char} {ts : List Token} (ha : a ≠ [])
      (hchars : ∀ c ∈ a, isNameChar c = true) (hnext : ∀ c ∈ cs.head?, isNameChar c = false)
      (h : Spelled cs ts) : Spelled (a ++ cs) (.name (String.ofList a) :: ts)

-- ---------------------------------------------------------------------------
-- Kinds of characters
-- ---------------------------------------------------------------------------

theorem isNameChar_iff {c : Char} :
    isNameChar c = true ↔ isWhiteSpace c = false ∧ c ≠ '|' ∧ c ≠ '-' ∧ isQuote c = false := by
  simp [isNameChar, and_assoc]

theorem ne_of_isWhiteSpace {c d : Char} (hc : isWhiteSpace c = true)
    (hd : isWhiteSpace d = false) : c ≠ d := by
  rintro rfl
  rw [hc] at hd
  cases hd

theorem isQuote_of_isWhiteSpace {c : Char} (hc : isWhiteSpace c = true) : isQuote c = false := by
  have hdouble : c ≠ '"' := ne_of_isWhiteSpace hc (by decide)
  have hsingle : c ≠ '\'' := ne_of_isWhiteSpace hc (by decide)
  simp [isQuote, hdouble, hsingle]

theorem ne_of_isQuote {c d : Char} (hc : isQuote c = true) (hd : isQuote d = false) : c ≠ d := by
  rintro rfl
  rw [hc] at hd
  cases hd

-- ---------------------------------------------------------------------------
-- One token
-- ---------------------------------------------------------------------------

theorem takeWhile_append_of_head? {α : Type} {p : α → Bool} {front rest : List α}
    (hfront : ∀ x ∈ front, p x = true) (hrest : ∀ x ∈ rest.head?, p x = false) :
    (front ++ rest).takeWhile p = front := by
  have hstop : rest.takeWhile p = [] := by
    cases rest with
    | nil => rfl
    | cons x xs => rw [List.takeWhile_cons_of_neg (by rw [hrest x rfl]; exact Bool.false_ne_true)]
  rw [List.takeWhile_append_of_pos hfront, hstop, List.append_nil]

theorem dropWhile_append_of_head? {α : Type} {p : α → Bool} {front rest : List α}
    (hfront : ∀ x ∈ front, p x = true) (hrest : ∀ x ∈ rest.head?, p x = false) :
    (front ++ rest).dropWhile p = rest := by
  have hsplit : (front ++ rest).takeWhile p ++ (front ++ rest).dropWhile p = front ++ rest :=
    List.takeWhile_append_dropWhile
  rw [takeWhile_append_of_head? hfront hrest] at hsplit
  exact List.append_cancel_left hsplit

/-- A quote opens the word that reaches up to the next quote of its kind. -/
theorem lexWord_eq_ok_iff {q : Char} (hq : isQuote q = true) {cs rest : List Char} {t : Token} :
    lexWord (q :: cs) = (.ok t, rest) ↔
      ∃ w, q ∉ w ∧ cs = w ++ q :: rest ∧ t = .word (String.ofList w) := by
  have hsplit : cs = cs.takeWhile (· ≠ q) ++ cs.dropWhile (· ≠ q) :=
    List.takeWhile_append_dropWhile.symm
  rw [lexWord, if_pos hq]
  constructor
  · intro h
    split at h
    · cases h
    · next d _ hdrop =>
      obtain ⟨ht, rfl⟩ := Prod.mk.inj h
      refine ⟨cs.takeWhile (· ≠ q), fun hmem => ?_, ?_, (Except.ok.inj ht).symm⟩
      · have hne := List.mem_takeWhile_imp hmem
        exact of_decide_eq_true hne rfl
      · -- what stops the word is the quote
        have hstop := List.head?_dropWhile_not (fun c => decide (c ≠ q)) cs
        rw [hdrop] at hstop
        have hd : d = q := by simpa using hstop
        rw [← hd, ← hdrop, hd]
        exact hsplit
  · rintro ⟨w, hw, rfl, rfl⟩
    have hfront : ∀ c ∈ w, decide (c ≠ q) = true := fun c hc =>
      decide_eq_true fun heq => hw (heq ▸ hc)
    have hrest : ∀ c ∈ (q :: rest).head?, decide (c ≠ q) = false := by
      intro c hc
      rw [← Option.some.inj hc]
      exact decide_eq_false fun hne => hne rfl
    rw [dropWhile_append_of_head? hfront hrest, takeWhile_append_of_head? hfront hrest]

-- ---------------------------------------------------------------------------
-- A whole line
-- ---------------------------------------------------------------------------

theorem map_eq_ok_iff {ε α β : Type} {f : α → β} {x : Except ε α} {y : β} :
    x.map f = .ok y ↔ ∃ a, x = .ok a ∧ f a = y := by
  cases x <;> simp [Except.map]

theorem lexLine_blank {c : Char} {cs : List Char} (hc : isWhiteSpace c = true) :
    lexLine (c :: cs) = lexLine cs := by
  have hdash : c ≠ '-' := ne_of_isWhiteSpace hc (by decide)
  have hbar : c ≠ '|' := ne_of_isWhiteSpace hc (by decide)
  have hname : isNameChar c = false := by rw [isNameChar, hc]; rfl
  rw [lexLine.eq_def]
  simp [hdash, hbar, isQuote_of_isWhiteSpace hc, hname]

theorem lexLine_arrow (cs : List Char) :
    lexLine ('-' :: '>' :: cs) = (lexLine cs).map (.arrow :: ·) := by
  rw [lexLine.eq_def]
  rfl

theorem lexLine_bar (cs : List Char) : lexLine ('|' :: cs) = (lexLine cs).map (.bar :: ·) := by
  rw [lexLine.eq_def]
  rfl

theorem lexLine_word {q : Char} {w cs : List Char} (hq : isQuote q = true) (hw : q ∉ w) :
    lexLine (q :: (w ++ q :: cs)) = (lexLine cs).map (.word (String.ofList w) :: ·) := by
  have hdash : q ≠ '-' := ne_of_isQuote hq (by decide)
  have hbar : q ≠ '|' := ne_of_isQuote hq (by decide)
  have hword : lexWord (q :: (w ++ q :: cs)) = (.ok (.word (String.ofList w)), cs) :=
    (lexWord_eq_ok_iff hq).2 ⟨w, hw, rfl, rfl⟩
  rw [lexLine.eq_def]
  simp only [hdash, hbar, hq, if_true, if_false]
  split
  · next t rest h =>
    obtain ⟨ht, rfl⟩ := Prod.mk.inj (hword.symm.trans h)
    rw [Except.ok.inj ht]
  · next e rest h =>
    cases (Prod.mk.inj (hword.symm.trans h)).1

theorem lexLine_name {a cs : List Char} (ha : a ≠ []) (hchars : ∀ c ∈ a, isNameChar c = true)
    (hnext : ∀ c ∈ cs.head?, isNameChar c = false) :
    lexLine (a ++ cs) = (lexLine cs).map (.name (String.ofList a) :: ·) := by
  obtain ⟨c, cs', rfl⟩ := List.exists_cons_of_ne_nil ha
  have hc := hchars c List.mem_cons_self
  obtain ⟨-, hbar, hdash, hquote⟩ := isNameChar_iff.1 hc
  have htake := takeWhile_append_of_head? hchars hnext
  have hdrop := dropWhile_append_of_head? hchars hnext
  rw [List.cons_append] at htake hdrop ⊢
  rw [lexLine.eq_def]
  simp only [hdash, hbar, hquote, hc, if_false, Bool.false_eq_true, dite_true, lexName, htake,
    hdrop]

theorem Spelled.lexLine_eq {cs : List Char} {ts : List Token} (h : Spelled cs ts) :
    lexLine cs = .ok ts := by
  induction h with
  | nil => rw [lexLine.eq_def]
  | blank hc _ ih => rw [lexLine_blank hc, ih]
  | arrow _ ih => rw [lexLine_arrow, ih, Except.map]
  | bar _ ih => rw [lexLine_bar, ih, Except.map]
  | word hq hw _ ih => rw [lexLine_word hq hw, ih, Except.map]
  | name ha hchars hnext _ ih => rw [lexLine_name ha hchars hnext, ih, Except.map]

theorem spelled_of_lexLine_eq_ok {cs : List Char} {ts : List Token} (h : lexLine cs = .ok ts) :
    Spelled cs ts := by
  fun_induction lexLine cs generalizing ts with
  | case1 =>
    obtain rfl := Except.ok.inj h
    exact .nil
  | case2 rest ih =>
    obtain ⟨ts, hts, rfl⟩ := map_eq_ok_iff.1 h
    exact .arrow (ih hts)
  | case3 => cases h
  | case4 rest _ ih =>
    obtain ⟨ts, hts, rfl⟩ := map_eq_ok_iff.1 h
    exact .bar (ih hts)
  | case5 q cs _ _ hq t rest hword ih =>
    obtain ⟨ts, hts, rfl⟩ := map_eq_ok_iff.1 h
    obtain ⟨w, hw, rfl, rfl⟩ := (lexWord_eq_ok_iff hq).1 hword
    exact .word hq hw (ih hts)
  | case6 => cases h
  | case7 c cs _ _ _ hc ih =>
    obtain ⟨ts, hts, rfl⟩ := map_eq_ok_iff.1 h
    have hne : (c :: cs).takeWhile isNameChar ≠ [] := by
      rw [List.takeWhile_cons_of_pos hc]
      exact List.cons_ne_nil _ _
    have hnext : ∀ d ∈ ((c :: cs).dropWhile isNameChar).head?, isNameChar d = false := by
      intro d hd
      have hstop := List.head?_dropWhile_not isNameChar (c :: cs)
      rw [hd] at hstop
      exact hstop
    have hname := Spelled.name hne (fun _ => List.mem_takeWhile_imp) hnext (ih hts)
    rw [List.takeWhile_append_dropWhile] at hname
    exact hname
  | case8 c cs hdash hbar hquote hname ih =>
    have hc : isWhiteSpace c = true := by
      refine Bool.of_not_eq_false fun hc => hname ?_
      exact isNameChar_iff.2 ⟨hc, hbar, hdash, Bool.of_not_eq_true hquote⟩
    exact .blank hc (ih h)

/-- The lexer finds the tokens that a line spells, and none where it spells none. -/
theorem lexLine_eq_ok_iff {cs : List Char} {ts : List Token} :
    lexLine cs = .ok ts ↔ Spelled cs ts :=
  ⟨spelled_of_lexLine_eq_ok, Spelled.lexLine_eq⟩

-- ---------------------------------------------------------------------------
-- The characters of names and words
-- ---------------------------------------------------------------------------

namespace Spelled

/-- A name on a line is not empty and has only characters that may stand in names. -/
theorem chars_of_name_mem {cs : List Char} {ts : List Token} (h : Spelled cs ts) {a : String}
    (ha : .name a ∈ ts) : a.toList ≠ [] ∧ ∀ c ∈ a.toList, isNameChar c = true := by
  induction h with
  | nil => exact absurd ha List.not_mem_nil
  | blank _ _ ih => exact ih ha
  | arrow _ ih => exact ih ((List.mem_cons.1 ha).resolve_left nofun)
  | bar _ ih => exact ih ((List.mem_cons.1 ha).resolve_left nofun)
  | word _ _ _ ih => exact ih ((List.mem_cons.1 ha).resolve_left nofun)
  | name hne hchars _ _ ih =>
    rcases List.mem_cons.1 ha with ha | ha
    · rw [Token.name.inj ha, String.toList_ofList]
      exact ⟨hne, hchars⟩
    · exact ih ha

/-- The characters of a word stand on its line. -/
theorem mem_of_word_mem {cs : List Char} {ts : List Token} (h : Spelled cs ts) {w : String}
    (hw : .word w ∈ ts) {c : Char} (hc : c ∈ w.toList) : c ∈ cs := by
  induction h with
  | nil => exact absurd hw List.not_mem_nil
  | blank _ _ ih => exact List.mem_cons_of_mem _ (ih hw)
  | arrow _ ih =>
    have hmem := ih ((List.mem_cons.1 hw).resolve_left nofun)
    exact List.mem_cons_of_mem _ (List.mem_cons_of_mem _ hmem)
  | bar _ ih => exact List.mem_cons_of_mem _ (ih ((List.mem_cons.1 hw).resolve_left nofun))
  | word _ _ _ ih =>
    rcases List.mem_cons.1 hw with hw | hw
    · rw [Token.word.inj hw, String.toList_ofList] at hc
      exact List.mem_cons_of_mem _ (List.mem_append_left _ hc)
    · exact List.mem_cons_of_mem _ (List.mem_append_right _ (List.mem_cons_of_mem _ (ih hw)))
  | name _ _ _ _ ih => exact List.mem_append_right _ (ih ((List.mem_cons.1 hw).resolve_left nofun))

/-- A line that begins with a name has the first character of the name as its first
visible one. -/
theorem head?_dropWhile {cs : List Char} {ts : List Token} {a : String}
    (h : Spelled cs (.name a :: ts)) : (cs.dropWhile isWhiteSpace).head? = a.toList.head? := by
  generalize hts : Token.name a :: ts = us at h
  induction h with
  | blank hc _ ih =>
    rw [List.dropWhile_cons_of_pos hc]
    exact ih hts
  | @name a' cs us hne hchars _ _ _ =>
    obtain ⟨c, cs', rfl⟩ := List.exists_cons_of_ne_nil hne
    have hc : isWhiteSpace c = false := (isNameChar_iff.1 (hchars c List.mem_cons_self)).1
    rw [Token.name.inj (List.cons.inj hts).1, String.toList_ofList, List.cons_append,
      List.dropWhile_cons_of_neg (by rw [hc]; exact Bool.false_ne_true)]
    rfl
  | _ => cases hts

end Spelled

end Constituency.Source
