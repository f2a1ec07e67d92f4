import Constituency.Proofs.Source.Rule
import Mathlib.Data.List.Forall2

/-!
# How a line is laid out

A line of tokens is the text of the tokens with gaps of white space: one in front, and
one behind each token. A gap may be empty, except between two names, which would be
read as one. `Layout` says this of a whole line at once, where `Spelled` says it token
by token; `spelled_iff_layout` joins the two views. The one turn in it is the end of a
name: `Spelled` looks at the next character, `Layout` at the next token, and what begins
with a character of names is a name.

A line without a layout is cut at the place where the lexer gets stuck. What stands
before that place is a line of its own and is read to its end, since neither a dash nor
a quote could belong to a name there. So the two errors are told apart by what the rest
begins with.

## Main declarations

* `Token.WrittenAs`, `Layout` — the text of a token, and of a line.
* `Stuck`                     — a text with nothing readable at its beginning.
* `lexLine_eq_error_iff`      — an error is a line that is read up to a stuck rest.
* `lexLine_iff_layout`        — the tokens and the errors of every line.
-/

namespace Constituency.Source

open Unicode

/-- The text of a token. -/
inductive Token.WrittenAs : Token → List Char → Prop
  | arrow : WrittenAs .arrow ['-', '>']
  | bar : WrittenAs .bar ['|']
  | word {q : Char} {w : String} (hq : q = '"' ∨ q = '\'') (hw : q ∉ w.toList) :
      WrittenAs (.word w) (q :: (w.toList ++ [q]))
  | name {a : String} (ha : a ≠ "")
      (hchars : ∀ c ∈ a.toList,
        isWhiteSpace c = false ∧ c ≠ '|' ∧ c ≠ '-' ∧ c ≠ '"' ∧ c ≠ '\'') :
      WrittenAs (.name a) a.toList

/-- The line is a first gap and then the tokens, each with its text and the gap behind
it. -/
structure Layout (line : List Char) (ts : List Token) (first : List Char)
    (pieces : List (List Char × List Char)) : Prop where
  line_eq     : line = first ++ pieces.flatMap fun piece => piece.1 ++ piece.2
  first_blank : ∀ c ∈ first, isWhiteSpace c = true
  gaps_blank  : ∀ piece ∈ pieces, ∀ c ∈ piece.2, isWhiteSpace c = true
  written     : List.Forall₂ (fun t piece => t.WrittenAs piece.1) ts pieces
  apart       : ∀ (i : Nat) (a b : String) (text gap : List Char),
    ts[i]? = some (.name a) → ts[i + 1]? = some (.name b) → pieces[i]? = some (text, gap) → gap ≠ []

theorem isQuote_iff {c : Char} : isQuote c = true ↔ c = '"' ∨ c = '\'' := by
  simp [isQuote]

-- ---------------------------------------------------------------------------
-- The beginning of a token
-- ---------------------------------------------------------------------------

/-- A token begins with a character of names just when it is a name. -/
theorem Token.WrittenAs.exists_cons {t : Token} {text : List Char} (h : t.WrittenAs text) :
    ∃ c rest, text = c :: rest ∧ (isNameChar c = true ↔ ∃ a, t = .name a) := by
  cases h with
  | arrow => exact ⟨'-', ['>'], rfl, by simp [isNameChar]⟩
  | bar => exact ⟨'|', [], rfl, by simp [isNameChar]⟩
  | @word q w hq hw =>
    refine ⟨q, w.toList ++ [q], rfl, ?_⟩
    simp [isNameChar, isQuote_iff.2 hq]
  | @name a ha hchars =>
    obtain ⟨c, rest, hcons⟩ := List.exists_cons_of_ne_nil fun hnil =>
      ha (String.toList_eq_nil_iff.1 hnil)
    refine ⟨c, rest, hcons, fun _ => ⟨a, rfl⟩, fun _ => ?_⟩
    exact isNameChar_iff_ne.2 (hchars c (by simp [hcons]))

namespace Layout

variable {line : List Char} {ts : List Token} {first : List Char}
  {pieces : List (List Char × List Char)}

/-- A line with nothing in front of its first token begins with a character of names
just when that token is a name. -/
theorem isNameChar_head_iff (h : Layout line ts [] pieces) {c : Char} (hc : line.head? = some c) :
    isNameChar c = true ↔ ∃ a, ts.head? = some (.name a) := by
  obtain ⟨hline, -, -, hwritten, -⟩ := h
  cases hwritten with
  | nil => simp [hline] at hc
  | @cons t piece ts pieces ht _ =>
    obtain ⟨d, rest, htext, hd⟩ := ht.exists_cons
    obtain rfl : d = c := by simpa [hline, htext] using hc
    simpa using hd

/-- The token in front of a layout takes the first gap behind it. -/
theorem cons {t : Token} {text : List Char} (h : Layout line ts first pieces)
    (ht : t.WrittenAs text)
    (hapart : ∀ a b, t = .name a → ts.head? = some (.name b) → first ≠ []) :
    Layout (text ++ line) (t :: ts) [] ((text, first) :: pieces) := by
  obtain ⟨rfl, hfirst, hgaps, hwritten, hrest⟩ := h
  refine ⟨by simp, by simp, List.forall_mem_cons.2 ⟨hfirst, hgaps⟩, .cons ht hwritten, ?_⟩
  intro i a b text' gap ha hb hpiece
  cases i with
  | zero =>
    obtain ⟨-, rfl⟩ := Prod.mk.inj (Option.some.inj hpiece)
    exact hapart a b (Option.some.inj ha) (by simpa [List.head?_eq_getElem?] using hb)
  | succ i => exact hrest i a b text' gap ha hb hpiece

end Layout

-- ---------------------------------------------------------------------------
-- Token by token and as a whole
-- ---------------------------------------------------------------------------

theorem Spelled.exists_layout {line : List Char} {ts : List Token} (h : Spelled line ts) :
    ∃ first pieces, Layout line ts first pieces := by
  induction h with
  | nil => exact ⟨[], [], rfl, by simp, by simp, .nil, by simp⟩
  | @blank c line ts hc _ ih =>
    obtain ⟨first, pieces, hline, hfirst, hgaps, hwritten, hapart⟩ := ih
    exact ⟨c :: first, pieces, by simp [hline], List.forall_mem_cons.2 ⟨hc, hfirst⟩, hgaps,
      hwritten, hapart⟩
  | arrow _ ih =>
    obtain ⟨first, pieces, h⟩ := ih
    exact ⟨_, _, h.cons .arrow nofun⟩
  | bar _ ih =>
    obtain ⟨first, pieces, h⟩ := ih
    exact ⟨_, _, h.cons .bar nofun⟩
  | @word q w line ts hq hw _ ih =>
    obtain ⟨first, pieces, h⟩ := ih
    have htext : (Token.word (String.ofList w)).WrittenAs (q :: (w ++ [q])) := by
      have hword := Token.WrittenAs.word (w := String.ofList w) (isQuote_iff.1 hq) (by simpa using hw)
      simpa using hword
    have hline := h.cons htext nofun
    simp only [List.cons_append, List.append_assoc, List.nil_append] at hline
    exact ⟨_, _, hline⟩
  | @name a line ts ha hchars hnext _ ih =>
    obtain ⟨first, pieces, h⟩ := ih
    have htext : (Token.name (String.ofList a)).WrittenAs a := by
      have hname := Token.WrittenAs.name (a := String.ofList a) (by simpa using ha)
        (by simpa [isNameChar_iff_ne] using hchars)
      simpa using hname
    refine ⟨_, _, h.cons htext fun _ b _ hb hfirst => ?_⟩
    -- without a gap the next name would have been a part of this one
    subst hfirst
    cases hhead : line.head? with
    | none =>
      obtain ⟨hline, -, -, hwritten, -⟩ := h
      rw [List.head?_eq_none_iff.1 hhead] at hline
      cases hwritten with
      | nil => cases hb
      | cons ht _ =>
        obtain ⟨d, rest, htext', -⟩ := ht.exists_cons
        simp [htext'] at hline
    | some c =>
      have hname := (h.isNameChar_head_iff hhead).2 ⟨b, hb⟩
      rw [hnext c hhead] at hname
      cases hname

theorem Spelled.blanks {gap line : List Char} {ts : List Token}
    (hgap : ∀ c ∈ gap, isWhiteSpace c = true) (h : Spelled line ts) : Spelled (gap ++ line) ts := by
  induction gap with
  | nil => exact h
  | cons c gap ih =>
    obtain ⟨hc, hgap⟩ := List.forall_mem_cons.1 hgap
    exact .blank hc (ih hgap)

/-- A token in front of a line that is spelled: a name needs to end there. -/
theorem Token.WrittenAs.spelled {t : Token} {text : List Char} (ht : t.WrittenAs text)
    {line : List Char} {ts : List Token}
    (hnext : ∀ a, t = .name a → ∀ c ∈ line.head?, isNameChar c = false) (h : Spelled line ts) :
    Spelled (text ++ line) (t :: ts) := by
  cases ht with
  | arrow => exact .arrow h
  | bar => exact .bar h
  | @word q w hq hw =>
    have hword := Spelled.word (isQuote_iff.2 hq) hw h
    simpa using hword
  | @name a ha hchars =>
    have hne : a.toList ≠ [] := fun hnil => ha (String.toList_eq_nil_iff.1 hnil)
    have hname := Spelled.name hne (fun c hc => isNameChar_iff_ne.2 (hchars c hc)) (hnext a rfl) h
    simpa using hname

theorem Layout.spelled {line : List Char} {ts : List Token} {first : List Char}
    {pieces : List (List Char × List Char)} (h : Layout line ts first pieces) :
    Spelled line ts := by
  induction pieces generalizing line ts first with
  | nil =>
    obtain ⟨rfl, hfirst, -, hwritten, -⟩ := h
    cases hwritten
    exact .blanks hfirst .nil
  | cons piece pieces ih =>
    obtain ⟨text, gap⟩ := piece
    obtain ⟨rfl, hfirst, hgaps, hwritten, hapart⟩ := h
    obtain ⟨hgap, hgaps⟩ := List.forall_mem_cons.1 hgaps
    cases hwritten with
    | @cons t _ ts _ ht hwritten =>
      have hrest : Layout (gap ++ pieces.flatMap fun piece => piece.1 ++ piece.2) ts gap pieces :=
        ⟨rfl, hgap, hgaps, hwritten, fun i => hapart (i + 1)⟩
      rw [List.flatMap_cons, List.append_assoc]
      refine .blanks hfirst (ht.spelled ?_ (ih hrest))
      rintro a rfl c hc
      cases gap with
      | nil =>
        refine Bool.eq_false_iff.2 fun hname => ?_
        obtain ⟨b, hb⟩ := (hrest.isNameChar_head_iff hc).1 hname
        exact hapart 0 a b text [] rfl (by simpa [List.head?_eq_getElem?] using hb) rfl rfl
      | cons d gap =>
        obtain rfl : d = c := Option.some.inj hc
        simp [isNameChar, hgap d List.mem_cons_self]

theorem spelled_iff_layout {line : List Char} {ts : List Token} :
    Spelled line ts ↔ ∃ first pieces, Layout line ts first pieces :=
  ⟨Spelled.exists_layout, fun ⟨_, _, h⟩ => h.spelled⟩

-- ---------------------------------------------------------------------------
-- Where the lexer gets stuck
-- ---------------------------------------------------------------------------

/-- The text begins with a dash that is no arrow, or with a quote that is not closed. -/
inductive Stuck : LexError → List Char → Prop
  | strayDash {rest : List Char} (h : rest.head? ≠ some '>') : Stuck .strayDash ('-' :: rest)
  | unmatchedQuote {q : Char} {rest : List Char} (hq : isQuote q = true) (h : q ∉ rest) :
      Stuck .unmatchedQuote (q :: rest)

theorem Stuck.isNameChar_head {e : LexError} {rest : List Char} (h : Stuck e rest) :
    ∀ c ∈ rest.head?, isNameChar c = false := by
  cases h with
  | strayDash _ => simp [isNameChar]
  | unmatchedQuote hq _ => simp [isNameChar, hq]

theorem Stuck.lexLine_eq {e : LexError} {rest : List Char} (h : Stuck e rest) :
    lexLine rest = .error e := by
  cases h with
  | @strayDash rest h =>
    rw [lexLine.eq_def]
    cases rest with
    | nil => rfl
    | cons c rest =>
      have hc : c ≠ '>' := fun heq => h (by simp [heq])
      simp only [if_true]
      split
      · next heq => exact absurd (List.cons.inj heq).1 hc
      · rfl
  | @unmatchedQuote q rest hq h =>
    have hdash : q ≠ '-' := ne_of_isQuote hq (by decide)
    have hbar : q ≠ '|' := ne_of_isQuote hq (by decide)
    have hdrop : rest.dropWhile (· ≠ q) = [] :=
      List.dropWhile_eq_nil_iff.2 fun c hc => decide_eq_true fun heq => h (heq ▸ hc)
    have hword : lexWord (q :: rest) = (.error .unmatchedQuote, []) := by
      rw [lexWord, if_pos hq, hdrop]
    rw [lexLine.eq_def]
    simp only [hdash, hbar, hq, if_true, if_false]
    split
    · next t rest' heq => cases (Prod.mk.inj (hword.symm.trans heq)).1
    · next e rest' heq => rw [Except.error.inj (Prod.mk.inj (hword.symm.trans heq)).1]

/-- A line that is read to its end is read so in front of anything that does not go on
with its last name. If the line does not end in a name, that is any text. -/
theorem Spelled.lexLine_append_of_getLast? {line : List Char} {ts : List Token}
    (h : Spelled line ts) {rest : List Char}
    (hrest : ∀ a, ts.getLast? = some (.name a) → ∀ c ∈ rest.head?, isNameChar c = false) :
    lexLine (line ++ rest) = (lexLine rest).map (ts ++ ·) := by
  have hcons (t : Token) (ts : List Token) :
      ((lexLine rest).map (ts ++ ·)).map (t :: ·) = (lexLine rest).map (t :: ts ++ ·) := by
    cases lexLine rest <;> rfl
  have htail {t : Token} {ts : List Token}
      (hrest : ∀ a, (t :: ts).getLast? = some (.name a) → ∀ c ∈ rest.head?, isNameChar c = false) :
      ∀ a, ts.getLast? = some (.name a) → ∀ c ∈ rest.head?, isNameChar c = false := by
    intro a ha
    refine hrest a ?_
    rw [List.getLast?_cons, ha]
    rfl
  induction h with
  | nil => cases h : lexLine rest <;> simp [h, Except.map]
  | blank hc _ ih => rw [List.cons_append, lexLine_blank hc, ih hrest]
  | arrow _ ih => rw [List.cons_append, List.cons_append, lexLine_arrow, ih (htail hrest), hcons]
  | bar _ ih => rw [List.cons_append, lexLine_bar, ih (htail hrest), hcons]
  | word hq hw _ ih =>
    rw [List.cons_append, List.append_assoc, List.cons_append, lexLine_word hq hw, ih (htail hrest),
      hcons]
  | @name a line ts ha hchars hnext hspelled ih =>
    have hnext' : ∀ c ∈ (line ++ rest).head?, isNameChar c = false := by
      cases line with
      | nil =>
        have hnil := hspelled.lexLine_eq
        rw [lexLine] at hnil
        obtain rfl := Except.ok.inj hnil
        exact hrest _ rfl
      | cons d line => exact hnext
    rw [List.append_assoc, lexLine_name ha hchars hnext', ih (htail hrest), hcons]

theorem Spelled.lexLine_append {line : List Char} {ts : List Token} (h : Spelled line ts)
    {rest : List Char} (hrest : ∀ c ∈ rest.head?, isNameChar c = false) :
    lexLine (line ++ rest) = (lexLine rest).map (ts ++ ·) :=
  h.lexLine_append_of_getLast? fun _ _ => hrest

/-- An error comes from a place up to which the line is read. -/
theorem exists_stuck_of_lexLine_eq_error {line : List Char} {e : LexError}
    (h : lexLine line = .error e) :
    ∃ front rest ts, line = front ++ rest ∧ Spelled front ts ∧ Stuck e rest := by
  have hmap {t : Token} {x : Except LexError (List Token)} (hx : x.map (t :: ·) = .error e) :
      x = .error e := by
    cases x <;> simp_all [Except.map]
  fun_induction lexLine line with
  | case1 => cases h
  | case2 rest ih =>
    obtain ⟨front, rest, ts, rfl, hfront, hstuck⟩ := ih (hmap h)
    exact ⟨_, rest, _, rfl, .arrow hfront, hstuck⟩
  | case3 rest hrest =>
    obtain rfl := Except.error.inj h
    refine ⟨[], _, [], rfl, .nil, .strayDash fun hhead => ?_⟩
    obtain ⟨rest', rfl⟩ := List.head?_eq_some_iff.1 hhead
    exact hrest rest' rfl
  | case4 rest _ ih =>
    obtain ⟨front, rest, ts, rfl, hfront, hstuck⟩ := ih (hmap h)
    exact ⟨_, rest, _, rfl, .bar hfront, hstuck⟩
  | case5 q cs _ _ hq t rest hword ih =>
    obtain ⟨front, rest, ts, rfl, hfront, hstuck⟩ := ih (hmap h)
    obtain ⟨w, hw, rfl, rfl⟩ := (lexWord_eq_ok_iff hq).1 hword
    exact ⟨q :: (w ++ q :: front), rest, _, by simp, .word hq hw hfront, hstuck⟩
  | case6 q cs _ _ hq e' rest hword =>
    obtain rfl := Except.error.inj h
    rw [lexWord, if_pos hq] at hword
    split at hword
    · next hdrop =>
      obtain rfl := Except.error.inj (Prod.mk.inj hword).1
      refine ⟨[], _, [], rfl, .nil, .unmatchedQuote hq fun hmem => ?_⟩
      have hne := List.dropWhile_eq_nil_iff.1 hdrop q hmem
      simp at hne
    · cases (Prod.mk.inj hword).1
  | case7 c cs _ _ _ hc ih =>
    obtain ⟨front, rest, ts, hsplit, hfront, hstuck⟩ := ih (hmap h)
    have hname : (c :: cs).takeWhile isNameChar ≠ [] := by
      rw [List.takeWhile_cons_of_pos hc]
      exact List.cons_ne_nil _ _
    have hnext : ∀ d ∈ front.head?, isNameChar d = false := by
      intro d hd
      have hstop := List.head?_dropWhile_not isNameChar (c :: cs)
      have hhead : ((c :: cs).dropWhile isNameChar).head? = some d := by
        show (lexName (c :: cs)).2.head? = some d
        rw [hsplit, List.head?_append, hd]
        rfl
      rw [hhead] at hstop
      exact hstop
    refine ⟨_, rest, _, ?_, .name hname (fun _ => List.mem_takeWhile_imp) hnext hfront, hstuck⟩
    rw [List.append_assoc, ← hsplit]
    exact List.takeWhile_append_dropWhile.symm
  | case8 c cs hdash hbar hquote hname ih =>
    obtain ⟨front, rest, ts, rfl, hfront, hstuck⟩ := ih h
    have hc : isWhiteSpace c = true := by
      refine Bool.of_not_eq_false fun hc => hname ?_
      exact isNameChar_iff.2 ⟨hc, hbar, hdash, Bool.of_not_eq_true hquote⟩
    exact ⟨_, rest, _, rfl, .blank hc hfront, hstuck⟩

theorem lexLine_eq_error_iff {line : List Char} {e : LexError} :
    lexLine line = .error e ↔
      ∃ front rest ts, line = front ++ rest ∧ lexLine front = .ok ts ∧ Stuck e rest := by
  constructor
  · intro h
    obtain ⟨front, rest, ts, hline, hfront, hstuck⟩ := exists_stuck_of_lexLine_eq_error h
    exact ⟨front, rest, ts, hline, hfront.lexLine_eq, hstuck⟩
  · rintro ⟨front, rest, ts, rfl, hfront, hstuck⟩
    rw [(lexLine_eq_ok_iff.1 hfront).lexLine_append hstuck.isNameChar_head, hstuck.lexLine_eq]
    rfl

-- ---------------------------------------------------------------------------
-- Every line
-- ---------------------------------------------------------------------------

/-- A line has the tokens that it is laid out with. Any other line is read up to a dash
without its `>` or up to a quote without a closing one, and that is its error. -/
theorem lexLine_iff_layout (line : List Char) :
    (∀ ts, lexLine line = .ok ts ↔ ∃ first pieces, Layout line ts first pieces) ∧
    (lexLine line = .error .strayDash ↔
      ∃ front rest ts, line = front ++ '-' :: rest ∧ lexLine front = .ok ts ∧
        rest.head? ≠ some '>') ∧
    (lexLine line = .error .unmatchedQuote ↔
      ∃ front q rest ts, line = front ++ q :: rest ∧ lexLine front = .ok ts ∧
        (q = '"' ∨ q = '\'') ∧ q ∉ rest) ∧
    ((∃ ts, lexLine line = .ok ts) ∨ lexLine line = .error .strayDash ∨
      lexLine line = .error .unmatchedQuote) := by
  refine ⟨fun ts => lexLine_eq_ok_iff.trans spelled_iff_layout, ?_, ?_, ?_⟩
  · rw [lexLine_eq_error_iff]
    constructor
    · rintro ⟨front, _, ts, hline, hfront, @⟨rest, hrest⟩⟩
      exact ⟨front, rest, ts, hline, hfront, hrest⟩
    · rintro ⟨front, rest, ts, hline, hfront, hrest⟩
      exact ⟨front, _, ts, hline, hfront, .strayDash hrest⟩
  · rw [lexLine_eq_error_iff]
    constructor
    · rintro ⟨front, _, ts, hline, hfront, hstuck⟩
      cases hstuck with
      | @unmatchedQuote q rest hq h =>
        exact ⟨front, q, rest, ts, hline, hfront, isQuote_iff.1 hq, h⟩
    · rintro ⟨front, q, rest, ts, hline, hfront, hq, h⟩
      exact ⟨front, _, ts, hline, hfront, .unmatchedQuote (isQuote_iff.2 hq) h⟩
  · rcases lexLine line with (_ | _) | ts
    · exact Or.inr (Or.inl rfl)
    · exact Or.inr (Or.inr rfl)
    · exact Or.inl ⟨ts, rfl⟩

end Constituency.Source
