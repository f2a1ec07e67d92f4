import Constituency.Proofs.Source.Report

/-!
# Which tokens are rules

A rule is written as its name, the arrow, and its alternatives with bars between them.
These are its tokens, and it is the only rule that has them; so tokens either are those of
a rule, and then of one, or there is something wrong with them. `Misshapen` says what: the
first token is no name, the second is no arrow, or an arrow comes later still. Of several
things that are wrong the first counts.

Two more errors are there for tokens that no line has. A line without tokens is blank, and
it is the same characters that are blank for the lexer and for the question whether a line
is to be skipped; so a line that is not skipped has tokens. And an alternative is a piece
between bars and holds none. Hence neither of the two is ever reported of a source.

## Main declarations

* `Rule.tokens`              — how a rule is written.
* `Misshapen`                — what is wrong with tokens that are no rule.
* `Outcomes`                 — what comes of a line, seen from its tokens.
* `Rule.ofTokens_eq_ok_iff_tokens`, `Rule.ofTokens_eq_error_iff` — rules and all other tokens.
* `ruleLine_outcomes`        — what comes of a line that is not skipped, and what never does.
-/

namespace Constituency.Source

open Text Unicode

/-- The tokens that write a rule. -/
def Rule.tokens (r : Rule) : List Token :=
  .name r.lhs :: .arrow :: barred r.alternatives

/-- What is wrong with tokens that are no rule. -/
inductive Misshapen : List Token → RuleError → Prop
  | blank : Misshapen [] .blankLine
  | name {t : Token} {ts : List Token} (ht : ∀ a, t ≠ .name a) : Misshapen (t :: ts) .missingName
  | arrow {a : String} {ts : List Token} (hts : ts.head? ≠ some .arrow) :
      Misshapen (.name a :: ts) .missingArrow
  | secondArrow {a : String} {ts : List Token} (hts : .arrow ∈ ts) :
      Misshapen (.name a :: .arrow :: ts) .unexpectedArrow

/-- What comes of a line with these tokens: the one rule that they write, or else the first
thing that keeps them from writing one. -/
structure Outcomes (line : List Char) (ts : List Token) : Prop where
  ne_nil : ts ≠ []
  ok_iff : ∀ r, Rule.ofLine line = .ok r ↔ r.alternatives ≠ [] ∧ ts = r.tokens
  unique : ∀ r r' : Rule, r.alternatives ≠ [] → ts = r.tokens →
    r'.alternatives ≠ [] → ts = r'.tokens → r = r'
  length_alternatives : ∀ r, Rule.ofLine line = .ok r →
    r.alternatives.length = ts.count Token.bar + 1
  read : ∀ a, ts[0]? = some (Token.name a) → ts[1]? = some Token.arrow →
    2 ≤ ts.length ∧ Rule.ofLine line = (alternativesOf (ts.drop 2)).map (⟨a, ·⟩)
  missingName_iff : Rule.ofLine line = .error .missingName ↔
    ∀ a, ts[0]? ≠ some (Token.name a)
  missingArrow_iff : Rule.ofLine line = .error .missingArrow ↔
    (∃ a, ts[0]? = some (Token.name a)) ∧ ts[1]? ≠ some Token.arrow
  unexpectedArrow_iff : Rule.ofLine line = .error .unexpectedArrow ↔
    (∃ a, ts[0]? = some (Token.name a)) ∧ ts[1]? = some Token.arrow ∧ Token.arrow ∈ ts.drop 2
  error : ∀ e, Rule.ofLine line = .error e →
    e = .missingName ∨ e = .missingArrow ∨ e = .unexpectedArrow

-- ---------------------------------------------------------------------------
-- Tokens of a rule
-- ---------------------------------------------------------------------------

namespace Rule

/-- The rule that tokens spell is the one they write. -/
theorem ofTokens_eq_ok_iff_tokens {ts : List Token} {r : Rule} :
    ofTokens ts = .ok r ↔ r.alternatives ≠ [] ∧ ts = r.tokens := by
  rw [ofTokens_eq_ok_iff]
  constructor
  · rintro ⟨rest, rfl, hrest⟩
    obtain ⟨hne, rfl⟩ := alternativesOf_eq_ok_iff.1 hrest
    exact ⟨hne, rfl⟩
  · rintro ⟨hne, rfl⟩
    exact ⟨_, rfl, alternativesOf_eq_ok_iff.2 ⟨hne, rfl⟩⟩

/-- Tokens write one rule. -/
theorem eq_of_tokens_eq {r r' : Rule} (hne : r.alternatives ≠ []) (hne' : r'.alternatives ≠ [])
    (h : r.tokens = r'.tokens) : r = r' := by
  have hr : ofTokens r.tokens = .ok r := ofTokens_eq_ok_iff_tokens.2 ⟨hne, rfl⟩
  have hr' : ofTokens r.tokens = .ok r' := ofTokens_eq_ok_iff_tokens.2 ⟨hne', h⟩
  exact Except.ok.inj (hr.symm.trans hr')

theorem length_alternatives {ts : List Token} {r : Rule} (h : ofTokens ts = .ok r) :
    r.alternatives.length = ts.count .bar + 1 := by
  obtain ⟨rest, rfl, hrest⟩ := ofTokens_eq_ok_iff.1 h
  rw [length_alternativesOf hrest]
  simp

/-- The alternatives are read behind the first two tokens. -/
theorem ofTokens_eq_map_drop {ts : List Token} {a : String} (hname : ts[0]? = some (Token.name a))
    (harrow : ts[1]? = some Token.arrow) :
    2 ≤ ts.length ∧ ofTokens ts = (alternativesOf (ts.drop 2)).map (⟨a, ·⟩) := by
  obtain ⟨hlength, -⟩ := List.getElem?_eq_some_iff.1 harrow
  refine ⟨hlength, ?_⟩
  match ts, hname, harrow with
  | _ :: _ :: rest, rfl, rfl => rfl

theorem ofTokens_eq_error_iff {ts : List Token} {e : RuleError} :
    ofTokens ts = .error e ↔ Misshapen ts e := by
  constructor
  · intro h
    unfold ofTokens at h
    split at h
    · obtain rfl := Except.error.inj h
      exact .blank
    · next a rest =>
      cases hrest : alternativesOf rest with
      | ok alternatives =>
        rw [hrest] at h
        cases h
      | error e' =>
        rw [hrest] at h
        obtain rfl := Except.error.inj h
        obtain ⟨rfl, harrow⟩ := alternativesOf_eq_error_iff.1 hrest
        exact .secondArrow harrow
    · next a rest hrest =>
      obtain rfl := Except.error.inj h
      refine .arrow fun hhead => ?_
      obtain ⟨rest', rfl⟩ := List.head?_eq_some_iff.1 hhead
      exact hrest rest' rfl
    · next t rest _ ht =>
      obtain rfl := Except.error.inj h
      exact .name ht
  · intro h
    cases h with
    | blank => rfl
    | @name t ts ht =>
      cases t with
      | name a => exact absurd rfl (ht a)
      | arrow => rfl
      | bar => rfl
      | word w => rfl
    | @arrow a ts hts =>
      cases ts with
      | nil => rfl
      | cons t ts =>
        cases t with
        | arrow => exact absurd rfl hts
        | bar => rfl
        | name b => rfl
        | word w => rfl
    | secondArrow hts =>
      show (alternativesOf _).map _ = _
      rw [alternativesOf_eq_error_iff.2 ⟨rfl, hts⟩]
      rfl

end Rule

namespace Misshapen

variable {ts : List Token}

theorem missingName_iff (hne : ts ≠ []) :
    Misshapen ts .missingName ↔ ∀ a, ts[0]? ≠ some (Token.name a) := by
  obtain ⟨t, ts, rfl⟩ := List.exists_cons_of_ne_nil hne
  constructor
  · rintro ⟨⟩ a heq
    next ht => exact ht a (Option.some.inj heq)
  · intro h
    exact .name fun a heq => h a (congrArg some heq)

theorem missingArrow_iff :
    Misshapen ts .missingArrow ↔
      (∃ a, ts[0]? = some (Token.name a)) ∧ ts[1]? ≠ some Token.arrow := by
  constructor
  · rintro ⟨⟩
    next a ts hts =>
      rw [List.head?_eq_getElem?] at hts
      exact ⟨⟨a, rfl⟩, hts⟩
  · rintro ⟨⟨a, hname⟩, harrow⟩
    match ts, hname with
    | _ :: rest, rfl =>
      refine .arrow ?_
      rw [List.head?_eq_getElem?]
      exact harrow

theorem unexpectedArrow_iff :
    Misshapen ts .unexpectedArrow ↔
      (∃ a, ts[0]? = some (Token.name a)) ∧ ts[1]? = some Token.arrow ∧
        Token.arrow ∈ ts.drop 2 := by
  constructor
  · rintro ⟨⟩
    next a ts hts => exact ⟨⟨a, rfl⟩, rfl, hts⟩
  · rintro ⟨⟨a, hname⟩, harrow, hdrop⟩
    match ts, hname, harrow with
    | _ :: _ :: rest, rfl, rfl => exact .secondArrow hdrop

/-- Tokens that are there are misshapen in one of three ways. -/
theorem cases_of_ne_nil {e : RuleError} (h : Misshapen ts e) (hne : ts ≠ []) :
    e = .missingName ∨ e = .missingArrow ∨ e = .unexpectedArrow := by
  cases h with
  | blank => exact absurd rfl hne
  | name _ => exact Or.inl rfl
  | arrow _ => exact Or.inr (Or.inl rfl)
  | secondArrow _ => exact Or.inr (Or.inr rfl)

end Misshapen

-- ---------------------------------------------------------------------------
-- Lines and sources
-- ---------------------------------------------------------------------------

/-- Only blanks spell no token. -/
theorem Spelled.isWhiteSpace_of_nil {line : List Char} {ts : List Token} (h : Spelled line ts)
    (hts : ts = []) : ∀ c ∈ line, isWhiteSpace c = true := by
  induction h with
  | nil => exact nofun
  | blank hc _ ih => exact List.forall_mem_cons.2 ⟨hc, ih hts⟩
  | arrow _ _ => cases hts
  | bar _ _ => cases hts
  | word _ _ _ _ => cases hts
  | name _ _ _ _ _ => cases hts

theorem ne_nil_of_lexLine {line : List Char} {ts : List Token} (hrule : ¬IsSkipped line)
    (hts : lexLine line = .ok ts) : ts ≠ [] := fun hnil =>
  hrule (Or.inl ((lexLine_eq_ok_iff.1 hts).isWhiteSpace_of_nil hnil))

theorem outcomes_of_lexLine {line : List Char} {ts : List Token} (hrule : ¬IsSkipped line)
    (hts : lexLine line = .ok ts) : Outcomes line ts := by
  have hline : Rule.ofLine line = Rule.ofTokens ts := by
    rw [Rule.ofLine, hts]
  have hne : ts ≠ [] := ne_nil_of_lexLine hrule hts
  have herror (e : RuleError) : Rule.ofLine line = .error e ↔ Misshapen ts e := by
    rw [hline, Rule.ofTokens_eq_error_iff]
  refine
    { ne_nil := hne
      ok_iff := fun r => by rw [hline, Rule.ofTokens_eq_ok_iff_tokens]
      unique := ?unique
      length_alternatives := fun r hr => Rule.length_alternatives (hline.symm.trans hr)
      read := fun a hname harrow => hline ▸ Rule.ofTokens_eq_map_drop hname harrow
      missingName_iff := (herror _).trans (Misshapen.missingName_iff hne)
      missingArrow_iff := (herror _).trans Misshapen.missingArrow_iff
      unexpectedArrow_iff := (herror _).trans Misshapen.unexpectedArrow_iff
      error := fun e he => ((herror e).1 he).cases_of_ne_nil hne }
  case unique =>
    rintro r r' hr rfl hr' heq
    exact Rule.eq_of_tokens_eq hr hr' heq

/-- No line can be blamed for a bar within an alternative, or for being blank. -/
theorem Faulty.ne_internal {line : Option String} {f : LoadFault} (h : Faulty line f) :
    f ≠ .rule .unsplitAlternatives ∧ f ≠ .rule .blankLine := by
  cases h with
  | undecodable => exact ⟨nofun, nofun⟩
  | lexical _ _ => exact ⟨nofun, nofun⟩
  | rule hrule hts h =>
    have hmisshapen := Rule.ofTokens_eq_error_iff.1 h
    rcases hmisshapen.cases_of_ne_nil (ne_nil_of_lexLine hrule hts) with rfl | rfl | rfl <;>
      exact ⟨nofun, nofun⟩

/-- What is reported of lines is wrong with one of them, or with the rules as a whole. -/
theorem faulty_or_malformed_of_loadLines {file : String} {start : Option String}
    {lines : List (Option String)} {es : List LoadError}
    (h : loadLines file start lines = .error es) {e : LoadError} (he : e ∈ es) :
    (∃ line ∈ lines, Faulty line e.fault) ∨ ∃ d, e.fault = .malformed d := by
  unfold loadLines at h
  simp only at h
  split at h
  · obtain rfl := Except.error.inj h
    rw [← map_snd_numberedErrors] at he
    obtain ⟨⟨number, e⟩, hreported, rfl⟩ := List.mem_map.1 he
    obtain ⟨line, hline, hjudge⟩ := mem_numberedErrors.1 hreported
    exact Or.inl ⟨line, List.fst_mem_of_mem_zipIdx hline, (judge_eq_error_iff.1 hjudge).1⟩
  · exact Or.inr (exists_malformed_of_assemble h he)

/-- A line that is not skipped and falls into tokens has some, and what comes of it is seen
from them. Of several things that are wrong the first is reported. No source is ever blamed
for a bar within an alternative or for a blank line. -/
theorem ruleLine_outcomes :
    (∀ line ts, isRuleLine line = true → lexLine line = .ok ts → Outcomes line ts) ∧
    ∀ file start bytes es, loadBytes file start bytes = .error es → ∀ e ∈ es,
      e.fault ≠ .rule .unsplitAlternatives ∧ e.fault ≠ .rule .blankLine := by
  constructor
  · intro line ts hrule hts
    exact outcomes_of_lexLine (isRuleLine_iff_not_isSkipped.1 hrule) hts
  · intro file start bytes es hes e he
    rcases faulty_or_malformed_of_loadLines hes he with ⟨line, -, hfault⟩ | ⟨d, hd⟩
    · exact hfault.ne_internal
    · rw [hd]
      exact ⟨nofun, nofun⟩

/-- A source with a line that begins with a word and one that begins with an arrow, below a
blank line and a comment. -/
def namelessSource : List UInt8 :=
  encode "\n# N\n'dog'\n -> ".toList

theorem loadBytes_namelessSource :
    loadBytes "nameless.cfg" none namelessSource =
      .error [⟨⟨"nameless.cfg", 3⟩, .rule .missingName⟩, ⟨⟨"nameless.cfg", 4⟩, .rule .missingName⟩] := by
  decide +kernel

theorem ruleLine_outcomes_gaps :
    Rule.ofLine "N -> | 'dog' || N |".toList =
        .ok ⟨"N", [[], [.terminal "dog"], [], [.nonterminal "N"], []]⟩ ∧
      Rule.ofLine "'dog' N -> N".toList = .error .missingName ∧
      Rule.ofLine "N | -> N".toList = .error .missingArrow ∧
      Rule.ofLine "N -> | N -> 'dog'".toList = .error .unexpectedArrow ∧
      ∃ es, loadBytes "nameless.cfg" none namelessSource = .error es ∧ es.length = 2 ∧
        ∀ e ∈ es, e.fault ≠ .rule .unsplitAlternatives ∧ e.fault ≠ .rule .blankLine := by
  obtain ⟨hlines, hsources⟩ := ruleLine_outcomes
  have hgaps := hlines "N -> | 'dog' || N |".toList
    [.name "N", .arrow, .bar, .word "dog", .bar, .bar, .name "N", .bar] (by decide +kernel) (by decide +kernel)
  have hword := hlines "'dog' N -> N".toList
    [.word "dog", .name "N", .arrow, .name "N"] (by decide +kernel) (by decide +kernel)
  have hbar := hlines "N | -> N".toList [.name "N", .bar, .arrow, .name "N"] (by decide +kernel) (by decide +kernel)
  have hsecond := hlines "N -> | N -> 'dog'".toList
    [.name "N", .arrow, .bar, .name "N", .arrow, .word "dog"] (by decide +kernel) (by decide +kernel)
  refine ⟨(hgaps.ok_iff _).2 ⟨List.cons_ne_nil _ _, rfl⟩, hword.missingName_iff.2 (by simp),
    hbar.missingArrow_iff.2 ⟨⟨"N", rfl⟩, by decide⟩,
    hsecond.unexpectedArrow_iff.2 ⟨⟨"N", rfl⟩, rfl, by decide⟩, ?_⟩
  exact ⟨_, loadBytes_namelessSource, rfl, hsources _ _ _ _ loadBytes_namelessSource⟩

end Constituency.Source
