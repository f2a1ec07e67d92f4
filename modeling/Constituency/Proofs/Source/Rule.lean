import Constituency.Proofs.Source.Alternatives

/-!
# Rules and their lines

A production is written as a line: its name, the arrow, and a blank before each symbol.
If its names have the form of names and its words hold no double quote, the line spells
just the tokens of the production, and these are a rule with the production as its only
alternative.

What stands on a line limits what a rule read from it can have. The name of the rule is
the first thing on the line, and a line that begins with `#` is skipped; so no rule is
for a name that begins so. All names have the form of names, and the characters of a
word stand on the line.

## Main declarations

* `IsName`, `Symbol.IsWritable`, `Production.IsWritable` — what a line can spell.
* `Rule.ofLine_text`             — the line of a production gives the production.
* `Rule.isName_of_ofLine`        — the name of a rule has the form of one.
* `Rule.mem_of_ofLine`           — the words of a rule stand on its line.
-/

namespace Constituency

open Unicode

/-- The name can stand at the beginning of a rule line. -/
structure IsName (a : String) : Prop where
  ne_empty : a ≠ ""
  chars : ∀ c ∈ a.toList,
    isWhiteSpace c = false ∧ c ≠ '|' ∧ c ≠ '-' ∧ c ≠ '"' ∧ c ≠ '\''
  head_ne : a.toList.head? ≠ some '#'

/-- The symbol can be written on a rule line, a word in double quotes. -/
def Symbol.IsWritable : Symbol → Prop
  | .terminal w => '"' ∉ w.toList ∧ '\n' ∉ w.toList
  | .nonterminal a => IsName a

/-- The production can be written on a rule line. -/
structure Production.IsWritable (p : Production) : Prop where
  lhs : IsName p.lhs
  rhs : ∀ s ∈ p.rhs, s.IsWritable

theorem IsName.toList_ne_nil {a : String} (ha : IsName a) : a.toList ≠ [] := fun hnil =>
  ha.ne_empty (String.toList_eq_nil_iff.1 hnil)

namespace Source

theorem isNameChar_iff_ne {c : Char} :
    isNameChar c = true ↔
      isWhiteSpace c = false ∧ c ≠ '|' ∧ c ≠ '-' ∧ c ≠ '"' ∧ c ≠ '\'' := by
  simp [isNameChar, isQuote, and_assoc]

theorem isName_iff {a : String} :
    IsName a ↔ a ≠ "" ∧ a.toList.all isNameChar = true ∧ a.toList.head? ≠ some '#' := by
  simp only [List.all_eq_true, isNameChar_iff_ne]
  exact ⟨fun h => ⟨h.ne_empty, h.chars, h.head_ne⟩, fun h => ⟨h.1, h.2.1, h.2.2⟩⟩

instance : DecidablePred IsName := fun _ => decidable_of_iff _ isName_iff.symm

instance : DecidablePred Symbol.IsWritable
  | .terminal w => inferInstanceAs (Decidable ('"' ∉ w.toList ∧ '\n' ∉ w.toList))
  | .nonterminal a => inferInstanceAs (Decidable (IsName a))

theorem isRuleLine_iff {line : List Char} :
    isRuleLine line = true ↔ ∃ c, (line.dropWhile isWhiteSpace).head? = some c ∧ c ≠ '#' := by
  unfold isRuleLine
  cases line.dropWhile isWhiteSpace <;> simp

-- ---------------------------------------------------------------------------
-- Rules
-- ---------------------------------------------------------------------------

namespace Rule

theorem ofTokens_eq_ok_iff {ts : List Token} {r : Rule} :
    ofTokens ts = .ok r ↔
      ∃ rest, ts = .name r.lhs :: .arrow :: rest ∧ alternativesOf rest = .ok r.alternatives := by
  unfold ofTokens
  constructor
  · intro h
    split at h
    · cases h
    · next a rest =>
      obtain ⟨alternatives, hrest, rfl⟩ := map_eq_ok_iff.1 h
      exact ⟨rest, rfl, hrest⟩
    · cases h
    · cases h
  · rintro ⟨rest, rfl, hrest⟩
    show (alternativesOf rest).map _ = _
    rw [hrest]
    rfl

theorem ofLine_eq_ok_iff {line : List Char} {r : Rule} :
    ofLine line = .ok r ↔ ∃ rest, Spelled line (.name r.lhs :: .arrow :: rest) ∧
      alternativesOf rest = .ok r.alternatives := by
  unfold ofLine
  constructor
  · intro h
    split at h
    · next ts hts =>
      obtain ⟨rest, rfl, hrest⟩ := ofTokens_eq_ok_iff.1 h
      exact ⟨rest, lexLine_eq_ok_iff.1 hts, hrest⟩
    · cases h
  · rintro ⟨rest, hline, hrest⟩
    rw [lexLine_eq_ok_iff.2 hline]
    exact ofTokens_eq_ok_iff.2 ⟨rest, rfl, hrest⟩

/-- The name of a rule has the form of a name, on a line that is not skipped. -/
theorem isName_of_ofLine {line : List Char} {r : Rule} (hline : isRuleLine line = true)
    (h : ofLine line = .ok r) : IsName r.lhs := by
  obtain ⟨rest, hspelled, -⟩ := ofLine_eq_ok_iff.1 h
  obtain ⟨hne, hchars⟩ := hspelled.chars_of_name_mem List.mem_cons_self
  obtain ⟨c, hc, hhash⟩ := isRuleLine_iff.1 hline
  rw [hspelled.head?_dropWhile] at hc
  have hhead : r.lhs.toList.head? ≠ some '#' := by
    rw [hc]
    exact fun heq => hhash (Option.some.inj heq)
  exact isName_iff.2 ⟨fun heq => hne (heq ▸ rfl), List.all_eq_true.2 hchars, hhead⟩

/-- The characters of the words of a rule stand on its line. -/
theorem mem_of_ofLine {line : List Char} {r : Rule} (h : ofLine line = .ok r)
    {rhs : List Symbol} (hrhs : rhs ∈ r.alternatives) {w : String} (hw : .terminal w ∈ rhs)
    {c : Char} (hc : c ∈ w.toList) : c ∈ line := by
  obtain ⟨rest, hspelled, hrest⟩ := ofLine_eq_ok_iff.1 h
  have hmem : Token.word w ∈ rest := token_mem_of_alternativesOf hrest hrhs hw
  exact hspelled.mem_of_word_mem (List.mem_cons_of_mem _ (List.mem_cons_of_mem _ hmem)) hc

end Rule

-- ---------------------------------------------------------------------------
-- The line of a production
-- ---------------------------------------------------------------------------

theorem toList_text (p : Production) :
    p.text.toList =
      p.lhs.toList ++ ' ' :: '-' :: '>' :: p.rhs.flatMap fun s => ' ' :: s.text.toList := by
  have hsymbols : (String.join (p.rhs.map fun s => " " ++ s.text)).toList =
      p.rhs.flatMap fun s => ' ' :: s.text.toList := by
    rw [String.toList_join, List.flatMap_map]
    exact congrArg p.rhs.flatMap (funext fun s => String.toList_append)
  rw [Production.text, String.toList_append, String.toList_append, hsymbols, List.append_assoc]
  rfl

theorem toList_text_terminal (w : String) :
    (Symbol.terminal w).text.toList = '"' :: (w.toList ++ ['"']) := by
  rw [Symbol.text, String.toList_append, String.toList_append, List.append_assoc]
  rfl

theorem spelled_name {a : String} (ha : IsName a) {cs : List Char} {ts : List Token}
    (hnext : ∀ c ∈ cs.head?, isNameChar c = false) (h : Spelled cs ts) :
    Spelled (a.toList ++ cs) (.name a :: ts) := by
  have hname := Spelled.name ha.toList_ne_nil (fun c hc => isNameChar_iff_ne.2 (ha.chars c hc)) hnext h
  rw [String.ofList_toList] at hname
  exact hname

theorem spelled_symbols {rhs : List Symbol} (h : ∀ s ∈ rhs, s.IsWritable) :
    Spelled (rhs.flatMap fun s => ' ' :: s.text.toList) (rhs.map Symbol.token) := by
  induction rhs with
  | nil => exact .nil
  | cons s rhs ih =>
    obtain ⟨hs, hrhs⟩ := List.forall_mem_cons.1 h
    have ih := ih hrhs
    rw [List.flatMap_cons, List.map_cons, List.cons_append]
    refine .blank (by decide) ?_
    cases s with
    | terminal w =>
      have hword := Spelled.word (q := '"') (by decide) hs.1 ih
      rw [String.ofList_toList] at hword
      rw [toList_text_terminal, List.cons_append, List.append_assoc]
      exact hword
    | nonterminal a =>
      refine spelled_name hs (fun c hc => ?_) ih
      cases rhs with
      | nil => cases hc
      | cons s' rhs =>
        -- the next symbol begins with a blank
        rw [← Option.some.inj hc]
        decide

theorem spelled_text {p : Production} (h : p.IsWritable) :
    Spelled p.text.toList (.name p.lhs :: .arrow :: p.rhs.map Symbol.token) := by
  rw [toList_text]
  refine spelled_name h.lhs (fun c hc => ?_) (.blank (by decide) (.arrow (spelled_symbols h.rhs)))
  rw [← Option.some.inj hc]
  decide

/-- The line of a production gives the production. -/
theorem Rule.ofLine_text {p : Production} (h : p.IsWritable) :
    Rule.ofLine p.text.toList = .ok ⟨p.lhs, [p.rhs]⟩ :=
  Rule.ofLine_eq_ok_iff.2 ⟨_, spelled_text h, alternativesOf_map_token p.rhs⟩

theorem isRuleLine_text {p : Production} (h : p.IsWritable) :
    isRuleLine p.text.toList = true := by
  have hhead := (spelled_text h).head?_dropWhile
  obtain ⟨c, hc⟩ : ∃ c, p.lhs.toList.head? = some c :=
    Option.isSome_iff_exists.1 (List.isSome_head?.2 h.lhs.toList_ne_nil)
  exact isRuleLine_iff.2 ⟨c, hhead.trans hc, fun heq => h.lhs.head_ne (heq ▸ hc)⟩

end Source

end Constituency
