import Constituency.Distinct
import Constituency.Proofs.Source.Load

/-!
# What is reported of a source with bad lines

A line is bad for one of three reasons: its bytes are no text, its text does not fall into
tokens, or its tokens make no rule. Only the line itself counts for this, so the verdict
on a line is the same in every source and for every start symbol. `Faulty` says what is
wrong with a line without mentioning where it stands.

The lines are numbered before any of them is skipped, and no error stops the reading. So
the report of a source has one error for each bad line, in the order of the lines and
with the number that the line has among all lines, blank ones and comments included. A
line that is no text has no number of its own and is reported for the file.

Whether the rules form a grammar is asked only if there is nothing to report.

## Main declarations

* `IsSkipped`, `Faulty` — lines without a rule, and what is wrong with a bad line.
* `Reports`             — the errors of a source, each with the line that it comes from.
* `loadBytes_reports`   — loading a source with bad lines reports them, and nothing else.
-/

namespace Constituency.Source

open Text Unicode

/-- The line is blank, or its first visible character is `#`. -/
def IsSkipped (line : List Char) : Prop :=
  (∀ c ∈ line, isWhiteSpace c = true) ∨
    ∃ gap rest, line = gap ++ '#' :: rest ∧ ∀ c ∈ gap, isWhiteSpace c = true

/-- What is wrong with a line, which has no text if its bytes cannot be decoded. -/
inductive Faulty : Option String → LoadFault → Prop
  | undecodable : Faulty none (.file .notUtf8)
  | lexical {text : String} {e : LexError} (hrule : ¬IsSkipped text.toList)
      (h : lexLine text.toList = .error e) : Faulty (some text) (.rule (.lexical e))
  | rule {text : String} {ts : List Token} {e : RuleError} (hrule : ¬IsSkipped text.toList)
      (hts : lexLine text.toList = .ok ts) (h : Rule.ofTokens ts = .error e) :
      Faulty (some text) (.rule e)

/-- The number under which a line is reported: its own, or 0 if it has no text. -/
def reportedNumber (line : Option String) (number : Nat) : Nat :=
  if line.isSome then number else 0

/-- The report has the errors of the bad lines, each with the number of its line, in the
order of the lines. -/
structure Reports (file : String) (lines : List (Option String)) (report : List (Nat × LoadError)) :
    Prop where
  increasing : (report.map (·.1)).Pairwise (· < ·)
  mem_iff    : ∀ number e, (number, e) ∈ report ↔
    ∃ line, (line, number) ∈ lines.zipIdx 1 ∧ Faulty line e.fault ∧
      e.location = ⟨file, reportedNumber line number⟩

-- ---------------------------------------------------------------------------
-- One line
-- ---------------------------------------------------------------------------

theorem isRuleLine_eq_false_iff {line : List Char} : isRuleLine line = false ↔ IsSkipped line := by
  rw [← Bool.not_eq_true, isRuleLine_iff]
  constructor
  · intro h
    cases hdrop : line.dropWhile isWhiteSpace with
    | nil => exact Or.inl (List.dropWhile_eq_nil_iff.1 hdrop)
    | cons c rest =>
      have hc : c = '#' := by
        refine Classical.byContradiction fun hne => h ⟨c, ?_, hne⟩
        rw [hdrop]
        rfl
      refine Or.inr ⟨line.takeWhile isWhiteSpace, rest, ?_, fun _ => List.mem_takeWhile_imp⟩
      rw [← hc, ← hdrop, List.takeWhile_append_dropWhile]
  · rintro (hblank | ⟨gap, rest, rfl, hgap⟩) ⟨c, hc, hne⟩
    · rw [List.dropWhile_eq_nil_iff.2 hblank] at hc
      cases hc
    · have hhash : ∀ d ∈ ('#' :: rest).head?, isWhiteSpace d = false := by
        intro d hd
        rw [← Option.some.inj hd]
        decide
      rw [dropWhile_append_of_head? hgap hhash] at hc
      exact hne (Option.some.inj hc).symm

theorem isRuleLine_iff_not_isSkipped {line : List Char} :
    isRuleLine line = true ↔ ¬IsSkipped line := by
  rw [← isRuleLine_eq_false_iff, Bool.not_eq_false]

theorem Rule.ofLine_eq_error_iff {text : String} (hrule : ¬IsSkipped text.toList) {e : RuleError} :
    Rule.ofLine text.toList = .error e ↔ Faulty (some text) (.rule e) := by
  unfold Rule.ofLine
  constructor
  · intro h
    split at h
    · next ts hts => exact .rule hrule hts h
    · next e' he' =>
      obtain rfl := Except.error.inj h
      exact .lexical hrule he'
  · intro h
    cases h with
    | lexical _ h => rw [h]
    | rule _ hts h =>
      rw [hts]
      exact h

/-- What is wrong with a line that has a text is wrong with its rule. -/
theorem faulty_some_iff {text : String} {f : LoadFault} :
    Faulty (some text) f ↔
      isRuleLine text.toList = true ∧ ∃ e, Rule.ofLine text.toList = .error e ∧ f = .rule e := by
  rw [isRuleLine_iff_not_isSkipped]
  constructor
  · intro h
    cases h with
    | lexical hrule h => exact ⟨hrule, _, (Rule.ofLine_eq_error_iff hrule).2 (.lexical hrule h), rfl⟩
    | rule hrule hts h => exact ⟨hrule, _, (Rule.ofLine_eq_error_iff hrule).2 (.rule hrule hts h), rfl⟩
  · rintro ⟨hrule, e, he, rfl⟩
    exact (Rule.ofLine_eq_error_iff hrule).1 he

/-- A line is judged bad for what is wrong with it. -/
theorem judge_eq_error_iff {file : String} {line : Option String} {number : Nat} {e : LoadError} :
    judge file line number = some (.error e) ↔
      Faulty line e.fault ∧ e.location = ⟨file, reportedNumber line number⟩ := by
  obtain ⟨location, fault⟩ := e
  cases line with
  | none =>
    constructor
    · intro h
      obtain ⟨rfl, rfl⟩ := LoadError.mk.inj (Except.error.inj (Option.some.inj h))
      exact ⟨.undecodable, rfl⟩
    · rintro ⟨⟨⟩, rfl⟩
      rfl
  | some text =>
    rw [faulty_some_iff]
    show (if isRuleLine text.toList = true then _ else none) = _ ↔ _
    constructor
    · intro h
      split at h
      · next hrule =>
        split at h
        · cases Option.some.inj h
        · next e' he' =>
          obtain ⟨rfl, rfl⟩ := LoadError.mk.inj (Except.error.inj (Option.some.inj h))
          exact ⟨⟨hrule, e', he', rfl⟩, rfl⟩
      · cases h
    · rintro ⟨⟨hrule, e', he', rfl⟩, rfl⟩
      rw [if_pos hrule, he']
      rfl

theorem Faulty.ne_malformed {line : Option String} {f : LoadFault} (h : Faulty line f) (d : Defect) :
    f ≠ .malformed d := by
  cases h <;> exact nofun

-- ---------------------------------------------------------------------------
-- All lines
-- ---------------------------------------------------------------------------

/-- The error of a verdict, if it is one. -/
def errorOf : Except LoadError (Rule × Nat) → Option LoadError
  | .error e => some e
  | .ok _ => none

theorem errorOf_eq_some_iff {v : Except LoadError (Rule × Nat)} {e : LoadError} :
    errorOf v = some e ↔ v = .error e := by
  cases v <;> simp [errorOf]

/-- The errors among the verdicts on the lines, each with the number of its line. -/
def numberedErrors (file : String) (lines : List (Option String)) : List (Nat × LoadError) :=
  (lines.zipIdx 1).filterMap fun (line, number) =>
    ((judge file line number).bind errorOf).map (number, ·)

theorem map_snd_numberedErrors (file : String) (lines : List (Option String)) :
    (numberedErrors file lines).map (·.2) = errorsOf (verdicts file lines) := by
  rw [numberedErrors, List.map_filterMap, errorsOf, verdicts, List.filterMap_filterMap]
  refine List.filterMap_congr ?_
  rintro ⟨line, number⟩ -
  dsimp only
  cases judge file line number with
  | none => rfl
  | some v => cases v <;> rfl

theorem mem_numberedErrors {file : String} {lines : List (Option String)} {number : Nat}
    {e : LoadError} :
    (number, e) ∈ numberedErrors file lines ↔
      ∃ line, (line, number) ∈ lines.zipIdx 1 ∧ judge file line number = some (.error e) := by
  rw [numberedErrors, List.mem_filterMap]
  constructor
  · rintro ⟨⟨line, m⟩, hline, h⟩
    obtain ⟨e', he', heq⟩ := Option.map_eq_some_iff.1 h
    obtain ⟨rfl, rfl⟩ := Prod.mk.inj heq
    obtain ⟨v, hv, herror⟩ := Option.bind_eq_some_iff.1 he'
    rw [errorOf_eq_some_iff.1 herror] at hv
    exact ⟨line, hline, hv⟩
  · rintro ⟨line, hline, hjudge⟩
    refine ⟨(line, number), hline, ?_⟩
    show ((judge file line number).bind errorOf).map _ = _
    rw [hjudge]
    rfl

theorem reports_numberedErrors (file : String) (lines : List (Option String)) :
    Reports file lines (numberedErrors file lines) := by
  refine ⟨?_, fun number e => ?_⟩
  · -- the numbers are those of the lines, some left out
    rw [List.pairwise_map, numberedErrors, List.pairwise_filterMap]
    refine (pairwise_zipIdx_lt lines 1).imp fun {x y} hlt a ha b hb => ?_
    obtain ⟨_, _, rfl⟩ := Option.map_eq_some_iff.1 ha
    obtain ⟨_, _, rfl⟩ := Option.map_eq_some_iff.1 hb
    exact hlt
  · rw [mem_numberedErrors]
    exact exists_congr fun line => and_congr_right fun _ => judge_eq_error_iff

/-- There is something to report when a line is bad. -/
theorem numberedErrors_eq_nil_iff {file : String} {lines : List (Option String)} :
    numberedErrors file lines = [] ↔ ∀ line ∈ lines, ∀ f, ¬Faulty line f := by
  have hmem := (reports_numberedErrors file lines).mem_iff
  constructor
  · intro hnil line hline f hfault
    obtain ⟨i, hi⟩ := List.mem_iff_getElem?.1 hline
    have hnumbered : (line, 1 + i) ∈ lines.zipIdx 1 :=
      List.mem_zipIdx_iff_le_and_getElem?_sub.2 ⟨Nat.le_add_right 1 i, by
        rw [Nat.add_sub_cancel_left]
        exact hi⟩
    have herror := (hmem (1 + i) ⟨⟨file, reportedNumber line (1 + i)⟩, f⟩).2
      ⟨line, hnumbered, hfault, rfl⟩
    rw [hnil] at herror
    exact List.not_mem_nil herror
  · intro h
    refine List.eq_nil_iff_forall_not_mem.2 fun (number, e) he => ?_
    obtain ⟨line, hline, hfault, -⟩ := (hmem number e).1 he
    exact h line (List.fst_mem_of_mem_zipIdx hline) _ hfault

theorem errorsOf_verdicts_eq_nil_iff {file : String} {lines : List (Option String)} :
    errorsOf (verdicts file lines) = [] ↔ ∀ line ∈ lines, ∀ f, ¬Faulty line f := by
  rw [← map_snd_numberedErrors, List.map_eq_nil_iff, numberedErrors_eq_nil_iff]

/-- A number stands for one line, and whether that line is reported, and for what, is a
matter of the line. -/
theorem Reports.exists_error_iff {file : String} {lines : List (Option String)}
    {report : List (Nat × LoadError)} (h : Reports file lines report) {line : Option String}
    {number : Nat} (hline : (line, number) ∈ lines.zipIdx 1) {f : LoadFault} :
    (∃ e, (number, e) ∈ report ∧ e.fault = f) ↔ Faulty line f := by
  constructor
  · rintro ⟨e, he, rfl⟩
    obtain ⟨line', hline', hfault, -⟩ := (h.mem_iff number e).1 he
    obtain ⟨-, hget⟩ := List.mem_zipIdx_iff_le_and_getElem?_sub.1 hline
    obtain ⟨-, hget'⟩ := List.mem_zipIdx_iff_le_and_getElem?_sub.1 hline'
    obtain rfl : line = line' := Option.some.inj (hget.symm.trans hget')
    exact hfault
  · intro hfault
    exact ⟨⟨⟨file, reportedNumber line number⟩, f⟩, (h.mem_iff _ _).2 ⟨line, hline, hfault, rfl⟩, rfl⟩

-- ---------------------------------------------------------------------------
-- The report of a source
-- ---------------------------------------------------------------------------

/-- What is assembled fails for the rules as a whole. -/
theorem exists_malformed_of_assemble {file : String} {start : Option String}
    {located : List (Production × Nat)} {es : List LoadError}
    (h : assemble file start located = .error es) {e : LoadError} (he : e ∈ es) :
    ∃ d, e.fault = .malformed d := by
  unfold assemble at h
  simp only at h
  split at h
  · cases h
  · obtain rfl := Except.error.inj h
    obtain ⟨⟨_, d⟩, -, rfl⟩ := List.mem_map.1 he
    exact ⟨d, rfl⟩

/-- A source with a bad line fails with its report, for every start symbol: one error for
each bad line, in the order of the lines and under its number, and none for the rules as a
whole. Those are judged if no line is bad. What is reported of a line is the same
wherever the line stands. -/
theorem loadBytes_reports (file : String) (bytes : List UInt8) :
    ∃ report, Reports file (byteLines bytes) report ∧
      ((∃ line ∈ byteLines bytes, ∃ f, Faulty line f) →
        ∀ start, loadBytes file start bytes = .error (report.map (·.2))) ∧
      (∀ number e, (number, e) ∈ report → ∀ d, e.fault ≠ .malformed d) ∧
      ((¬∃ line ∈ byteLines bytes, ∃ f, Faulty line f) →
        ∀ start es, loadBytes file start bytes = .error es → ∀ e ∈ es, ∃ d, e.fault = .malformed d) ∧
      ∀ file' bytes' report', Reports file' (byteLines bytes') report' →
        ∀ line number number', (line, number) ∈ (byteLines bytes).zipIdx 1 →
          (line, number') ∈ (byteLines bytes').zipIdx 1 →
            ∀ f, (∃ e, (number, e) ∈ report ∧ e.fault = f) ↔
              ∃ e, (number', e) ∈ report' ∧ e.fault = f := by
  have hreports := reports_numberedErrors file (byteLines bytes)
  refine ⟨_, hreports, ?_, ?_, ?_, ?_⟩
  · rintro ⟨line, hline, f, hfault⟩ start
    have hne : errorsOf (verdicts file (byteLines bytes)) ≠ [] := fun hnil =>
      errorsOf_verdicts_eq_nil_iff.1 hnil line hline f hfault
    rw [map_snd_numberedErrors]
    exact if_pos hne
  · intro number e he
    obtain ⟨line, -, hfault, -⟩ := (hreports.mem_iff number e).1 he
    exact hfault.ne_malformed
  · intro hgood start es hes e he
    have hnil : errorsOf (verdicts file (byteLines bytes)) = [] :=
      errorsOf_verdicts_eq_nil_iff.2 fun line hline f hfault => hgood ⟨line, hline, f, hfault⟩
    rw [loadBytes, loadLines_of_errorsOf_eq_nil start hnil] at hes
    exact exists_malformed_of_assemble hes he
  · intro file' bytes' report' hreports' line number number' hline hline' f
    rw [hreports.exists_error_iff hline, hreports'.exists_error_iff hline']

/-- A source with bad lines of every sort between a comment, a blank line and a rule. -/
def mixedSource : List UInt8 :=
  encode "# words\nS NP\n".toList ++
    255 :: encode "\n\n\tNP -> 'x\r\nVP -> V - | 'y'\n S -> NP".toList

theorem loadBytes_reports_mixedSource :
    ∃ report, Reports "mixed.cfg" (byteLines mixedSource) report ∧
      (∀ start, loadBytes "mixed.cfg" start mixedSource = .error (report.map (·.2))) ∧
      report.map (·.2) =
        [⟨⟨"mixed.cfg", 2⟩, .rule .missingArrow⟩,
         ⟨⟨"mixed.cfg", 0⟩, .file .notUtf8⟩,
         ⟨⟨"mixed.cfg", 5⟩, .rule (.lexical .unmatchedQuote)⟩,
         ⟨⟨"mixed.cfg", 6⟩, .rule (.lexical .strayDash)⟩] := by
  obtain ⟨report, hreports, hload, -⟩ := loadBytes_reports "mixed.cfg" mixedSource
  have hlines : byteLines mixedSource =
      [some "# words", some "S NP", none, some "", some "\tNP -> 'x", some "VP -> V - | 'y'",
        some " S -> NP"] := by
    decide +kernel
  have hbad : ∃ line ∈ byteLines mixedSource, ∃ f, Faulty line f :=
    ⟨none, by simp [hlines], _, .undecodable⟩
  have herrors : loadBytes "mixed.cfg" none mixedSource =
      .error [⟨⟨"mixed.cfg", 2⟩, .rule .missingArrow⟩,
        ⟨⟨"mixed.cfg", 0⟩, .file .notUtf8⟩,
        ⟨⟨"mixed.cfg", 5⟩, .rule (.lexical .unmatchedQuote)⟩,
        ⟨⟨"mixed.cfg", 6⟩, .rule (.lexical .strayDash)⟩] := by
    decide +kernel
  exact ⟨report, hreports, hload hbad, Except.error.inj ((hload hbad none).symm.trans herrors)⟩

end Constituency.Source
