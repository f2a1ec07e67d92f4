import Constituency.Proofs.Source.Assembly
import Constituency.Proofs.Text.Lines

/-!
# The same source in another layout

What a source says does not hang on its layout. Blank lines and comments can come and go,
white space can be put at either end of a line, and the lines can end in one way or the
other. `Relaid` compares two sources line by line and notes, for the lines that both have,
the old number and the new one.

A line is judged alike with white space around it. At its beginning the lexer passes over
white space. At its end white space changes nothing either: a line that is read goes on
into it, and a line that is stuck, at a dash or at a quote, stays stuck there, since white
space neither makes an arrow nor closes a quote. So the two sources have the same verdicts
in the same order, up to the numbers. This covers the two endings as well, since the
carriage return is white space.

From there on numbers are only carried along. The productions are the same, so the grammar
is the same or the defects are, and both are reported at the numbers of the lines that
they come from.

## Main declarations

* `SameButMargins`, `Relaid` — a line, and a source, in another layout.
* `SameOutcome`              — the outcomes are the same up to the numbers of the lines.
* `lexLine_append_blanks`    — white space at the end of a line changes nothing.
* `loadBytes_relaid`         — a source loads alike in every layout.
-/

namespace Constituency.Source

open Text Unicode

/-- The two lines are the same up to white space at their ends. -/
def SameButMargins (line line' : List Char) : Prop :=
  ∃ front core back front' back',
    (∀ c ∈ front ++ back ++ front' ++ back', isWhiteSpace c = true) ∧
      line = front ++ core ++ back ∧ line' = front' ++ core ++ back'

/-- The lines that are numbered from `n` on are those that are numbered from `n'` on, in
another layout. The lines that both have are listed by their two numbers. -/
inductive Relaid :
    Nat → List (List Char) → Nat → List (List Char) → List (Nat × Nat) → Prop
  | nil {n n' : Nat} : Relaid n [] n' [] []
  | insert {n n' : Nat} {line : List Char} {lines lines' : List (List Char)}
      {kept : List (Nat × Nat)} (hskip : IsSkipped line) (h : Relaid n lines (n' + 1) lines' kept) :
      Relaid n lines n' (line :: lines') kept
  | delete {n n' : Nat} {line : List Char} {lines lines' : List (List Char)}
      {kept : List (Nat × Nat)} (hskip : IsSkipped line) (h : Relaid (n + 1) lines n' lines' kept) :
      Relaid n (line :: lines) n' lines' kept
  | keep {n n' : Nat} {line line' : List Char} {lines lines' : List (List Char)}
      {kept : List (Nat × Nat)} (hline : SameButMargins line line')
      (h : Relaid (n + 1) lines (n' + 1) lines' kept) :
      Relaid n (line :: lines) n' (line' :: lines') ((n, n') :: kept)

/-- The same error, on the same line under its new number or for the file in both cases. -/
structure Moved (kept : List (Nat × Nat)) (e e' : LoadError) : Prop where
  fault : e.fault = e'.fault
  file : e.location.file = e'.location.file
  line : (e.location.line = 0 ∧ e'.location.line = 0) ∨ (e.location.line, e'.location.line) ∈ kept

/-- The same grammar, or the same errors in the same order. -/
inductive SameOutcome (kept : List (Nat × Nat)) :
    Except (List LoadError) Grammar → Except (List LoadError) Grammar → Prop
  | grammar {g : Grammar} : SameOutcome kept (.ok g) (.ok g)
  | errors {es es' : List LoadError} (h : List.Forall₂ (Moved kept) es es') :
      SameOutcome kept (.error es) (.error es')

-- ---------------------------------------------------------------------------
-- White space around a line
-- ---------------------------------------------------------------------------

theorem head_isWhiteSpace {gap : List Char} (hgap : ∀ c ∈ gap, isWhiteSpace c = true) :
    ∀ c ∈ gap.head?, isWhiteSpace c = true :=
  fun c hc => hgap c (List.mem_of_head? hc)

theorem isNameChar_of_isWhiteSpace {c : Char} (hc : isWhiteSpace c = true) :
    isNameChar c = false := by
  rw [isNameChar, hc]
  rfl

theorem lexLine_blanks_append {gap : List Char} (hgap : ∀ c ∈ gap, isWhiteSpace c = true)
    (line : List Char) : lexLine (gap ++ line) = lexLine line := by
  induction gap with
  | nil => rfl
  | cons c gap ih =>
    obtain ⟨hc, hgap⟩ := List.forall_mem_cons.1 hgap
    rw [List.cons_append, lexLine_blank hc, ih hgap]

/-- White space neither completes an arrow nor closes a quote. -/
theorem Stuck.append_blanks {e : LexError} {rest : List Char} (h : Stuck e rest) {gap : List Char}
    (hgap : ∀ c ∈ gap, isWhiteSpace c = true) : Stuck e (rest ++ gap) := by
  cases h with
  | @strayDash rest h =>
    refine .strayDash fun hhead => ?_
    cases rest with
    | nil => exact ne_of_isWhiteSpace (head_isWhiteSpace hgap _ hhead) (by decide) rfl
    | cons c rest => exact h hhead
  | @unmatchedQuote q rest hq h =>
    refine .unmatchedQuote hq fun hmem => ?_
    rcases List.mem_append.1 hmem with hmem | hmem
    · exact h hmem
    · have hquote := isQuote_of_isWhiteSpace (hgap q hmem)
      rw [hq] at hquote
      cases hquote

theorem lexLine_append_blanks (line : List Char) {gap : List Char}
    (hgap : ∀ c ∈ gap, isWhiteSpace c = true) : lexLine (line ++ gap) = lexLine line := by
  cases h : lexLine line with
  | ok ts =>
    have hnext : ∀ c ∈ gap.head?, isNameChar c = false := fun c hc =>
      isNameChar_of_isWhiteSpace (head_isWhiteSpace hgap c hc)
    have hempty : lexLine gap = .ok [] := by
      have hblank := lexLine_blanks_append hgap []
      rwa [List.append_nil, lexLine] at hblank
    rw [(lexLine_eq_ok_iff.1 h).lexLine_append hnext, hempty, Except.map, List.append_nil]
  | error e =>
    obtain ⟨front, rest, ts, rfl, hfront, hstuck⟩ := lexLine_eq_error_iff.1 h
    rw [List.append_assoc]
    exact lexLine_eq_error_iff.2 ⟨front, rest ++ gap, ts, rfl, hfront, hstuck.append_blanks hgap⟩

theorem isRuleLine_blanks_append {gap : List Char} (hgap : ∀ c ∈ gap, isWhiteSpace c = true)
    (line : List Char) : isRuleLine (gap ++ line) = isRuleLine line := by
  rw [isRuleLine, List.dropWhile_append_of_pos hgap]
  rfl

theorem isRuleLine_append_blanks (line : List Char) {gap : List Char}
    (hgap : ∀ c ∈ gap, isWhiteSpace c = true) : isRuleLine (line ++ gap) = isRuleLine line := by
  rw [isRuleLine, isRuleLine, List.dropWhile_append]
  cases h : line.dropWhile isWhiteSpace with
  | nil =>
    rw [List.dropWhile_eq_nil_iff.2 hgap]
    rfl
  | cons c rest => rfl

/-- A line is judged as it is without its margins. -/
theorem judge_margins {front core back : List Char}
    (hfront : ∀ c ∈ front, isWhiteSpace c = true) (hback : ∀ c ∈ back, isWhiteSpace c = true)
    (file : String) (number : Nat) :
    judge file (some (String.ofList (front ++ core ++ back))) number =
      judge file (some (String.ofList core)) number := by
  simp only [judge, Rule.ofLine, String.toList_ofList]
  rw [isRuleLine_append_blanks _ hback, isRuleLine_blanks_append hfront,
    lexLine_append_blanks _ hback, lexLine_blanks_append hfront]

theorem SameButMargins.judge_eq {line line' : List Char} (h : SameButMargins line line')
    (file : String) (number : Nat) :
    judge file (some (String.ofList line)) number = judge file (some (String.ofList line')) number := by
  obtain ⟨front, core, back, front', back', hblank, rfl, rfl⟩ := h
  simp only [List.forall_mem_append] at hblank
  obtain ⟨⟨⟨hfront, hback⟩, hfront'⟩, hback'⟩ := hblank
  rw [judge_margins hfront hback, judge_margins hfront' hback']

-- ---------------------------------------------------------------------------
-- The numbers of the lines
-- ---------------------------------------------------------------------------

namespace Relaid

variable {n n' : Nat} {lines lines' : List (List Char)} {kept : List (Nat × Nat)}

/-- The numbers that are listed are those of the same line in both sources. -/
theorem mem_kept (h : Relaid n lines n' lines' kept) {m m' : Nat} (hm : (m, m') ∈ kept) :
    ∃ line line', (line, m) ∈ lines.zipIdx n ∧ (line', m') ∈ lines'.zipIdx n' ∧
      SameButMargins line line' := by
  induction h with
  | nil => cases hm
  | insert _ _ ih =>
    obtain ⟨line, line', hline, hline', hsame⟩ := ih hm
    exact ⟨line, line', hline, List.mem_cons_of_mem _ hline', hsame⟩
  | delete _ _ ih =>
    obtain ⟨line, line', hline, hline', hsame⟩ := ih hm
    exact ⟨line, line', List.mem_cons_of_mem _ hline, hline', hsame⟩
  | @keep n n' line line' _ _ _ hsame _ ih =>
    rcases List.mem_cons.1 hm with heq | hm
    · obtain ⟨rfl, rfl⟩ := Prod.mk.inj heq
      exact ⟨line, line', List.mem_cons_self, List.mem_cons_self, hsame⟩
    · obtain ⟨line, line', hline, hline', hsame⟩ := ih hm
      exact ⟨line, line', List.mem_cons_of_mem _ hline, List.mem_cons_of_mem _ hline', hsame⟩

/-- The lines keep their order. -/
theorem kept_increasing (h : Relaid n lines n' lines' kept) :
    kept.Pairwise fun p q => p.1 < q.1 ∧ p.2 < q.2 := by
  induction h with
  | nil => exact .nil
  | insert _ _ ih => exact ih
  | delete _ _ ih => exact ih
  | keep _ h ih =>
    refine List.pairwise_cons.2 ⟨fun q hq => ?_, ih⟩
    obtain ⟨_, _, hline, hline', -⟩ := h.mem_kept hq
    have hlt := List.le_snd_of_mem_zipIdx hline
    have hlt' := List.le_snd_of_mem_zipIdx hline'
    exact ⟨hlt, hlt'⟩

end Relaid

-- ---------------------------------------------------------------------------
-- The verdicts
-- ---------------------------------------------------------------------------

/-- The same verdict, on the same line under its new number. -/
inductive MovedVerdict (kept : List (Nat × Nat)) :
    Except LoadError (Rule × Nat) → Except LoadError (Rule × Nat) → Prop
  | rule {r : Rule} {m m' : Nat} (h : (m, m') ∈ kept) : MovedVerdict kept (.ok (r, m)) (.ok (r, m'))
  | error {e e' : LoadError} (h : Moved kept e e') : MovedVerdict kept (.error e) (.error e')

/-- The verdicts on lines of text that are numbered from `n` on. -/
def verdictsFrom (file : String) (n : Nat) (lines : List (List Char)) :
    List (Except LoadError (Rule × Nat)) :=
  (lines.zipIdx n).filterMap fun (line, number) => judge file (some (String.ofList line)) number

theorem verdictsFrom_cons (file : String) (n : Nat) (line : List Char) (lines : List (List Char)) :
    verdictsFrom file n (line :: lines) =
      (judge file (some (String.ofList line)) n).toList ++ verdictsFrom file (n + 1) lines := by
  rw [verdictsFrom, List.zipIdx_cons, List.filterMap_cons]
  dsimp only
  cases judge file (some (String.ofList line)) n <;> rfl

theorem verdicts_map_some (file : String) (lines : List (List Char)) :
    verdicts file (lines.map fun line => some (String.ofList line)) = verdictsFrom file 1 lines := by
  rw [verdicts, List.zipIdx_map, List.filterMap_map]
  rfl

/-- The lines of a text are judged alike, whatever their endings are taken for. -/
theorem verdicts_of_lined (file : String) {text : String} {lines : List (List Char)}
    (h : Lined text.toList lines) :
    verdicts file ((textLines text).map some) = verdictsFrom file 1 lines := by
  have hreads := h.forall₂_linesOf
  rw [textLines, List.map_map]
  refine (verdicts_map_some file _).trans ?_
  clear h
  generalize linesOf '\n' '\r' text.toList = reads at hreads
  generalize 1 = n
  induction hreads generalizing n with
  | nil => rfl
  | @cons line read _ _ hread _ ih =>
    have hjudge : judge file (some (String.ofList line)) n = judge file (some (String.ofList read)) n := by
      rcases hread with rfl | rfl
      · rfl
      · have hreturn : ∀ c ∈ ['\r'], isWhiteSpace c = true :=
          List.forall_mem_singleton.2 (by decide)
        exact judge_margins (List.forall_mem_nil _) hreturn file n
    rw [verdictsFrom_cons, verdictsFrom_cons, hjudge, ih]

theorem MovedVerdict.cons {p : Nat × Nat} {kept : List (Nat × Nat)}
    {v v' : Except LoadError (Rule × Nat)} (h : MovedVerdict kept v v') :
    MovedVerdict (p :: kept) v v' := by
  cases h with
  | rule h => exact .rule (List.mem_cons_of_mem _ h)
  | error h => exact .error ⟨h.fault, h.file, h.line.imp_right (List.mem_cons_of_mem _)⟩

/-- A line has the same verdict under another number. -/
theorem forall₂_judge (file : String) (line : String) {kept : List (Nat × Nat)} {n n' : Nat}
    (h : (n, n') ∈ kept) :
    List.Forall₂ (MovedVerdict kept) (judge file (some line) n).toList
      (judge file (some line) n').toList := by
  simp only [judge]
  split
  · split
    · exact .cons (.rule h) .nil
    · exact .cons (.error ⟨rfl, rfl, Or.inr h⟩) .nil
  · exact .nil

/-- Another layout gives the same verdicts. -/
theorem Relaid.forall₂_verdicts (file : String) {n n' : Nat} {lines lines' : List (List Char)}
    {kept : List (Nat × Nat)} (h : Relaid n lines n' lines' kept) :
    List.Forall₂ (MovedVerdict kept) (verdictsFrom file n lines) (verdictsFrom file n' lines') := by
  induction h with
  | nil => exact .nil
  | @insert _ n' line _ _ _ hskip _ ih =>
    rw [verdictsFrom_cons file n', judge_of_isSkipped file (by rwa [String.toList_ofList])]
    exact ih
  | @delete n _ line _ _ _ hskip _ ih =>
    rw [verdictsFrom_cons file n, judge_of_isSkipped file (by rwa [String.toList_ofList])]
    exact ih
  | @keep n n' line line' _ _ _ hline _ ih =>
    rw [verdictsFrom_cons, verdictsFrom_cons, ← hline.judge_eq]
    exact List.rel_append (forall₂_judge file _ List.mem_cons_self) (ih.imp fun _ _ => .cons)

-- ---------------------------------------------------------------------------
-- What is made of the verdicts
-- ---------------------------------------------------------------------------

variable {kept : List (Nat × Nat)}

theorem forall₂_errorsOf {vs vs' : List (Except LoadError (Rule × Nat))}
    (h : List.Forall₂ (MovedVerdict kept) vs vs') :
    List.Forall₂ (Moved kept) (errorsOf vs) (errorsOf vs') := by
  induction h with
  | nil => exact .nil
  | cons hv _ ih =>
    cases hv with
    | rule _ => exact ih
    | error he => exact .cons he ih

theorem forall₂_productionsOf {vs vs' : List (Except LoadError (Rule × Nat))}
    (h : List.Forall₂ (MovedVerdict kept) vs vs') :
    List.Forall₂ (fun p p' => p.1 = p'.1 ∧ (p.2, p'.2) ∈ kept) (productionsOf vs)
      (productionsOf vs') := by
  induction h with
  | nil => exact .nil
  | cons hv _ ih =>
    cases hv with
    | error _ => exact ih
    | @rule r m m' hm =>
      refine List.rel_append ?_ ih
      rw [List.forall₂_map_left_iff, List.forall₂_map_right_iff]
      exact List.forall₂_same.2 fun _ _ => ⟨rfl, hm⟩

/-- A defect is reported on the line where its production stands now. -/
theorem moved_placeOf (file : String) {located located' : List (Production × Nat)}
    (h : List.Forall₂ (fun p p' => p.1 = p'.1 ∧ (p.2, p'.2) ∈ kept) located located')
    (index : Option Nat) (d : Defect) :
    Moved kept ⟨placeOf file (located.map (·.2)) index, .malformed d⟩
      ⟨placeOf file (located'.map (·.2)) index, .malformed d⟩ := by
  refine ⟨rfl, rfl, ?_⟩
  cases index with
  | none => exact Or.inl ⟨rfl, rfl⟩
  | some i =>
    simp only [placeOf, Option.bind_some, List.getElem?_map]
    induction h generalizing i with
    | nil => exact Or.inl ⟨rfl, rfl⟩
    | cons hp _ ih =>
      cases i with
      | zero => exact Or.inr hp.2
      | succ i => exact ih i

theorem sameOutcome_assemble (file : String) (start : Option String)
    {located located' : List (Production × Nat)}
    (h : List.Forall₂ (fun p p' => p.1 = p'.1 ∧ (p.2, p'.2) ∈ kept) located located') :
    SameOutcome kept (assemble file start located) (assemble file start located') := by
  have hproductions : located.map (·.1) = located'.map (·.1) := by
    rw [← List.forall₂_eq_eq_eq, List.forall₂_map_left_iff, List.forall₂_map_right_iff]
    exact h.imp fun _ _ hp => hp.1
  simp only [assemble, hproductions]
  split
  · exact .grammar
  · refine .errors ?_
    rw [List.forall₂_map_left_iff, List.forall₂_map_right_iff]
    exact List.forall₂_same.2 fun defect _ => moved_placeOf file h defect.1 defect.2

/-- Sources with the same verdicts load alike. -/
theorem sameOutcome_loadLines (file : String) (start : Option String)
    {lines lines' : List (Option String)}
    (h : List.Forall₂ (MovedVerdict kept) (verdicts file lines) (verdicts file lines')) :
    SameOutcome kept (loadLines file start lines) (loadLines file start lines') := by
  have herrors := forall₂_errorsOf h
  by_cases hnil : errorsOf (verdicts file lines) = []
  · have hnil' : errorsOf (verdicts file lines') = [] := by
      rw [hnil] at herrors
      exact List.forall₂_nil_left_iff.1 herrors
    rw [loadLines_of_errorsOf_eq_nil start hnil, loadLines_of_errorsOf_eq_nil start hnil']
    exact sameOutcome_assemble file start (forall₂_productionsOf h)
  · have hnil' : errorsOf (verdicts file lines') ≠ [] := by
      intro hnil'
      rw [hnil'] at herrors
      exact hnil (List.forall₂_nil_right_iff.1 herrors)
    have hload : loadLines file start lines = .error (errorsOf (verdicts file lines)) := if_pos hnil
    have hload' : loadLines file start lines' = .error (errorsOf (verdicts file lines')) := if_pos hnil'
    rw [hload, hload']
    exact .errors herrors

/-- Every source that is text consists of lines. With blank lines and comments inserted and
deleted, white space added or taken away at the ends of lines, and each line ended in one way
or the other, it loads as before: the grammar is the same, or the errors are, in the same order,
each on the line where it was, under the number that the line has now. -/
theorem loadBytes_relaid (file : String) (start : Option String) {bytes : List UInt8}
    {text : String} (hbytes : decode bytes = some text) :
    (∃ lines, Lined text.toList lines) ∧
      ∀ lines, Lined text.toList lines → ∀ lines' kept, Relaid 1 lines 1 lines' kept →
        ∀ bytes' text', decode bytes' = some text' → Lined text'.toList lines' →
          SameOutcome kept (loadBytes file start bytes) (loadBytes file start bytes') ∧
            (kept.Pairwise fun p q => p.1 < q.1 ∧ p.2 < q.2) ∧
            ∀ m m', (m, m') ∈ kept → ∃ line line', (line, m) ∈ lines.zipIdx 1 ∧
              (line', m') ∈ lines'.zipIdx 1 ∧ SameButMargins line line' := by
  have hload {bytes : List UInt8} {text : String} (h : decode bytes = some text) :
      loadBytes file start bytes = loadLines file start ((textLines text).map some) := by
    rw [← encode_of_decode_eq_some h, loadBytes_encode, loadText]
  refine ⟨exists_lined _, fun lines hlines lines' kept h bytes' text' hbytes' hlines' => ?_⟩
  refine ⟨?_, h.kept_increasing, fun m m' => h.mem_kept⟩
  rw [hload hbytes, hload hbytes']
  refine sameOutcome_loadLines file start ?_
  rw [verdicts_of_lined file hlines, verdicts_of_lined file hlines']
  exact h.forall₂_verdicts file

/-- Two lines whose rules have defects. -/
def plainSource : List Char :=
  "S -> A".toList ++ '\n' :: "A -> B |".toList

/-- The lines of `plainSource` with margins, between a comment, a blank line and another
comment, and with both kinds of ending. -/
def paddedSource : List Char :=
  "# rules".toList ++ '\r' :: '\n' :: ([] ++ '\n' :: ("\tS -> A ".toList ++ '\r' :: '\n' ::
    ("  #".toList ++ '\n' :: ("A -> B |\u00a0".toList ++ '\n' :: []))))

theorem loadBytes_relaid_paddedSource :
    ∃ es', loadBytes "padded.cfg" (some "Q") (encode paddedSource) = .error es' ∧
      List.Forall₂ (Moved [(1, 3), (2, 5)])
        [⟨⟨"padded.cfg", 0⟩, .malformed (.undefinedStart "Q")⟩,
         ⟨⟨"padded.cfg", 2⟩, .malformed (.undefinedNonterminal "B" "A")⟩,
         ⟨⟨"padded.cfg", 2⟩, .malformed (.emptyRightHandSide "A")⟩] es' := by
  have hplain : Lined plainSource ["S -> A".toList, "A -> B |".toList] :=
    .feed (by decide) (.last (by decide) (by decide))
  have hpadded : Lined paddedSource ["# rules".toList, [], "\tS -> A ".toList, "  #".toList,
      "A -> B |\u00a0".toList] :=
    .returnFeed (by decide) (.feed (by decide) (.returnFeed (by decide) (.feed (by decide)
      (.feed (by decide) .nil))))
  have hfirst : SameButMargins "S -> A".toList "\tS -> A ".toList :=
    ⟨[], "S -> A".toList, [], ['\t'], [' '], List.all_eq_true.1 (by decide), rfl, rfl⟩
  have hsecond : SameButMargins "A -> B |".toList "A -> B |\u00a0".toList :=
    ⟨[], "A -> B |".toList, [], [], ['\u00a0'], List.all_eq_true.1 (by decide), rfl, rfl⟩
  have hrelaid : Relaid 1 ["S -> A".toList, "A -> B |".toList] 1
      ["# rules".toList, [], "\tS -> A ".toList, "  #".toList, "A -> B |\u00a0".toList]
      [(1, 3), (2, 5)] :=
    .insert (Or.inr ⟨[], " rules".toList, rfl, List.all_eq_true.1 (by decide)⟩)
      (.insert (Or.inl (List.all_eq_true.1 (by decide))) (.keep hfirst
        (.insert (Or.inr ⟨"  ".toList, [], rfl, List.all_eq_true.1 (by decide)⟩) (.keep hsecond .nil))))
  have hload : loadBytes "padded.cfg" (some "Q") (encode plainSource) =
      .error [⟨⟨"padded.cfg", 0⟩, .malformed (.undefinedStart "Q")⟩,
        ⟨⟨"padded.cfg", 2⟩, .malformed (.undefinedNonterminal "B" "A")⟩,
        ⟨⟨"padded.cfg", 2⟩, .malformed (.emptyRightHandSide "A")⟩] := by
    decide +kernel
  have hdecode (cs : List Char) : Lined (String.ofList cs).toList = Lined cs := by
    rw [String.toList_ofList]
  have h := ((loadBytes_relaid "padded.cfg" (some "Q") (decode_encode plainSource)).2 _
    (by rwa [hdecode]) _ _ hrelaid _ _ (decode_encode paddedSource) (by rwa [hdecode])).1
  rw [hload] at h
  generalize loadBytes "padded.cfg" (some "Q") (encode paddedSource) = outcome at h
  cases h with
  | errors h => exact ⟨_, rfl, h⟩

end Constituency.Source
