import Constituency.Proofs.Grammar.Defect
import Constituency.Proofs.Source.Layout
import Constituency.Proofs.Source.Report
import Mathlib.Data.List.Forall2

/-!
# From good lines to a grammar

A source without a bad line is a row of productions: those of its rules, line after line,
and on each line alternative after alternative. `ProductionsAt` gives them together with
the numbers of their lines, so that a production and its line cannot get out of step,
however many alternatives the lines before it have.

From there on loading is making a grammar of the productions. It succeeds when they form
one, and the grammar is the same. If they do not, the errors are the defects of the
productions, in the same order, and each is blamed on the line of the production that has
it. What is nobody's fault in particular is blamed on the file.

So it is of no importance on which line an alternative stands. A bar ends one alternative
and begins the next, and a line that repeats the name and the arrow does just that.

## Main declarations

* `ProductionsAt`   — the productions of a source, each with its line.
* `Blamed`          — the place where a defect is reported.
* `loadBytes_agrees` — loading is making a grammar of the productions, and a bar is as
  good as a line of its own.
-/

namespace Constituency.Source

open Text Unicode

/-- The productions on lines that are numbered from `number` on, each with the number of
its line. Every line is skipped or has a rule, and a rule gives a production for each of
its alternatives. -/
inductive ProductionsAt : Nat → List (Option String) → List (Production × Nat) → Prop
  | nil {number : Nat} : ProductionsAt number [] []
  | skip {number : Nat} {text : String} {lines : List (Option String)}
      {located : List (Production × Nat)} (hskip : IsSkipped text.toList)
      (h : ProductionsAt (number + 1) lines located) :
      ProductionsAt number (some text :: lines) located
  | rule {number : Nat} {text : String} {r : Rule} {lines : List (Option String)}
      {located : List (Production × Nat)} (hrule : ¬IsSkipped text.toList)
      (hr : Rule.ofLine text.toList = .ok r) (h : ProductionsAt (number + 1) lines located) :
      ProductionsAt number (some text :: lines)
        (r.alternatives.map (fun rhs => (⟨r.lhs, rhs⟩, number)) ++ located)

/-- The error reports the defect on the line of the production that has it, or for the
file if no production in particular has it. -/
inductive Blamed (file : String) (located : List (Production × Nat)) :
    Option Nat × Defect → LoadError → Prop
  | file {d : Defect} : Blamed file located (none, d) ⟨⟨file, 0⟩, .malformed d⟩
  | line {i number : Nat} {d : Defect} {p : Production} (h : located[i]? = some (p, number)) :
      Blamed file located (some i, d) ⟨⟨file, number⟩, .malformed d⟩

/-- The productions that a line gives; none if it is skipped or bad. -/
def productionsOn : Option String → List Production
  | none => []
  | some text =>
    if isRuleLine text.toList then
      match Rule.ofLine text.toList with
      | .ok r => r.productions
      | .error _ => []
    else []

-- ---------------------------------------------------------------------------
-- The productions of a source
-- ---------------------------------------------------------------------------

theorem judge_of_isSkipped (file : String) {text : String} (h : IsSkipped text.toList)
    (number : Nat) : judge file (some text) number = none := by
  have hrule : ¬isRuleLine text.toList = true := by
    rw [Bool.not_eq_true]
    exact isRuleLine_eq_false_iff.2 h
  show (if isRuleLine text.toList = true then _ else none) = none
  rw [if_neg hrule]

/-- Lines of which none is bad have productions. -/
theorem productionsAt_of_not_faulty (file : String) {lines : List (Option String)}
    (h : ∀ line ∈ lines, ∀ f, ¬Faulty line f) (number : Nat) :
    ProductionsAt number lines (productionsOf
      ((lines.zipIdx number).filterMap fun (line, number) => judge file line number)) := by
  induction lines generalizing number with
  | nil => exact .nil
  | cons line lines ih =>
    obtain ⟨hline, hlines⟩ := List.forall_mem_cons.1 h
    have ih := ih hlines (number + 1)
    rw [List.zipIdx_cons]
    cases line with
    | none => exact absurd .undecodable (hline _)
    | some text =>
      by_cases hskip : IsSkipped text.toList
      · simp only [List.filterMap_cons, judge_of_isSkipped file hskip number]
        exact .skip hskip ih
      · cases hr : Rule.ofLine text.toList with
        | error e => exact absurd ((Rule.ofLine_eq_error_iff hskip).1 hr) (hline _)
        | ok r =>
          have hjudge : judge file (some text) number = some (.ok (r, number)) :=
            judge_eq_ok_iff.2 ⟨rfl, text, rfl, isRuleLine_iff_not_isSkipped.2 hskip, hr⟩
          simp only [List.filterMap_cons, hjudge]
          show ProductionsAt number _ (r.productions.map (·, number) ++ productionsOf _)
          rw [Rule.productions, List.map_map]
          exact .rule hskip hr ih

/-- The productions of a source are those of its lines, line after line. -/
theorem ProductionsAt.map_fst {number : Nat} {lines : List (Option String)}
    {located : List (Production × Nat)} (h : ProductionsAt number lines located) :
    located.map (·.1) = lines.flatMap productionsOn := by
  induction h with
  | nil => rfl
  | @skip _ text _ _ hskip _ ih =>
    have hline : productionsOn (some text) = [] := by
      rw [productionsOn, isRuleLine_eq_false_iff.2 hskip]
      rfl
    rw [List.flatMap_cons, hline, ih, List.nil_append]
  | @rule _ text r _ _ hrule hr _ ih =>
    have hline : productionsOn (some text) = r.productions := by
      rw [productionsOn, if_pos (isRuleLine_iff_not_isSkipped.2 hrule), hr]
    rw [List.flatMap_cons, hline, List.map_append, List.map_map, ih]
    rfl

/-- A grammar is loaded when no line is bad and the productions on the lines form it. -/
theorem loadLines_eq_ok_iff_ofProductions {file : String} {start : Option String}
    {lines : List (Option String)} {g : Grammar} :
    loadLines file start lines = .ok g ↔
      (∀ line ∈ lines, ∀ f, ¬Faulty line f) ∧
        Grammar.ofProductions (start.getD (Grammar.defaultStart (lines.flatMap productionsOn)))
          (lines.flatMap productionsOn) = .ok g := by
  rw [loadLines_eq_ok_iff, errorsOf_verdicts_eq_nil_iff]
  refine and_congr_right fun h => ?_
  rw [assemble_eq_ok_iff, ← (productionsAt_of_not_faulty file h 1).map_fst]
  rfl

-- ---------------------------------------------------------------------------
-- Defects and their lines
-- ---------------------------------------------------------------------------

/-- A defect of a production is at a place in the list of productions. -/
theorem lt_length_of_mem_defects {start : String} {ps : List Production} {i : Nat} {d : Defect}
    (h : (some i, d) ∈ defects start ps) : i < ps.length := by
  obtain ⟨_, hviolation⟩ := mem_defects_iff.1 h
  cases hviolation with
  | emptyRightHandSide hp _ => exact (List.getElem?_eq_some_iff.1 hp).1
  | undefinedNonterminal hp _ _ => exact (List.getElem?_eq_some_iff.1 hp).1

/-- The start symbol is reported only if no production defines it. -/
theorem undefinedStart_of_mem_defects {start a : String} {ps : List Production} {i : Option Nat}
    (h : (i, .undefinedStart a) ∈ defects start ps) :
    a = start ∧ ps ≠ [] ∧ start ∉ ps.map (·.lhs) := by
  obtain ⟨_, hviolation⟩ := mem_defects_iff.1 h
  cases hviolation with
  | undefinedStart hne hstart => exact ⟨rfl, hne, hstart⟩

theorem defaultStart_mem {ps : List Production} (h : ps ≠ []) :
    Grammar.defaultStart ps ∈ ps.map (·.lhs) := by
  obtain ⟨p, ps, rfl⟩ := List.exists_cons_of_ne_nil h
  exact List.mem_cons_self

/-- Productions that form no grammar fail with their defects at their lines. -/
theorem exists_blamed_of_ofProductions_ne_ok (file : String) {start : Option String}
    {located : List (Production × Nat)}
    (h : ∀ g, Grammar.ofProductions (start.getD (Grammar.defaultStart (located.map (·.1))))
      (located.map (·.1)) ≠ .ok g) :
    ∃ es, assemble file start located = .error es ∧
      List.Forall₂ (Blamed file located)
        (defects (start.getD (Grammar.defaultStart (located.map (·.1)))) (located.map (·.1))) es := by
  unfold assemble
  simp only
  split
  · next g hg => exact absurd hg (h g)
  · refine ⟨_, rfl, List.forall₂_map_right_iff.2 (List.forall₂_same.2 ?_)⟩
    rintro ⟨index, d⟩ hd
    cases index with
    | none => exact .file
    | some i =>
      have hi : i < located.length := by
        rw [← List.length_map (·.1)]
        exact lt_length_of_mem_defects hd
      have hplace : placeOf file (located.map (·.2)) (some i) = ⟨file, located[i].2⟩ := by
        rw [placeOf, Option.bind_some, List.getElem?_map, List.getElem?_eq_getElem hi]
        rfl
      show Blamed file located _ ⟨placeOf file (located.map (·.2)) (some i), _⟩
      rw [hplace]
      exact .line (p := located[i].1) (List.getElem?_eq_getElem hi)

/-- A start symbol without a rule was given, since the default is a left-hand side. -/
theorem eq_some_of_undefinedStart {file : String} {start : Option String}
    {located : List (Production × Nat)} {es : List LoadError}
    (h : assemble file start located = .error es) {e : LoadError} (he : e ∈ es) {a : String}
    (hfault : e.fault = .malformed (.undefinedStart a)) : start = some a := by
  unfold assemble at h
  simp only at h
  split at h
  · cases h
  · obtain rfl := Except.error.inj h
    obtain ⟨⟨i, d⟩, hd, rfl⟩ := List.mem_map.1 he
    obtain rfl := LoadFault.malformed.inj hfault
    obtain ⟨rfl, hne, hundefined⟩ := undefinedStart_of_mem_defects hd
    cases start with
    | none => exact absurd (defaultStart_mem hne) hundefined
    | some a => rfl

-- ---------------------------------------------------------------------------
-- Alternatives on one line
-- ---------------------------------------------------------------------------

section Bars

variable {head : List Char} {a : String}

/-- What stands behind the arrow has tokens of its own. -/
theorem lexLine_head_append (hhead : lexLine head = .ok [.name a, .arrow]) (text : List Char) :
    lexLine (head ++ text) = (lexLine text).map ([.name a, .arrow] ++ ·) := by
  refine (lexLine_eq_ok_iff.1 hhead).lexLine_append_of_getLast? fun b hb => ?_
  cases hb

theorem ofLine_head_append_iff (hhead : lexLine head = .ok [.name a, .arrow]) {text : List Char}
    {r : Rule} :
    Rule.ofLine (head ++ text) = .ok r ↔
      r.lhs = a ∧ ∃ ts, lexLine text = .ok ts ∧ alternativesOf ts = .ok r.alternatives := by
  rw [Rule.ofLine_eq_ok_iff]
  constructor
  · rintro ⟨rest, hrest, halternatives⟩
    have hline := lexLine_eq_ok_iff.2 hrest
    rw [lexLine_head_append hhead] at hline
    obtain ⟨ts, hts, heq⟩ := map_eq_ok_iff.1 hline
    obtain ⟨hname, heq⟩ := List.cons.inj heq
    obtain rfl : ts = rest := (List.cons.inj heq).2
    exact ⟨(Token.name.inj hname).symm, ts, hts, halternatives⟩
  · rintro ⟨rfl, ts, hts, halternatives⟩
    refine ⟨ts, lexLine_eq_ok_iff.1 ?_, halternatives⟩
    rw [lexLine_head_append hhead, hts]
    rfl

/-- Whether a line is skipped shows before the arrow. -/
theorem isRuleLine_head_append (hhead : lexLine head = .ok [.name a, .arrow]) (text : List Char) :
    isRuleLine (head ++ text) = isRuleLine head := by
  have hspelled := lexLine_eq_ok_iff.1 hhead
  have hne : head.dropWhile isWhiteSpace ≠ [] := by
    intro hnil
    have hfirst := hspelled.head?_dropWhile
    rw [hnil] at hfirst
    exact (hspelled.chars_of_name_mem List.mem_cons_self).1 (List.head?_eq_none_iff.1 hfirst.symm)
  obtain ⟨c, rest, hdrop⟩ := List.exists_cons_of_ne_nil hne
  rw [isRuleLine, isRuleLine, List.dropWhile_append, hdrop]
  rfl

/-- Alternatives with bars between them are all the alternatives, one after the other. -/
theorem ofLine_intercalate (hhead : lexLine head = .ok [.name a, .arrow])
    {texts : List (List Char)} {rules : List Rule} (hne : texts ≠ [])
    (h : List.Forall₂ (fun text r => Rule.ofLine (head ++ text) = .ok r) texts rules) :
    Rule.ofLine (head ++ ['|'].intercalate texts) = .ok ⟨a, rules.flatMap Rule.alternatives⟩ := by
  refine (ofLine_head_append_iff hhead).2 ⟨rfl, ?_⟩
  induction h with
  | nil => exact absurd rfl hne
  | @cons text r texts rules htext h ih =>
    obtain ⟨-, ts, hts, halternatives⟩ := (ofLine_head_append_iff hhead).1 htext
    cases texts with
    | nil =>
      cases h
      rw [List.intercalate_singleton, List.flatMap_singleton]
      exact ⟨ts, hts, halternatives⟩
    | cons text' texts =>
      obtain ⟨us, hus, hrest⟩ := ih (List.cons_ne_nil _ _)
      refine ⟨ts ++ .bar :: us, ?_, alternativesOf_append_bar halternatives hrest⟩
      have hbar : ∀ c ∈ ('|' :: ['|'].intercalate (text' :: texts)).head?, isNameChar c = false := by
        intro c hc
        rw [← Option.some.inj hc]
        decide
      rw [List.intercalate_cons_cons, List.append_assoc, List.singleton_append,
        (lexLine_eq_ok_iff.1 hts).lexLine_append hbar, lexLine_bar, hus]
      rfl

/-- The productions of a line with bars are those of the lines with one alternative each. -/
theorem productionsOn_intercalate (hhead : lexLine head = .ok [.name a, .arrow])
    {texts : List (List Char)} (hne : texts ≠ [])
    (h : ∀ text ∈ texts, ∃ r, Rule.ofLine (head ++ text) = .ok r) :
    (∃ r, Rule.ofLine (head ++ ['|'].intercalate texts) = .ok r) ∧
      productionsOn (some (String.ofList (head ++ ['|'].intercalate texts))) =
        texts.flatMap fun text => productionsOn (some (String.ofList (head ++ text))) := by
  obtain ⟨rules, hrules⟩ : ∃ rules : List Rule,
      List.Forall₂ (fun text r => Rule.ofLine (head ++ text) = .ok r) texts rules := by
    choose! rule hrule using h
    exact ⟨texts.map rule, List.forall₂_map_right_iff.2 (List.forall₂_same.2 hrule)⟩
  have hline := ofLine_intercalate hhead hne hrules
  refine ⟨⟨_, hline⟩, ?_⟩
  have hon {text : List Char} {r : Rule} (hr : Rule.ofLine (head ++ text) = .ok r) :
      productionsOn (some (String.ofList (head ++ text))) =
        if isRuleLine head then r.productions else [] := by
    rw [productionsOn, String.toList_ofList, isRuleLine_head_append hhead, hr]
  rw [hon hline]
  clear hne h hline
  induction hrules with
  | nil => simp [Rule.productions]
  | @cons text r texts rules hr _ ih =>
    have hlhs : r.lhs = a := ((ofLine_head_append_iff hhead).1 hr).1
    rw [List.flatMap_cons, List.flatMap_cons, hon hr, ← ih]
    split
    · simp only [Rule.productions, List.map_append, hlhs]
    · rfl

end Bars

theorem not_faulty_of_ofLine {text : List Char} {r : Rule} (h : Rule.ofLine text = .ok r)
    (f : LoadFault) : ¬Faulty (some (String.ofList text)) f := by
  rw [faulty_some_iff, String.toList_ofList, h]
  rintro ⟨-, e, he, -⟩
  cases he

-- ---------------------------------------------------------------------------
-- Loading and making a grammar
-- ---------------------------------------------------------------------------

/-- Lines can take the place of a line if none of these is bad and they have the same
productions. -/
theorem loadLines_append_congr {file : String} {start : Option String}
    {front middle middle' back : List (Option String)}
    (hmiddle : ∀ line ∈ middle, ∀ f, ¬Faulty line f)
    (hmiddle' : ∀ line ∈ middle', ∀ f, ¬Faulty line f)
    (h : middle.flatMap productionsOn = middle'.flatMap productionsOn) (g : Grammar) :
    loadLines file start (front ++ middle ++ back) = .ok g ↔
      loadLines file start (front ++ middle' ++ back) = .ok g := by
  rw [loadLines_eq_ok_iff_ofProductions, loadLines_eq_ok_iff_ofProductions]
  have hproductions : (front ++ middle ++ back).flatMap productionsOn =
      (front ++ middle' ++ back).flatMap productionsOn := by
    rw [List.flatMap_append, List.flatMap_append, List.flatMap_append, List.flatMap_append, h]
  rw [hproductions]
  refine and_congr_left fun _ => ?_
  simp only [List.forall_mem_append, iff_true_intro hmiddle, iff_true_intro hmiddle']

/-- A source without a bad line is loaded as its productions are made into a grammar: the
grammar is the same, and so are the defects, each on the line of its production. Nobody
but the caller can have asked for a start symbol without a rule. And a line with bars
gives the same grammar as a line for each of the alternatives. -/
theorem loadBytes_agrees (file : String) :
    (∀ bytes, (∀ line ∈ byteLines bytes, ∀ f, ¬Faulty line f) →
      ∃ located, ProductionsAt 1 (byteLines bytes) located ∧ ∀ start,
        let ps := located.map (·.1)
        let root := start.getD (Grammar.defaultStart ps)
        (∀ g, loadBytes file start bytes = .ok g ↔ Grammar.ofProductions root ps = .ok g) ∧
        ((∀ g, Grammar.ofProductions root ps ≠ .ok g) →
          ∃ es, loadBytes file start bytes = .error es ∧
            List.Forall₂ (Blamed file located) (defects root ps) es) ∧
        ∀ es e a, loadBytes file start bytes = .error es → e ∈ es →
          e.fault = .malformed (.undefinedStart a) → start = some a) ∧
    ∀ head a alternatives, lexLine head = .ok [.name a, .arrow] → alternatives ≠ [] →
      (∀ text ∈ alternatives, ∃ r, Rule.ofLine (head ++ text) = .ok r) →
      ∀ front back start bytes bytes',
        byteLines bytes =
          front ++ [some (String.ofList (head ++ ['|'].intercalate alternatives))] ++ back →
        byteLines bytes' =
          front ++ alternatives.map (fun text => some (String.ofList (head ++ text))) ++ back →
        ∀ g, loadBytes file start bytes = .ok g ↔ loadBytes file start bytes' = .ok g := by
  constructor
  · intro bytes hgood
    have hlocated := productionsAt_of_not_faulty file hgood 1
    refine ⟨_, hlocated, fun start => ?_⟩
    have hload : loadBytes file start bytes = assemble file start (productionsOf _) :=
      loadLines_of_errorsOf_eq_nil start (errorsOf_verdicts_eq_nil_iff.2 hgood)
    rw [hload]
    refine ⟨fun g => assemble_eq_ok_iff, exists_blamed_of_ofProductions_ne_ok file, ?_⟩
    intro es e a hes he hfault
    exact eq_some_of_undefinedStart hes he hfault
  · intro head a alternatives hhead hne halternatives front back start bytes bytes' hlines hlines' g
    obtain ⟨⟨r, hr⟩, hproductions⟩ := productionsOn_intercalate hhead hne halternatives
    rw [loadBytes, loadBytes, hlines, hlines']
    refine loadLines_append_congr ?_ ?_ ?_ g
    · rw [List.forall_mem_singleton]
      exact not_faulty_of_ofLine hr
    · refine List.forall_mem_map.2 fun text htext => ?_
      obtain ⟨r', hr'⟩ := halternatives text htext
      exact not_faulty_of_ofLine hr'
    · rw [List.flatMap_singleton, List.flatMap_map]
      exact hproductions

/-- A source with defects in two of its alternatives, below a comment and a blank line. -/
def unevenSource : List UInt8 :=
  encode "# nouns\nN -> Det N | 'dog'\n\nN -> N |".toList

theorem errorsOf_verdicts_unevenSource :
    errorsOf (verdicts "uneven.cfg" (byteLines unevenSource)) = [] := by
  decide +kernel

theorem loadBytes_unevenSource :
    loadBytes "uneven.cfg" none unevenSource =
      .error [⟨⟨"uneven.cfg", 2⟩, .malformed (.undefinedNonterminal "Det" "N")⟩,
        ⟨⟨"uneven.cfg", 4⟩, .malformed (.emptyRightHandSide "N")⟩] := by
  decide +kernel

theorem loadBytes_agrees_unevenSource :
    (∃ located, ProductionsAt 1 (byteLines unevenSource) located ∧
      ∃ es, loadBytes "uneven.cfg" none unevenSource = .error es ∧
        List.Forall₂ (Blamed "uneven.cfg" located)
          (defects (Grammar.defaultStart (located.map (·.1))) (located.map (·.1))) es ∧
        es = [⟨⟨"uneven.cfg", 2⟩, .malformed (.undefinedNonterminal "Det" "N")⟩,
          ⟨⟨"uneven.cfg", 4⟩, .malformed (.emptyRightHandSide "N")⟩]) ∧
    ∀ g, loadBytes "bars.cfg" none (encode "N -> 'dog' | N N|\"cat\"".toList) = .ok g ↔
      loadBytes "bars.cfg" none (encode "N -> 'dog' \nN -> N N\nN ->\"cat\"".toList) = .ok g := by
  constructor
  · have hgood := errorsOf_verdicts_eq_nil_iff.1 errorsOf_verdicts_unevenSource
    obtain ⟨located, hlocated, hload⟩ := (loadBytes_agrees "uneven.cfg").1 unevenSource hgood
    obtain ⟨hok, hblamed, -⟩ := hload none
    obtain ⟨es, hes, hall⟩ := hblamed fun g hg => by
      have hloaded := (hok g).2 hg
      rw [loadBytes_unevenSource] at hloaded
      cases hloaded
    exact ⟨located, hlocated, es, hes, hall,
      Except.error.inj (hes.symm.trans loadBytes_unevenSource)⟩
  · refine (loadBytes_agrees "bars.cfg").2 "N ->".toList "N"
      [" 'dog' ".toList, " N N".toList, "\"cat\"".toList] (by decide +kernel) (List.cons_ne_nil _ _) ?_
      [] [] none _ _ (by decide +kernel) (by decide +kernel)
    have hrules : ["N -> 'dog' ".toList, "N -> N N".toList, "N ->\"cat\"".toList].map Rule.ofLine =
        [.ok ⟨"N", [[.terminal "dog"]]⟩, .ok ⟨"N", [[.nonterminal "N", .nonterminal "N"]]⟩,
          .ok ⟨"N", [[.terminal "cat"]]⟩] := by
      decide +kernel
    simp at hrules
    simpa using ⟨⟨_, hrules.1⟩, ⟨_, hrules.2.1⟩, ⟨_, hrules.2.2⟩⟩

end Constituency.Source
