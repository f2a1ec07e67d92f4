import Constituency.Proofs.Grammar.RuleTable
import Constituency.Proofs.Parse
import Constituency.Proofs.Source.Load
import Constituency.Proofs.Text.Lines

/-!
# Printing a grammar and loading it again

A grammar is printed as its productions, one on each line; a line feed after the last
line makes no difference. Loaded again with its start symbol it is the same grammar, if
its names have the form of names and its words hold neither a double quote nor a line
feed. For then each line is the line of its production, the text is cut into just these
lines, and the productions of a grammar, filed in their order, give the grammar.

A grammar that was loaded has names of this form by itself. A name that is defined is
the first thing on a line that is not skipped, and there are no other names in a
grammar. A word was on a line and has no line feed. Only the double quote remains, since
a word may be written in single quotes and hold one.

## Main results

* `loadText_text_of_isWritable` — what is printed loads as what was printed.
* `names_of_loadBytes`          — what a loaded grammar is made of.
* `loadText_text`               — both together.
-/

namespace Constituency

open Source Text Unicode

-- ---------------------------------------------------------------------------
-- The line of a production
-- ---------------------------------------------------------------------------

theorem IsName.feed_not_mem {a : String} (ha : IsName a) : '\n' ∉ a.toList := fun hmem =>
  absurd (ha.chars _ hmem).1 (by decide)

namespace Symbol

theorem IsWritable.feed_not_mem {s : Symbol} (hs : s.IsWritable) : '\n' ∉ s.text.toList := by
  cases s with
  | terminal w =>
    rw [toList_text_terminal]
    intro hmem
    rcases List.mem_cons.1 hmem with heq | hmem
    · exact absurd heq (by decide)
    · rcases List.mem_append.1 hmem with hmem | hmem
      · exact hs.2 hmem
      · exact absurd hmem (by decide)
  | nonterminal a => exact IsName.feed_not_mem hs

/-- The last character of a symbol is the closing quote or stands in the name. -/
theorem IsWritable.exists_getLast? {s : Symbol} (hs : s.IsWritable) :
    ∃ c, s.text.toList.getLast? = some c ∧ isWhiteSpace c = false := by
  cases s with
  | terminal w =>
    refine ⟨'"', ?_, by decide⟩
    rw [toList_text_terminal, ← List.cons_append, List.getLast?_concat]
  | nonterminal a =>
    have hlast := List.getLast?_eq_some_getLast (IsName.toList_ne_nil hs)
    exact ⟨_, hlast, (hs.chars _ (List.getLast_mem _)).1⟩

end Symbol

namespace Production

theorem text_ne_empty (p : Production) : p.text ≠ "" := by
  intro heq
  have hnil := String.toList_eq_nil_iff.2 heq
  rw [toList_text] at hnil
  exact List.cons_ne_nil _ _ (List.append_eq_nil_iff.1 hnil).2

theorem IsWritable.feed_not_mem {p : Production} (h : p.IsWritable) : '\n' ∉ p.text.toList := by
  have hsymbols : '\n' ∉ p.rhs.flatMap fun s => ' ' :: s.text.toList := by
    intro hmem
    obtain ⟨s, hs, hmem⟩ := List.mem_flatMap.1 hmem
    rcases List.mem_cons.1 hmem with heq | hmem
    · exact absurd heq (by decide)
    · exact (h.rhs s hs).feed_not_mem hmem
  rw [toList_text]
  simp [h.lhs.feed_not_mem, hsymbols]

theorem IsWritable.getLast?_ne_return {p : Production} (h : p.IsWritable) (hne : p.rhs ≠ []) :
    p.text.toList.getLast? ≠ some '\r' := by
  obtain ⟨front, s, hs⟩ := (List.eq_nil_or_concat' p.rhs).resolve_left hne
  have hmem : s ∈ p.rhs := by
    rw [hs]
    exact List.mem_append_right _ List.mem_cons_self
  obtain ⟨c, hlast, hc⟩ := (h.rhs s hmem).exists_getLast?
  have htext : ∃ before, p.text.toList = before ++ s.text.toList := by
    rw [toList_text, hs, List.flatMap_append, List.flatMap_singleton]
    exact ⟨p.lhs.toList ++ ' ' :: '-' :: '>' ::
      (front.flatMap (fun s => ' ' :: s.text.toList) ++ [' ']), by simp⟩
  obtain ⟨before, hbefore⟩ := htext
  -- a carriage return is white space, and the last character is none
  rw [hbefore, List.getLast?_append, hlast, Option.some_or]
  exact fun heq => ne_of_isWhiteSpace (d := c) (by decide) hc (Option.some.inj heq).symm

end Production

namespace Grammar

/-- The printed form of a grammar: its productions, one on each line. -/
def text (g : Grammar) : String :=
  "\n".intercalate (g.productions.map Production.text)

theorem textLines_text {g : Grammar} (h : ∀ p ∈ g.productions, p.IsWritable) {ending : String}
    (hending : ending = "" ∨ ending = "\n") :
    textLines (g.text ++ ending) = g.productions.map Production.text := by
  have hne : g.productions ≠ [] := (defects_eq_nil_iff.1 g.defects_productions).1
  refine textLines_intercalate (List.forall_mem_map.2 fun p hp => ?_) ?_ hending
  · have hp' := h p hp
    exact ⟨p.text_ne_empty, hp'.feed_not_mem, hp'.getLast?_ne_return (g.rhs_ne_nil p hp)⟩
  · exact fun hnil => hne (List.map_eq_nil_iff.1 hnil)

/-- What is printed loads as what was printed. -/
theorem loadText_text_of_isWritable {file : String} {g : Grammar}
    (h : ∀ p ∈ g.productions, p.IsWritable) {ending : String}
    (hending : ending = "" ∨ ending = "\n") :
    loadText file (some g.start) (g.text ++ ending) = .ok g := by
  rw [loadText, textLines_text h hending, List.map_map]
  -- the line numbers matter to errors only
  refine (loadLines_texts file _ h).trans (assemble_eq_ok_iff.2 ?_)
  rw [List.zipIdx_map_fst]
  exact g.ofProductions_productions

theorem isWritable_of_names {g : Grammar} (hnames : ∀ a ∈ g.nonterminals, IsName a)
    (hwords : ∀ p ∈ g.productions, ∀ w, .terminal w ∈ p.rhs →
      '"' ∉ w.toList ∧ '\n' ∉ w.toList) :
    ∀ p ∈ g.productions, p.IsWritable := by
  refine fun p hp => ⟨hnames _ (lhs_mem_nonterminals hp), fun s hs => ?_⟩
  cases s with
  | terminal w => exact hwords p hp w hs
  | nonterminal a => exact hnames a (g.closed p hp a hs)

/-- A loaded grammar has names that can be printed, and no line feed in its words. -/
theorem names_of_loadBytes {file : String} {start : Option String} {bytes : List UInt8}
    {g : Grammar} (h : loadBytes file start bytes = .ok g) :
    (∀ a ∈ g.nonterminals, IsName a) ∧
      ∀ p ∈ g.productions, ∀ w, .terminal w ∈ p.rhs → '\n' ∉ w.toList := by
  refine ⟨fun a ha => ?_, fun p hp w hw hmem => ?_⟩
  · -- it has a rule, and the line of that rule begins with it
    obtain ⟨p, hp, rfl⟩ := List.mem_map.1 (mem_nonterminals_iff.1 ha)
    obtain ⟨line, r, -, hrule, hr, hlhs, -⟩ := exists_line_of_mem_productions h hp
    rw [hlhs]
    exact Rule.isName_of_ofLine hrule hr
  · obtain ⟨line, r, hline, -, hr, -, hrhs⟩ := exists_line_of_mem_productions h hp
    exact feed_not_mem_of_mem_byteLines hline (Rule.mem_of_ofLine hr hrhs hw hmem)

/-- Printing a grammar and loading it again with its start symbol gives the grammar back,
if its names have the form of names and its words hold neither a double quote nor a line
feed. Of a grammar that was loaded itself nothing is asked but that no word holds a double
quote. -/
theorem loadText_text {file : String} {ending : String} (hending : ending = "" ∨ ending = "\n") :
    (∀ g : Grammar, (∀ a ∈ g.nonterminals, IsName a) →
      (∀ p ∈ g.productions, ∀ w, .terminal w ∈ p.rhs → '"' ∉ w.toList ∧ '\n' ∉ w.toList) →
        loadText file (some g.start) (g.text ++ ending) = .ok g) ∧
    ∀ (source : String) (start : Option String) (bytes : List UInt8) (g : Grammar),
      loadBytes source start bytes = .ok g →
      (∀ p ∈ g.productions, ∀ w, .terminal w ∈ p.rhs → '"' ∉ w.toList) →
        loadText file (some g.start) (g.text ++ ending) = .ok g := by
  have hprinted : ∀ g : Grammar, (∀ a ∈ g.nonterminals, IsName a) →
      (∀ p ∈ g.productions, ∀ w, .terminal w ∈ p.rhs → '"' ∉ w.toList ∧ '\n' ∉ w.toList) →
        loadText file (some g.start) (g.text ++ ending) = .ok g := fun g hnames hwords =>
    loadText_text_of_isWritable (isWritable_of_names hnames hwords) hending
  refine ⟨hprinted, fun source start bytes g h hquote => ?_⟩
  obtain ⟨hnames, hfeed⟩ := names_of_loadBytes h
  exact hprinted g hnames fun p hp w hw => ⟨hquote p hp w hw, hfeed p hp w hw⟩

theorem loadText_text_circular :
    (∀ a ∈ circular.nonterminals, IsName a) ∧
      (∀ p ∈ circular.productions, ∀ w, .terminal w ∈ p.rhs →
        '"' ∉ w.toList ∧ '\n' ∉ w.toList) ∧
      loadBytes "circular.cfg" none (encode "S->A|'x'\r\nA->S|A|A'and'S".toList) = .ok circular ∧
      circular.text = "S -> A\nS -> \"x\"\nA -> S\nA -> A\nA -> A \"and\" S" ∧
      loadText "printed.cfg" (some "S") (circular.text ++ "\n") = .ok circular ∧
      loadText "printed.cfg" (some "S") circular.text = .ok circular := by
  have hnames : ∀ a ∈ circular.nonterminals, IsName a := by decide
  have hwords : ∀ p ∈ circular.productions, ∀ w, .terminal w ∈ p.rhs →
      '"' ∉ w.toList ∧ '\n' ∉ w.toList := by
    have hall : ∀ p ∈ circular.productions, ∀ s ∈ p.rhs, s.IsWritable := by decide
    exact fun p hp w hw => hall p hp _ hw
  have hload : loadBytes "circular.cfg" none (encode "S->A|'x'\r\nA->S|A|A'and'S".toList) =
      .ok circular := by
    decide +kernel
  refine ⟨hnames, hwords, hload, by decide, (loadText_text (Or.inr rfl)).1 circular hnames hwords, ?_⟩
  have hagain : loadText "printed.cfg" (some "S") (circular.text ++ "") = .ok circular :=
    (loadText_text (Or.inl rfl)).2 _ _ _ circular hload fun p hp w hw => (hwords p hp w hw).1
  rw [String.append_empty] at hagain
  exact hagain

end Grammar

end Constituency
