import Constituency.Proofs.Tree.Names
import Constituency.Tree.Bracketed

/-!
# Bracketed trees can be read in one way

The bracketed text of a tree determines the tree, if the words are the leaves and no name
holds a blank or a parenthesis. What is shown is more: two trees with something behind them
are equal, and so is what is behind them, if the texts agree and both times a blank, a closing
parenthesis or nothing follows. In this form the statement can be proved by recursion on the
trees, along with the same one for the children of a node, which a closing parenthesis
follows.

An opening parenthesis tells a node with children from a word. A name ends where the first
blank or parenthesis is. After the name of a node, a blank announces one more child and a
closing parenthesis the end.

## Main results

* `eq_of_bracketed_append`, `eq_of_bracketedAll_append` — a tree, or the children of a node,
  and what is behind.
* `bracketed_inj`          — the trees themselves.
-/

namespace Constituency.Tree

/-- A name ends in front of the text. -/
def EndsName (rest : List Char) : Prop :=
  ∀ c ∈ rest.head?, c = ' ' ∨ c = ')'

-- ---------------------------------------------------------------------------
-- The text of a tree
-- ---------------------------------------------------------------------------

theorem toList_bracketed_nil (l : Symbol) : (node l []).bracketed.toList = l.name.toList := by
  rw [bracketed]

theorem toList_bracketed_cons_append (l : Symbol) (c : Tree) (cs : List Tree) (rest : List Char) :
    (node l (c :: cs)).bracketed.toList ++ rest =
      '(' :: (l.name.toList ++ ((bracketedAll (c :: cs)).toList ++ ')' :: rest)) := by
  rw [bracketed_node_cons]
  simp

theorem toList_bracketedAll_cons_append (t : Tree) (ts : List Tree) (rest : List Char) :
    (bracketedAll (t :: ts)).toList ++ rest =
      ' ' :: (t.bracketed.toList ++ ((bracketedAll ts).toList ++ rest)) := by
  rw [bracketedAll]
  simp

/-- What follows a child is the next child or the end of the node. -/
theorem endsName_bracketedAll_append (ts : List Tree) (rest : List Char) :
    EndsName ((bracketedAll ts).toList ++ ')' :: rest) := by
  intro c hc
  cases ts with
  | nil => exact Or.inr (Option.some.inj hc).symm
  | cons t ts =>
    rw [toList_bracketedAll_cons_append] at hc
    exact Or.inl (Option.some.inj hc).symm

-- ---------------------------------------------------------------------------
-- Names
-- ---------------------------------------------------------------------------

section

variable {name name' rest rest' : List Char} (hname : ∀ c ∈ name, c ∉ [' ', '(', ')'])

include hname

theorem eq_nil_of_endsName_append (h : EndsName (name ++ rest)) : name = [] := by
  cases name with
  | nil => rfl
  | cons c name =>
    exfalso
    have hc : c ∉ [' ', '(', ')'] := hname c List.mem_cons_self
    rcases h c rfl with rfl | rfl
    · exact hc (by decide)
    · exact hc (by decide)

/-- Two names that are followed by the end of a name are equal if the texts are. -/
theorem eq_of_name_append (hname' : ∀ c ∈ name', c ∉ [' ', '(', ')']) (hrest : EndsName rest)
    (hrest' : EndsName rest') (h : name ++ rest = name' ++ rest') : name = name' ∧ rest = rest' := by
  rcases List.append_eq_append_iff.1 h with ⟨more, rfl, rfl⟩ | ⟨more, rfl, rfl⟩
  · obtain rfl := eq_nil_of_endsName_append (fun c hc => hname' c (List.mem_append_right _ hc)) hrest
    exact ⟨(List.append_nil _).symm, rfl⟩
  · obtain rfl := eq_nil_of_endsName_append (fun c hc => hname c (List.mem_append_right _ hc)) hrest'
    exact ⟨List.append_nil _, rfl⟩

/-- A name is not taken for a node with children. -/
theorem name_append_ne_paren (hrest : EndsName rest) : name ++ rest ≠ '(' :: rest' := by
  intro h
  cases name with
  | nil =>
    rw [List.nil_append] at h
    rw [h] at hrest
    rcases hrest '(' rfl with hc | hc
    · exact absurd hc (by decide)
    · exact absurd hc (by decide)
  | cons c name =>
    obtain rfl : c = '(' := (List.cons.inj h).1
    exact hname '(' List.mem_cons_self (by decide)

end

-- ---------------------------------------------------------------------------
-- Trees
-- ---------------------------------------------------------------------------

mutual
/-- A text that begins with a tree begins with no other one, and what is behind is the same. -/
theorem eq_of_bracketed_append {t u : Tree} (ht : t.WordsAtLeaves) (hu : u.WordsAtLeaves)
    (htn : t.NamesAvoid [' ', '(', ')']) (hun : u.NamesAvoid [' ', '(', ')'])
    {rest rest' : List Char} (hrest : EndsName rest) (hrest' : EndsName rest')
    (h : t.bracketed.toList ++ rest = u.bracketed.toList ++ rest') : t = u ∧ rest = rest' := by
  match t, u with
  | .node l [], .node m [] =>
    rw [toList_bracketed_nil, toList_bracketed_nil] at h
    obtain ⟨hname, hrest⟩ :=
      eq_of_name_append (namesAvoid_node.1 htn).1 (namesAvoid_node.1 hun).1 hrest hrest' h
    rw [ht.label_eq hu rfl (String.toList_inj.1 hname)]
    exact ⟨rfl, hrest⟩
  | .node l [], .node m (d :: ds) =>
    rw [toList_bracketed_nil, toList_bracketed_cons_append] at h
    exact absurd h (name_append_ne_paren (namesAvoid_node.1 htn).1 hrest)
  | .node l (c :: cs), .node m [] =>
    rw [toList_bracketed_nil, toList_bracketed_cons_append] at h
    exact absurd h.symm (name_append_ne_paren (namesAvoid_node.1 hun).1 hrest')
  | .node l (c :: cs), .node m (d :: ds) =>
    obtain ⟨hln, hcsn⟩ := namesAvoid_node.1 htn
    obtain ⟨hmn, hdsn⟩ := namesAvoid_node.1 hun
    rw [toList_bracketed_cons_append, toList_bracketed_cons_append] at h
    obtain ⟨hname, hchildren⟩ := eq_of_name_append hln hmn (endsName_bracketedAll_append _ _)
      (endsName_bracketedAll_append _ _) (List.cons.inj h).2
    obtain ⟨hcs, hrest⟩ := eq_of_bracketedAll_append (wordsAtLeaves_node.1 ht).2
      (wordsAtLeaves_node.1 hu).2 hcsn hdsn hchildren
    rw [ht.label_eq hu rfl (String.toList_inj.1 hname), hcs]
    exact ⟨rfl, hrest⟩
/-- The same for the children of a node. -/
theorem eq_of_bracketedAll_append {ts us : List Tree} (hts : ∀ t ∈ ts, t.WordsAtLeaves)
    (hus : ∀ u ∈ us, u.WordsAtLeaves) (htsn : ∀ t ∈ ts, t.NamesAvoid [' ', '(', ')'])
    (husn : ∀ u ∈ us, u.NamesAvoid [' ', '(', ')']) {rest rest' : List Char}
    (h : (bracketedAll ts).toList ++ ')' :: rest = (bracketedAll us).toList ++ ')' :: rest') :
    ts = us ∧ rest = rest' := by
  match ts, us with
  | [], [] => exact ⟨rfl, (List.cons.inj h).2⟩
  | [], u :: us =>
    rw [toList_bracketedAll_cons_append] at h
    exact absurd (List.cons.inj h).1 (by decide)
  | t :: ts, [] =>
    rw [toList_bracketedAll_cons_append] at h
    exact absurd (List.cons.inj h).1 (by decide)
  | t :: ts, u :: us =>
    obtain ⟨ht, hts⟩ := List.forall_mem_cons.1 hts
    obtain ⟨hu, hus⟩ := List.forall_mem_cons.1 hus
    obtain ⟨htn, htsn⟩ := List.forall_mem_cons.1 htsn
    obtain ⟨hun, husn⟩ := List.forall_mem_cons.1 husn
    rw [toList_bracketedAll_cons_append, toList_bracketedAll_cons_append] at h
    obtain ⟨hhead, hbehind⟩ := eq_of_bracketed_append ht hu htn hun
      (endsName_bracketedAll_append _ _) (endsName_bracketedAll_append _ _) (List.cons.inj h).2
    obtain ⟨htail, hrest⟩ := eq_of_bracketedAll_append hts hus htsn husn hbehind
    rw [hhead, htail]
    exact ⟨rfl, hrest⟩
end

/-- The bracketed text of a tree determines the tree, if exactly the words have nothing below
them and no name holds a blank or a parenthesis. A name may be empty. -/
theorem bracketed_inj {t u : Tree} (ht : t.WordsAtLeaves) (hu : u.WordsAtLeaves)
    (htn : t.NamesAvoid [' ', '(', ')']) (hun : u.NamesAvoid [' ', '(', ')']) :
    t.bracketed = u.bracketed ↔ t = u := by
  refine ⟨fun h => ?_, congrArg bracketed⟩
  have hnil : EndsName [] := fun c hc => by cases hc
  exact (eq_of_bracketed_append ht hu htn hun hnil hnil (by rw [h])).1

/-- One word and two words, each below a phrase of its own. -/
def splitEarly : Tree :=
  branch "S" [branch "A" [leaf "a"], branch "B" [leaf "b", leaf "c"]]

/-- The same words, cut in another place. -/
def splitLate : Tree :=
  branch "S" [branch "A" [leaf "a", leaf "b"], branch "B" [leaf "c"]]

theorem bracketed_inj_splits :
    splitEarly.WordsAtLeaves ∧ splitLate.WordsAtLeaves ∧
    splitEarly.NamesAvoid [' ', '(', ')'] ∧ splitLate.NamesAvoid [' ', '(', ')'] ∧
    (splitEarly.bracketed = splitLate.bracketed ↔ splitEarly = splitLate) ∧
    splitEarly ≠ splitLate :=
  ⟨by decide, by decide, by decide, by decide,
    bracketed_inj (by decide) (by decide) (by decide) (by decide), by decide⟩

-- a blank in a name may announce a child, and a phrase without children looks like a word
example : (branch "A" [leaf "a b"]).bracketed = (branch "A" [leaf "a", leaf "b"]).bracketed ∧
    (branch "A" []).bracketed = (leaf "A").bracketed := by
  decide

end Constituency.Tree
