import Constituency.Proofs.Tree.Names
import Constituency.Tree.Drawing
import Mathlib.Data.List.Forall2

/-!
# Drawn trees can be read in one way

The drawing of a tree has one line for each node, in pre-order, and each line ends in the
name of its node. The drawing determines the tree, if the words are the leaves and no name
holds a line feed.

A name may look like a margin or a connector, so the depth of a node is not found by looking
for the place where its name begins. But a line can be read from the left. A margin is a row
of cells and a connector follows it, and no cell begins like a connector. So once the margin
of a node is known, the lines of everything below its parent are those that begin with this
margin, and the first line that does not is the first one behind them. In this form the
statement is proved by recursion on two trees whose lines have something behind them.

## Main declarations

* `Outside`                  — the lines are behind everything with a given margin.
* `forall₂_drawnLines`       — each line ends in the name of its node.
* `eq_of_drawnBelow_append`, `eq_of_drawnChildren_append` — a tree, or the children of a node,
  and the lines behind.
* `drawing_faithful`         — the lines of the drawing, and what the drawing determines.
-/

namespace Constituency.Tree

/-- The lines begin with one that does not have the margin. -/
def Outside (margin : String) (lines : List String) : Prop :=
  ∀ line ∈ lines.head?, ¬margin.toList <+: line.toList

theorem drawnBelow_node (margin : String) (last : Bool) (l : Symbol) (cs : List Tree) :
    drawnBelow margin last (node l cs) =
      (margin ++ connector last ++ l.name) :: drawnChildren (margin ++ marginCell last) cs := by
  rw [drawnBelow]

theorem drawnChildren_cons (margin : String) (t : Tree) (ts : List Tree) :
    drawnChildren margin (t :: ts) = drawnBelow margin ts.isEmpty t ++ drawnChildren margin ts := by
  rw [drawnChildren]

theorem drawnLines_node (l : Symbol) (cs : List Tree) :
    (node l cs).drawnLines = l.name :: drawnChildren "" cs := by
  rw [drawnLines]

-- ---------------------------------------------------------------------------
-- Lines and nodes
-- ---------------------------------------------------------------------------

/-- The line ends in the name of the node. -/
def EndsInName (line : String) (t : Tree) : Prop :=
  t.label.name.toList <:+ line.toList

mutual
theorem forall₂_drawnBelow (margin : String) (last : Bool) (t : Tree) :
    List.Forall₂ EndsInName (drawnBelow margin last t) t.subtrees := by
  match t with
  | .node l cs =>
    rw [drawnBelow_node, subtrees_node]
    refine .cons ⟨(margin ++ connector last).toList, ?_⟩ (forall₂_drawnChildren _ cs)
    exact String.toList_append.symm
theorem forall₂_drawnChildren (margin : String) (ts : List Tree) :
    List.Forall₂ EndsInName (drawnChildren margin ts) (ts.flatMap subtrees) := by
  match ts with
  | [] => exact .nil
  | t :: ts =>
    rw [drawnChildren_cons, List.flatMap_cons]
    exact List.rel_append (forall₂_drawnBelow _ _ t) (forall₂_drawnChildren _ ts)
end

/-- The lines are those of the nodes in pre-order. -/
theorem forall₂_drawnLines (t : Tree) : List.Forall₂ EndsInName t.drawnLines t.subtrees := by
  obtain ⟨l, cs⟩ := t
  rw [drawnLines_node, subtrees_node]
  exact .cons (List.suffix_refl _) (forall₂_drawnChildren _ cs)

mutual
theorem feed_not_mem_drawnBelow {margin : String} (hmargin : '\n' ∉ margin.toList) (last : Bool)
    {t : Tree} (ht : t.NamesAvoid ['\n']) : ∀ line ∈ drawnBelow margin last t, '\n' ∉ line.toList := by
  match t with
  | .node l cs =>
    obtain ⟨hl, hcs⟩ := namesAvoid_node.1 ht
    have hname : '\n' ∉ l.name.toList := fun h => hl _ h List.mem_cons_self
    have hconnector : '\n' ∉ (connector last).toList := by cases last <;> decide
    have hcell : '\n' ∉ (marginCell last).toList := by cases last <;> decide
    rw [drawnBelow_node]
    refine List.forall_mem_cons.2 ⟨?_, feed_not_mem_drawnChildren ?_ hcs⟩
    · simp [hmargin, hconnector, hname]
    · simp [hmargin, hcell]
theorem feed_not_mem_drawnChildren {margin : String} (hmargin : '\n' ∉ margin.toList)
    {ts : List Tree} (hts : ∀ t ∈ ts, t.NamesAvoid ['\n']) :
    ∀ line ∈ drawnChildren margin ts, '\n' ∉ line.toList := by
  match ts with
  | [] => exact List.forall_mem_nil _
  | t :: ts =>
    obtain ⟨ht, hts⟩ := List.forall_mem_cons.1 hts
    rw [drawnChildren_cons]
    exact List.forall_mem_append.2
      ⟨feed_not_mem_drawnBelow hmargin _ ht, feed_not_mem_drawnChildren hmargin hts⟩
end

/-- Cut at its line feeds, the drawing falls into its lines. -/
theorem splitOn_drawing {t : Tree} (ht : t.NamesAvoid ['\n']) :
    t.drawing.toList.splitOn '\n' = t.drawnLines.map String.toList := by
  rw [drawing, String.toList_intercalate]
  obtain ⟨l, cs⟩ := t
  obtain ⟨hl, hcs⟩ := namesAvoid_node.1 ht
  refine List.splitOn_intercalate '\n' (List.forall_mem_map.2 ?_) ?_
  · rw [drawnLines_node]
    exact List.forall_mem_cons.2
      ⟨fun h => hl _ h List.mem_cons_self, feed_not_mem_drawnChildren (by decide) hcs⟩
  · rw [drawnLines_node]
    exact List.cons_ne_nil _ _

-- ---------------------------------------------------------------------------
-- Reading a line
-- ---------------------------------------------------------------------------

theorem connector_inj : ∀ last last' : Bool,
    (connector last).toList = (connector last').toList → last = last' := by
  decide

/-- The connector and the name behind a margin can be read off. -/
theorem eq_of_line_eq {margin : String} {last last' : Bool} {name name' : String}
    (h : margin ++ connector last ++ name = margin ++ connector last' ++ name') :
    last = last' ∧ name = name' := by
  have hlist := congrArg String.toList h
  simp only [String.toList_append, List.append_assoc] at hlist
  have hrest := List.append_cancel_left hlist
  have hlength (b : Bool) : (connector b).toList.length = 3 := by cases b <;> rfl
  obtain ⟨hconnector, hname⟩ := List.append_inj hrest ((hlength last).trans (hlength last').symm)
  exact ⟨connector_inj last last' hconnector, String.toList_inj.1 hname⟩

/-- No cell of a margin begins like a connector. -/
theorem not_prefix_line (margin : String) (last last' : Bool) (name : String) :
    ¬(margin ++ marginCell last').toList <+: (margin ++ connector last ++ name).toList := by
  intro h
  simp only [String.toList_append, List.append_assoc, List.prefix_append_right_inj] at h
  cases last <;> cases last' <;> exact absurd (List.cons_prefix_cons.1 h).1 (by decide)

/-- The line of a child has the margin of the children. -/
theorem not_outside_drawnChildren_append (margin : String) (t : Tree) (ts : List Tree)
    (rest : List String) : ¬Outside margin (drawnChildren margin (t :: ts) ++ rest) := by
  obtain ⟨l, cs⟩ := t
  rw [drawnChildren_cons, drawnBelow_node]
  intro h
  refine h _ rfl ?_
  rw [String.toList_append, String.toList_append, List.append_assoc]
  exact List.prefix_append _ _

/-- What is behind a child, its siblings and the lines behind these, does not have the margin
of what is below the child. -/
theorem Outside.drawnChildren_append {margin : String} {rest : List String}
    (hrest : Outside margin rest) (last : Bool) (ts : List Tree) :
    Outside (margin ++ marginCell last) (drawnChildren margin ts ++ rest) := by
  intro line hline
  cases ts with
  | nil =>
    intro hmargin
    rw [String.toList_append] at hmargin
    exact hrest line hline ((List.prefix_append _ _).trans hmargin)
  | cons t ts =>
    obtain ⟨l, cs⟩ := t
    rw [drawnChildren_cons, drawnBelow_node] at hline
    rw [← Option.some.inj hline]
    exact not_prefix_line _ _ _ _

-- ---------------------------------------------------------------------------
-- Reading a tree
-- ---------------------------------------------------------------------------

mutual
/-- Lines that begin with a tree begin with no other one, and what is behind is the same. -/
theorem eq_of_drawnBelow_append {margin : String} {last last' : Bool} {t u : Tree}
    (ht : t.WordsAtLeaves) (hu : u.WordsAtLeaves) {rest rest' : List String}
    (hrest : Outside (margin ++ marginCell last) rest)
    (hrest' : Outside (margin ++ marginCell last') rest')
    (h : drawnBelow margin last t ++ rest = drawnBelow margin last' u ++ rest') :
    t = u ∧ rest = rest' := by
  match t, u with
  | .node l cs, .node m ds =>
    rw [drawnBelow_node, drawnBelow_node] at h
    obtain ⟨hline, hbelow⟩ := List.cons.inj h
    obtain ⟨rfl, hname⟩ := eq_of_line_eq hline
    obtain ⟨hcs, hrest⟩ := eq_of_drawnChildren_append (wordsAtLeaves_node.1 ht).2
      (wordsAtLeaves_node.1 hu).2 hrest hrest' hbelow
    rw [ht.label_eq hu (by rw [hcs]) hname, hcs]
    exact ⟨rfl, hrest⟩
/-- The same for the children of a node. -/
theorem eq_of_drawnChildren_append {margin : String} {ts us : List Tree}
    (hts : ∀ t ∈ ts, t.WordsAtLeaves) (hus : ∀ u ∈ us, u.WordsAtLeaves) {rest rest' : List String}
    (hrest : Outside margin rest) (hrest' : Outside margin rest')
    (h : drawnChildren margin ts ++ rest = drawnChildren margin us ++ rest') :
    ts = us ∧ rest = rest' := by
  match ts, us with
  | [], [] => exact ⟨rfl, h⟩
  | [], u :: us => exact absurd (h ▸ hrest) (not_outside_drawnChildren_append margin u us rest')
  | t :: ts, [] => exact absurd (h ▸ hrest') (not_outside_drawnChildren_append margin t ts rest)
  | t :: ts, u :: us =>
    obtain ⟨ht, hts⟩ := List.forall_mem_cons.1 hts
    obtain ⟨hu, hus⟩ := List.forall_mem_cons.1 hus
    rw [drawnChildren_cons, drawnChildren_cons, List.append_assoc, List.append_assoc] at h
    obtain ⟨hhead, hbehind⟩ := eq_of_drawnBelow_append ht hu (hrest.drawnChildren_append _ ts)
      (hrest'.drawnChildren_append _ us) h
    obtain ⟨htail, hrest⟩ := eq_of_drawnChildren_append hts hus hrest hrest' hbehind
    rw [hhead, htail]
    exact ⟨rfl, hrest⟩
end

/-- Trees with the same lines are equal. -/
theorem drawnLines_inj {t u : Tree} (ht : t.WordsAtLeaves) (hu : u.WordsAtLeaves) :
    t.drawnLines = u.drawnLines ↔ t = u := by
  refine ⟨fun h => ?_, congrArg drawnLines⟩
  obtain ⟨l, cs⟩ := t
  obtain ⟨m, ds⟩ := u
  rw [drawnLines_node, drawnLines_node] at h
  obtain ⟨hname, hbelow⟩ := List.cons.inj h
  have hnil : Outside "" [] := fun line hline => by cases hline
  obtain ⟨hcs, -⟩ := eq_of_drawnChildren_append (wordsAtLeaves_node.1 ht).2
    (wordsAtLeaves_node.1 hu).2 hnil hnil (by rw [hbelow])
  rw [ht.label_eq hu (by rw [hcs]) hname, hcs]

/-- Cut at its line feeds, the drawing of a tree without a line feed in its names has one line
for each subtree, in pre-order, and the line ends in the name of the subtree. The drawing
determines the tree, if exactly the words have nothing below them. -/
theorem drawing_faithful {t : Tree} (ht : t.NamesAvoid ['\n']) :
    List.Forall₂ (fun line s => s.label.name.toList <:+ line)
      (t.drawing.toList.splitOn '\n') t.subtrees ∧
    ∀ u : Tree, u.NamesAvoid ['\n'] → t.WordsAtLeaves → u.WordsAtLeaves →
      (t.drawing = u.drawing ↔ t = u) := by
  refine ⟨?_, fun u hu htw huw => ⟨fun h => ?_, congrArg drawing⟩⟩
  · rw [splitOn_drawing ht, List.forall₂_map_left_iff]
    exact forall₂_drawnLines t
  · have hlines := splitOn_drawing ht
    rw [h, splitOn_drawing hu] at hlines
    have hinj : Function.Injective (List.map String.toList) :=
      List.map_injective_iff.2 fun _ _ => String.toList_inj.1
    exact (drawnLines_inj htw huw).1 (hinj hlines).symm

/-- Two words whose names look like parts of a drawing. -/
def disguisedFlat : Tree :=
  branch "S" [leaf "├─ a", leaf "    └─ b"]

/-- A phrase with such a name over a word. -/
def disguisedDeep : Tree :=
  branch "S" [branch "├─ a" [leaf "b"]]

theorem drawing_faithful_disguised :
    disguisedFlat.NamesAvoid ['\n'] ∧ disguisedDeep.NamesAvoid ['\n'] ∧
    disguisedFlat.WordsAtLeaves ∧ disguisedDeep.WordsAtLeaves ∧
    List.Forall₂ (fun line s => s.label.name.toList <:+ line)
      (disguisedFlat.drawing.toList.splitOn '\n') disguisedFlat.subtrees ∧
    (disguisedFlat.drawing = disguisedDeep.drawing ↔ disguisedFlat = disguisedDeep) ∧
    disguisedFlat ≠ disguisedDeep := by
  have hflat : disguisedFlat.NamesAvoid ['\n'] := by decide
  have hdeep : disguisedDeep.NamesAvoid ['\n'] := by decide
  obtain ⟨hlines, hinj⟩ := drawing_faithful hflat
  exact ⟨hflat, hdeep, by decide, by decide, hlines,
    hinj disguisedDeep hdeep (by decide) (by decide), by decide⟩

end Constituency.Tree
