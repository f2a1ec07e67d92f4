import Constituency.Chart.Cursor
import Constituency.Grammar.Licence
import Constituency.Origin
import Constituency.Parse
import Constituency.Text.Words
import Constituency.Tree.Chunk
import Constituency.Tree.Drawing

/-!
# Sessions

A session works on one grammar at a time. It holds the chart of the last sentence
with a cursor into its trees, and the trees of the last parse. A new grammar
clears all of that; a new sentence clears the chart, the cursor and the trees,
also when it turns out to have no words.

What is asked too early is refused, and refusing changes nothing: without a
grammar there is nothing to ask but for one, and without a chart there is nothing
to ask of it. Asking for a tree that was not stored is no mistake; there is none.

## Main declarations

* `Session`         — the state.
* `Request`         — what can be asked.
* `Reply`           — what is answered.
* `Session.answer`  — the reply to a request, and the state after it.
-/

namespace Constituency

/-- The state of a session. -/
structure Session where
  /-- The grammar in use. -/
  grammar : Option Grammar
  /-- The position in the trees of the chart of the last sentence. -/
  cursor : Option Cursor
  /-- The trees of the last parse. -/
  trees : List Tree

/-- What can be asked of a session. -/
inductive Request where
  /-- To use another grammar. -/
  | useGrammar (o : Origin)
  /-- To fill the chart of a row of words. -/
  | useTokens (tokens : List String)
  /-- To fill the chart of the words of a sentence. -/
  | useSentence (sentence : String)
  /-- The rules for a phrase kind. -/
  | rulesFor (symbol : String)
  /-- The unary rules over a phrase kind. -/
  | unaryParents (symbol : String)
  /-- Whether the grammar licenses a tree. -/
  | licenses (t : Tree)
  /-- Whether another origin gives the same grammar. -/
  | sameGrammar (o : Origin)
  /-- Whether the sentence is accepted. -/
  | accepted
  /-- The derivations of the start symbol over the sentence. -/
  | roots
  /-- The derivations of a phrase kind over a span. -/
  | derivations (span : Span) (symbol : String)
  /-- The tree at the cursor. -/
  | next
  /-- To move the cursor back to the first tree. -/
  | restart
  /-- To parse the sentence and store its trees. -/
  | parse
  /-- The chunks of a stored tree. -/
  | chunks (index : Nat) (symbol : String)
  /-- The drawing of a stored tree. -/
  | drawing (index : Nat)

/-- What a session answers. -/
inductive Reply where
  /-- There is no grammar yet. -/
  | noGrammar
  /-- There is no chart yet. -/
  | noChart
  /-- The origin gives no grammar. -/
  | rejected (r : Rejection)
  /-- The sentence is not parsed. -/
  | unparsed (e : ParseError)
  /-- The grammar now in use. -/
  | grammar (g : Grammar)
  /-- The chart now in use. -/
  | chart (c : Chart)
  /-- Rules. -/
  | rules (ps : List Production)
  /-- A verdict. -/
  | verdict (b : Bool)
  /-- Derivations. -/
  | derivations (ds : List Derivation)
  /-- The tree at the cursor, if there was one left. -/
  | tree (t : Option Tree)
  /-- The cursor is back at the first tree. -/
  | restarted
  /-- The trees now stored. -/
  | trees (ts : List Tree)
  /-- The chunks of a stored tree, if there is such a tree. -/
  | chunks (found : Option (List Tree))
  /-- The drawing of a stored tree, if there is such a tree. -/
  | drawing (text : Option String)

namespace Session

/-- The session without a grammar. -/
def fresh : Session := ⟨none, none, []⟩

/-- Fills the chart of a row of words. -/
def useTokens (s : Session) (g : Grammar) (tokens : List String) : Reply × Session :=
  match Chart.ofTokens g tokens with
  | .error e => (.unparsed e, { s with cursor := none, trees := [] })
  | .ok c => (.chart c, { s with cursor := some c.cursor, trees := [] })

/-- The reply to a request about the chart, given the cursor into it. -/
def answerOnChart (s : Session) (k : Cursor) : Request → Reply × Session
  | .accepted => (.verdict k.chart.isAccepted, s)
  | .roots => (.derivations k.chart.roots, s)
  | .derivations span a => (.derivations (k.chart.derivations span a), s)
  | .next => (.tree k.next.1, { s with cursor := some k.next.2 })
  | .restart => (.restarted, { s with cursor := some k.chart.cursor })
  | .parse => (.trees k.chart.parses, { s with trees := k.chart.parses })
  | _ => (.noChart, s)

/-- The reply to a request, given the grammar. -/
def answerWith (s : Session) (g : Grammar) (r : Request) : Reply × Session :=
  match r with
  | .useTokens tokens => s.useTokens g tokens
  | .useSentence sentence => s.useTokens g (Text.words sentence)
  | .rulesFor a => (.rules (g.rulesFor a), s)
  | .unaryParents a => (.rules (g.unaryParents a), s)
  | .licenses t => (.verdict (g.licenses t), s)
  | .sameGrammar o =>
    match o.grammar with
    | .ok h => (.verdict (g = h), s)
    | .error e => (.rejected e, s)
  | .chunks i a => (.chunks (s.trees[i]?.map (Tree.chunks a)), s)
  | .drawing i => (.drawing (s.trees[i]?.map Tree.drawing), s)
  | r =>
    match s.cursor with
    | none => (.noChart, s)
    | some k => s.answerOnChart k r

/-- The reply to a request, and the session after it. -/
def answer (s : Session) (r : Request) : Reply × Session :=
  match r, s.grammar with
  | .useGrammar o, _ =>
    match o.grammar with
    | .ok g => (.grammar g, ⟨some g, none, []⟩)
    | .error e => (.rejected e, s)
  | _, none => (.noGrammar, s)
  | r, some g => s.answerWith g r

end Session

end Constituency
