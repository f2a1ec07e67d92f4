import Constituency.Source.English

/-!
# Where a grammar comes from

A grammar is written as a source, given as productions, or the English one. The
first and the last are loaded and fail with errors at their places; productions
have no place, so they fail with bare defects.
-/

namespace Constituency

/-- Where a grammar comes from. -/
inductive Origin where
  /-- The English grammar. -/
  | english
  /-- A source as bytes, under a file name. -/
  | bytes (file : String) (start : Option String) (content : List UInt8)
  /-- A source as text, under a file name. -/
  | text (file : String) (start : Option String) (content : String)
  /-- Productions, rooted at the first left-hand side if no start is given. -/
  | productions (start : Option String) (ps : List Production)

/-- Why an origin gives no grammar. -/
inductive Rejection where
  /-- The productions do not form a grammar. -/
  | defects (ds : List Defect)
  /-- The source does not load. -/
  | errors (es : List Source.LoadError)
deriving DecidableEq, Repr

/-- The grammar that an origin gives. -/
def Origin.grammar : Origin → Except Rejection Grammar
  | .english => (Source.english none).mapError .errors
  | .bytes file start content => (Source.loadBytes file start content).mapError .errors
  | .text file start content => (Source.loadText file start content).mapError .errors
  | .productions (some start) ps => (Grammar.ofProductions start ps).mapError .defects
  | .productions none ps => (Grammar.ofProductionsFromFirst ps).mapError .defects

end Constituency
