import Constituency.FileFault
import Constituency.Grammar.Basic
import Constituency.Source.Location
import Constituency.Source.Rule
import Constituency.Text.Utf8

/-!
# Loading a grammar

A grammar is loaded in two steps. First every line is judged on its own: it is
skipped, it holds a rule, or it is bad. If any line is bad, all bad lines are
reported and nothing else. Only when every line has passed are the rules looked
at together, and each defect is reported at the line of the production that
causes it.

## Main declarations

* `LoadFault`, `LoadError` — what is wrong, and where.
* `judge`                  — the verdict on one line.
* `loadLines`              — the grammar of a list of lines.
* `loadBytes`, `loadText`  — the grammar of a byte string and of a text.
* `loadBytes_encode`       — a text loads as its bytes do.
-/

namespace Constituency.Source

open Text

/-- What keeps a source from being a grammar. -/
inductive LoadFault where
  /-- A line holds no rule. -/
  | rule (e : RuleError)
  /-- The rules do not form a grammar. -/
  | malformed (d : Defect)
  /-- The source cannot be read. -/
  | file (f : FileFault)
deriving DecidableEq, Repr

/-- The message shown for a fault. -/
def LoadFault.message : LoadFault → String
  | .rule e => e.message
  | .malformed d => d.message
  | .file f => "File error: " ++ f.message

/-- A fault and the place that causes it. -/
structure LoadError where
  /-- The place. -/
  location : Location
  /-- The fault. -/
  fault : LoadFault
deriving DecidableEq, Repr

namespace LoadError

/-- The line shown for an error on a terminal: the place in red between brackets,
then the message, in bold. -/
def display (e : LoadError) : String :=
  "\x1b[31;49;1m[" ++ e.location.text ++ "]\x1b[39;49;1m  " ++ e.fault.message ++ "\x1b[0m"

/-- Whether two errors are the same fault at the same place. -/
def same (e f : LoadError) : Bool :=
  e.location.same f.location && e.fault = f.fault

end LoadError

/-- The verdict on a line and its number: nothing for a line that is skipped, an
error for a bad line, and otherwise its rule. A line that cannot be decoded is a
fault of the file and not of any line. -/
def judge (file : String) (line : Option String) (number : Nat) :
    Option (Except LoadError (Rule × Nat)) :=
  match line with
  | none => some (.error ⟨⟨file, 0⟩, .file .notUtf8⟩)
  | some text =>
    if isRuleLine text.toList then
      match Rule.ofLine text.toList with
      | .ok r => some (.ok (r, number))
      | .error e => some (.error ⟨⟨file, number⟩, .rule e⟩)
    else none

/-- The verdicts on the lines, which are numbered from one. -/
def verdicts (file : String) (lines : List (Option String)) :
    List (Except LoadError (Rule × Nat)) :=
  (lines.zipIdx 1).filterMap fun (line, number) => judge file line number

/-- The errors among verdicts. -/
def errorsOf (vs : List (Except LoadError (Rule × Nat))) : List LoadError :=
  vs.filterMap fun v =>
    match v with
    | .error e => some e
    | .ok _ => none

/-- The productions among verdicts, each with the line it stands on. -/
def productionsOf (vs : List (Except LoadError (Rule × Nat))) : List (Production × Nat) :=
  vs.flatMap fun v =>
    match v with
    | .error _ => []
    | .ok (r, number) => r.productions.map (·, number)

/-- The place of a defect: the line of the production that causes it, or the file
as a whole. -/
def placeOf (file : String) (numbers : List Nat) (index : Option Nat) : Location :=
  ⟨file, (index.bind (numbers[·]?)).getD 0⟩

/-- The grammar of productions that stand on numbered lines, or its defects at
their places. -/
def assemble (file : String) (start : Option String) (located : List (Production × Nat)) :
    Except (List LoadError) Grammar :=
  let ps := located.map (·.1)
  let root := start.getD (Grammar.defaultStart ps)
  match Grammar.ofProductions root ps with
  | .ok g => .ok g
  | .error _ =>
    .error <| (defects root ps).map fun (index, d) =>
      ⟨placeOf file (located.map (·.2)) index, .malformed d⟩

/-- The grammar of a source given as lines, or everything that is wrong with it.
The start symbol is `start` if that is given, and the first left-hand side
otherwise. -/
def loadLines (file : String) (start : Option String) (lines : List (Option String)) :
    Except (List LoadError) Grammar :=
  let vs := verdicts file lines
  if errorsOf vs ≠ [] then .error (errorsOf vs) else assemble file start (productionsOf vs)

/-- The grammar of a source given as bytes. -/
def loadBytes (file : String) (start : Option String) (bytes : List UInt8) :
    Except (List LoadError) Grammar :=
  loadLines file start (byteLines bytes)

/-- The grammar of a source given as text. -/
def loadText (file : String) (start : Option String) (text : String) :
    Except (List LoadError) Grammar :=
  loadLines file start ((textLines text).map some)

/-- A text loads as its bytes do. -/
theorem loadBytes_encode (file : String) (start : Option String) (text : String) :
    loadBytes file start (encode text.toList) = loadText file start text := by
  rw [loadBytes, loadText, byteLines_encode]

/-- Whether two sources load alike: the same grammar, or the same errors in the
same order. -/
def sameOutcome : Except (List LoadError) Grammar → Except (List LoadError) Grammar → Bool
  | .ok g, .ok h => g = h
  | .error es, .error fs => es.length = fs.length && (es.zip fs).all fun (e, f) => e.same f
  | _, _ => false

end Constituency.Source
