/-!
# Places in a source

A fault is reported with the file and the line that caused it. Lines count from
one; line 0 stands for the file as a whole.

Two spellings of a file name can name the same place: repeated slashes, a slash
at the end, and single dots inside a name make no difference. A dot at the very
beginning does, and so does a slash.
-/

namespace Constituency

/-- A file and a line in it. -/
structure Location where
  /-- The name of the file. -/
  file : String
  /-- The line, counted from one; 0 for the file as a whole. -/
  line : Nat := 0
deriving DecidableEq, Repr, Inhabited

namespace Location

/-- The name of the file, with the line if there is one. -/
def text (l : Location) : String :=
  if l.line = 0 then l.file else l.file ++ ":" ++ toString l.line

/-- The steps of a path: an empty step for the root if the path begins there,
then the names between slashes. A single dot counts only as the first step of a
path that does not begin at the root. -/
def steps (path : String) : List String :=
  let names := path.splitOn "/"
  let atRoot := names.length > 1 && names.head? = some ""
  let leadingDot := names.head? = some "."
  let rest := names.filter fun s => s ≠ "" && s ≠ "."
  if atRoot then "" :: rest else if leadingDot then "." :: rest else rest

/-- Whether two locations are the same line of the same file. -/
def same (l m : Location) : Bool :=
  steps l.file = steps m.file && l.line = m.line

end Location

end Constituency
