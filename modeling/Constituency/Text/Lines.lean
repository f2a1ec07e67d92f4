/-!
# Lines

A text is cut into lines at its line feeds. A carriage return right before a line
feed belongs to the line end and is dropped; any other one stays in its line. The
end of the text ends the last line, unless that would be empty. The cut is the
same for bytes and for characters, so it is made for any kind of unit.

## Main declarations

* `linesOf`     — the lines of a list of units.
* `byteLines`   — the lines of a byte string, decoded where that is possible.
* `textLines`   — the lines of a text.
-/

namespace Constituency.Text

/-- The lines of a list of units, given the units for a line feed and a carriage
return. -/
def linesOf {α : Type} [DecidableEq α] (feed ret : α) : List α → List (List α)
  | [] => []
  | c :: cs =>
    if c = feed then [] :: linesOf feed ret cs
    else if c = ret ∧ cs.head? = some feed then linesOf feed ret cs
    else
      match linesOf feed ret cs with
      | [] => [[c]]
      | line :: lines => (c :: line) :: lines

/-- The text that bytes encode in UTF-8, if they do. -/
def decode (bytes : List UInt8) : Option String :=
  String.fromUTF8? bytes.toByteArray

/-- The lines of a byte string; a line that is not UTF-8 has no text. -/
def byteLines (bytes : List UInt8) : List (Option String) :=
  (linesOf 10 13 bytes).map decode

/-- The lines of a text. -/
def textLines (text : String) : List String :=
  (linesOf '\n' '\r' text.toList).map String.ofList

end Constituency.Text
