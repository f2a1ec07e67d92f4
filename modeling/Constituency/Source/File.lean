import Constituency.Directory
import Constituency.Source.Load

/-!
# Loading a grammar from a file

A file that cannot be read is reported like any other error, with the file as its
place.
-/

namespace Constituency.Source

/-- The grammar of the content that reading a file gave, or the fault of reading
it. -/
def loadRead (file : String) (start : Option String) :
    Except FileFault (List UInt8) → Except (List LoadError) Grammar
  | .ok bytes => loadBytes file start bytes
  | .error f => .error [⟨⟨file, 0⟩, .file f⟩]

/-- The grammar of a file of a directory, with no input to read from. -/
def loadFile (d : Directory) (path : String) (start : Option String) :
    Except (List LoadError) Grammar :=
  loadRead path start ((d.read path).map (·.toBytes []))

end Constituency.Source
