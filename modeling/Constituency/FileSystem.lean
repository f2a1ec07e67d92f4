import Constituency.FileFault

/-!
# File systems in memory

A file system says what is at each place that steps from its root lead to. A path
is walked step by step: an empty step and a single dot stay where they are, two
dots go up, where the root is its own parent, and a name leads to what is there. A
link is followed by walking its target from the root before the steps that remain,
and only a bounded number of links is followed on one walk, so every walk ends.

## Main declarations

* `FileSystem`        — what is at each place.
* `FileSystem.walk`   — the content that a walk leads to.
* `FileSystem.read`   — the content of the file that a path leads to.
-/

namespace Constituency

/-- What a file holds. -/
inductive Content where
  /-- Bytes. -/
  | bytes (stored : List UInt8)
  /-- What is left of the input of the program. -/
  | input

/-- The bytes of a file, when the given ones are left of the input. -/
def Content.toBytes (left : List UInt8) : Content → List UInt8
  | .bytes stored => stored
  | .input => left

/-- What is at a place of a file system. -/
inductive FileSystem.Node where
  /-- A directory. -/
  | directory
  /-- A file. -/
  | file (content : Content)
  /-- A link, given by the steps from the root to its target. -/
  | link (target : List String)

/-- What is at each place of a file system. -/
structure FileSystem where
  /-- The steps from the root to a place, and what is there. Every place on the way
  to it is a directory. -/
  nodes : List (List String × FileSystem.Node)
  /-- The names at the root below which the directories are made up as they are
  walked. Such a directory looks up a name of any length. -/
  madeUp : List String

namespace FileSystem

/-- The steps that a path takes. -/
def pathSteps (path : String) : List String :=
  path.splitOn "/"

/-- Whether a step stays where it is. -/
def stays (name : String) : Bool :=
  name = "" || name = "."

/-- The greatest number of bytes in a name. -/
def maxNameSize : Nat := 255

/-- The greatest number of bytes in a path. -/
def maxPathSize : Nat := 4095

/-- The greatest number of links that are followed on one walk. -/
def maxLinks : Nat := 40

/-- What steps from the root lead to, with no link among them. -/
def node? (fs : FileSystem) (steps : List String) : Option Node :=
  match fs.nodes.find? (·.1 = steps) with
  | some (_, node) => some node
  | none => if fs.nodes.any fun e => steps.isPrefixOf e.1 then some .directory else none

/-- Whether a directory refuses to look up a name for its length. -/
def refuses (fs : FileSystem) (here : List String) (name : String) : Bool :=
  maxNameSize < name.utf8ByteSize && !fs.madeUp.any ([·].isPrefixOf here)

/-- The content of the file that steps from a directory lead to, when at most
`links` links may be followed. A name that is too long is refused only where it is
looked up, so a walk that ended before has its own fault. -/
def walk (fs : FileSystem) (links : Nat) (here : List String) :
    List String → Except FileFault Content
  | [] => .error .isADirectory
  | name :: rest =>
    if stays name then fs.walk links here rest
    else if name = ".." then fs.walk links here.dropLast rest
    else if fs.refuses here name then .error .nameTooLong
    else
      match fs.node? (here ++ [name]) with
      | none => .error .notFound
      | some .directory => fs.walk links (here ++ [name]) rest
      | some (.file content) => if rest.isEmpty then .ok content else .error .notADirectory
      | some (.link target) =>
        match links with
        | 0 => .error .tooManyLinks
        | fewer + 1 => fs.walk fewer [] (target ++ rest)
termination_by steps => (links, steps.length)

/-- The content of the file that a path leads to. The walk begins at the root after
a slash, and at `here` otherwise. -/
def read (fs : FileSystem) (here : List String) (path : String) : Except FileFault Content :=
  if path.toList.contains '\x00' then .error .nulInName
  else if path = "" then .error .notFound
  else if maxPathSize < path.utf8ByteSize then .error .nameTooLong
  else fs.walk maxLinks (if path.toList.head? = some '/' then [] else here) (pathSteps path)

end FileSystem

end Constituency
