import Constituency.Command.Options
import Constituency.Parse
import Constituency.Source.English
import Constituency.Source.File
import Constituency.Text.Words
import Constituency.Tree.Chunk
import Constituency.Tree.Drawing

/-!
# The command

The command loads a grammar, reads a sentence and shows every tree of it with its
chunks. A grammar that does not load is reported before any sentence is read, and
only a sentence that is not in a file is asked for.

What the command does is written against a `Host`, which reads files and a line
of input and prints. So the same text runs on a system and on a directory in
memory.

## Main declarations

* `Host`       — what the command needs from its surroundings.
* `report`     — what is shown for one tree.
* `answerTo`   — what is shown for a sentence.
* `run`        — the command.
* `runIn`      — the command on a directory in memory.
-/

namespace Constituency.Command

open Source

/-- What the command needs from its surroundings. -/
structure Host (m : Type → Type) where
  /-- The content of a file. -/
  readFile : String → m (Except FileFault (List UInt8))
  /-- The next line of the input, with its end. -/
  readLine : m (Except FileFault (List UInt8))
  /-- Prints text. -/
  print : String → m Unit
  /-- Prints text for errors. -/
  printError : String → m Unit

/-- How the command ends. -/
inductive Exit where
  /-- It did what it was asked. -/
  | success
  /-- The grammar or the sentence was not to be had. -/
  | failure
  /-- The arguments were wrong. -/
  | misuse
deriving DecidableEq, Repr

/-- The exit code. -/
def Exit.code : Exit → UInt32
  | .success => 0
  | .failure => 1
  | .misuse => 2

/-- The name of the command with its version. -/
def versionText : String := "chunker 0.1.0"

/-- A reminder of the arguments. -/
def helpText : String := "Usage: chunker [-g FILE] [-s SYMBOL] [-l SYMBOL] [-v]... [FILE]"

/-- The phrase kind of the chunks that are shown if none is asked for. -/
def defaultLabel : String := "NP"

/-- Each line with a line feed after it. -/
def unlines (lines : List String) : String :=
  String.join (lines.map (· ++ "\n"))

/-- What is shown for one tree: its drawing, and the phrases of its chunks. -/
def report (label : String) (t : Tree) : String :=
  unlines ([t.drawing, "", label ++ " Chunks"] ++ (t.chunks label).map Tree.phrase ++ [""])

/-- What is shown for a sentence, and how the command ends. A sentence without a
tree is no failure, a sentence without words is one. -/
def answerTo (g : Grammar) (label sentence : String) : Exit × String :=
  match g.parse (Text.words sentence) with
  | .error e => (.failure, unlines [e.message])
  | .ok [] => (.success, unlines ["Could not parse sentence."])
  | .ok trees => (.success, String.join (trees.map (report label)))

/-- The text of bytes that were read, if they are UTF-8. -/
def textOf : Except FileFault (List UInt8) → Except FileFault String
  | .error f => .error f
  | .ok bytes =>
    match Text.decode bytes with
    | some text => .ok text
    | none => .error .notUtf8

section

variable {m : Type → Type} [Monad m]

/-- Loads the grammar that is asked for. -/
def loadGrammar (host : Host m) (o : Options) : m (Except (List LoadError) Grammar) := do
  match o.grammar with
  | none => return english o.start
  | some path => return loadRead path o.start (← host.readFile path)

/-- Reads the sentence, from its file or from the input. -/
def readSentence (host : Host m) (o : Options) : m (Except FileFault String) := do
  match o.file with
  | some path => return textOf (← host.readFile path)
  | none =>
    host.print "Sentence: "
    return textOf (← host.readLine)

/-- Does what the options ask for. -/
def runOptions (host : Host m) (o : Options) : m Exit := do
  match ← loadGrammar host o with
  | .error es =>
    host.printError (unlines (es.map LoadError.display))
    return .failure
  | .ok g =>
    match ← readSentence host o with
    | .error f =>
      host.printError (unlines ["Could not read sentence: " ++ f.message])
      return .failure
    | .ok sentence =>
      let (exit, output) := answerTo g (o.label.getD defaultLabel) sentence
      host.print output
      return exit

/-- The command. -/
def run (host : Host m) (args : List String) : m Exit := do
  match Options.ofArgs args with
  | .ok o => runOptions host o
  | .error .version =>
    host.print (unlines [versionText])
    return .success
  | .error .help =>
    host.print (unlines [helpText])
    return .success
  | .error (.usage e) =>
    host.printError (unlines ["error: " ++ e.message, "", helpText])
    return .misuse

end

-- ---------------------------------------------------------------------------
-- The command in memory
-- ---------------------------------------------------------------------------

/-- The input still to be read and the output so far. -/
structure Console where
  /-- The input still to be read. -/
  input : List UInt8
  /-- What has been printed. -/
  output : String := ""
  /-- What has been printed for errors. -/
  errors : String := ""

/-- The first line of bytes with its line feed, and the bytes after it. -/
def cutLine : List UInt8 → List UInt8 × List UInt8
  | [] => ([], [])
  | b :: bs =>
    if b = 10 then ([b], bs)
    else
      let (line, rest) := cutLine bs
      (b :: line, rest)

/-- Reads content. Of the input nothing is left after it. -/
def readContent (content : Content) : StateM Console (List UInt8) :=
  modifyGet fun c =>
    match content with
    | .bytes stored => (stored, c)
    | .input => (c.input, { c with input := [] })

/-- The host that reads files from a directory in memory. -/
def memoryHost (d : Directory) : Host (StateM Console) where
  readFile path :=
    match d.read path with
    | .ok content => .ok <$> readContent content
    | .error f => pure (.error f)
  readLine := modifyGet fun c =>
    let (line, rest) := cutLine c.input
    (.ok line, { c with input := rest })
  print text := modify fun c => { c with output := c.output ++ text }
  printError text := modify fun c => { c with errors := c.errors ++ text }

/-- The command on a directory in memory and an input: how it ends, and what it
prints. -/
def runIn (d : Directory) (input : List UInt8) (args : List String) : Exit × Console :=
  (run (memoryHost d) args).run ⟨input, "", ""⟩

end Constituency.Command
