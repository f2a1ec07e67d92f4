import Constituency.Command.Run

/-!
# The program

The command on the files, the input and the output of the system.
-/

namespace Constituency.Command

/-- Whether a number of the system is the given one; it may come with either
sign. -/
def isCode (expected code : UInt32) : Bool :=
  code = expected || -code = expected

/-- The fault that an error of the system stands for. -/
def faultOf : IO.Error → FileFault
  | .noFileOrDirectory .. => .notFound
  | .inappropriateType _ code _ => if isCode 20 code then .notADirectory else .isADirectory
  | .invalidArgument _ code details =>
    if isCode 36 code then .nameTooLong
    else if isCode 40 code then .tooManyLinks
    else .other details
  | e => .other (toString e)

/-- The bytes of a stream up to the next line feed, with the line feed, after the
bytes in `line`. -/
partial def readLineBytes (input : IO.FS.Stream) (line : ByteArray) : IO ByteArray := do
  let next ← input.read 1
  if next.isEmpty then return line
  else if next.data = #[10] then return line ++ next
  else readLineBytes input (line ++ next)

/-- The host that reads files and input of the system. -/
def systemHost : Host IO where
  readFile path := do
    try
      return .ok (← IO.FS.readBinFile path).toList
    catch e =>
      return .error (faultOf e)
  readLine := do
    try
      return .ok (← readLineBytes (← IO.getStdin) .empty).toList
    catch e =>
      return .error (faultOf e)
  print text := do
    let out ← IO.getStdout
    out.putStr text
    out.flush
  printError text := do
    (← IO.getStderr).putStr text

end Constituency.Command

/-- Runs the command on the arguments of the program. -/
def main (args : List String) : IO UInt32 := do
  return (← Constituency.Command.run Constituency.Command.systemHost args).code
