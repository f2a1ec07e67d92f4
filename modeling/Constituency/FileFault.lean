/-!
# Files that cannot be read

The reasons why the text of a file is not to be had, with the wording the system
uses for them.
-/

namespace Constituency

/-- Why a file cannot be read. -/
inductive FileFault where
  /-- There is nothing of that name. -/
  | notFound
  /-- Something that is no directory is used as one. -/
  | notADirectory
  /-- A directory is read as if it were a file. -/
  | isADirectory
  /-- The name holds a NUL character, so no file can have it. -/
  | nulInName
  /-- The name is longer than a name may be. -/
  | nameTooLong
  /-- The name leads through more links than are followed. -/
  | tooManyLinks
  /-- The bytes are not UTF-8. -/
  | notUtf8
  /-- The system gives another reason. -/
  | other (reason : String)
deriving DecidableEq, Repr, Inhabited

/-- The message shown for a file that cannot be read. -/
def FileFault.message : FileFault → String
  | .notFound => "No such file or directory (os error 2)"
  | .notADirectory => "Not a directory (os error 20)"
  | .isADirectory => "Is a directory (os error 21)"
  | .nulInName => "file name contained an unexpected NUL byte"
  | .nameTooLong => "File name too long (os error 36)"
  | .tooManyLinks => "Too many levels of symbolic links (os error 40)"
  | .notUtf8 => "stream did not contain valid UTF-8"
  | .other reason => reason

end Constituency
