/-!
# The arguments of the command

Arguments are read from left to right. An option has a short and a long name, and
its value is attached to it (`-gFILE`, `-g=FILE`, `--grammar=FILE`) or is the next
argument, which must then not look like an option. Flags take no value, and their
short names can share a dash. What is no option is the one file with the sentence;
after `--` nothing is an option. Asking for the version or for help stops the
reading there and then, and so does the first mistake.

## Main declarations

* `Options`          — what the arguments ask for.
* `Halt`             — why the reading stops before the end.
* `Options.ofArgs`   — the options that arguments spell.
-/

namespace Constituency.Command

/-- What the arguments ask for. -/
structure Options where
  /-- The file with the sentence. -/
  file : Option String := none
  /-- The file with the grammar. -/
  grammar : Option String := none
  /-- The start symbol. -/
  start : Option String := none
  /-- The phrase kind of the chunks. -/
  label : Option String := none
  /-- How often more logging is asked for. -/
  verbosity : Nat := 0
deriving DecidableEq, Repr, Inhabited

/-- The options that take a value. -/
inductive Setting where
  | grammar
  | start
  | label
deriving DecidableEq, Repr

/-- The options that take none. -/
inductive Flag where
  | verbose
  | version
  | help
deriving DecidableEq, Repr

/-- What can be wrong with arguments. -/
inductive UsageError where
  /-- There is no such option. -/
  | unknownOption (name : String)
  /-- An option lacks its value. -/
  | missingValue (s : Setting)
  /-- A flag has a value. -/
  | unexpectedValue (f : Flag)
  /-- An option is given twice. -/
  | repeated (s : Setting)
  /-- The name of a file is empty. -/
  | emptyPath
  /-- There is a second file with a sentence. -/
  | unexpectedArgument (text : String)
deriving DecidableEq, Repr

/-- Why the reading of arguments stops before the end. -/
inductive Halt where
  /-- The version is asked for. -/
  | version
  /-- Help is asked for. -/
  | help
  /-- The arguments are wrong. -/
  | usage (e : UsageError)
deriving DecidableEq, Repr

/-- The long name of an option. -/
def Setting.longName : Setting → String
  | .grammar => "grammar"
  | .start => "start"
  | .label => "label"

/-- The long name of a flag. -/
def Flag.longName : Flag → String
  | .verbose => "verbose"
  | .version => "version"
  | .help => "help"

/-- The message shown for wrong arguments. -/
def UsageError.message : UsageError → String
  | .unknownOption name => "unexpected argument '" ++ name ++ "' found"
  | .missingValue s => "a value is required for '--" ++ s.longName ++ "' but none was supplied"
  | .unexpectedValue f => "unexpected value for '--" ++ f.longName ++ "' found"
  | .repeated s => "the argument '--" ++ s.longName ++ "' cannot be used multiple times"
  | .emptyPath => "a value is required but none was supplied"
  | .unexpectedArgument text => "unexpected argument '" ++ text ++ "' found"

/-- The option of a long name. -/
def longOption? (name : String) : Option (Setting ⊕ Flag) :=
  if name = "grammar" then some (.inl .grammar)
  else if name = "start" then some (.inl .start)
  else if name = "label" then some (.inl .label)
  else if name = "verbose" then some (.inr .verbose)
  else if name = "version" then some (.inr .version)
  else if name = "help" then some (.inr .help)
  else none

/-- The option of a short name. -/
def shortOption? : Char → Option (Setting ⊕ Flag)
  | 'g' => some (.inl .grammar)
  | 's' => some (.inl .start)
  | 'l' => some (.inl .label)
  | 'v' => some (.inr .verbose)
  | 'V' => some (.inr .version)
  | 'h' => some (.inr .help)
  | _ => none

/-- How far the reading has come. -/
structure Reading where
  /-- What has been asked for so far. -/
  options : Options := {}
  /-- The option whose value is to be the next argument. -/
  pending : Option Setting := none
  /-- Whether options have ended. -/
  ended : Bool := false

namespace Reading

/-- Gives an option its value. An option has one value, and a file has a name. -/
def set (r : Reading) (s : Setting) (value : String) : Except Halt Reading :=
  let o := r.options
  match s with
  | .grammar =>
    if o.grammar.isSome then .error (.usage (.repeated s))
    else if value = "" then .error (.usage .emptyPath)
    else .ok { r with options := { o with grammar := some value }, pending := none }
  | .start =>
    if o.start.isSome then .error (.usage (.repeated s))
    else .ok { r with options := { o with start := some value }, pending := none }
  | .label =>
    if o.label.isSome then .error (.usage (.repeated s))
    else .ok { r with options := { o with label := some value }, pending := none }

/-- Raises a flag. -/
def raise (r : Reading) (f : Flag) : Except Halt Reading :=
  match f with
  | .verbose => .ok { r with options := { r.options with verbosity := r.options.verbosity + 1 } }
  | .version => .error .version
  | .help => .error .help

/-- Reads the file with the sentence. -/
def positional (r : Reading) (arg : String) : Except Halt Reading :=
  if r.options.file.isSome then .error (.usage (.unexpectedArgument arg))
  else if arg = "" then .error (.usage .emptyPath)
  else .ok { r with options := { r.options with file := some arg } }

/-- Reads a long option, given without its dashes. -/
def long (r : Reading) (body : List Char) : Except Halt Reading :=
  let name := String.ofList (body.takeWhile (· ≠ '='))
  let value := (body.dropWhile (· ≠ '=')).tail?.map String.ofList
  match longOption? name, value with
  | some (.inl s), some v => r.set s v
  | some (.inl s), none => .ok { r with pending := some s }
  | some (.inr f), none => r.raise f
  | some (.inr f), some _ => .error (.usage (.unexpectedValue f))
  | none, _ => .error (.usage (.unknownOption ("--" ++ name)))

/-- Reads short options that share a dash. The first one that takes a value takes
what is left, without an equals sign in front of it. -/
def cluster (r : Reading) : List Char → Except Halt Reading
  | [] => .ok r
  | c :: rest =>
    match shortOption? c with
    | some (.inl s) =>
      match rest with
      | [] => .ok { r with pending := some s }
      | '=' :: value => r.set s (String.ofList value)
      | value => r.set s (String.ofList value)
    | some (.inr f) =>
      match r.raise f with
      | .ok r => r.cluster rest
      | .error e => .error e
    | none => .error (.usage (.unknownOption (String.ofList ['-', c])))

/-- Whether an argument looks like an option: a dash and something after it. -/
def looksLikeOption (arg : String) : Bool :=
  match arg.toList with
  | '-' :: _ :: _ => true
  | _ => false

/-- Reads one argument. -/
def step (r : Reading) (arg : String) : Except Halt Reading :=
  match r.pending with
  | some s => if looksLikeOption arg then .error (.usage (.missingValue s)) else r.set s arg
  | none =>
    if r.ended then r.positional arg
    else
      match arg.toList with
      | ['-', '-'] => .ok { r with ended := true }
      | '-' :: '-' :: body => r.long body
      | '-' :: c :: rest => r.cluster (c :: rest)
      | _ => r.positional arg

end Reading

/-- The options that arguments spell, or why the reading stops early. -/
def Options.ofArgs (args : List String) : Except Halt Options :=
  match args.foldlM Reading.step {} with
  | .error h => .error h
  | .ok r =>
    match r.pending with
    | some s => .error (.usage (.missingValue s))
    | none => .ok r.options

end Constituency.Command
