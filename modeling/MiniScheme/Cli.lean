import MiniScheme.Session
/-!
# The command line

The interpreter is invoked as `[-q|--quiet] [-e|--expr SOURCE] [FILE]`. The program
is the text given with `-e`, else the file, else standard input; its results are written to
standard output unless `-q` is given, and the first error to standard error with status 1
(`Machine.report`). Short options may be grouped (`-qe SOURCE`) and a value may be attached
(`-eSOURCE`, `--expr=SOURCE`); `--` ends the options.
-/

namespace MiniScheme.Cli

/-- Where the program text comes from. -/
inductive Source where
  | text (s : String)
  | file (path : String)
  | stdin

/-- What the command line asks for. -/
structure Options where
  quiet : Bool
  expr : Option String
  file : Option String

/-- The program text's origin. -/
def Options.source (o : Options) : Source :=
  match o.expr, o.file with
  | some s, _ => .text s
  | none, some p => .file p
  | none, none => .stdin

/-- Whether an argument can be an option's value: it does not itself look like an option. -/
def isValue (a : String) : Bool :=
  !a.startsWith "-" || a == "-"

/-- Sets quietness; an option may be given once only. -/
def setQuiet (o : Options) : Except String Options :=
  if o.quiet then .error "error: the argument '--quiet' cannot be used multiple times"
  else .ok { o with quiet := true }

/-- Sets the program text; an option may be given once only. -/
def setExpr (o : Options) (v : String) : Except String Options :=
  match o.expr with
  | some _ => .error "error: the argument '--expr <SOURCE>' cannot be used multiple times"
  | none => .ok { o with expr := some v }

/-- The message when `--expr` has no value. -/
def missingValue : String :=
  "error: a value is required for '--expr <SOURCE>' but none was supplied"

/-- The options after a group of short options `cs`; the flag tells whether the group ends in `e`
with its value still to come, as the next argument. -/
def shortGroup (o : Options) : List Char → Except String (Options × Bool)
  | [] => .ok (o, false)
  | 'q' :: cs => do shortGroup (← setQuiet o) cs
  | ['e'] => .ok (o, true)
  | 'e' :: '=' :: cs => do pure (← setExpr o (String.ofList cs), false)
  | 'e' :: cs => do pure (← setExpr o (String.ofList cs), false)
  | c :: _ => .error ("error: unexpected argument '-" ++ String.singleton c ++ "' found")

/-- Adds a program file to the options. -/
def addFile (o : Options) (path : String) : Except String Options :=
  match o.file with
  | none => .ok { o with file := some path }
  | some _ => .error ("error: unexpected argument '" ++ path ++ "' found")

/-- The options of the remaining arguments, read from the left; `pending` tells that `--expr` waits
for its value. A waiting option takes the next argument unless that looks like an option; after
`--` it takes the argument after it, and every later argument is a file. -/
def parseFrom (o : Options) (pending : Bool) : List String → Except String Options
  | [] => if pending then .error missingValue else .ok o
  | a :: rest =>
    if pending then
      if a == "--" then
        match rest with
        | v :: files => do files.foldlM addFile (← setExpr o v)
        | [] => .error missingValue
      else if isValue a then do parseFrom (← setExpr o a) false rest
      else .error missingValue
    else if a == "--" then rest.foldlM addFile o
    else if a == "--quiet" then do parseFrom (← setQuiet o) false rest
    else if a == "--expr" then parseFrom o true rest
    else if a.startsWith "--expr=" then do parseFrom (← setExpr o (a.drop 7).toString) false rest
    else if a.startsWith "--" then .error ("error: unexpected argument '" ++ a ++ "' found")
    else if a.startsWith "-" && a.length > 1 then do
      let (o', waits) ← shortGroup o (a.toList.drop 1)
      parseFrom o' waits rest
    else do parseFrom (← addFile o a) false rest

/-- The options of a command line. -/
def parse (args : List String) : Except String Options := do
  let o ← parseFrom ⟨false, none, none⟩ false args
  if o.expr.isSome && o.file.isSome then
    throw "error: the argument '--expr <SOURCE>' cannot be used with '[FILE]'"
  pure o

end MiniScheme.Cli
