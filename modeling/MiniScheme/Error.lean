import MiniScheme.Text.Visible
/-!
# Errors

Reading and evaluating fail for the causes listed by `ReadError` and `EvalError`; an `Error` is one
of the two. Each cause has one message (`message`, the text a user sees), one kind (`kind`, the name
of the cause) and one debug form (`debug`, the cause with its fields, texts quoted as
`Text.quoteDebug` quotes them).
-/

namespace MiniScheme

/-- Why a datum could not be read. -/
inductive ReadError where
  /-- Only blanks and comments were left. -/
  | eof
  /-- A closing parenthesis with no list open. -/
  | unmatchedParen
  /-- The text ended inside a list, a vector or a special form. -/
  | unterminatedList
  /-- The text ended inside a string. -/
  | unterminatedString
  /-- A dot that stands alone outside a list. -/
  | unexpectedDot
  /-- A `#` followed by something other than `t`, `f`, a backslash or `(`. -/
  | malformedHash (found : String)
  /-- A `lambda`, `let`, `define`, dotted list or quote of the wrong shape. -/
  | malformed (form : String) (reason : String)
deriving DecidableEq

/-- Why a form could not be evaluated. -/
inductive EvalError where
  /-- A symbol bound in no frame and naming no primitive. -/
  | unknownIdentifier (name : String)
  /-- A symbol in call position that names no procedure. -/
  | unknownProcedure (name : String)
  /-- The argument at `index` has the type `provided` where `expected` was needed. -/
  | invalidArgumentType (name : String) (expected : String) (index : Nat) (provided : String)
  /-- A call with `provided` arguments where `required` were needed. -/
  | invalidNumberOfArguments (name : String) (required : String) (provided : Nat)
  /-- A division by a zero integer or float. -/
  | divisionByZero (name : String)
  /-- An integer result outside the 64-bit range, from `first` and `second`. -/
  | numericOverflow (name : String) (first : Int64) (second : Int64)
  /-- A special form or call of the wrong shape. -/
  | malformedForm (name : String)
  /-- A value applied that is not a procedure. -/
  | notProcedure (value : String)
deriving DecidableEq

/-- A failure of reading or of evaluating. -/
inductive Error where
  | read (e : ReadError)
  | eval (e : EvalError)
deriving DecidableEq

namespace ReadError

/-- The message of a read error. -/
def message : ReadError → String
  | eof => "EOF"
  | unmatchedParen => "unexpected )"
  | unterminatedList => "missing closing )"
  | unterminatedString => "missing closing \""
  | unexpectedDot => "unexpected ."
  | malformedHash found => "expecting one of T, F, \\ or ( after #, found " ++ found
  | malformed form reason => "malformed " ++ form ++ ": " ++ reason

/-- The name of the cause. -/
def kind : ReadError → String
  | eof => "Eof"
  | unmatchedParen => "UnmatchedParen"
  | unterminatedList => "UnterminatedList"
  | unterminatedString => "UnterminatedString"
  | unexpectedDot => "UnexpectedDot"
  | malformedHash _ => "MalformedHash"
  | malformed _ _ => "MalformedSyntax"

/-- The cause with its fields. -/
def debug : ReadError → String
  | malformedHash found => "MalformedHash(" ++ Text.quoteDebug found ++ ")"
  | malformed form reason =>
    "MalformedSyntax \x7b form: " ++ Text.quoteDebug form ++ ", reason: " ++
      Text.quoteDebug reason ++ " \x7d"
  | e => e.kind

end ReadError

namespace EvalError

/-- The message of an evaluation error. -/
def message : EvalError → String
  | unknownIdentifier name => "unknown identifier " ++ name
  | unknownProcedure name => "unknown procedure " ++ name
  | invalidArgumentType name expected index provided =>
    name ++ ": expected " ++ expected ++ " for argument " ++ toString index ++ ", got " ++ provided
  | invalidNumberOfArguments name required provided =>
    name ++ ": expected " ++ required ++ " arguments, got " ++ toString provided
  | divisionByZero name => name ++ ": division by zero"
  | numericOverflow name first second =>
    name ++ ": numeric overflow on " ++ toString first.toInt ++ " and " ++ toString second.toInt
  | malformedForm name => "malformed " ++ name ++ " form"
  | notProcedure value => value ++ " is not a procedure"

/-- The name of the cause. -/
def kind : EvalError → String
  | unknownIdentifier _ => "UnknownIdentifier"
  | unknownProcedure _ => "UnknownProcedure"
  | invalidArgumentType .. => "InvalidArgumentType"
  | invalidNumberOfArguments .. => "InvalidNumberOfArguments"
  | divisionByZero _ => "DivisionByZero"
  | numericOverflow .. => "NumericOverflow"
  | malformedForm _ => "MalformedForm"
  | notProcedure _ => "NotProcedure"

/-- The cause with its fields. -/
def debug : EvalError → String
  | unknownIdentifier name => "UnknownIdentifier(" ++ Text.quoteDebug name ++ ")"
  | unknownProcedure name => "UnknownProcedure(" ++ Text.quoteDebug name ++ ")"
  | invalidArgumentType name expected index provided =>
    "InvalidArgumentType \x7b name: " ++ Text.quoteDebug name ++ ", expected: " ++
      Text.quoteDebug expected ++ ", index: " ++ toString index ++ ", provided: " ++
      Text.quoteDebug provided ++ " \x7d"
  | invalidNumberOfArguments name required provided =>
    "InvalidNumberOfArguments \x7b name: " ++ Text.quoteDebug name ++ ", required: " ++
      Text.quoteDebug required ++ ", provided: " ++ toString provided ++ " \x7d"
  | divisionByZero name => "DivisionByZero(" ++ Text.quoteDebug name ++ ")"
  | numericOverflow name first second =>
    "NumericOverflow \x7b name: " ++ Text.quoteDebug name ++ ", first: " ++ toString first.toInt ++
      ", second: " ++ toString second.toInt ++ " \x7d"
  | malformedForm name => "MalformedForm(" ++ Text.quoteDebug name ++ ")"
  | notProcedure value => "NotProcedure(" ++ Text.quoteDebug value ++ ")"

end EvalError

namespace Error

/-- The message of an error. -/
def message : Error → String
  | read e => e.message
  | eval e => e.message

/-- The name of the cause. -/
def kind : Error → String
  | read e => e.kind
  | eval e => e.kind

/-- The error with its cause and fields. -/
def debug : Error → String
  | read e => "Read(" ++ e.debug ++ ")"
  | eval e => "Eval(" ++ e.debug ++ ")"

/-- Whether the error is the end of the text. -/
def isEof : Error → Bool
  | read .eof => true
  | _ => false

end Error

end MiniScheme
