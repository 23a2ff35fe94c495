import MiniScheme.Value.Basic
import MiniScheme.Binary64.Fixed
/-!
# Printed forms of values

`Value.display` is the text of a value as results and `DISPLAY` show it: `#T` and `#F`, integers in
decimal, floats with six places (`floatFormat`), `#\c` for a character, a string between double
quotes with nothing escaped, a symbol as it is kept, `(a b . c)` for lists, `#(a b)` for vectors, the
lambda form for a closure read from text and `#<procedure>` for one evaluated, `#<environment>` for a
frame, and an error's message. The unspecified value shows as nothing.

`Value.debug` is the same text, except that the unspecified value shows as `#<unspecified>` and an
error as `#<error D>`, `D` its debug form.
-/

namespace MiniScheme.Value

/-- Floats have six places after the point, ties going to the even digit. -/
def floatFormat : Binary64.FixedFormat :=
  ⟨6, "NaN", "inf"⟩

mutual
/-- `out` followed by the text of a value. The text is written onto the end of `out`, so that a
long list costs time in proportion to its text. -/
def write (out : String) : Value → String
  | unspecified => out
  | bool true => out ++ "#T"
  | bool false => out ++ "#F"
  | int n => out ++ toString n.toInt
  | float x => out ++ Binary64.fixed floatFormat x
  | char c => out ++ "#\\" ++ String.singleton c
  | str s => out ++ "\"" ++ s ++ "\""
  | sym s => out ++ s
  | nil => out ++ "()"
  | cons _ x d => writeRest (write (out ++ "(") x) d ++ ")"
  | vector xs => writeSeq (out ++ "#(") xs ++ ")"
  | closure _ ps b none => write (out ++ "(LAMBDA (" ++ " ".intercalate ps ++ ") ") b ++ ")"
  | closure _ _ _ (some _) => out ++ "#<procedure>"
  | prim _ => out ++ "#<procedure>"
  | env _ => out ++ "#<environment>"
  | error e => out ++ e.message

/-- `out` followed by the text of a list after its first element: the other elements, each after a
space, then the dotted end if there is one. -/
def writeRest (out : String) : Value → String
  | nil => out
  | cons _ x d => writeRest (write (out ++ " ") x) d
  | v => write (out ++ " . ") v

/-- `out` followed by the texts of values, separated by spaces. -/
def writeSeq (out : String) : List Value → String
  | [] => out
  | [x] => write out x
  | x :: xs => writeSeq (write out x ++ " ") xs
end

/-- The text of a value. -/
def display (v : Value) : String :=
  write "" v

/-- The debug text of a value. -/
def debug : Value → String
  | unspecified => "#<unspecified>"
  | error e => "#<error " ++ e.debug ++ ">"
  | v => display v

end MiniScheme.Value
