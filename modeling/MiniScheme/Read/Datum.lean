import MiniScheme.Read.Blank
import MiniScheme.Read.Atom
import MiniScheme.Value.Print
/-!
# Reading data

The reader turns text into data one datum at a time, each step from the text left by the one before.
A step gives a datum or a `ReadError`, and the text left after it; what a failed step consumed stays
consumed. The text left is never longer than the text the step started from (`Step.rest_le`). Every
call of the reader on itself is on a shorter text, or goes from `datum` to a function of lower rank
on the same text: the measure of the mutual definitions is `2 · length + rank`.

After blanks and comments the first character decides: `(` a list, `)` an error, `#` a boolean, a
character or a vector, a double quote a string, a quote mark or backquote a quoted datum, an operator
character a symbol or an atom, a dot alone an error, anything else an atom (`Read.classify`). While
reading, three list forms are turned into what they abbreviate:

* `(lambda (p …) b)` becomes a closure literal with parameters `p …` and body `b`;
* `(let ((v e) …) b)` becomes `((lambda (v …) b) e …)`;
* `(define (f p …) b)` becomes `(DEFINE f (lambda (p …) b))`.

A form that begins like one of them but has another shape is a `ReadError.malformed`. Inside an
open form, the end of the text is `unterminatedList`; `eof` is reported only by `form`, when nothing
but blanks and comments is left. `all` reads every datum of a text. Data read from text have address
`0` throughout.
-/

namespace MiniScheme.Read

/-- A step of reading from the text `s`: its result and the text left, never longer than `s`. -/
structure Step (s : List Char) (α : Type) where
  result : Except ReadError α
  rest : List Char
  rest_le : rest.length ≤ s.length

namespace Step

/-- A successful step. -/
def ok {s : List Char} {α : Type} (a : α) (rest : List Char) (h : rest.length ≤ s.length) :
    Step s α :=
  ⟨.ok a, rest, h⟩

/-- A failed step. -/
def fail {s : List Char} {α : Type} (e : ReadError) (rest : List Char)
    (h : rest.length ≤ s.length) : Step s α :=
  ⟨.error e, rest, h⟩

/-- The same step, seen from a longer text. -/
def widen {s t : List Char} {α : Type} (h : t.length ≤ s.length) (st : Step t α) : Step s α :=
  ⟨st.result, st.rest, Nat.le_trans st.rest_le h⟩

end Step

/-- The rest of an atom that starts with `tok`: the atom's text and the text after it. -/
def atomText (tok cs : List Char) : List Char × List Char :=
  (tok ++ cs.takeWhile (fun c => !isDelimiter c), cs.dropWhile (fun c => !isDelimiter c))

theorem length_atomText_le (tok cs : List Char) : (atomText tok cs).2.length ≤ cs.length :=
  length_dropWhile_le _ cs

/-- An atom that starts with `tok`. -/
def atom (tok cs : List Char) : Step cs Value :=
  .ok (classify (atomText tok cs).1) (atomText tok cs).2 (length_atomText_le tok cs)

/-- A string after its opening quote: the characters up to the closing one, as they are. -/
def string (cs : List Char) : Step cs Value :=
  match h : cs.dropWhile (· ≠ '\"') with
  | [] => .fail .unterminatedString [] (Nat.zero_le _)
  | _ :: r =>
    .ok (.str (String.ofList (cs.takeWhile (· ≠ '\"')))) r (by
      have := length_dropWhile_le (· ≠ '\"') cs
      rw [h, List.length_cons] at this
      omega)

/-- The end of an operator token `tok`: a symbol when a delimiter follows, else the start of an
atom. -/
def operatorEnd (tok r : List Char) : Step r Value :=
  if atDelimiter r then .ok (.sym (Text.upper (String.ofList tok))) r (Nat.le_refl _)
  else atom tok r

/-- An operator character, with the `=` of `<=` or `>=`. -/
def operator (c : Char) (cs : List Char) : Step cs Value :=
  match c, cs with
  | '<', '=' :: r => (operatorEnd ['<', '='] r).widen (by simp only [List.length_cons]; omega)
  | '>', '=' :: r => (operatorEnd ['>', '='] r).widen (by simp only [List.length_cons]; omega)
  | c, r => operatorEnd [c] r

/-- The `)` that closes a form of kind `form`; another character is consumed and reported with
`reason`. -/
def expectClose (form reason : String) (cs : List Char) : Step cs Unit :=
  match h : skipBlank cs with
  | [] => .fail .unterminatedList [] (Nat.zero_le _)
  | c :: r =>
    if c = ')' then .ok () r (Nat.le_of_lt (length_lt_of_skipBlank_eq_cons h))
    else .fail (.malformed form reason) r (Nat.le_of_lt (length_lt_of_skipBlank_eq_cons h))

/-- Why a `lambda`, `define` or `let` body is refused. -/
def bodyReason : String := "expected exactly one body expression"

/-- Whether a character begins an operator. -/
def isOperatorChar (c : Char) : Bool :=
  c = '+' || c = '-' || c = '*' || c = '/' || c = '=' || c = '<' || c = '>'

mutual

/-- The datum that begins with `c`, already taken from the text; `cs` follows it. -/
def datum (c : Char) (cs : List Char) : Step cs Value :=
  if c = '(' then list cs
  else if c = ')' then .fail .unmatchedParen cs (Nat.le_refl _)
  else if c = '#' then hash cs
  else if c = '\"' then string cs
  else if c = '\'' then quote "QUOTE" cs
  else if c = '\x60' then quote "QUASIQUOTE" cs
  else if isOperatorChar c then operator c cs
  else if c = '.' ∧ atDelimiter cs then .fail .unexpectedDot cs (Nat.le_refl _)
  else atom [c] cs
termination_by 2 * cs.length + 1

/-- A list after its `(`: the empty list, a form that abbreviates another, or the elements. -/
def list (cs : List Char) : Step cs Value :=
  match h : skipBlank cs with
  | [] => .fail .unterminatedList [] (Nat.zero_le _)
  | c :: r =>
    have hr := length_lt_of_skipBlank_eq_cons h
    if c = ')' then .ok .nil r (Nat.le_of_lt hr)
    else
      match datum c r with
      | ⟨.error e, r₁, h₁⟩ => .fail e r₁ (by omega)
      | ⟨.ok head, r₁, h₁⟩ =>
        if head.symbol? = some "LAMBDA" then (lambda r₁).widen (by omega)
        else if head.symbol? = some "LET" then (letForm r₁).widen (by omega)
        else if head.symbol? = some "DEFINE" then
          match h₂ : skipBlank r₁ with
          | '(' :: r₂ =>
            have := length_lt_of_skipBlank_eq_cons h₂
            (defineProc r₂).widen (by omega)
          | _ => (listTail [head] r₁).widen (by omega)
        else (listTail [head] r₁).widen (by omega)
termination_by 2 * cs.length

/-- The elements of a list after `items` (those read so far, the last first), up to its `)`, with a
dotted end if there is one. -/
def listTail (items : List Value) (cs : List Char) : Step cs Value :=
  match h : skipBlank cs with
  | [] => .fail .unterminatedList [] (Nat.zero_le _)
  | c :: r =>
    have hr := length_lt_of_skipBlank_eq_cons h
    if c = ')' then .ok (Value.ofList 0 items.reverse) r (Nat.le_of_lt hr)
    else if c = '.' then
      if atDelimiter r then
        match h₂ : skipBlank r with
        | [] => .fail .unterminatedList [] (Nat.zero_le _)
        | c₂ :: r₂ =>
          have := length_lt_of_skipBlank_eq_cons h₂
          match datum c₂ r₂ with
          | ⟨.error e, r₃, h₃⟩ => .fail e r₃ (by omega)
          | ⟨.ok last, r₃, h₃⟩ =>
            match expectClose "dotted list" "expected ) after the tail" r₃ with
            | ⟨.error e, r₄, h₄⟩ => .fail e r₄ (by omega)
            | ⟨.ok (), r₄, h₄⟩ => .ok (Value.dotted 0 last items.reverse) r₄ (by omega)
      else
        have := length_atomText_le ['.'] r
        listTail (classify (atomText ['.'] r).1 :: items) (atomText ['.'] r).2 |>.widen (by omega)
    else
      match datum c r with
      | ⟨.error e, r₁, h₁⟩ => .fail e r₁ (by omega)
      | ⟨.ok v, r₁, h₁⟩ => (listTail (v :: items) r₁).widen (by omega)
termination_by 2 * cs.length

/-- What follows `#`: a boolean, a character, a vector, or an error. -/
def hash (cs : List Char) : Step cs Value :=
  match cs with
  | [] => .fail (.malformedHash "end of input") [] (Nat.le_refl _)
  | [c] =>
    if c = 't' ∨ c = 'T' then .ok (.bool true) [] (by simp only [List.length_cons]; omega)
    else if c = 'f' ∨ c = 'F' then .ok (.bool false) [] (by simp only [List.length_cons]; omega)
    else if c = '\\' then .fail (.malformedHash "end of input") [] (by simp only [List.length_cons]; omega)
    else if c = '(' then (vector [] []).widen (by simp only [List.length_cons]; omega)
    else .fail (.malformedHash (String.singleton c)) [] (by simp only [List.length_cons]; omega)
  | c :: d :: r =>
    if c = 't' ∨ c = 'T' then .ok (.bool true) (d :: r) (by simp only [List.length_cons]; omega)
    else if c = 'f' ∨ c = 'F' then .ok (.bool false) (d :: r) (by simp only [List.length_cons]; omega)
    else if c = '\\' then .ok (.char d) r (by simp only [List.length_cons]; omega)
    else if c = '(' then (vector [] (d :: r)).widen (by simp only [List.length_cons]; omega)
    else .fail (.malformedHash (String.singleton c)) (d :: r) (by simp only [List.length_cons]; omega)
termination_by 2 * cs.length

/-- The elements of a vector after `items` (those read so far, the last first), up to its `)`. -/
def vector (items : List Value) (cs : List Char) : Step cs Value :=
  match h : skipBlank cs with
  | [] => .fail .unterminatedList [] (Nat.zero_le _)
  | c :: r =>
    have hr := length_lt_of_skipBlank_eq_cons h
    if c = ')' then .ok (.vector items.reverse) r (Nat.le_of_lt hr)
    else
      match datum c r with
      | ⟨.error e, r₁, h₁⟩ => .fail e r₁ (by omega)
      | ⟨.ok v, r₁, h₁⟩ => (vector (v :: items) r₁).widen (by omega)
termination_by 2 * cs.length

/-- The datum after a quote mark, as `(keyword datum)`. -/
def quote (keyword : String) (cs : List Char) : Step cs Value :=
  match h : skipBlank cs with
  | [] => .fail (.malformed "quote" "expected an expression") [] (Nat.zero_le _)
  | c :: r =>
    have hr := length_lt_of_skipBlank_eq_cons h
    match datum c r with
    | ⟨.error e, r₁, h₁⟩ => .fail e r₁ (by omega)
    | ⟨.ok v, r₁, h₁⟩ => .ok (Value.ofList 0 [.sym keyword, v]) r₁ (by omega)
termination_by 2 * cs.length

/-- A `lambda` form after its head: parameter list and body. -/
def lambda (cs : List Char) : Step cs Value :=
  match h : skipBlank cs with
  | [] => .fail .unterminatedList [] (Nat.zero_le _)
  | c :: r =>
    have hr := length_lt_of_skipBlank_eq_cons h
    if c = '(' then
      match params "lambda" [] r with
      | ⟨.error e, r₁, h₁⟩ => .fail e r₁ (by omega)
      | ⟨.ok ps, r₁, h₁⟩ =>
        match body "lambda" r₁ with
        | ⟨.error e, r₂, h₂⟩ => .fail e r₂ (by omega)
        | ⟨.ok b, r₂, h₂⟩ => .ok (.closure 0 ps b none) r₂ (by omega)
    else .fail (.malformed "lambda" "expected a parameter list") r (Nat.le_of_lt hr)
termination_by 2 * cs.length

/-- Parameters after `acc` (those read so far, the last first), each a symbol, up to the `)` of the
parameter list. -/
def params (form : String) (acc : List String) (cs : List Char) : Step cs (List String) :=
  match h : skipBlank cs with
  | [] => .fail .unterminatedList [] (Nat.zero_le _)
  | c :: r =>
    have hr := length_lt_of_skipBlank_eq_cons h
    if c = ')' then .ok acc.reverse r (Nat.le_of_lt hr)
    else
      match datum c r with
      | ⟨.error e, r₁, h₁⟩ => .fail e r₁ (by omega)
      | ⟨.ok v, r₁, h₁⟩ =>
        match v with
        | .sym s => (params form (s :: acc) r₁).widen (by omega)
        | v => .fail (.malformed form ("parameter " ++ v.display ++ " is not a symbol")) r₁ (by omega)
termination_by 2 * cs.length

/-- The one body of a form and the `)` that closes the form. -/
def body (form : String) (cs : List Char) : Step cs Value :=
  match h : skipBlank cs with
  | [] => .fail .unterminatedList [] (Nat.zero_le _)
  | c :: r =>
    have hr := length_lt_of_skipBlank_eq_cons h
    if c = ')' then .fail (.malformed form bodyReason) (c :: r) (by rw [← h]; exact length_skipBlank_le cs)
    else
      match datum c r with
      | ⟨.error e, r₁, h₁⟩ => .fail e r₁ (by omega)
      | ⟨.ok b, r₁, h₁⟩ =>
        match expectClose form bodyReason r₁ with
        | ⟨.error e, r₂, h₂⟩ => .fail e r₂ (by omega)
        | ⟨.ok (), r₂, h₂⟩ => .ok b r₂ (by omega)
termination_by 2 * cs.length

/-- A `define` form after `(define (`: the procedure's name, parameters and body. -/
def defineProc (cs : List Char) : Step cs Value :=
  match h : skipBlank cs with
  | [] => .fail .unterminatedList [] (Nat.zero_le _)
  | c :: r =>
    have hr := length_lt_of_skipBlank_eq_cons h
    if c = ')' then
      .fail (.malformed "define" "missing procedure name") (c :: r) (by rw [← h]; exact length_skipBlank_le cs)
    else
      match datum c r with
      | ⟨.error e, r₁, h₁⟩ => .fail e r₁ (by omega)
      | ⟨.ok (.sym name), r₁, h₁⟩ =>
        match params "define" [] r₁ with
        | ⟨.error e, r₂, h₂⟩ => .fail e r₂ (by omega)
        | ⟨.ok ps, r₂, h₂⟩ =>
          match body "define" r₂ with
          | ⟨.error e, r₃, h₃⟩ => .fail e r₃ (by omega)
          | ⟨.ok b, r₃, h₃⟩ =>
            .ok (Value.ofList 0 [.sym "DEFINE", .sym name, .closure 0 ps b none]) r₃ (by omega)
      | ⟨.ok v, r₁, h₁⟩ =>
        .fail (.malformed "define" ("procedure name " ++ v.display ++ " is not a symbol")) r₁ (by omega)
termination_by 2 * cs.length

/-- A `let` form after its head: the bindings and the body. -/
def letForm (cs : List Char) : Step cs Value :=
  match h : skipBlank cs with
  | [] => .fail .unterminatedList [] (Nat.zero_le _)
  | c :: r =>
    have hr := length_lt_of_skipBlank_eq_cons h
    if c = '(' then
      match bindings [] [] r with
      | ⟨.error e, r₁, h₁⟩ => .fail e r₁ (by omega)
      | ⟨.ok (names, inits), r₁, h₁⟩ =>
        match body "let" r₁ with
        | ⟨.error e, r₂, h₂⟩ => .fail e r₂ (by omega)
        | ⟨.ok b, r₂, h₂⟩ => .ok (.cons 0 (.closure 0 names b none) (Value.ofList 0 inits)) r₂ (by omega)
    else .fail (.malformed "let" "expected a binding list") r (Nat.le_of_lt hr)
termination_by 2 * cs.length

/-- Bindings `(name expression)` after `names` and `inits` (those read so far, the last first), up to
the `)` of the binding list. -/
def bindings (names : List String) (inits : List Value) (cs : List Char) :
    Step cs (List String × List Value) :=
  match h : skipBlank cs with
  | [] => .fail .unterminatedList [] (Nat.zero_le _)
  | c :: r =>
    have hr := length_lt_of_skipBlank_eq_cons h
    if c = ')' then .ok (names.reverse, inits.reverse) r (Nat.le_of_lt hr)
    else
      match datum c r with
      | ⟨.error e, r₁, h₁⟩ => .fail e r₁ (by omega)
      | ⟨.ok b, r₁, h₁⟩ =>
        match b.listItems? with
        | some [.sym n, e] => (bindings (n :: names) (e :: inits) r₁).widen (by omega)
        | _ =>
          .fail (.malformed "let" ("binding " ++ b.display ++ " is not (name expression)")) r₁ (by omega)
termination_by 2 * cs.length

end

/-- One datum of the text, or `eof` when only blanks and comments are left. -/
def form (cs : List Char) : Step cs Value :=
  match h : skipBlank cs with
  | [] => .fail .eof [] (Nat.zero_le _)
  | c :: r => (datum c r).widen (Nat.le_of_lt (length_lt_of_skipBlank_eq_cons h))

/-- Every datum of the text, in order, and the error that stopped reading if one did; the end of
the text is no error. -/
def all (cs : List Char) : List Value × Option ReadError :=
  match h : skipBlank cs with
  | [] => ([], none)
  | c :: r =>
    have := length_lt_of_skipBlank_eq_cons h
    match datum c r with
    | ⟨.error e, _, _⟩ => ([], some e)
    | ⟨.ok v, r₁, _⟩ =>
      let more := all r₁
      (v :: more.1, more.2)
termination_by cs.length

end MiniScheme.Read
