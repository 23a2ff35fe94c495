/-!
# Blanks, comments and delimiters

Between data the reader skips blanks (space, tab, carriage return, line feed) and comments, which
run from `;` through the next line feed or to the end of the text. An atom ends at a delimiter: a
blank, a parenthesis or `;`; the end of the text counts as one too.

Main statements: `length_skipBlank_le` (skipping never lengthens the text) and
`length_lt_of_skipBlank_eq_cons` (what follows the first character left is shorter than the text).
-/

namespace MiniScheme.Read

/-- Space, tab, carriage return and line feed. -/
def isBlank (c : Char) : Bool :=
  c = ' ' || c = '\t' || c = '\r' || c = '\n'

/-- The characters that end an atom: blanks, parentheses and the comment mark. -/
def isDelimiter (c : Char) : Bool :=
  isBlank c || c = '(' || c = ')' || c = ';'

/-- Whether the text starts at a delimiter or is empty. -/
def atDelimiter : List Char → Bool
  | [] => true
  | c :: _ => isDelimiter c

mutual
/-- The text after its leading blanks and comments. -/
def skipBlank : List Char → List Char
  | [] => []
  | c :: cs => if isBlank c then skipBlank cs else if c = ';' then skipComment cs else c :: cs

/-- The text after the rest of a comment and the blanks and comments that follow it. -/
def skipComment : List Char → List Char
  | [] => []
  | c :: cs => if c = '\n' then skipBlank cs else skipComment cs
end

mutual
theorem length_skipBlank_le : ∀ cs : List Char, (skipBlank cs).length ≤ cs.length
  | [] => by simp [skipBlank]
  | c :: cs => by
    have h₁ := length_skipBlank_le cs
    have h₂ := length_skipComment_le cs
    unfold skipBlank
    split
    · simp only [List.length_cons]; omega
    · split
      · simp only [List.length_cons]; omega
      · simp

theorem length_skipComment_le : ∀ cs : List Char, (skipComment cs).length ≤ cs.length
  | [] => by simp [skipComment]
  | c :: cs => by
    have h₁ := length_skipBlank_le cs
    have h₂ := length_skipComment_le cs
    unfold skipComment
    split
    · simp only [List.length_cons]; omega
    · simp only [List.length_cons]; omega
end

theorem length_lt_of_skipBlank_eq_cons {cs r : List Char} {c : Char} (h : skipBlank cs = c :: r) :
    r.length < cs.length := by
  have := length_skipBlank_le cs
  rw [h, List.length_cons] at this
  omega

theorem length_dropWhile_le (p : Char → Bool) :
    ∀ cs : List Char, (cs.dropWhile p).length ≤ cs.length
  | [] => by simp
  | c :: cs => by
    have := length_dropWhile_le p cs
    rw [List.dropWhile_cons]
    split
    · simp only [List.length_cons]; omega
    · simp

end MiniScheme.Read
