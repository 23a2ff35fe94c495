import MiniScheme.Read.Datum
/-!
# Upper-cased tokens

Reading treats an ASCII letter and its upper case alike wherever it looks at letters: symbols are
upper-cased whole (`Text.upper`), radix prefixes are `0x` or `0X`, `0b` or `0B`, `0o` or `0O`,
hexadecimal digits come in both cases, and an exponent is `e` or `E`. Every other character the reader
tests for (blanks, parentheses, `;`, `#`, quote marks, operator characters, digits, `.`, `_`) is no
letter, and upper-casing (`Char.toUpper`, which moves `a` to `z` down by 32 code points and keeps
every other character) neither makes nor unmakes it.

Main statement: `classify_map_toUpper`, an atom upper-cased is the same datum.
-/

namespace MiniScheme.Read

/-! ### One character -/

/-- Upper-casing moves `a` to `z` down by 32 code points and keeps every other character. -/
theorem toNat_toUpper (c : Char) :
    c.toUpper.toNat = if 97 ≤ c.toNat ∧ c.toNat ≤ 122 then c.toNat - 32 else c.toNat := by
  unfold Char.toUpper
  split
  · next h =>
    have h₁ : 97 ≤ c.toNat ∧ c.toNat ≤ 122 := by
      simp only [Char.toNat, UInt32.le_iff_toNat_le] at h ⊢
      exact h
    rw [if_pos h₁]
    have hoff : ('A'.val - 'a'.val).toNat = 2 ^ 32 - 32 := by decide
    simp only [Char.toNat, UInt32.toNat_add, hoff]
    simp only [Char.toNat] at h₁
    omega
  · next h =>
    have h₁ : ¬ (97 ≤ c.toNat ∧ c.toNat ≤ 122) := by
      simp only [Char.toNat, UInt32.le_iff_toNat_le] at h ⊢
      exact h
    rw [if_neg h₁]

/-- A lower-case letter is a code point from `a` (97) to `z` (122). -/
theorem isLower_iff (c : Char) : c.isLower = true ↔ 97 ≤ c.toNat ∧ c.toNat ≤ 122 := by
  change (decide (c.val ≥ 'a'.val) && decide (c.val ≤ 'z'.val)) = true ↔ _
  have : c.toNat = c.val.toNat := rfl
  have : 'a'.val.toNat = 97 := rfl
  have : 'z'.val.toNat = 122 := rfl
  simp only [Bool.and_eq_true, decide_eq_true_eq, ge_iff_le, UInt32.le_iff_toNat_le]
  omega

/-- An upper-case letter is a code point from `A` (65) to `Z` (90). -/
theorem isUpper_iff (c : Char) : c.isUpper = true ↔ 65 ≤ c.toNat ∧ c.toNat ≤ 90 := by
  change decide (c.val ≥ 'A'.val ∧ c.val ≤ 'Z'.val) = true ↔ _
  have : c.toNat = c.val.toNat := rfl
  have : 'A'.val.toNat = 65 := rfl
  have : 'Z'.val.toNat = 90 := rfl
  simp only [decide_eq_true_eq, ge_iff_le, UInt32.le_iff_toNat_le]
  omega

theorem isAlpha_eq_false {x : Char} (hx : x.isAlpha = false) :
    ¬ (65 ≤ x.toNat ∧ x.toNat ≤ 90) ∧ ¬ (97 ≤ x.toNat ∧ x.toNat ≤ 122) := by
  change (x.isUpper || x.isLower) = false at hx
  rw [Bool.or_eq_false_iff] at hx
  rw [← isUpper_iff, ← isLower_iff, hx.1, hx.2]
  decide

theorem toUpper_eq_iff {c x : Char} (hx : x.isAlpha = false) : c.toUpper = x ↔ c = x := by
  have := isAlpha_eq_false hx
  rw [← Char.toNat_inj, ← Char.toNat_inj, toNat_toUpper]
  split <;> omega

theorem toUpper_eq_or_iff {c l u : Char} (hl : l.isLower = true) (hu : u = l.toUpper) :
    (c.toUpper = l ∨ c.toUpper = u) ↔ (c = l ∨ c = u) := by
  subst hu
  have hl' : 97 ≤ l.toNat ∧ l.toNat ≤ 122 := (isLower_iff l).1 hl
  simp only [← Char.toNat_inj, toNat_toUpper, if_pos hl']
  split <;> omega

theorem toUpper_toUpper (c : Char) : c.toUpper.toUpper = c.toUpper := by
  rw [← Char.toNat_inj, toNat_toUpper c.toUpper, toNat_toUpper c]
  by_cases h : 97 ≤ c.toNat ∧ c.toNat ≤ 122
  · rw [if_pos h, if_neg (by omega)]
  · rw [if_neg h, if_neg h]

/-- A character that is not a lower-case letter is its own upper case. -/
theorem toUpper_of_not_lower {c : Char} (h : ¬ (97 ≤ c.toNat ∧ c.toNat ≤ 122)) : c.toUpper = c :=
  Char.toNat_inj.mp (by rw [toNat_toUpper, if_neg h])

theorem isBlank_toUpper (c : Char) : isBlank c.toUpper = isBlank c := by
  simp only [isBlank, toUpper_eq_iff (x := ' ') (by decide), toUpper_eq_iff (x := '\t') (by decide),
    toUpper_eq_iff (x := '\r') (by decide), toUpper_eq_iff (x := '\n') (by decide)]

theorem isDigit_eq_decide (c : Char) : c.isDigit = decide (48 ≤ c.toNat ∧ c.toNat ≤ 57) := by
  simp [Char.isDigit, UInt32.le_iff_toNat_le, Char.toNat_val]

theorem isDigit_toUpper (c : Char) : c.toUpper.isDigit = c.isDigit := by
  rw [isDigit_eq_decide, isDigit_eq_decide, toNat_toUpper, decide_eq_decide]
  split <;> omega

theorem isDelimiter_toUpper (c : Char) : isDelimiter c.toUpper = isDelimiter c := by
  simp only [isDelimiter, isBlank_toUpper, toUpper_eq_iff (x := '(') (by decide),
    toUpper_eq_iff (x := ')') (by decide), toUpper_eq_iff (x := ';') (by decide)]

theorem isOperatorChar_toUpper (c : Char) : isOperatorChar c.toUpper = isOperatorChar c := by
  simp only [isOperatorChar, toUpper_eq_iff (x := '+') (by decide),
    toUpper_eq_iff (x := '-') (by decide), toUpper_eq_iff (x := '*') (by decide),
    toUpper_eq_iff (x := '/') (by decide), toUpper_eq_iff (x := '=') (by decide),
    toUpper_eq_iff (x := '<') (by decide), toUpper_eq_iff (x := '>') (by decide)]

/-- A digit is its own upper case. -/
theorem toUpper_of_isDigit {c : Char} (h : c.isDigit = true) : c.toUpper = c := by
  rw [isDigit_eq_decide, decide_eq_true_eq] at h
  exact toUpper_of_not_lower (by omega)

/-- The value of a character as a digit: `a` to `f` count as `A` to `F`. A lower-case letter is no
decimal digit, and its upper case is no lower-case letter. -/
theorem digitIn_toUpper (radix : Nat) (c : Char) : digitIn radix c.toUpper = digitIn radix c := by
  by_cases hl : 97 ≤ c.toNat ∧ c.toNat ≤ 122
  · have hu : c.toUpper.toNat = c.toNat - 32 := by rw [toNat_toUpper, if_pos hl]
    have hle : ∀ a b : Char, a ≤ b ↔ a.toNat ≤ b.toNat := fun a b => by
      rw [Char.le_def, UInt32.le_iff_toNat_le]
      rfl
    have h0 : ('0' : Char).toNat = 48 := rfl
    have h9 : ('9' : Char).toNat = 57 := rfl
    have ha : ('a' : Char).toNat = 97 := rfl
    have hf : ('f' : Char).toNat = 102 := rfl
    have hA : ('A' : Char).toNat = 65 := rfl
    have hF : ('F' : Char).toNat = 70 := rfl
    simp only [digitIn, hle, hu, h0, h9, ha, hf, hA, hF]
    rw [if_neg (by omega : ¬ (48 ≤ c.toNat - 32 ∧ c.toNat - 32 ≤ 57)),
      if_neg (by omega : ¬ (97 ≤ c.toNat - 32 ∧ c.toNat - 32 ≤ 102)),
      if_neg (by omega : ¬ (48 ≤ c.toNat ∧ c.toNat ≤ 57))]
    by_cases hd : c.toNat ≤ 102
    · rw [if_pos (by omega : 65 ≤ c.toNat - 32 ∧ c.toNat - 32 ≤ 70),
        if_pos (by omega : 97 ≤ c.toNat ∧ c.toNat ≤ 102), show c.toNat - 32 - 55 = c.toNat - 87 by omega]
    · rw [if_neg (by omega : ¬ (65 ≤ c.toNat - 32 ∧ c.toNat - 32 ≤ 70)),
        if_neg (by omega : ¬ (97 ≤ c.toNat ∧ c.toNat ≤ 102)),
        if_neg (by omega : ¬ (65 ≤ c.toNat ∧ c.toNat ≤ 70))]
  · rw [toUpper_of_not_lower hl]

/-- The upper case of a character and the character have the same full upper case. -/
theorem upperChar_toUpper (c : Char) : Text.upperChar c.toUpper = Text.upperChar c := by
  by_cases h : c.toNat < 128
  · have h' : c.toUpper.toNat < 128 := by
      rw [toNat_toUpper]
      split <;> omega
    rw [Text.upperChar_of_lt h, Text.upperChar_of_lt h', toUpper_toUpper]
  · rw [toUpper_of_not_lower (by omega)]

/-- The digits between `1` and `9` are their own upper cases, and no other character has one of them
as its upper case. -/
theorem nonzeroDigit_toUpper (c : Char) :
    ('1' ≤ c.toUpper ∧ c.toUpper ≤ '9') ↔ ('1' ≤ c ∧ c ≤ '9') := by
  have hle : ∀ a b : Char, a ≤ b ↔ a.toNat ≤ b.toNat := fun a b => by
    rw [Char.le_def, UInt32.le_iff_toNat_le]
    rfl
  have h1 : ('1' : Char).toNat = 49 := rfl
  have h9 : ('9' : Char).toNat = 57 := rfl
  rw [hle, hle, hle, hle, h1, h9, toNat_toUpper]
  split <;> omega

/-- A list of digits is its own upper case. -/
theorem map_toUpper_of_digits {l : List Char} (h : ∀ c ∈ l, c.isDigit = true) :
    l.map Char.toUpper = l :=
  (List.map_congr_left fun c hc => toUpper_of_isDigit (h c hc)).trans (List.map_id l)

/-! ### Blanks and atoms -/

theorem skipBlank_map_toUpper (cs : List Char) :
    skipBlank (cs.map Char.toUpper) = (skipBlank cs).map Char.toUpper ∧
      skipComment (cs.map Char.toUpper) = (skipComment cs).map Char.toUpper := by
  induction cs with
  | nil => exact ⟨by simp [skipBlank], by simp [skipComment]⟩
  | cons d cs ih =>
    have hsemi : d.toUpper = ';' ↔ d = ';' := toUpper_eq_iff (by decide)
    have hnl : d.toUpper = '\n' ↔ d = '\n' := toUpper_eq_iff (by decide)
    constructor
    · simp only [List.map_cons, skipBlank, isBlank_toUpper, hsemi, ih.1, ih.2,
        apply_ite (List.map Char.toUpper)]
    · simp only [List.map_cons, skipComment, hnl, ih.1, ih.2, apply_ite (List.map Char.toUpper)]

theorem atDelimiter_map_toUpper (cs : List Char) :
    atDelimiter (cs.map Char.toUpper) = atDelimiter cs := by
  cases cs with
  | nil => rfl
  | cons c cs => exact isDelimiter_toUpper c

theorem atomText_map_toUpper (tok cs : List Char) :
    atomText (tok.map Char.toUpper) (cs.map Char.toUpper) =
      ((atomText tok cs).1.map Char.toUpper, (atomText tok cs).2.map Char.toUpper) := by
  have hp : ((fun c => !isDelimiter c) ∘ Char.toUpper) = fun c => !isDelimiter c :=
    funext fun c => by simp [isDelimiter_toUpper]
  simp only [atomText, List.takeWhile_map, List.dropWhile_map, hp, List.map_append]

/-! ### Numerals -/

theorem groups_map_toUpper (radix : Nat) (cs : List Char) :
    digitGroups radix (cs.map Char.toUpper) = digitGroups radix cs ∧
      groupsTail radix (cs.map Char.toUpper) = groupsTail radix cs := by
  induction cs with
  | nil => exact ⟨rfl, rfl⟩
  | cons c cs ih =>
    constructor
    · simp only [List.map_cons, digitGroups, digitIn_toUpper, ih.2]
    · by_cases hc : c = '_'
      · subst hc
        show groupsTail radix ('_' :: cs.map Char.toUpper) = _
        simp only [groupsTail, ih.1]
      · have hc' : c.toUpper ≠ '_' := fun h => hc ((toUpper_eq_iff (by decide)).mp h)
        rw [List.map_cons, groupsTail.eq_3 _ _ _ hc', groupsTail.eq_3 _ _ _ hc, digitIn_toUpper, ih.2]

/-- Reading the digits after a radix prefix ignores letter case: an underscore starts the
upper-cased text only where it starts the text. -/
theorem afterPrefix_map_toUpper (radix : Nat) (cs : List Char) :
    afterPrefix radix (cs.map Char.toUpper) = afterPrefix radix cs := by
  by_cases h : ∃ r, cs = '_' :: r
  · obtain ⟨r, rfl⟩ := h
    show afterPrefix radix ('_' :: r.map Char.toUpper) = _
    simp only [afterPrefix, (groups_map_toUpper radix r).1]
  · have h' : ∀ r, cs.map Char.toUpper = '_' :: r → False := by
      intro r he
      cases cs with
      | nil => cases he
      | cons c cs =>
        obtain ⟨hc, -⟩ := List.cons.inj he
        exact h ⟨cs, by rw [(toUpper_eq_iff (by decide)).mp hc]⟩
    rw [afterPrefix.eq_2 _ _ h', afterPrefix.eq_2 _ _ (fun r he => h ⟨r, he⟩),
      (groups_map_toUpper radix cs).1]

/-- The radix prefixes are tested in both cases. -/
theorem unsignedInteger_map_toUpper (cs : List Char) :
    unsignedInteger (cs.map Char.toUpper) = unsignedInteger cs := by
  rcases cs with _ | ⟨c, _ | ⟨x, r⟩⟩
  · rfl
  · by_cases h0 : c = '0'
    · subst h0
      rfl
    · have h0' : c.toUpper ≠ '0' := fun h => h0 ((toUpper_eq_iff (by decide)).mp h)
      rw [List.map_cons, List.map_nil,
        unsignedInteger.eq_3 _ _ (fun h _ => h0' h) (fun _ _ _ h => List.cons_ne_nil _ _ h.symm),
        unsignedInteger.eq_3 _ _ (fun h _ => h0 h) (fun _ _ _ h => List.cons_ne_nil _ _ h.symm),
        ← List.map_singleton, (groups_map_toUpper 10 [c]).2]
      simp only [nonzeroDigit_toUpper]
  · by_cases h0 : c = '0'
    · subst h0
      show unsignedInteger ('0' :: x.toUpper :: r.map Char.toUpper) = _
      rw [unsignedInteger.eq_2, unsignedInteger.eq_2, afterPrefix_map_toUpper,
        afterPrefix_map_toUpper, afterPrefix_map_toUpper, ← List.map_cons, afterPrefix_map_toUpper]
      simp only [toUpper_eq_or_iff (l := 'x') (u := 'X') (by decide) (by decide),
        toUpper_eq_or_iff (l := 'b') (u := 'B') (by decide) (by decide),
        toUpper_eq_or_iff (l := 'o') (u := 'O') (by decide) (by decide)]
    · have h0' : c.toUpper ≠ '0' := fun h => h0 ((toUpper_eq_iff (by decide)).mp h)
      rw [List.map_cons,
        unsignedInteger.eq_3 _ _ (fun h _ => h0' h) (fun _ _ h _ => h0' h),
        unsignedInteger.eq_3 _ _ (fun h _ => h0 h) (fun _ _ h _ => h0 h),
        ← List.map_cons, (groups_map_toUpper 10 _).2]
      simp only [nonzeroDigit_toUpper]

theorem splitSign_map_toUpper (cs : List Char) :
    splitSign (cs.map Char.toUpper) = ((splitSign cs).1, (splitSign cs).2.map Char.toUpper) := by
  rcases cs with _ | ⟨c, r⟩
  · rfl
  · by_cases hp : c = '+'
    · subst hp
      rfl
    · by_cases hm : c = '-'
      · subst hm
        rfl
      · have hp' : c.toUpper ≠ '+' := fun h => hp ((toUpper_eq_iff (by decide)).mp h)
        have hm' : c.toUpper ≠ '-' := fun h => hm ((toUpper_eq_iff (by decide)).mp h)
        rw [List.map_cons, splitSign.eq_3 _ (fun _ h => hp' (List.cons.inj h).1)
            (fun _ h => hm' (List.cons.inj h).1),
          splitSign.eq_3 _ (fun _ h => hp (List.cons.inj h).1) (fun _ h => hm (List.cons.inj h).1)]
        rfl

theorem integerLiteral_map_toUpper (cs : List Char) :
    integerLiteral (cs.map Char.toUpper) = integerLiteral cs := by
  rcases h : splitSign cs with ⟨neg, body⟩
  simp only [integerLiteral, splitSign_map_toUpper, h, unsignedInteger_map_toUpper]

theorem exponentDigits_map_toUpper (cs : List Char) :
    exponentDigits (cs.map Char.toUpper) = exponentDigits cs := by
  rcases h : splitSign cs with ⟨neg, body⟩
  simp only [exponentDigits, splitSign_map_toUpper, h]
  by_cases hd : body.all Char.isDigit = true
  · rw [map_toUpper_of_digits (List.all_eq_true.mp hd)]
  · have hall : (body.map Char.toUpper).all Char.isDigit = false := by
      simpa [List.all_map, Function.comp_def, isDigit_toUpper] using hd
    simp only [hall, Bool.false_eq_true, and_false, if_false]
    simp only [Bool.not_eq_true] at hd
    simp only [hd, Bool.false_eq_true, and_false, if_false]

theorem takeWhile_isDigit_map_toUpper (l : List Char) :
    (l.map Char.toUpper).takeWhile Char.isDigit = l.takeWhile Char.isDigit := by
  rw [List.takeWhile_map, show (Char.isDigit ∘ Char.toUpper) = Char.isDigit from funext isDigit_toUpper]
  exact map_toUpper_of_digits fun c hc => List.all_eq_true.mp List.all_takeWhile c hc

theorem dropWhile_isDigit_map_toUpper (l : List Char) :
    (l.map Char.toUpper).dropWhile Char.isDigit = (l.dropWhile Char.isDigit).map Char.toUpper := by
  rw [List.dropWhile_map, show (Char.isDigit ∘ Char.toUpper) = Char.isDigit from funext isDigit_toUpper]

/-! ### Decimal numerals

`decimalLiteral` reads its parts one after the other; `decimalParts` and the two functions it uses
name them, so that each part can be followed on its own. -/

/-- The digits after the point of a decimal numeral, the text after them, and whether the numeral
has a digit at all; `whole` are the digits before the point. -/
def fractionPart (whole afterWhole : List Char) : List Char × List Char × Bool :=
  match afterWhole with
  | '.' :: r => (r.takeWhile Char.isDigit, r.dropWhile Char.isDigit,
      !whole.isEmpty || !(r.takeWhile Char.isDigit).isEmpty)
  | r => ([], r, !whole.isEmpty)

/-- The exponent of a decimal numeral: none when the text after the digits is no exponent. -/
def exponentPart (afterFrac : List Char) : Option Int :=
  match afterFrac with
  | [] => some 0
  | e :: r => if e = 'e' ∨ e = 'E' then exponentDigits r else none

/-- A decimal numeral from its sign, its digits before the point, and its fraction part. -/
def decimalParts (neg : Bool) (whole : List Char) (f : List Char × List Char × Bool) :
    Option (Bool × Nat × Int) :=
  match f.2.2, exponentPart f.2.1 with
  | true, some exp => some (neg, digitsValue 10 ((whole ++ f.1).map (·.toNat - 48)), exp - f.1.length)
  | _, _ => none

theorem decimalLiteral_eq (cs : List Char) :
    decimalLiteral cs = decimalParts (splitSign cs).1 ((splitSign cs).2.takeWhile Char.isDigit)
      (fractionPart ((splitSign cs).2.takeWhile Char.isDigit) ((splitSign cs).2.dropWhile Char.isDigit)) :=
  rfl

theorem fractionPart_of_ne (whole : List Char) {d : Char} (hd : d ≠ '.') (r : List Char) :
    fractionPart whole (d :: r) = ([], d :: r, !whole.isEmpty) := by
  unfold fractionPart
  split
  · next r' h => exact absurd (List.cons.inj h).1 hd
  · rfl

theorem fractionPart_map_toUpper (whole l : List Char) :
    fractionPart whole (l.map Char.toUpper) =
      ((fractionPart whole l).1, (fractionPart whole l).2.1.map Char.toUpper, (fractionPart whole l).2.2) := by
  rcases l with _ | ⟨d, r⟩
  · rfl
  · by_cases hd : d = '.'
    · subst hd
      show fractionPart whole ('.' :: r.map Char.toUpper) = _
      simp only [fractionPart, takeWhile_isDigit_map_toUpper, dropWhile_isDigit_map_toUpper]
    · have hd' : d.toUpper ≠ '.' := fun h => hd ((toUpper_eq_iff (by decide)).mp h)
      rw [List.map_cons, fractionPart_of_ne whole hd', fractionPart_of_ne whole hd]
      rfl

theorem exponentPart_map_toUpper (l : List Char) :
    exponentPart (l.map Char.toUpper) = exponentPart l := by
  rcases l with _ | ⟨e, r⟩
  · rfl
  · simp only [List.map_cons, exponentPart,
      toUpper_eq_or_iff (l := 'e') (u := 'E') (by decide) (by decide), exponentDigits_map_toUpper]

theorem decimalLiteral_map_toUpper (cs : List Char) :
    decimalLiteral (cs.map Char.toUpper) = decimalLiteral cs := by
  simp only [decimalLiteral_eq, splitSign_map_toUpper, takeWhile_isDigit_map_toUpper,
    dropWhile_isDigit_map_toUpper, fractionPart_map_toUpper, decimalParts, exponentPart_map_toUpper]

/-! ### Atoms -/

/-- Upper-casing a text first does not change its full upper case. -/
theorem upper_map_toUpper (tok : List Char) :
    Text.upper (String.ofList (tok.map Char.toUpper)) = Text.upper (String.ofList tok) := by
  simp only [Text.upper, String.toList_ofList, List.flatMap_map, upperChar_toUpper]

/-- **An atom upper-cased is the same datum.** Integer numerals, decimal numerals and symbols are
recognised alike in both cases, and a symbol is kept upper-cased. -/
theorem classify_map_toUpper (tok : List Char) : classify (tok.map Char.toUpper) = classify tok := by
  simp only [classify, integerLiteral_map_toUpper, decimalLiteral_map_toUpper, upper_map_toUpper]

end MiniScheme.Read
