import MiniScheme.Proofs.ReadStep
import MiniScheme.Proofs.Display
import MiniScheme.Proofs.Erase
/-!
# Printing then reading gives the datum back

The printer and the reader are separate recursions, and they agree only on part of the data. A
datum is `Printable` when it is built from integers, booleans, characters, strings without a double
quote, symbols with a plain name (`Name`), the empty list, vectors, closures read from text (with
plain parameter names) and lists with a dotted end, except where the reader would take a list for a
form it abbreviates: a list headed by `LAMBDA` or `LET`, or by `DEFINE` before a datum printed with a
parenthesis. Floats are left out: six places do not give a float back.

Main statement: `read_display`, reading the printed form of a printable datum gives the datum back,
up to the addresses of its cells and closures. It rests on `Printable.reads`: the printed form
followed by any text that starts with a delimiter is read as the datum, and that text is left.
-/

namespace MiniScheme.Read

open Value

/-- A symbol name that prints as it reads: not empty, upper-cased already, without delimiters, not
starting like a string, a character, a quoted datum or a hash datum, not a lone dot, and no
numeral. -/
structure Name (s : String) : Prop where
  ne_nil : s.toList ≠ []
  upper : Text.upper s = s
  no_delimiter : ∀ c ∈ s.toList, isDelimiter c = false
  head : ∀ c ∈ s.toList.head?, c ≠ '#' ∧ c ≠ '"' ∧ c ≠ '\'' ∧ c ≠ '\x60'
  not_dot : s ≠ "."
  symbol : (classify s.toList).symbol?.isSome

/-- A name from its characters, each condition in a form `decide` evaluates. -/
theorem Name.of_chars {s : String} {c : Char} {cs : List Char} (h : s.toList = c :: cs)
    (hupper : Text.upper s = s) (hdelim : ((c :: cs).all fun d => !isDelimiter d) = true)
    (hhead : c ≠ '#' ∧ c ≠ '"' ∧ c ≠ '\'' ∧ c ≠ '\x60') (hdot : s ≠ ".")
    (hsym : (classify s.toList).symbol?.isSome) : Name s where
  ne_nil := by rw [h]; exact List.cons_ne_nil c cs
  upper := hupper
  no_delimiter d hd := by
    rw [h] at hd
    simpa using List.all_eq_true.mp hdelim d hd
  head d hd := by
    rw [h, List.head?_cons, Option.mem_def, Option.some.injEq] at hd
    exact hd ▸ hhead
  not_dot := hdot
  symbol := hsym

theorem Name.classify {s : String} (hs : Name s) : classify s.toList = .sym s := by
  have h := hs.symbol
  unfold Read.classify at h ⊢
  cases hi : integerLiteral s.toList with
  | some n => simp [hi, symbol?] at h
  | none =>
    cases hd : decimalLiteral s.toList with
    | some x => simp [hi, hd, symbol?] at h
    | none => simp [String.ofList_toList, hs.upper]

/-- A plain name followed by a delimiter is read as its symbol. -/
theorem Name.reads {s : String} (hs : Name s) {c : Char} {cs rest : List Char}
    (hcs : s.toList = c :: cs) (hr : atDelimiter rest = true) :
    (datum c (cs ++ rest)).Reads (.sym s) rest := by
  have htok : ∀ d ∈ c :: cs, isDelimiter d = false := hcs ▸ hs.no_delimiter
  have hc := hs.head c (by simp [hcs])
  have hdot : cs = [] → c ≠ '.' := by
    rintro rfl rfl
    exact hs.not_dot (String.toList_inj.mp (by simpa using hcs))
  have := datum_token htok hc hdot hr
  rwa [← hcs, hs.classify] at this

/-! ### Integer numerals

The printed form of an integer is its decimal numeral, with `-` before a negative one; it has no
leading zero, so the integer grammar reads it back. -/

theorem digitIn_of_isDigit {c : Char} (h : c.isDigit = true) : digitIn 10 c = some (c.toNat - 48) := by
  have hd := Char.isDigit_iff_toNat.mp h
  simp only [Char.reduceToNat] at hd
  simp [digitIn, Char.le_def, UInt32.le_iff_toNat_le, hd]
  omega

theorem groupsTail_digits : ∀ cs : List Char, (∀ c ∈ cs, c.isDigit = true) →
    groupsTail 10 cs = some (cs.map (·.toNat - 48))
  | [], _ => by simp [groupsTail]
  | c :: cs, h => by
    have hc : c.isDigit = true := h c List.mem_cons_self
    have hu : c ≠ '_' := by rintro rfl; revert hc; decide
    rw [groupsTail]
    · simp [digitIn_of_isDigit hc, groupsTail_digits cs (fun d hd => h d (List.mem_cons_of_mem c hd))]
    · exact hu

theorem digitsValue_map (cs : List Char) (init : Nat) :
    (cs.map (·.toNat - 48)).foldl (fun n d => n * 10 + d) init = Nat.ofDigitChars 10 cs init := by
  induction cs generalizing init with
  | nil => simp
  | cons c cs ih => simp [Nat.ofDigitChars_cons, ih, Nat.mul_comm]

theorem digitChar_between : ∀ m < 10, 0 < m → '1' ≤ Nat.digitChar m ∧ Nat.digitChar m ≤ '9' := by
  decide

theorem toDigits_head {m : Nat} (hm : 0 < m) :
    ∃ c cs, Nat.toDigits 10 m = c :: cs ∧ '1' ≤ c ∧ c ≤ '9' := by
  induction m using Nat.strongRecOn with
  | ind m ih =>
    rw [Nat.toDigits_eq_if (by decide)]
    split
    · exact ⟨_, [], rfl, digitChar_between m ‹_› hm⟩
    · obtain ⟨c, cs, h, hc⟩ := ih (m / 10) (by omega) (by omega)
      exact ⟨c, cs ++ _, by rw [h]; rfl, hc⟩

theorem unsignedInteger_toDigits (m : Nat) : unsignedInteger (Nat.toDigits 10 m) = some m := by
  rcases Nat.eq_zero_or_pos m with rfl | hm
  · decide
  · obtain ⟨c, cs, h, h1, h9⟩ := toDigits_head hm
    have hall : ∀ d ∈ c :: cs, d.isDigit = true := fun d hd =>
      Nat.isDigit_of_mem_toDigits (by decide) (by decide) (h ▸ hd)
    have hc0 : c ≠ '0' := by rintro rfl; revert h1; decide
    rw [h, unsignedInteger.eq_3 c cs (by simp [hc0]) (by simp [hc0]), if_pos ⟨h1, h9⟩,
      groupsTail_digits _ hall]
    simp only [Option.map_eq_map, Option.map_some, digitsValue, digitsValue_map]
    rw [← h, Nat.ofDigitChars_ten_toDigits]

theorem toList_toString_int (i : Int) : (toString i).toList =
    if 0 ≤ i then Nat.toDigits 10 i.toNat else '-' :: Nat.toDigits 10 i.natAbs := by
  cases i with
  | ofNat m => simp [toString, Int.repr]
  | negSucc m => simp [toString, Int.repr]

theorem integerLiteral_toString (n : Int64) : integerLiteral (toString n.toInt).toList = some n := by
  have hfit : fitsInt64 n.toInt = true := by
    simp only [fitsInt64, Bool.and_eq_true, decide_eq_true_eq]
    exact ⟨n.minValue_le_toInt, n.toInt_le⟩
  rw [toList_toString_int]
  split
  · rename_i hpos
    obtain ⟨c, cs, h⟩ : ∃ c cs, Nat.toDigits 10 n.toInt.toNat = c :: cs :=
      List.exists_cons_of_ne_nil Nat.toDigits_ne_nil
    have hc : c.isDigit = true := Nat.isDigit_of_mem_toDigits (by decide) (by decide) (h ▸ List.mem_cons_self)
    have hsign : splitSign (c :: cs) = (false, c :: cs) := by
      have h1 : c ≠ '+' := by rintro rfl; revert hc; decide
      have h2 : c ≠ '-' := by rintro rfl; revert hc; decide
      rw [splitSign.eq_3 _ (by simp [h1]) (by simp [h2])]
    have hv : ((n.toInt.toNat : Nat) : Int) = n.toInt := Int.toNat_of_nonneg hpos
    unfold integerLiteral
    rw [h, hsign]
    simp only
    rw [← h, unsignedInteger_toDigits]
    simp only [Bool.false_eq_true, if_false, hv, hfit, if_true, Int64.ofInt_toInt]
  · rename_i hneg
    have hv : -((n.toInt.natAbs : Nat) : Int) = n.toInt := by omega
    have hsign : splitSign ('-' :: Nat.toDigits 10 n.toInt.natAbs) =
        (true, Nat.toDigits 10 n.toInt.natAbs) := rfl
    unfold integerLiteral
    rw [hsign]
    simp only
    rw [unsignedInteger_toDigits]
    simp only [if_true, hv, hfit, Int64.ofInt_toInt]

theorem classify_toString (n : Int64) : classify (toString n.toInt).toList = .int n := by
  rw [classify, integerLiteral_toString]

/-- Every character of an integer's numeral is a digit or the minus sign. -/
theorem toString_int_chars (n : Int64) :
    ∀ d ∈ (toString n.toInt).toList, d.isDigit = true ∨ d = '-' := by
  intro d hd
  rw [toList_toString_int] at hd
  split at hd
  · exact .inl (Nat.isDigit_of_mem_toDigits (by decide) (by decide) hd)
  · rcases List.mem_cons.mp hd with rfl | hd
    · exact .inr rfl
    · exact .inl (Nat.isDigit_of_mem_toDigits (by decide) (by decide) hd)


/-! ### Printable data -/

/-- Whether the printed form of a value starts with a parenthesis: the lists, and the closures read
from text, which print as their lambda form. -/
def opensList : Value → Bool
  | .cons .. | .nil | .closure _ _ _ none => true
  | _ => false

/-- The data whose printed form reads back as themselves. -/
inductive Printable : Value → Prop
  | int (n : Int64) : Printable (.int n)
  | bool (b : Bool) : Printable (.bool b)
  | char (c : Char) : Printable (.char c)
  | str {s : String} : '"' ∉ s.toList → Printable (.str s)
  | sym {s : String} : Name s → Printable (.sym s)
  | nil : Printable .nil
  | vector {xs : List Value} : (∀ x ∈ xs, Printable x) → Printable (.vector xs)
  | closure (a : Nat) {ps : List String} {b : Value} :
      (∀ p ∈ ps, Name p) → Printable b → Printable (.closure a ps b none)
  /-- A list of printable elements with a printable dotted end, unless its head makes the reader
  take it for a `lambda`, a `let` or a procedure `define`. -/
  | cons (a : Nat) {x d : Value} :
      (∀ y ∈ (Value.cons a x d).items, Printable y) →
      (∀ t, (Value.cons a x d).terminator? = some t → Printable t) →
      x ≠ .sym "LAMBDA" → x ≠ .sym "LET" →
      (x = .sym "DEFINE" → ∀ y ∈ d.items.head?, opensList y = false) →
      Printable (.cons a x d)

/-- What the reader needs of the first character of a printed datum: no blank or comment mark, no
closing parenthesis, an opening one exactly before a list or a closure, and a dot only before a
symbol. -/
structure HeadChar (v : Value) (c : Char) : Prop where
  not_blank : isBlank c = false
  not_comment : c ≠ ';'
  not_close : c ≠ ')'
  paren : c = '(' ↔ opensList v = true
  dot : c = '.' → ∃ s, v = .sym s ∧ Name s

theorem HeadChar.skipBlank {v : Value} {c : Char} (h : HeadChar v c) (r : List Char) :
    Read.skipBlank (c :: r) = c :: r :=
  skipBlank_of_not_blank r h.not_blank h.not_comment

theorem isDelimiter_eq_false {c : Char} :
    isDelimiter c = false ↔ isBlank c = false ∧ c ≠ '(' ∧ c ≠ ')' ∧ c ≠ ';' := by
  simp [isDelimiter, and_assoc]

/-- A character that is no delimiter and no dot starts a datum that opens no list. -/
theorem HeadChar.of_plain {v : Value} {c : Char} (hv : opensList v = false)
    (hc : isDelimiter c = false) (hdot : c ≠ '.') : HeadChar v c := by
  obtain ⟨hb, hl, hr, hs⟩ := isDelimiter_eq_false.mp hc
  exact ⟨hb, hs, hr, ⟨fun h => absurd h hl, fun h => by simp [hv] at h⟩, fun h => absurd h hdot⟩

theorem HeadChar.of_paren {v : Value} (hv : opensList v = true) : HeadChar v '(' :=
  ⟨by decide, by decide, by decide, ⟨fun _ => hv, fun _ => rfl⟩, fun h => absurd h (by decide)⟩

theorem isDelimiter_of_isDigit {d : Char} (h : d.isDigit = true) : isDelimiter d = false := by
  cases hd : isDelimiter d
  · rfl
  · simp only [isDelimiter, isBlank, Bool.or_eq_true, decide_eq_true_eq, or_assoc] at hd
    rcases hd with rfl | rfl | rfl | rfl | rfl | rfl | rfl <;> revert h <;> decide

/-- The first character of a printable datum's printed form. -/
theorem Printable.head {v : Value} (hv : Printable v) :
    ∃ c cs, v.display.toList = c :: cs ∧ HeadChar v c := by
  cases hv with
  | int n =>
    obtain ⟨c, cs, h⟩ : ∃ c cs, (toString n.toInt).toList = c :: cs := by
      rw [toList_toString_int]
      split
      · exact List.exists_cons_of_ne_nil Nat.toDigits_ne_nil
      · exact ⟨_, _, rfl⟩
    refine ⟨c, cs, by rw [display_int, h], HeadChar.of_plain rfl ?_ ?_⟩ <;>
      rcases toString_int_chars n c (h ▸ List.mem_cons_self) with hc | rfl
    · exact isDelimiter_of_isDigit hc
    · decide
    · rintro rfl; revert hc; decide
    · decide
  | bool b => cases b <;> exact ⟨'#', _, by simp; rfl, HeadChar.of_plain rfl (by decide) (by decide)⟩
  | char c => exact ⟨'#', _, by simp; rfl, HeadChar.of_plain rfl (by decide) (by decide)⟩
  | str _ => exact ⟨'"', _, by simp; rfl, HeadChar.of_plain rfl (by decide) (by decide)⟩
  | @sym s hs =>
    obtain ⟨c, cs, h⟩ := List.exists_cons_of_ne_nil hs.ne_nil
    have hnd := hs.no_delimiter c (h ▸ List.mem_cons_self)
    obtain ⟨hb, hl, hr, hsc⟩ := isDelimiter_eq_false.mp hnd
    exact ⟨c, cs, by rw [display_sym, h], hb, hsc, hr,
      ⟨fun hc => absurd hc hl, fun h => by simp [opensList] at h⟩, fun _ => ⟨s, rfl, hs⟩⟩
  | nil => exact ⟨'(', _, by simp; rfl, HeadChar.of_paren rfl⟩
  | vector _ => exact ⟨'#', _, by simp [display_vector]; rfl, HeadChar.of_plain rfl (by decide) (by decide)⟩
  | closure a _ _ => exact ⟨'(', _, by simp [display_closure]; rfl, HeadChar.of_paren rfl⟩
  | cons a _ _ _ _ _ => exact ⟨'(', _, by simp [display_cons]; rfl, HeadChar.of_paren rfl⟩


/-! ### The end of a list -/

/-- What ends a list: the empty list for a proper list and the datum after the dot for a dotted
one; a value that is no cell is its own end. -/
def listEnd : Value → Value
  | .cons _ _ d => listEnd d
  | v => v

@[simp] theorem listEnd_cons (a : Nat) (x d : Value) : listEnd (.cons a x d) = listEnd d := by
  simp [listEnd]

@[simp] theorem listEnd_nil : listEnd .nil = .nil := by simp [listEnd]

theorem listEnd_notList {v : Value} (hv : NotList v) : listEnd v = v := by
  cases v with
  | cons a x d => exact absurd rfl (hv.1 a x d)
  | _ => simp [listEnd]

theorem items_notList {v : Value} (hv : NotList v) : v.items = [] := by
  cases v with
  | cons a x d => exact absurd rfl (hv.1 a x d)
  | _ => simp [items]

/-- A dotted list's end is what `terminator?` gives. -/
theorem terminator?_cons (a : Nat) (x d : Value) (hd : listEnd d ≠ .nil) :
    (Value.cons a x d).terminator? = some (listEnd d) := by
  rcases nil_or_cons_or_notList d with rfl | ⟨b, y, e, rfl⟩ | hnl
  · exact absurd listEnd_nil hd
  · rw [terminator?, listEnd_cons]
    exact terminator?_cons b y e (by simpa using hd)
  · rw [listEnd_notList hnl]
    cases d with
    | cons b y e => exact absurd rfl (hnl.1 b y e)
    | nil => exact absurd rfl hnl.2
    | _ => simp [terminator?]
termination_by d

/-- A list is the `dotted` list of its elements and its end. -/
theorem erase_cons_eq_dotted (a : Nat) (x d : Value) :
    (Value.cons a x d).erase = dotted 0 (listEnd d).erase (x.erase :: d.items.map erase) := by
  rcases nil_or_cons_or_notList d with rfl | ⟨b, y, e, rfl⟩ | hnl
  · simp [dotted, items]
  · rw [erase_cons, erase_cons_eq_dotted b y e]
    simp [dotted]
  · simp [listEnd_notList hnl, items_notList hnl, dotted]
termination_by d

/-- The text after the head of a list starts with a delimiter: a space, or the closing
parenthesis. -/
theorem atDelimiter_writeRest (d : Value) (rest : List Char) :
    atDelimiter ((writeRest "" d).toList ++ ')' :: rest) = true := by
  rcases nil_or_cons_or_notList d with rfl | ⟨b, y, e, rfl⟩ | hnl
  · simp [atDelimiter, isDelimiter]
  · simp [writeRest_cons, atDelimiter, isDelimiter, isBlank]
  · simp [writeRest_notList hnl, atDelimiter, isDelimiter, isBlank]

/-! ### Reading printed data back -/

/-- The printed form of `v`, followed by a text that starts with a delimiter, is read as `v` with its
addresses forgotten, and that text is left. -/
def ReadsBack (v : Value) : Prop :=
  ∀ c cs rest, v.display.toList = c :: cs → atDelimiter rest = true →
    (datum c (cs ++ rest)).Reads v.erase rest

/-- The elements of a vector, after blanks, up to its `)`. -/
theorem vector_seq : ∀ (xs acc : List Value) (cs rest : List Char),
    (∀ x ∈ xs, Printable x ∧ ReadsBack x) →
    skipBlank cs = skipBlank ((writeSeq "" xs).toList ++ ')' :: rest) →
    (vector acc cs).Reads (.vector (acc.reverse ++ xs.map erase)) rest
  | [], acc, cs, rest, _, h => by
    simp only [writeSeq_nil, String.toList_empty, List.nil_append,
      skipBlank_of_not_blank rest (by decide : isBlank ')' = false) (by decide)] at h
    simpa using vector_close h
  | [x], acc, cs, rest, hx, h => by
    obtain ⟨hpx, hrx⟩ := hx x List.mem_cons_self
    obtain ⟨c, cs', hd, hh⟩ := hpx.head
    rw [writeSeq_singleton, hd, List.cons_append, hh.skipBlank] at h
    rw [vector_item h hh.not_close (hrx c cs' _ hd (by simp [atDelimiter, isDelimiter]))]
    simpa using @vector_close (x.erase :: acc) _ _ (skipBlank_of_not_blank rest (by decide) (by decide))
  | x :: y :: ys, acc, cs, rest, hx, h => by
    obtain ⟨hpx, hrx⟩ := hx x List.mem_cons_self
    obtain ⟨c, cs', hd, hh⟩ := hpx.head
    simp only [writeSeq_cons_cons, String.toList_append, hd, List.cons_append, List.append_assoc,
      hh.skipBlank] at h
    rw [vector_item h hh.not_close (hrx c cs' _ hd (by simp [atDelimiter, isDelimiter, isBlank]))]
    have := vector_seq (y :: ys) (x.erase :: acc) _ rest (fun z hz => hx z (List.mem_cons_of_mem x hz))
      (skipBlank_space _)
    simpa using this

/-- Parameter names, after blanks, up to the `)` of the parameter list. -/
theorem params_seq (form : String) : ∀ (ps acc : List String) (cs rest : List Char),
    (∀ p ∈ ps, Name p) → skipBlank cs = skipBlank ((" ".intercalate ps).toList ++ ')' :: rest) →
    (params form acc cs).Reads (acc.reverse ++ ps) rest
  | [], acc, cs, rest, _, h => by
    simp only [String.intercalate_nil, String.toList_empty, List.nil_append,
      skipBlank_of_not_blank rest (by decide : isBlank ')' = false) (by decide)] at h
    simpa using params_close h
  | [p], acc, cs, rest, hp, h => by
    have hn := hp p List.mem_cons_self
    obtain ⟨c, cs', hd⟩ := List.exists_cons_of_ne_nil hn.ne_nil
    obtain ⟨hb, -, hr, hs⟩ := isDelimiter_eq_false.mp (hn.no_delimiter c (hd ▸ List.mem_cons_self))
    rw [String.intercalate_singleton, hd, List.cons_append, skipBlank_of_not_blank _ hb hs] at h
    rw [params_sym h hr (hn.reads hd (by simp [atDelimiter, isDelimiter]))]
    simpa using @params_close form (p :: acc) _ _ (skipBlank_of_not_blank rest (by decide) (by decide))
  | p :: q :: qs, acc, cs, rest, hp, h => by
    have hn := hp p List.mem_cons_self
    obtain ⟨c, cs', hd⟩ := List.exists_cons_of_ne_nil hn.ne_nil
    obtain ⟨hb, -, hr, hs⟩ := isDelimiter_eq_false.mp (hn.no_delimiter c (hd ▸ List.mem_cons_self))
    simp only [String.intercalate_cons_cons, String.toList_append, hd, List.cons_append,
      List.append_assoc, skipBlank_of_not_blank _ hb hs] at h
    rw [params_sym h hr (hn.reads hd (by simp [atDelimiter, isDelimiter, isBlank]))]
    have := params_seq form (q :: qs) (p :: acc) _ rest (fun z hz => hp z (List.mem_cons_of_mem p hz))
      (skipBlank_space _)
    simpa using this


/-- The rest of a list after the elements read so far (`acc`, the last first): its further elements
and its dotted end, up to the `)`. An element that starts with a dot is a symbol, read by the list's
own atom branch. -/
theorem listTail_seq (d : Value) (acc : List Value) (rest : List Char)
    (hitems : ∀ y ∈ d.items, Printable y ∧ ReadsBack y)
    (hend : listEnd d ≠ .nil → Printable (listEnd d) ∧ ReadsBack (listEnd d)) :
    (listTail acc ((writeRest "" d).toList ++ ')' :: rest)).Reads
      (dotted 0 (listEnd d).erase (acc.reverse ++ d.items.map erase)) rest := by
  rcases nil_or_cons_or_notList d with rfl | ⟨b, y, e, rfl⟩ | hnl
  · have h : skipBlank ((writeRest "" .nil).toList ++ ')' :: rest) = ')' :: rest := by
      simp only [writeRest_nil, String.toList_empty, List.nil_append]
      exact skipBlank_of_not_blank rest (by decide) (by decide)
    simpa [items, ofList] using @listTail_close acc _ _ h
  · obtain ⟨hpy, hry⟩ := hitems y List.mem_cons_self
    obtain ⟨c, cs, hd, hh⟩ := hpy.head
    have hskip : skipBlank (' ' :: c :: (cs ++ ((writeRest "" e).toList ++ ')' :: rest))) =
        c :: (cs ++ ((writeRest "" e).toList ++ ')' :: rest)) := by
      rw [skipBlank_space, hh.skipBlank]
    have hT := atDelimiter_writeRest e rest
    have ih := listTail_seq e (y.erase :: acc) rest
      (fun z hz => hitems z (List.mem_cons_of_mem y hz)) (by simpa using hend)
    have htext : (writeRest "" (.cons b y e)).toList ++ ')' :: rest =
        ' ' :: c :: (cs ++ ((writeRest "" e).toList ++ ')' :: rest)) := by
      simp [writeRest_cons, hd]
    rw [htext]
    by_cases hdot : c = '.'
    · obtain ⟨s, rfl, hs⟩ := hh.dot hdot
      subst hdot
      rw [display_sym] at hd
      have hcs : ∀ d ∈ cs, isDelimiter d = false := fun d hd' =>
        hs.no_delimiter d (hd ▸ List.mem_cons_of_mem _ hd')
      have hat : atDelimiter (cs ++ ((writeRest "" e).toList ++ ')' :: rest)) = false := by
        cases cs with
        | nil => exact absurd (String.toList_inj.mp (by simpa using hd)) hs.not_dot
        | cons d cs' => simp [atDelimiter, hcs d List.mem_cons_self]
      rw [listTail_dotAtom hskip hat, atomText_append ['.'] hcs hT, List.singleton_append, ← hd,
        hs.classify]
      simpa using ih
    · rw [listTail_item hskip hh.not_close hdot (hry c cs _ hd hT)]
      simpa using ih
  · obtain ⟨hpt, hrt⟩ := hend (by rw [listEnd_notList hnl]; exact hnl.2)
    rw [listEnd_notList hnl] at hpt hrt
    obtain ⟨c, cs, hd, hh⟩ := hpt.head
    have htext : (writeRest "" d).toList ++ ')' :: rest =
        ' ' :: '.' :: ' ' :: c :: (cs ++ ')' :: rest) := by
      simp [writeRest_notList hnl, hd]
    have hclose := @expectClose_close "dotted list" "expected ) after the tail" _ _
      (skipBlank_of_not_blank rest (by decide : isBlank ')' = false) (by decide))
    have := @listTail_dotted acc (' ' :: '.' :: ' ' :: c :: (cs ++ ')' :: rest))
      (' ' :: c :: (cs ++ ')' :: rest)) _ _ _ _ _
      (by rw [skipBlank_space]; exact skipBlank_of_not_blank _ (by decide) (by decide))
      (by simp [atDelimiter, isDelimiter, isBlank]) (by rw [skipBlank_space, hh.skipBlank])
      (hrt c cs _ hd (by simp [atDelimiter, isDelimiter])) hclose
    rw [htext, listEnd_notList hnl, items_notList hnl]
    simpa using this
termination_by d

theorem symbol?_eq_some {v : Value} {s : String} : v.symbol? = some s ↔ v = .sym s := by
  cases v <;> simp [symbol?]

/-- `LAMBDA` is a plain name. -/
theorem name_LAMBDA : Name "LAMBDA" :=
  Name.of_chars (c := 'L') rfl (by decide) (by decide) (by decide) (by decide) (by decide)

/-- **Printed data read back.** The printed form of a printable datum, followed by a text that
starts with a delimiter, is read as the datum. By induction on `Printable`; a list goes through
`listTail_seq`, a vector through `vector_seq` and a closure through `params_seq`. After a `DEFINE`
head the reader looks for a parenthesis, which the second element of a printable list does not open.
-/
theorem Printable.reads {v : Value} (hv : Printable v) : ReadsBack v := by
  induction hv with
  | int n =>
    intro c cs rest hd hr
    rw [display_int] at hd
    have hch : ∀ d ∈ c :: cs, d.isDigit = true ∨ d = '-' := hd ▸ toString_int_chars n
    have htok : ∀ d ∈ c :: cs, isDelimiter d = false := fun d hdm => by
      rcases hch d hdm with h | rfl
      · exact isDelimiter_of_isDigit h
      · decide
    have hc : c ≠ '#' ∧ c ≠ '"' ∧ c ≠ '\'' ∧ c ≠ '\x60' := by
      rcases hch c List.mem_cons_self with h | rfl
      · refine ⟨?_, ?_, ?_, ?_⟩ <;> (rintro rfl; revert h; decide)
      · decide
    have hdot : cs = [] → c ≠ '.' := fun _ => by
      rcases hch c List.mem_cons_self with h | rfl
      · rintro rfl; revert h; decide
      · decide
    have := datum_token htok hc hdot hr
    rwa [← hd, classify_toString] at this
  | bool b =>
    intro c cs rest hd _
    cases b
    · obtain ⟨rfl, rfl⟩ : c = '#' ∧ cs = ['F'] := by simpa using hd.symm
      simpa using hash_false rest
    · obtain ⟨rfl, rfl⟩ : c = '#' ∧ cs = ['T'] := by simpa using hd.symm
      simpa using hash_true rest
  | char ch =>
    intro c cs rest hd _
    obtain ⟨rfl, rfl⟩ : c = '#' ∧ cs = ['\\', ch] := by simpa using hd.symm
    simpa using hash_char ch rest
  | @str s hs =>
    intro c cs rest hd _
    obtain ⟨rfl, rfl⟩ : c = '"' ∧ cs = s.toList ++ ['"'] := by simpa using hd.symm
    rw [datum_dquote, List.append_assoc, List.singleton_append]
    simpa using string_reads hs rest
  | sym hs =>
    intro c cs rest hd hr
    rw [display_sym] at hd
    simpa using hs.reads hd hr
  | nil =>
    intro c cs rest hd _
    obtain ⟨rfl, rfl⟩ : c = '(' ∧ cs = [')'] := by simpa using hd.symm
    simpa using list_nil (skipBlank_of_not_blank rest (by decide : isBlank ')' = false) (by decide))
  | @vector xs hxs ih =>
    intro c cs rest hd _
    obtain ⟨rfl, rfl⟩ : c = '#' ∧ cs = '(' :: ((writeSeq "" xs).toList ++ [')']) := by
      simpa [display_vector] using hd.symm
    have hv := vector_seq xs [] ((writeSeq "" xs).toList ++ ')' :: rest) rest
      (fun x hx => ⟨hxs x hx, ih x hx⟩) rfl
    obtain ⟨e, r, he⟩ : ∃ e r, (writeSeq "" xs).toList ++ ')' :: rest = e :: r :=
      List.exists_cons_of_ne_nil (by simp)
    rw [he] at hv
    have htext : '(' :: ((writeSeq "" xs).toList ++ [')']) ++ rest = '(' :: e :: r := by
      simp [← he]
    rw [datum_hash, htext, hash_vector]
    simpa using hv
  | @closure a ps b hps hb ihb =>
    intro c cs rest hd _
    obtain ⟨cb, csb, hdb, hhb⟩ := hb.head
    obtain ⟨rfl, rfl⟩ : c = '(' ∧ cs = "LAMBDA".toList ++ ' ' :: '(' ::
        ((" ".intercalate ps).toList ++ ')' :: ' ' :: cb :: (csb ++ [')'])) := by
      simpa [display_closure, hdb] using hd.symm
    have hbody : (body "lambda" (' ' :: cb :: (csb ++ ')' :: rest))).Reads b.erase rest :=
      body_reads (by rw [skipBlank_space, hhb.skipBlank]) hhb.not_close
        (ihb cb csb _ hdb (by simp [atDelimiter, isDelimiter]))
        (expectClose_close (skipBlank_of_not_blank rest (by decide : isBlank ')' = false) (by decide)))
    have hparams := params_seq "lambda" ps [] _ (' ' :: cb :: (csb ++ ')' :: rest)) hps rfl
    have hlam := lambda_reads
      (r := (" ".intercalate ps).toList ++ ')' :: ' ' :: cb :: (csb ++ ')' :: rest))
      (by rw [skipBlank_space]; exact skipBlank_of_not_blank _ (by decide) (by decide))
      (by simpa using hparams) hbody
    have hhead := @Name.reads "LAMBDA" name_LAMBDA 'L' "AMBDA".toList
      (' ' :: '(' :: ((" ".intercalate ps).toList ++ ')' :: ' ' :: cb :: (csb ++ ')' :: rest)))
      (by decide)
      (by simp [atDelimiter, isDelimiter, isBlank])
    have htext : "LAMBDA".toList ++ ' ' :: '(' ::
        ((" ".intercalate ps).toList ++ ')' :: ' ' :: cb :: (csb ++ [')'])) ++ rest =
        'L' :: ("AMBDA".toList ++ ' ' :: '(' ::
          ((" ".intercalate ps).toList ++ ')' :: ' ' :: cb :: (csb ++ ')' :: rest))) := by
      simp [show "LAMBDA".toList = 'L' :: "AMBDA".toList by decide]
    rw [datum_lparen, htext, erase_closure]
    rw [list_lambda (skipBlank_of_not_blank _ (by decide) (by decide)) (by decide) hhead rfl]
    simpa using hlam
  | @cons a x d hitems hterm hlam hlet hdef ihitems ihterm =>
    intro c cs rest hd _
    obtain ⟨cx, csx, hdx, hhx⟩ := (hitems x (by simp)).head
    obtain ⟨rfl, rfl⟩ : c = '(' ∧ cs = cx :: (csx ++ ((writeRest "" d).toList ++ [')'])) := by
      simpa [display_cons, hdx] using hd.symm
    have hT := atDelimiter_writeRest d rest
    have hx := ihitems x (by simp) cx csx _ hdx hT
    have hdefT : (x.erase).symbol? = some "DEFINE" →
        ∀ r₂, skipBlank ((writeRest "" d).toList ++ ')' :: rest) ≠ '(' :: r₂ := by
      intro hxd r₂ hskip
      have hno := hdef (symbol?_eq_some.mp (by simpa using hxd))
      rcases nil_or_cons_or_notList d with rfl | ⟨b, y, e, rfl⟩ | hnl
      · simp [skipBlank_of_not_blank rest (by decide : isBlank ')' = false)] at hskip
      · obtain ⟨cy, csy, hdy, hhy⟩ := (hitems y (by simp)).head
        have hsp : (" " : String).toList = [' '] := by decide
        simp only [writeRest_cons, String.toList_append, hsp, hdy, List.cons_append,
          List.append_assoc, List.nil_append, skipBlank_space, hhy.skipBlank, List.cons.injEq] at hskip
        have := hno y (by simp)
        simp [hhy.paren.mp hskip.1] at this
      · simp [writeRest_notList hnl, skipBlank_of_not_blank _ (by decide : isBlank '.' = false)] at hskip
    have htext : cx :: (csx ++ ((writeRest "" d).toList ++ [')'])) ++ rest =
        cx :: (csx ++ ((writeRest "" d).toList ++ ')' :: rest)) := by
      simp
    rw [datum_lparen, htext]
    rw [list_head (hhx.skipBlank _) hhx.not_close hx
      (by simpa [symbol?_eq_some] using hlam) (by simpa [symbol?_eq_some] using hlet) hdefT]
    have := listTail_seq d [x.erase] rest
      (fun y hy => ⟨hitems y (by simp [hy]), ihitems y (by simp [hy])⟩)
      (fun hne => ⟨hterm _ (terminator?_cons a x d hne), ihterm _ (terminator?_cons a x d hne)⟩)
    rw [erase_cons_eq_dotted]
    simpa using this

/-- **Printing then reading is the identity on printable data.** The first datum read from the
printed form of a printable value is the value, up to the addresses of its cells and closures, and
nothing is left of the text. -/
theorem read_display {v : Value} (hv : Printable v) :
    (form v.display.toList).result = .ok v.erase ∧ (form v.display.toList).rest = [] := by
  obtain ⟨c, cs, hd, hh⟩ := hv.head
  have hread := hv.reads c cs [] hd rfl
  rw [List.append_nil] at hread
  rw [hd]
  exact (form_reads (hh.skipBlank cs)).mpr hread

/-- The dotted list `(F -3 . "a b")` is printable, and reads back from its printed form. -/
theorem read_display_dotted :
    Printable (.cons 5 (.sym "F") (.cons 6 (.int (-3)) (.str "a b"))) ∧
      (form (Value.cons 5 (.sym "F") (.cons 6 (.int (-3)) (.str "a b"))).display.toList).result =
        .ok (Value.cons 5 (.sym "F") (.cons 6 (.int (-3)) (.str "a b"))).erase ∧
      (form (Value.cons 5 (.sym "F") (.cons 6 (.int (-3)) (.str "a b"))).display.toList).rest = [] := by
  have hname : Name "F" :=
    Name.of_chars (c := 'F') rfl (by decide) (by decide) (by decide) (by decide) (by decide)
  have hv : Printable (.cons 5 (.sym "F") (.cons 6 (.int (-3)) (.str "a b"))) := by
    refine .cons 5 (fun y hy => ?_) (fun t ht => ?_) (by simp) (by simp) (by simp)
    · simp only [items, List.mem_cons, List.not_mem_nil, or_false] at hy
      rcases hy with rfl | rfl
      · exact .sym hname
      · exact .int _
    · simp [terminator?] at ht
      subst ht
      exact .str (by decide)
  exact ⟨hv, read_display hv⟩

end MiniScheme.Read
