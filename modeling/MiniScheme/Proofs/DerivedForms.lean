import MiniScheme.Proofs.TextEnd
/-!
# The forms the reader rewrites

Three list forms are rewritten while they are read: a list headed by the symbol `LAMBDA`, one headed
by `LET`, and one headed by `DEFINE` with a parenthesis after it. The reader accepts each exactly when
it has its shape, with blanks and comments anywhere between the parts:

* `(lambda (p₁ … pₖ) b)`, each `pᵢ` a symbol and `b` one datum, is the closure literal with
  parameters `p₁ … pₖ` and body `b`;
* `(let ((v₁ e₁) … (vₙ eₙ)) b)`, each binding a proper list of a symbol and one datum, is the list
  `((lambda (v₁ … vₙ) b) e₁ … eₙ)`, the closure alone in a list when there is no binding;
* `(define (f p₁ … pₖ) b)`, `f` and each `pᵢ` symbols, is `(DEFINE f (lambda (p₁ … pₖ) b))`.

A part of a form "reads as" a datum when `form`, the reader of one datum, reads it there. `Params` and
`Bindings` are the grammars of parameter and binding lists, and the reading functions `params`,
`bindings` and `body` read exactly what they describe: by recursion on the text in one direction and
by induction on the grammar in the other.

Main statement: `derived_forms_read_iff_shaped`.
-/

namespace MiniScheme.Read

open Value

/-! ### One datum, one closing parenthesis -/

theorem datum_rparen (cs : List Char) : datum ')' cs = .fail .unmatchedParen cs (Nat.le_refl _) := by
  rw [datum, if_neg (by decide), if_pos rfl]

/-- `form` reads a datum where the text, after blanks and comments, starts with a character other
than `)` and `datum` reads the datum from there. -/
theorem form_reads_iff {s r : List Char} {v : Value} :
    (form s).Reads v r ↔ ∃ c r₀, skipBlank s = c :: r₀ ∧ c ≠ ')' ∧ (datum c r₀).Reads v r := by
  constructor
  · intro h
    cases hs : skipBlank s with
    | nil => cases h.1.symm.trans (form_of_nil hs).1
    | cons c r₀ =>
      have hd := (form_reads hs).mp h
      refine ⟨c, r₀, rfl, ?_, hd⟩
      rintro rfl
      rw [datum_rparen] at hd
      exact Step.not_reads_fail hd
  · rintro ⟨c, r₀, hs, -, hd⟩
    exact (form_reads hs).mpr hd

/-- A text that starts with `(` is read as a list. -/
theorem form_open {s r₀ rest : List Char} {w : Value} (h : skipBlank s = '(' :: r₀) :
    (form s).Reads w rest ↔ (list r₀).Reads w rest := by
  rw [form_reads h, datum_lparen]

theorem expectClose_reads_iff {kind reason : String} {s r : List Char} :
    (expectClose kind reason s).Reads () r ↔ skipBlank s = ')' :: r := by
  constructor
  · intro h
    rw [expectClose] at h
    split at h
    · exact (Step.not_reads_fail h).elim
    · next c r₀ hs =>
      split at h
      · next hc =>
        subst hc
        obtain ⟨-, rfl⟩ := Step.Reads.of_ok h
        exact hs
      · exact (Step.not_reads_fail h).elim
  · exact expectClose_close

/-- The body of a form is one datum and then the `)` that closes the form. -/
theorem body_reads_iff {kind : String} {s r : List Char} {b : Value} :
    (body kind s).Reads b r ↔ ∃ r₁, (form s).Reads b r₁ ∧ skipBlank r₁ = ')' :: r := by
  constructor
  · intro h
    rw [body] at h
    split at h
    · exact (Step.not_reads_fail h).elim
    · next c r₀ hs =>
      split at h
      · exact (Step.not_reads_fail h).elim
      · next hc =>
        split at h
        · exact (Step.not_reads_fail h).elim
        · next b' r₁ h₁ hd =>
          split at h
          · exact (Step.not_reads_fail h).elim
          · next r₂ h₂ hcl =>
            obtain ⟨rfl, rfl⟩ := Step.Reads.of_ok h
            exact ⟨r₁, form_reads_iff.mpr ⟨c, r₀, hs, hc, Step.Reads.of_eq hd⟩,
              expectClose_reads_iff.mp (Step.Reads.of_eq hcl)⟩
  · rintro ⟨r₁, hf, hcl⟩
    obtain ⟨c, r₀, hs, hc, hd⟩ := form_reads_iff.mp hf
    exact body_reads hs hc hd (expectClose_close hcl)

/-! ### Parameter lists -/

/-- The text `s` holds data that each read as a symbol, with names `ps`, and then, after blanks and
comments, a `)`; `r` is left after it. -/
inductive Params : List Char → List String → List Char → Prop
  | close {s r : List Char} : skipBlank s = ')' :: r → Params s [] r
  | sym {s s₁ r : List Char} {p : String} {ps : List String} :
      (form s).Reads (.sym p) s₁ → Params s₁ ps r → Params s (p :: ps) r

theorem params_of_reads {kind : String} {acc ps : List String} {s r : List Char}
    (h : (params kind acc s).Reads ps r) : ∃ qs, ps = acc.reverse ++ qs ∧ Params s qs r := by
  rw [params] at h
  split at h
  · exact (Step.not_reads_fail h).elim
  · next c r₀ hs =>
    have hr := length_lt_of_skipBlank_eq_cons hs
    split at h
    · next hc =>
      subst hc
      obtain ⟨rfl, rfl⟩ := Step.Reads.of_ok h
      exact ⟨[], by simp, .close hs⟩
    · next hc =>
      split at h
      · exact (Step.not_reads_fail h).elim
      · next v r₁ h₁ hd =>
        split at h
        · next p =>
          have hlt : r₁.length < s.length := by omega
          have h' : (params kind (p :: acc) r₁).Reads ps r := h
          obtain ⟨qs, rfl, hqs⟩ := params_of_reads h'
          exact ⟨p :: qs, by simp, .sym (form_reads_iff.mpr ⟨c, r₀, hs, hc, Step.Reads.of_eq hd⟩) hqs⟩
        · exact (Step.not_reads_fail h).elim
termination_by s.length

theorem params_of_grammar {kind : String} {s r : List Char} {ps : List String} (h : Params s ps r) :
    ∀ acc, (params kind acc s).Reads (acc.reverse ++ ps) r := by
  induction h with
  | close hs =>
    intro acc
    simpa using params_close hs
  | sym hf _ ih =>
    intro acc
    obtain ⟨c, r₀, hs, hc, hd⟩ := form_reads_iff.mp hf
    rw [params_sym hs hc hd]
    simpa using ih (_ :: acc)

/-- **Parameter lists are read exactly.** -/
theorem params_reads_iff {kind : String} {s r : List Char} {ps : List String} :
    (params kind [] s).Reads ps r ↔ Params s ps r := by
  constructor
  · intro h
    obtain ⟨qs, rfl, hqs⟩ := params_of_reads h
    simpa using hqs
  · intro h
    have h' : (params kind [] s).Reads (([] : List String).reverse ++ ps) r := params_of_grammar h []
    simpa using h'

/-! ### Binding lists -/

/-- The text `s` holds data that each read as a proper list of a symbol and one more datum, with
names `ns` and second data `es`, and then, after blanks and comments, a `)`; `r` is left after it. -/
inductive Bindings : List Char → List String → List Value → List Char → Prop
  | close {s r : List Char} : skipBlank s = ')' :: r → Bindings s [] [] r
  | binding {s s₁ r : List Char} {b e : Value} {n : String} {ns : List String} {es : List Value} :
      (form s).Reads b s₁ → b.listItems? = some [.sym n, e] → Bindings s₁ ns es r →
      Bindings s (n :: ns) (e :: es) r

theorem bindings_of_reads {names : List String} {inits : List Value} {s r : List Char}
    {ns : List String} {es : List Value} (h : (bindings names inits s).Reads (ns, es) r) :
    ∃ ns₁ es₁, ns = names.reverse ++ ns₁ ∧ es = inits.reverse ++ es₁ ∧ Bindings s ns₁ es₁ r := by
  rw [bindings] at h
  split at h
  · exact (Step.not_reads_fail h).elim
  · next c r₀ hs =>
    have hr := length_lt_of_skipBlank_eq_cons hs
    split at h
    · next hc =>
      subst hc
      obtain ⟨h₁, rfl⟩ := Step.Reads.of_ok h
      obtain ⟨rfl, rfl⟩ := Prod.mk.inj h₁
      exact ⟨[], [], by simp, by simp, .close hs⟩
    · next hc =>
      split at h
      · exact (Step.not_reads_fail h).elim
      · next b r₁ h₁ hd =>
        split at h
        · next n e hl =>
          have hlt : r₁.length < s.length := by omega
          have h' : (bindings (n :: names) (e :: inits) r₁).Reads (ns, es) r := h
          obtain ⟨ns₁, es₁, rfl, rfl, hbs⟩ := bindings_of_reads h'
          exact ⟨n :: ns₁, e :: es₁, by simp, by simp,
            .binding (form_reads_iff.mpr ⟨c, r₀, hs, hc, Step.Reads.of_eq hd⟩) hl hbs⟩
        · exact (Step.not_reads_fail h).elim
termination_by s.length

theorem bindings_of_grammar {s r : List Char} {ns : List String} {es : List Value}
    (h : Bindings s ns es r) :
    ∀ names inits, (bindings names inits s).Reads (names.reverse ++ ns, inits.reverse ++ es) r := by
  induction h with
  | close hs =>
    intro names inits
    simpa using bindings_close hs
  | binding hf hl _ ih =>
    intro names inits
    obtain ⟨c, r₀, hs, hc, hd⟩ := form_reads_iff.mp hf
    rw [bindings_item hs hc hd hl]
    simpa using ih (_ :: names) (_ :: inits)

/-- **Binding lists are read exactly.** -/
theorem bindings_reads_iff {s r : List Char} {ns : List String} {es : List Value} :
    (bindings [] [] s).Reads (ns, es) r ↔ Bindings s ns es r := by
  constructor
  · intro h
    obtain ⟨ns₁, es₁, rfl, rfl, hbs⟩ := bindings_of_reads h
    simpa using hbs
  · intro h
    simpa using bindings_of_grammar h [] []

/-! ### The three forms -/

theorem lambda_reads_iff {s rest : List Char} {w : Value} :
    (lambda s).Reads w rest ↔ ∃ r₁ ps r₂ b, skipBlank s = '(' :: r₁ ∧
      (params "lambda" [] r₁).Reads ps r₂ ∧ (body "lambda" r₂).Reads b rest ∧
      w = .closure 0 ps b none := by
  constructor
  · intro h
    rw [lambda] at h
    split at h
    · exact (Step.not_reads_fail h).elim
    · next c r₁ hs =>
      split at h
      · next hc =>
        subst hc
        split at h
        · exact (Step.not_reads_fail h).elim
        · next ps r₂ h₂ hp =>
          split at h
          · exact (Step.not_reads_fail h).elim
          · next b r₃ h₃ hb =>
            obtain ⟨rfl, rfl⟩ := Step.Reads.of_ok h
            exact ⟨r₁, ps, r₂, b, hs, Step.Reads.of_eq hp, Step.Reads.of_eq hb, rfl⟩
      · exact (Step.not_reads_fail h).elim
  · rintro ⟨r₁, ps, r₂, b, hs, hp, hb, rfl⟩
    exact lambda_reads hs hp hb

theorem letForm_reads_iff {s rest : List Char} {w : Value} :
    (letForm s).Reads w rest ↔ ∃ r₁ names inits r₂ b, skipBlank s = '(' :: r₁ ∧
      (bindings [] [] r₁).Reads (names, inits) r₂ ∧ (body "let" r₂).Reads b rest ∧
      w = .cons 0 (.closure 0 names b none) (.ofList 0 inits) := by
  constructor
  · intro h
    rw [letForm] at h
    split at h
    · exact (Step.not_reads_fail h).elim
    · next c r₁ hs =>
      split at h
      · next hc =>
        subst hc
        split at h
        · exact (Step.not_reads_fail h).elim
        · next names inits r₂ h₂ hbs =>
          split at h
          · exact (Step.not_reads_fail h).elim
          · next b r₃ h₃ hb =>
            obtain ⟨rfl, rfl⟩ := Step.Reads.of_ok h
            exact ⟨r₁, names, inits, r₂, b, hs, Step.Reads.of_eq hbs, Step.Reads.of_eq hb, rfl⟩
      · exact (Step.not_reads_fail h).elim
  · rintro ⟨r₁, names, inits, r₂, b, hs, hbs, hb, rfl⟩
    exact letForm_reads hs hbs hb

theorem defineProc_reads_iff {s rest : List Char} {w : Value} :
    (defineProc s).Reads w rest ↔ ∃ f r₁ ps r₂ b, (form s).Reads (.sym f) r₁ ∧
      (params "define" [] r₁).Reads ps r₂ ∧ (body "define" r₂).Reads b rest ∧
      w = .ofList 0 [.sym "DEFINE", .sym f, .closure 0 ps b none] := by
  constructor
  · intro h
    rw [defineProc] at h
    split at h
    · exact (Step.not_reads_fail h).elim
    · next c r₀ hs =>
      split at h
      · exact (Step.not_reads_fail h).elim
      · next hc =>
        split at h
        · exact (Step.not_reads_fail h).elim
        · next f r₁ h₁ hd =>
          split at h
          · exact (Step.not_reads_fail h).elim
          · next ps r₂ h₂ hp =>
            split at h
            · exact (Step.not_reads_fail h).elim
            · next b r₃ h₃ hb =>
              obtain ⟨rfl, rfl⟩ := Step.Reads.of_ok h
              exact ⟨f, r₁, ps, r₂, b, form_reads_iff.mpr ⟨c, r₀, hs, hc, Step.Reads.of_eq hd⟩,
                Step.Reads.of_eq hp, Step.Reads.of_eq hb, rfl⟩
        · exact (Step.not_reads_fail h).elim
  · rintro ⟨f, r₁, ps, r₂, b, hf, hp, hb, rfl⟩
    obtain ⟨c, r₀, hs, hc, hd⟩ := form_reads_iff.mp hf
    exact defineProc_reads hs hc hd hp hb

/-- What follows the head of a `lambda` form: after blanks and comments a parameter list, then one
datum, the body, then the `)` that closes the form, with `rest` after it; `w` is the closure
literal. -/
def LambdaShape (s : List Char) (w : Value) (rest : List Char) : Prop :=
  ∃ r₁ ps r₂ b r₃, skipBlank s = '(' :: r₁ ∧ Params r₁ ps r₂ ∧ (form r₂).Reads b r₃ ∧
    skipBlank r₃ = ')' :: rest ∧ w = .closure 0 ps b none

/-- What follows the head of a `let` form: after blanks and comments a binding list, then one datum,
the body, then the `)` that closes the form, with `rest` after it; `w` is the closure of the names
and the body, applied to the initialisers. -/
def LetShape (s : List Char) (w : Value) (rest : List Char) : Prop :=
  ∃ r₁ names inits r₂ b r₃, skipBlank s = '(' :: r₁ ∧ Bindings r₁ names inits r₂ ∧
    (form r₂).Reads b r₃ ∧ skipBlank r₃ = ')' :: rest ∧
    w = .cons 0 (.closure 0 names b none) (.ofList 0 inits)

/-- What follows `(define (`: a datum read as a symbol, the name, the rest of the parameter list,
then one datum, the body, then the `)` that closes the form, with `rest` after it; `w` defines the
name as the closure. -/
def DefineShape (s : List Char) (w : Value) (rest : List Char) : Prop :=
  ∃ f r₁ ps r₂ b r₃, (form s).Reads (.sym f) r₁ ∧ Params r₁ ps r₂ ∧ (form r₂).Reads b r₃ ∧
    skipBlank r₃ = ')' :: rest ∧ w = .ofList 0 [.sym "DEFINE", .sym f, .closure 0 ps b none]

theorem lambda_iff_shape {s rest : List Char} {w : Value} :
    (lambda s).Reads w rest ↔ LambdaShape s w rest := by
  rw [lambda_reads_iff]
  constructor
  · rintro ⟨r₁, ps, r₂, b, hs, hp, hb, rfl⟩
    obtain ⟨r₃, hf, hcl⟩ := body_reads_iff.mp hb
    exact ⟨r₁, ps, r₂, b, r₃, hs, params_reads_iff.mp hp, hf, hcl, rfl⟩
  · rintro ⟨r₁, ps, r₂, b, r₃, hs, hp, hf, hcl, rfl⟩
    exact ⟨r₁, ps, r₂, b, hs, params_reads_iff.mpr hp, body_reads_iff.mpr ⟨r₃, hf, hcl⟩, rfl⟩

theorem letForm_iff_shape {s rest : List Char} {w : Value} :
    (letForm s).Reads w rest ↔ LetShape s w rest := by
  rw [letForm_reads_iff]
  constructor
  · rintro ⟨r₁, names, inits, r₂, b, hs, hbs, hb, rfl⟩
    obtain ⟨r₃, hf, hcl⟩ := body_reads_iff.mp hb
    exact ⟨r₁, names, inits, r₂, b, r₃, hs, bindings_reads_iff.mp hbs, hf, hcl, rfl⟩
  · rintro ⟨r₁, names, inits, r₂, b, r₃, hs, hbs, hf, hcl, rfl⟩
    exact ⟨r₁, names, inits, r₂, b, hs, bindings_reads_iff.mpr hbs,
      body_reads_iff.mpr ⟨r₃, hf, hcl⟩, rfl⟩

theorem defineProc_iff_shape {s rest : List Char} {w : Value} :
    (defineProc s).Reads w rest ↔ DefineShape s w rest := by
  rw [defineProc_reads_iff]
  constructor
  · rintro ⟨f, r₁, ps, r₂, b, hf, hp, hb, rfl⟩
    obtain ⟨r₃, hbf, hcl⟩ := body_reads_iff.mp hb
    exact ⟨f, r₁, ps, r₂, b, r₃, hf, params_reads_iff.mp hp, hbf, hcl, rfl⟩
  · rintro ⟨f, r₁, ps, r₂, b, r₃, hf, hp, hbf, hcl, rfl⟩
    exact ⟨f, r₁, ps, r₂, b, hf, params_reads_iff.mpr hp, body_reads_iff.mpr ⟨r₃, hbf, hcl⟩, rfl⟩

/-- **The rewritten forms are read exactly when they are well shaped.** Take a text that starts,
after blanks and comments, with `(` and then a datum read as the symbol `LAMBDA`, as `LET`, or as
`DEFINE` with a `(` after it. The text is read as a datum, leaving `rest`, exactly when what follows
the head has the shape of its form, closed by a `)` just before `rest`; the datum is then the closure
literal, the closure applied to the initialisers, or the `DEFINE` of the name as a closure. -/
theorem derived_forms_read_iff_shaped :
    (∀ {s r₀ r₁ rest : List Char} {w : Value}, skipBlank s = '(' :: r₀ →
      (form r₀).Reads (.sym "LAMBDA") r₁ → ((form s).Reads w rest ↔ LambdaShape r₁ w rest)) ∧
    (∀ {s r₀ r₁ rest : List Char} {w : Value}, skipBlank s = '(' :: r₀ →
      (form r₀).Reads (.sym "LET") r₁ → ((form s).Reads w rest ↔ LetShape r₁ w rest)) ∧
    (∀ {s r₀ r₁ r₂ rest : List Char} {w : Value}, skipBlank s = '(' :: r₀ →
      (form r₀).Reads (.sym "DEFINE") r₁ → skipBlank r₁ = '(' :: r₂ →
      ((form s).Reads w rest ↔ DefineShape r₂ w rest)) := by
  refine ⟨fun hopen hhead => ?_, fun hopen hhead => ?_, fun hopen hhead hparen => ?_⟩
  · obtain ⟨c, r, hs, hc, hd⟩ := form_reads_iff.mp hhead
    rw [form_open hopen, list_lambda hs hc hd rfl, lambda_iff_shape]
  · obtain ⟨c, r, hs, hc, hd⟩ := form_reads_iff.mp hhead
    rw [form_open hopen, list_let hs hc hd rfl, letForm_iff_shape]
  · obtain ⟨c, r, hs, hc, hd⟩ := form_reads_iff.mp hhead
    rw [form_open hopen, list_define hs hc hd rfl hparen, defineProc_iff_shape]

/-- `(lambda (x) x)` is read as the closure with the parameter `X` and the body `X` exactly when it
has the shape of a `lambda` form. -/
theorem identity_lambda_shaped :
    skipBlank "(lambda (x) x)".toList = '(' :: "lambda (x) x)".toList ∧
      (form "lambda (x) x)".toList).Reads (.sym "LAMBDA") " (x) x)".toList ∧
      ((form "(lambda (x) x)".toList).Reads (.closure 0 ["X"] (.sym "X") none) [] ↔
        LambdaShape " (x) x)".toList (.closure 0 ["X"] (.sym "X") none) []) := by
  have hopen : skipBlank "(lambda (x) x)".toList = '(' :: "lambda (x) x)".toList := by decide
  have hlam : classify ['l', 'a', 'm', 'b', 'd', 'a'] = .sym "LAMBDA" := by
    rw [classify_of_not_numeral (by decide) (by decide)]
    rfl
  have hhead : (form "lambda (x) x)".toList).Reads (.sym "LAMBDA") " (x) x)".toList := by
    show (form ('l' :: (['a', 'm', 'b', 'd', 'a'] ++ " (x) x)".toList))).Reads _ _
    rw [form_reads (skipBlank_of_not_blank _ (by decide) (by decide)), ← hlam]
    exact datum_token (by simp [isDelimiter, isBlank]) (by decide) (by simp) (by decide)
  exact ⟨hopen, hhead, derived_forms_read_iff_shaped.1 hopen hhead⟩

end MiniScheme.Read
