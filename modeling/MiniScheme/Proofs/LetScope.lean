import MiniScheme.Proofs.Combination
import MiniScheme.Proofs.Confine
import MiniScheme.Proofs.ReadStep
import MiniScheme.Proofs.FrameEffect
/-!
# A `let` opens a fresh scope

The reader turns `(let ((v₁ e₁) … (vₙ eₙ)) b)` into `((lambda (v₁ … vₙ) b) e₁ … eₙ)`, with as many
names as initialisers (`Read.letForm_shape`). Evaluating that form is a call of a closure written
as the head: the initialisers are evaluated in the caller's frame from left to right, the first
failure ending the form, and the body runs in a new frame nested in the caller's frame, which binds
each name to its initialiser's value, the last binding of a repeated name winning
(`Frame.get?_setAll`).

Main statement: `let_opens_fresh_scope`. The `let` itself binds nothing in the caller's frame:
when the body starts, every frame that existed is as the initialisers left it, and the body, with
any `DEFINE` in it, runs in the new frame. The body can reach the caller's frame only through a
frame held as a value (`EVAL` with an environment argument; `let_body_defines_through_env` is such
a run): where neither the body, nor the initialisers' values, nor the store when the body starts
holds a frame, every frame that existed then is, after the whole `let`, as the initialisers left it
(`Eval.evalWith_keeps_other_frames`).
-/

namespace MiniScheme

/-! ### The frame of a `let` -/

namespace Frame

/-- Binding `k` in a frame changes what `k` gives and nothing else: dropping the old bindings of `k`
leaves those of every other name. -/
theorem get?_set (fr : Frame) (k : String) (v : Value) (k' : String) :
    (fr.set k v).get? k' = if k' = k then some v else fr.get? k' := by
  obtain ⟨parent, bs⟩ := fr
  simp only [set, get?]
  by_cases hk : k' = k
  · subst hk
    simp
  · have hne : (k' == k) = false := by simpa using hk
    rw [List.lookup_cons, hne, if_neg hk]
    induction bs with
    | nil => rfl
    | cons b bs ih =>
      obtain ⟨k₁, w⟩ := b
      by_cases h₁ : k₁ = k
      · subst h₁
        have hne' : (k' == k₁) = false := hne
        simp [List.lookup_cons, hne', ih]
      · have hkeep : (k₁ != k) = true := by simpa using h₁
        simp only [List.filter_cons, hkeep, if_true, List.lookup_cons]
        cases k' == k₁ <;> simp [ih]

/-- Binding names in turn, the last binding of a name wins over the earlier ones and over what the
frame bound before. -/
theorem get?_setAll (kvs : List (String × Value)) (fr : Frame) (k : String) :
    (fr.setAll kvs).get? k = (kvs.reverse.lookup k).or (fr.get? k) := by
  induction kvs generalizing fr with
  | nil => simp [setAll]
  | cons kv kvs ih =>
    obtain ⟨k₁, v⟩ := kv
    show ((fr.set k₁ v).setAll kvs).get? k = _
    rw [ih, get?_set, List.reverse_cons, List.lookup_append, Option.or_assoc]
    congr 1
    by_cases hk : k = k₁
    · subst hk
      simp
    · have hne : (k == k₁) = false := by simpa using hk
      simp [List.lookup_cons, hne, hk]

@[simp] theorem parent_setAll (kvs : List (String × Value)) (fr : Frame) :
    (fr.setAll kvs).parent = fr.parent := by
  induction kvs generalizing fr with
  | nil => rfl
  | cons kv kvs ih => exact ih (fr.set kv.1 kv.2)

end Frame

/-! ### Reading a `let` form -/

namespace Read

theorem list_let {cs r r₁ : List Char} {c : Char} {x : Value} (h : skipBlank cs = c :: r)
    (hc : c ≠ ')') (hd : (datum c r).Reads x r₁) (hlet : x.symbol? = some "LET")
    {w : Value} {r' : List Char} : (list cs).Reads w r' ↔ (letForm r₁).Reads w r' := by
  have hlam : x.symbol? ≠ some "LAMBDA" := by rw [hlet]; decide
  rw [list]
  split
  · next h' => rw [h] at h'; cases h'
  · next c' r₀ h' =>
    rw [h] at h'
    cases h'
    rw [if_neg hc, hd.eq]
    simp only [if_neg hlam, if_pos hlet]
    exact Iff.rfl

/-- A text that starts with `(let` and a delimiter is read as a `let` form. -/
theorem form_let {rest r : List Char} {w : Value} (hrest : atDelimiter rest = true) :
    (form ("(let".toList ++ rest)).Reads w r ↔ (letForm rest).Reads w r := by
  have hskip : skipBlank ('(' :: 'l' :: 'e' :: 't' :: rest) = '(' :: 'l' :: 'e' :: 't' :: rest :=
    skipBlank_of_not_blank _ (by decide) (by decide)
  have hhead : (datum 'l' (['e', 't'] ++ rest)).Reads (.sym "LET") rest := by
    have hlet : classify ['l', 'e', 't'] = .sym "LET" := by
      rw [classify_of_not_numeral (by decide) (by decide)]
      rfl
    rw [← hlet]
    exact datum_token (by simp [isDelimiter, isBlank]) (by decide) (by simp) hrest
  have hlist : (list ('l' :: 'e' :: 't' :: rest)).Reads w r ↔ (letForm rest).Reads w r :=
    list_let (skipBlank_of_not_blank ('e' :: 't' :: rest) (by decide) (by decide)) (by decide) hhead rfl
  show (form ('(' :: 'l' :: 'e' :: 't' :: rest)).Reads w r ↔ _
  rw [form_reads hskip, datum_lparen]
  exact hlist

theorem bindings_close {names : List String} {inits : List Value} {cs r : List Char}
    (h : skipBlank cs = ')' :: r) : (bindings names inits cs).Reads (names.reverse, inits.reverse) r := by
  rw [bindings]
  split
  · next h' => rw [h] at h'; cases h'
  · next c r' h' =>
    rw [h] at h'
    cases h'
    simp

theorem letForm_reads {cs r r₁ r₂ : List Char} {names : List String} {inits : List Value}
    {b : Value} (h : skipBlank cs = '(' :: r) (hbs : (bindings [] [] r).Reads (names, inits) r₁)
    (hb : (body "let" r₁).Reads b r₂) :
    (letForm cs).Reads (.cons 0 (.closure 0 names b none) (.ofList 0 inits)) r₂ := by
  rw [letForm]
  split
  · next h' => rw [h] at h'; cases h'
  · next c r' h' =>
    rw [h] at h'
    cases h'
    simp only [if_true]
    rw [hbs.eq]
    simp only
    rw [hb.eq]
    simp

/-- The binding list reads one name for each initialiser. -/
theorem bindings_length {names : List String} {inits : List Value} {cs : List Char}
    {ns : List String} {es : List Value} {r : List Char}
    (h : (bindings names inits cs).Reads (ns, es) r) (hl : names.length = inits.length) :
    ns.length = es.length := by
  rw [bindings] at h
  split at h
  · exact (Step.not_reads_fail h).elim
  · next c r₀ hs =>
    have := length_lt_of_skipBlank_eq_cons hs
    split at h
    · obtain ⟨h₁, -⟩ := Step.Reads.of_ok h
      obtain ⟨rfl, rfl⟩ := Prod.mk.inj h₁
      simp [hl]
    · split at h
      · exact (Step.not_reads_fail h).elim
      · next b r₁ h₁ _ =>
        split at h
        · next n e _ =>
          have h' : (bindings (n :: names) (e :: inits) r₁).Reads (ns, es) r := h
          exact bindings_length h' (by simp [hl])
        · exact (Step.not_reads_fail h).elim
termination_by cs.length

/-- **A `let` is a closure applied to its initialisers.** A `let` form reads as
`((lambda (v₁ … vₙ) b) e₁ … eₙ)`, with one name for each initialiser. -/
theorem letForm_shape {cs r : List Char} {d : Value} (h : (letForm cs).Reads d r) :
    ∃ names inits body, d = .cons 0 (.closure 0 names body none) (.ofList 0 inits) ∧
      names.length = inits.length := by
  rw [letForm] at h
  split at h
  · exact (Step.not_reads_fail h).elim
  · split at h
    · split at h
      · exact (Step.not_reads_fail h).elim
      · next names inits r₁ h₁ hbs =>
        have hlen : names.length = inits.length := bindings_length ⟨by rw [hbs], rfl⟩ rfl
        split at h
        · exact (Step.not_reads_fail h).elim
        · next b r₂ h₂ _ =>
          obtain ⟨h₃, -⟩ := Step.Reads.of_ok h
          exact ⟨names, inits, b, h₃.symm, hlen⟩
    · exact (Step.not_reads_fail h).elim

end Read

/-! ### Evaluating a `let` -/

namespace Eval

/-- A closure applied to as many arguments as it has parameters runs its body in a new frame nested
in `scope` that binds the parameters to the arguments. -/
theorem applyClosure_of_length {ev : Evaluator} {name : String} {ps : List String} {b : Value}
    {scope : Nat} {args : List Value} (h : ps.length = args.length) :
    applyClosure ev name ps b scope args = Exec.child scope (ps.zip args) >>= ev b := by
  rw [applyClosure, if_pos h]

/-- A new frame with its bindings: pushed onto the store, at the first free index. -/
theorem child_bind {ev : Evaluator} {b : Value} {scope : Nat} {kvs : List (String × Value)}
    (m : Machine) :
    (Exec.child scope kvs >>= ev b) m =
      ev b m.store.frames.size
        { m with store := ⟨m.store.frames.push ((Frame.mk (some scope) []).setAll kvs)⟩ } :=
  rfl

/-- A form whose head is a closure is a call of that closure, in the caller's frame. -/
theorem step_closure_head {ev : Evaluator} (names : List String) (inits : List Value) (body : Value)
    (E : Nat) (m : Machine) :
    step ev (.cons 0 (.closure 0 names body none) (.ofList 0 inits)) E m =
      (inits.mapM (ev · E) >>= applyClosure ev "lambda" names body E) m := by
  rw [step_callee (.closure 0 names body none), evalOperands_of_listItems? (Value.listItems?_ofList 0 inits)]

/-- When the initialisers of a closure at the head all succeed, one for each name, its body runs in
a new frame nested in the caller's frame that binds the names to their values. -/
theorem step_closure_head_of_ok {ev : Evaluator} {names : List String} {inits : List Value}
    {body : Value} (hlen : names.length = inits.length) {E : Nat} {m m₁ : Machine}
    {vals : List Value} (hvals : (inits.mapM (ev · E)) m = (.ok vals, m₁)) :
    step ev (.cons 0 (.closure 0 names body none) (.ofList 0 inits)) E m =
      ev body m₁.store.frames.size { m₁ with store := (m₁.store.child E (names.zip vals)).2 } := by
  have hvlen : names.length = vals.length := hlen.trans (Exec.length_of_mapM_ok hvals).symm
  rw [step_closure_head, Exec.bind_ok hvals, applyClosure_of_length hvlen, child_bind]
  rfl

end Eval

/-- **A `let` opens a fresh scope.** A text `(let …)` that reads without error is a closure applied
to its initialisers, with one name for each. Evaluated in the frame `E`, the initialisers are
evaluated in `E` from left to right; the first that fails ends the form with its error and the
machine it left. When all succeed, the body is evaluated in a new frame, pushed onto the store
so that every frame that existed, `E` included, is as the initialisers left it; the new frame is
nested in `E` and binds each name to its initialiser's value, the last binding of a repeated name
winning. No arity error can arise. Where the body, the initialisers' values and the store the
initialisers left hold no frame as a value, the whole `let`, at any depth, leaves every frame that
existed when the body started as the initialisers left it. -/
theorem let_opens_fresh_scope {rest r : List Char} {d : Value} (hrest : Read.atDelimiter rest = true)
    (hread : (Read.form ("(let".toList ++ rest)).Reads d r) :
    ∃ names inits body, d = .cons 0 (.closure 0 names body none) (.ofList 0 inits) ∧
      names.length = inits.length ∧
      (∀ (ev : Evaluator) (E : Nat) (m : Machine),
        (∀ pre y post vs m₁ e m₂, inits = pre ++ y :: post → (pre.mapM (ev · E)) m = (.ok vs, m₁) →
          ev y E m₁ = (.error e, m₂) → Eval.step ev d E m = (.error e, m₂)) ∧
        (∀ vals m₁, (inits.mapM (ev · E)) m = (.ok vals, m₁) →
          ∃ fr : Frame, Eval.step ev d E m =
              ev body m₁.store.frames.size { m₁ with store := ⟨m₁.store.frames.push fr⟩ } ∧
            fr.parent = some E ∧ ∀ k, fr.get? k = ((names.zip vals).reverse.lookup k))) ∧
      (∀ (n E : Nat) (m : Machine) (vals : List Value) (m₁ : Machine),
        (inits.mapM (Eval.evalWith n · E)) m = (.ok vals, m₁) → body.EnvFree →
        (∀ v ∈ vals, v.EnvFree) → m₁.store.BindsOnly Value.EnvFree →
        ∀ f < m₁.store.frames.size,
          (Eval.evalWith (n + 1) d E m).2.store.frames[f]? = m₁.store.frames[f]?) := by
  obtain ⟨names, inits, body, rfl, hlen⟩ := Read.letForm_shape ((Read.form_let hrest).mp hread)
  refine ⟨names, inits, body, rfl, hlen, fun ev E m => ⟨?_, ?_⟩, ?_⟩
  · intro pre y post vs m₁ e m₂ hsplit hpre hy
    rw [Eval.step_closure_head, Exec.mapM_bind_of_error hsplit hpre hy]
  · intro vals m₁ hvals
    refine ⟨(Frame.mk (some E) []).setAll (names.zip vals), Eval.step_closure_head_of_ok hlen hvals,
      by simp, fun k => ?_⟩
    rw [Frame.get?_setAll]
    simp [Frame.get?]
  · intro n E m vals m₁ hvals hbody hvals' hst f hf
    have hkvs : ∀ kv ∈ names.zip vals, kv.2.EnvFree := fun kv hkv => hvals' kv.2 (List.of_mem_zip hkv).2
    have hst₁ : (m₁.store.child E (names.zip vals)).2.BindsOnly Value.EnvFree := hst.child hkvs
    have hkeep := Eval.evalWith_keeps_other_frames n body m₁.store.frames.size
      { m₁ with store := (m₁.store.child E (names.zip vals)).2 } hbody hst₁ f
      (by simp only [Store.size_child]; omega) (by omega)
    have hold : (m₁.store.child E (names.zip vals)).2.frames[f]? = m₁.store.frames[f]? := by
      rw [Store.frames_child, if_neg (by omega)]
    show (Eval.step (Eval.evalWith n) _ E m).2.store.frames[f]? = _
    rw [Eval.step_closure_head_of_ok hlen hvals, hkeep]
    exact hold

/-- `(let () 0)`: no bindings, and the body `0`. -/
theorem let_without_bindings_opens_scope :
    Read.atDelimiter " () 0)".toList = true ∧
      (Read.form ("(let".toList ++ " () 0)".toList)).Reads
        (.cons 0 (.closure 0 [] (.int 0) none) (.ofList 0 [])) [] ∧
      ∃ names inits body, Value.cons 0 (.closure 0 [] (.int 0) none) (.ofList 0 []) =
        .cons 0 (.closure 0 names body none) (.ofList 0 inits) ∧ names.length = inits.length := by
  have hrest : Read.atDelimiter " () 0)".toList = true := by decide
  have hbody : (Read.body "let" " 0)".toList).Reads (.int 0) [] := by
    have hzero : (Read.datum '0' ([] ++ [')'])).Reads (.int 0) [')'] :=
      Read.datum_token (by simp [Read.isDelimiter, Read.isBlank]) (by decide) (by decide) (by decide)
    exact Read.body_reads (by decide) (by decide) hzero (Read.expectClose_close (by decide))
  have hread : (Read.form ("(let".toList ++ " () 0)".toList)).Reads
      (.cons 0 (.closure 0 [] (.int 0) none) (.ofList 0 [])) [] :=
    (Read.form_let hrest).mpr
      (Read.letForm_reads (r := ") 0)".toList) (by decide)
        (Read.bindings_close (r := " 0)".toList) (by decide)) hbody)
  obtain ⟨names, inits, body, hd, hlen, -⟩ := let_opens_fresh_scope hrest hread
  exact ⟨hrest, hread, names, inits, body, hd, hlen⟩

/-- After `(define g (env))` in the global frame, the `let` without bindings
`(let () (eval (quote (define y 1)) g))` binds `Y` in the global frame: its body reaches the frame
through `g`. -/
theorem let_body_defines_through_env :
    ((Machine.run "(define g (env))" 0 Machine.init).2.store.lookup 0 "Y").isNone = true ∧
      ((Machine.run "(let () (eval (quote (define y 1)) g))" 0
        (Machine.run "(define g (env))" 0 Machine.init).2).2.store.lookup 0 "Y").isSome = true := by
  decide +kernel

end MiniScheme
