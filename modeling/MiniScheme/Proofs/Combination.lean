import MiniScheme.Proofs.Keeps
import MiniScheme.Eval.Form
/-!
# How a combination is evaluated

A combination `(h a₁ … aₙ)` is decided by its head. Apart from the special forms, a head that is a
closure, a primitive, the name of a primitive, or a name bound to a procedure makes a call
(`Eval.Callee`): the operands are evaluated in the caller's frame from left to right, and the
procedure is applied to their values. The special forms `DEFINE`, `QUOTE`, `QUASIQUOTE`, `IF` and
`BEGIN` take their operands unevaluated.

Main statements:

* `call_evaluates_operands_in_order`: a call is its operands' evaluation in order, then the
  application; the first operand that fails ends the call with its error, with the machine it left,
  before any later operand and before the procedure (and so before its arity check).
* `malformed_forms_fail_first`: a call or special form whose operands are no proper list, or a
  special form whose operands have the wrong shape, fails as malformed and leaves the machine as it
  was; a `DEFINE` whose value fails binds nothing.
-/

namespace MiniScheme

/-! ### Computations in sequence -/

namespace Exec

variable {α β : Type}

/-- A sequence of computations stops at the first that fails: the ones after it do not run. -/
theorem mapM_append_error {f : α → Exec β} {pre post : List α} {y : α} {vs : List β}
    {m m₁ m₂ : Machine} {e : Error} (hpre : (pre.mapM f) m = (.ok vs, m₁))
    (hy : f y m₁ = (.error e, m₂)) : ((pre ++ y :: post).mapM f) m = (.error e, m₂) := by
  rw [List.mapM_append, bind_ok hpre, List.mapM_cons, bind_assoc, bind_error hy]

/-- A sequence and what follows it stop at the first computation of the sequence that fails. -/
theorem mapM_bind_of_error {γ : Type} {f : α → Exec β} {k : List β → Exec γ} {xs pre post : List α}
    {y : α} {vs : List β} {m m₁ m₂ : Machine} {e : Error} (hsplit : xs = pre ++ y :: post)
    (hpre : (pre.mapM f) m = (.ok vs, m₁)) (hy : f y m₁ = (.error e, m₂)) :
    (xs.mapM f >>= k) m = (.error e, m₂) := by
  rw [hsplit, bind_error (mapM_append_error hpre hy)]

/-- A lookup reads the store and leaves the machine as it was. -/
theorem lookup_apply (frame : Nat) (k : String) (m : Machine) :
    Exec.lookup frame k m = (.ok (m.store.lookup frame k), m) :=
  rfl

/-- The values of a sequence of computations that all succeed, one for each. -/
theorem length_of_mapM_ok {f : α → Exec β} :
    ∀ {xs : List α} {vs : List β} {m m₁ : Machine}, (xs.mapM f) m = (.ok vs, m₁) →
      vs.length = xs.length
  | [], vs, m, m₁, h => by
    rw [List.mapM_nil, pure_apply] at h
    cases h
    rfl
  | x :: xs, vs, m, m₁, h => by
    rw [List.mapM_cons] at h
    match hx : f x m with
    | (.ok v, m') =>
      rw [bind_ok hx] at h
      match hxs : (xs.mapM f) m' with
      | (.ok ws, m'') =>
        rw [bind_ok hxs, pure_apply] at h
        cases h
        simp [length_of_mapM_ok hxs]
      | (.error _, _) => rw [bind_error hxs] at h; cases h
      | (.exhausted, _) => rw [bind_exhausted hxs] at h; cases h
    | (.error _, _) => rw [bind_error hx] at h; cases h
    | (.exhausted, _) => rw [bind_exhausted hx] at h; cases h

end Exec

/-! ### Operand lists -/

/-- The elements of a cell's list are its first element and the elements of its rest. -/
theorem Value.listItems?_cons (a : Nat) (x d : Value) :
    (Value.cons a x d).listItems? = (x :: ·) <$> d.listItems? := by
  cases d with
  | nil => simp [Value.listItems?, Value.terminator?, Value.items]
  | cons a' y d' =>
    simp only [Value.listItems?, Value.terminator?, Value.items_cons]
    split <;> simp_all
  | _ => simp [Value.listItems?, Value.terminator?]

/-- A list built by `ofList` is proper, with the elements it was built from. -/
theorem Value.listItems?_ofList (a : Nat) (xs : List Value) :
    (Value.ofList a xs).listItems? = some xs := by
  induction xs with
  | nil => simp [Value.ofList, Value.dotted, Value.listItems?]
  | cons x xs ih =>
    cases xs with
    | nil => simp [Value.ofList, Value.dotted, Value.listItems?, Value.terminator?, Value.items]
    | cons y ys =>
      have hcons : Value.ofList a (x :: y :: ys) = .cons a x (Value.ofList a (y :: ys)) := rfl
      rw [hcons, Value.listItems?_cons, ih]
      rfl

namespace Eval

/-- The operands of a form are the elements of its rest when that is a proper list, and otherwise
the form is malformed under its own name. -/
theorem operands_eq_listItems? (name : String) (rest : Value) :
    operands name rest =
      match rest.listItems? with
      | some xs => .ok xs
      | none => .error (.malformedForm name) := by
  cases rest with
  | nil => rfl
  | cons a x d =>
    rw [operands, operands_eq_listItems? name d, Value.listItems?_cons]
    cases d.listItems? <;> rfl
  | _ => rfl

theorem operands_of_listItems? {name : String} {rest : Value} {xs : List Value}
    (h : rest.listItems? = some xs) : operands name rest = .ok xs := by
  rw [operands_eq_listItems?, h]

theorem operands_of_improper {name : String} {rest : Value} (h : rest.listItems? = none) :
    operands name rest = .error (.malformedForm name) := by
  rw [operands_eq_listItems?, h]

/-- The operands of a proper list, evaluated from left to right in `frame`. -/
theorem evalOperands_of_listItems? {ev : Evaluator} {frame : Nat} {name : String} {rest : Value}
    {xs : List Value} (h : rest.listItems? = some xs) :
    evalOperands ev frame name rest = xs.mapM (ev · frame) := by
  rw [evalOperands, operands_of_listItems? h]
  exact pure_bind _ _

/-! ### What a head calls -/

/-- A cell is a combination, decided by its head. -/
theorem step_cons (ev : Evaluator) (a : Nat) (h rest : Value) (frame : Nat) :
    step ev (.cons a h rest) frame = combination ev h rest frame :=
  rfl

/-- The heads that are special forms, whatever the frames bind. -/
def specialForms : List String :=
  ["DEFINE", "QUOTE", "QUASIQUOTE", "IF", "BEGIN"]

/-- A symbol that is no special form heads a call. -/
theorem combination_sym {ev : Evaluator} {name : String} (hn : name ∉ specialForms) (rest : Value)
    (frame : Nat) : combination ev (.sym name) rest frame = call ev name rest frame := by
  simp only [specialForms, List.mem_cons, List.not_mem_nil, or_false, not_or] at hn
  obtain ⟨h1, h2, h3, h4, h5⟩ := hn
  simp only [combination, if_neg h1, if_neg (not_or.2 ⟨h2, h3⟩), if_neg h4, if_neg h5]

/-- `Callee ev E st head name apply`: in the frame `E` of the store `st`, a combination headed by
`head` is a call whose errors name it `name`, and which applies its procedure to the operands'
values by `apply`. A closure written as the head runs in the caller's frame; the name of a primitive
calls the primitive even where a frame binds the name; another name calls what `E` binds it to, a
closure in the frame it captured. -/
inductive Callee (ev : Evaluator) (E : Nat) (st : Store) :
    Value → String → (List Value → Exec Value) → Prop
  | closure (a : Nat) (ps : List String) (b : Value) (s : Option Nat) :
    Callee ev E st (.closure a ps b s) "lambda" (applyClosure ev "lambda" ps b E)
  | prim (p : Primitive) : Callee ev E st (.prim p) "procedure" (applyPrimitive ev p · E)
  | named {name : String} {p : Primitive} (hn : name ∉ specialForms)
    (hp : Primitive.named? name = some p) :
    Callee ev E st (.sym name) name (applyPrimitive ev p · E)
  | boundClosure {name : String} {a : Nat} {ps : List String} {b : Value} {s : Option Nat}
    (hn : name ∉ specialForms) (hp : Primitive.named? name = none)
    (hb : st.lookup E name = some (.closure a ps b s)) :
    Callee ev E st (.sym name) name (applyClosure ev name ps b (s.getD E))
  | boundPrim {name : String} {p : Primitive} (hn : name ∉ specialForms)
    (hp : Primitive.named? name = none) (hb : st.lookup E name = some (.prim p)) :
    Callee ev E st (.sym name) name (applyPrimitive ev p · E)

/-- A call looks up its procedure without changing the machine, then evaluates its operands and
applies the procedure. -/
theorem step_callee {ev : Evaluator} {E a : Nat} {h rest : Value} {name : String}
    {apply : List Value → Exec Value} {m : Machine} (hc : Callee ev E m.store h name apply) :
    step ev (.cons a h rest) E m = (evalOperands ev E name rest >>= apply) m := by
  rw [step_cons]
  cases hc with
  | closure => rfl
  | prim => rfl
  | named hn hp =>
    rw [combination_sym hn, call, hp]
  | boundClosure hn hp hb =>
    rw [combination_sym hn, call, hp]
    show (Exec.lookup E name >>= _) m = _
    rw [Exec.bind_ok (Exec.lookup_apply E name m), hb]
  | boundPrim hn hp hb =>
    rw [combination_sym hn, call, hp]
    show (Exec.lookup E name >>= _) m = _
    rw [Exec.bind_ok (Exec.lookup_apply E name m), hb]

/-! ### The special forms -/

section Special
variable {ev : Evaluator} {rest : Value} {frame : Nat}

theorem combination_define : combination ev (.sym "DEFINE") rest frame = define ev rest frame := by
  simp [combination]

theorem combination_quote {kw : String} (hkw : kw = "QUOTE" ∨ kw = "QUASIQUOTE") :
    combination ev (.sym kw) rest frame = quote kw rest := by
  rcases hkw with rfl | rfl <;> simp [combination]

theorem combination_if : combination ev (.sym "IF") rest frame = conditional ev rest frame := by
  simp [combination]

theorem combination_begin : combination ev (.sym "BEGIN") rest frame = sequence ev rest frame := by
  simp [combination]

end Special

/-- `HeadShape ev E st head name shape`: in the frame `E` of the store `st`, a combination headed
by `head` checks its operands before it evaluates any: they must form a proper list whose elements
pass `shape`, and otherwise the form is malformed under the name `name`. A call accepts any number
of operands, `DEFINE` a symbol and an expression, a quotation one datum, `IF` two or three forms,
and `BEGIN` any number. -/
inductive HeadShape (ev : Evaluator) (E : Nat) (st : Store) :
    Value → String → (List Value → Prop) → Prop
  | call {h : Value} {name : String} {apply : List Value → Exec Value} :
    Callee ev E st h name apply → HeadShape ev E st h name fun _ => True
  | define : HeadShape ev E st (.sym "DEFINE") "define" fun xs => ∃ n x, xs = [.sym n, x]
  | quote {kw : String} (hkw : kw = "QUOTE" ∨ kw = "QUASIQUOTE") :
    HeadShape ev E st (.sym kw) kw fun xs => xs.length = 1
  | conditional : HeadShape ev E st (.sym "IF") "if" fun xs => xs.length = 2 ∨ xs.length = 3
  | sequence : HeadShape ev E st (.sym "BEGIN") "begin" fun _ => True

/-- Operands that form no proper list end the form before anything else runs. -/
theorem ofExcept_operands_bind_of_improper {α : Type} {name : String} {rest : Value}
    {k : List Value → Exec α} {m : Machine} (h : rest.listItems? = none) :
    (Exec.ofExcept (operands name rest) >>= k) m = (.error (.eval (.malformedForm name)), m) := by
  rw [operands_of_improper h]
  rfl

/-- The operands of a proper list go to the rest of the form unevaluated. -/
theorem ofExcept_operands_bind_of_listItems? {α : Type} {name : String} {rest : Value}
    {xs : List Value} {k : List Value → Exec α} (h : rest.listItems? = some xs) :
    Exec.ofExcept (operands name rest) >>= k = k xs := by
  rw [operands_of_listItems? h]
  exact pure_bind _ _

/-- A form whose operands are no proper list, or fail the shape its head asks for, is malformed: it
fails under its own name and leaves the machine as it was. Improper operands stop every head at
`operands`; proper ones fail the head's shape. -/
theorem step_malformed {ev : Evaluator} {E a : Nat} {h rest : Value} {name : String}
    {shape : List Value → Prop} {m : Machine} (hs : HeadShape ev E m.store h name shape)
    (hbad : ∀ xs, rest.listItems? = some xs → ¬ shape xs) :
    step ev (.cons a h rest) E m = (.error (.eval (.malformedForm name)), m) := by
  cases hitems : rest.listItems? with
  | none =>
    cases hs with
    | call hc =>
      rw [step_callee hc, evalOperands, bind_assoc, ofExcept_operands_bind_of_improper hitems]
    | define =>
      rw [step_cons, combination_define, define, ofExcept_operands_bind_of_improper hitems]
    | quote hkw =>
      rw [step_cons, combination_quote hkw, quote, ofExcept_operands_bind_of_improper hitems]
    | conditional =>
      rw [step_cons, combination_if, conditional, ofExcept_operands_bind_of_improper hitems]
    | sequence =>
      rw [step_cons, combination_begin, sequence, ofExcept_operands_bind_of_improper hitems]
  | some xs =>
    have hx := hbad xs hitems
    cases hs with
    | call => exact absurd trivial hx
    | define =>
      rw [step_cons, combination_define, define, ofExcept_operands_bind_of_listItems? hitems]
      split
      · next n x => exact absurd ⟨n, x, rfl⟩ hx
      · rfl
    | quote hkw =>
      rw [step_cons, combination_quote hkw, quote, ofExcept_operands_bind_of_listItems? hitems]
      split
      · exact absurd rfl hx
      · rfl
    | conditional =>
      rw [step_cons, combination_if, conditional, ofExcept_operands_bind_of_listItems? hitems]
      split
      · exact absurd (.inl rfl) hx
      · exact absurd (.inr rfl) hx
      · rfl
    | sequence => exact absurd trivial hx

/-- A `DEFINE` of the right shape evaluates its expression first; when that fails, the form fails
with it, and binds nothing. -/
theorem step_define_of_error {ev : Evaluator} {E a : Nat} {rest x : Value} {n : String}
    {m m' : Machine} {e : Error} (hitems : rest.listItems? = some [.sym n, x])
    (hx : ev x E m = (.error e, m')) :
    step ev (.cons a (.sym "DEFINE") rest) E m = (.error e, m') := by
  rw [step_cons, combination_define, define, ofExcept_operands_bind_of_listItems? hitems]
  exact Exec.bind_error hx

end Eval

/-- **Operands are evaluated in order, up to the first failure.** A call whose operands form a proper
list evaluates them in the caller's frame `E` from left to right and then applies the procedure:
its outcome and machine, bindings and output included, are those of this sequence. When an operand
fails, the call ends with that operand's error and the machine it left: no later operand is
evaluated and the procedure is not applied, so it reports no arity or type error. When all succeed,
the procedure is applied to their values, and only then is a closure's arity checked. -/
theorem call_evaluates_operands_in_order {ev : Evaluator} {E a : Nat} {h rest : Value}
    {name : String} {apply : List Value → Exec Value} {forms : List Value} (m : Machine)
    (hc : Eval.Callee ev E m.store h name apply) (hforms : rest.listItems? = some forms) :
    Eval.step ev (.cons a h rest) E m = (forms.mapM (ev · E) >>= apply) m ∧
      (∀ pre y post vs m₁ e m₂, forms = pre ++ y :: post → (pre.mapM (ev · E)) m = (.ok vs, m₁) →
        ev y E m₁ = (.error e, m₂) → Eval.step ev (.cons a h rest) E m = (.error e, m₂)) ∧
      (∀ vs m₁, (forms.mapM (ev · E)) m = (.ok vs, m₁) →
        Eval.step ev (.cons a h rest) E m = apply vs m₁) := by
  have hcall : Eval.step ev (.cons a h rest) E m = (forms.mapM (ev · E) >>= apply) m := by
    rw [Eval.step_callee hc, Eval.evalOperands_of_listItems? hforms]
  refine ⟨hcall, ?_, ?_⟩
  · intro pre y post vs m₁ e m₂ hsplit hpre hy
    rw [hcall, Exec.mapM_bind_of_error hsplit hpre hy]
  · intro vs m₁ hall
    rw [hcall, Exec.bind_ok hall]

/-- `(+ 1 2)`: the name of a primitive heads a call of two operands. -/
theorem sum_evaluates_operands_in_order :
    Eval.Callee (Eval.evalWith 1) 0 Machine.init.store (.sym "+") "+"
        (Eval.applyPrimitive (Eval.evalWith 1) (.arith .add) · 0) ∧
      (Value.ofList 0 [.int 1, .int 2]).listItems? = some [.int 1, .int 2] ∧
      Eval.step (Eval.evalWith 1) (.cons 0 (.sym "+") (.ofList 0 [.int 1, .int 2])) 0 Machine.init =
        ([Value.int 1, .int 2].mapM (Eval.evalWith 1 · 0) >>=
          (Eval.applyPrimitive (Eval.evalWith 1) (.arith .add) · 0)) Machine.init := by
  have hc : Eval.Callee (Eval.evalWith 1) 0 Machine.init.store (.sym "+") "+"
      (Eval.applyPrimitive (Eval.evalWith 1) (.arith .add) · 0) :=
    .named (by decide) (by decide)
  have hforms : (Value.ofList 0 [.int 1, .int 2]).listItems? = some [.int 1, .int 2] :=
    Value.listItems?_ofList 0 _
  exact ⟨hc, hforms, (call_evaluates_operands_in_order Machine.init hc hforms).1⟩

/-- **Malformed forms fail before evaluating anything.** A form headed by a closure, a primitive,
the name of a primitive or of a bound procedure, or one of the special forms, whose operands form
no proper list, or whose operands have a shape its special form refuses (`DEFINE` other than a symbol
and an expression, a quotation other than one datum, `IF` other than two or three forms), fails as
malformed under its own name: `lambda`, `procedure`, the called name, `define`, the quotation's
keyword, `if` or `begin`. It evaluates no operand, so the machine, every frame's bindings and the
output included, is left as it was. A `DEFINE` of the right shape whose expression fails ends with
that failure and the machine the expression left: the name is not bound. -/
theorem malformed_forms_fail_first {ev : Evaluator} {E a : Nat} (m : Machine) :
    (∀ {h rest : Value} {name : String} {shape : List Value → Prop},
      Eval.HeadShape ev E m.store h name shape → (∀ xs, rest.listItems? = some xs → ¬ shape xs) →
        Eval.step ev (.cons a h rest) E m = (.error (.eval (.malformedForm name)), m)) ∧
      (∀ {rest x : Value} {n : String} {e : Error} {m' : Machine},
        rest.listItems? = some [.sym n, x] → ev x E m = (.error e, m') →
          Eval.step ev (.cons a (.sym "DEFINE") rest) E m = (.error e, m')) :=
  ⟨fun hs hbad => Eval.step_malformed hs hbad, fun hitems hx => Eval.step_define_of_error hitems hx⟩

/-- `(IF #T)` is malformed, and `(DEFINE X Y)` with `Y` unbound fails without binding `X`. -/
theorem if_one_operand_malformed :
    (∀ xs, (Value.ofList 0 [.bool true]).listItems? = some xs → ¬ (xs.length = 2 ∨ xs.length = 3)) ∧
      Eval.step (Eval.evalWith 1) (.cons 0 (.sym "IF") (.ofList 0 [.bool true])) 0 Machine.init =
        (.error (.eval (.malformedForm "if")), Machine.init) ∧
      (Value.ofList 0 [.sym "X", .sym "Y"]).listItems? = some [.sym "X", .sym "Y"] ∧
      Eval.evalWith 1 (.sym "Y") 0 Machine.init =
        (.error (.eval (.unknownIdentifier "Y")), Machine.init) ∧
      Eval.step (Eval.evalWith 1) (.cons 0 (.sym "DEFINE") (.ofList 0 [.sym "X", .sym "Y"])) 0
          Machine.init = (.error (.eval (.unknownIdentifier "Y")), Machine.init) := by
  have hbad : ∀ xs, (Value.ofList 0 [.bool true]).listItems? = some xs →
      ¬ (xs.length = 2 ∨ xs.length = 3) := by
    intro xs hxs
    rw [Value.listItems?_ofList] at hxs
    cases hxs
    decide
  have hitems : (Value.ofList 0 [.sym "X", .sym "Y"]).listItems? = some [.sym "X", .sym "Y"] :=
    Value.listItems?_ofList 0 _
  have hy : Eval.evalWith 1 (.sym "Y") 0 Machine.init =
      (.error (.eval (.unknownIdentifier "Y")), Machine.init) := by
    have hlookup : Exec.lookup 0 "Y" Machine.init = (.ok none, Machine.init) := by
      have h : (Machine.init.store.lookup 0 "Y").isNone = true := by decide +kernel
      rw [Exec.lookup_apply, Option.isNone_iff_eq_none.mp h]
    have hnamed : Primitive.named? "Y" = none := by decide +kernel
    show (Exec.lookup 0 "Y" >>= _) Machine.init = _
    rw [Exec.bind_ok hlookup]
    simp only [hnamed]
    rfl
  exact ⟨hbad, (malformed_forms_fail_first Machine.init).1 .conditional hbad, hitems, hy,
    (malformed_forms_fail_first Machine.init).2 hitems hy⟩

end MiniScheme
