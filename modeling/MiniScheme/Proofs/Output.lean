import MiniScheme.Proofs.Keeps
import MiniScheme.Eval.Form
import Mathlib.Tactic.SplitIfs
/-!
# Evaluation only appends to the output

Evaluation touches the output in one way: `DISPLAY` writes a value's text at its end. Nothing it
does reads the text written before. So a computation of the evaluator started after any text `p`
ends the same way as it does without `p`, in the same machine with `p` in front of the output
(`Exec.Appends`, proved at every depth by `Eval.evalWith_appends`). What a computation writes is
then a text of its own, the same whatever was written before it (`Exec.Appends.written`).

The rules below follow the shapes of computations, as `Exec.Keeps` does for the store.
-/

namespace MiniScheme

/-- The machine with the text `p` written before its output. -/
def Machine.after (p : String) (m : Machine) : Machine :=
  { m with output := p ++ m.output }

namespace Exec

/-- Run after any text `p`, the computation ends as it does without it, in the machine it leaves
then with `p` in front of the output: it never reads what was written before it, and writes only
after it. -/
def Appends {α : Type} (x : Exec α) : Prop :=
  ∀ m p, x (m.after p) = ((x m).1, (x m).2.after p)

namespace Appends
variable {α β : Type}

theorem pure {a : α} : Appends (Pure.pure a : Exec α) :=
  fun _ _ => rfl

theorem fail {e : Error} : Appends (Exec.fail e : Exec α) :=
  fun _ _ => rfl

theorem exhaust : Appends (Exec.exhaust : Exec α) :=
  fun _ _ => rfl

theorem ofExcept {e : Except EvalError α} : Appends (Exec.ofExcept e) := by
  cases e with
  | error err => exact fail
  | ok a => exact pure

theorem fresh : Appends Exec.fresh :=
  fun _ _ => rfl

theorem lookup {frame : Nat} {k : String} : Appends (Exec.lookup frame k) :=
  fun _ _ => rfl

theorem define {frame : Nat} {k : String} {v : Value} : Appends (Exec.define frame k v) :=
  fun _ _ => rfl

theorem child {parent : Nat} {kvs : List (String × Value)} : Appends (Exec.child parent kvs) :=
  fun _ _ => rfl

theorem allocate {v : Value} : Appends (Exec.allocate v) :=
  fun _ _ => rfl

/-- The one operation on the output: what it writes after `p ++ o` is written after `o`, after
`p`. -/
theorem write {s : String} : Appends (Exec.write s) := by
  intro m p
  show ((.ok (), { m with output := p ++ m.output ++ s }) : Outcome Unit × Machine) =
    (.ok (), { m with output := p ++ (m.output ++ s) })
  rw [String.append_assoc]

theorem bind {x : Exec α} {f : α → Exec β} (hx : Appends x) (hf : ∀ a, Appends (f a)) :
    Appends (x >>= f) := by
  intro m p
  match h : x m with
  | (.ok a, m₁) =>
    rw [bind_ok h, bind_ok (by rw [hx m p, h])]
    exact hf a m₁ p
  | (.error e, m₁) => rw [bind_error h, bind_error (by rw [hx m p, h])]
  | (.exhausted, m₁) => rw [bind_exhausted h, bind_exhausted (by rw [hx m p, h])]

theorem mapM {γ : Type} {f : γ → Exec α} (hf : ∀ c, Appends (f c)) :
    ∀ xs : List γ, Appends (xs.mapM f)
  | [] => pure
  | c :: cs => by
    rw [List.mapM_cons]
    exact bind (hf c) fun _ => bind (mapM hf cs) fun _ => pure

theorem foldlM {γ : Type} {f : α → γ → Exec α} (hf : ∀ b c, Appends (f b c)) :
    ∀ (xs : List γ) (init : α), Appends (xs.foldlM f init)
  | [], _ => pure
  | c :: cs, init => by
    rw [List.foldlM_cons]
    exact bind (hf init c) fun b => foldlM hf cs b

/-- **What a computation writes.** Run from `m`, it leaves `m`'s output followed by a text `d` of
its own; run from `m` with any other output `q`, it ends the same way, in the same machine with the
output `q ++ d`. Every machine is the one with nothing written, after its output. -/
theorem written {x : Exec α} (hx : Appends x) (m : Machine) :
    ∃ d, (x m).2.output = m.output ++ d ∧
      ∀ q, x { m with output := q } = ((x m).1, { (x m).2 with output := q ++ d }) := by
  have hafter : ∀ q, { m with output := "" }.after q = { m with output := q } := fun q => by
    simp only [Machine.after, String.append_empty]
  have hrun :
      x m = ((x { m with output := "" }).1, (x { m with output := "" }).2.after m.output) := by
    rw [← hx, hafter]
  refine ⟨(x { m with output := "" }).2.output, by rw [hrun]; rfl, fun q => ?_⟩
  rw [← hafter q, hx, hrun]
  rfl

/-- A run that wrote `d` after `m`'s output writes `d` after any other output. -/
theorem rerun {x : Exec α} (hx : Appends x) {m m₁ : Machine} {o : Outcome α} {d : String}
    (hm : x m = (o, m₁)) (hd : m₁.output = m.output ++ d) (q : String) :
    x { m with output := q } = (o, { m₁ with output := q ++ d }) := by
  obtain ⟨d', hd', hq⟩ := hx.written m
  rw [hm] at hd'
  have hdd : d' = d := (String.append_right_inj m.output).mp (hd'.symm.trans hd)
  rw [hq, hm, hdd]

end Appends

end Exec

/-! ### Evaluation, level by level -/

namespace Eval

/-- Every evaluation by `ev` only appends to the output. -/
def AppendsAll (ev : Evaluator) : Prop :=
  ∀ x frame, Exec.Appends (ev x frame)

section
variable {ev : Evaluator} {frame : Nat}
open Exec

theorem evalOperands_appends (hev : AppendsAll ev) {name : String} {rest : Value} :
    Appends (evalOperands ev frame name rest) := by
  unfold evalOperands
  exact Appends.bind Appends.ofExcept fun forms => Appends.mapM (fun x => hev x frame) forms

theorem lookupName_appends {name : String} : Appends (lookupName name frame) := by
  unfold lookupName
  refine Appends.bind Appends.lookup fun o => ?_
  split
  · exact Appends.pure
  · split
    · exact Appends.pure
    · exact Appends.fail

theorem applyClosure_appends (hev : AppendsAll ev) {name : String} {ps : List String} {b : Value}
    {scope : Nat} {args : List Value} : Appends (applyClosure ev name ps b scope args) := by
  unfold applyClosure
  split
  · exact Appends.bind Appends.child fun f => hev b f
  · exact Appends.fail

theorem evalText_appends (hev : AppendsAll ev) {src : String} :
    Appends (evalText ev frame src) := by
  unfold evalText
  rcases Read.all src.toList with ⟨forms, err⟩
  refine Appends.bind (Appends.foldlM (fun _ f => ?_) forms _) fun v => ?_
  · exact Appends.bind Appends.allocate fun form => hev form frame
  · cases err with
    | some e => exact Appends.fail
    | none => exact Appends.pure

theorem evalIn_appends (hev : AppendsAll ev) {x : Value} {target : Nat} :
    Appends (evalIn ev x target) := by
  unfold evalIn
  split
  · exact evalText_appends hev
  · exact hev x target

theorem evalPrimitive_appends (hev : AppendsAll ev) {args : List Value} :
    Appends (evalPrimitive ev frame args) := by
  unfold evalPrimitive
  split
  · exact evalIn_appends hev
  · exact evalIn_appends hev
  · exact Appends.fail
  · exact Appends.fail

/-- `DISPLAY` is the only primitive that writes. -/
theorem applyPrimitive_appends (hev : AppendsAll ev) {q : Primitive} {args : List Value} :
    Appends (applyPrimitive ev q args frame) := by
  unfold applyPrimitive
  cases q with
  | arith op => exact Appends.ofExcept
  | compare rel => exact Appends.ofExcept
  | test t => exact Appends.ofExcept
  | not => exact Appends.ofExcept
  | car => exact Appends.ofExcept
  | cdr => exact Appends.ofExcept
  | cons => exact Appends.bind Appends.fresh fun _ => Appends.ofExcept
  | list => exact Appends.bind Appends.fresh fun _ => Appends.pure
  | display =>
    dsimp only
    split
    · exact Appends.bind Appends.write fun _ => Appends.pure
    · exact Appends.fail
  | eval => exact evalPrimitive_appends hev
  | env =>
    dsimp only
    split
    · exact Appends.pure
    · exact Appends.fail

theorem define_appends (hev : AppendsAll ev) {rest : Value} : Appends (define ev rest frame) := by
  unfold define
  refine Appends.bind Appends.ofExcept fun xs => ?_
  split
  · next name expr =>
    exact Appends.bind (hev expr frame) fun v =>
      Appends.bind Appends.define fun _ => Appends.pure
  · exact Appends.fail

theorem quote_appends {keyword : String} {rest : Value} : Appends (quote keyword rest) := by
  unfold quote
  refine Appends.bind Appends.ofExcept fun xs => ?_
  split
  · exact Appends.pure
  · exact Appends.fail

theorem conditional_appends (hev : AppendsAll ev) {rest : Value} :
    Appends (conditional ev rest frame) := by
  unfold conditional
  refine Appends.bind Appends.ofExcept fun xs => ?_
  split
  · next c t =>
    refine Appends.bind (hev c frame) fun v => ?_
    split
    · exact Appends.pure
    · exact hev t frame
  · next c t e =>
    refine Appends.bind (hev c frame) fun v => ?_
    split
    · exact hev e frame
    · exact hev t frame
  · exact Appends.fail

theorem sequence_appends (hev : AppendsAll ev) {rest : Value} :
    Appends (sequence ev rest frame) := by
  unfold sequence
  exact Appends.bind Appends.ofExcept fun forms =>
    Appends.foldlM (fun _ f => hev f frame) forms _

theorem call_appends (hev : AppendsAll ev) {name : String} {rest : Value} :
    Appends (call ev name rest frame) := by
  unfold call
  split
  · exact Appends.bind (evalOperands_appends hev) fun _ => applyPrimitive_appends hev
  · refine Appends.bind Appends.lookup fun o => ?_
    split
    · exact Appends.bind (evalOperands_appends hev) fun _ => applyClosure_appends hev
    · exact Appends.bind (evalOperands_appends hev) fun _ => applyPrimitive_appends hev
    · exact Appends.fail

theorem combination_appends (hev : AppendsAll ev) {head rest : Value} :
    Appends (combination ev head rest frame) := by
  unfold combination
  split
  · exact Appends.bind (evalOperands_appends hev) fun _ => applyClosure_appends hev
  · exact Appends.bind (evalOperands_appends hev) fun _ => applyPrimitive_appends hev
  · split_ifs
    · exact define_appends hev
    · exact quote_appends
    · exact conditional_appends hev
    · exact sequence_appends hev
    · exact call_appends hev
  · exact hev _ frame

/-- One level of evaluation only appends when the levels below it do. -/
theorem step_appends (hev : AppendsAll ev) : AppendsAll (step ev) := by
  intro x frame
  unfold step
  split
  · exact Appends.fail
  · exact lookupName_appends
  · exact Appends.bind Appends.fresh fun _ => Appends.pure
  · exact combination_appends hev
  · exact Appends.pure

/-- **Evaluation only appends to the output**, at every depth. -/
theorem evalWith_appends : ∀ n, AppendsAll (evalWith n)
  | 0 => fun _ _ => Appends.exhaust
  | n + 1 => step_appends (evalWith_appends n)

end

end Eval

end MiniScheme
