import MiniScheme.Proofs.ErrorValues
import MiniScheme.Proofs.Similar
import MiniScheme.Proofs.ReadStep
/-!
# Three ways to run a program

A program's text can be run by `Machine.run`, which reads one form at a time and evaluates it before
reading the next; by `EVAL` on the text as a string, which reads every form first (`Read.all`) and
then evaluates them in turn (`Eval.evalForms`); and, when the whole text reads without error, by
evaluating the form `(BEGIN f₁ … fₙ)` of its forms. The three agree.

`run` and `EVAL` give the same outcome and the same machine: reading does not depend on the machine,
and `run` stops on a form whose value is an error, which never happens while no error is held as data
(`eval_errorFree`). `BEGIN` evaluates the forms as they were read, without new addresses, so it agrees
with `EVAL` up to addresses (`Exec.Sim`), the `BEGIN` form itself taking one level of depth.
-/

namespace MiniScheme

/-! ### Reading a whole text, one form at a time -/

namespace Read

theorem all_of_nil {cs : List Char} (h : skipBlank cs = []) : all cs = ([], none) := by
  rw [all]
  split
  · rfl
  · next c r h' => rw [h] at h'; cases h'

theorem all_of_error {cs r : List Char} {c : Char} {e : ReadError} (h : skipBlank cs = c :: r)
    (hd : (datum c r).result = .error e) : all cs = ([], some e) := by
  rw [all]
  split
  · next h' => rw [h] at h'; cases h'
  · next c' r' h' =>
    rw [h] at h'
    cases h'
    rw [Step.eta (datum c r), hd]

theorem all_of_ok {cs r r₁ : List Char} {c : Char} {v : Value} (h : skipBlank cs = c :: r)
    (hd : (datum c r).Reads v r₁) : all cs = (v :: (all r₁).1, (all r₁).2) := by
  rw [all]
  split
  · next h' => rw [h] at h'; cases h'
  · next c' r' h' =>
    rw [h] at h'
    cases h'
    rw [hd.eq]

end Read

namespace Machine

theorem runForms_of_nil {echo : Bool} {frame : Nat} {last : Value} {cs : List Char}
    (h : Read.skipBlank cs = []) : Machine.runForms echo frame last cs = pure last := by
  rw [Machine.runForms]
  split
  · rfl
  · next c r h' => rw [h] at h'; cases h'

theorem runForms_of_error {echo : Bool} {frame : Nat} {last : Value} {cs r : List Char} {c : Char}
    {e : ReadError} (h : Read.skipBlank cs = c :: r) (hd : (Read.datum c r).result = .error e) :
    Machine.runForms echo frame last cs = Exec.fail (.read e) := by
  rw [Machine.runForms]
  split
  · next h' => rw [h] at h'; cases h'
  · next c' r' h' =>
    rw [h] at h'
    cases h'
    rw [Read.Step.eta (Read.datum c r), hd]

/-- A run without echo reads a form, evaluates it with new addresses, stops on an error value, and
goes on with the rest of the text. -/
theorem runForms_of_ok {frame : Nat} {last : Value} {cs r r₁ : List Char} {c : Char} {v : Value}
    (h : Read.skipBlank cs = c :: r) (hd : (Read.datum c r).Reads v r₁) :
    Machine.runForms false frame last cs =
      (Exec.allocate v >>= fun form => Machine.eval form frame >>= fun w =>
        match w with
        | .error e => Exec.fail e
        | w => Machine.runForms false frame w r₁) := by
  rw [Machine.runForms]
  split
  · next h' => rw [h] at h'; cases h'
  · next c' r' h' =>
    rw [h] at h'
    cases h'
    rw [hd.eq]
    rfl

end Machine

/-! ### Evaluating the forms of a text -/

namespace Eval

/-- The forms evaluated in turn in `frame` after `last`, each with new addresses, then the read error
that ended them if there is one: what `EVAL` does with the forms of a text. -/
def evalForms (ev : Evaluator) (frame : Nat) (last : Value) (forms : List Value)
    (err : Option ReadError) : Exec Value := do
  let v ← forms.foldlM (fun _ f => do ev (← Exec.allocate f) frame) last
  match err with
  | some e => Exec.fail (.read e)
  | none => pure v

theorem evalText_eq (ev : Evaluator) (frame : Nat) (src : String) :
    evalText ev frame src =
      evalForms ev frame .unspecified (Read.all src.toList).1 (Read.all src.toList).2 := by
  unfold evalText evalForms
  cases Read.all src.toList
  rfl

theorem evalForms_nil_none (ev : Evaluator) (frame : Nat) (last : Value) :
    evalForms ev frame last [] none = pure last :=
  rfl

theorem evalForms_nil_some (ev : Evaluator) (frame : Nat) (last : Value) (e : ReadError) :
    evalForms ev frame last [] (some e) = Exec.fail (.read e) :=
  rfl

theorem evalForms_cons (ev : Evaluator) (frame : Nat) (last f : Value) (forms : List Value)
    (err : Option ReadError) :
    evalForms ev frame last (f :: forms) err =
      (Exec.allocate f >>= fun form => ev form frame >>= fun w => evalForms ev frame w forms err) := by
  unfold evalForms
  rw [List.foldlM_cons]
  simp only [bind_assoc]

end Eval

/-- Run without echo, with no error held as data, a text gives what its forms read in advance give:
reading does not depend on the machine, and no form evaluates to an error value. -/
theorem Machine.runForms_eq_evalForms {frame : Nat} :
    ∀ (last : Value) (cs : List Char) (m : Machine), m.store.BindsOnly Value.ErrorFree →
      Machine.runForms false frame last cs m =
        Eval.evalForms Machine.eval frame last (Read.all cs).1 (Read.all cs).2 m
  | last, cs, m, hm => by
    rcases hs : Read.skipBlank cs with _ | ⟨c, r⟩
    · rw [Machine.runForms_of_nil hs, Read.all_of_nil hs]
      rfl
    · cases hd : (Read.datum c r).result with
      | error e =>
        rw [Machine.runForms_of_error hs hd, Read.all_of_error hs hd]
        rfl
      | ok v =>
        have hreads : (Read.datum c r).Reads v (Read.datum c r).rest := ⟨hd, rfl⟩
        have hshorter : (Read.datum c r).rest.length < cs.length := by
          have := Read.length_lt_of_skipBlank_eq_cons hs
          have := (Read.datum c r).rest_le
          omega
        have hplain : v.Plain := (Read.readsPlain r).datum c v hd
        rw [Machine.runForms_of_ok hs hreads, Read.all_of_ok hs hreads, Eval.evalForms_cons]
        refine Exec.Keeps.bind_congr (Q := Value.ErrorFree)
          (Exec.Keeps.allocate fun n => Value.leaves_allocate n hplain.errorFree) ?_ m hm
        intro form hform m₁ hm₁
        refine Exec.Keeps.bind_congr (eval_keeps_errorFree hform) ?_ m₁ hm₁
        intro w hw m₂ hm₂
        split
        · have hnot := (Value.leaves_leaf_iff rfl).mp hw
          simp [Value.isError] at hnot
        · exact Machine.runForms_eq_evalForms w _ m₂ hm₂
termination_by _ cs => cs.length

/-! ### The forms as one `BEGIN` form -/

theorem Value.ofList_cons (a : Nat) (x : Value) (xs : List Value) :
    Value.ofList a (x :: xs) = .cons a x (Value.ofList a xs) := by
  cases xs <;> rfl

theorem Eval.operands_ofList (name : String) (a : Nat) (xs : List Value) :
    Eval.operands name (Value.ofList a xs) = .ok xs := by
  induction xs with
  | nil => rfl
  | cons x xs ih =>
    rw [Value.ofList_cons, Eval.operands, ih]
    rfl

/-- `(BEGIN f₁ … fₙ)` evaluates the forms in turn, one level below it. -/
theorem Eval.evalWith_begin (n : Nat) (forms : List Value) (frame : Nat) :
    Eval.evalWith (n + 1) (Value.ofList 0 (.sym "BEGIN" :: forms)) frame =
      forms.foldlM (fun _ f => Eval.evalWith n f frame) .unspecified := by
  rw [Value.ofList_cons]
  show Eval.combination (Eval.evalWith n) (.sym "BEGIN") (Value.ofList 0 forms) frame = _
  simp only [Eval.combination, Eval.sequence, Eval.operands_ofList]
  rfl

/-- The forms of a text with new addresses, against the same forms as they were read. -/
theorem Eval.evalForms_sim_begin {ev : Evaluator} (hev : IgnoresAddresses ev) (frame : Nat)
    (forms : List Value) :
    Exec.Sim Value.Alike (evalForms ev frame .unspecified forms none)
      (forms.foldlM (fun _ f => ev f frame) .unspecified) := by
  unfold evalForms
  rw [← bind_pure (forms.foldlM (fun _ f => ev f frame) .unspecified)]
  refine Exec.Sim.bind (Exec.Sim.foldlM_alike (fun _ _ x₁ x₂ _ hx => ?_) rfl (Value.Alike.refl _))
    fun v₁ v₂ hv => Exec.Sim.pure hv
  rw [← pure_bind x₂ (fun f => ev f frame)]
  exact Exec.Sim.bind (Exec.Sim.allocate_pure hx) fun f₁ f₂ hf => hev f₁ f₂ frame hf

/-- **Three ways to run a program agree.** With no error held as data in the store, running the text
`s` in the frame `E` and applying `EVAL` to it as a string give the same outcome and the same
machine. When the whole text reads without error, evaluating `(BEGIN f₁ … fₙ)` of its forms, one
level deeper, ends the same way too: the same value up to addresses, or the same error, with
bindings alike up to addresses and the same output. -/
theorem run_eval_begin_agree (s : String) (E : Nat) (m : Machine)
    (hm : m.store.BindsOnly Value.ErrorFree) :
    Machine.run s E m = Eval.applyPrimitive Machine.eval .eval [.str s] E m ∧
      ((Read.all s.toList).2 = none →
        Outcome.Rel Value.Alike (Eval.applyPrimitive Machine.eval .eval [.str s] E m).1
            (Eval.evalWith (depthLimit + 1) (.ofList 0 (.sym "BEGIN" :: (Read.all s.toList).1)) E m).1 ∧
          (Eval.applyPrimitive Machine.eval .eval [.str s] E m).2.Similar
            (Eval.evalWith (depthLimit + 1) (.ofList 0 (.sym "BEGIN" :: (Read.all s.toList).1)) E m).2) := by
  have heval : Eval.applyPrimitive Machine.eval .eval [.str s] E =
      Eval.evalForms Machine.eval E .unspecified (Read.all s.toList).1 (Read.all s.toList).2 :=
    Eval.evalText_eq Machine.eval E s
  refine ⟨?_, fun hnone => ?_⟩
  · rw [heval, Machine.run, Machine.runForms_eq_evalForms _ _ m hm]
  · rw [heval, hnone, Eval.evalWith_begin]
    have hsim := Eval.evalForms_sim_begin (Eval.evalWith_ignoresAddresses depthLimit) E
      (Read.all s.toList).1 m m (Machine.Similar.refl m)
    exact ⟨hsim.2, hsim.1⟩

/-- A definition and a use of it, run and evaluated as a string. -/
theorem define_then_multiply_agree :
    Machine.run "(DEFINE X 2) (* X 21)" 0 Machine.init =
      Eval.applyPrimitive Machine.eval .eval [.str "(DEFINE X 2) (* X 21)"] 0 Machine.init :=
  (run_eval_begin_agree "(DEFINE X 2) (* X 21)" 0 Machine.init Machine.init_errorFree).1

end MiniScheme
