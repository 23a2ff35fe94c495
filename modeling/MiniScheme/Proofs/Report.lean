import MiniScheme.Proofs.Output
import MiniScheme.Proofs.RunAgreement
import MiniScheme.Proofs.Display
/-!
# What the command line reports

The command line runs a program as `Machine.run` does, in a fresh machine, and prints as it goes:
each form's own output, then, unless it runs quietly, the text of the form's value on a line of its
own when that value is neither unspecified nor an error. The first error ends the run; it is
written to standard error after `Error: `, and the status is 1.

`Machine.Transcript` describes a run form by form: the forms of the text are read one at a time and
each is evaluated with new addresses in one frame, and the transcript lists what each wrote and how
it ended. Evaluation only appends to the output and never reads it (`Eval.evalWith_appends`), so
printing the values between the forms changes nothing else: the run that prints them ends as the
run that does not, in the same machine, with the values' lines between the forms' outputs
(`Transcript.runForms`). Every run has a transcript (`Machine.transcript_exists`).

Main statement: `report_follows_run`.
-/

namespace MiniScheme

/-! ### One form of a program -/

namespace Machine

/-- A form read from a program, evaluated with new addresses in the frame `E`. -/
def evalForm (f : Value) (E : Nat) : Exec Value :=
  Exec.allocate f >>= fun g => Machine.eval g E

theorem evalForm_appends (f : Value) (E : Nat) : Exec.Appends (evalForm f E) :=
  Exec.Appends.bind Exec.Appends.allocate fun g => Eval.evalWith_appends depthLimit g E

end Machine

/-- What the command line prints after a form that ended with `o`, when it prints results: the
value's text and a line feed; nothing for the unspecified value, an error value, a failure or a form
that ran out of depth. -/
def Outcome.shown : Outcome Value → String
  | .ok .unspecified => ""
  | .ok (.error _) => ""
  | .ok v => v.display ++ "\n"
  | .error _ => ""
  | .exhausted => ""

theorem Outcome.shown_ok {v : Value} (hu : v ≠ .unspecified) (he : v.isError = false) :
    (Outcome.ok v).shown = v.display ++ "\n" := by
  cases v with
  | unspecified => exact absurd rfl hu
  | error e => simp [Value.isError] at he
  | _ => rfl

theorem Outcome.shown_of_error {o : Outcome Value} {e : Error} (h : o.value? = some (.error e)) :
    o.shown = "" := by
  cases o with
  | ok v =>
    obtain rfl : v = .error e := Option.some.inj h
    rfl
  | error e' => rfl
  | exhausted => cases h

/-! ### A run, form by form -/

namespace Machine

/-- `Transcript E last cs m evs o m'`: the forms of the text `cs`, read one at a time and each
evaluated with new addresses in the frame `E`, starting from the machine `m` after a form that
gave `last`, did what `evs` lists, form by form (the text each wrote and how it ended), and the run
ended with `o` in the machine `m'`. The run ends at the end of the text with the value of the last
form, at a datum that cannot be read with its read error, and at the first form that fails, gives an
error value or runs out of depth. -/
inductive Transcript (E : Nat) :
    Value → List Char → Machine → List (String × Outcome Value) → Outcome Value → Machine → Prop
  /-- Only blanks and comments are left: the run ends with the value of the form before. -/
  | finish {last : Value} {cs : List Char} {m : Machine} :
      Read.skipBlank cs = [] → Transcript E last cs m [] (.ok last) m
  /-- The next datum cannot be read: the run ends with the read error. -/
  | unreadable {last : Value} {cs r : List Char} {c : Char} {e : ReadError} {m : Machine} :
      Read.skipBlank cs = c :: r → (Read.datum c r).result = .error e →
      Transcript E last cs m [] (.error (.read e)) m
  /-- The next form wrote `d` and gave a value that is no error; the run goes on after it. -/
  | next {last v f : Value} {cs r r₁ : List Char} {c : Char} {m m₁ m₂ : Machine} {d : String}
      {evs : List (String × Outcome Value)} {o : Outcome Value} :
      Read.skipBlank cs = c :: r → (Read.datum c r).Reads f r₁ →
      evalForm f E m = (.ok v, m₁) → v.isError = false → m₁.output = m.output ++ d →
      Transcript E v r₁ m₁ evs o m₂ → Transcript E last cs m ((d, .ok v) :: evs) o m₂
  /-- The next form wrote `d` and failed with `e`, or gave `e` as its value: the run ends with
  `e`. -/
  | stop {last f : Value} {cs r r₁ : List Char} {c : Char} {m m₁ : Machine} {d : String}
      {o : Outcome Value} {e : Error} :
      Read.skipBlank cs = c :: r → (Read.datum c r).Reads f r₁ →
      evalForm f E m = (o, m₁) → o.value? = some (.error e) → m₁.output = m.output ++ d →
      Transcript E last cs m [(d, o)] (.error e) m₁
  /-- The next form wrote `d` and ran out of depth, and so does the run. -/
  | exhaust {last f : Value} {cs r r₁ : List Char} {c : Char} {m m₁ : Machine} {d : String} :
      Read.skipBlank cs = c :: r → (Read.datum c r).Reads f r₁ →
      evalForm f E m = (.exhausted, m₁) → m₁.output = m.output ++ d →
      Transcript E last cs m [(d, .exhausted)] .exhausted m₁

/-- What the command line writes to standard output for a run that did what `evs` lists: each
form's own output, followed, unless `quiet`, by its value as `Outcome.shown` prints it. -/
def printed (quiet : Bool) : List (String × Outcome Value) → String
  | [] => ""
  | (d, o) :: evs => d ++ (if quiet then "" else o.shown) ++ printed quiet evs

/-! ### The run loop, one form at a time -/

section
variable {echo : Bool} {E : Nat} {last f : Value} {cs r r₁ : List Char} {c : Char}

/-- After reading the form `f`, a run evaluates it, stops on an error, and with `echo` prints the
value before it reads on. -/
theorem runForms_of_reads (h : Read.skipBlank cs = c :: r) (hd : (Read.datum c r).Reads f r₁) :
    runForms echo E last cs =
      (evalForm f E >>= fun w =>
        match w with
        | .error e => Exec.fail e
        | w =>
          if echo = true then
            match w with
            | .unspecified => runForms echo E w r₁
            | v => Exec.write (v.display ++ "\n") >>= fun _ => runForms echo E w r₁
          else runForms echo E w r₁) := by
  rw [runForms]
  split
  · next h' => rw [h] at h'; cases h'
  · next c' r' h' =>
    rw [h] at h'
    cases h'
    rw [hd.eq, evalForm]
    exact (bind_assoc _ _ _).symm

/-- A form that gives a value goes on with the rest of the text, its value printed with `echo`. -/
theorem runForms_value {v : Value} {m m₁ : Machine} (h : Read.skipBlank cs = c :: r)
    (hd : (Read.datum c r).Reads f r₁) (hev : evalForm f E m = (.ok v, m₁))
    (hv : v.isError = false) :
    runForms echo E last cs m =
      runForms echo E v r₁
        { m₁ with output := m₁.output ++ if echo then (Outcome.ok v).shown else "" } := by
  rw [runForms_of_reads h hd, Exec.bind_ok hev]
  split
  · next e => simp [Value.isError] at hv
  · cases echo with
    | false => simp only [Bool.false_eq_true, if_false, String.append_empty]
    | true =>
      simp only [if_true]
      split
      · simp [Outcome.shown]
      · next w hu =>
        have hw : Exec.write (v.display ++ "\n") m₁ =
            (.ok (), { m₁ with output := m₁.output ++ (v.display ++ "\n") }) := rfl
        rw [Exec.bind_ok hw, Outcome.shown_ok (fun h => hu h) hv]

/-- A form that fails, or gives an error value, ends the run with its error. -/
theorem runForms_stop {o : Outcome Value} {e : Error} {m m₁ : Machine}
    (h : Read.skipBlank cs = c :: r) (hd : (Read.datum c r).Reads f r₁)
    (hev : evalForm f E m = (o, m₁)) (ho : o.value? = some (.error e)) :
    runForms echo E last cs m = (.error e, m₁) := by
  rw [runForms_of_reads h hd]
  cases o with
  | ok v =>
    obtain rfl : v = .error e := Option.some.inj ho
    rw [Exec.bind_ok hev]
    rfl
  | error e' =>
    obtain rfl : e' = e := by simpa [Outcome.value?] using ho
    rw [Exec.bind_error hev]
  | exhausted => cases ho

theorem runForms_exhaust {m m₁ : Machine} (h : Read.skipBlank cs = c :: r)
    (hd : (Read.datum c r).Reads f r₁) (hev : evalForm f E m = (.exhausted, m₁)) :
    runForms echo E last cs m = (.exhausted, m₁) := by
  rw [runForms_of_reads h hd, Exec.bind_exhausted hev]

end

/-! ### Runs and their transcripts -/

namespace Transcript
variable {E : Nat} {last : Value} {cs : List Char} {m m' : Machine}
  {evs : List (String × Outcome Value)} {o : Outcome Value}

/-- The output a run leaves is what it found, followed by what each form wrote. -/
theorem output (h : Transcript E last cs m evs o m') :
    m'.output = m.output ++ printed true evs := by
  induction h with
  | finish => simp [printed]
  | unreadable => simp [printed]
  | next _ _ _ _ hd₁ _ ih => simp [printed, ih, hd₁, String.append_assoc]
  | stop _ _ _ _ hd₁ => simp [printed, hd₁]
  | exhaust _ _ _ hd₁ => simp [printed, hd₁]

/-- **Printing the values changes nothing else.** Started with any output `q`, the run, with or
without `echo`, ends as its transcript says, in the same machine with the output `q` followed by
each form's own output and, with `echo`, its value's line. Each form writes after `q` what it wrote
after `m`'s output, and its value's line follows. -/
theorem runForms (h : Transcript E last cs m evs o m') (echo : Bool) (q : String) :
    Machine.runForms echo E last cs { m with output := q } =
      (o, { m' with output := q ++ printed (!echo) evs }) := by
  induction h generalizing q with
  | finish hs =>
    rw [runForms_of_nil hs]
    simp [printed]
  | unreadable hs he =>
    rw [runForms_of_error hs he, printed, String.append_empty]
    rfl
  | @next last v f cs r r₁ c m m₁ m₂ d evs o hs hd hev hv hd₁ _ ih =>
    rw [runForms_value hs hd ((evalForm_appends f E).rerun hev hd₁ q) hv]
    dsimp only
    rw [ih (q ++ d ++ if echo then (Outcome.ok v).shown else "")]
    cases echo <;> simp [printed, String.append_assoc]
  | stop hs hd hev ho hd₁ =>
    rw [runForms_stop hs hd ((evalForm_appends _ E).rerun hev hd₁ q) ho]
    simp [printed, Outcome.shown_of_error ho]
  | exhaust hs hd hev hd₁ =>
    rw [runForms_exhaust hs hd ((evalForm_appends _ E).rerun hev hd₁ q)]
    simp [printed, Outcome.shown]

/-- The run without printing, from the machine the transcript starts in, ends as it says. -/
theorem run (h : Transcript E last cs m evs o m') :
    Machine.runForms false E last cs m = (o, m') := by
  have hrun := h.runForms false m.output
  rw [Bool.not_false, ← h.output] at hrun
  exact hrun

end Transcript

/-- Every run has a transcript: the forms of any text, from any machine, are read and evaluated one
at a time until the text ends or a form stops the run. -/
theorem transcript_exists (E : Nat) :
    ∀ (last : Value) (cs : List Char) (m : Machine), ∃ evs o m', Transcript E last cs m evs o m'
  | last, cs, m => by
    rcases hs : Read.skipBlank cs with _ | ⟨c, r⟩
    · exact ⟨[], _, _, .finish hs⟩
    · cases hdr : (Read.datum c r).result with
      | error e => exact ⟨[], _, _, .unreadable hs hdr⟩
      | ok f =>
        have hd : (Read.datum c r).Reads f (Read.datum c r).rest := ⟨hdr, rfl⟩
        have hshorter : (Read.datum c r).rest.length < cs.length := by
          have := Read.length_lt_of_skipBlank_eq_cons hs
          have := (Read.datum c r).rest_le
          omega
        obtain ⟨d, hd₁, -⟩ := (evalForm_appends f E).written m
        rcases hev : evalForm f E m with ⟨o₁, m₁⟩
        rw [hev] at hd₁
        cases o₁ with
        | ok v =>
          cases hv : v.isError with
          | false =>
            obtain ⟨evs, o, m₂, ht⟩ := transcript_exists E v (Read.datum c r).rest m₁
            exact ⟨_, _, _, .next hs hd hev hv hd₁ ht⟩
          | true =>
            obtain ⟨e, rfl⟩ : ∃ e, v = .error e := by
              cases v with
              | error e => exact ⟨e, rfl⟩
              | _ => cases hv
            exact ⟨_, _, _, .stop hs hd hev rfl hd₁⟩
        | error e => exact ⟨_, _, _, .stop hs hd hev rfl hd₁⟩
        | exhausted => exact ⟨_, _, _, .exhaust hs hd hev hd₁⟩
termination_by _ cs => cs.length

end Machine

/-- **The command line reports what the run gives.** Run with or without `-q`, a program text `s`
is run form by form in one fresh frame, as `Machine.run` runs it: there is a transcript of that
run, and standard output is each evaluated form's own output, followed, unless `quiet`, by the
line of its value when that is neither unspecified nor an error. When the run gives a value,
nothing is written to standard error and the status is 0; when it ends with an error `e`, standard
error holds `Error: ` and the text of `e` on a line, and the status is 1. So the status is 1 exactly
when the run ends with an error. (A run deeper than the evaluator's depth limit ends with
neither.) -/
theorem report_follows_run (quiet : Bool) (s : String) :
    ∃ evs, Machine.Transcript 0 .unspecified s.toList Machine.init evs
        (Machine.run s 0 Machine.init).1 (Machine.run s 0 Machine.init).2 ∧
      (Machine.report quiet s).stdout = Machine.printed quiet evs ∧
      (∀ v, (Machine.run s 0 Machine.init).1 = .ok v →
        (Machine.report quiet s).stderr = "" ∧ (Machine.report quiet s).status = 0) ∧
      (∀ e, (Machine.run s 0 Machine.init).1 = .error e →
        (Machine.report quiet s).stderr = "Error: " ++ (Value.error e).display ++ "\n" ∧
          (Machine.report quiet s).status = 1) ∧
      ((Machine.report quiet s).status = 1 ↔ ∃ e, (Machine.run s 0 Machine.init).1 = .error e) := by
  obtain ⟨evs, o, m', ht⟩ := Machine.transcript_exists 0 .unspecified s.toList Machine.init
  have hrun : Machine.run s 0 Machine.init = (o, m') := ht.run
  have hecho : Machine.runForms (!quiet) 0 .unspecified s.toList Machine.init =
      (o, { m' with output := Machine.printed quiet evs }) := by
    have := ht.runForms (!quiet) ""
    rw [String.empty_append, Bool.not_not] at this
    exact this
  rw [hrun]
  refine ⟨evs, ht, ?_⟩
  simp only [Machine.report, hecho]
  cases o with
  | ok v => simp
  | error e => simp [Value.display_error]
  | exhausted => simp

end MiniScheme
