import MiniScheme.Machine
/-!
# Reasoning about computations of the machine

A computation `x : Exec α` runs from a machine to an outcome and a machine. The equations
`bind_ok`, `bind_error` and `bind_exhausted` say how a sequence runs from how its first part ended;
`Exec` is a lawful monad, so the library's equations for `mapM` and `foldlM` apply to it.

`x.Keeps I Q` is the invariant form of a specification: started in a machine whose store satisfies
`I`, the computation leaves a store that satisfies `I` however it ends (an error or running out of
fuel included), and a result it gives satisfies `Q`. The rules below follow the shapes of
computations, so that an invariant of a whole evaluator is proved one operation at a time.
-/

namespace MiniScheme.Exec

section Run
variable {α β : Type} {x : Exec α} {f : α → Exec β} {m m₁ : Machine}

theorem bind_apply (x : Exec α) (f : α → Exec β) (m : Machine) : (x >>= f) m = Exec.bind x f m :=
  rfl

theorem bind_ok {a : α} (h : x m = (.ok a, m₁)) : (x >>= f) m = f a m₁ := by
  rw [bind_apply, Exec.bind, h]

theorem bind_error {e : Error} (h : x m = (.error e, m₁)) : (x >>= f) m = (.error e, m₁) := by
  rw [bind_apply, Exec.bind, h]

theorem bind_exhausted (h : x m = (.exhausted, m₁)) : (x >>= f) m = (.exhausted, m₁) := by
  rw [bind_apply, Exec.bind, h]

@[simp] theorem pure_apply (a : α) (m : Machine) : (pure a : Exec α) m = (.ok a, m) :=
  rfl

end Run

instance : LawfulMonad Exec :=
  LawfulMonad.mk' Exec
    (fun x => by
      funext m
      show Exec.bind x (fun a => Exec.pure (id a)) m = x m
      unfold Exec.bind
      split <;> simp_all [Exec.pure])
    (fun _ _ => rfl)
    (fun x f g => by
      funext m
      show Exec.bind (Exec.bind x f) g m = Exec.bind x (fun a => Exec.bind (f a) g) m
      simp only [Exec.bind]
      cases x m with
      | mk o m₁ => cases o <;> rfl)

/-- From a store satisfying `I`, `x` leaves a store satisfying `I`, and its result satisfies `Q`. -/
def Keeps {α : Type} (I : Store → Prop) (x : Exec α) (Q : α → Prop) : Prop :=
  ∀ m, I m.store → I (x m).2.store ∧ ∀ a, (x m).1 = .ok a → Q a

namespace Keeps
variable {I : Store → Prop} {α β : Type} {Q R : α → Prop}

theorem pure {a : α} (ha : Q a) : Keeps I (pure a) Q :=
  fun _ hm => ⟨hm, fun _ h => by cases h; exact ha⟩

theorem fail {e : Error} : Keeps I (Exec.fail e : Exec α) Q :=
  fun _ hm => ⟨hm, fun _ h => nomatch h⟩

theorem exhaust : Keeps I (Exec.exhaust : Exec α) Q :=
  fun _ hm => ⟨hm, fun _ h => nomatch h⟩

theorem ofExcept {e : Except EvalError α} (he : ∀ a, e = .ok a → Q a) : Keeps I (Exec.ofExcept e) Q := by
  cases e with
  | error err => exact fail
  | ok a => exact pure (he a rfl)

theorem mono {x : Exec α} (hx : Keeps I x Q) (hQR : ∀ a, Q a → R a) : Keeps I x R :=
  fun m hm => ⟨(hx m hm).1, fun a ha => hQR a ((hx m hm).2 a ha)⟩

theorem bind {x : Exec α} {f : α → Exec β} {S : β → Prop} (hx : Keeps I x Q)
    (hf : ∀ a, Q a → Keeps I (f a) S) : Keeps I (x >>= f) S := by
  intro m hm
  obtain ⟨hI, hQ⟩ := hx m hm
  match h : x m with
  | (.ok a, m₁) =>
    rw [bind_ok h]
    rw [h] at hI
    exact hf a (hQ a (by rw [h])) m₁ hI
  | (.error e, m₁) =>
    rw [bind_error h]
    rw [h] at hI
    exact ⟨hI, fun _ h => nomatch h⟩
  | (.exhausted, m₁) =>
    rw [bind_exhausted h]
    rw [h] at hI
    exact ⟨hI, fun _ h => nomatch h⟩

/-- Two continuations that agree on the results `x` gives, from the machines it leaves, agree after
`x`. -/
theorem bind_congr {x : Exec α} {f g : α → Exec β} (hx : Keeps I x Q)
    (hfg : ∀ a, Q a → ∀ m, I m.store → f a m = g a m) : ∀ m, I m.store → (x >>= f) m = (x >>= g) m := by
  intro m hm
  obtain ⟨hI, hQ⟩ := hx m hm
  match h : x m with
  | (.ok a, m₁) =>
    rw [bind_ok h, bind_ok h]
    rw [h] at hI
    exact hfg a (hQ a (by rw [h])) m₁ hI
  | (.error e, m₁) => rw [bind_error h, bind_error h]
  | (.exhausted, m₁) => rw [bind_exhausted h, bind_exhausted h]

/-- Each computation of the list keeps the invariant, so their sequence does, and every result
passes. -/
theorem mapM {γ : Type} {f : γ → Exec α} :
    ∀ {xs : List γ}, (∀ c ∈ xs, Keeps I (f c) Q) → Keeps I (xs.mapM f) (fun ys => ∀ y ∈ ys, Q y)
  | [], _ => pure (by simp)
  | c :: cs, hf => by
    rw [List.mapM_cons]
    refine bind (hf c List.mem_cons_self) fun b hb => ?_
    refine bind (mapM fun c' hc' => hf c' (List.mem_cons_of_mem _ hc')) fun bs hbs => ?_
    refine pure ?_
    intro y hy
    rcases List.mem_cons.mp hy with rfl | hy
    · exact hb
    · exact hbs y hy

/-- A fold whose every step keeps the invariant and `R`, from a start that passes `R`. -/
theorem foldlM {γ : Type} {f : α → γ → Exec α} :
    ∀ {xs : List γ}, (∀ b, R b → ∀ c ∈ xs, Keeps I (f b c) R) → ∀ {init : α}, R init →
      Keeps I (xs.foldlM f init) R
  | [], _, _, hinit => pure hinit
  | c :: cs, hf, init, hinit => by
    rw [List.foldlM_cons]
    refine bind (hf init hinit c List.mem_cons_self) fun b hb => ?_
    exact foldlM (fun b' hb' c' hc' => hf b' hb' c' (List.mem_cons_of_mem _ hc')) hb

theorem fresh : Keeps I Exec.fresh (fun _ => True) :=
  fun _ hm => ⟨hm, fun _ _ => trivial⟩

theorem write {s : String} : Keeps I (Exec.write s) (fun _ => True) :=
  fun _ hm => ⟨hm, fun _ _ => trivial⟩

theorem allocate {v : Value} {Q : Value → Prop} (hv : ∀ n, Q (v.allocate n).1) :
    Keeps I (Exec.allocate v) Q :=
  fun m hm => ⟨hm, fun _ h => by cases h; exact hv m.next⟩

theorem lookup {frame : Nat} {k : String} {Q : Option Value → Prop}
    (hQ : ∀ st, I st → Q (st.lookup frame k)) : Keeps I (Exec.lookup frame k) Q :=
  fun m hm => ⟨hm, fun _ h => by cases h; exact hQ m.store hm⟩

theorem define {frame : Nat} {k : String} {v : Value} (hI : ∀ st, I st → I (st.define frame k v)) :
    Keeps I (Exec.define frame k v) (fun _ => True) :=
  fun m hm => ⟨hI m.store hm, fun _ _ => trivial⟩

theorem child {parent : Nat} {kvs : List (String × Value)} {Q : Nat → Prop}
    (hI : ∀ st, I st → I (st.child parent kvs).2 ∧ Q (st.child parent kvs).1) :
    Keeps I (Exec.child parent kvs) Q :=
  fun m hm => ⟨(hI m.store hm).1, fun _ h => by cases h; exact (hI m.store hm).2⟩

end Keeps

end MiniScheme.Exec
