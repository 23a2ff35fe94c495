import MiniScheme.Proofs.Confine
import MiniScheme.Proofs.Erase
/-!
# Evaluation does not depend on addresses

Addresses tell apart cells and closures built apart, and nothing in evaluation looks at them: no
primitive compares them and the printed form leaves them out. So two runs that start from stores
alike up to addresses, on forms alike up to addresses, go through alike states and end alike: the
same outcome up to the addresses of the result, stores alike, and the same output
(`evalWith_ignoresAddresses`). The counter of fresh addresses may differ between the two runs.

`Value.Alike` is sameness up to addresses (equal erasures); `Machine.Similar` is the same for
machines, with equal outputs. `Exec.Sim Q x y` is the relational form of a specification: from
similar machines, `x` and `y` reach similar machines and end the same way, their results related by
`Q`. Most lemmas below compare a computation on a datum with the same computation on its erasure;
`Sim.of_erase` turns that into a comparison of any two alike data.
-/

namespace MiniScheme

/-! ### Stores up to addresses -/

/-- A binding with the addresses of its value erased. -/
def Frame.eraseBinding (kv : String × Value) : String × Value :=
  (kv.1, kv.2.erase)

/-- A frame with the addresses of its values erased. -/
def Frame.erase (fr : Frame) : Frame :=
  ⟨fr.parent, fr.bindings.map Frame.eraseBinding⟩

/-- A store with the addresses of its values erased. -/
def Store.erase (st : Store) : Store :=
  ⟨st.frames.map Frame.erase⟩

/-- Two values alike up to addresses. -/
def Value.Alike (v w : Value) : Prop :=
  v.erase = w.erase

/-- Two machines alike up to addresses, with the same output; their counters of fresh addresses may
differ. -/
def Machine.Similar (m₁ m₂ : Machine) : Prop :=
  m₁.store.erase = m₂.store.erase ∧ m₁.output = m₂.output

namespace Frame

@[simp] theorem eraseBinding_fst (kv : String × Value) : (eraseBinding kv).1 = kv.1 :=
  rfl

theorem get?_erase (fr : Frame) (k : String) : fr.erase.get? k = (fr.get? k).map Value.erase := by
  obtain ⟨parent, bs⟩ := fr
  simp only [erase, get?]
  induction bs with
  | nil => rfl
  | cons kv bs ih =>
    obtain ⟨k', w⟩ := kv
    simp only [List.map_cons, eraseBinding, List.lookup_cons]
    cases k == k' with
    | true => rfl
    | false => exact ih

theorem erase_set (fr : Frame) (k : String) (v : Value) :
    (fr.set k v).erase = fr.erase.set k v.erase := by
  simp only [erase, set, List.map_cons, List.filter_map]
  rfl

theorem erase_setAll : ∀ (kvs : List (String × Value)) (fr : Frame),
    (fr.setAll kvs).erase = fr.erase.setAll (kvs.map eraseBinding)
  | [], _ => rfl
  | (k, v) :: kvs, fr => by
    show ((fr.set k v).setAll kvs).erase = (fr.erase.set k v.erase).setAll (kvs.map eraseBinding)
    rw [erase_setAll kvs, erase_set]

end Frame

namespace Store

theorem frames_erase (st : Store) (f : Nat) : st.erase.frames[f]? = (st.frames[f]?).map Frame.erase :=
  Array.getElem?_map

@[simp] theorem size_erase (st : Store) : st.erase.frames.size = st.frames.size :=
  Array.size_map

theorem ext_frames {st₁ st₂ : Store} (h : ∀ f : Nat, st₁.frames[f]? = st₂.frames[f]?) : st₁ = st₂ := by
  obtain ⟨fs₁⟩ := st₁
  obtain ⟨fs₂⟩ := st₂
  have hfs : fs₁ = fs₂ := Array.ext_getElem? h
  rw [hfs]

/-- What a name is bound to in the erased store is its binding, erased. -/
theorem lookup_erase (st : Store) (k : String) :
    ∀ frame, st.erase.lookup frame k = (st.lookup frame k).map Value.erase
  | frame => by
    rw [Store.lookup, Store.lookup, frames_erase]
    cases st.frames[frame]? with
    | none => rfl
    | some fr =>
      simp only [Option.map_some, Frame.get?_erase]
      cases fr.get? k with
      | some v => rfl
      | none =>
        simp only [Option.map_none, Frame.erase]
        cases fr.parent with
        | none => rfl
        | some p =>
          simp only
          split
          · exact lookup_erase st k p
          · rfl
termination_by frame => frame

theorem erase_define (st : Store) (frame : Nat) (k : String) (v : Value) :
    (st.define frame k v).erase = st.erase.define frame k v.erase := by
  apply ext_frames
  intro f
  rw [frames_erase, frames_define, frames_define, frames_erase]
  split
  · simp only [Option.map_map]
    congr 1
    funext fr
    exact Frame.erase_set fr k v
  · rfl

theorem erase_child (st : Store) (parent : Nat) (kvs : List (String × Value)) :
    (st.child parent kvs).2.erase = (st.erase.child parent (kvs.map Frame.eraseBinding)).2 := by
  apply ext_frames
  intro f
  rw [frames_erase, frames_child, frames_child, frames_erase, size_erase]
  split
  · simp only [Option.map_some, Frame.erase_setAll]
    rfl
  · rfl

end Store

namespace Machine.Similar

theorem refl (m : Machine) : m.Similar m :=
  ⟨rfl, rfl⟩

theorem symm {m₁ m₂ : Machine} (h : m₁.Similar m₂) : m₂.Similar m₁ :=
  ⟨h.1.symm, h.2.symm⟩

theorem trans {m₁ m₂ m₃ : Machine} (h₁ : m₁.Similar m₂) (h₂ : m₂.Similar m₃) : m₁.Similar m₃ :=
  ⟨h₁.1.trans h₂.1, h₁.2.trans h₂.2⟩

end Machine.Similar

/-! ### What ignores addresses -/

namespace Value

@[simp] theorem typeName_erase (v : Value) : v.erase.typeName = v.typeName := by
  cases v <;> simp [typeName]

@[simp] theorem isProcedure_erase (v : Value) : v.erase.isProcedure = v.isProcedure := by
  cases v <;> simp [isProcedure]

mutual
/-- The printed form leaves addresses out. -/
theorem write_erase (out : String) : ∀ v : Value, write out v.erase = write out v
  | cons _ x d => by simp only [erase_cons, write, write_erase _ x, writeRest_erase _ d]
  | vector xs => by simp only [erase_vector, write, writeSeq_erase _ xs]
  | closure _ ps b none => by simp only [erase_closure, write, write_erase _ b]
  | closure _ _ _ (some _) => by simp only [erase_closure, write]
  | unspecified | bool _ | int _ | float _ | char _ | str _ | sym _ | nil | prim _ | env _
  | error _ => by simp

theorem writeRest_erase (out : String) : ∀ v : Value, writeRest out v.erase = writeRest out v
  | nil => by simp
  | cons _ x d => by simp only [erase_cons, writeRest, write_erase _ x, writeRest_erase _ d]
  | unspecified | bool _ | int _ | float _ | char _ | str _ | sym _ | prim _ | env _
  | error _ => by simp
  | vector xs => by simp only [erase_vector, writeRest, write, writeSeq_erase _ xs]
  | closure _ ps b none => by simp only [erase_closure, writeRest, write, write_erase _ b]
  | closure _ _ _ (some _) => by simp only [erase_closure, writeRest, write]

theorem writeSeq_erase (out : String) : ∀ xs : List Value, writeSeq out (xs.map erase) = writeSeq out xs
  | [] => rfl
  | [x] => by simp only [List.map_cons, List.map_nil, writeSeq, write_erase]
  | x :: y :: ys => by
    simp only [List.map_cons, writeSeq, write_erase]
    rw [← List.map_cons, writeSeq_erase _ (y :: ys)]
end

@[simp] theorem display_erase (v : Value) : v.erase.display = v.display :=
  write_erase "" v

mutual
/-- New addresses change nothing but addresses. -/
theorem erase_allocate : ∀ (v : Value) (n : Nat), (v.allocate n).1.erase = v.erase
  | cons _ x d, n => by simp only [allocate, erase_cons, erase_allocate x, erase_allocate d]
  | closure _ ps b s, n => by simp only [allocate, erase_closure, erase_allocate b]
  | vector xs, n => by simp only [allocate, erase_vector, eraseAll_allocateAll xs n]
  | unspecified, _ | bool _, _ | int _, _ | float _, _ | char _, _ | str _, _ | sym _, _ | nil, _
  | prim _, _ | env _, _ | error _, _ => rfl

theorem eraseAll_allocateAll : ∀ (xs : List Value) (n : Nat),
    (allocateAll xs n).1.map erase = xs.map erase
  | [], _ => rfl
  | x :: xs, n => by
    simp only [allocateAll, List.map_cons, erase_allocate x, eraseAll_allocateAll xs]
end

theorem Alike.refl (v : Value) : v.Alike v :=
  rfl

theorem alike_erase (v : Value) : v.Alike v.erase :=
  (erase_erase v).symm

end Value

theorem TypeTest.holds_erase (t : TypeTest) (v : Value) : t.holds v.erase = t.holds v := by
  cases t <;> cases v <;> simp [TypeTest.holds, Value.isProcedure]

theorem Primitive.isFalse_erase (v : Value) : Primitive.isFalse v.erase = Primitive.isFalse v := by
  cases v <;> simp [Primitive.isFalse]

namespace Arith

theorem foldInt_erase (op : Arith) :
    ∀ (acc : Int64) (args : List Value) (i : Nat),
      foldInt op acc (args.map Value.erase) i = foldInt op acc args i
  | _, [], _ => rfl
  | acc, v :: rest, i => by
    cases v with
    | int b =>
      simp only [List.map_cons, Value.erase_int, foldInt]
      cases op.onInt acc b with
      | error e => rfl
      | ok n => exact foldInt_erase op n rest (i + 1)
    | _ => simp [foldInt, Value.typeName]

theorem foldFloat_erase (op : Arith) :
    ∀ (acc : Float) (args : List Value) (i : Nat),
      foldFloat op acc (args.map Value.erase) i = foldFloat op acc args i
  | _, [], _ => rfl
  | acc, v :: rest, i => by
    cases v with
    | float b =>
      simp only [List.map_cons, Value.erase_float, foldFloat]
      cases op.onFloat acc b with
      | error e => rfl
      | ok n => exact foldFloat_erase op n rest (i + 1)
    | _ => simp [foldFloat, Value.typeName]

theorem fold_erase (op : Arith) (args : List Value) : op.fold (args.map Value.erase) = op.fold args := by
  rcases args with _ | ⟨v, rest⟩
  · rfl
  · cases v <;> simp [fold, foldInt_erase, foldFloat_erase, Value.typeName]

end Arith

namespace Relation

theorem ints_erase (name : String) :
    ∀ (args : List Value) (i : Nat), ints name (args.map Value.erase) i = ints name args i
  | [], _ => rfl
  | v :: rest, i => by
    cases v <;> simp [ints, ints_erase name rest, Value.typeName]

theorem floats_erase (name : String) :
    ∀ (args : List Value) (i : Nat), floats name (args.map Value.erase) i = floats name args i
  | [], _ => rfl
  | v :: rest, i => by
    cases v <;> simp [floats, floats_erase name rest, Value.typeName]

theorem chain_erase (rel : Relation) (args : List Value) :
    rel.chain (args.map Value.erase) = rel.chain args := by
  rcases args with _ | ⟨v, rest⟩
  · rfl
  · cases v with
    | int n =>
      have hi := ints_erase rel.name (.int n :: rest) 0
      simp only [List.map_cons, Value.erase_int] at hi
      simp [chain, hi]
    | float x =>
      have hf := floats_erase rel.name (.float x :: rest) 0
      simp only [List.map_cons, Value.erase_float] at hf
      simp [chain, hf]
    | _ => simp [chain, Value.typeName]

end Relation

namespace Primitive

theorem check_erase (name : String) {t : Value → Bool} (ht : ∀ v, t v.erase = t v)
    (args : List Value) : check name t (args.map Value.erase) = check name t args := by
  rcases args with _ | ⟨v, _ | ⟨w, rest⟩⟩ <;> simp [check, ht]

theorem first_erase (args : List Value) :
    first (args.map Value.erase) = (first args).map Value.erase := by
  rcases args with _ | ⟨v, _ | ⟨w, rest⟩⟩
  · rfl
  · cases v <;> simp [first, Except.map, Value.typeName]
  · simp [first, Except.map]

theorem rest_erase (args : List Value) :
    rest (args.map Value.erase) = (rest args).map Value.erase := by
  rcases args with _ | ⟨v, _ | ⟨w, rest⟩⟩
  · rfl
  · cases v <;> simp [Primitive.rest, Except.map, Value.typeName]
  · simp [Primitive.rest, Except.map]

theorem makeCell_erase (a : Nat) (args : List Value) :
    (makeCell a args).map Value.erase = makeCell 0 (args.map Value.erase) := by
  rcases args with _ | ⟨v, _ | ⟨w, _ | ⟨u, rest⟩⟩⟩ <;> simp [makeCell, Except.map]

end Primitive

/-- Off the spine of a list, erasing changes nothing that `operands` reads. -/
theorem Eval.operands_erase (name : String) (v : Value) :
    Eval.operands name v.erase = (Eval.operands name v).map (List.map Value.erase) := by
  fun_induction Eval.operands name v with
  | case1 => rfl
  | case2 a x d ih =>
    simp only [Value.erase_cons, Eval.operands, ih]
    cases Eval.operands name d <;> rfl
  | case3 v hnil hcons =>
    cases v with
    | nil => exact absurd rfl hnil
    | cons a x d => exact absurd rfl (hcons a x d)
    | _ => rfl

/-! ### Related computations -/

/-- Two outcomes that end the same way, the results related by `Q`. -/
def Outcome.Rel {α β : Type} (Q : α → β → Prop) : Outcome α → Outcome β → Prop
  | .ok a, .ok b => Q a b
  | .error e, .error e' => e = e'
  | .exhausted, .exhausted => True
  | _, _ => False

theorem Outcome.Rel.symm {α β : Type} {Q : α → β → Prop} :
    ∀ {o₁ : Outcome α} {o₂ : Outcome β}, Outcome.Rel Q o₁ o₂ → Outcome.Rel (fun b a => Q a b) o₂ o₁ := by
  intro o₁ o₂ h
  cases o₁ <;> cases o₂ <;> simp only [Outcome.Rel] at h ⊢
  · exact h
  · exact h.symm

theorem Outcome.Rel.mono {α β : Type} {Q R : α → β → Prop} (hQR : ∀ a b, Q a b → R a b) :
    ∀ {o₁ : Outcome α} {o₂ : Outcome β}, Outcome.Rel Q o₁ o₂ → Outcome.Rel R o₁ o₂ := by
  intro o₁ o₂ h
  cases o₁ <;> cases o₂ <;> simp only [Outcome.Rel] at h ⊢
  · exact hQR _ _ h
  · exact h

/-- Outcomes that end differently are never related, which closes all mixed cases. -/
theorem Outcome.Rel.trans {α β γ : Type} {Q₁ : α → β → Prop} {Q₂ : β → γ → Prop}
    {Q₃ : α → γ → Prop} (hQ : ∀ a b c, Q₁ a b → Q₂ b c → Q₃ a c) :
    ∀ {o₁ : Outcome α} {o₂ : Outcome β} {o₃ : Outcome γ},
      Outcome.Rel Q₁ o₁ o₂ → Outcome.Rel Q₂ o₂ o₃ → Outcome.Rel Q₃ o₁ o₃ := by
  intro o₁ o₂ o₃ h₁ h₂
  cases o₁ <;> cases o₂ <;> cases o₃ <;> simp only [Outcome.Rel] at h₁ h₂ ⊢
  · exact hQ _ _ _ h₁ h₂
  · exact h₁.trans h₂

namespace Exec

/-- From similar machines, `x` and `y` reach similar machines and end the same way, their results
related by `Q`. -/
def Sim {α β : Type} (Q : α → β → Prop) (x : Exec α) (y : Exec β) : Prop :=
  ∀ m₁ m₂, m₁.Similar m₂ → (x m₁).2.Similar (y m₂).2 ∧ Outcome.Rel Q (x m₁).1 (y m₂).1

namespace Sim
variable {α β γ δ : Type} {Q : α → β → Prop}

theorem pure {a : α} {b : β} (h : Q a b) : Sim Q (Pure.pure a) (Pure.pure b) :=
  fun _ _ hm => ⟨hm, h⟩

theorem fail {e : Error} : Sim Q (Exec.fail e) (Exec.fail e) :=
  fun _ _ hm => ⟨hm, rfl⟩

theorem exhaust : Sim Q Exec.exhaust Exec.exhaust :=
  fun _ _ hm => ⟨hm, trivial⟩

theorem mono {x : Exec α} {y : Exec β} {R : α → β → Prop} (h : Sim Q x y)
    (hQR : ∀ a b, Q a b → R a b) : Sim R x y := by
  intro m₁ m₂ hm
  obtain ⟨hm', ho⟩ := h m₁ m₂ hm
  exact ⟨hm', ho.mono hQR⟩

theorem bind {x : Exec α} {y : Exec β} {f : α → Exec γ} {g : β → Exec δ} {S : γ → δ → Prop}
    (hx : Sim Q x y) (hf : ∀ a b, Q a b → Sim S (f a) (g b)) : Sim S (x >>= f) (y >>= g) := by
  intro m₁ m₂ hm
  obtain ⟨hm', ho⟩ := hx m₁ m₂ hm
  rcases h₁ : x m₁ with ⟨o₁, n₁⟩
  rcases h₂ : y m₂ with ⟨o₂, n₂⟩
  rw [h₁, h₂] at hm' ho
  cases o₁ <;> cases o₂ <;> simp only [Outcome.Rel] at ho
  · rw [bind_ok h₁, bind_ok h₂]
    exact hf _ _ ho n₁ n₂ hm'
  · subst ho
    rw [bind_error h₁, bind_error h₂]
    exact ⟨hm', rfl⟩
  · rw [bind_exhausted h₁, bind_exhausted h₂]
    exact ⟨hm', trivial⟩

theorem symm {x : Exec α} {y : Exec β} (h : Sim Q x y) : Sim (fun b a => Q a b) y x := by
  intro m₂ m₁ hm
  obtain ⟨hm', ho⟩ := h m₁ m₂ hm.symm
  exact ⟨hm'.symm, ho.symm⟩

theorem trans {x : Exec α} {y : Exec β} {z : Exec γ} {R : β → γ → Prop} {S : α → γ → Prop}
    (hxy : Sim Q x y) (hyz : Sim R y z) (hQ : ∀ a b c, Q a b → R b c → S a c) : Sim S x z := by
  intro m₁ m₃ hm
  obtain ⟨h₁, o₁⟩ := hxy m₁ m₁ (Machine.Similar.refl m₁)
  obtain ⟨h₂, o₂⟩ := hyz m₁ m₃ hm
  exact ⟨h₁.trans h₂, o₁.trans hQ o₂⟩

/-- A computation that gives alike results on a datum and on its erasure gives alike results on
any two data with one erasure. -/
theorem of_erase {F : γ → Exec Value} {e : γ → γ} (h : ∀ a, Sim Value.Alike (F a) (F (e a)))
    {a₁ a₂ : γ} (heq : e a₁ = e a₂) : Sim Value.Alike (F a₁) (F a₂) := by
  have h₂ := (h a₂).symm
  rw [← heq] at h₂
  exact (h a₁).trans h₂ fun _ _ _ hab hbc => hab.trans hbc.symm

theorem ofExcept_map {f : α → β} {e : Except EvalError α} :
    Sim (fun a b => b = f a) (Exec.ofExcept e) (Exec.ofExcept (e.map f)) := by
  cases e with
  | error err => exact fail
  | ok a => exact pure rfl

theorem ofExcept_eq {e : Except EvalError α} : Sim Eq (Exec.ofExcept e) (Exec.ofExcept e) := by
  cases e with
  | error err => exact fail
  | ok a => exact pure rfl

theorem fresh : Sim (fun _ _ => True) Exec.fresh Exec.fresh :=
  fun _ _ hm => ⟨hm, trivial⟩

theorem write {s : String} : Sim (fun _ _ => True) (Exec.write s) (Exec.write s) :=
  fun _ _ hm => ⟨⟨hm.1, by simp only [Exec.write, hm.2]⟩, trivial⟩

theorem lookup {frame : Nat} {k : String} :
    Sim (fun o₁ o₂ => o₁.map Value.erase = o₂.map Value.erase) (Exec.lookup frame k)
      (Exec.lookup frame k) := by
  intro m₁ m₂ hm
  refine ⟨hm, ?_⟩
  show (m₁.store.lookup frame k).map Value.erase = (m₂.store.lookup frame k).map Value.erase
  rw [← Store.lookup_erase, ← Store.lookup_erase, hm.1]

theorem define {frame : Nat} {k : String} {v₁ v₂ : Value} (hv : v₁.Alike v₂) :
    Sim (fun _ _ => True) (Exec.define frame k v₁) (Exec.define frame k v₂) := by
  intro m₁ m₂ hm
  refine ⟨⟨?_, hm.2⟩, trivial⟩
  show (m₁.store.define frame k v₁).erase = (m₂.store.define frame k v₂).erase
  rw [Store.erase_define, Store.erase_define, hm.1, hv]

theorem child {parent : Nat} {kvs₁ kvs₂ : List (String × Value)}
    (hkvs : kvs₁.map Frame.eraseBinding = kvs₂.map Frame.eraseBinding) :
    Sim Eq (Exec.child parent kvs₁) (Exec.child parent kvs₂) := by
  intro m₁ m₂ hm
  refine ⟨⟨?_, hm.2⟩, ?_⟩
  · show (m₁.store.child parent kvs₁).2.erase = (m₂.store.child parent kvs₂).2.erase
    rw [Store.erase_child, Store.erase_child, hm.1, hkvs]
  · show m₁.store.frames.size = m₂.store.frames.size
    rw [← Store.size_erase, hm.1, Store.size_erase]

theorem ofExcept_of_map {f : α → γ} {e₁ e₂ : Except EvalError α} (h : e₁.map f = e₂.map f) :
    Sim (fun a b => f a = f b) (Exec.ofExcept e₁) (Exec.ofExcept e₂) := by
  cases e₁ <;> cases e₂ <;> simp only [Except.map, Except.error.injEq, Except.ok.injEq, reduceCtorEq] at h
  · subst h
    exact fail
  · exact pure h

theorem allocate {v₁ v₂ : Value} (h : v₁.Alike v₂) :
    Sim Value.Alike (Exec.allocate v₁) (Exec.allocate v₂) := by
  intro m₁ m₂ hm
  refine ⟨hm, ?_⟩
  show (v₁.allocate m₁.next).1.erase = (v₂.allocate m₂.next).1.erase
  rw [Value.erase_allocate, Value.erase_allocate]
  exact h

/-- New addresses for a datum, against the datum as it is: alike, and nothing else changes but the
counter of fresh addresses. -/
theorem allocate_pure {v₁ v₂ : Value} (h : v₁.Alike v₂) :
    Sim Value.Alike (Exec.allocate v₁) (Pure.pure v₂) := by
  intro m₁ m₂ hm
  refine ⟨hm, ?_⟩
  show (v₁.allocate m₁.next).1.erase = v₂.erase
  rw [Value.erase_allocate]
  exact h

/-- Two lists of alike values, run through computations that give alike results on alike values,
give alike lists. -/
theorem mapM_alike {f g : Value → Exec Value}
    (hfg : ∀ x₁ x₂, x₁.Alike x₂ → Sim Value.Alike (f x₁) (g x₂)) :
    ∀ {xs₁ xs₂ : List Value}, xs₁.map Value.erase = xs₂.map Value.erase →
      Sim (fun ys₁ ys₂ => ys₁.map Value.erase = ys₂.map Value.erase) (xs₁.mapM f) (xs₂.mapM g)
  | [], [], _ => pure rfl
  | x₁ :: xs₁, x₂ :: xs₂, h => by
    simp only [List.map_cons, List.cons.injEq] at h
    rw [List.mapM_cons, List.mapM_cons]
    refine bind (hfg x₁ x₂ h.1) fun y₁ y₂ hy => ?_
    refine bind (mapM_alike hfg h.2) fun ys₁ ys₂ hys => ?_
    exact pure (by simp only [List.map_cons, hys]; rw [hy])
  | [], _ :: _, h | _ :: _, [], h => by simp at h

/-- A fold over alike lists, from alike starts, with steps that give alike results on alike
values. -/
theorem foldlM_alike {f g : Value → Value → Exec Value}
    (hfg : ∀ b₁ b₂ x₁ x₂, b₁.Alike b₂ → x₁.Alike x₂ → Sim Value.Alike (f b₁ x₁) (g b₂ x₂)) :
    ∀ {xs₁ xs₂ : List Value}, xs₁.map Value.erase = xs₂.map Value.erase →
      ∀ {i₁ i₂ : Value}, i₁.Alike i₂ → Sim Value.Alike (xs₁.foldlM f i₁) (xs₂.foldlM g i₂)
  | [], [], _, _, _, hi => pure hi
  | x₁ :: xs₁, x₂ :: xs₂, h, i₁, i₂, hi => by
    simp only [List.map_cons, List.cons.injEq] at h
    rw [List.foldlM_cons, List.foldlM_cons]
    exact bind (hfg i₁ i₂ x₁ x₂ hi h.1) fun b₁ b₂ hb => foldlM_alike hfg h.2 hb
  | [], _ :: _, h, _, _, _ | _ :: _, [], h, _, _, _ => by simp at h

end Sim

end Exec

namespace Value

theorem alike_closure {a : Nat} {ps : List String} {b : Value} {s : Option Nat} {v : Value}
    (h : (closure a ps b s).Alike v) : ∃ a' b', v = closure a' ps b' s ∧ b.Alike b' := by
  cases v with
  | closure a' ps' b' s' =>
    simp only [Alike, erase_closure, closure.injEq, true_and] at h
    obtain ⟨rfl, hb, rfl⟩ := h
    exact ⟨a', b', rfl, hb⟩
  | _ => simp [Alike] at h

theorem erase_eq_env {v : Value} {f : Nat} (h : v.erase = env f) : v = env f := by
  cases v <;> simp_all

theorem alike_prim {q : Primitive} {v : Value} (h : (prim q).Alike v) : v = prim q := by
  cases v with
  | prim q' =>
    simp only [Alike, erase_prim, prim.injEq] at h
    rw [h]
  | _ => simp [Alike] at h

/-- Two lookups with one erasure: both find nothing, or both find alike values. -/
theorem map_erase_eq_cases {o₁ o₂ : Option Value} (h : o₁.map erase = o₂.map erase) :
    (o₁ = none ∧ o₂ = none) ∨ ∃ v₁ v₂, o₁ = some v₁ ∧ o₂ = some v₂ ∧ v₁.Alike v₂ := by
  rcases o₁ with _ | v₁ <;> rcases o₂ with _ | v₂ <;>
    simp only [Option.map_none, Option.map_some, reduceCtorEq, Option.some.injEq] at h
  · exact .inl ⟨rfl, rfl⟩
  · exact .inr ⟨v₁, v₂, rfl, rfl, h⟩

end Value

/-! ### Evaluation, level by level -/

namespace Eval

/-- Alike forms evaluate alike, from similar machines. -/
def IgnoresAddresses (ev : Evaluator) : Prop :=
  ∀ x₁ x₂ frame, x₁.Alike x₂ → Exec.Sim Value.Alike (ev x₁ frame) (ev x₂ frame)

section
variable {ev : Evaluator} {frame : Nat}
open Exec

theorem evalOperands_sim (hev : IgnoresAddresses ev) {name : String} {rest₁ rest₂ : Value}
    (h : rest₁.Alike rest₂) :
    Sim (fun ys₁ ys₂ => ys₁.map Value.erase = ys₂.map Value.erase)
      (evalOperands ev frame name rest₁) (evalOperands ev frame name rest₂) := by
  unfold evalOperands
  have hops : (operands name rest₁).map (List.map Value.erase) =
      (operands name rest₂).map (List.map Value.erase) := by
    rw [← operands_erase, ← operands_erase, h]
  exact Sim.bind (Sim.ofExcept_of_map hops) fun _ _ hxs =>
    Sim.mapM_alike (fun x₁ x₂ hx => hev x₁ x₂ frame hx) hxs

theorem lookupName_sim {name : String} :
    Sim Value.Alike (lookupName name frame) (lookupName name frame) := by
  unfold lookupName
  refine Sim.bind Sim.lookup fun o₁ o₂ ho => ?_
  rcases Value.map_erase_eq_cases ho with ⟨rfl, rfl⟩ | ⟨v₁, v₂, rfl, rfl, hv⟩
  · dsimp only
    cases Primitive.named? name with
    | some q => exact Sim.pure rfl
    | none => exact Sim.fail
  · exact Sim.pure hv

theorem applyClosure_sim (hev : IgnoresAddresses ev) {name : String} {ps : List String}
    {b₁ b₂ : Value} {scope : Nat} {args₁ args₂ : List Value} (hb : b₁.Alike b₂)
    (hargs : args₁.map Value.erase = args₂.map Value.erase) :
    Sim Value.Alike (applyClosure ev name ps b₁ scope args₁) (applyClosure ev name ps b₂ scope args₂) := by
  have hlen : args₁.length = args₂.length := by
    rw [← List.length_map (f := Value.erase), hargs, List.length_map]
  have hkvs : (ps.zip args₁).map Frame.eraseBinding = (ps.zip args₂).map Frame.eraseBinding := by
    have hzip : ∀ args : List Value,
        (ps.zip args).map Frame.eraseBinding = ps.zip (args.map Value.erase) := fun args => by
      rw [List.zip_map_right]
      rfl
    rw [hzip, hzip, hargs]
  unfold applyClosure
  rw [hlen]
  split
  · exact Sim.bind (Sim.child hkvs) fun f₁ f₂ hf => hf ▸ hev b₁ b₂ f₁ hb
  · exact Sim.fail

theorem evalText_sim (hev : IgnoresAddresses ev) {src : String} :
    Sim Value.Alike (evalText ev frame src) (evalText ev frame src) := by
  unfold evalText
  rcases Read.all src.toList with ⟨forms, err⟩
  refine Sim.bind (Sim.foldlM_alike (fun _ _ x₁ x₂ _ hx => ?_) rfl (Value.Alike.refl _))
    fun v₁ v₂ hv => ?_
  · exact Sim.bind (Sim.allocate hx) fun f₁ f₂ hf => hev f₁ f₂ frame hf
  · cases err with
    | some e => exact Sim.fail
    | none => exact Sim.pure hv

theorem evalIn_erase (hev : IgnoresAddresses ev) (x : Value) (target : Nat) :
    Sim Value.Alike (evalIn ev x target) (evalIn ev x.erase target) := by
  cases x with
  | str s => exact evalText_sim hev
  | _ => exact hev _ _ target (Value.alike_erase _)

theorem evalPrimitive_erase (hev : IgnoresAddresses ev) (args : List Value) :
    Sim Value.Alike (evalPrimitive ev frame args) (evalPrimitive ev frame (args.map Value.erase)) := by
  rcases args with _ | ⟨x, _ | ⟨v, _ | ⟨w, rest⟩⟩⟩
  · exact Sim.fail
  · exact evalIn_erase hev x frame
  · by_cases hv : ∃ t, v = .env t
    · obtain ⟨t, rfl⟩ := hv
      exact evalIn_erase hev x t
    · have hv' : ∀ t, v.erase = .env t → False := fun t h => hv ⟨t, Value.erase_eq_env h⟩
      rw [List.map_cons, List.map_cons, List.map_nil,
        evalPrimitive.eq_3 _ _ _ _ (fun t h => hv ⟨t, h⟩), evalPrimitive.eq_3 _ _ _ _ hv',
        Value.typeName_erase]
      exact Sim.fail
  · rw [evalPrimitive.eq_4 _ _ _ (by simp) (by simp) (by simp),
      evalPrimitive.eq_4 _ _ _ (by simp) (by simp) (by simp), List.length_map]
    exact Sim.fail

/-- A primitive whose result, as an `Except`, is the same on a list and on its erasure. -/
theorem ofExcept_same {e₁ e₂ : Except EvalError Value} (h : e₁ = e₂) :
    Sim Value.Alike (Exec.ofExcept e₁) (Exec.ofExcept e₂) :=
  h ▸ Sim.ofExcept_eq.mono fun _ _ hab => hab ▸ rfl

/-- A primitive whose result on the erasure of a list is the erasure of its result. -/
theorem ofExcept_erase {e : Except EvalError Value} :
    Sim Value.Alike (Exec.ofExcept e) (Exec.ofExcept (e.map Value.erase)) :=
  Sim.ofExcept_map.mono fun a _ hab => hab ▸ Value.alike_erase a

theorem applyPrimitive_erase (hev : IgnoresAddresses ev) (q : Primitive) (args : List Value) :
    Sim Value.Alike (applyPrimitive ev q args frame)
      (applyPrimitive ev q (args.map Value.erase) frame) := by
  cases q with
  | arith op => exact ofExcept_same (Arith.fold_erase op args).symm
  | compare rel => exact ofExcept_same (Relation.chain_erase rel args).symm
  | test t =>
    exact ofExcept_same (Primitive.check_erase t.label (TypeTest.holds_erase t) args).symm
  | not => exact ofExcept_same (Primitive.check_erase "not" Primitive.isFalse_erase args).symm
  | car =>
    show Sim _ (Exec.ofExcept _) (Exec.ofExcept _)
    rw [Primitive.first_erase]
    exact ofExcept_erase
  | cdr =>
    show Sim _ (Exec.ofExcept _) (Exec.ofExcept _)
    rw [Primitive.rest_erase]
    exact ofExcept_erase
  | cons =>
    refine Sim.bind Sim.fresh fun a₁ a₂ _ => Sim.ofExcept_of_map ?_
    rw [Primitive.makeCell_erase, Primitive.makeCell_erase, List.map_map]
    simp only [Function.comp_def, Value.erase_erase]
  | list =>
    refine Sim.bind Sim.fresh fun a₁ a₂ _ => Sim.pure ?_
    simp only [Value.Alike, Value.erase_ofList, List.map_map, Function.comp_def, Value.erase_erase]
  | display =>
    rcases args with _ | ⟨v, _ | ⟨w, rest⟩⟩
    · exact Sim.fail
    · show Sim _ (Exec.write (v.display ++ "\n") >>= _) (Exec.write (v.erase.display ++ "\n") >>= _)
      rw [Value.display_erase]
      exact Sim.bind Sim.write fun _ _ _ => Sim.pure rfl
    · show Sim _ (Exec.fail _) (Exec.fail _)
      simp only [List.map_cons, List.length_cons, List.length_map]
      exact Sim.fail
  | eval => exact evalPrimitive_erase hev args
  | env =>
    rcases args with _ | ⟨v, rest⟩
    · exact Sim.pure rfl
    · show Sim _ (Exec.fail _) (Exec.fail _)
      simp only [List.map_cons, List.length_cons, List.length_map]
      exact Sim.fail

theorem applyPrimitive_sim (hev : IgnoresAddresses ev) {q : Primitive} {args₁ args₂ : List Value}
    (h : args₁.map Value.erase = args₂.map Value.erase) :
    Sim Value.Alike (applyPrimitive ev q args₁ frame) (applyPrimitive ev q args₂ frame) :=
  Sim.of_erase (applyPrimitive_erase hev q) h

/-- The operands of a special form, and of its erasure: the same list, erased. -/
theorem operands_sim {name : String} {rest : Value} :
    Sim (fun xs ys => ys = xs.map Value.erase) (Exec.ofExcept (operands name rest))
      (Exec.ofExcept (operands name rest.erase)) := by
  rw [operands_erase]
  exact Sim.ofExcept_map

theorem define_erase (hev : IgnoresAddresses ev) (rest : Value) :
    Sim Value.Alike (define ev rest frame) (define ev rest.erase frame) := by
  unfold define
  refine Sim.bind operands_sim fun xs ys hys => ?_
  subst hys
  rcases xs with _ | ⟨x, more⟩
  · exact Sim.fail
  · cases x with
    | sym name =>
      rcases more with _ | ⟨y, _ | ⟨z, more⟩⟩
      · exact Sim.fail
      · refine Sim.bind (hev y y.erase frame (Value.alike_erase y)) fun v₁ v₂ hv => ?_
        exact Sim.bind (Sim.define hv) fun _ _ _ => Sim.pure rfl
      · exact Sim.fail
    | _ => exact Sim.fail

theorem quote_erase {keyword : String} (rest : Value) :
    Sim Value.Alike (quote keyword rest) (quote keyword rest.erase) := by
  unfold quote
  refine Sim.bind operands_sim fun xs ys hys => ?_
  subst hys
  rcases xs with _ | ⟨x, _ | ⟨y, more⟩⟩
  · exact Sim.fail
  · exact Sim.pure (Value.alike_erase x)
  · exact Sim.fail

/-- The test's values are alike, so both runs take the same branch. -/
theorem conditional_erase (hev : IgnoresAddresses ev) (rest : Value) :
    Sim Value.Alike (conditional ev rest frame) (conditional ev rest.erase frame) := by
  unfold conditional
  refine Sim.bind operands_sim fun xs ys hys => ?_
  subst hys
  have hfalse : ∀ v₁ v₂ : Value, v₁.Alike v₂ → Primitive.isFalse v₁ = Primitive.isFalse v₂ :=
    fun v₁ v₂ h => by rw [← Primitive.isFalse_erase v₁, h, Primitive.isFalse_erase]
  rcases xs with _ | ⟨c, _ | ⟨t, _ | ⟨e, _ | ⟨z, more⟩⟩⟩⟩
  · exact Sim.fail
  · exact Sim.fail
  · refine Sim.bind (hev c c.erase frame (Value.alike_erase c)) fun v₁ v₂ hv => ?_
    simp only [hfalse v₁ v₂ hv]
    split
    · exact Sim.pure rfl
    · exact hev t t.erase frame (Value.alike_erase t)
  · refine Sim.bind (hev c c.erase frame (Value.alike_erase c)) fun v₁ v₂ hv => ?_
    simp only [hfalse v₁ v₂ hv]
    split
    · exact hev e e.erase frame (Value.alike_erase e)
    · exact hev t t.erase frame (Value.alike_erase t)
  · exact Sim.fail

theorem sequence_erase (hev : IgnoresAddresses ev) (rest : Value) :
    Sim Value.Alike (sequence ev rest frame) (sequence ev rest.erase frame) := by
  unfold sequence
  refine Sim.bind operands_sim fun xs ys hys => ?_
  subst hys
  refine Sim.foldlM_alike (fun _ _ x₁ x₂ _ hx => hev x₁ x₂ frame hx) ?_ (Value.Alike.refl _)
  simp only [List.map_map, Function.comp_def, Value.erase_erase]

/-- Calls of one name on alike operands run alike: what the name is bound to in the two runs is
alike, so both call the same kind of procedure, and where the first run finds no procedure neither
does the second. -/
theorem call_sim (hev : IgnoresAddresses ev) {name : String} {rest₁ rest₂ : Value}
    (h : rest₁.Alike rest₂) :
    Sim Value.Alike (call ev name rest₁ frame) (call ev name rest₂ frame) := by
  unfold call
  split
  · exact Sim.bind (evalOperands_sim hev h) fun _ _ hargs => applyPrimitive_sim hev hargs
  · refine Sim.bind Sim.lookup fun o₁ o₂ ho => ?_
    rcases Value.map_erase_eq_cases ho with ⟨rfl, rfl⟩ | ⟨v₁, v₂, rfl, rfl, hv⟩
    · exact Sim.fail
    · split
      · rename_i a ps b s hsome
        obtain rfl := Option.some.inj hsome
        obtain ⟨a', b', rfl, hb⟩ := Value.alike_closure hv
        exact Sim.bind (evalOperands_sim hev h) fun _ _ hargs => applyClosure_sim hev hb hargs
      · rename_i q hsome
        obtain rfl := Option.some.inj hsome
        obtain rfl := Value.alike_prim hv
        exact Sim.bind (evalOperands_sim hev h) fun _ _ hargs => applyPrimitive_sim hev hargs
      · rename_i hclosure hprim
        split
        · rename_i a ps b s hsome
          obtain rfl := Option.some.inj hsome
          obtain ⟨a', b', rfl, -⟩ := Value.alike_closure hv.symm
          exact absurd rfl (hclosure a' ps b' s)
        · rename_i q hsome
          obtain rfl := Option.some.inj hsome
          exact absurd (congrArg some (Value.alike_prim hv.symm)) (hprim q)
        · exact Sim.fail

theorem combination_erase (hev : IgnoresAddresses ev) (head rest : Value) :
    Sim Value.Alike (combination ev head rest frame) (combination ev head.erase rest.erase frame) := by
  cases head with
  | closure a ps b s =>
    exact Sim.bind (evalOperands_sim hev (Value.alike_erase rest)) fun _ _ hargs =>
      applyClosure_sim hev (Value.alike_erase b) hargs
  | prim q =>
    exact Sim.bind (evalOperands_sim hev (Value.alike_erase rest)) fun _ _ hargs =>
      applyPrimitive_sim hev hargs
  | sym name =>
    simp only [combination, Value.erase_sym]
    split_ifs
    · exact define_erase hev rest
    · exact quote_erase rest
    · exact conditional_erase hev rest
    · exact sequence_erase hev rest
    · exact call_sim hev (Value.alike_erase rest)
  | _ => exact hev _ _ frame (Value.alike_erase _)

/-- One level of evaluation gives alike results on a form and on its erasure. -/
theorem step_erase (hev : IgnoresAddresses ev) (x : Value) (frame : Nat) :
    Sim Value.Alike (step ev x frame) (step ev x.erase frame) := by
  cases x with
  | error e => exact Sim.fail
  | sym name => exact lookupName_sim
  | closure a ps b s =>
    refine Sim.bind Sim.fresh fun a₁ a₂ _ => Sim.pure ?_
    simp [Value.Alike]
  | cons a head rest => exact combination_erase hev head rest
  | _ => exact Sim.pure (Value.alike_erase _)

theorem step_ignoresAddresses (hev : IgnoresAddresses ev) : IgnoresAddresses (step ev) :=
  fun _ _ frame h => Sim.of_erase (fun x => step_erase hev x frame) h

/-- **Evaluation ignores addresses.** At every depth, alike forms evaluated from similar machines
end the same way, with alike results, similar machines and the same output. -/
theorem evalWith_ignoresAddresses : ∀ n, IgnoresAddresses (evalWith n)
  | 0 => fun _ _ _ _ => Sim.exhaust
  | n + 1 => step_ignoresAddresses (evalWith_ignoresAddresses n)

end

end Eval

end MiniScheme
