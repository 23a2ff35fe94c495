import MiniScheme.Value.Basic
/-!
# Values without their addresses

Cells and closures carry addresses, which stand for their identity: two lists built apart are two
data even when they hold the same elements. `Value.erase` forgets the addresses (every one becomes
`0`, as in data read from text), so two values have the same erasure exactly when they are the same
datum up to identity: the structural equality of values.

Main statements: `erase_erase`, and `erase_dotted`, which says that erasing a list built by `dotted`
erases its elements and its end.
-/

namespace MiniScheme.Value

mutual
/-- The value with every address `0`. -/
def erase : Value → Value
  | cons _ x d => cons 0 x.erase d.erase
  | vector xs => vector (eraseAll xs)
  | closure _ ps b s => closure 0 ps b.erase s
  | v => v

/-- `erase` on each element of a list. -/
def eraseAll : List Value → List Value
  | [] => []
  | x :: xs => x.erase :: eraseAll xs
end

@[simp] theorem eraseAll_eq_map : ∀ xs : List Value, eraseAll xs = xs.map erase
  | [] => by simp [eraseAll]
  | x :: xs => by simp [eraseAll, eraseAll_eq_map xs]

@[simp] theorem erase_cons (a : Nat) (x d : Value) : (cons a x d).erase = cons 0 x.erase d.erase := rfl

@[simp] theorem erase_vector (xs : List Value) : (vector xs).erase = vector (xs.map erase) :=
  congrArg vector (eraseAll_eq_map xs)

@[simp] theorem erase_closure (a : Nat) (ps : List String) (b : Value) (s : Option Nat) :
    (closure a ps b s).erase = closure 0 ps b.erase s := rfl

@[simp] theorem erase_unspecified : unspecified.erase = unspecified := rfl
@[simp] theorem erase_bool (b : Bool) : (bool b).erase = bool b := rfl
@[simp] theorem erase_int (n : Int64) : (int n).erase = int n := rfl
@[simp] theorem erase_float (x : Float) : (float x).erase = float x := rfl
@[simp] theorem erase_char (c : Char) : (char c).erase = char c := rfl
@[simp] theorem erase_str (s : String) : (str s).erase = str s := rfl
@[simp] theorem erase_sym (s : String) : (sym s).erase = sym s := rfl
@[simp] theorem erase_nil : nil.erase = nil := rfl
@[simp] theorem erase_prim (p : Primitive) : (prim p).erase = prim p := rfl
@[simp] theorem erase_env (f : Nat) : (env f).erase = env f := rfl
@[simp] theorem erase_error (e : Error) : (error e).erase = error e := rfl

mutual
@[simp] theorem erase_erase : ∀ v : Value, v.erase.erase = v.erase
  | cons _ x d => by simp [erase_erase x, erase_erase d]
  | vector xs => by simp [eraseAll_erase xs]
  | closure _ _ b _ => by simp [erase_erase b]
  | unspecified | bool _ | int _ | float _ | char _ | str _ | sym _ | nil | prim _ | env _
  | error _ => by simp

theorem eraseAll_erase : ∀ xs : List Value, xs.map (erase ∘ erase) = xs.map erase
  | [] => rfl
  | x :: xs => by simp [erase_erase x, eraseAll_erase xs]
end

/-- Erasing a list built by `dotted` erases its elements and its end. -/
@[simp] theorem erase_dotted (a : Nat) (last : Value) :
    ∀ xs : List Value, (dotted a last xs).erase = dotted 0 last.erase (xs.map erase)
  | [] => by simp
  | [x] => by simp [dotted]
  | x :: y :: ys => by
    simp only [dotted, erase_cons, List.map_cons]
    rw [← List.map_cons, erase_dotted a last (y :: ys)]

@[simp] theorem erase_ofList (a : Nat) (xs : List Value) :
    (ofList a xs).erase = ofList 0 (xs.map erase) := by
  simp [ofList]

@[simp] theorem symbol?_erase (v : Value) : v.erase.symbol? = v.symbol? := by
  cases v <;> simp [symbol?]

end MiniScheme.Value
