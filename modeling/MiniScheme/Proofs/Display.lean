import MiniScheme.Value.Print
/-!
# The printed form of a value, piece by piece

`Value.write` appends onto an accumulator, so that printing a long list costs time in proportion to
its text. For reasoning the accumulator is in the way: `write_eq` says it only prefixes, and the
equations below give `display` of each kind of value from the displays of its parts. A list prints
as `(`, its first element, `writeRest` of the rest (a space before each further element, ` . `
before a dotted end) and `)`; a vector as `#(`, its elements separated by spaces (`writeSeq`), `)`.
-/

namespace MiniScheme.Value

mutual
theorem write_eq (out : String) : ∀ v : Value, write out v = out ++ display v
  | unspecified => by simp [display, write]
  | bool true => by simp [display, write]
  | bool false => by simp [display, write]
  | int _ => by simp [display, write]
  | float _ => by simp [display, write]
  | char _ => by simp only [display, write, String.empty_append, String.append_assoc]
  | str _ => by simp only [display, write, String.empty_append, String.append_assoc]
  | sym _ => by simp [display, write]
  | nil => by simp [display, write]
  | cons _ x d => by
    simp only [display, write, String.empty_append]
    rw [writeRest_eq _ d, writeRest_eq (write "(" x) d, write_eq _ x, write_eq "(" x]
    simp only [String.append_assoc]
  | vector xs => by
    simp only [display, write, String.empty_append]
    rw [writeSeq_eq _ xs, writeSeq_eq "#(" xs]
    simp only [String.append_assoc]
  | closure _ ps b none => by
    simp only [display, write, String.empty_append]
    rw [write_eq _ b, write_eq (_ ++ _) b]
    simp only [String.append_assoc]
  | closure _ _ _ (some _) => by simp [display, write]
  | prim _ => by simp [display, write]
  | env _ => by simp [display, write]
  | error _ => by simp [display, write]

theorem writeRest_eq (out : String) : ∀ v : Value, writeRest out v = out ++ writeRest "" v
  | nil => by simp [writeRest]
  | cons _ x d => by
    simp only [writeRest, String.empty_append]
    rw [writeRest_eq _ d, writeRest_eq (write " " x) d, write_eq _ x, write_eq " " x]
    simp only [String.append_assoc]
  | unspecified | bool _ | int _ | float _ | char _ | str _ | sym _ | vector _ | closure ..
  | prim _ | env _ | error _ => by
    simp only [writeRest, String.empty_append]
    rw [write_eq, write_eq " . "]
    simp only [String.append_assoc]

theorem writeSeq_eq (out : String) : ∀ xs : List Value, writeSeq out xs = out ++ writeSeq "" xs
  | [] => by simp [writeSeq]
  | [x] => by simp only [writeSeq]; rw [write_eq, write_eq ""]; simp
  | x :: y :: ys => by
    simp only [writeSeq]
    rw [writeSeq_eq _ (y :: ys), writeSeq_eq (write "" x ++ " ") (y :: ys), write_eq _ x,
      write_eq "" x]
    simp only [String.empty_append, String.append_assoc]
end

/-- A value that is neither a cell nor the empty list, so that it ends a list after a dot. -/
def NotList (v : Value) : Prop :=
  (∀ a x d, v ≠ cons a x d) ∧ v ≠ nil

/-- Every value is the empty list, a cell, or no list at all. -/
theorem nil_or_cons_or_notList (v : Value) : v = nil ∨ (∃ a x d, v = cons a x d) ∨ NotList v := by
  cases v with
  | nil => exact .inl rfl
  | cons a x d => exact .inr (.inl ⟨a, x, d, rfl⟩)
  | _ => exact .inr (.inr ⟨by simp, by simp⟩)

theorem display_cons (a : Nat) (x d : Value) :
    (cons a x d).display = "(" ++ x.display ++ writeRest "" d ++ ")" := by
  rw [display, write, writeRest_eq, write_eq, String.empty_append]

@[simp] theorem writeRest_nil : writeRest "" nil = "" := by simp [writeRest]

theorem writeRest_cons (a : Nat) (x d : Value) :
    writeRest "" (cons a x d) = " " ++ x.display ++ writeRest "" d := by
  rw [writeRest, writeRest_eq, write_eq, String.empty_append]

theorem writeRest_notList : ∀ {v : Value}, NotList v → writeRest "" v = " . " ++ v.display
  | cons a x d, hv => absurd rfl (hv.1 a x d)
  | nil, hv => absurd rfl hv.2
  | unspecified, _ | bool _, _ | int _, _ | float _, _ | char _, _ | str _, _ | sym _, _
  | vector _, _ | closure .., _ | prim _, _ | env _, _ | error _, _ => by
    simp only [writeRest, String.empty_append]
    rw [write_eq]

theorem display_vector (xs : List Value) :
    (vector xs).display = "#(" ++ writeSeq "" xs ++ ")" := by
  rw [display, write, writeSeq_eq, String.empty_append]

@[simp] theorem writeSeq_nil : writeSeq "" [] = "" := by simp [writeSeq]

theorem writeSeq_singleton (x : Value) : writeSeq "" [x] = x.display := by
  rw [writeSeq, display]

theorem writeSeq_cons_cons (x y : Value) (ys : List Value) :
    writeSeq "" (x :: y :: ys) = x.display ++ " " ++ writeSeq "" (y :: ys) := by
  simp only [writeSeq]
  rw [writeSeq_eq, display]

theorem display_closure (a : Nat) (ps : List String) (b : Value) :
    (closure a ps b none).display = "(LAMBDA (" ++ " ".intercalate ps ++ ") " ++ b.display ++ ")" := by
  rw [display, write, write_eq, String.empty_append]

@[simp] theorem display_int (n : Int64) : (int n).display = toString n.toInt := by
  simp [display, write]

@[simp] theorem display_bool_true : (bool true).display = "#T" := by simp [display, write]
@[simp] theorem display_bool_false : (bool false).display = "#F" := by simp [display, write]

@[simp] theorem display_char (c : Char) : (char c).display = "#\\" ++ String.singleton c := by
  simp [display, write]

@[simp] theorem display_str (s : String) : (str s).display = "\"" ++ s ++ "\"" := by
  simp [display, write]

@[simp] theorem display_sym (s : String) : (sym s).display = s := by simp [display, write]

@[simp] theorem display_nil : nil.display = "()" := by simp [display, write]

theorem display_error (e : Error) : (error e).display = e.message := by simp [display, write]

end MiniScheme.Value
