import MiniScheme.Proofs.Combination
import MiniScheme.Proofs.ReadStep
import MiniScheme.Proofs.Display
/-!
# Lists built with a tail

`Value.dotted a t xs` builds the list `x₁ … xₙ . t` from the right: the last cell's rest is `t`, and
every other cell's rest is the next cell. The tail `nil` gives a proper list, which is how
`Value.ofList` builds one. Seen through the list views, the result is the list it was given: its
elements are `x₁ … xₙ` followed by the elements of `t` when `t` is a cell, and what stands after
its dot is what stands after the dot of `t` when `t` is a cell, nothing when `t` is the empty list,
and `t` itself otherwise. A cell as the tail is thus spliced into the list, so the reader, which
builds `(a₁ … aₙ . b)` this way, reads `(1 . (2 3))` as `(1 2 3)`.

Main statement: `dotted_builds_given_list`.
-/

namespace MiniScheme

namespace Value

theorem dotted_cons_cons (a : Nat) (t x y : Value) (ys : List Value) :
    dotted a t (x :: y :: ys) = cons a x (dotted a t (y :: ys)) :=
  rfl

/-- The elements of `x₁ … xₙ . t` are the `xᵢ`, then the elements of `t` when it is a cell. -/
theorem items_dotted (a : Nat) (t : Value) : ∀ {xs : List Value}, xs ≠ [] →
    (dotted a t xs).items = xs ++ t.items
  | [], h => absurd rfl h
  | [_], _ => rfl
  | x :: y :: ys, _ => by
    rw [dotted_cons_cons, items_cons, items_dotted a t (List.cons_ne_nil y ys)]
    rfl

/-- What stands after the dot of a list depends only on the rest of its first cell. -/
theorem terminator?_cons_eq (a b : Nat) (x y d : Value) :
    (cons a x d).terminator? = (cons b y d).terminator? := by
  cases d <;> simp [terminator?]

theorem terminator?_cons_cons (a b : Nat) (x y e : Value) :
    (cons a x (cons b y e)).terminator? = (cons b y e).terminator? := by
  simp [terminator?]

theorem terminator?_cons_nil (a : Nat) (x : Value) : (cons a x nil).terminator? = none := by
  simp [terminator?]

theorem terminator?_cons_notList (a : Nat) (x : Value) {t : Value} (ht : NotList t) :
    (cons a x t).terminator? = some t := by
  cases t with
  | cons b y e => exact absurd rfl (ht.1 b y e)
  | nil => exact absurd rfl ht.2
  | _ => simp [terminator?]

/-- The end of `x₁ … xₙ . t` is the end of any one cell whose rest is `t`. -/
theorem terminator?_dotted (a b : Nat) (y t : Value) : ∀ {xs : List Value}, xs ≠ [] →
    (dotted a t xs).terminator? = (cons b y t).terminator?
  | [], h => absurd rfl h
  | [x], _ => terminator?_cons_eq a b x y t
  | x :: z :: zs, _ => by
    obtain ⟨c, w, e, hc⟩ : ∃ c w e, dotted a t (z :: zs) = cons c w e := by
      cases zs <;> exact ⟨_, _, _, rfl⟩
    rw [dotted_cons_cons, hc, terminator?_cons_cons, ← hc]
    exact terminator?_dotted a b y t (List.cons_ne_nil z zs)

end Value

open Value Read in
/-- **A list built with a tail is the list it was given.** For any elements `x₁ … xₙ`, `n ≥ 1`, and
any tail `t`, the list `x₁ … xₙ . t` has the elements `x₁ … xₙ` followed by those of `t` when `t` is
a cell; what stands after its dot is what stands after the dot of `t` when `t` is a cell, nothing
when `t` is the empty list, and `t` itself when `t` is no list. Built with the empty tail it is a
proper list of exactly the `xᵢ`, and with no elements it is the empty list. The reader builds a
dotted list this way: after reading `x₁ … xₙ` inside a list, a dot that stands alone, the datum `t`
and the closing parenthesis read as `x₁ … xₙ . t`. -/
theorem dotted_builds_given_list (a : Nat) (t : Value) (xs : List Value) (hxs : xs ≠ []) :
    (dotted a t xs).items = xs ++ t.items ∧
      (∀ b y e, t = cons b y e → (dotted a t xs).terminator? = t.terminator?) ∧
      (t = nil → (dotted a t xs).terminator? = none) ∧
      (NotList t → (dotted a t xs).terminator? = some t) ∧
      (ofList a xs).listItems? = some xs ∧ ofList a [] = nil ∧
      (∀ (cs r r₂ r₃ r₄ : List Char) (c₂ : Char), skipBlank cs = '.' :: r →
        atDelimiter r = true → skipBlank r = c₂ :: r₂ → (datum c₂ r₂).Reads t r₃ →
        (expectClose "dotted list" "expected ) after the tail" r₃).Reads () r₄ →
        (listTail xs.reverse cs).Reads (dotted 0 t xs) r₄) := by
  have hend := terminator?_dotted a a .unspecified t hxs
  refine ⟨items_dotted a t hxs, ?_, ?_, ?_, listItems?_ofList a xs, rfl, ?_⟩
  · rintro b y e rfl
    rw [hend, terminator?_cons_cons]
  · rintro rfl
    rw [hend, terminator?_cons_nil]
  · intro ht
    rw [hend, terminator?_cons_notList a _ ht]
  · intro cs r r₂ r₃ r₄ c₂ h hr h₂ hd hcl
    have hread : (listTail xs.reverse cs).Reads (dotted 0 t xs.reverse.reverse) r₄ :=
      listTail_dotted h hr h₂ hd hcl
    rwa [List.reverse_reverse] at hread

open Value in
/-- `(1 2 . (3 . 4))` is the list `(1 2 3 . 4)`. -/
theorem dotted_onto_pair_splices :
    [int 1, int 2] ≠ [] ∧
      (dotted 0 (cons 0 (int 3) (int 4)) [int 1, int 2]).items = [int 1, int 2, int 3] ∧
      (dotted 0 (cons 0 (int 3) (int 4)) [int 1, int 2]).terminator? = some (int 4) := by
  have h := dotted_builds_given_list 0 (cons 0 (int 3) (int 4)) [int 1, int 2] (by simp)
  refine ⟨by simp, ?_, ?_⟩
  · rw [h.1]
    rfl
  · rw [h.2.1 0 (int 3) (int 4) rfl]
    exact terminator?_cons_notList 0 (int 3) ⟨by simp, by simp⟩

end MiniScheme
