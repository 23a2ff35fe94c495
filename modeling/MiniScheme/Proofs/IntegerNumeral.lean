import MiniScheme.Proofs.ExactArithmetic
import MiniScheme.Proofs.UpperToken
import MiniScheme.Proofs.RoundTrip
import Mathlib.Data.List.TakeWhile
/-!
# Integer numerals

The grammar of integer numerals, stated on its own (`IntegerNumeral`): an optional sign, then `0x`
or `0X` and hexadecimal digit groups, `0b` or `0B` and binary digit groups, `0`, `0o` or `0O` and
octal digit groups (the three prefixes may be followed by one underscore), or a decimal numeral
without a leading zero, or `0` alone. Digit groups are non-empty and joined by single underscores
(`Groups`). A numeral denotes the value of its digits in its radix, with its sign.

Main statement:

* `integer_numeral_denotes_exactly`: reading a token as an integer succeeds exactly on the numerals
  of the grammar whose value lies in the 64-bit range, with that value; an atom is an integer exactly
  then; and a numeral out of range is a float when it is made of digits only (read as a decimal
  numeral, also when it had the leading zero of an octal one) and a symbol otherwise.

The proof pairs each function of the numeral reader with a part of the grammar: `digitGroups` and
`groupsTail` with `Groups` and `AfterDigit` (`digitGroups_eq_some_iff`), `afterPrefix` with an
optional underscore before groups, and `unsignedInteger` with `Unsigned` (`unsignedInteger_eq_some_iff`).
-/

namespace MiniScheme.Read

/-! ### The grammar -/

/-- Groups of digits of `radix`, each non-empty, joined by single underscores. -/
inductive Groups (radix : Nat) : List Char → Prop
  | one {g : List Char} : g ≠ [] → (∀ c ∈ g, (digitIn radix c).isSome) → Groups radix g
  | join {g rest : List Char} : g ≠ [] → (∀ c ∈ g, (digitIn radix c).isSome) → Groups radix rest →
      Groups radix (g ++ '_' :: rest)

/-- What may follow a digit inside groups: nothing, more groups, or an underscore and more groups. -/
def AfterDigit (radix : Nat) (cs : List Char) : Prop :=
  cs = [] ∨ Groups radix cs ∨ ∃ g, cs = '_' :: g ∧ Groups radix g

/-- The value of the digits of a text in `radix`, the most significant first; underscores count for
nothing. -/
def groupsValue (radix : Nat) (cs : List Char) : Nat :=
  digitsValue radix (cs.filterMap (digitIn radix))

/-- The prefixes that choose a radix: `0x` and `0X` hexadecimal, `0b` and `0B` binary, `0`, `0o` and
`0O` octal. -/
inductive RadixPrefix : List Char → Nat → Prop
  | hex {x : Char} : x = 'x' ∨ x = 'X' → RadixPrefix ['0', x] 16
  | bin {x : Char} : x = 'b' ∨ x = 'B' → RadixPrefix ['0', x] 2
  | octMark {x : Char} : x = 'o' ∨ x = 'O' → RadixPrefix ['0', x] 8
  | oct : RadixPrefix ['0'] 8

/-- An integer numeral without its sign, and its value. -/
inductive Unsigned : List Char → Nat → Prop
  /-- A radix prefix, perhaps an underscore, and digit groups of that radix. -/
  | prefixed {p u ds : List Char} {radix : Nat} : RadixPrefix p radix → (u = [] ∨ u = ['_']) →
      Groups radix ds → Unsigned (p ++ (u ++ ds)) (groupsValue radix ds)
  /-- Decimal digit groups that start with a digit other than `0`. -/
  | decimal {c : Char} {cs : List Char} : '1' ≤ c ∧ c ≤ '9' → Groups 10 (c :: cs) →
      Unsigned (c :: cs) (groupsValue 10 (c :: cs))
  | zero : Unsigned ['0'] 0

/-- An integer numeral and the integer it denotes: an unsigned numeral, perhaps after a sign. -/
inductive IntegerNumeral : List Char → Int → Prop
  | unsigned {body : List Char} {m : Nat} : Unsigned body m → IntegerNumeral body m
  | plus {body : List Char} {m : Nat} : Unsigned body m → IntegerNumeral ('+' :: body) m
  | minus {body : List Char} {m : Nat} : Unsigned body m → IntegerNumeral ('-' :: body) (-(m : Int))

/-! ### Digit groups -/

theorem digitIn_underscore (radix : Nat) : digitIn radix '_' = none :=
  rfl

/-- A digit of a radix up to ten is a decimal digit: a letter stands for ten or more, which no such
radix takes. -/
theorem isDigit_of_digitIn {radix : Nat} {c : Char} (hr : radix ≤ 10)
    (h : (digitIn radix c).isSome) : c.isDigit = true := by
  have hle : ∀ a b : Char, a ≤ b ↔ a.toNat ≤ b.toNat := fun a b => by
    rw [Char.le_def, UInt32.le_iff_toNat_le]
    rfl
  have h0 : ('0' : Char).toNat = 48 := rfl
  have h9 : ('9' : Char).toNat = 57 := rfl
  have ha : ('a' : Char).toNat = 97 := rfl
  have hf : ('f' : Char).toNat = 102 := rfl
  have hA : ('A' : Char).toNat = 65 := rfl
  have hF : ('F' : Char).toNat = 70 := rfl
  rw [isDigit_eq_decide, decide_eq_true_iff]
  simp only [digitIn, hle, h0, h9, ha, hf, hA, hF] at h
  by_cases hd : 48 ≤ c.toNat ∧ c.toNat ≤ 57
  · exact hd
  · exfalso
    rw [if_neg hd] at h
    by_cases hl : 97 ≤ c.toNat ∧ c.toNat ≤ 102
    · have hbig : ¬ c.toNat - 87 < radix := by omega
      rw [if_pos hl] at h
      simp [Option.filter_some, hbig] at h
    · rw [if_neg hl] at h
      by_cases hu : 65 ≤ c.toNat ∧ c.toNat ≤ 70
      · have hbig : ¬ c.toNat - 55 < radix := by omega
        rw [if_pos hu] at h
        simp [Option.filter_some, hbig] at h
      · rw [if_neg hu] at h
        simp at h

theorem Groups.ne_nil {radix : Nat} {cs : List Char} (h : Groups radix cs) : cs ≠ [] := by
  cases h with
  | one hg _ => exact hg
  | join _ _ _ => simp

/-- Groups start with a digit. -/
theorem Groups.head {radix : Nat} {c : Char} {cs : List Char} (h : Groups radix (c :: cs)) :
    (digitIn radix c).isSome := by
  generalize hl : c :: cs = l at h
  cases h with
  | one _ hall =>
    rw [← hl] at hall
    exact hall c List.mem_cons_self
  | @join g rest hg hall _ =>
    obtain ⟨c', g', rfl⟩ := List.exists_cons_of_ne_nil hg
    rw [List.cons_append, List.cons.injEq] at hl
    rw [hl.1]
    exact hall c' List.mem_cons_self

theorem Groups.not_underscore {radix : Nat} {cs : List Char} (h : Groups radix ('_' :: cs)) : False := by
  have := h.head
  rw [digitIn_underscore] at this
  cases this

/-- A digit before groups makes groups. -/
theorem Groups.cons {radix : Nat} {c : Char} (hc : (digitIn radix c).isSome) :
    ∀ {cs : List Char}, Groups radix cs → Groups radix (c :: cs)
  | _, .one hg hall => .one (List.cons_ne_nil c _) (List.forall_mem_cons.2 ⟨hc, hall⟩)
  | _, .join (g := g) hg hall hrest => by
    have h : Groups radix ((c :: g) ++ '_' :: _) :=
      .join (List.cons_ne_nil c g) (List.forall_mem_cons.2 ⟨hc, hall⟩) hrest
    simpa only [List.cons_append] using h

/-- Groups are a digit followed by what may follow a digit. -/
theorem groups_cons_iff {radix : Nat} {c : Char} {cs : List Char} :
    Groups radix (c :: cs) ↔ (digitIn radix c).isSome ∧ AfterDigit radix cs := by
  constructor
  · intro h
    refine ⟨h.head, ?_⟩
    generalize hl : c :: cs = l at h
    cases h with
    | one _ hall =>
      rw [← hl] at hall
      rcases cs with _ | ⟨d, ds⟩
      · exact .inl rfl
      · exact .inr (.inl (.one (List.cons_ne_nil d ds) (List.forall_mem_cons.1 hall).2))
    | @join g rest hg hall hrest =>
      obtain ⟨c', g', rfl⟩ := List.exists_cons_of_ne_nil hg
      rw [List.cons_append, List.cons.injEq] at hl
      obtain ⟨rfl, rfl⟩ := hl
      rcases g' with _ | ⟨d, ds⟩
      · exact .inr (.inr ⟨rest, rfl, hrest⟩)
      · exact .inr (.inl (.join (List.cons_ne_nil d ds) (List.forall_mem_cons.1 hall).2 hrest))
  · rintro ⟨hc, rfl | hcs | ⟨g, rfl, hg⟩⟩
    · exact .one (List.cons_ne_nil c []) (List.forall_mem_singleton.2 hc)
    · exact hcs.cons hc
    · exact .join (g := [c]) (List.cons_ne_nil c []) (List.forall_mem_singleton.2 hc) hg

/-- What may follow a digit, when it does not start with an underscore, is empty or groups. -/
theorem afterDigit_cons_iff {radix : Nat} {c : Char} {cs : List Char} (hc : c ≠ '_') :
    AfterDigit radix (c :: cs) ↔ Groups radix (c :: cs) := by
  constructor
  · rintro (h | h | ⟨g, h, _⟩)
    · cases h
    · exact h
    · exact absurd (List.cons.inj h).1 hc
  · exact fun h => .inr (.inl h)

theorem afterDigit_underscore_iff {radix : Nat} {cs : List Char} :
    AfterDigit radix ('_' :: cs) ↔ Groups radix cs := by
  constructor
  · rintro (h | h | ⟨g, h, hg⟩)
    · cases h
    · exact h.not_underscore.elim
    · rw [(List.cons.inj h).2]
      exact hg
  · exact fun h => .inr (.inr ⟨cs, rfl, h⟩)

/-- The text after a first digit is read as `AfterDigit` says, and the whole as `Groups` says: both
give the digits of the text. -/
theorem digitGroups_eq_some_iff (radix : Nat) :
    ∀ (cs : List Char) (ds : List Nat),
      (digitGroups radix cs = some ds ↔ Groups radix cs ∧ ds = cs.filterMap (digitIn radix)) ∧
      (groupsTail radix cs = some ds ↔ AfterDigit radix cs ∧ ds = cs.filterMap (digitIn radix))
  | [], ds => by
    refine ⟨⟨fun h => ?_, fun h => absurd rfl h.1.ne_nil⟩, ?_⟩
    · rw [digitGroups.eq_1] at h
      cases h
    rw [groupsTail.eq_1, Option.some.injEq, List.filterMap_nil]
    exact ⟨fun h => ⟨.inl rfl, h.symm⟩, fun h => h.2.symm⟩
  | c :: cs, ds => by
    have hstep : (do let d ← digitIn radix c; let ds ← groupsTail radix cs; pure (d :: ds)) = some ds ↔
        Groups radix (c :: cs) ∧ ds = (c :: cs).filterMap (digitIn radix) := by
      simp only [bind, Option.bind_eq_some_iff, pure, Option.some.injEq, groups_cons_iff]
      constructor
      · rintro ⟨d, hd, ds', hds', rfl⟩
        obtain ⟨hafter, rfl⟩ := ((digitGroups_eq_some_iff radix cs ds').2).1 hds'
        exact ⟨⟨by rw [hd]; rfl, hafter⟩, (List.filterMap_cons_some hd).symm⟩
      · rintro ⟨⟨hc, hafter⟩, rfl⟩
        obtain ⟨d, hd⟩ := Option.isSome_iff_exists.1 hc
        exact ⟨d, hd, _, ((digitGroups_eq_some_iff radix cs _).2).2 ⟨hafter, rfl⟩,
          (List.filterMap_cons_some hd).symm⟩
    refine ⟨by rw [digitGroups.eq_2]; exact hstep, ?_⟩
    by_cases hc : c = '_'
    · subst hc
      rw [groupsTail.eq_2, afterDigit_underscore_iff,
        List.filterMap_cons_none (digitIn_underscore radix)]
      exact (digitGroups_eq_some_iff radix cs ds).1
    · rw [groupsTail.eq_3 _ _ _ hc, afterDigit_cons_iff hc]
      exact hstep

/-- After a radix prefix: perhaps an underscore, then digit groups. -/
theorem afterPrefix_eq_some_iff {radix : Nat} {cs : List Char} {m : Nat} :
    afterPrefix radix cs = some m ↔
      ∃ u ds, (u = [] ∨ u = ['_']) ∧ cs = u ++ ds ∧ Groups radix ds ∧ m = groupsValue radix ds := by
  have hgroups : ∀ ds, digitsValue radix <$> digitGroups radix ds = some m ↔
      Groups radix ds ∧ m = groupsValue radix ds := fun ds => by
    rw [Option.map_eq_map, Option.map_eq_some_iff]
    constructor
    · rintro ⟨ns, hns, rfl⟩
      obtain ⟨hg, rfl⟩ := (digitGroups_eq_some_iff radix ds ns).1.1 hns
      exact ⟨hg, rfl⟩
    · rintro ⟨hg, rfl⟩
      exact ⟨_, (digitGroups_eq_some_iff radix ds _).1.2 ⟨hg, rfl⟩, rfl⟩
  by_cases hu : ∃ r, cs = '_' :: r
  · obtain ⟨r, rfl⟩ := hu
    rw [afterPrefix.eq_1, hgroups]
    constructor
    · rintro ⟨hg, rfl⟩
      exact ⟨['_'], r, .inr rfl, rfl, hg, rfl⟩
    · rintro ⟨u, ds, rfl | rfl, hcs, hg, rfl⟩
      · rw [List.nil_append] at hcs
        exact (hcs ▸ hg).not_underscore.elim
      · rw [List.singleton_append, List.cons.injEq] at hcs
        exact ⟨hcs.2 ▸ hg, hcs.2 ▸ rfl⟩
  · rw [afterPrefix.eq_2 _ _ (fun r h => hu ⟨r, h⟩), hgroups]
    constructor
    · rintro ⟨hg, rfl⟩
      exact ⟨[], cs, .inl rfl, rfl, hg, rfl⟩
    · rintro ⟨u, ds, rfl | rfl, rfl, hg, rfl⟩
      · exact ⟨hg, rfl⟩
      · exact absurd ⟨ds, rfl⟩ hu

/-! ### Unsigned numerals -/

/-- A letter is neither a digit nor an underscore. -/
theorem ne_of_digit_or_underscore {x y : Char} (hx : x = '_' ∨ x.isDigit = true)
    (hy : y ≠ '_' ∧ y.isDigit = false) : x ≠ y := by
  rintro rfl
  rcases hx with h | h
  · exact hy.1 h
  · rw [hy.2] at h
    cases h

/-- After a leading `0`, an underscore or a digit starts octal digit groups. -/
theorem unsignedInteger_octal {x : Char} {cs : List Char} (hx : x = '_' ∨ x.isDigit = true) :
    unsignedInteger ('0' :: x :: cs) = afterPrefix 8 (x :: cs) := by
  have hnx : ¬ (x = 'x' ∨ x = 'X') := by
    rintro (h | h) <;> exact ne_of_digit_or_underscore hx ⟨by decide, by decide⟩ h
  have hnb : ¬ (x = 'b' ∨ x = 'B') := by
    rintro (h | h) <;> exact ne_of_digit_or_underscore hx ⟨by decide, by decide⟩ h
  have hno : ¬ (x = 'o' ∨ x = 'O') := by
    rintro (h | h) <;> exact ne_of_digit_or_underscore hx ⟨by decide, by decide⟩ h
  rw [unsignedInteger.eq_2, if_neg hnx, if_neg hnb, if_neg hno]

/-- Every derivation of an unsigned numeral is read with its value. After a lone `0` comes an
underscore or an octal digit, neither of them a letter of a radix prefix. -/
theorem unsignedInteger_of_unsigned {body : List Char} {m : Nat} (h : Unsigned body m) :
    unsignedInteger body = some m := by
  cases h with
  | @prefixed p u ds radix hp hu hds =>
    have hafter : afterPrefix radix (u ++ ds) = some (groupsValue radix ds) :=
      afterPrefix_eq_some_iff.2 ⟨u, ds, hu, rfl, hds, rfl⟩
    cases hp with
    | @hex x hx =>
      rw [List.cons_append, List.singleton_append, unsignedInteger.eq_2, if_pos hx]
      exact hafter
    | @bin x hx =>
      have hnx : ¬ (x = 'x' ∨ x = 'X') := by rcases hx with rfl | rfl <;> decide
      rw [List.cons_append, List.singleton_append, unsignedInteger.eq_2, if_neg hnx, if_pos hx]
      exact hafter
    | @octMark x hx =>
      have hnx : ¬ (x = 'x' ∨ x = 'X') := by rcases hx with rfl | rfl <;> decide
      have hnb : ¬ (x = 'b' ∨ x = 'B') := by rcases hx with rfl | rfl <;> decide
      rw [List.cons_append, List.singleton_append, unsignedInteger.eq_2, if_neg hnx, if_neg hnb,
        if_pos hx]
      exact hafter
    | oct =>
      rcases hu with rfl | rfl
      · obtain ⟨x, cs, rfl⟩ := List.exists_cons_of_ne_nil hds.ne_nil
        rw [List.nil_append] at hafter ⊢
        rw [List.singleton_append, unsignedInteger_octal (.inr (isDigit_of_digitIn (by decide) hds.head))]
        exact hafter
      · rw [List.singleton_append, List.singleton_append, unsignedInteger_octal (.inl rfl)]
        exact hafter
  | @decimal c cs hc hcs =>
    have hc0 : c ≠ '0' := by rintro rfl; exact absurd hc.1 (by decide)
    have hcu : c ≠ '_' := by rintro rfl; exact absurd hc.2 (by decide)
    rw [unsignedInteger.eq_3 c cs (fun h => absurd h hc0) (fun _ _ h => absurd h hc0), if_pos hc,
      ((digitGroups_eq_some_iff 10 (c :: cs) _).2).2 ⟨(afterDigit_cons_iff hcu).2 hcs, rfl⟩]
    rfl
  | zero => rfl

/-- Reading an unsigned numeral gives a value exactly for the derivations of the grammar. The
character after a leading `0` chooses the radix. -/
theorem unsignedInteger_eq_some_iff {body : List Char} {m : Nat} :
    unsignedInteger body = some m ↔ Unsigned body m := by
  refine ⟨fun h => ?_, unsignedInteger_of_unsigned⟩
  rcases body with _ | ⟨c, cs⟩
  · rw [unsignedInteger.eq_4] at h
    cases h
  by_cases hc : c = '0'
  · subst hc
    rcases cs with _ | ⟨x, cs⟩
    · rw [unsignedInteger.eq_1, Option.some.injEq] at h
      exact h ▸ .zero
    rw [unsignedInteger.eq_2] at h
    by_cases hx : x = 'x' ∨ x = 'X'
    · rw [if_pos hx] at h
      obtain ⟨u, ds, hu, rfl, hds, rfl⟩ := afterPrefix_eq_some_iff.1 h
      exact .prefixed (.hex hx) hu hds
    by_cases hb : x = 'b' ∨ x = 'B'
    · rw [if_neg hx, if_pos hb] at h
      obtain ⟨u, ds, hu, rfl, hds, rfl⟩ := afterPrefix_eq_some_iff.1 h
      exact .prefixed (.bin hb) hu hds
    by_cases ho : x = 'o' ∨ x = 'O'
    · rw [if_neg hx, if_neg hb, if_pos ho] at h
      obtain ⟨u, ds, hu, rfl, hds, rfl⟩ := afterPrefix_eq_some_iff.1 h
      exact .prefixed (.octMark ho) hu hds
    · rw [if_neg hx, if_neg hb, if_neg ho] at h
      obtain ⟨u, ds, hu, hcs, hds, rfl⟩ := afterPrefix_eq_some_iff.1 h
      have h' := Unsigned.prefixed (p := ['0']) .oct hu hds
      rwa [List.singleton_append, ← hcs] at h'
  · rw [unsignedInteger.eq_3 c cs (fun h => absurd h hc) (fun _ _ h => absurd h hc)] at h
    by_cases hd : '1' ≤ c ∧ c ≤ '9'
    · rw [if_pos hd, Option.map_eq_map] at h
      obtain ⟨ds, hds, rfl⟩ := Option.map_eq_some_iff.1 h
      have hcu : c ≠ '_' := by rintro rfl; exact absurd hd.2 (by decide)
      obtain ⟨hafter, rfl⟩ := ((digitGroups_eq_some_iff 10 (c :: cs) ds).2).1 hds
      exact .decimal hd ((afterDigit_cons_iff hcu).1 hafter)
    · rw [if_neg hd] at h
      cases h

/-! ### Signed numerals -/

/-- An unsigned numeral starts with a digit. -/
theorem Unsigned.head_isDigit {body : List Char} {m : Nat} (h : Unsigned body m) :
    ∃ c cs, body = c :: cs ∧ c.isDigit = true := by
  cases h with
  | prefixed hp _ _ =>
    cases hp with
    | hex _ | bin _ | octMark _ | oct => exact ⟨'0', _, rfl, rfl⟩
  | @decimal c cs hc _ =>
    refine ⟨c, cs, rfl, ?_⟩
    rw [isDigit_eq_decide, decide_eq_true_iff]
    have h1 : ('1' : Char).toNat = 49 := rfl
    have h9 : ('9' : Char).toNat = 57 := rfl
    simp only [Char.le_def, UInt32.le_iff_toNat_le] at hc
    change 49 ≤ c.toNat ∧ c.toNat ≤ 57 at hc
    omega
  | zero => exact ⟨'0', [], rfl, rfl⟩

/-- A numeral is an unsigned numeral after the sign that `splitSign` takes off, negated after a
minus. -/
theorem integerNumeral_iff {t : List Char} {v : Int} :
    IntegerNumeral t v ↔
      ∃ m, Unsigned (splitSign t).2 m ∧ v = if (splitSign t).1 then -(m : Int) else m := by
  constructor
  · intro h
    cases h with
    | @unsigned body m hm =>
      obtain ⟨c, cs, rfl, hc⟩ := hm.head_isDigit
      have hsign : splitSign (c :: cs) = (false, c :: cs) := by
        have h1 : c ≠ '+' := by rintro rfl; revert hc; decide
        have h2 : c ≠ '-' := by rintro rfl; revert hc; decide
        exact splitSign.eq_3 _ (fun _ h => h1 (List.cons.inj h).1) (fun _ h => h2 (List.cons.inj h).1)
      rw [hsign]
      exact ⟨m, hm, rfl⟩
    | plus hm => exact ⟨_, hm, rfl⟩
    | minus hm => exact ⟨_, hm, rfl⟩
  · rintro ⟨m, hm, rfl⟩
    by_cases hp : ∃ body, t = '+' :: body
    · obtain ⟨body, rfl⟩ := hp
      exact .plus hm
    by_cases hn : ∃ body, t = '-' :: body
    · obtain ⟨body, rfl⟩ := hn
      exact .minus hm
    · have hsign : splitSign t = (false, t) :=
        splitSign.eq_3 _ (fun body h => hp ⟨body, h⟩) (fun body h => hn ⟨body, h⟩)
      rw [hsign] at hm ⊢
      exact .unsigned hm

theorem fitsInt64_iff (v : Int) : fitsInt64 v = true ↔ InInt64 v := by
  rw [fitsInt64, Bool.and_eq_true, decide_eq_true_iff, decide_eq_true_iff, inInt64_iff_bounds]

theorem integerLiteral_eq (t : List Char) :
    integerLiteral t = (unsignedInteger (splitSign t).2).bind fun m =>
      if fitsInt64 (if (splitSign t).1 then -(m : Int) else m) then
        some (Int64.ofInt (if (splitSign t).1 then -(m : Int) else m))
      else none := by
  unfold integerLiteral
  rcases splitSign t with ⟨neg, body⟩
  dsimp only
  cases unsignedInteger body <;> rfl

/-- Reading a token as an integer succeeds exactly on the numerals whose value is in range. -/
theorem integerLiteral_eq_some_iff {t : List Char} {n : Int64} :
    integerLiteral t = some n ↔ ∃ v, IntegerNumeral t v ∧ InInt64 v ∧ n.toInt = v := by
  rw [integerLiteral_eq, Option.bind_eq_some_iff]
  constructor
  · rintro ⟨m, hm, h⟩
    by_cases hfit : fitsInt64 (if (splitSign t).1 then -(m : Int) else m) = true
    · rw [if_pos hfit, Option.some.injEq] at h
      have hr := (fitsInt64_iff _).1 hfit
      exact ⟨_, integerNumeral_iff.2 ⟨m, unsignedInteger_eq_some_iff.1 hm, rfl⟩, hr,
        h ▸ toInt_ofInt_of_inInt64 hr⟩
    · rw [if_neg hfit] at h
      cases h
  · rintro ⟨v, hv, hr, rfl⟩
    obtain ⟨m, hm, hvm⟩ := integerNumeral_iff.1 hv
    refine ⟨m, unsignedInteger_eq_some_iff.2 hm, ?_⟩
    rw [← hvm, if_pos ((fitsInt64_iff _).2 hr), Int64.ofInt_toInt]

/-- An atom is an integer exactly when it reads as one. -/
theorem classify_eq_int_iff {t : List Char} {n : Int64} :
    classify t = .int n ↔ integerLiteral t = some n := by
  unfold classify
  cases hi : integerLiteral t with
  | some n' =>
    constructor
    · intro h
      cases h
      rfl
    · intro h
      cases h
      rfl
  | none =>
    constructor
    · intro h
      cases hd : decimalLiteral t with
      | some d =>
        rw [hd] at h
        cases h
      | none =>
        rw [hd] at h
        cases h
    · intro h
      cases h

/-! ### Numerals out of range -/

/-- Groups of a radix up to ten are decimal digits up to their first underscore. -/
theorem Groups.dropWhile_isDigit {radix : Nat} (hr : radix ≤ 10) {cs : List Char}
    (h : Groups radix cs) : cs.dropWhile Char.isDigit = [] ∨ ∃ r, cs.dropWhile Char.isDigit = '_' :: r := by
  cases h with
  | one _ hall =>
    exact .inl (List.dropWhile_eq_nil_iff.2 fun c hc => isDigit_of_digitIn hr (hall c hc))
  | @join g rest _ hall _ =>
    refine .inr ⟨rest, ?_⟩
    rw [List.dropWhile_append_of_pos fun c hc => isDigit_of_digitIn hr (hall c hc),
      List.dropWhile_cons_of_neg (by decide)]

/-- The characters at which the digits of a numeral can stop: an underscore, or the letter of a
radix prefix. -/
def RadixMark (c : Char) : Prop :=
  c = '_' ∨ c = 'x' ∨ c = 'X' ∨ c = 'b' ∨ c = 'B' ∨ c = 'o' ∨ c = 'O'

/-- A radix mark is no digit, sign, point or exponent mark. -/
theorem RadixMark.not_decimal {c : Char} (h : RadixMark c) :
    c.isDigit = false ∧ c ≠ '+' ∧ c ≠ '-' ∧ c ≠ '.' ∧ c ≠ 'e' ∧ c ≠ 'E' := by
  rcases h with rfl | rfl | rfl | rfl | rfl | rfl | rfl <;> decide

/-- A numeral is digits up to its end or up to a radix mark. The digits stop at the letter after a
leading `0`. -/
theorem Unsigned.dropWhile_isDigit {body : List Char} {m : Nat} (h : Unsigned body m) :
    body.dropWhile Char.isDigit = [] ∨
      ∃ c r, body.dropWhile Char.isDigit = c :: r ∧ RadixMark c := by
  have hgroups : ∀ {r : List Char},
      r.dropWhile Char.isDigit = [] ∨ (∃ r', r.dropWhile Char.isDigit = '_' :: r') →
      r.dropWhile Char.isDigit = [] ∨ ∃ c r', r.dropWhile Char.isDigit = c :: r' ∧ RadixMark c :=
    fun h => h.imp_right fun ⟨r', hr'⟩ => ⟨'_', r', hr', .inl rfl⟩
  cases h with
  | @prefixed p u ds radix hp hu hds =>
    cases hp with
    | @hex x hx | @bin x hx | @octMark x hx =>
      have hmark : RadixMark x := by
        rcases hx with rfl | rfl <;> simp [RadixMark]
      refine .inr ⟨x, u ++ ds, ?_, hmark⟩
      rw [List.cons_append, List.singleton_append, List.dropWhile_cons_of_pos (by decide),
        List.dropWhile_cons_of_neg (by simp [hmark.not_decimal.1])]
    | oct =>
      rcases hu with rfl | rfl
      · rw [List.nil_append, List.singleton_append, List.dropWhile_cons_of_pos (by decide)]
        exact hgroups (hds.dropWhile_isDigit (by decide))
      · refine .inr ⟨'_', ds, ?_, .inl rfl⟩
        rw [List.singleton_append, List.singleton_append, List.dropWhile_cons_of_pos (by decide),
          List.dropWhile_cons_of_neg (by decide)]
  | decimal _ hcs => exact hgroups (hcs.dropWhile_isDigit (by decide))
  | zero => exact .inl rfl

/-- The value of a numeral does not depend on how it was derived. -/
theorem IntegerNumeral.unique {t : List Char} {v w : Int} (hv : IntegerNumeral t v)
    (hw : IntegerNumeral t w) : v = w := by
  obtain ⟨m, hm, rfl⟩ := integerNumeral_iff.1 hv
  obtain ⟨k, hk, rfl⟩ := integerNumeral_iff.1 hw
  have hmk : some m = some k :=
    (unsignedInteger_of_unsigned hm).symm.trans (unsignedInteger_of_unsigned hk)
  rw [Option.some.inj hmk]

theorem mem_of_mem_splitSign {t : List Char} {c : Char} (h : c ∈ (splitSign t).2) : c ∈ t := by
  by_cases hp : ∃ r, t = '+' :: r
  · obtain ⟨r, rfl⟩ := hp
    exact List.mem_cons_of_mem _ h
  by_cases hn : ∃ r, t = '-' :: r
  · obtain ⟨r, rfl⟩ := hn
    exact List.mem_cons_of_mem _ h
  · rwa [splitSign.eq_3 _ (fun r h => hp ⟨r, h⟩) (fun r h => hn ⟨r, h⟩)] at h

theorem mem_splitSign_or_sign {t : List Char} {c : Char} (h : c ∈ t) :
    c ∈ (splitSign t).2 ∨ c = '+' ∨ c = '-' := by
  by_cases hp : ∃ r, t = '+' :: r
  · obtain ⟨r, rfl⟩ := hp
    rcases List.mem_cons.1 h with rfl | h
    · exact .inr (.inl rfl)
    · exact .inl h
  by_cases hn : ∃ r, t = '-' :: r
  · obtain ⟨r, rfl⟩ := hn
    rcases List.mem_cons.1 h with rfl | h
    · exact .inr (.inr rfl)
    · exact .inl h
  · rw [splitSign.eq_3 _ (fun r h => hp ⟨r, h⟩) (fun r h => hn ⟨r, h⟩)]
    exact .inl h

/-- The sign taken off is a minus exactly when the token starts with one. -/
theorem splitSign_fst (t : List Char) : (splitSign t).1 = decide (t.head? = some '-') := by
  by_cases hp : ∃ r, t = '+' :: r
  · obtain ⟨r, rfl⟩ := hp
    rfl
  by_cases hn : ∃ r, t = '-' :: r
  · obtain ⟨r, rfl⟩ := hn
    rfl
  · rw [splitSign.eq_3 _ (fun r h => hp ⟨r, h⟩) (fun r h => hn ⟨r, h⟩)]
    rcases t with _ | ⟨c, r⟩
    · rfl
    · have hc : c ≠ '-' := fun h => hn ⟨r, h ▸ rfl⟩
      simp [hc]

/-- Signs are no digits, so they add nothing to the value of a token's digits. -/
theorem groupsValue_splitSign (radix : Nat) (t : List Char) :
    groupsValue radix (splitSign t).2 = groupsValue radix t := by
  by_cases hp : ∃ r, t = '+' :: r
  · obtain ⟨r, rfl⟩ := hp
    rfl
  by_cases hn : ∃ r, t = '-' :: r
  · obtain ⟨r, rfl⟩ := hn
    rfl
  · rw [splitSign.eq_3 _ (fun r h => hp ⟨r, h⟩) (fun r h => hn ⟨r, h⟩)]

theorem filterMap_digitIn_of_isDigit :
    ∀ {cs : List Char}, (∀ c ∈ cs, c.isDigit = true) → cs.filterMap (digitIn 10) = cs.map (·.toNat - 48)
  | [], _ => rfl
  | c :: cs, h => by
    rw [List.filterMap_cons_some (digitIn_of_isDigit (h c List.mem_cons_self)), List.map_cons,
      filterMap_digitIn_of_isDigit fun d hd => h d (List.mem_cons_of_mem c hd)]

/-- A token whose text after the sign is digits reads as a decimal numeral. -/
theorem decimalLiteral_of_digits {t : List Char} (hne : (splitSign t).2 ≠ [])
    (hall : ∀ c ∈ (splitSign t).2, c.isDigit = true) :
    decimalLiteral t = some ((splitSign t).1, groupsValue 10 (splitSign t).2, 0) := by
  have hempty : (splitSign t).2.isEmpty = false := by
    rcases h : (splitSign t).2 with _ | ⟨c, r⟩
    · exact absurd h hne
    · rfl
  rw [decimalLiteral_eq, List.takeWhile_eq_self_iff.2 hall, List.dropWhile_eq_nil_iff.2 hall]
  show decimalParts _ _ ([], [], !(splitSign t).2.isEmpty) = _
  rw [hempty, groupsValue, filterMap_digitIn_of_isDigit hall]
  simp [decimalParts, exponentPart]

/-- A token whose digits stop at a radix mark reads as no decimal numeral. -/
theorem decimalLiteral_of_mark {t r : List Char} {c : Char}
    (h : (splitSign t).2.dropWhile Char.isDigit = c :: r) (hc : RadixMark c) : decimalLiteral t = none := by
  obtain ⟨-, -, -, hdot, he, hE⟩ := hc.not_decimal
  have hexp : exponentPart (c :: r) = none := by
    rw [exponentPart, if_neg (by rintro (h | h) <;> contradiction)]
  rw [decimalLiteral_eq, h, fractionPart_of_ne _ hdot]
  unfold decimalParts
  rw [hexp]
  split
  · contradiction
  · rfl

theorem not_digit_or_sign {c : Char} (hdig : c.isDigit = false) (hplus : c ≠ '+') (hminus : c ≠ '-') :
    ¬ (c.isDigit = true ∨ c = '+' ∨ c = '-') := by
  rintro (h | h | h)
  · rw [hdig] at h
    cases h
  · exact hplus h
  · exact hminus h

/-- A numeral out of the 64-bit range is a float when its text is digits and a sign, read as a
decimal numeral, and a symbol when it holds anything else. The digits after the sign either run to
the end of the text, or stop at a radix mark, which the text then holds. -/
theorem classify_of_out_of_range {t : List Char} {v : Int} (h : IntegerNumeral t v)
    (hr : ¬ InInt64 v) :
    ((∀ c ∈ t, c.isDigit = true ∨ c = '+' ∨ c = '-') →
      classify t = .float (Binary64.ofDecimal (decide (t.head? = some '-')) (groupsValue 10 t) 0)) ∧
    ((∃ c ∈ t, c.isDigit = false ∧ c ≠ '+' ∧ c ≠ '-') →
      classify t = .sym (Text.upper (String.ofList t))) := by
  have hint : integerLiteral t = none := by
    cases hi : integerLiteral t with
    | none => rfl
    | some n =>
      obtain ⟨w, hw, hwr, -⟩ := integerLiteral_eq_some_iff.1 hi
      exact absurd (h.unique hw ▸ hwr) hr
  obtain ⟨m, hm, -⟩ := integerNumeral_iff.1 h
  rcases hm.dropWhile_isDigit with hdigits | ⟨c, r, hstop, hmark⟩
  · have hall := List.dropWhile_eq_nil_iff.1 hdigits
    obtain ⟨d, ds, hbody, -⟩ := hm.head_isDigit
    have hdec := decimalLiteral_of_digits (by rw [hbody]; exact List.cons_ne_nil d ds) hall
    rw [splitSign_fst, groupsValue_splitSign] at hdec
    refine ⟨fun _ => by simp only [classify, hint, hdec], ?_⟩
    rintro ⟨e, he, hdig, hplus, hminus⟩
    exact absurd ((mem_splitSign_or_sign he).imp_left (hall e)) (not_digit_or_sign hdig hplus hminus)
  · have hmem : c ∈ t := by
      apply mem_of_mem_splitSign
      exact List.dropWhile_suffix _ |>.subset (hstop ▸ List.mem_cons_self)
    obtain ⟨hdig, hplus, hminus, -⟩ := hmark.not_decimal
    refine ⟨fun hall => absurd (hall c hmem) (not_digit_or_sign hdig hplus hminus), fun _ => ?_⟩
    exact classify_of_not_numeral hint (decimalLiteral_of_mark hstop hmark)

/-! ### Reading integer numerals -/

/-- **An integer literal denotes its exact value, or it is not an integer.** Reading a token as an
integer gives `n` exactly when the token is a numeral of the grammar whose value lies in the 64-bit
range, `n` standing for that value; an atom is an integer exactly then. A numeral whose value is out
of range is a float, the nearest to the decimal value of its digits, when it is made of digits and a
sign only, and a symbol when it holds anything else (a radix letter or an underscore). -/
theorem integer_numeral_denotes_exactly (t : List Char) :
    (∀ n : Int64, integerLiteral t = some n ↔ ∃ v, IntegerNumeral t v ∧ InInt64 v ∧ n.toInt = v) ∧
    (∀ n : Int64, classify t = .int n ↔ integerLiteral t = some n) ∧
    (∀ v, IntegerNumeral t v → ¬ InInt64 v →
      ((∀ c ∈ t, c.isDigit = true ∨ c = '+' ∨ c = '-') →
        classify t = .float (Binary64.ofDecimal (decide (t.head? = some '-')) (groupsValue 10 t) 0)) ∧
      ((∃ c ∈ t, c.isDigit = false ∧ c ≠ '+' ∧ c ≠ '-') →
        classify t = .sym (Text.upper (String.ofList t)))) :=
  ⟨fun _ => integerLiteral_eq_some_iff, fun _ => classify_eq_int_iff,
    fun _ h hr => classify_of_out_of_range h hr⟩

/-- Twenty nines are a decimal numeral beyond the 64-bit range, so they read as a float. -/
theorem twenty_nines_read_as_float :
    IntegerNumeral (List.replicate 20 '9') 99999999999999999999 ∧ ¬ InInt64 99999999999999999999 ∧
      classify (List.replicate 20 '9') = .float (Binary64.ofDecimal false 99999999999999999999 0) := by
  have hdig : ∀ c ∈ List.replicate 20 '9', c.isDigit = true := by
    intro c hc
    rw [List.eq_of_mem_replicate hc]
    rfl
  have hgroups : Groups 10 (List.replicate 20 '9') :=
    .one (by simp) fun c hc => by rw [digitIn_of_isDigit (hdig c hc)]; rfl
  have hvalue : groupsValue 10 (List.replicate 20 '9') = 99999999999999999999 := by decide
  have hnum : IntegerNumeral (List.replicate 20 '9') 99999999999999999999 := by
    have h : IntegerNumeral (List.replicate 20 '9') (groupsValue 10 (List.replicate 20 '9')) :=
      .unsigned (@Unsigned.decimal '9' (List.replicate 19 '9') ⟨by decide, by decide⟩ hgroups)
    rwa [hvalue] at h
  have hr : ¬ InInt64 99999999999999999999 := by decide
  have h := ((integer_numeral_denotes_exactly _).2.2 _ hnum hr).1 fun c hc => .inl (hdig c hc)
  rw [hvalue] at h
  exact ⟨hnum, hr, h⟩

end MiniScheme.Read
