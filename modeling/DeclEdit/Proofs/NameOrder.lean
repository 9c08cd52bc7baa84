import DeclEdit.Member.Arrangement

/-!
# Names can be sorted

Texts are compared like lists of code points, so the comparison of names is a lexicographic one of
two keys, the folded name and the name itself. Whatever the folding is, such a comparison can be
sorted by. It is even a total order, for the second key tells apart all names that the first does
not.
-/

namespace DeclEdit

namespace Text

theorem compareChars_eq_compareLex (a b : List Char) :
    compareChars a b = List.compareLex (compareOn Char.toNat) a b := by
  induction a generalizing b with
  | nil => cases b <;> rfl
  | cons x as ih =>
    cases b with
    | nil => rfl
    | cons y bs =>
      rw [compareChars, List.compareLex_cons_cons, ih]
      by_cases hxy : x = y
      · subst hxy
        have hself : compareOn Char.toNat x x = .eq := Std.ReflCmp.compare_self
        rw [if_pos rfl, hself]
        rfl
      · have hne : x.toNat ≠ y.toNat := fun h => hxy (Char.toNat_inj.1 h)
        rw [if_neg hxy, compareOn, Nat.compare_eq_ite_lt]
        split
        · rfl
        · rw [if_pos (by omega)]
          rfl

theorem compareFolded_eq_compareLex (fold : Char → List Char) :
    compareFolded fold = compareLex
      (fun a b => List.compareLex (compareOn Char.toNat) (a.toList.flatMap fold)
        (b.toList.flatMap fold))
      (fun a b => List.compareLex (compareOn Char.toNat) a.toList b.toList) := by
  funext a b
  rw [compareFolded, compareChars_eq_compareLex, compareChars_eq_compareLex]
  rfl

theorem compareChars_eq_eq_iff {a b : List Char} : compareChars a b = .eq ↔ a = b := by
  induction a generalizing b with
  | nil => cases b <;> simp [compareChars]
  | cons x as ih =>
    cases b with
    | nil => simp [compareChars]
    | cons y bs =>
      rw [compareChars, List.cons.injEq]
      by_cases hxy : x = y
      · rw [if_pos hxy, ih]
        simp [hxy]
      · rw [if_neg hxy]
        split <;> simp [hxy]

/-- The order of lists of characters is the lexicographic one by code point. -/
theorem compareChars_eq_lt_iff {a b : List Char} : compareChars a b = .lt ↔ a < b := by
  induction a generalizing b with
  | nil => cases b <;> simp [compareChars]
  | cons x as ih =>
    cases b with
    | nil => simp [compareChars]
    | cons y bs =>
      rw [compareChars, List.cons_lt_cons_iff]
      by_cases hxy : x = y
      · rw [if_pos hxy, ih]
        simp [hxy]
      · rw [if_neg hxy]
        have hcode : x < y ↔ x.toNat < y.toNat := UInt32.lt_iff_toNat_lt
        simp [hxy, hcode]

end Text

/-- A comparison of keys is one of the things that have the keys. -/
theorem transCmp_of_key {α β : Type} {cmp : β → β → Ordering} (h : Std.TransCmp cmp) (key : α → β) :
    Std.TransCmp fun a b => cmp (key a) (key b) where
  eq_swap := h.eq_swap
  isLE_trans := h.isLE_trans

theorem Text.transCmp_compareFolded (fold : Char → List Char) :
    Std.TransCmp (compareFolded fold) := by
  have hlists : Std.TransCmp (List.compareLex (compareOn Char.toNat)) := inferInstance
  have hfolded := transCmp_of_key hlists fun text : String => text.toList.flatMap fold
  have hwritten := transCmp_of_key hlists String.toList
  rw [compareFolded_eq_compareLex]
  exact inferInstance

namespace Text

/-- The comparison puts all texts in one row, by their folded forms first. -/
structure OrdersByFold (fold : Char → List Char) (cmp : String → String → Ordering) : Prop where
  eq_iff : ∀ a b, cmp a b = .eq ↔ a = b
  swap_eq : ∀ a b, (cmp a b).swap = cmp b a
  trans : ∀ a b c, cmp a b ≠ .gt → cmp b c ≠ .gt → cmp a c ≠ .gt
  /-- Different folded forms decide. -/
  lt_iff_of_ne : ∀ a b, a.toList.flatMap fold ≠ b.toList.flatMap fold →
    (cmp a b = .lt ↔ a.toList.flatMap fold < b.toList.flatMap fold)
  /-- Where the folded forms agree, the texts as written decide. -/
  lt_iff_of_eq : ∀ a b, a.toList.flatMap fold = b.toList.flatMap fold → (cmp a b = .lt ↔ a < b)

theorem compareFolded_eq_eq_iff (fold : Char → List Char) (a b : String) :
    compareFolded fold a b = .eq ↔ a = b := by
  rw [compareFolded, Ordering.then_eq_eq, compareChars_eq_eq_iff, compareChars_eq_eq_iff,
    String.toList_inj]
  constructor
  · exact And.right
  · rintro rfl
    exact ⟨rfl, rfl⟩

theorem compareFolded_eq_lt_iff (fold : Char → List Char) (a b : String) :
    compareFolded fold a b = .lt ↔
      a.toList.flatMap fold < b.toList.flatMap fold ∨
        a.toList.flatMap fold = b.toList.flatMap fold ∧ a < b := by
  rw [compareFolded, Ordering.then_eq_lt, compareChars_eq_lt_iff, compareChars_eq_eq_iff,
    compareChars_eq_lt_iff, String.lt_iff]

theorem ordersByFold_compareFolded (fold : Char → List Char) :
    OrdersByFold fold (compareFolded fold) := by
  have htrans := transCmp_compareFolded fold
  constructor
  · exact compareFolded_eq_eq_iff fold
  · intro a b
    exact htrans.eq_swap.symm
  · intro a b c hab hbc
    have hle := htrans.isLE_trans (Ordering.isLE_iff_ne_gt.2 hab) (Ordering.isLE_iff_ne_gt.2 hbc)
    exact Ordering.isLE_iff_ne_gt.1 hle
  · intro a b hne
    simp [compareFolded_eq_lt_iff, hne]
  · intro a b heq
    rw [compareFolded_eq_lt_iff, heq]
    constructor
    · rintro (hlt | ⟨-, hlt⟩)
      · exact absurd hlt (List.lt_irrefl _)
      · exact hlt
    · intro hlt
      exact .inr ⟨rfl, hlt⟩

/-- **Names are totally ordered.** Whatever characters are folded to, equal names alone compare
equal, the comparison can be turned round and chained, and the folded names come first. The usual
comparison, which folds to lower case, is one of these. -/
theorem ordersByFold_compareNames :
    (∀ fold, OrdersByFold fold (compareFolded fold)) ∧ OrdersByFold lowercase compareNames :=
  ⟨ordersByFold_compareFolded, ordersByFold_compareFolded lowercase⟩

end Text

theorem Arrangement.lawful_usual (byName : Bool) : (Arrangement.usual byName).Lawful where
  ranking := Category.lawful_defaultOrder
  names := Text.transCmp_compareFolded Text.lowercase

end DeclEdit
