/-!
# Places and order in a list

`afterLast?` finds where a new element goes that belongs behind all those a test accepts.
`ascending` compares neighbours only, which is all there is to check when the relation is
transitive.
-/

namespace DeclEdit

variable {α : Type}

/-- One more than the last index whose element passes the test. -/
def afterLast? (test : α → Bool) : List α → Option Nat
  | [] => none
  | x :: rest =>
    match afterLast? test rest with
    | some index => some (index + 1)
    | none => if test x then some 1 else none

/-- Every element is related to the next one. -/
def ascending (le : α → α → Bool) : List α → Bool
  | x :: y :: rest => le x y && ascending le (y :: rest)
  | _ => true

/-- Where the relation is transitive on the items, neighbours tell about all pairs. -/
theorem ascending_eq_true_iff_pairwise {le : α → α → Bool} {items : List α}
    (htrans : ∀ a ∈ items, ∀ b ∈ items, ∀ c ∈ items,
      le a b = true → le b c = true → le a c = true) :
    ascending le items = true ↔ items.Pairwise (le · · = true) := by
  induction items with
  | nil => simp [ascending]
  | cons x rest ih =>
    have ih := ih fun a ha b hb c hc => htrans a (.tail _ ha) b (.tail _ hb) c (.tail _ hc)
    cases rest with
    | nil => simp [ascending]
    | cons y rest =>
      rw [List.pairwise_cons, ← ih, ascending, Bool.and_eq_true]
      refine and_congr_left fun hrest => ⟨fun hxy z hz => ?_, fun hall => hall y List.mem_cons_self⟩
      rcases List.mem_cons.1 hz with rfl | hz'
      · exact hxy
      · exact htrans x List.mem_cons_self y (.tail _ List.mem_cons_self) z (.tail _ hz) hxy
          (List.rel_of_pairwise_cons (ih.1 hrest) hz')

theorem afterLast?_eq_none_iff {test : α → Bool} {items : List α} :
    afterLast? test items = none ↔ ∀ x ∈ items, test x = false := by
  induction items with
  | nil => simp [afterLast?]
  | cons x rest ih =>
    simp only [afterLast?, List.mem_cons, forall_eq_or_imp]
    cases hrest : afterLast? test rest with
    | none => simp_all
    | some index => simp_all

theorem afterLast?_le_length {test : α → Bool} {items : List α} {index : Nat}
    (h : afterLast? test items = some index) : index ≤ items.length := by
  induction items generalizing index with
  | nil => simp [afterLast?] at h
  | cons x rest ih =>
    simp only [afterLast?] at h
    split at h
    · next hrest => cases h; simpa using ih hrest
    · split at h <;> simp_all

theorem afterLast?_map {β : Type} (test : β → Bool) (key : α → β) (items : List α) :
    afterLast? test (items.map key) = afterLast? (fun x => test (key x)) items := by
  induction items with
  | nil => rfl
  | cons x rest ih => rw [List.map_cons, afterLast?, ih, afterLast?]

theorem afterLast?_concat (test : α → Bool) (items : List α) (x : α) :
    afterLast? test (items ++ [x]) =
      if test x then some (items.length + 1) else afterLast? test items := by
  induction items with
  | nil => simp [afterLast?]
  | cons y rest ih =>
    rw [List.cons_append, afterLast?, ih]
    by_cases hx : test x = true <;> simp [afterLast?, hx]

end DeclEdit
