import DeclEdit.Proofs.HeaderMoves
import DeclEdit.Proofs.LevelReading
import DeclEdit.Proofs.OrderTables
import DeclEdit.Proofs.StableSort

/-!
# Sorted modifiers stay sorted

Under a lawful order every move of a header leaves sorted modifiers sorted, and so does every
history of edits under that order. A swap is the move to look at: it keeps the order because the
index that the order gives the new keyword parts the ranks of the modifiers around the old one.
-/

namespace DeclEdit

namespace Header

theorem isSorted_reorder (order : Ranking Keyword) (header : Header) :
    order.isSorted (header.reorder order).keywords = true := by
  unfold reorder
  split
  · next hsorted => exact hsorted
  · rw [keywords_mapFront, Ranking.isSorted_eq_true_iff]
    unfold keywords
    rw [List.pairwise_map]
    have hstable := stablySorted_mergeSort (totalOn_rank
      (fun modifier : Modifier => order.rank modifier.keyword)
      (header.mapFront fun _ => []).modifiers)
    simpa only [decide_eq_true_iff] using hstable.ascending

theorem Move.isSorted {order : Ranking Keyword} {mayEnter : Modifier → Prop}
    {header result : Header} (horder : order.Lawful Keyword.all.length)
    (hmove : Move order mayEnter header result) (hsorted : order.isSorted header.keywords = true) :
    order.isSorted result.keywords = true := by
  cases hmove with
  | insert _ hresult =>
    obtain ⟨index, hindex, rfl⟩ := insert_eq_ok_iff.1 hresult
    rw [keywords_insertAt]
    exact horder.isSorted_insertIdx hindex hsorted
  | removeAt index =>
    rw [keywords_removeAt]
    exact Ranking.isSorted_of_sublist (List.eraseIdx_sublist _ index) hsorted
  | removeAll =>
    rw [keywords_removeAll]
    rfl
  | reorder => exact isSorted_reorder order header
  | swap hread hindex hplace =>
    rw [keywords_swapAt]
    exact horder.isSorted_set hindex hplace (Accessibility.found_of_read? hread).first_lt_length
      hsorted

end Header

/-- **Sorted modifiers stay sorted.** Edits under one lawful order, as many as there are and
wherever the declaration stands, lead from sorted modifiers to sorted modifiers. -/
theorem ModifierEdit.isSorted_of_reaches {order : Ranking Keyword}
    (horder : order.Lawful Keyword.all.length) {start result : Declaration}
    (hstart : order.isSorted start.header.keywords = true)
    (hresult : ModifierEdit.Reaches (· = order) start result) :
    order.isSorted result.header.keywords = true := by
  refine ModifierEdit.Reaches.preserves (fun header => order.isSorted header.keywords = true) ?_
    hresult hstart
  rintro _ rfl mayEnter header moved hmove hsorted
  exact hmove.isSorted horder hsorted

/-- A history under the reversed table, where `internal` comes before `protected`. -/
theorem ModifierEdit.isSorted_of_reaches_reversed :
    ∃ (order : Ranking Keyword) (start result : Declaration),
      Keyword.orderOfTable Keyword.all.reverse = .ok order ∧
      start.header.keywords = [.staticKw, .publicKw] ∧
      result.header.keywords = [.staticKw, .constKw, .internalKw, .protectedKw] ∧
      ModifierEdit.Reaches (· = order) start result ∧
      order.isSorted result.header.keywords = true := by
  let order : Ranking Keyword := .ofList Keyword.all.reverse
  have horder : Keyword.orderOfTable Keyword.all.reverse = .ok order := rfl
  let start : Declaration := ⟨.field, ⟨[.spaced .staticKw, .spaced .publicKw],
    some (.plain "int"), none, some (.plain "count")⟩, [], []⟩
  let widened := start.setModifiers
    [.spaced .staticKw, .elastic .internalKw, .elastic .protectedKw]
  let result := start.setModifiers
    [.spaced .staticKw, .elastic .constKw, .elastic .internalKw, .elastic .protectedKw]
  have hwidened : ModifierEdit.Reaches (· = order) start widened :=
    @ModifierEdit.Reaches.step _ _ order start widened []
      (.changeAccessibility .protectedOrInternal) .start rfl rfl
  have hresult : ModifierEdit.Reaches (· = order) start result :=
    @ModifierEdit.Reaches.step _ _ order widened result [] (.insert .constKw) hwidened rfl rfl
  exact ⟨order, start, result, horder, rfl, rfl, hresult,
    ModifierEdit.isSorted_of_reaches (Keyword.lawful_of_orderOfTable horder) rfl hresult⟩

end DeclEdit
