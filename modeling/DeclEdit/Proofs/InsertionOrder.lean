import DeclEdit.Proofs.SortedModifiers
import DeclEdit.Proofs.StableSort

/-!
# The order of insertions does not matter

A lawful order has one sorted list for every collection of keywords. So keywords that are inserted
into sorted modifiers end up where sorting puts them, whichever of them comes first. Modifiers that
are out of order may be sorted before or after the insertions, for either way the result is sorted
and holds the same keywords.
-/

namespace DeclEdit

namespace Ranking

variable {κ : Type} {ranking : Ranking κ} {items : List κ} {count : Nat}

/-- The items by rank. -/
def sort (ranking : Ranking κ) (items : List κ) : List κ :=
  items.mergeSort fun a b => decide (ranking.rank a ≤ ranking.rank b)

theorem stablySorted_sort (ranking : Ranking κ) (items : List κ) :
    StablySorted (fun a b => decide (ranking.rank a ≤ ranking.rank b)) items
      (ranking.sort items) :=
  stablySorted_mergeSort (totalOn_rank ranking.rank items)

theorem isSorted_sort (ranking : Ranking κ) (items : List κ) :
    ranking.isSorted (ranking.sort items) = true := by
  rw [isSorted_eq_true_iff]
  simpa only [decide_eq_true_iff] using (ranking.stablySorted_sort items).ascending

theorem Lawful.eq_sort (h : ranking.Lawful count) {sorted : List κ}
    (hsorted : ranking.isSorted sorted = true) (hperm : sorted.Perm items) :
    sorted = ranking.sort items :=
  h.eq_of_perm hsorted (ranking.isSorted_sort items)
    (hperm.trans (ranking.stablySorted_sort items).perm.symm)

end Ranking

namespace Header

variable {order : Ranking Keyword}

/-- All keywords come in and nothing else does, whether or not the modifiers are sorted. -/
theorem exists_insertKeywords_perm (horder : order.Lawful Keyword.all.length)
    (keywords : List Keyword) (header : Header) :
    ∃ result, header.insertKeywords order keywords = .ok result ∧
      result.keywords.Perm (header.keywords ++ keywords) ∧
      (order.isSorted header.keywords = true → order.isSorted result.keywords = true) := by
  induction keywords generalizing header with
  | nil => exact ⟨header, rfl, .of_eq (List.append_nil _).symm, id⟩
  | cons keyword rest ih =>
    obtain ⟨index, hindex, hplace⟩ := horder.exists_insertIndex header.keywords keyword
    let inserted := header.insertAt index (.elastic keyword)
    have hinsert : header.insert order (.elastic keyword) = .ok inserted :=
      insert_eq_ok_iff.2 ⟨index, hindex, rfl⟩
    have hkeywords : inserted.keywords = header.keywords.insertIdx index keyword :=
      keywords_insertAt ..
    obtain ⟨result, hresult, hperm, hsorted⟩ := ih inserted
    refine ⟨result, ?_, ?_, fun hheader => hsorted ?_⟩
    · rw [insertKeywords_cons, hinsert]
      exact hresult
    · rw [hkeywords] at hperm
      have hfirst := List.perm_insertIdx keyword header.keywords hplace.le_length
      exact hperm.trans ((hfirst.append_right rest).trans List.perm_middle.symm)
    · rw [hkeywords]
      exact horder.isSorted_insertIdx hindex hheader

end Header

namespace ModifierEdit

variable {order : Ranking Keyword} {declaration : Declaration} {enclosing : List Declaration}

theorem apply_reorder (hkind : declaration.kind.hasModifiers = true) :
    reorder.apply order ⟨declaration, enclosing⟩ =
      .ok { declaration with header := declaration.header.reorder order } := by
  rw [apply, Declaration.editHeader_eq_ok_iff]
  exact ⟨hkind, _, rfl, rfl⟩

theorem applyAll_append (first second : List ModifierEdit) :
    applyAll order enclosing (first ++ second) declaration =
      applyAll order enclosing first declaration >>= applyAll order enclosing second := by
  induction first generalizing declaration with
  | nil => rfl
  | cons edit rest ih =>
    rw [List.cons_append, applyAll_cons, applyAll_cons, bind_assoc]
    exact bind_congr fun _ => ih

theorem applyAll_singleton {edit : ModifierEdit} :
    applyAll order enclosing [edit] declaration = edit.apply order ⟨declaration, enclosing⟩ := by
  rw [applyAll_cons]
  exact bind_pure _

/-- **Insertions commute, with each other and with sorting.** Keywords that are inserted one after
the other into sorted modifiers give the old and the new keywords sorted by rank, whatever their
order. Into modifiers in any order they can be inserted before or after these are sorted. -/
theorem exists_applyAll_insert (horder : order.Lawful Keyword.all.length)
    (hkind : declaration.kind.hasModifiers = true) (enclosing : List Declaration)
    (keywords : List Keyword) :
    (order.isSorted declaration.header.keywords = true →
      ∀ permuted : List Keyword, permuted.Perm keywords →
        ∃ result, applyAll order enclosing (permuted.map .insert) declaration = .ok result ∧
          result.header.keywords = order.sort (declaration.header.keywords ++ keywords)) ∧
    ∃ sortedLast sortedFirst,
      applyAll order enclosing (keywords.map .insert ++ [.reorder]) declaration = .ok sortedLast ∧
      applyAll order enclosing (.reorder :: keywords.map .insert) declaration = .ok sortedFirst ∧
      sortedLast.header.keywords = sortedFirst.header.keywords := by
  constructor
  · intro hsorted permuted hpermuted
    obtain ⟨header, hheader, hperm, hkept⟩ :=
      Header.exists_insertKeywords_perm horder permuted declaration.header
    refine ⟨_, applyAll_insert hkind hheader, horder.eq_sort (hkept hsorted) ?_⟩
    exact hperm.trans (hpermuted.append_left _)
  · let reordered := declaration.header.reorder order
    have hreordered : order.isSorted reordered.keywords = true := Header.isSorted_reorder ..
    obtain ⟨inserted, hinserted, hpermLast, -⟩ :=
      Header.exists_insertKeywords_perm horder keywords declaration.header
    obtain ⟨header, hheader, hpermFirst, hkept⟩ :=
      Header.exists_insertKeywords_perm horder keywords reordered
    refine ⟨{ declaration with header := inserted.reorder order },
      { declaration with header }, ?_, ?_, ?_⟩
    · rw [applyAll_append, applyAll_insert hkind hinserted]
      exact applyAll_singleton.trans (apply_reorder hkind)
    · rw [applyAll_cons, apply_reorder hkind]
      exact @applyAll_insert _ _ { declaration with header := reordered } hkind _ _ hheader
    · refine horder.eq_of_perm (Header.isSorted_reorder ..) (hkept hreordered) ?_
      have hold : reordered.keywords.Perm declaration.header.keywords :=
        Header.keywords_reorder_perm ..
      have hlast : (inserted.reorder order).keywords.Perm inserted.keywords :=
        Header.keywords_reorder_perm ..
      exact hlast.trans (hpermLast.trans ((hold.append_right keywords).symm.trans hpermFirst.symm))

/-- Two keywords that come in the wrong way round, with one that is there already between them. -/
theorem exists_applyAll_insert_around_const :
    ∃ sorted result unsorted sortedLast sortedFirst : Declaration,
      sorted.header.keywords = [.publicKw, .constKw, .constKw] ∧
      unsorted.header.keywords = [.constKw, .publicKw] ∧
      applyAll Keyword.defaultOrder [] [.insert .partialKw, .insert .constKw, .insert .newKw]
        sorted = .ok result ∧
      result.header.keywords =
        [.newKw, .publicKw, .constKw, .constKw, .constKw, .partialKw] ∧
      applyAll Keyword.defaultOrder [] [.insert .newKw, .insert .staticKw, .reorder]
        unsorted = .ok sortedLast ∧
      applyAll Keyword.defaultOrder [] [.reorder, .insert .newKw, .insert .staticKw]
        unsorted = .ok sortedFirst ∧
      sortedLast.header.keywords = sortedFirst.header.keywords := by
  let field (keywords : List Keyword) : Declaration :=
    ⟨.field, ⟨keywords.map .spaced, some (.plain "int"), none, some (.plain "x")⟩, [], []⟩
  let sorted := field [.publicKw, .constKw, .constKw]
  let unsorted := field [.constKw, .publicKw]
  obtain ⟨hall, -⟩ := @exists_applyAll_insert _ sorted Keyword.lawful_defaultOrder rfl []
    [.newKw, .constKw, .partialKw]
  obtain ⟨result, hresult, hkeywords⟩ := hall rfl [.partialKw, .constKw, .newKw] (by decide)
  have hsort : [.newKw, .publicKw, .constKw, .constKw, .constKw, .partialKw] =
      Keyword.defaultOrder.sort (sorted.header.keywords ++ [.newKw, .constKw, .partialKw]) :=
    Keyword.lawful_defaultOrder.eq_sort rfl (by decide)
  obtain ⟨-, sortedLast, sortedFirst, hlast, hfirst, hsame⟩ :=
    @exists_applyAll_insert _ unsorted Keyword.lawful_defaultOrder rfl [] [.newKw, .staticKw]
  exact ⟨sorted, result, unsorted, sortedLast, sortedFirst, rfl, rfl, hresult,
    hkeywords.trans hsort.symm, hlast, hfirst, hsame⟩

end ModifierEdit

end DeclEdit
