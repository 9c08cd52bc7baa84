import DeclEdit.Edit.History
import DeclEdit.Header.Keywords
import DeclEdit.Proofs.InsertionIndex
import DeclEdit.Proofs.Success
import Mathlib.Logic.Relation

/-!
# Moves of a header

Every edit of the modifiers is a chain of a few moves: a modifier enters where the order puts it,
the modifier at an index leaves, all leave, all are sorted, or the one visibility keyword that is
read gives way to one that belongs right there. What every move keeps, every history of edits keeps.
-/

namespace DeclEdit

namespace Header

/-- The header with another keyword on the modifier at the index. -/
def swapAt (header : Header) (index : Nat) (keyword : Keyword) : Header :=
  { header with
    modifiers := header.modifiers.modify index fun modifier => { modifier with keyword } }

theorem keywords_swapAt (header : Header) (index : Nat) (keyword : Keyword) :
    (header.swapAt index keyword).keywords = header.keywords.set index keyword := by
  unfold swapAt keywords
  induction header.modifiers generalizing index with
  | nil => cases index <;> rfl
  | cons modifier rest ih =>
    cases index with
    | zero => rfl
    | succ index => simp [ih]

/-- One move under the order. Only modifiers that pass `mayEnter` come in. -/
inductive Move (order : Ranking Keyword) (mayEnter : Modifier → Prop) : Header → Header → Prop
  | insert {header result : Header} {modifier : Modifier} (hmodifier : mayEnter modifier)
      (hresult : header.insert order modifier = .ok result) : Move order mayEnter header result
  | removeAt (header : Header) (index : Nat) : Move order mayEnter header (header.removeAt index)
  | removeAll (header : Header) : Move order mayEnter header header.removeAll
  | reorder (header : Header) : Move order mayEnter header (header.reorder order)
  | swap {header : Header} {level : Accessibility} {first index : Nat} {keyword : Keyword}
      (hread : Accessibility.read? header.keywords = some ⟨level, first, none⟩)
      (hindex : order.insertIndex header.keywords keyword = .ok index)
      (hplace : index = first ∨ index = first + 1) :
      Move order mayEnter header (header.swapAt first keyword)

abbrev Moves (order : Ranking Keyword) (mayEnter : Modifier → Prop) : Header → Header → Prop :=
  Relation.ReflTransGen (Move order mayEnter)

variable {order : Ranking Keyword} {mayEnter : Modifier → Prop} {header result : Header}

theorem kept_of_moves (kept : Header → Prop)
    (hmove : ∀ header result, Move order mayEnter header result → kept header → kept result)
    (hmoves : Moves order mayEnter header result) (hstart : kept header) : kept result := by
  induction hmoves with
  | refl => exact hstart
  | tail _ hlast ih => exact hmove _ _ hlast ih

theorem insert_eq_ok_iff {modifier : Modifier} :
    header.insert order modifier = .ok result ↔
      ∃ index, order.insertIndex header.keywords modifier.keyword = .ok index ∧
        result = header.insertAt index modifier := by
  rw [insert, bind_eq_ok_iff]
  constructor
  · rintro ⟨index, hindex, hresult⟩
    exact ⟨index, hindex, (Except.ok.inj hresult).symm⟩
  · rintro ⟨index, hindex, rfl⟩
    exact ⟨index, hindex, rfl⟩

theorem insertKeywords_cons (keyword : Keyword) (rest : List Keyword) (header : Header) :
    header.insertKeywords order (keyword :: rest) =
      header.insert order (.elastic keyword) >>= fun edited =>
        edited.insertKeywords order rest := by
  simp [insertKeywords]

theorem exists_of_swapAccessibility?_eq_some {level : Accessibility}
    (h : header.swapAccessibility? order level = .ok (some result)) :
    ∃ written first keyword index,
      Accessibility.read? header.keywords = some ⟨written, first, none⟩ ∧
        level.keywords = [keyword] ∧ order.insertIndex header.keywords keyword = .ok index ∧
        (index = first ∨ index = first + 1) ∧ result = header.swapAt first keyword := by
  unfold swapAccessibility? at h
  split at h
  · next written first keyword hread hlevel =>
    obtain ⟨index, hindex, hresult⟩ := bind_eq_ok_iff.1 h
    split at hresult
    · next hplace =>
      have heq := Option.some.inj (Except.ok.inj hresult)
      exact ⟨written, first, keyword, index, hread, hlevel, hindex, hplace, heq.symm⟩
    · cases hresult
  · cases h

theorem moves_insertKeywords {keywords : List Keyword}
    (hkeywords : ∀ keyword ∈ keywords, mayEnter (.elastic keyword))
    (h : header.insertKeywords order keywords = .ok result) :
    Moves order mayEnter header result := by
  induction keywords generalizing header with
  | nil =>
    cases h
    exact .refl
  | cons keyword rest ih =>
    rw [insertKeywords_cons, bind_eq_ok_iff] at h
    obtain ⟨edited, hedited, hrest⟩ := h
    have hrest := ih (fun other hother => hkeywords other (.tail _ hother)) hrest
    exact .head (.insert (hkeywords keyword List.mem_cons_self) hedited) hrest

theorem moves_removeAccessibility (header : Header) :
    Moves order mayEnter header header.removeAccessibility := by
  unfold removeAccessibility
  split
  · exact .refl
  · exact .single (.removeAt header _)
  · exact .tail (.single (.removeAt header _)) (.removeAt _ _)

theorem moves_setAccessibility {level : Accessibility}
    (hkeywords : ∀ keyword, mayEnter (.elastic keyword))
    (h : header.setAccessibility order level = .ok result) :
    Moves order mayEnter header result := by
  obtain ⟨swapped?, hswap, hresult⟩ := bind_eq_ok_iff.1 h
  cases swapped? with
  | some swapped =>
    cases hresult
    obtain ⟨_, first, keyword, index, hread, -, hindex, hplace, rfl⟩ :=
      exists_of_swapAccessibility?_eq_some hswap
    exact .single (.swap hread hindex hplace)
  | none =>
    have hinserted : Moves order mayEnter _ result :=
      moves_insertKeywords (fun keyword _ => hkeywords keyword) hresult
    exact (moves_removeAccessibility header).trans hinserted

end Header

open Header (Move Moves)

namespace ModifierEdit

variable {order : Ranking Keyword} {edit : ModifierEdit} {site : Site} {result : Declaration}

/-- The modifiers that may come in with an edit: new ones and the one that is given. -/
def Brings (edit : ModifierEdit) (modifier : Modifier) : Prop :=
  (∃ keyword, modifier = .elastic keyword) ∨ edit = .insertModifier modifier

theorem brings_elastic (edit : ModifierEdit) (keyword : Keyword) :
    edit.Brings (.elastic keyword) := .inl ⟨keyword, rfl⟩

theorem exists_moves (h : edit.apply order site = .ok result) :
    site.kind.hasModifiers = true ∧ ∃ header, result = { site.declaration with header } ∧
      Moves order edit.Brings site.declaration.header header := by
  cases edit
  all_goals
    simp only [apply, Site.changeAccessibility, Site.addAccessibility] at h
    obtain ⟨hkind, header, hheader, rfl⟩ := Declaration.editHeader_eq_ok_iff.1 h
    refine ⟨hkind, header, rfl, ?_⟩
  case insert keyword => exact .single (.insert (brings_elastic _ keyword) hheader)
  case insertModifier modifier => exact .single (.insert (.inr rfl) hheader)
  case remove keyword =>
    cases hheader
    unfold Header.remove
    split
    · exact .single (.removeAt _ _)
    · exact .refl
  case removeAt index =>
    split at hheader
    · cases hheader
      exact .single (.removeAt _ index)
    · cases hheader
  case removeAccessibility =>
    cases hheader
    exact Header.moves_removeAccessibility _
  case removeAll =>
    cases hheader
    exact .single (.removeAll _)
  case reorder =>
    cases hheader
    exact .single (.reorder _)
  case changeAccessibility level =>
    split at hheader
    · cases hheader
      exact .refl
    · exact Header.moves_setAccessibility (brings_elastic _) hheader
  case addAccessibility =>
    split at hheader
    · cases hheader
      exact .refl
    · exact Header.moves_insertKeywords (fun keyword _ => brings_elastic _ keyword) hheader

/-- What every move keeps, every edit keeps. -/
theorem kept_of_apply (kept : Header → Prop)
    (hmove : ∀ header moved, Move order edit.Brings header moved → kept header → kept moved)
    (h : edit.apply order site = .ok result) (hsite : kept site.declaration.header) :
    kept result.header := by
  obtain ⟨-, header, rfl, hmoves⟩ := exists_moves h
  exact Header.kept_of_moves kept hmove hmoves hsite

theorem applyAll_insert {enclosing : List Declaration} {declaration : Declaration}
    (hkind : declaration.kind.hasModifiers = true) {keywords : List Keyword} {header : Header}
    (h : declaration.header.insertKeywords order keywords = .ok header) :
    applyAll order enclosing (keywords.map .insert) declaration =
      .ok { declaration with header } := by
  induction keywords generalizing declaration with
  | nil =>
    cases h
    exact congrArg Except.ok declaration.eta.symm
  | cons keyword rest ih =>
    rw [Header.insertKeywords_cons, bind_eq_ok_iff] at h
    obtain ⟨inserted, hinserted, hrest⟩ := h
    have hfirst : (ModifierEdit.insert keyword).apply order ⟨declaration, enclosing⟩ =
        .ok { declaration with header := inserted } :=
      Declaration.editHeader_eq_ok_iff.2 ⟨hkind, inserted, hinserted, rfl⟩
    rw [List.map_cons, applyAll_cons, hfirst]
    exact ih hkind hrest

end ModifierEdit

/-- What every move of an edit that may be made keeps, every history of such edits keeps. -/
theorem ModifierEdit.ReachesBy.preserves {may : Ranking Keyword → ModifierEdit → Prop}
    (kept : Header → Prop)
    (hmove : ∀ order edit, may order edit → ∀ header result,
      Move order edit.Brings header result → kept header → kept result)
    {start result : Declaration} (hresult : ModifierEdit.ReachesBy may start result)
    (hstart : kept start.header) : kept result.header := by
  induction hresult with
  | start => exact hstart
  | @step order current result enclosing edit _ hmay hstep ih =>
    exact edit.kept_of_apply kept (hmove order edit hmay) hstep ih

/-- What every move under the orders keeps, every history under them keeps. -/
theorem ModifierEdit.Reaches.preserves {orders : Ranking Keyword → Prop} (kept : Header → Prop)
    (hmove : ∀ order, orders order → ∀ mayEnter header result,
      Move order mayEnter header result → kept header → kept result)
    {start result : Declaration} (hresult : ModifierEdit.Reaches orders start result)
    (hstart : kept start.header) : kept result.header :=
  hresult.reachesBy.preserves kept (fun order _ horder => hmove order horder _) hstart

end DeclEdit
