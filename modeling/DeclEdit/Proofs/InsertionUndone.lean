import DeclEdit.Proofs.InsertionOrder
import DeclEdit.Proofs.SplicedText

/-!
# Removal undoes insertion

A keyword that is not there yet can be inserted and removed again. Behind the first modifier nothing
is left of it. At the front the layout changes hands twice: the new modifier takes it over and hands
it back to the token that had it. All that can be left is an elastic marker, the new modifier's own,
in front of a token that had nothing in front of it. It has no text, so the headers are compared
with the markers left out.
-/

namespace DeclEdit

/-! ### Layout without markers -/

namespace Trivia

/-- The pieces that are written. -/
def withoutMarkers (trivia : Trivia) : Trivia := trivia.filter (· ≠ .elasticMarker)

@[simp] theorem text_withoutMarkers (trivia : Trivia) :
    text trivia.withoutMarkers = text trivia := by
  induction trivia with
  | nil => rfl
  | cons piece rest ih =>
    unfold withoutMarkers at ih ⊢
    by_cases hmarker : piece = .elasticMarker
    · subst hmarker
      rw [List.filter_cons_of_neg (by decide), ih, text_cons, Piece.text, String.empty_append]
    · rw [List.filter_cons_of_pos (by simpa using hmarker), text_cons, text_cons, ih]

theorem withoutMarkers_takenOver_marker (front : Trivia) :
    (takenOver front [.elasticMarker]).withoutMarkers = front.withoutMarkers := by
  unfold takenOver
  split
  · next hfront => rw [hfront]; rfl
  · rfl

end Trivia

def Modifier.withoutMarkers (modifier : Modifier) : Modifier :=
  { modifier with
    leading := modifier.leading.withoutMarkers
    trailing := modifier.trailing.withoutMarkers }

@[simp] theorem Modifier.fullText_withoutMarkers (modifier : Modifier) :
    modifier.withoutMarkers.fullText = modifier.fullText := by
  simp [fullText, withoutMarkers]

def Token.withoutMarkers (token : Token) : Token :=
  { token with
    leading := token.leading.withoutMarkers
    trailing := token.trailing.withoutMarkers }

@[simp] theorem Token.fullText_withoutMarkers (token : Token) :
    token.withoutMarkers.fullText = token.fullText := by
  simp [fullText, withoutMarkers]

/-- The first occurrence of a new item is where it came in. -/
theorem findIdx?_insertIdx_of_notMem {α : Type} [DecidableEq α] {items : List α} {x : α}
    {index : Nat} (hx : x ∉ items) (hindex : index ≤ items.length) :
    (items.insertIdx index x).findIdx? (· = x) = some index := by
  have hbefore : (items.take index).findIdx? (· = x) = none := by
    rw [List.findIdx?_eq_none_iff]
    intro y hy
    exact decide_eq_false fun hyx => hx (hyx ▸ List.mem_of_mem_take hy)
  rw [insertIdx_eq_take_append_cons_drop hindex, List.findIdx?_append, hbefore,
    List.findIdx?_cons, decide_eq_true rfl, List.length_take, Nat.min_eq_left hindex]
  simp

namespace Header

variable {header : Header} {index : Nat}

/-- The header with no elastic marker around any token. -/
def withoutMarkers (header : Header) : Header where
  modifiers := header.modifiers.map Modifier.withoutMarkers
  head := header.head.map Token.withoutMarkers
  explicitInterface := header.explicitInterface
  name := header.name.map Token.withoutMarkers

theorem text_withoutMarkers (header : Header) : header.withoutMarkers.text = header.text := by
  simp [text_eq_written, written, withoutMarkers, Function.comp_def]

theorem text_eq_of_withoutMarkers_eq {result : Header}
    (h : result.withoutMarkers = header.withoutMarkers) : result.text = header.text := by
  calc
    result.text = result.withoutMarkers.text := (text_withoutMarkers result).symm
    _ = header.withoutMarkers.text := by rw [h]
    _ = header.text := text_withoutMarkers header

theorem withoutMarkers_mapFront {change : Trivia → Trivia}
    (hchange : (change header.front).withoutMarkers = header.front.withoutMarkers) :
    (header.mapFront change).withoutMarkers = header.withoutMarkers := by
  obtain ⟨modifiers, head, explicitInterface, name⟩ := header
  cases modifiers <;> cases head <;> cases name <;>
    simp_all [front, mapFront, withoutMarkers, Modifier.withoutMarkers, Token.withoutMarkers]

/-! ### There and back -/

/-- A token with nothing in front of it gets just what is handed over. -/
theorem handOver_opened (trivia : Trivia) (header : Header) :
    (header.mapFront fun _ => []).handOver trivia = header.mapFront fun _ => trivia := by
  unfold handOver
  split
  · next hnil => rw [hnil]
  · rw [mapFront_mapFront]
    rfl

theorem removeAt_insertAt_zero (header : Header) (modifier : Modifier) :
    (header.insertAt 0 modifier).removeAt 0 =
      header.mapFront fun _ => Trivia.takenOver header.front modifier.leading :=
  (removeAt_zero rfl).trans (handOver_opened _ header)

theorem removeAt_insertAt_succ (header : Header) (index : Nat) (modifier : Modifier) :
    (header.insertAt (index + 1) modifier).removeAt (index + 1) = header := by
  rw [removeAt_succ]
  simp only [insertAt, List.eraseIdx_insertIdx_self]

theorem withoutMarkers_removeAt_insertAt (header : Header) (index : Nat) (keyword : Keyword) :
    ((header.insertAt index (.elastic keyword)).removeAt index).withoutMarkers =
      header.withoutMarkers := by
  cases index with
  | zero =>
    rw [removeAt_insertAt_zero]
    exact withoutMarkers_mapFront (Trivia.withoutMarkers_takenOver_marker header.front)
  | succ index => rw [removeAt_insertAt_succ]

theorem remove_insertAt {modifier : Modifier} (habsent : modifier.keyword ∉ header.keywords)
    (hindex : index ≤ header.keywords.length) :
    (header.insertAt index modifier).remove modifier.keyword =
      (header.insertAt index modifier).removeAt index := by
  unfold remove
  rw [keywords_insertAt, findIdx?_insertIdx_of_notMem habsent hindex]

theorem exists_insert_remove {order : Ranking Keyword} {keyword : Keyword}
    (horder : order.Lawful Keyword.all.length) (habsent : keyword ∉ header.keywords) :
    ∃ inserted, header.insert order (.elastic keyword) = .ok inserted ∧
      (inserted.remove keyword).withoutMarkers = header.withoutMarkers := by
  obtain ⟨index, hindex, hplace⟩ := horder.exists_insertIndex header.keywords keyword
  have hremove : (header.insertAt index (.elastic keyword)).remove keyword =
      (header.insertAt index (.elastic keyword)).removeAt index :=
    @remove_insertAt _ _ (.elastic keyword) habsent hplace.le_length
  refine ⟨header.insertAt index (.elastic keyword),
    insert_eq_ok_iff.2 ⟨index, hindex, rfl⟩, ?_⟩
  rw [hremove]
  exact withoutMarkers_removeAt_insertAt header index keyword

end Header

namespace ModifierEdit

variable {order : Ranking Keyword} {declaration : Declaration} {keyword : Keyword}

/-- **Removal undoes insertion.** A keyword that the declaration does not have is inserted and
removed again. The result is the declaration but for elastic markers in its header, whose text is
the same. -/
theorem exists_applyAll_insert_remove (horder : order.Lawful Keyword.all.length)
    (hkind : declaration.kind.hasModifiers = true)
    (habsent : keyword ∉ declaration.header.keywords) (enclosing : List Declaration) :
    ∃ header, applyAll order enclosing [.insert keyword, .remove keyword] declaration =
        .ok { declaration with header } ∧
      header.withoutMarkers = declaration.header.withoutMarkers ∧
      header.text = declaration.header.text := by
  obtain ⟨inserted, hinserted, hsame⟩ := Header.exists_insert_remove horder habsent
  have hinsert : (ModifierEdit.insert keyword).apply order ⟨declaration, enclosing⟩ =
      .ok { declaration with header := inserted } := by
    rw [apply, Declaration.editHeader_eq_ok_iff]
    exact ⟨hkind, _, hinserted, rfl⟩
  have hremove : (ModifierEdit.remove keyword).apply order
      ⟨{ declaration with header := inserted }, enclosing⟩ =
        .ok { declaration with header := inserted.remove keyword } := by
    rw [apply, Declaration.editHeader_eq_ok_iff]
    exact ⟨hkind, _, rfl, rfl⟩
  refine ⟨inserted.remove keyword, ?_, hsame, Header.text_eq_of_withoutMarkers_eq hsame⟩
  rw [applyAll_cons, hinsert]
  exact applyAll_singleton.trans hremove

/-- There is nothing in front of the name, so the marker of the keyword that came in stays behind
when it goes. -/
theorem exists_applyAll_insert_remove_marker :
    ∃ start result : Declaration,
      start.header = ⟨[], none, none, some ⟨"C", [], Trivia.space⟩⟩ ∧
      result.header = ⟨[], none, none, some ⟨"C", [.elasticMarker], Trivia.space⟩⟩ ∧
      applyAll Keyword.defaultOrder [] [.insert .staticKw, .remove .staticKw] start =
        .ok result ∧
      result.header.withoutMarkers = start.header.withoutMarkers ∧
      result.header.text = start.header.text := by
  let start : Declaration :=
    ⟨.constructor, ⟨[], none, none, some ⟨"C", [], Trivia.space⟩⟩, [], []⟩
  obtain ⟨header, hresult, hsame, htext⟩ :=
    @exists_applyAll_insert_remove _ start .staticKw Keyword.lawful_defaultOrder rfl
      List.not_mem_nil []
  have hmarked : applyAll Keyword.defaultOrder [] [.insert .staticKw, .remove .staticKw] start =
      .ok { start with
        header := ⟨[], none, none, some ⟨"C", [.elasticMarker], Trivia.space⟩⟩ } := rfl
  obtain rfl := congrArg Declaration.header (Except.ok.inj (hmarked.symm.trans hresult))
  exact ⟨start, _, rfl, rfl, hresult, hsame, htext⟩

end ModifierEdit

end DeclEdit
