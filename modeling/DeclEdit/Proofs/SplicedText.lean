import DeclEdit.Proofs.FrontKept
import DeclEdit.Proofs.SwapAgreement

/-!
# The text around a modifier that comes in or goes

An insertion writes the new modifier at one place and leaves the text on both sides alone. A removal
cuts out one piece. Behind the first modifier this is plain, as nothing but the list of modifiers
changes. At the front the trivia change hands: the layout of the whole declaration stays where it
is, so a new modifier is written behind it, and of the first modifier all goes but that layout.
-/

namespace DeclEdit

namespace Header

variable {header : Header} {index : Nat}

/-! ### The text in parts -/

/-- The text of the modifiers in front of the index. -/
def textBefore (header : Header) (index : Nat) : String :=
  String.join ((header.modifiers.take index).map Modifier.fullText)

/-- What stays in front of a modifier that comes in at the index: the modifiers there or, at the
front, the layout of the whole declaration. -/
def textAhead (header : Header) : Nat → String
  | 0 => header.front.text
  | index + 1 => header.textBefore (index + 1)

theorem written_append (modifiers : List Modifier) (header : Header) :
    { header with modifiers := modifiers ++ header.modifiers }.written =
      String.join (modifiers.map Modifier.fullText) ++ header.written := by
  simp [written, String.join_append, String.append_assoc]

theorem written_eq_textBefore_append (header : Header) (index : Nat) :
    header.written =
      header.textBefore index ++ { header with modifiers := header.modifiers.drop index }.written := by
  have happend := written_append (header.modifiers.take index)
    { header with modifiers := header.modifiers.drop index }
  rwa [List.take_append_drop] at happend

/-! ### Insertion -/

theorem exists_rest_insertAt (hahead : header.ahead = "") (hindex : index ≤ header.modifiers.length)
    (modifier : Modifier) :
    ∃ rest, header.text = header.textAhead index ++ rest ∧
      (header.insertAt index modifier).text =
        header.textAhead index ++ modifier.fullText ++ rest := by
  simp only [text_eq_written]
  cases index with
  | zero =>
    exact ⟨_, written_eq_front_append hahead, written_insertAt_zero header modifier⟩
  | succ index =>
    let behind : Header := { header with modifiers := header.modifiers.drop (index + 1) }
    refine ⟨behind.written, written_eq_textBefore_append header (index + 1), ?_⟩
    calc
      (header.insertAt (index + 1) modifier).written
        = { behind with
            modifiers := header.modifiers.take (index + 1) ++ modifier :: behind.modifiers }.written := by
          simp only [insertAt, insertIdx_eq_take_append_cons_drop hindex, behind]
      _ = header.textBefore (index + 1) ++
            { behind with modifiers := modifier :: behind.modifiers }.written :=
          written_append _ { behind with modifiers := modifier :: behind.modifiers }
      _ = header.textBefore (index + 1) ++ modifier.fullText ++ behind.written := by
          rw [written_cons, String.append_assoc]

/-! ### Removal -/

/-- The layout that is handed over stands in front of what was in front before. -/
theorem written_handOver (hleadings : header.leadings ≠ []) (hahead : header.ahead = "")
    (trivia : Trivia) : (header.handOver trivia).written = trivia.text ++ header.written := by
  unfold handOver
  split
  · next hnil => rw [hnil, Trivia.text_nil, String.empty_append]
  · obtain ⟨rest, hrest⟩ := exists_written_mapFront hleadings
    have hwritten := hrest id
    rw [mapFront_id, hahead, String.empty_append] at hwritten
    rw [hrest, hahead, Trivia.text_handedOver, hwritten, String.empty_append, String.append_assoc]
    rfl

theorem removeAt_zero {first : Modifier} {rest : List Modifier}
    (hmodifiers : header.modifiers = first :: rest) :
    header.removeAt 0 = { header with modifiers := rest }.handOver first.leading := by
  simp only [removeAt, hmodifiers]

/-- The first modifier leaves its layout to a token that nothing is written before. -/
theorem text_removeAt_zero {first : Modifier} {rest : List Modifier}
    (hmodifiers : header.modifiers = first :: rest) (hrest : rest ≠ [] ∨ header.StartsWithFront) :
    (header.removeAt 0).text = first.leading.text ++ { header with modifiers := rest }.text := by
  let behind : Header := { header with modifiers := rest }
  obtain ⟨htoken, hahead⟩ : behind.leadings ≠ [] ∧ behind.ahead = "" :=
    leadings_ne_nil_and_ahead_eq hrest
  rw [removeAt_zero hmodifiers, text_eq_written, text_eq_written]
  exact written_handOver htoken hahead first.leading

theorem exists_rest_removeAt {modifier : Modifier}
    (hmodifier : header.modifiers[index]? = some modifier) :
    ∃ rest, header.text = header.textBefore index ++ modifier.fullText ++ rest ∧
      (0 < index → (header.removeAt index).text = header.textBefore index ++ rest) ∧
      (index = 0 → 1 < header.modifiers.length ∨ header.StartsWithFront →
        (header.removeAt index).text = modifier.leading.text ++ rest) := by
  let behind : Header := { header with modifiers := header.modifiers.drop (index + 1) }
  have hdrop : header.modifiers.drop index = modifier :: behind.modifiers := by
    obtain ⟨hindex, rfl⟩ := List.getElem?_eq_some_iff.1 hmodifier
    exact List.drop_eq_getElem_cons hindex
  refine ⟨behind.text, ?_, ?_, ?_⟩
  · calc
      header.text = header.written := text_eq_written header
      _ = header.textBefore index ++
            { behind with modifiers := modifier :: behind.modifiers }.written := by
          rw [written_eq_textBefore_append header index, hdrop]
      _ = header.textBefore index ++ modifier.fullText ++ behind.text := by
          rw [written_cons, text_eq_written, String.append_assoc]
  · intro hpos
    obtain ⟨index, rfl⟩ := Nat.exists_eq_add_one_of_ne_zero (Nat.ne_of_gt hpos)
    calc
      (header.removeAt (index + 1)).text
        = { behind with
            modifiers := header.modifiers.take (index + 1) ++ behind.modifiers }.written := by
          rw [removeAt_succ, text_eq_written, List.eraseIdx_eq_take_drop_succ]
      _ = header.textBefore (index + 1) ++ behind.text := by
          rw [written_append, text_eq_written]
          rfl
  · rintro rfl hrest
    refine text_removeAt_zero hdrop (hrest.imp_left fun hlength => ?_)
    rw [← List.length_pos_iff, List.length_drop]
    omega

end Header

namespace ModifierEdit

variable {order : Ranking Keyword} {site : Site} {modifier : Modifier} {index : Nat}

/-- **An insertion only adds text.** The header is cut at one place: behind the modifiers in front of
the index where the order puts the new one or, at the front, behind the layout of the whole
declaration. The new modifier is written there with its trivia, and both parts stay as they are. -/
theorem exists_text_insertModifier (horder : order.Lawful Keyword.all.length)
    (hkind : site.kind.hasModifiers = true)
    (hfirst : site.declaration.header.modifiers ≠ [] ∨
      site.declaration.header.head.isSome = true ∨
      site.declaration.header.explicitInterface = none) :
    ∃ index header rest,
      order.insertIndex site.declaration.header.keywords modifier.keyword = .ok index ∧
      (insertModifier modifier).apply order site = .ok { site.declaration with header } ∧
      site.declaration.header.text = site.declaration.header.textAhead index ++ rest ∧
      header.text = site.declaration.header.textAhead index ++
        modifier.leading.text ++ modifier.keyword.text ++ modifier.trailing.text ++ rest := by
  obtain ⟨index, hindex, hplace⟩ :=
    horder.exists_insertIndex site.declaration.header.keywords modifier.keyword
  have hlength : index ≤ site.declaration.header.modifiers.length :=
    Header.length_keywords site.declaration.header ▸ hplace.le_length
  obtain ⟨rest, htext, hinserted⟩ :=
    Header.exists_rest_insertAt (Header.ahead_eq_empty hfirst) hlength modifier
  refine ⟨index, site.declaration.header.insertAt index modifier, rest, hindex, ?_, htext, ?_⟩
  · rw [apply, Declaration.editHeader_eq_ok_iff]
    exact ⟨hkind, _, Header.insert_eq_ok_iff.2 ⟨index, hindex, rfl⟩, rfl⟩
  · simpa only [Modifier.fullText, String.append_assoc] using hinserted

/-- There is no modifier and no head, so the comment of the name goes to the front. -/
theorem exists_text_insertModifier_before_name :
    ∃ start result : Declaration, ∃ rest,
      start.header = ⟨[], none, none, some ⟨"C", [.lineComment "// c", .endOfLine "\n"], []⟩⟩ ∧
      (insertModifier ⟨.staticKw, [.blockComment "/* s */"], Trivia.space⟩).apply
        Keyword.defaultOrder ⟨start, []⟩ = .ok result ∧
      start.header.text = "// c\n" ++ rest ∧
      result.header.text = "// c\n" ++ "/* s */" ++ "static" ++ " " ++ rest := by
  let start : Declaration := ⟨.constructor,
    ⟨[], none, none, some ⟨"C", [.lineComment "// c", .endOfLine "\n"], []⟩⟩, [], []⟩
  let static : Modifier := ⟨.staticKw, [.blockComment "/* s */"], Trivia.space⟩
  obtain ⟨index, header, rest, hindex, hresult, htext, hinserted⟩ :=
    @exists_text_insertModifier _ ⟨start, []⟩ static Keyword.lawful_defaultOrder rfl
      (.inr (.inr rfl))
  have hfront : Keyword.defaultOrder.insertIndex start.header.keywords .staticKw = .ok 0 := rfl
  obtain rfl := Except.ok.inj (hfront.symm.trans hindex)
  exact ⟨start, _, rest, rfl, hresult, htext, hinserted⟩

/-- **A removal deletes one piece of text.** Behind the first modifier, the piece is the modifier
with its trivia. Of the first modifier the layout in front stays, if something follows that it can
stand in front of. -/
theorem exists_text_removeAt (hkind : site.kind.hasModifiers = true)
    (hmodifier : site.declaration.header.modifiers[index]? = some modifier)
    (order : Ranking Keyword) :
    ∃ header rest, (removeAt index).apply order site = .ok { site.declaration with header } ∧
      site.declaration.header.text = site.declaration.header.textBefore index ++
        modifier.leading.text ++ modifier.keyword.text ++ modifier.trailing.text ++ rest ∧
      (0 < index → header.text = site.declaration.header.textBefore index ++ rest) ∧
      (index = 0 →
        1 < site.declaration.header.modifiers.length ∨ site.declaration.header.StartsWithFront →
        header.text = modifier.leading.text ++ rest) := by
  obtain ⟨hindex, -⟩ := List.getElem?_eq_some_iff.1 hmodifier
  obtain ⟨rest, htext, hbehind, hfront⟩ := Header.exists_rest_removeAt hmodifier
  refine ⟨site.declaration.header.removeAt index, rest, ?_, ?_, hbehind, hfront⟩
  · rw [apply, Declaration.editHeader_eq_ok_iff]
    exact ⟨hkind, _, if_pos hindex, rfl⟩
  · simpa only [Modifier.fullText, String.append_assoc] using htext

/-- No other modifier and no head follows, so the comment goes to the name and stands in front of
the one that is there. -/
theorem exists_text_removeAt_before_name :
    ∃ start result : Declaration, ∃ rest,
      start.header.keywords = [.staticKw] ∧ start.header.head = none ∧
      (removeAt 0).apply Keyword.defaultOrder ⟨start, []⟩ = .ok result ∧
      start.header.text = "" ++ "// c\n" ++ "static" ++ " " ++ rest ∧
      result.header.text = "// c\n" ++ rest := by
  let static : Modifier := ⟨.staticKw, [.lineComment "// c", .endOfLine "\n"], Trivia.space⟩
  let start : Declaration :=
    ⟨.constructor, ⟨[static], none, none, some ⟨"C", [.blockComment "/* n */"], []⟩⟩, [], []⟩
  obtain ⟨header, rest, hresult, htext, -, hfront⟩ :=
    @exists_text_removeAt ⟨start, []⟩ static 0 rfl rfl Keyword.defaultOrder
  exact ⟨start, _, rest, rfl, rfl, hresult, htext, hfront rfl (.inr (.inr ⟨rfl, rfl⟩))⟩

end ModifierEdit

end DeclEdit
