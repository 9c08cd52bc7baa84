import DeclEdit.Proofs.HeaderLayout

/-!
# The layout in front outlives every history of edits

The indentation and the comment in front of a declaration are the trivia in front of its first
token. Modifiers come and go, and the first token with them, but the text that is in front of it at
the start is in front of it after any number of edits. That makes it the start of the header, unless
the first token is the name and an interface stands before it.
-/

namespace DeclEdit

namespace Header

variable {order : Ranking Keyword} {mayEnter : Modifier → Prop} {header result : Header}

/-- Something follows the modifiers that cannot have an interface before it: the head, or the name
of a declaration that implements no interface by name. -/
def StartsWithFront (header : Header) : Prop :=
  header.head.isSome = true ∨ header.name.isSome = true ∧ header.explicitInterface = none

theorem StartsWithFront.isSome_firstAfterModifiers? (h : header.StartsWithFront) :
    header.firstAfterModifiers?.isSome = true := by
  unfold firstAfterModifiers?
  rw [Option.orElse_eq_orElse, Option.orElse_eq_or, Option.isSome_or, Bool.or_eq_true]
  exact h.imp_right And.left

theorem startsWithFront_bare : header.bare.StartsWithFront ↔ header.StartsWithFront := by
  simp [StartsWithFront, bare]

theorem StartsWithFront.of_move (h : header.StartsWithFront)
    (hmove : Move order mayEnter header result) : result.StartsWithFront := by
  obtain ⟨modifiers, hbare, -⟩ := hmove.exists_bare
  rw [← startsWithFront_bare] at h ⊢
  rw [hbare]
  exact h

theorem StartsWithFront.ahead_eq (h : header.StartsWithFront) : header.ahead = "" :=
  ahead_eq_empty (.inr (h.imp_right And.right))

theorem StartsWithFront.exists_text_eq (h : header.StartsWithFront) :
    ∃ rest, header.text = header.front.text ++ rest :=
  ⟨_, (text_eq_written header).trans (written_eq_front_append h.ahead_eq)⟩

/-- With a modifier in front or nothing before the token that follows, trivia can be put in front of
everything. -/
theorem leadings_ne_nil_and_ahead_eq (h : header.modifiers ≠ [] ∨ header.StartsWithFront) :
    header.leadings ≠ [] ∧ header.ahead = "" := by
  rcases h with hmodifiers | hstarts
  · obtain ⟨first, rest, hcons⟩ := List.exists_cons_of_ne_nil hmodifiers
    refine ⟨?_, ahead_eq_empty (.inl hmodifiers)⟩
    rw [leadings_eq_cons hcons]
    exact List.cons_ne_nil _ _
  · exact ⟨leadings_ne_nil_of_isSome hstarts.isSome_firstAfterModifiers?, hstarts.ahead_eq⟩

/-- Any text is good enough, if all that counts is what comes before it. -/
theorem joinable_true : Joinable fun _ => True := ⟨trivial, fun _ _ => trivial⟩

end Header

open Header (StartsWithFront LaidOut joinable_true)

/-- **The layout in front survives every history of edits.** Whatever the edits and the orders are,
and wherever the declaration stands, the header starts with the trivia that were in front of its
first token before. -/
theorem ModifierEdit.exists_text_eq_of_reaches {orders : Ranking Keyword → Prop}
    {start result : Declaration} (hstart : start.header.StartsWithFront)
    (hresult : ModifierEdit.Reaches orders start result) :
    ∃ rest, result.header.text = start.header.front.text ++ rest := by
  have hlaid : result.header.StartsWithFront ∧
      LaidOut (fun _ => True) start.header.front.text result.header := by
    refine ModifierEdit.Reaches.preserves (fun header => header.StartsWithFront ∧
      LaidOut (fun _ => True) start.header.front.text header) ?_ hresult
      ⟨hstart, Header.laidOut_front joinable_true fun _ _ => trivial⟩
    rintro order - mayEnter header moved hmove ⟨hheader, hfront⟩
    exact ⟨hheader.of_move hmove, hmove.laidOut joinable_true (fun _ _ => trivial)
      hheader.isSome_firstAfterModifiers? hfront⟩
  obtain ⟨hshown, ⟨own, -, hfront⟩, -⟩ := hlaid
  obtain ⟨rest, htext⟩ := hshown.exists_text_eq
  exact ⟨own ++ rest, by rw [htext, hfront, String.append_assoc]⟩

/-- All modifiers go, the comment waits in front of the type, and a modifier with a comment of its
own takes both over. -/
theorem ModifierEdit.exists_text_eq_of_reaches_emptied :
    ∃ start result : Declaration,
      start.header.front = [.lineComment "// f", .endOfLine "\n"] ∧
      start.header.keywords = [.publicKw, .staticKw] ∧ result.header.keywords = [.asyncKw] ∧
      ModifierEdit.Reaches (·.Lawful Keyword.all.length) start result ∧
      ∃ rest, result.header.text = start.header.front.text ++ rest := by
  let comment : Trivia := [.lineComment "// f", .endOfLine "\n"]
  let entering : Modifier := ⟨.asyncKw, [.blockComment "/* g */"], Trivia.space⟩
  let start : Declaration := ⟨.method, ⟨[⟨.publicKw, comment, Trivia.space⟩, .spaced .staticKw],
    some (.plain "void"), none, some (.plain "f")⟩, [], []⟩
  let emptied := { start with header := start.header.removeAll }
  let result := { start with header := emptied.header.insertAt 0 entering }
  have hemptied : ModifierEdit.Reaches (·.Lawful Keyword.all.length) start emptied :=
    @ModifierEdit.Reaches.step _ _ Keyword.defaultOrder start emptied [] .removeAll .start
      Keyword.lawful_defaultOrder rfl
  have hresult : ModifierEdit.Reaches (·.Lawful Keyword.all.length) start result :=
    @ModifierEdit.Reaches.step _ _ Keyword.defaultOrder emptied result []
      (.insertModifier entering) hemptied Keyword.lawful_defaultOrder rfl
  exact ⟨start, result, rfl, rfl, rfl, hresult,
    ModifierEdit.exists_text_eq_of_reaches (.inl rfl) hresult⟩

end DeclEdit
