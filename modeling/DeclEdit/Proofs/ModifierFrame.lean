import DeclEdit.Proofs.HeaderLayout
import DeclEdit.Proofs.LevelChange

/-!
# Edits of modifiers leave everything else alone

Where a kind has modifiers, every edit of them goes through under a lawful order, except that no
modifier is removed at an index that has none. What an edit changes besides the modifiers is the
trivia in front of the token right behind them, which is the head wherever there is one. So after
any history of edits the declaration is the old one but for its modifiers and that layout.
-/

namespace DeclEdit

namespace Header

variable {order : Ranking Keyword} {mayEnter : Modifier → Prop}
  {header start middle result : Header}

/-! ### What stands behind the modifiers -/

/-- Behind the modifiers the headers are the same, but for the trivia in front of the first token
there. A name behind a head is not that token. -/
structure SameBehind (start result : Header) : Prop where
  explicitInterface : result.explicitInterface = start.explicitInterface
  head : result.head.map Token.withoutLeading = start.head.map Token.withoutLeading
  name : result.name.map Token.withoutLeading = start.name.map Token.withoutLeading
  name_of_head : start.head.isSome = true → result.name = start.name

namespace SameBehind

theorem refl (header : Header) : SameBehind header header := ⟨rfl, rfl, rfl, fun _ => rfl⟩

theorem isSome_head (h : SameBehind start result) :
    result.head.isSome = start.head.isSome := by
  have hhead := congrArg Option.isSome h.head
  rwa [Option.isSome_map, Option.isSome_map] at hhead

theorem trans (hmiddle : SameBehind start middle) (hresult : SameBehind middle result) :
    SameBehind start result where
  explicitInterface := hresult.explicitInterface.trans hmiddle.explicitInterface
  head := hresult.head.trans hmiddle.head
  name := hresult.name.trans hmiddle.name
  name_of_head hhead :=
    (hresult.name_of_head (hmiddle.isSome_head.trans hhead)).trans (hmiddle.name_of_head hhead)

theorem nameText?_eq (h : SameBehind start result) : result.nameText? = start.nameText? := by
  have hname := congrArg (Option.map Token.text) h.name
  rwa [Option.map_map, Option.map_map] at hname

end SameBehind

/-- The head stands before the name, so the trivia in front are never those of the name. -/
theorem name_mapFront (change : Trivia → Trivia) (hhead : header.head.isSome = true) :
    (header.mapFront change).name = header.name := by
  unfold mapFront
  split <;> simp_all

theorem isSome_head_mapFront (change : Trivia → Trivia) (header : Header) :
    (header.mapFront change).head.isSome = header.head.isSome := by
  unfold mapFront
  split <;> simp_all

theorem name_handOver (trivia : Trivia) (hhead : header.head.isSome = true) :
    (header.handOver trivia).name = header.name := by
  unfold handOver
  split
  · rfl
  · exact name_mapFront _ hhead

theorem Move.name_eq (hmove : Move order mayEnter header result)
    (hhead : header.head.isSome = true) : result.name = header.name := by
  cases hmove with
  | @insert _ modifier _ hresult =>
    obtain ⟨index, -, rfl⟩ := insert_eq_ok_iff.1 hresult
    cases index with
    | zero => exact name_mapFront _ hhead
    | succ index => rfl
  | removeAt index =>
    unfold Header.removeAt
    split
    · exact name_handOver _ hhead
    · rfl
  | removeAll =>
    unfold Header.removeAll
    split
    · rfl
    · exact name_handOver _ hhead
  | reorder =>
    unfold Header.reorder
    split
    · rfl
    · have hopened := isSome_head_mapFront (fun _ => []) header
      refine Eq.trans (name_mapFront _ ?_) (name_mapFront _ hhead)
      exact hopened.trans hhead
  | swap => rfl

theorem Move.sameBehind (hmove : Move order mayEnter header result) :
    SameBehind header result := by
  obtain ⟨modifiers, hbare, -⟩ := hmove.exists_bare
  have hinterface : result.bare.explicitInterface = header.bare.explicitInterface := by rw [hbare]
  have hhead : result.bare.head = header.bare.head := by rw [hbare]
  have hname : result.bare.name = header.bare.name := by rw [hbare]
  exact ⟨hinterface, hhead, hname, hmove.name_eq⟩

/-! ### Success -/

theorem exists_setAccessibility_eq_ok (horder : order.Lawful Keyword.all.length) (header : Header)
    (level : Accessibility) : ∃ result, header.setAccessibility order level = .ok result := by
  obtain ⟨swapped?, hswap⟩ := exists_swapAccessibility? horder header level
  rw [setAccessibility, hswap]
  cases swapped? with
  | some swapped => exact ⟨swapped, rfl⟩
  | none =>
    obtain ⟨result, hresult, -⟩ :=
      exists_insertKeywords_of_level horder level header.removeAccessibility
    exact ⟨result, hresult⟩

end Header

namespace Declaration

variable {start middle result : Declaration}

/-- Everything that is not a modifier is the same, but for the trivia in front of the token behind
the modifiers. -/
structure SameButModifiers (start result : Declaration) : Prop where
  kind : result.kind = start.kind
  members : result.members = start.members
  accessors : result.accessors = start.accessors
  header : start.header.SameBehind result.header

theorem SameButModifiers.refl (declaration : Declaration) :
    SameButModifiers declaration declaration :=
  ⟨rfl, rfl, rfl, .refl _⟩

theorem SameButModifiers.trans (hmiddle : SameButModifiers start middle)
    (hresult : SameButModifiers middle result) : SameButModifiers start result :=
  ⟨hresult.kind.trans hmiddle.kind, hresult.members.trans hmiddle.members,
    hresult.accessors.trans hmiddle.accessors, hmiddle.header.trans hresult.header⟩

theorem exists_editHeader {declaration : Declaration} {edit : Header → Except Refusal Header}
    (hkind : declaration.kind.hasModifiers = true)
    (hedit : ∃ header, edit declaration.header = .ok header) :
    ∃ result, declaration.editHeader edit = .ok result := by
  obtain ⟨header, hheader⟩ := hedit
  exact ⟨_, editHeader_eq_ok_iff.2 ⟨hkind, header, hheader, rfl⟩⟩

end Declaration

namespace ModifierEdit

open Declaration (SameButModifiers)

variable {order : Ranking Keyword} {edit : ModifierEdit} {site : Site}
  {start current result : Declaration}

theorem sameButModifiers_of_apply (h : edit.apply order site = .ok result) :
    site.declaration.SameButModifiers result := by
  obtain ⟨-, header, rfl, hmoves⟩ := exists_moves h
  refine ⟨rfl, rfl, rfl, ?_⟩
  exact Header.kept_of_moves (Header.SameBehind site.declaration.header)
    (fun _ _ hmove hkept => hkept.trans hmove.sameBehind) hmoves (.refl _)

theorem Reaches.sameButModifiers {orders : Ranking Keyword → Prop}
    (h : Reaches orders start current) : start.SameButModifiers current := by
  induction h with
  | start => exact .refl _
  | step _ _ hstep ih => exact ih.trans (sameButModifiers_of_apply hstep)

/-! ### Which edits are refused -/

theorem apply_of_hasModifiers_eq_false (hkind : site.kind.hasModifiers = false) :
    edit.apply order site = .error (.unsupportedKind site.kind) := by
  have hrefused : ∀ change : Header → Except Refusal Header,
      site.declaration.editHeader change = .error (.unsupportedKind site.kind) :=
    fun _ => if_neg (Bool.eq_false_iff.1 hkind)
  cases edit <;> simp only [apply, Site.changeAccessibility, Site.addAccessibility, hrefused]

theorem apply_removeAt_of_length_le {index : Nat} (hkind : site.kind.hasModifiers = true)
    (hindex : site.declaration.header.modifiers.length ≤ index) :
    (removeAt index).apply order site =
      .error (.indexOutOfRange index site.declaration.header.modifiers.length) := by
  have hkind : site.declaration.kind.hasModifiers = true := hkind
  rw [apply, Declaration.editHeader, if_pos hkind, if_neg (Nat.not_lt.2 hindex)]
  rfl

theorem exists_apply (horder : order.Lawful Keyword.all.length)
    (hkind : site.kind.hasModifiers = true)
    (hindex : ∀ index, edit = .removeAt index → index < site.declaration.header.modifiers.length) :
    ∃ result, edit.apply order site = .ok result := by
  cases edit
  all_goals
    simp only [apply, Site.changeAccessibility, Site.addAccessibility]
    refine Declaration.exists_editHeader hkind ?_
  case insert keyword =>
    obtain ⟨_, -, hinsert⟩ := Header.exists_insert horder site.declaration.header (.elastic keyword)
    exact ⟨_, hinsert⟩
  case insertModifier modifier =>
    obtain ⟨_, -, hinsert⟩ := Header.exists_insert horder site.declaration.header modifier
    exact ⟨_, hinsert⟩
  case removeAt index => exact ⟨_, if_pos (hindex index rfl)⟩
  case changeAccessibility level =>
    split
    · exact ⟨_, rfl⟩
    · exact Header.exists_setAccessibility_eq_ok horder _ level
  case addAccessibility =>
    split
    · exact ⟨_, rfl⟩
    · obtain ⟨header, hheader, -⟩ :=
        Header.exists_insertKeywords_of_level horder site.defaultAccessibility _
      exact ⟨header, hheader⟩
  all_goals exact ⟨_, rfl⟩

theorem exists_apply_iff (horder : order.Lawful Keyword.all.length) :
    (∃ result, edit.apply order site = .ok result) ↔ site.kind.hasModifiers = true ∧
      ∀ index, edit = .removeAt index → index < site.declaration.header.modifiers.length := by
  constructor
  · rintro ⟨result, hresult⟩
    have hkind := (exists_moves hresult).1
    refine ⟨hkind, ?_⟩
    rintro index rfl
    by_contra hindex
    rw [apply_removeAt_of_length_le hkind (Nat.le_of_not_lt hindex)] at hresult
    cases hresult
  · rintro ⟨hkind, hindex⟩
    exact exists_apply horder hkind hindex

theorem refusal_of_apply {refusal : Refusal} (horder : order.Lawful Keyword.all.length)
    (h : edit.apply order site = .error refusal) :
    site.kind.hasModifiers = false ∧ refusal = .unsupportedKind site.kind ∨
      site.kind.hasModifiers = true ∧ ∃ index, edit = .removeAt index ∧
        refusal = .indexOutOfRange index site.declaration.header.modifiers.length := by
  cases hkind : site.kind.hasModifiers with
  | false =>
    rw [apply_of_hasModifiers_eq_false hkind] at h
    exact .inl ⟨rfl, (Except.error.inj h).symm⟩
  | true =>
    refine .inr ⟨rfl, ?_⟩
    by_contra hother
    have hindex : ∀ index, edit = .removeAt index →
        index < site.declaration.header.modifiers.length := by
      rintro index rfl
      by_contra hlength
      rw [apply_removeAt_of_length_le hkind (Nat.le_of_not_lt hlength)] at h
      exact hother ⟨index, rfl, (Except.error.inj h).symm⟩
    obtain ⟨result, hresult⟩ := exists_apply horder hkind hindex
    rw [hresult] at h
    cases h

/-- **Edits of modifiers touch the modifiers only.** Whatever history of edits led to a declaration,
the next edit goes through exactly if the kind has modifiers and, for a removal, there is one at the
index. If it is refused, the refusal says which of the two is the cause. What has come out, and what
comes out next, is the declaration of the start but for its modifiers and the trivia in front of the
token behind them. -/
theorem modifiersOnly_of_reaches
    (hcurrent : Reaches (·.Lawful Keyword.all.length) start current) :
    start.SameButModifiers current ∧
    ∀ order : Ranking Keyword, order.Lawful Keyword.all.length →
      ∀ (enclosing : List Declaration) (edit : ModifierEdit),
        ((∃ result, edit.apply order ⟨current, enclosing⟩ = .ok result) ↔
          start.kind.hasModifiers = true ∧
            ∀ index, edit = .removeAt index → index < current.header.modifiers.length) ∧
        (∀ refusal, edit.apply order ⟨current, enclosing⟩ = .error refusal →
          start.kind.hasModifiers = false ∧ refusal = .unsupportedKind start.kind ∨
          start.kind.hasModifiers = true ∧ ∃ index, edit = .removeAt index ∧
            refusal = .indexOutOfRange index current.header.modifiers.length) ∧
        ∀ result, edit.apply order ⟨current, enclosing⟩ = .ok result →
          start.SameButModifiers result := by
  have hsame := hcurrent.sameButModifiers
  refine ⟨hsame, ?_⟩
  intro order horder enclosing edit
  rw [← hsame.kind]
  refine ⟨exists_apply_iff horder, fun refusal hrefusal => refusal_of_apply horder hrefusal, ?_⟩
  intro result hresult
  exact hsame.trans (sameButModifiers_of_apply hresult)

/-- All modifiers go and their comment comes to the name, as there is no head. None is left to be
removed. -/
theorem modifiersOnly_of_reaches_emptied :
    ∃ start current : Declaration,
      start.header.keywords = [.staticKw] ∧ start.header.head = none ∧
      Reaches (·.Lawful Keyword.all.length) start current ∧
      current.header.name = some ⟨"C", [.lineComment "// c", .endOfLine "\n"], []⟩ ∧
      start.SameButModifiers current ∧
      ¬∃ result, (removeAt 0).apply Keyword.defaultOrder ⟨current, []⟩ = .ok result := by
  let comment : Trivia := [.lineComment "// c", .endOfLine "\n"]
  let start : Declaration := ⟨.constructor,
    ⟨[⟨.staticKw, comment, Trivia.space⟩], none, none, some (.plain "C")⟩, [], []⟩
  let current := { start with header := start.header.removeAll }
  have hcurrent : Reaches (·.Lawful Keyword.all.length) start current :=
    @Reaches.step _ _ Keyword.defaultOrder start current [] .removeAll .start
      Keyword.lawful_defaultOrder rfl
  obtain ⟨hsame, hnext⟩ := modifiersOnly_of_reaches hcurrent
  obtain ⟨hsuccess, -, -⟩ := hnext Keyword.defaultOrder Keyword.lawful_defaultOrder [] (.removeAt 0)
  exact ⟨start, current, rfl, rfl, hcurrent, rfl, hsame, fun hresult =>
    Nat.not_lt_zero 0 ((hsuccess.1 hresult).2 0 rfl)⟩

end ModifierEdit

end DeclEdit
