import DeclEdit.Proofs.SplicedText

/-!
# All modifiers at once, or one after the other

Modifiers that are removed from the last one to the first leave what a removal of all leaves. A
removal behind the first modifier drops a modifier and touches nothing else, so it changes nothing
about what a removal of all then does. What is left at the end is the first modifier, and there the
two removals are one: the trivia in front of it go to the head or the name.
-/

namespace DeclEdit

namespace Header

variable {header : Header}

theorem removeAll_of_nil (hmodifiers : header.modifiers = []) : header.removeAll = header := by
  simp only [removeAll, hmodifiers]

theorem removeAll_of_cons {first : Modifier} {rest : List Modifier}
    (hmodifiers : header.modifiers = first :: rest) :
    header.removeAll = { header with modifiers := [] }.handOver first.leading := by
  simp only [removeAll, hmodifiers]

theorem modifiers_removeAll (header : Header) : header.removeAll.modifiers = [] :=
  List.map_eq_nil_iff.1 (keywords_removeAll header)

/-- Whatever the last modifier is, the removal of all others does not depend on it. -/
theorem removeAll_removeAt_last {count : Nat} (hlength : header.modifiers.length = count + 1) :
    (header.removeAt count).removeAll = header.removeAll := by
  obtain ⟨first, rest, hmodifiers⟩ := List.exists_cons_of_length_eq_add_one hlength
  cases count with
  | zero =>
    obtain rfl : rest = [] := by simpa [hmodifiers] using hlength
    have honly : header.removeAt 0 = header.removeAll := by
      rw [removeAt_zero hmodifiers, removeAll_of_cons hmodifiers]
    rw [honly, removeAll_of_nil (modifiers_removeAll header)]
  | succ count =>
    have hfirst : (header.removeAt (count + 1)).modifiers = first :: rest.eraseIdx count := by
      rw [removeAt_succ, hmodifiers, List.eraseIdx_cons_succ]
    rw [removeAll_of_cons hfirst, removeAll_of_cons hmodifiers, removeAt_succ]

end Header

namespace ModifierEdit

variable {order : Ranking Keyword} {declaration : Declaration} {enclosing : List Declaration}

theorem apply_removeAll (hkind : declaration.kind.hasModifiers = true) :
    removeAll.apply order ⟨declaration, enclosing⟩ =
      .ok { declaration with header := declaration.header.removeAll } := by
  rw [apply, Declaration.editHeader_eq_ok_iff]
  exact ⟨hkind, _, rfl, rfl⟩

theorem apply_removeAt {index : Nat} (hkind : declaration.kind.hasModifiers = true)
    (hindex : index < declaration.header.modifiers.length) :
    (removeAt index).apply order ⟨declaration, enclosing⟩ =
      .ok { declaration with header := declaration.header.removeAt index } := by
  rw [apply, Declaration.editHeader_eq_ok_iff]
  exact ⟨hkind, _, if_pos hindex, rfl⟩

/-- The removals of so many modifiers, from the last one to the first. -/
def removals (count : Nat) : List ModifierEdit := (List.range count).reverse.map removeAt

theorem removals_succ (count : Nat) : removals (count + 1) = removeAt count :: removals count := by
  rw [removals, List.range_succ, List.reverse_concat]
  rfl

theorem applyAll_removals (hkind : declaration.kind.hasModifiers = true) {count : Nat}
    (hlength : declaration.header.modifiers.length = count) :
    applyAll order enclosing (removals count) declaration =
      .ok { declaration with header := declaration.header.removeAll } := by
  induction count generalizing declaration with
  | zero =>
    rw [Header.removeAll_of_nil (List.eq_nil_of_length_eq_zero hlength), declaration.eta]
    rfl
  | succ count ih =>
    let removed := { declaration with header := declaration.header.removeAt count }
    have hremoved : removed.header.modifiers.length = count := by
      rw [Header.length_modifiers_removeAt, List.length_eraseIdx, hlength, if_pos count.lt_succ_self]
      rfl
    have hstep : (removeAt count).apply order ⟨declaration, enclosing⟩ = .ok removed :=
      apply_removeAt hkind (hlength ▸ count.lt_succ_self)
    have hrest : applyAll order enclosing (removals count) removed =
        .ok { removed with header := removed.header.removeAll } := ih hkind hremoved
    rw [removals_succ, applyAll_cons, hstep, ← Header.removeAll_removeAt_last hlength]
    exact hrest

/-- **Modifiers may be removed at once or one after the other.** The removal of all modifiers and
the removals at each index, from the last one down to the first, go through and make the same
declaration, which has no modifiers. -/
theorem exists_removeAll (hkind : declaration.kind.hasModifiers = true) (order : Ranking Keyword)
    (enclosing : List Declaration) :
    ∃ result, removeAll.apply order ⟨declaration, enclosing⟩ = .ok result ∧
      applyAll order enclosing (removals declaration.header.modifiers.length) declaration =
        .ok result ∧
      result.header.modifiers = [] :=
  ⟨_, apply_removeAll hkind, applyAll_removals hkind rfl, Header.modifiers_removeAll _⟩

/-- There is no head. The comment of the first modifier takes the place of the name's marker, and
that of the second modifier goes with it. -/
theorem exists_removeAll_before_marker :
    ∃ start result : Declaration,
      start.header.keywords = [.publicKw, .staticKw] ∧
      result.header = ⟨[], none, none, some ⟨"C", [.lineComment "// c", .endOfLine "\n"], []⟩⟩ ∧
      removeAll.apply Keyword.defaultOrder ⟨start, []⟩ = .ok result ∧
      applyAll Keyword.defaultOrder [] [.removeAt 1, .removeAt 0] start = .ok result := by
  let first : Modifier := ⟨.publicKw, [.lineComment "// c", .endOfLine "\n"], Trivia.space⟩
  let second : Modifier := ⟨.staticKw, [.blockComment "/* s */"], Trivia.space⟩
  let start : Declaration :=
    ⟨.constructor, ⟨[first, second], none, none, some ⟨"C", [.elasticMarker], []⟩⟩, [], []⟩
  obtain ⟨result, hall, hsteps, -⟩ := @exists_removeAll start rfl Keyword.defaultOrder []
  obtain rfl := Except.ok.inj hall
  exact ⟨start, _, rfl, rfl, hall, hsteps⟩

end ModifierEdit

end DeclEdit
