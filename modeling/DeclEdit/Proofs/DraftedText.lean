import DeclEdit.Proofs.DraftedSteps
import DeclEdit.Proofs.FrontKept
import DeclEdit.Proofs.Shape

/-!
# The text of a drafted header

A finished draft puts its leading trivia in front of the first modifier, else of the head, else of
the name, and a space behind the head if there is a name. The header is written with the interface
name between the head and the name. So the leading trivia do not come first if the interface name
does, and an interface name that no name follows is written right behind the head.
-/

namespace DeclEdit

open Declaration (Kind)

/-! ### Interface names -/

namespace Text

theorem startsIdentifier_space : startsIdentifier ' ' = false := by decide +kernel

theorem isInterfaceName_space_cons (rest : List Char) : isInterfaceName (' ' :: rest) = false := by
  obtain ⟨part, parts, hparts⟩ := List.exists_cons_of_ne_nil (pieces_ne_nil (· = '.') rest)
  simp [isInterfaceName, pieces, hparts, isIdentifier, dropVerbatimMark, startsIdentifier_space]

theorem append_ne_space_append {text : String} (h : isInterfaceName text.toList = true)
    (behind rest : String) : text ++ behind ≠ " " ++ rest := by
  intro heq
  have hchars : text.toList ++ behind.toList = ' ' :: rest.toList := by
    simpa using congrArg String.toList heq
  cases htext : text.toList with
  | nil =>
    rw [htext] at h
    cases h
  | cons c others =>
    rw [htext, List.cons_append] at hchars
    obtain rfl := List.head_eq_of_cons_eq hchars
    rw [htext, isInterfaceName_space_cons] at h
    cases h

end Text

/-! ### The text around the head -/

namespace Header

variable {header : Header}

/-- The modifiers and the layout in front of the head. -/
def textBeforeHead (header : Header) : String :=
  String.join (header.modifiers.map Modifier.fullText) ++
    (header.head.map (·.leading.text)).getD ""

theorem text_eq_of_head {head : Token} (hhead : header.head = some head) :
    header.text = header.textBeforeHead ++ head.text ++ (head.trailing.text ++
      ((header.explicitInterface.map (· ++ ".")).getD "" ++
        (header.name.map Token.fullText).getD "")) := by
  simp [text_eq_written, written, textBeforeHead, hhead, Token.fullText, String.append_assoc]

theorem text_of_interface_first {interface : String} (hmodifiers : header.modifiers = [])
    (hhead : header.head = none) (hinterface : header.explicitInterface = some interface) :
    header.text = interface ++ "." ++ (header.name.map Token.fullText).getD "" := by
  simp [text_eq_written, written, hmodifiers, hhead, hinterface]

end Header

/-! ### The header of a draft -/

namespace Draft

variable {kind : Kind} {steps : List Step} {draft : Draft} {modifiers : List Modifier}
  {trivia : Trivia} {result : Declaration}

/-- The header before the leading trivia are put in front. -/
def plainHeader (draft : Draft) (modifiers : List Modifier) : Header :=
  ⟨modifiers, draft.spacedHead?, draft.explicitInterface, draft.name.map Token.plain⟩

theorem header_of_leading (h : draft.leading = some trivia) :
    draft.header modifiers = (draft.plainHeader modifiers).mapFront fun _ => trivia := by
  simp only [header, h, plainHeader]

theorem bare_header (draft : Draft) (modifiers : List Modifier) :
    (draft.header modifiers).bare = (draft.plainHeader modifiers).bare := by
  cases hleading : draft.leading with
  | none => simp only [header, hleading, plainHeader]
  | some trivia => rw [header_of_leading hleading, Header.bare_mapFront]

theorem explicitInterface_header (draft : Draft) (modifiers : List Modifier) :
    (draft.header modifiers).explicitInterface = draft.explicitInterface :=
  congrArg Header.explicitInterface (bare_header draft modifiers)

theorem name_header (draft : Draft) (modifiers : List Modifier) :
    (draft.header modifiers).name.map Token.withoutLeading = draft.name.map Token.plain := by
  have hname : (draft.header modifiers).name.map Token.withoutLeading =
      (draft.name.map Token.plain).map Token.withoutLeading :=
    congrArg Header.name (bare_header draft modifiers)
  rw [hname, Option.map_map]
  rfl

theorem isSome_name_header (draft : Draft) (modifiers : List Modifier) :
    (draft.header modifiers).name.isSome = draft.name.isSome := by
  simpa using congrArg Option.isSome (name_header draft modifiers)

theorem spacedHead?_eq {head : String} (hhead : draft.head = some (.plain head))
    (htilde : head ≠ "~") :
    draft.spacedHead? = some ⟨head, [], if draft.name.isSome then Trivia.space else []⟩ := by
  rw [spacedHead?, hhead]
  by_cases hname : draft.name.isSome = true <;> simp [hname, htilde, Token.plain]

theorem exists_head_header {head : String} (hhead : draft.head = some (.plain head))
    (htilde : head ≠ "~") (modifiers : List Modifier) :
    ∃ token, (draft.header modifiers).head = some token ∧ token.text = head ∧
      token.trailing = if draft.name.isSome then Trivia.space else [] := by
  have hbare : (draft.header modifiers).head.map Token.withoutLeading =
      draft.spacedHead?.map Token.withoutLeading :=
    congrArg Header.head (bare_header draft modifiers)
  rw [spacedHead?_eq hhead htilde] at hbare
  obtain ⟨token, htoken, hsame⟩ := Option.map_eq_some_iff.1 hbare
  exact ⟨token, htoken, congrArg Token.text hsame, congrArg Token.trailing hsame⟩

theorem front_header (h : draft.leading = some trivia)
    (htoken : (draft.header modifiers).leadings ≠ []) :
    (draft.header modifiers).front = trivia := by
  rw [header_of_leading h] at htoken ⊢
  refine Header.front_mapFront ?_ _
  intro hnone
  rw [Header.leadings_mapFront, hnone] at htoken
  exact htoken rfl

theorem trailing_name_header {name : Token} (hname : (draft.header modifiers).name = some name) :
    name.trailing = [] := by
  have hplain := name_header draft modifiers
  rw [hname] at hplain
  obtain ⟨text, -, hsame⟩ := Option.map_eq_some_iff.1 hplain.symm
  exact (congrArg Token.trailing hsame).symm

/-- The name comes first of the tokens, so it has the leading trivia in front. -/
theorem fullText_name_header (h : draft.leading = some trivia)
    (hmodifiers : (draft.header modifiers).modifiers = [])
    (hhead : (draft.header modifiers).head = none) :
    (draft.header modifiers).name.map Token.fullText =
      (draft.header modifiers).name.map fun name => trivia.text ++ name.text := by
  cases hname : (draft.header modifiers).name with
  | none => rfl
  | some name =>
    have hleadings : (draft.header modifiers).leadings = [name.leading] := by
      simp [Header.leadings, hmodifiers, hhead, hname]
    have hfront : (draft.header modifiers).front = trivia := front_header h (by simp [hleadings])
    have hleading : name.leading = trivia := by
      rw [← hfront, Header.front_eq_headD, hleadings]
      rfl
    simp [Token.fullText, hleading, trailing_name_header hname]

theorem isInterfaceName_of_check {text : String} (hinterface : draft.explicitInterface = some text)
    (h : draft.check modifiers = .ok ()) : Text.isInterfaceName text.toList = true := by
  by_contra hbad
  have hrefused : draft.badInterface? = some text := by
    rw [badInterface?, hinterface, Option.filter_some, if_pos (by simpa using hbad)]
  unfold check at h
  rw [hrefused] at h
  split at h
  · cases h
  · cases hname : draft.badName? <;> simp [hname] at h

/-- No space is where an interface name may begin: its first part is an identifier. -/
theorem interface_text_ne_space_append (h : draft.check modifiers = .ok ()) (rest : String) :
    ((draft.header modifiers).explicitInterface.map (· ++ ".")).getD "" ≠ " " ++ rest := by
  rw [explicitInterface_header]
  cases hinterface : draft.explicitInterface with
  | none =>
    intro heq
    simpa using congrArg String.toList heq
  | some interface =>
    exact Text.append_ne_space_append (isInterfaceName_of_check hinterface h) "." rest

theorem exists_header_of_finish (hresult : draft.finish = .ok result) :
    ∃ modifiers, draft.check modifiers = .ok () ∧ result.header = draft.header modifiers := by
  obtain ⟨modifiers, -, hcheck, hmade, -⟩ := finish_eq_ok_iff.1 hresult
  exact ⟨modifiers, hcheck, by rw [hmade]⟩

/-- **Leading trivia come first, unless an interface name does.** Of a finished draft with leading
trivia, the text is these and the rest of the header, if a modifier, the head or the name is written
first. An interface name that is written first keeps the trivia behind itself, in front of the
name, and without a name they are not written at all. -/
theorem text_of_leading_last (hleading : lastOf? .leading steps = some (.leading trivia))
    (hresult : (run kind steps).finish = .ok result) :
    (result.header.modifiers ≠ [] ∨ result.header.StartsWithFront →
      result.header.text = trivia.text ++ (result.header.mapFront fun _ => []).text) ∧
    ∀ interface, result.header.modifiers = [] → result.header.head = none →
      result.header.explicitInterface = some interface →
      result.header.text = interface ++ "." ++
        (result.header.name.map fun name => trivia.text ++ name.text).getD "" := by
  have hdraft : (run kind steps).leading = some trivia :=
    setBy_leading.read_run_of_some hleading (start kind)
  obtain ⟨modifiers, -, hheader⟩ := exists_header_of_finish hresult
  rw [hheader]
  constructor
  · intro hfirst
    obtain ⟨htoken, hahead⟩ := Header.leadings_ne_nil_and_ahead_eq hfirst
    rw [Header.text_eq_written, Header.text_eq_written, Header.written_eq_front_append hahead,
      front_header hdraft htoken]
  · intro interface hmodifiers hhead hinterface
    rw [Header.text_of_interface_first hmodifiers hhead hinterface,
      fullText_name_header hdraft hmodifiers hhead]

/-- The second indentation counts. It takes the place of the marker in front of the type, which the
draft brings along. -/
theorem text_of_leading_last_indented :
    ∃ (steps : List Step) (result : Declaration),
      lastOf? .leading steps = some (.leading [.whitespace "  "]) ∧
      (run .field steps).finish = .ok result ∧
      result.header.head = some ⟨"int", [.whitespace "  "], Trivia.space⟩ ∧
      result.header.text = "  " ++ "int x" := by
  let steps : List Step := [.leading [.whitespace " "], .headToken ⟨"int", [.elasticMarker], []⟩,
    .name "x", .leading [.whitespace "  "]]
  let result : Declaration := ⟨.field,
    ⟨[], some ⟨"int", [.whitespace "  "], Trivia.space⟩, none, some (.plain "x")⟩, [], []⟩
  have hresult : (run .field steps).finish = .ok result := rfl
  obtain ⟨hfirst, -⟩ := text_of_leading_last rfl hresult
  exact ⟨steps, result, rfl, hresult, rfl, hfirst (.inr (.inl rfl))⟩

/-- There is neither a modifier nor a head, so the indentation comes behind the interface name. -/
theorem exists_interface_before_leading :
    ∃ (steps : List Step) (trivia : Trivia) (result : Declaration),
      lastOf? .leading steps = some (.leading trivia) ∧
      (run .method steps).finish = .ok result ∧
      result.header.explicitInterface = some "I" ∧ result.header.text = "I.  M" ∧
      ¬∃ rest, result.header.text = trivia.text ++ rest := by
  let result : Declaration := ⟨.method,
    ⟨[], none, some "I", some ⟨"M", [.whitespace "  "], []⟩⟩, [], []⟩
  have htext : result.header.text = "I.  M" := rfl
  refine ⟨[.explicitInterface "I", .name "M", .leading [.whitespace "  "]], [.whitespace "  "],
    result, rfl, rfl, rfl, htext, ?_⟩
  rintro ⟨rest, hrest⟩
  have hchars := congrArg String.toList (htext.symm.trans hrest)
  simp [Trivia.Piece.text] at hchars

/-- **Only a name keeps the head apart.** Behind a head that is given without trivia and is no tilde,
a space is written exactly if the header has a name, whether or not an interface name stands between
the two. An interface name that no name follows is written right behind the head. -/
theorem exists_space_behind_head_iff {head : String}
    (hhead : (run kind steps).head = some (.plain head)) (htilde : head ≠ "~")
    (hresult : (run kind steps).finish = .ok result) :
    (∃ rest, result.header.text = result.header.textBeforeHead ++ head ++ " " ++ rest) ↔
      result.header.name.isSome = true := by
  obtain ⟨modifiers, hcheck, hheader⟩ := exists_header_of_finish hresult
  rw [hheader]
  obtain ⟨token, htoken, htext, htrailing⟩ := exists_head_header hhead htilde modifiers
  have hwritten := Header.text_eq_of_head htoken
  rw [htext, htrailing, ← isSome_name_header] at hwritten
  constructor
  · rintro ⟨rest, hrest⟩
    by_contra hname
    rw [hrest, String.append_assoc, String.append_right_inj, if_neg hname,
      Option.not_isSome_iff_eq_none.1 hname] at hwritten
    exact interface_text_ne_space_append hcheck rest (by simpa using hwritten.symm)
  · intro hname
    rw [hwritten, if_pos hname, ← String.append_assoc]
    exact ⟨_, rfl⟩

/-- The name comes behind the interface name. -/
theorem exists_space_behind_head_iff_explicit :
    ∃ (steps : List Step) (result : Declaration),
      (run .method steps).head = some (.plain "int") ∧ "int" ≠ "~" ∧
      (run .method steps).finish = .ok result ∧
      result.header.explicitInterface = some "I" ∧ result.header.name.isSome = true ∧
      result.header.textBeforeHead = "public " ∧
      ∃ rest, result.header.text = "public " ++ "int" ++ " " ++ rest := by
  let steps : List Step :=
    [.keywords "public", .head "int", .explicitInterface "I", .name "M"]
  let result : Declaration := ⟨.method,
    ⟨[.spaced .publicKw], some ⟨"int", [], Trivia.space⟩, some "I", some (.plain "M")⟩, [], []⟩
  have hresult : (run .method steps).finish = .ok result := rfl
  have hspace := (exists_space_behind_head_iff rfl (by decide) hresult).2 rfl
  exact ⟨steps, result, rfl, by decide, hresult, rfl, rfl, rfl, hspace⟩

/-- An indexer goes without a name, so its type runs into the interface name. -/
theorem exists_interface_fused_with_head :
    ∃ (steps : List Step) (result : Declaration),
      (run .indexer steps).head = some (.plain "int") ∧
      (run .indexer steps).finish = .ok result ∧
      result.header.explicitInterface = some "I" ∧ result.header.text = "intI." ∧
      ¬∃ rest, result.header.text = result.header.textBeforeHead ++ "int" ++ " " ++ rest := by
  let result : Declaration := ⟨.indexer,
    ⟨[], some (.plain "int"), some "I", none⟩, [], []⟩
  have htext : result.header.text = "intI." := rfl
  have hbefore : result.header.textBeforeHead = "" := rfl
  refine ⟨[.head "int", .explicitInterface "I"], result, rfl, rfl, rfl, htext, ?_⟩
  rintro ⟨rest, hrest⟩
  rw [hbefore] at hrest
  have hchars := congrArg String.toList (htext.symm.trans hrest)
  simp at hchars

end Draft

end DeclEdit
