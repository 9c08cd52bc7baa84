import DeclEdit.Proofs.FrontTrivia
import DeclEdit.Proofs.HeaderMoves

/-!
# What moves do to the layout

Without the trivia in front of its tokens, a header is edited like a plain list of modifiers, and
nothing behind the modifiers changes. The trivia in front of the tokens move about. What stands in
front of the first token stays there: only trivia of a token that came to the front or left it may
follow. So whatever can be said of the texts in front of the other tokens and of those that come in
can be said after every move, as long as it holds of no text at all and of two texts one behind the
other.
-/

namespace DeclEdit

theorem map_modify_of_comm {α β : Type} (f : α → β) (g : α → α) (g' : β → β)
    (h : ∀ x, f (g x) = g' (f x)) (items : List α) (index : Nat) :
    (items.modify index g).map f = (items.map f).modify index g' := by
  induction items generalizing index with
  | nil => cases index <;> rfl
  | cons x rest ih => cases index <;> simp [h, ih]

namespace Header

/-! ### Without the trivia in front of the tokens -/

/-- The header without the trivia in front of its tokens. -/
def bare (header : Header) : Header where
  modifiers := header.modifiers.map Modifier.withoutLeading
  head := header.head.map Token.withoutLeading
  explicitInterface := header.explicitInterface
  name := header.name.map Token.withoutLeading

@[simp] theorem bare_mapFront (change : Trivia → Trivia) (header : Header) :
    (header.mapFront change).bare = header.bare := by
  unfold mapFront bare
  split <;> simp_all [Modifier.withoutLeading, Token.withoutLeading]

@[simp] theorem bare_handOver (trivia : Trivia) (header : Header) :
    (header.handOver trivia).bare = header.bare := by
  unfold handOver
  split <;> simp

theorem bare_insertAt (header : Header) (index : Nat) (modifier : Modifier) :
    (header.insertAt index modifier).bare =
      { header.bare with
        modifiers := header.bare.modifiers.insertIdx index modifier.withoutLeading } := by
  cases index with
  | zero =>
    calc
      (header.insertAt 0 modifier).bare
        = { (header.mapFront fun _ => []).bare with
            modifiers := modifier.withoutLeading ::
              (header.mapFront fun _ => []).bare.modifiers } := rfl
      _ = _ := by rw [bare_mapFront]; rfl
  | succ index => simp [insertAt, bare, List.map_insertIdx]

theorem bare_removeAt (header : Header) (index : Nat) :
    (header.removeAt index).bare =
      { header.bare with modifiers := header.bare.modifiers.eraseIdx index } := by
  unfold removeAt
  split
  · next hmodifiers =>
    rw [bare_handOver]
    simp [bare, hmodifiers]
  · simp [bare, List.eraseIdx_map]

theorem bare_removeAll (header : Header) :
    header.removeAll.bare = { header.bare with modifiers := [] } := by
  unfold removeAll
  split
  · next hmodifiers => simp [bare, hmodifiers]
  · rw [bare_handOver]
    rfl

theorem exists_bare_reorder (order : Ranking Keyword) (header : Header) :
    ∃ modifiers, (header.reorder order).bare = { header.bare with modifiers } ∧
      modifiers.Perm header.bare.modifiers := by
  unfold reorder
  split
  · exact ⟨_, rfl, .refl _⟩
  · have hopened := bare_mapFront (fun _ => []) header
    rw [bare_mapFront, ← hopened]
    exact ⟨_, rfl, (List.mergeSort_perm _ _).map _⟩

theorem bare_swapAt (header : Header) (index : Nat) (keyword : Keyword) :
    (header.swapAt index keyword).bare =
      { header.bare with
        modifiers := header.bare.modifiers.modify index fun modifier =>
          { modifier with keyword } } := by
  let change (modifier : Modifier) : Modifier := { modifier with keyword }
  have hmodifiers := map_modify_of_comm Modifier.withoutLeading change change (fun _ => rfl)
    header.modifiers index
  simp only [swapAt, bare]
  rw [hmodifiers]

variable {order : Ranking Keyword} {mayEnter : Modifier → Prop} {header result : Header}

/-- A move changes nothing behind the modifiers. What stands behind each of them afterwards stood
behind one before or came in with one. -/
theorem Move.exists_bare (hmove : Move order mayEnter header result) :
    ∃ modifiers, result.bare = { header.bare with modifiers } ∧
      ∀ modifier ∈ modifiers, ∃ old, (old ∈ header.bare.modifiers ∨ mayEnter old) ∧
        modifier.trailing = old.trailing := by
  cases hmove with
  | @insert _ entering hentering hresult =>
    obtain ⟨index, -, rfl⟩ := insert_eq_ok_iff.1 hresult
    refine ⟨_, bare_insertAt .., ?_⟩
    intro modifier hmodifier
    rcases List.eq_or_mem_of_mem_insertIdx hmodifier with rfl | hold
    · exact ⟨entering, .inr hentering, rfl⟩
    · exact ⟨modifier, .inl hold, rfl⟩
  | removeAt index =>
    refine ⟨_, bare_removeAt .., ?_⟩
    intro modifier hmodifier
    exact ⟨modifier, .inl (List.mem_of_mem_eraseIdx hmodifier), rfl⟩
  | removeAll => exact ⟨_, bare_removeAll _, nofun⟩
  | reorder =>
    obtain ⟨modifiers, hbare, hperm⟩ := exists_bare_reorder order header
    exact ⟨modifiers, hbare, fun modifier hmodifier =>
      ⟨modifier, .inl (hperm.subset hmodifier), rfl⟩⟩
  | @swap _ first _ keyword =>
    have htrailings := map_modify_of_comm Modifier.trailing (fun old => { old with keyword }) id
      (fun _ => rfl) header.bare.modifiers first
    rw [List.modify_id] at htrailings
    refine ⟨_, bare_swapAt .., ?_⟩
    intro modifier hmodifier
    have hmem := htrailings ▸ List.mem_map_of_mem hmodifier
    obtain ⟨old, hold, htrailing⟩ := List.mem_map.1 hmem
    exact ⟨old, .inl hold, htrailing.symm⟩

theorem Move.exists_trailing_eq (hmove : Move order mayEnter header result) {modifier : Modifier}
    (hmodifier : modifier ∈ result.modifiers) :
    ∃ old, (old ∈ header.modifiers ∨ mayEnter old) ∧ modifier.trailing = old.trailing := by
  obtain ⟨modifiers, hbare, htrailing⟩ := hmove.exists_bare
  obtain rfl : result.bare.modifiers = modifiers := by rw [hbare]
  obtain ⟨old, hold | hentering, heq⟩ := htrailing _ (List.mem_map_of_mem hmodifier)
  · obtain ⟨written, hwritten, rfl⟩ := List.mem_map.1 hold
    exact ⟨written, .inl hwritten, heq⟩
  · exact ⟨old, .inr hentering, heq⟩

/-- Whether anything follows the modifiers does not depend on trivia. -/
theorem isSome_firstAfterModifiers?_bare (header : Header) :
    header.bare.firstAfterModifiers?.isSome = header.firstAfterModifiers?.isSome := by
  obtain ⟨modifiers, head, explicitInterface, name⟩ := header
  cases head <;> cases name <;> rfl

theorem Move.isSome_firstAfterModifiers? (hmove : Move order mayEnter header result) :
    result.firstAfterModifiers?.isSome = header.firstAfterModifiers?.isSome := by
  obtain ⟨modifiers, hbare, -⟩ := hmove.exists_bare
  rw [← isSome_firstAfterModifiers?_bare, hbare, ← isSome_firstAfterModifiers?_bare header]
  rfl

/-! ### The trivia in front of the tokens -/

/-- No text passes, and two texts that pass do so one behind the other. -/
structure Joinable (passes : String → Prop) : Prop where
  nothing : passes ""
  append : ∀ {first second : String}, passes first → passes second → passes (first ++ second)

/-- In front of the first token stands the given text and behind it a text that passes. Texts that
pass stand in front of all other tokens. -/
structure LaidOut (passes : String → Prop) (front : String) (header : Header) : Prop where
  text_front : ∃ own, passes own ∧ header.front.text = front ++ own
  text_leading : ∀ leading ∈ header.leadings.tail, passes leading.text

/-- No move can lose the text in front: something follows the modifiers, or there is no text. -/
def Anchored (front : String) (header : Header) : Prop :=
  header.firstAfterModifiers?.isSome = true ∨ front = ""

theorem laidOut_iff_of_leadings {passes : String → Prop} {front : String} {leading : Trivia}
    {others : List Trivia} (hleadings : header.leadings = leading :: others) :
    LaidOut passes front header ↔ (∃ own, passes own ∧ leading.text = front ++ own) ∧
      ∀ other ∈ others, passes other.text := by
  have hfront : header.front = leading := by rw [front_eq_headD, hleadings]; rfl
  constructor
  · rintro ⟨htext, hothers⟩
    rw [hfront] at htext
    rw [hleadings] at hothers
    exact ⟨htext, hothers⟩
  · rintro ⟨htext, hothers⟩
    refine ⟨by rwa [hfront], ?_⟩
    rwa [hleadings]

theorem leadings_eq_cons {first : Modifier} {rest : List Modifier}
    (hmodifiers : header.modifiers = first :: rest) :
    header.leadings = first.leading :: leadings { header with modifiers := rest } := by
  simp [leadings, hmodifiers]

section LaidOut

variable {passes : String → Prop} {front own : String} {trivia : Trivia}
  (hpasses : Joinable passes)
include hpasses

theorem laidOut_front (hleading : ∀ leading ∈ header.leadings.tail, passes leading.text) :
    LaidOut passes header.front.text header :=
  ⟨⟨"", hpasses.nothing, (String.append_empty).symm⟩, hleading⟩

theorem LaidOut.text_leadings_opened (h : LaidOut passes front header) :
    ∀ leading ∈ (header.mapFront fun _ => []).leadings, passes leading.text := by
  have htail := h.text_leading
  rw [leadings_mapFront]
  cases hleadings : header.leadings with
  | nil => simp
  | cons first others =>
    rw [hleadings] at htail
    exact List.forall_mem_cons.2 ⟨hpasses.nothing, htail⟩

/-- Where texts that pass stand in front of all tokens, another text may come to the front. -/
theorem laidOut_mapFront (hanchored : header.Anchored front)
    (hall : ∀ leading ∈ header.leadings, passes leading.text) (hown : passes own)
    (htrivia : trivia.text = front ++ own) {change : Trivia → Trivia}
    (hchange : ∀ leading, (change leading).text = trivia.text ++ leading.text) :
    LaidOut passes front (header.mapFront change) := by
  have hchanged := leadings_mapFront change header
  cases hleadings : header.leadings with
  | nil =>
    obtain rfl : front = "" :=
      hanchored.resolve_left fun hbehind => leadings_ne_nil_of_isSome hbehind hleadings
    rw [hleadings, List.modifyHead_nil] at hchanged
    refine ⟨⟨"", hpasses.nothing, ?_⟩, ?_⟩
    · rw [front_eq_headD, hchanged]
      rfl
    · simp [hchanged]
  | cons first others =>
    rw [hleadings, List.modifyHead_cons] at hchanged
    rw [hleadings, List.forall_mem_cons] at hall
    refine (laidOut_iff_of_leadings hchanged).2 ⟨⟨_, hpasses.append hown hall.1, ?_⟩, hall.2⟩
    rw [hchange, htrivia, String.append_assoc]

theorem laidOut_handOver (hanchored : header.Anchored front)
    (hall : ∀ leading ∈ header.leadings, passes leading.text) (hown : passes own)
    (htrivia : trivia.text = front ++ own) : LaidOut passes front (header.handOver trivia) := by
  unfold handOver
  split
  · next hnil =>
    have hsame : ∀ leading : Trivia, (id leading).text = trivia.text ++ leading.text := by
      simp [hnil]
    have hlaid := laidOut_mapFront hpasses hanchored hall hown htrivia hsame
    rwa [mapFront_id] at hlaid
  · exact laidOut_mapFront hpasses hanchored hall hown htrivia (Trivia.text_handedOver trivia)

omit hpasses in
/-- Behind the first modifier, others may come in and old ones may leave. -/
theorem LaidOut.of_modifiers_eq_cons (h : LaidOut passes front header) {first : Modifier}
    {rest others : List Modifier} (hmodifiers : header.modifiers = first :: rest)
    (hothers : ∀ modifier ∈ others, modifier ∈ rest ∨ passes modifier.leading.text) :
    LaidOut passes front { header with modifiers := first :: others } := by
  obtain ⟨hfirst, hrest⟩ := (laidOut_iff_of_leadings (leadings_eq_cons hmodifiers)).1 h
  refine (laidOut_iff_of_leadings (leadings_eq_cons rfl)).2 ⟨hfirst, ?_⟩
  intro leading hleading
  simp only [leadings, List.append_assoc] at hleading hrest
  rcases List.mem_append.1 hleading with hleading | hleading
  · obtain ⟨modifier, hmodifier, rfl⟩ := List.mem_map.1 hleading
    rcases hothers modifier hmodifier with hold | hnew
    · exact hrest _ (List.mem_append_left _ (List.mem_map_of_mem hold))
    · exact hnew
  · exact hrest _ (List.mem_append_right _ hleading)

theorem LaidOut.insertAt (h : LaidOut passes front header) {modifier : Modifier}
    (hmodifier : passes modifier.leading.text) (index : Nat) :
    LaidOut passes front (header.insertAt index modifier) := by
  cases index with
  | zero =>
    obtain ⟨own, hown, hfront⟩ := h.text_front
    refine (laidOut_iff_of_leadings (leadings_eq_cons rfl)).2
      ⟨⟨_, hpasses.append hown hmodifier, ?_⟩, h.text_leadings_opened hpasses⟩
    rw [Trivia.text_takenOver, hfront, String.append_assoc]
  | succ index =>
    cases hmodifiers : header.modifiers with
    | nil =>
      simp only [Header.insertAt, hmodifiers, List.insertIdx_succ_nil]
      rwa [← hmodifiers]
    | cons first rest =>
      simp only [Header.insertAt, hmodifiers, List.insertIdx_succ_cons]
      refine h.of_modifiers_eq_cons hmodifiers ?_
      intro other hother
      rcases List.eq_or_mem_of_mem_insertIdx hother with rfl | hold
      · exact .inr hmodifier
      · exact .inl hold

theorem LaidOut.removeAt (h : LaidOut passes front header)
    (hanchored : header.Anchored front) (index : Nat) :
    LaidOut passes front (header.removeAt index) := by
  cases hmodifiers : header.modifiers with
  | nil =>
    simp only [Header.removeAt, hmodifiers, List.eraseIdx_nil]
    rwa [← hmodifiers]
  | cons first rest =>
    obtain ⟨⟨own, hown, hfirst⟩, hrest⟩ :=
      (laidOut_iff_of_leadings (leadings_eq_cons hmodifiers)).1 h
    cases index with
    | zero =>
      simp only [Header.removeAt, hmodifiers]
      exact laidOut_handOver hpasses hanchored hrest hown hfirst
    | succ index =>
      simp only [Header.removeAt, hmodifiers, List.eraseIdx_cons_succ]
      exact h.of_modifiers_eq_cons hmodifiers fun modifier hmodifier =>
        .inl (List.mem_of_mem_eraseIdx hmodifier)

theorem LaidOut.removeAll (h : LaidOut passes front header)
    (hanchored : header.Anchored front) :
    LaidOut passes front header.removeAll := by
  unfold Header.removeAll
  split
  · exact h
  · next first rest hmodifiers =>
    obtain ⟨⟨own, hown, hfirst⟩, hrest⟩ :=
      (laidOut_iff_of_leadings (leadings_eq_cons hmodifiers)).1 h
    refine laidOut_handOver hpasses hanchored ?_ hown hfirst
    intro leading hleading
    refine hrest leading ?_
    simp only [leadings, List.append_assoc, List.map_nil, List.nil_append] at hleading ⊢
    exact List.mem_append_right _ hleading

/-- Sorting mixes the trivia of the tokens behind the first one, whose trivia are set aside. -/
theorem LaidOut.reorder (h : LaidOut passes front header)
    (hanchored : header.Anchored front) (order : Ranking Keyword) :
    LaidOut passes front (header.reorder order) := by
  unfold Header.reorder
  split
  · exact h
  · obtain ⟨own, hown, hfront⟩ := h.text_front
    have hopened := h.text_leadings_opened hpasses
    refine laidOut_mapFront hpasses ?_ ?_ hown hfront (Trivia.text_handedOver header.front)
    · refine hanchored.imp_left fun hbehind => ?_
      rw [← isSome_firstAfterModifiers?_bare, ← bare_mapFront fun _ => []] at hbehind
      rwa [← isSome_firstAfterModifiers?_bare]
    · intro leading hleading
      refine hopened leading ?_
      simp only [leadings, List.append_assoc] at hleading ⊢
      rcases List.mem_append.1 hleading with hleading | hleading
      · exact List.mem_append_left _ (((List.mergeSort_perm _ _).map _).subset hleading)
      · exact List.mem_append_right _ hleading

omit hpasses in
theorem LaidOut.swapAt (h : LaidOut passes front header) (index : Nat) (keyword : Keyword) :
    LaidOut passes front (header.swapAt index keyword) := by
  have hmodifiers := map_modify_of_comm Modifier.leading (fun old => { old with keyword }) id
    (fun _ => rfl) header.modifiers index
  have hleadings : (header.swapAt index keyword).leadings = header.leadings := by
    simp only [leadings, Header.swapAt]
    rw [hmodifiers, List.modify_id]
  obtain ⟨htext, hothers⟩ := h
  rw [front_eq_headD, ← hleadings, ← front_eq_headD] at htext
  rw [← hleadings] at hothers
  exact ⟨htext, hothers⟩

theorem Move.laidOut_of_anchored (hmove : Move order mayEnter header result)
    (hmayEnter : ∀ modifier, mayEnter modifier → passes modifier.leading.text)
    (hanchored : header.Anchored front) (h : LaidOut passes front header) :
    LaidOut passes front result := by
  cases hmove with
  | insert hmodifier hresult =>
    obtain ⟨index, -, rfl⟩ := insert_eq_ok_iff.1 hresult
    exact h.insertAt hpasses (hmayEnter _ hmodifier) index
  | removeAt index => exact h.removeAt hpasses hanchored index
  | removeAll => exact h.removeAll hpasses hanchored
  | reorder => exact h.reorder hpasses hanchored order
  | swap => exact h.swapAt _ _

/-- The layout stays in front, whatever the move. -/
theorem Move.laidOut (hmove : Move order mayEnter header result)
    (hmayEnter : ∀ modifier, mayEnter modifier → passes modifier.leading.text)
    (hbehind : header.firstAfterModifiers?.isSome = true) (h : LaidOut passes front header) :
    LaidOut passes front result :=
  hmove.laidOut_of_anchored hpasses hmayEnter (.inl hbehind) h

theorem laidOut_empty_iff :
    LaidOut passes "" header ↔ ∀ leading ∈ header.leadings, passes leading.text := by
  cases hleadings : header.leadings with
  | nil =>
    refine iff_of_true ⟨⟨"", hpasses.nothing, ?_⟩, ?_⟩ nofun
    · rw [front_eq_headD, hleadings]
      rfl
    · simp [hleadings]
  | cons first others =>
    rw [laidOut_iff_of_leadings hleadings, List.forall_mem_cons]
    simp only [String.empty_append, exists_eq_right']

/-- What passes in front of every token before a move passes there afterwards. -/
theorem Move.text_leadings (hmove : Move order mayEnter header result)
    (hmayEnter : ∀ modifier, mayEnter modifier → passes modifier.leading.text)
    (h : ∀ leading ∈ header.leadings, passes leading.text) :
    ∀ leading ∈ result.leadings, passes leading.text := by
  rw [← laidOut_empty_iff hpasses] at h ⊢
  exact hmove.laidOut_of_anchored hpasses hmayEnter (.inr rfl) h

end LaidOut

end Header

end DeclEdit
