import DeclEdit.Header.Keywords
import DeclEdit.Header.Text

/-!
# The layout in front

The trivia in front of the first token is read by `front` and changed by `mapFront`, whichever of
the three tokens comes first. The edits at the front of the modifiers are told here by what they do
to the text: an insertion writes the new modifier behind the layout in front, and a removal leaves
that layout to the next token.
-/

namespace DeclEdit.Header

/-- The trivia in front of each token, in reading order. -/
def leadings (header : Header) : List Trivia :=
  header.modifiers.map (·.leading) ++ header.head.toList.map (·.leading) ++
    header.name.toList.map (·.leading)

/-- What is written before the layout in front: an interface name, if neither a modifier nor a head
comes before it. -/
def ahead (header : Header) : String :=
  if header.modifiers = [] ∧ header.head = none then
    (header.explicitInterface.map (· ++ ".")).getD ""
  else ""

variable {header : Header}

theorem leadings_ne_nil_of_isSome (h : header.firstAfterModifiers?.isSome = true) :
    header.leadings ≠ [] := by
  obtain ⟨modifiers, head, explicitInterface, name⟩ := header
  cases head <;> cases name <;> simp_all [leadings, firstAfterModifiers?]

theorem front_eq_headD (header : Header) : header.front = header.leadings.headD [] := by
  unfold front leadings
  split <;> simp_all

theorem leadings_mapFront (change : Trivia → Trivia) (header : Header) :
    (header.mapFront change).leadings = header.leadings.modifyHead change := by
  unfold mapFront leadings
  split <;> simp_all

theorem front_mapFront (h : header.leadings ≠ []) (change : Trivia → Trivia) :
    (header.mapFront change).front = change header.front := by
  obtain ⟨first, rest, hleadings⟩ := List.exists_cons_of_ne_nil h
  rw [front_eq_headD, front_eq_headD, leadings_mapFront, hleadings]
  rfl

theorem mapFront_mapFront (first second : Trivia → Trivia) (header : Header) :
    (header.mapFront first).mapFront second = header.mapFront (second ∘ first) := by
  obtain ⟨modifiers, head, explicitInterface, name⟩ := header
  cases modifiers <;> cases head <;> cases name <;> rfl

theorem mapFront_id (header : Header) : header.mapFront id = header := by
  obtain ⟨modifiers, head, explicitInterface, name⟩ := header
  cases modifiers <;> cases head <;> cases name <;> rfl

theorem mapFront_eq_self (h : header.leadings = []) (change : Trivia → Trivia) :
    header.mapFront change = header := by
  obtain ⟨modifiers, head, explicitInterface, name⟩ := header
  cases modifiers <;> cases head <;> cases name <;> simp_all [leadings, mapFront]

theorem ahead_eq_empty (h : header.modifiers ≠ [] ∨ header.head.isSome = true ∨
    header.explicitInterface = none) : header.ahead = "" := by
  unfold ahead
  split
  · next hfirst =>
    rcases h with hmodifiers | hhead | hinterface
    · exact absurd hfirst.1 hmodifiers
    · rw [hfirst.2] at hhead
      cases hhead
    · rw [hinterface]
      rfl
  · rfl

/-! ### The text -/

theorem written_cons (modifier : Modifier) (header : Header) :
    { header with modifiers := modifier :: header.modifiers }.written =
      modifier.fullText ++ header.written := by
  simp [written, String.join_cons, String.append_assoc]

theorem exists_written_mapFront (h : header.leadings ≠ []) :
    ∃ rest, ∀ change, (header.mapFront change).written =
      header.ahead ++ (change header.front).text ++ rest := by
  obtain ⟨modifiers, head, explicitInterface, name⟩ := header
  cases modifiers with
  | cons first others =>
    refine ⟨first.keyword.text ++ first.trailing.text ++
      written ⟨others, head, explicitInterface, name⟩, ?_⟩
    intro change
    simp [mapFront, front, ahead, written, Modifier.fullText, String.join_cons,
      String.append_assoc]
  | nil =>
    cases head with
    | some head =>
      refine ⟨head.text ++ head.trailing.text ++ written ⟨[], none, explicitInterface, name⟩, ?_⟩
      intro change
      simp [mapFront, front, ahead, written, Token.fullText, String.append_assoc]
    | none =>
      cases name with
      | some name =>
        refine ⟨name.text ++ name.trailing.text, ?_⟩
        intro change
        simp [mapFront, front, ahead, written, Token.fullText, String.append_assoc]
      | none => exact absurd rfl h

theorem written_mapFront_of_text_eq (h : header.leadings ≠ []) {change : Trivia → Trivia}
    (hchange : (change header.front).text = header.front.text) :
    (header.mapFront change).written = header.written := by
  obtain ⟨rest, hrest⟩ := exists_written_mapFront h
  calc
    (header.mapFront change).written = header.ahead ++ (change header.front).text ++ rest :=
      hrest change
    _ = header.ahead ++ (id header.front).text ++ rest := by rw [hchange, id]
    _ = (header.mapFront id).written := (hrest id).symm
    _ = header.written := by rw [mapFront_id]

/-- Where nothing is written before the layout in front, the text starts with it. -/
theorem written_eq_front_append (h : header.ahead = "") :
    header.written = header.front.text ++ (header.mapFront fun _ => []).written := by
  by_cases hleadings : header.leadings = []
  · rw [mapFront_eq_self hleadings, front_eq_headD, hleadings]
    simp
  · obtain ⟨rest, hrest⟩ := exists_written_mapFront hleadings
    have hwritten := hrest id
    rw [mapFront_id] at hwritten
    rw [hwritten, hrest fun _ => [], h]
    simp

theorem written_insertAt_zero (header : Header) (modifier : Modifier) :
    (header.insertAt 0 modifier).written =
      header.front.text ++ modifier.fullText ++ (header.mapFront fun _ => []).written := by
  simp only [insertAt]
  rw [written_cons]
  simp only [Modifier.fullText, Trivia.text_takenOver, String.append_assoc]

/-! ### The layout of a token that went away -/

theorem text_front_handOver (h : header.leadings ≠ []) (trivia : Trivia) :
    (header.handOver trivia).front.text = trivia.text ++ header.front.text := by
  unfold handOver
  split
  · next hnil => simp [hnil]
  · rw [front_mapFront h, Trivia.text_handedOver]

theorem mapFront_nil_handOver (trivia : Trivia) (header : Header) :
    ((header.handOver trivia).mapFront fun _ => []) = header.mapFront fun _ => [] := by
  unfold handOver
  split
  · rfl
  · rw [mapFront_mapFront]
    rfl

end DeclEdit.Header
