import DeclEdit.Proofs.InsertionUndone

/-!
# What sorting the modifiers moves

Sorted modifiers stay as they are. Otherwise each modifier is traced by the index it had: they come
by rank and, where ranks are equal, by index. Every modifier takes along what is written in front of
it, but for the first one of old, whose layout stays where it is, in front of the first one of now.
So nothing that is written gets lost on the way, and nothing is written twice.
-/

namespace DeclEdit

theorem pairwise_snd_lt_zipIdx {α : Type} (items : List α) (start : Nat) :
    (items.zipIdx start).Pairwise fun a b => a.2 < b.2 := by
  have hindices : ((items.zipIdx start).map Prod.snd).Pairwise (· < ·) := by
    rw [List.zipIdx_map_snd]
    exact List.pairwise_lt_range'
  exact List.pairwise_map.1 hindices

/-! ### The pieces of a header -/

theorem Trivia.withoutMarkers_append (first second : Trivia) :
    (first ++ second).withoutMarkers = first.withoutMarkers ++ second.withoutMarkers :=
  List.filter_append ..

theorem Trivia.withoutMarkers_handedOver (front own : Trivia) :
    (handedOver front own).withoutMarkers = front.withoutMarkers ++ own.withoutMarkers := by
  unfold handedOver
  split
  · next hown =>
    have hnone : own.withoutMarkers = [] := by
      rcases hown with rfl | hmarker
      · rfl
      · rw [isLoneMarker_eq_true_iff.1 hmarker]
        rfl
    rw [hnone, List.append_nil]
  · exact withoutMarkers_append front own

def Modifier.trivia (modifier : Modifier) : Trivia := modifier.leading ++ modifier.trailing

def Token.trivia (token : Token) : Trivia := token.leading ++ token.trailing

namespace Header

/-- All layout and all comments of the header. -/
def trivia (header : Header) : Trivia :=
  header.modifiers.flatMap Modifier.trivia ++ header.head.toList.flatMap Token.trivia ++
    header.name.toList.flatMap Token.trivia

theorem trivia_withoutMarkers_perm {header : Header} {modifiers : List Modifier}
    (h : List.Perm (Trivia.withoutMarkers (modifiers.flatMap Modifier.trivia))
      (Trivia.withoutMarkers (header.modifiers.flatMap Modifier.trivia))) :
    List.Perm (trivia { header with modifiers }).withoutMarkers header.trivia.withoutMarkers := by
  simp only [trivia, Trivia.withoutMarkers_append, List.append_assoc]
  exact h.append_right _

/-- What is handed over comes in front of everything that the modifiers have. -/
theorem withoutMarkers_handedOver_cons (front : Trivia) (first : Modifier)
    (others : List Modifier) :
    Trivia.withoutMarkers (List.flatMap Modifier.trivia
        ({ first with leading := Trivia.handedOver front first.leading } :: others)) =
      front.withoutMarkers ++
        Trivia.withoutMarkers ((first :: others).flatMap Modifier.trivia) := by
  simp only [List.flatMap_cons, Modifier.trivia, Trivia.withoutMarkers_append,
    Trivia.withoutMarkers_handedOver, List.append_assoc]

/-! ### Modifiers by the index they had -/

/-- The modifier that was at the index, without what was in front of it if it was the first one. -/
def openedAt : Modifier × Nat → Modifier
  | (modifier, 0) => modifier.withoutLeading
  | (modifier, _ + 1) => modifier

theorem openedAt_with_leading (moved : Modifier × Nat) (leading : Trivia) :
    { openedAt moved with leading } = { moved.1 with leading } := by
  obtain ⟨modifier, _ | index⟩ := moved <;> rfl

theorem map_openedAt_zipIdx (first : Modifier) (rest : List Modifier) :
    (first :: rest).zipIdx.map openedAt = first.withoutLeading :: rest := by
  have hrest : (rest.zipIdx 1).map openedAt = (rest.zipIdx 1).map Prod.fst := by
    apply List.map_congr_left
    rintro ⟨modifier, index⟩ hmem
    obtain ⟨hindex, -⟩ := List.mem_zipIdx hmem
    obtain ⟨index, rfl⟩ := Nat.exists_eq_add_of_le' hindex
    rfl
  rw [List.zipIdx_cons, List.map_cons, hrest, List.zipIdx_map_fst]
  rfl

/-- Whether the first modifier may stand before the second one. -/
def ranksLE (order : Ranking Keyword) (a b : Modifier) : Bool :=
  decide (order.rank a.keyword ≤ order.rank b.keyword)

variable {order : Ranking Keyword} {header : Header}

theorem totalOn_ranksLE (order : Ranking Keyword) (items : List (Modifier × Nat)) :
    TotalOn (fun a b => ranksLE order a.1 b.1) items :=
  totalOn_rank (fun moved : Modifier × Nat => order.rank moved.1.keyword) items

theorem ranksLE_openedAt (order : Ranking Keyword) (a b : Modifier × Nat) :
    ranksLE order (openedAt a) (openedAt b) = ranksLE order a.1 b.1 := by
  obtain ⟨_, _ | _⟩ := a <;> obtain ⟨_, _ | _⟩ := b <;> rfl

theorem mapFront_cons {modifier : Modifier} {rest : List Modifier}
    (hmodifiers : header.modifiers = modifier :: rest) (change : Trivia → Trivia) :
    header.mapFront change =
      { header with modifiers := { modifier with leading := change modifier.leading } :: rest } := by
  simp only [mapFront, hmodifiers]

/-- Unsorted modifiers are sorted together with their indices. What was in front of the first one
is put in front of the one that is first then. -/
theorem exists_reorder_eq (hsorted : order.isSorted header.keywords = false) :
    ∃ first others,
      StablySorted (fun a b => ranksLE order a.1 b.1) header.modifiers.zipIdx (first :: others) ∧
      header.reorder order = { header with
        modifiers := { first.1 with
          leading := Trivia.handedOver header.front (openedAt first).leading } ::
            others.map openedAt } := by
  cases hmodifiers : header.modifiers with
  | nil =>
    rw [keywords, hmodifiers] at hsorted
    cases hsorted
  | cons old rest =>
    let le (a b : Modifier × Nat) : Bool := ranksLE order a.1 b.1
    have hstable : StablySorted le (old :: rest).zipIdx ((old :: rest).zipIdx.mergeSort le) :=
      stablySorted_mergeSort (totalOn_ranksLE order _)
    have hopened : header.mapFront (fun _ => []) =
        { header with modifiers := (old :: rest).zipIdx.map openedAt } := by
      rw [map_openedAt_zipIdx]
      exact mapFront_cons hmodifiers _
    -- The comparison sees keywords only, so opening the front and sorting commute.
    have hmap : ((old :: rest).zipIdx.mergeSort le).map openedAt =
        ((old :: rest).zipIdx.map openedAt).mergeSort (ranksLE order) :=
      List.map_mergeSort fun a _ b _ => (ranksLE_openedAt order a b).symm
    cases hplaced : (old :: rest).zipIdx.mergeSort le with
    | nil =>
      rw [hplaced] at hstable
      cases hstable.perm.symm.eq_nil
    | cons first others =>
      rw [hplaced] at hstable hmap
      refine ⟨first, others, hstable, ?_⟩
      calc
        header.reorder order
          = mapFront (Trivia.handedOver header.front) { header.mapFront fun _ => [] with
              modifiers := (header.mapFront fun _ => []).modifiers.mergeSort (ranksLE order) } :=
            if_neg (Bool.eq_false_iff.1 hsorted)
        _ = mapFront (Trivia.handedOver header.front)
              { header with modifiers := openedAt first :: others.map openedAt } := by
            rw [hopened, ← hmap]
            rfl
        _ = _ := by rw [mapFront_cons rfl, openedAt_with_leading]

/-- The second header is the first one with its modifiers sorted. -/
structure Reordered (order : Ranking Keyword) (header result : Header) : Prop where
  modifiers_only : result = { header with modifiers := result.modifiers }
  /-- The keywords, each with what is behind it, are sorted without changing the order of those that
  have the same rank. -/
  bare_sorted : StablySorted (ranksLE order) header.bare.modifiers result.bare.modifiers
  /-- Each modifier comes with what was in front of it. What was in front of the first one stays in
  front. -/
  exists_moved : ∃ leading first others,
    (first :: others).Perm header.modifiers.zipIdx ∧
    (first :: others).Pairwise (fun a b => order.rank a.1.keyword ≤ order.rank b.1.keyword ∧
      (order.rank b.1.keyword ≤ order.rank a.1.keyword → a.2 < b.2)) ∧
    result.modifiers = { first.1 with leading } :: others.map openedAt ∧
    leading.text = header.front.text ++ (openedAt first).leading.text

theorem reordered_reorder (hsorted : order.isSorted header.keywords = false) :
    Reordered order header (header.reorder order) := by
  obtain ⟨first, others, hstable, hresult⟩ := exists_reorder_eq hsorted
  have hpairwise := hstable.pairwise_and (totalOn_ranksLE order _)
    (pairwise_snd_lt_zipIdx header.modifiers 0)
  let bareOf : Modifier × Nat → Modifier := Modifier.withoutLeading ∘ Prod.fst
  refine ⟨?_, ?_, _, first, others, hstable.perm, ?_, ?_, Trivia.text_handedOver ..⟩
  · rw [hresult]
  · have hbare : StablySorted (ranksLE order) (header.modifiers.zipIdx.map bareOf)
        ((first :: others).map bareOf) := hstable.map bareOf
    have hold : header.modifiers.zipIdx.map bareOf = header.bare.modifiers := by
      rw [← List.map_map, List.zipIdx_map_fst]
      rfl
    have hothers : others.map bareOf = (others.map openedAt).map Modifier.withoutLeading := by
      rw [List.map_map]
      exact List.map_congr_left fun moved _ => (openedAt_with_leading moved []).symm
    rw [hold, List.map_cons, hothers] at hbare
    rw [hresult]
    exact hbare
  · simpa only [ranksLE, decide_eq_true_iff] using hpairwise
  · rw [hresult]

/-- Nothing that is written gets lost, and nothing is written twice. -/
theorem trivia_reorder_perm (order : Ranking Keyword) (header : Header) :
    List.Perm (header.reorder order).trivia.withoutMarkers header.trivia.withoutMarkers := by
  cases hsorted : order.isSorted header.keywords with
  | true => rw [reorder, if_pos hsorted]
  | false =>
    obtain ⟨first, others, hstable, hresult⟩ := exists_reorder_eq hsorted
    obtain ⟨old, rest, hmodifiers⟩ : ∃ old rest, header.modifiers = old :: rest := by
      refine List.exists_cons_of_ne_nil fun hnil => ?_
      rw [hnil] at hstable
      cases hstable.perm.eq_nil
    have hfront : header.front = old.leading := by rw [front, hmodifiers]
    have hopened : (openedAt first :: others.map openedAt).Perm (old.withoutLeading :: rest) := by
      rw [← map_openedAt_zipIdx, ← hmodifiers]
      exact hstable.perm.map openedAt
    -- The old modifiers are what they are with their own front handed back.
    have hold : Trivia.withoutMarkers ((old :: rest).flatMap Modifier.trivia) =
        old.leading.withoutMarkers ++
          Trivia.withoutMarkers ((old.withoutLeading :: rest).flatMap Modifier.trivia) :=
      withoutMarkers_handedOver_cons old.leading old.withoutLeading rest
    rw [hresult, ← openedAt_with_leading]
    apply trivia_withoutMarkers_perm
    rw [withoutMarkers_handedOver_cons, hmodifiers, hfront, hold]
    exact ((hopened.flatMap_right _).filter _).append_left _

end Header

namespace ModifierEdit

variable {declaration : Declaration}

/-- **Sorting moves modifiers and keeps everything that is written.** Sorted modifiers stay as they
are, others are sorted. Afterwards they are sorted, and sorting them again changes nothing. The
order may be any, with as many ties as it has. -/
theorem exists_reorder (order : Ranking Keyword) (hkind : declaration.kind.hasModifiers = true)
    (enclosing : List Declaration) :
    ∃ header, reorder.apply order ⟨declaration, enclosing⟩ = .ok { declaration with header } ∧
      (order.isSorted declaration.header.keywords = true → header = declaration.header) ∧
      (order.isSorted declaration.header.keywords = false →
        Header.Reordered order declaration.header header) ∧
      List.Perm header.trivia.withoutMarkers declaration.header.trivia.withoutMarkers ∧
      order.isSorted header.keywords = true ∧
      reorder.apply order ⟨{ declaration with header }, enclosing⟩ =
        .ok { declaration with header } := by
  let header := declaration.header.reorder order
  have hsorted : order.isSorted header.keywords = true := Header.isSorted_reorder order _
  refine ⟨header, apply_reorder hkind, fun hold => if_pos hold,
    Header.reordered_reorder, Header.trivia_reorder_perm order _, hsorted, ?_⟩
  have hagain : header.reorder order = header := if_pos hsorted
  rw [@apply_reorder _ { declaration with header } _ hkind, hagain]

/-- All keywords but `public` tie. It moves to the front, where its own comment follows the comment
of the declaration. -/
theorem exists_reorder_public_first :
    ∃ (order : Ranking Keyword) (start result : Declaration),
      order.rank .staticKw = order.rank .constKw ∧
      start.header.modifiers = [⟨.staticKw, [.lineComment "// c", .endOfLine "\n"], Trivia.space⟩,
        ⟨.constKw, [], Trivia.space⟩, ⟨.publicKw, [.blockComment "/* p */"], Trivia.space⟩] ∧
      result.header.modifiers = [⟨.publicKw, [.lineComment "// c", .endOfLine "\n",
        .blockComment "/* p */"], Trivia.space⟩, .spaced .staticKw, .spaced .constKw] ∧
      reorder.apply order ⟨start, []⟩ = .ok result ∧
      Header.Reordered order start.header result.header ∧
      List.Perm result.header.trivia.withoutMarkers start.header.trivia.withoutMarkers ∧
      reorder.apply order ⟨result, []⟩ = .ok result := by
  let order : Ranking Keyword := ⟨fun keyword => if keyword = .publicKw then 0 else 1, fun _ => none⟩
  let former : Modifier :=
    ⟨.staticKw, [.lineComment "// c", .endOfLine "\n"], Trivia.space⟩
  let latter : Modifier := ⟨.publicKw, [.blockComment "/* p */"], Trivia.space⟩
  let start : Declaration := ⟨.field,
    ⟨[former, .spaced .constKw, latter], some (.plain "int"), none, some (.plain "x")⟩, [], []⟩
  obtain ⟨header, hresult, -, hreordered, hperm, -, hagain⟩ :=
    @exists_reorder start order rfl []
  have hsorted : start.header.reorder order = { start.header with
      modifiers := [⟨.publicKw, former.leading ++ latter.leading, Trivia.space⟩,
        .spaced .staticKw, .spaced .constKw] } := by cbv
  obtain rfl : header = start.header.reorder order :=
    congrArg Declaration.header (Except.ok.inj (hresult.symm.trans (apply_reorder rfl)))
  rw [hsorted] at hresult hreordered hperm hagain
  exact ⟨order, start, _, rfl, rfl, rfl, hresult, hreordered rfl, hperm, hagain⟩

end ModifierEdit

end DeclEdit
