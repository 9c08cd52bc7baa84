import DeclEdit.Proofs.StableSort
import DeclEdit.Proofs.SwapAgreement

/-!
# Checked edits of headers

The list operations of the edits are total: where an index is out of range, they do something all
the same. Checked ones stop with a fault instead, and so do a search that comes to a rank without a
kind and a sort by what does not order the list. The edits of a header are written out here once
more, with every index computed and used as a program on arrays would. None of them faults, and each
comes to the same as the edit without checks.
-/

namespace DeclEdit

/-- What stops an edit that neither has a result nor is refused. -/
inductive Fault where
  | outOfRange (index length : Nat)
  | noPlace (cause : Refusal)
  | noLevel (keyword : Keyword)
  | noOrder
deriving DecidableEq, Repr

/-- What may be refused and may fault. -/
abbrev Checked (α : Type) : Type := ExceptT Refusal (Except Fault) α

namespace Checked

variable {α β : Type}

def fault (cause : Fault) : Checked α := ExceptT.mk (.error cause)

/-! ### Agreement -/

/-- The checked computation does not fault and comes to the same as the plain one, which is refused
for other causes than a missing rank only. -/
structure Agrees (checked : Checked α) (plain : Except Refusal α) : Prop where
  run_eq : checked.run = .ok plain
  no_gap : ∀ rank, plain ≠ .error (.rankGap rank)

namespace Agrees

variable {checked : Checked α} {plain : Except Refusal α}

theorem pure (value : α) : Agrees (Pure.pure value) (.ok value) := ⟨rfl, nofun⟩

theorem of_eq {value : α} (h : checked = Pure.pure value) : Agrees checked (.ok value) :=
  h ▸ .pure value

theorem refused {refusal : Refusal} (h : ∀ rank, refusal ≠ .rankGap rank) :
    Agrees (throw refusal : Checked α) (.error refusal) :=
  ⟨rfl, fun rank heq => h rank (Except.error.inj heq)⟩

theorem bind {next : α → Checked β} {plainNext : α → Except Refusal β} (h : Agrees checked plain)
    (hnext : ∀ value, plain = .ok value → Agrees (next value) (plainNext value)) :
    Agrees (checked >>= next) (plain >>= plainNext) := by
  have hrun : (checked >>= next).run = ExceptT.bindCont next plain :=
    congrArg (· >>= ExceptT.bindCont next) h.run_eq
  cases plain with
  | error refusal =>
    refine ⟨hrun, fun rank heq => h.no_gap rank ?_⟩
    exact congrArg Except.error (Except.error.inj heq)
  | ok value => exact ⟨hrun.trans (hnext value rfl).run_eq, (hnext value rfl).no_gap⟩

end Agrees

/-! ### List operations -/

section Lists

variable {items : List α} {index : Nat}

def get (items : List α) (index : Nat) : Checked α :=
  match items[index]? with
  | some item => pure item
  | none => fault (.outOfRange index items.length)

/-- The result of a list operation that takes the indices below the limit. -/
def below (limit : Nat) (items : List α) (index : Nat) (result : β) : Checked β :=
  if index < limit then pure result else fault (.outOfRange index items.length)

def insertIdx (items : List α) (index : Nat) (item : α) : Checked (List α) :=
  below (items.length + 1) items index (items.insertIdx index item)

def set (items : List α) (index : Nat) (item : α) : Checked (List α) :=
  below items.length items index (items.set index item)

def eraseIdx (items : List α) (index : Nat) : Checked (List α) :=
  below items.length items index (items.eraseIdx index)

def drop (items : List α) (index : Nat) : Checked (List α) :=
  below (items.length + 1) items index (items.drop index)

/-- Sorting may stop on a relation that does not order the items. -/
def sort (le : α → α → Bool) (items : List α) : Checked (List α) :=
  if TotalOn le items then pure (items.mergeSort le) else fault .noOrder

/-- The place that a search finds. It is refused nowhere: a rank without a kind is a fault. -/
def place (search : Except Refusal Nat) : Checked Nat :=
  match search with
  | .ok index => pure index
  | .error cause => fault (.noPlace cause)

theorem get_eq {item : α} (h : items[index]? = some item) : get items index = pure item := by
  rw [get, h]

theorem insertIdx_eq (h : index ≤ items.length) (item : α) :
    insertIdx items index item = pure (items.insertIdx index item) :=
  if_pos (Nat.lt_succ_of_le h)

theorem set_eq (h : index < items.length) (item : α) :
    set items index item = pure (items.set index item) := if_pos h

theorem eraseIdx_eq (h : index < items.length) :
    eraseIdx items index = pure (items.eraseIdx index) := if_pos h

theorem drop_eq (h : index ≤ items.length) : drop items index = pure (items.drop index) :=
  if_pos (Nat.lt_succ_of_le h)

theorem sort_eq {le : α → α → Bool} (h : TotalOn le items) :
    sort le items = pure (items.mergeSort le) := if_pos h

end Lists

/-! ### Reading the level -/

/-- Where the level stands that is written: the first visibility keyword is looked up, and what
stands behind it is searched for its partner. -/
def read? (keywords : List Keyword) : Checked (Option Accessibility.Reading) :=
  match keywords.findIdx? Keyword.isVisibility with
  | none => return none
  | some first => do
    let keyword ← get keywords first
    let behind ← drop keywords (first + 1)
    match Accessibility.readFrom? keyword behind with
    | some reading => return some (Accessibility.Reading.shift^[first] reading)
    | none => fault (.noLevel keyword)

/-- The search stops at a visibility keyword, and from each of these a level is read. -/
theorem read?_eq (keywords : List Keyword) :
    read? keywords = pure (Accessibility.read? keywords) := by
  unfold read?
  cases hfirst : keywords.findIdx? Keyword.isVisibility with
  | none =>
    rw [Accessibility.read?_eq_none_iff.2 (List.findIdx?_eq_none_iff.1 hfirst)]
  | some first =>
    obtain ⟨before, keyword, behind, rfl, rfl, hkeyword, hbefore⟩ := exists_split_of_findIdx? hfirst
    have hget : get (before ++ keyword :: behind) before.length = pure keyword :=
      get_eq (by simp)
    have hdrop : drop (before ++ keyword :: behind) (before.length + 1) = pure behind := by
      rw [drop_eq (by simp)]
      simp
    simp only [hget, hdrop, pure_bind]
    cases hreading : Accessibility.readFrom? keyword behind with
    | none =>
      rw [Accessibility.readFrom?_eq_none_iff.1 hreading] at hkeyword
      cases hkeyword
    | some reading => rw [Accessibility.read?_append hbefore hreading]

/-! ### Edits of a header -/

section Headers

def insertAt (header : Header) (index : Nat) (modifier : Modifier) : Checked Header :=
  match index, header.modifiers with
  | 0, [] => return header.insertAt 0 modifier
  | 0, first :: _ => do
    let opened ← set header.modifiers 0 { first with leading := [] }
    let modifiers ← insertIdx opened 0
      { modifier with leading := Trivia.takenOver first.leading modifier.leading }
    return { header with modifiers }
  | index + 1, modifiers => do
    return { header with modifiers := ← insertIdx modifiers (index + 1) modifier }

def removeAt (header : Header) (index : Nat) : Checked Header := do
  let removed ← get header.modifiers index
  let remaining ← eraseIdx header.modifiers index
  if index ≠ 0 ∨ removed.leading = [] then return { header with modifiers := remaining }
  else match remaining with
    | [] => return { header with modifiers := [] }.handOver removed.leading
    | next :: _ => do
      let modifiers ← set remaining 0
        { next with leading := Trivia.handedOver removed.leading next.leading }
      return { header with modifiers }

/-- The modifiers of a list that is not sorted are taken out, sorted and put back. -/
def reorder (order : Ranking Keyword) (header : Header) : Checked Header :=
  if order.isSorted header.keywords then return header
  else do
    let first ← get header.modifiers 0
    let opened ← set header.modifiers 0 { first with leading := [] }
    let sorted ← sort (fun a b => decide (order.rank a.keyword ≤ order.rank b.keyword)) opened
    let front ← get sorted 0
    let modifiers ← set sorted 0
      { front with leading := Trivia.handedOver first.leading front.leading }
    return { header with modifiers }

def insert (order : Ranking Keyword) (modifier : Modifier) (header : Header) : Checked Header := do
  insertAt header (← place (order.insertIndex header.keywords modifier.keyword)) modifier

def insertKeywords (order : Ranking Keyword) (keywords : List Keyword) (header : Header) :
    Checked Header :=
  keywords.foldlM (fun edited keyword => insert order (.elastic keyword) edited) header

def remove (keyword : Keyword) (header : Header) : Checked Header :=
  match header.keywords.findIdx? (· = keyword) with
  | some index => removeAt header index
  | none => return header

/-- Of two keywords, the one that stands further behind goes first, so that the index of the other
stays what it is. -/
def removeAccessibility (header : Header) : Checked Header := do
  match ← read? header.keywords with
  | none => return header
  | some ⟨_, first, none⟩ => removeAt header first
  | some ⟨_, first, some second⟩ =>
    removeAt (← removeAt header (max first second)) (min first second)

def swapAccessibility? (order : Ranking Keyword) (level : Accessibility) (header : Header) :
    Checked (Option Header) := do
  match ← read? header.keywords, level.keywords with
  | some ⟨_, first, none⟩, [keyword] =>
    let index ← place (order.insertIndex header.keywords keyword)
    if index = first ∨ index = first + 1 then
      let modifier ← get header.modifiers first
      return some { header with
        modifiers := ← set header.modifiers first { modifier with keyword } }
    else return none
  | _, _ => return none

def setAccessibility (order : Ranking Keyword) (level : Accessibility) (header : Header) :
    Checked Header := do
  match ← swapAccessibility? order level header with
  | some swapped => return swapped
  | none => insertKeywords order level.keywords (← removeAccessibility header)

variable {order : Ranking Keyword} {header : Header}

theorem insertAt_eq {index : Nat} (h : index ≤ header.modifiers.length) (modifier : Modifier) :
    insertAt header index modifier = pure (header.insertAt index modifier) := by
  unfold insertAt
  split
  · rfl
  · next first rest hmodifiers =>
    rw [hmodifiers, set_eq (by simp), pure_bind, insertIdx_eq (by simp), pure_bind]
    simp [Header.insertAt, Header.mapFront, Header.front, hmodifiers]
  · rw [insertIdx_eq h, pure_bind]
    rfl

theorem removeAt_eq {index : Nat} (h : index < header.modifiers.length) :
    removeAt header index = pure (header.removeAt index) := by
  unfold removeAt
  rw [get_eq (List.getElem?_eq_getElem h), eraseIdx_eq h, pure_bind, pure_bind]
  cases index with
  | succ index => rw [if_pos (.inl (Nat.succ_ne_zero index)), Header.removeAt_succ]
  | zero =>
    obtain ⟨modifiers, head, explicitInterface, name⟩ := header
    obtain ⟨removed, rest, rfl⟩ := List.exists_cons_of_length_pos h
    by_cases hleading : removed.leading = []
    · simp [Header.removeAt, Header.handOver, hleading]
    · cases rest with
      | nil => simp [Header.removeAt, hleading]
      | cons next rest =>
        simp [Header.removeAt, Header.handOver, Header.mapFront, set_eq, hleading]

theorem reorder_eq (order : Ranking Keyword) (header : Header) :
    reorder order header = pure (header.reorder order) := by
  unfold reorder Header.reorder
  split
  · rfl
  · next hsorted =>
    obtain ⟨modifiers, head, explicitInterface, name⟩ := header
    cases modifiers with
    | nil => exact absurd rfl hsorted
    | cons first rest =>
      let le (a b : Modifier) : Bool := decide (order.rank a.keyword ≤ order.rank b.keyword)
      let opened : List Modifier := { first with leading := [] } :: rest
      have hlength : (opened.mergeSort le).length = opened.length := List.length_mergeSort opened
      have hopened : 0 < (opened.mergeSort le).length := hlength ▸ Nat.succ_pos rest.length
      obtain ⟨front, others, hfront⟩ := List.exists_cons_of_length_pos hopened
      have hsort : sort le opened = pure (front :: others) := by
        rw [sort_eq (totalOn_rank (fun modifier => order.rank modifier.keyword) opened), hfront]
      rw [get_eq rfl, pure_bind, set_eq (by simp), pure_bind]
      change (sort le opened >>= _) =
        pure (Header.mapFront _ { modifiers := opened.mergeSort le, .. })
      rw [hsort, hfront, pure_bind, get_eq rfl, pure_bind, set_eq (by simp), pure_bind]
      rfl

theorem agrees_insert (horder : order.Lawful Keyword.all.length) (header : Header)
    (modifier : Modifier) :
    Agrees (insert order modifier header) (header.insert order modifier) := by
  obtain ⟨index, hindex, hplace⟩ := horder.exists_insertIndex header.keywords modifier.keyword
  have hlength : index ≤ header.modifiers.length :=
    Header.length_keywords header ▸ hplace.le_length
  have hplain : header.insert order modifier = .ok (header.insertAt index modifier) :=
    Header.insert_eq_ok_iff.2 ⟨index, hindex, rfl⟩
  rw [hplain]
  refine .of_eq ?_
  rw [insert, hindex, place, pure_bind, insertAt_eq hlength]

theorem agrees_insertKeywords (horder : order.Lawful Keyword.all.length) (keywords : List Keyword)
    (header : Header) :
    Agrees (insertKeywords order keywords header) (header.insertKeywords order keywords) := by
  induction keywords generalizing header with
  | nil => exact .pure header
  | cons keyword rest ih =>
    rw [Header.insertKeywords_cons]
    exact (agrees_insert horder header (.elastic keyword)).bind fun edited _ => ih edited

theorem remove_eq (keyword : Keyword) (header : Header) :
    remove keyword header = pure (header.remove keyword) := by
  unfold remove Header.remove
  cases hindex : header.keywords.findIdx? (· = keyword) with
  | none => rfl
  | some index =>
    obtain ⟨hlength, -⟩ := List.findIdx?_eq_some_iff_getElem.1 hindex
    rw [Header.length_keywords] at hlength
    exact removeAt_eq hlength

theorem removeAccessibility_eq (header : Header) :
    removeAccessibility header = pure header.removeAccessibility := by
  unfold removeAccessibility Header.removeAccessibility
  rw [read?_eq, pure_bind]
  cases hread : Accessibility.read? header.keywords with
  | none => rfl
  | some reading =>
    have hfound := Accessibility.found_of_read? hread
    obtain ⟨level, first, _ | second⟩ := reading
    · have hfirst : first < header.keywords.length := hfound.first_lt_length
      rw [Header.length_keywords] at hfirst
      exact removeAt_eq hfirst
    · obtain ⟨hlt, hsecond⟩ : first < second ∧ second < header.keywords.length :=
        hfound.second_bounds rfl
      rw [Header.length_keywords] at hsecond
      dsimp only
      rw [Nat.max_eq_right (Nat.le_of_lt hlt), Nat.min_eq_left (Nat.le_of_lt hlt),
        removeAt_eq hsecond, pure_bind]
      refine removeAt_eq ?_
      rw [Header.length_modifiers_removeAt, List.length_eraseIdx_of_lt hsecond]
      exact Nat.lt_of_lt_of_le hlt (Nat.le_sub_one_of_lt hsecond)

theorem agrees_swapAccessibility? (horder : order.Lawful Keyword.all.length)
    (level : Accessibility) (header : Header) :
    Agrees (swapAccessibility? order level header) (header.swapAccessibility? order level) := by
  unfold swapAccessibility? Header.swapAccessibility?
  rw [read?_eq, pure_bind]
  cases hread : Accessibility.read? header.keywords with
  | none => exact .pure none
  | some reading =>
    have hfirst := (Accessibility.found_of_read? hread).first_lt_length
    rw [Header.length_keywords] at hfirst
    obtain ⟨written, first, _ | second⟩ := reading
    case some => exact .pure none
    rcases level.keywords with _ | ⟨keyword, _ | _⟩
    case nil | cons.cons => exact .pure none
    obtain ⟨index, hindex, -⟩ := horder.exists_insertIndex header.keywords keyword
    simp only [hindex, place]
    refine (Agrees.pure index).bind fun index _ => ?_
    split
    · rw [get_eq (List.getElem?_eq_getElem hfirst), pure_bind, set_eq hfirst, pure_bind,
        List.modify_eq_set_get _ hfirst]
      exact .pure _
    · exact .pure none

theorem agrees_setAccessibility (horder : order.Lawful Keyword.all.length)
    (level : Accessibility) (header : Header) :
    Agrees (setAccessibility order level header) (header.setAccessibility order level) := by
  refine (agrees_swapAccessibility? horder level header).bind ?_
  rintro (_ | swapped) -
  · rw [removeAccessibility_eq, pure_bind]
    exact agrees_insertKeywords horder level.keywords header.removeAccessibility
  · exact .pure swapped

end Headers

end Checked

end DeclEdit
