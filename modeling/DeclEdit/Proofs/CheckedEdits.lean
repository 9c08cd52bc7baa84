import DeclEdit.Proofs.CheckedHeaders
import DeclEdit.Proofs.MemberPlace
import DeclEdit.Proofs.NameOrder
import DeclEdit.Proofs.Shape

/-!
# Checked edits

Every edit of a declaration, made with checked list operations. Under lawful orders no index is out
of range, every search finds a place and every level that is looked up is there, so a checked edit
has the result of the plain one or is refused like it.
-/

namespace DeclEdit

open Declaration (Kind)

namespace Checked

variable {α : Type}

/-- A plain computation, which uses no index. -/
def lift (plain : Except Refusal α) : Checked α := ExceptT.mk (.ok plain)

/-! ### Edits of modifiers -/

/-- The levels of the enclosing declarations are looked up as well. -/
def effective (declaration : Declaration) : List Declaration → Checked Accessibility
  | [] => do
    let _ ← read? declaration.header.keywords
    return .resolve declaration none .notApplicable
  | owner :: outer => do
    let _ ← read? declaration.header.keywords
    return .resolve declaration (some owner.kind) (← effective owner outer)

def editHeader (edit : Header → Checked Header) (declaration : Declaration) : Checked Declaration :=
  if declaration.kind.hasModifiers then do
    return { declaration with header := ← edit declaration.header }
  else throw (.unsupportedKind declaration.kind)

def changeAccessibility (order : Ranking Keyword) (level : Accessibility) (site : Site) :
    Checked Declaration :=
  editHeader (fun header => do
    if (← effective site.declaration site.enclosing) = level then return header
    else setAccessibility order level header) site.declaration

def addAccessibility (order : Ranking Keyword) (site : Site) : Checked Declaration :=
  editHeader (fun header => do
    if (← read? header.keywords).isSome then return header
    else insertKeywords order site.defaultAccessibility.keywords header) site.declaration

/-! ### Edits of members -/

/-- Looks for the name among the indexed members, from behind, and remembers the earliest member of
the category that has been passed. -/
def nameIndexFrom (arrangement : Arrangement) (categories : List (Option Category))
    (category : Category) (name : String) (earliest : Option Nat) :
    List (Declaration × Nat) → Checked (Option Nat)
  | [] => return earliest
  | (member, index) :: rest => do
    if (← get categories index) ≠ some category then
      nameIndexFrom arrangement categories category name earliest rest
    else if arrangement.compareNames member.sortName name ≠ .gt then return some (index + 1)
    else nameIndexFrom arrangement categories category name (some index) rest

def nameIndex? (arrangement : Arrangement) (members : List Declaration) (category : Category)
    (name : String) : Checked (Option Nat) :=
  nameIndexFrom arrangement (members.map (·.category?)) category name none members.zipIdx.reverse

def insertIndex (arrangement : Arrangement) (members : List Declaration) (member : Declaration) :
    Checked Nat :=
  match member.category? with
  | none => throw (.unsupportedKind member.kind)
  | some category => do
    let index ← place (Ranking.indexOfRank
      (fun rank => (arrangement.ranking.kindAt? rank).map some)
      (members.map (·.category?)) (arrangement.ranking.rank category))
    match member.header.nameText? with
    | some name =>
      if arrangement.goesByName category then
        return (← nameIndex? arrangement members category name).getD index
      else return index
    | none => return index

def editMembers (container : Declaration)
    (edit : List Declaration → Checked (List Declaration)) : Checked Declaration :=
  if container.kind.ordersMembers then do
    lift (container.setMembers (← edit container.members))
  else throw (.unsupportedKind container.kind)

def insertMember (container : Declaration) (arrangement : Arrangement) (member : Declaration) :
    Checked Declaration :=
  editMembers container fun members => do
    insertIdx members (← insertIndex arrangement members member) member

def removeMember (container : Declaration) (index : Nat) : Checked Declaration :=
  editMembers container fun members =>
    if index < members.length then eraseIdx members index
    else throw (.indexOutOfRange index members.length)

def sortMembers (container : Declaration) (arrangement : Arrangement) : Checked Declaration :=
  if container.kind.ordersMembers ∧ arrangement.isSorted container.members then return container
  else editMembers container (sort arrangement.le)

/-- Replaces a declaration in a list that it is admitted to. -/
def replaceIn (declarations : List Declaration) (check : Declaration → Except Refusal Unit)
    (index : Nat) (declaration : Declaration) (rebuild : List Declaration → Declaration) :
    Checked Declaration :=
  if index < declarations.length then do
    lift (check declaration)
    return rebuild (← set declarations index declaration)
  else throw (.indexOutOfRange index declarations.length)

def replaceMember (declaration : Declaration) (index : Nat) (member : Declaration) :
    Checked Declaration :=
  replaceIn declaration.members (Declaration.admitMember declaration.kind) index member
    fun members => { declaration with members }

def replaceAccessor (declaration : Declaration) (index : Nat) (accessor : Declaration) :
    Checked Declaration :=
  replaceIn declaration.accessors (Declaration.admitAccessor declaration.kind) index accessor
    fun accessors => { declaration with accessors }

/-! ### Agreement -/

theorem agrees_lift {plain : Except Refusal α} (h : ∀ rank, plain ≠ .error (.rankGap rank)) :
    Agrees (lift plain) plain := ⟨rfl, h⟩

theorem effective_eq (declaration : Declaration) (enclosing : List Declaration) :
    effective declaration enclosing = pure (Accessibility.effective declaration enclosing) := by
  induction enclosing generalizing declaration with
  | nil => rw [effective, read?_eq, pure_bind, Accessibility.effective]
  | cons owner outer ih =>
    rw [effective, read?_eq, pure_bind, ih, pure_bind, Accessibility.effective]

section Headers

variable {order : Ranking Keyword} (horder : order.Lawful Keyword.all.length)

theorem agrees_editHeader {declaration : Declaration} {edit : Header → Checked Header}
    {plain : Header → Except Refusal Header}
    (h : Agrees (edit declaration.header) (plain declaration.header)) :
    Agrees (editHeader edit declaration) (declaration.editHeader plain) := by
  unfold editHeader Declaration.editHeader
  split
  · exact h.bind fun header _ => .pure _
  · exact .refused (by simp)

include horder

theorem agrees_changeAccessibility (level : Accessibility) (site : Site) :
    Agrees (changeAccessibility order level site) (site.changeAccessibility order level) := by
  refine agrees_editHeader ?_
  rw [effective_eq, pure_bind, Site.accessibility]
  split
  · exact .pure _
  · exact agrees_setAccessibility horder level _

theorem agrees_addAccessibility (site : Site) :
    Agrees (addAccessibility order site) (site.addAccessibility order) := by
  refine agrees_editHeader ?_
  rw [read?_eq, pure_bind]
  split
  · exact .pure _
  · exact agrees_insertKeywords horder _ _

end Headers

section Members

variable {arrangement : Arrangement} {category : Category} {name : String}
  {members : List Declaration} {container : Declaration}

theorem nameIndex?_concat (front : List Declaration) (member : Declaration) :
    arrangement.nameIndex? (front ++ [member]) category name =
      if member.category? ≠ some category then arrangement.nameIndex? front category name
      else if arrangement.compareNames member.sortName name ≠ .gt then some (front.length + 1)
      else (arrangement.nameIndex? front category name).or (some front.length) := by
  simp only [Arrangement.nameIndex?, Option.orElse_eq_orElse, Option.orElse_eq_or]
  rw [afterLast?_concat, List.findIdx?_append]
  by_cases hcategory : member.category? = some category
  · by_cases hname : arrangement.compareNames member.sortName name = .gt
    · simp [hcategory, hname, List.findIdx?_cons]
    · simp [hcategory, hname]
  · simp [hcategory, List.findIdx?_cons]

/-- The front part of a list is searched from its end. What is found there goes before what has
been passed behind it. -/
theorem nameIndexFrom_eq (front behind : List Declaration) (earliest : Option Nat) :
    nameIndexFrom arrangement ((front ++ behind).map (·.category?)) category name earliest
        front.zipIdx.reverse =
      pure ((arrangement.nameIndex? front category name).or earliest) := by
  induction front using List.reverseRecOn generalizing behind earliest with
  | nil => rfl
  | append_singleton front member ih =>
    have hreverse : (front ++ [member]).zipIdx.reverse =
        (member, front.length) :: front.zipIdx.reverse := by
      simp [List.zipIdx_append]
    have hget : get ((front ++ [member] ++ behind).map (·.category?)) front.length =
        pure member.category? := get_eq (by simp)
    rw [hreverse, nameIndexFrom, hget, pure_bind, List.append_assoc, nameIndex?_concat]
    split
    · exact ih _ _
    · split
      · rfl
      · rw [ih, Option.or_assoc]
        rfl

theorem nameIndex?_eq (arrangement : Arrangement) (members : List Declaration)
    (category : Category) (name : String) : nameIndex? arrangement members category name =
      pure (arrangement.nameIndex? members category name) := by
  have hall := @nameIndexFrom_eq arrangement category name members [] none
  rwa [List.append_nil, Option.or_none] at hall

theorem nameIndex?_le_length {index : Nat}
    (h : arrangement.nameIndex? members category name = some index) : index ≤ members.length := by
  unfold Arrangement.nameIndex? at h
  rw [Option.orElse_eq_orElse, Option.orElse_eq_or, Option.or_eq_some_iff] at h
  rcases h with h | ⟨-, h⟩
  · exact afterLast?_le_length h
  · exact Nat.le_of_lt (List.findIdx?_eq_some_iff_getElem.1 h).1

theorem agrees_admitMember (container : Kind) (member : Declaration) :
    Agrees (lift (Declaration.admitMember container member))
      (Declaration.admitMember container member) := by
  refine agrees_lift ?_
  unfold Declaration.admitMember
  split
  · exact nofun
  · split <;> exact nofun

theorem agrees_admitAccessor (owner : Kind) (accessor : Declaration) :
    Agrees (lift (Declaration.admitAccessor owner accessor))
      (Declaration.admitAccessor owner accessor) := by
  refine agrees_lift ?_
  unfold Declaration.admitAccessor
  split
  · exact nofun
  · split <;> exact nofun

/-- A list is put in place where each of its declarations is admitted. -/
theorem agrees_lift_forM {check : Declaration → Except Refusal Unit}
    (hcheck : ∀ declaration, Agrees (lift (check declaration)) (check declaration))
    (declarations : List Declaration) (result : Declaration) :
    Agrees (lift (declarations.forM check >>= fun _ => pure result))
      (declarations.forM check >>= fun _ => pure result) := by
  refine agrees_lift ?_
  induction declarations with
  | nil => exact nofun
  | cons declaration rest ih =>
    intro rank
    change ((check declaration >>= fun _ => rest.forM check) >>= fun _ => pure result) ≠ _
    cases hdeclaration : check declaration with
    | error refusal =>
      intro heq
      refine (hcheck declaration).no_gap rank (hdeclaration.trans ?_)
      exact congrArg Except.error (Except.error.inj heq)
    | ok value => exact ih rank

theorem agrees_setMembers (declaration : Declaration) (members : List Declaration) :
    Agrees (lift (declaration.setMembers members)) (declaration.setMembers members) :=
  agrees_lift_forM (agrees_admitMember declaration.kind) members { declaration with members }

theorem agrees_setAccessors (declaration : Declaration) (accessors : List Declaration) :
    Agrees (lift (declaration.setAccessors accessors)) (declaration.setAccessors accessors) :=
  agrees_lift_forM (agrees_admitAccessor declaration.kind) accessors { declaration with accessors }

theorem agrees_replaceIn {declarations : List Declaration}
    {check : Declaration → Except Refusal Unit} {index : Nat} {declaration : Declaration}
    {rebuild : List Declaration → Declaration}
    (hcheck : Agrees (lift (check declaration)) (check declaration)) :
    Agrees (replaceIn declarations check index declaration rebuild)
      (if index < declarations.length then do
        check declaration
        return rebuild (declarations.set index declaration)
      else .error (.indexOutOfRange index declarations.length)) := by
  unfold replaceIn
  split
  · next hindex =>
    rw [set_eq hindex, pure_bind]
    exact hcheck.bind fun _ _ => .pure _
  · exact .refused (by simp)

theorem agrees_replaceMember (declaration : Declaration) (index : Nat) (member : Declaration) :
    Agrees (replaceMember declaration index member) (declaration.replaceMember index member) :=
  agrees_replaceIn (agrees_admitMember declaration.kind member)

theorem agrees_replaceAccessor (declaration : Declaration) (index : Nat) (accessor : Declaration) :
    Agrees (replaceAccessor declaration index accessor)
      (declaration.replaceAccessor index accessor) :=
  agrees_replaceIn (agrees_admitAccessor declaration.kind accessor)

theorem agrees_editMembers {edit : List Declaration → Checked (List Declaration)}
    {plain : List Declaration → Except Refusal (List Declaration)}
    (h : container.kind.ordersMembers = true →
      Agrees (edit container.members) (plain container.members)) :
    Agrees (editMembers container edit) (container.editMembers plain) := by
  unfold editMembers Declaration.editMembers
  split
  · next hkind => exact (h hkind).bind fun members _ => agrees_setMembers container members
  · exact .refused (by simp)

theorem agrees_removeMember (container : Declaration) (index : Nat) :
    Agrees (removeMember container index) (container.removeMember index) := by
  refine agrees_editMembers fun _ => ?_
  split
  · next hindex => exact .of_eq (eraseIdx_eq hindex)
  · exact .refused (by simp)

section Lawful

variable (harrangement : arrangement.Lawful)
include harrangement

/-- Whatever the list holds, a member of some category has a place in it. -/
theorem exists_insertIndex_le (members : List Declaration) {member : Declaration}
    (hcategory : member.category? = some category) :
    ∃ index, insertIndex arrangement members member = pure index ∧
      arrangement.insertIndex members member = .ok index ∧ index ≤ members.length := by
  obtain ⟨index, hindex, hplace⟩ := harrangement.exists_indexOfRank members category
  have hlength := hplace.le_length
  simp only [insertIndex, Arrangement.insertIndex, hcategory, hindex, place, nameIndex?_eq,
    pure_bind]
  cases member.header.nameText? with
  | none => exact ⟨index, rfl, rfl, hlength⟩
  | some name =>
    cases arrangement.goesByName category with
    | false => exact ⟨index, rfl, rfl, hlength⟩
    | true =>
      cases hfound : arrangement.nameIndex? members category name with
      | none => exact ⟨index, by simp [hfound], by simp [hfound], hlength⟩
      | some found =>
        exact ⟨found, by simp [hfound], by simp [hfound], nameIndex?_le_length hfound⟩

theorem agrees_insertIndex (members : List Declaration) (member : Declaration) :
    Agrees (insertIndex arrangement members member) (arrangement.insertIndex members member) := by
  cases hcategory : member.category? with
  | none =>
    rw [insertIndex, Arrangement.insertIndex, hcategory]
    exact .refused (by simp)
  | some category =>
    obtain ⟨index, hchecked, hplain, -⟩ := exists_insertIndex_le harrangement members hcategory
    rw [hplain]
    exact .of_eq hchecked

theorem agrees_insertMember (container member : Declaration) :
    Agrees (insertMember container arrangement member)
      (container.insertMember arrangement member) := by
  refine agrees_editMembers fun _ => ?_
  refine (agrees_insertIndex harrangement container.members member).bind ?_
  intro index hindex
  obtain ⟨category, hcategory⟩ :=
    Option.isSome_iff_exists.1 (Arrangement.isSome_category?_of_insertIndex hindex)
  obtain ⟨place, -, hplace, hlength⟩ :=
    exists_insertIndex_le harrangement container.members hcategory
  obtain rfl := Except.ok.inj (hplace.symm.trans hindex)
  exact .of_eq (insertIdx_eq hlength member)

theorem agrees_sortMembers (hshape : container.WellShaped) :
    Agrees (sortMembers container arrangement) (container.sortMembers arrangement) := by
  unfold sortMembers Declaration.sortMembers
  split
  · exact .pure container
  · refine agrees_editMembers fun hkind => ?_
    exact .of_eq (sort_eq (harrangement.totalOn_le (hshape.isSome_category? hkind)))

end Lawful

end Members

end Checked

def ModifierEdit.applyChecked (order : Ranking Keyword) (site : Site) :
    ModifierEdit → Checked Declaration
  | .insert keyword => Checked.editHeader (Checked.insert order (.elastic keyword)) site.declaration
  | .insertModifier modifier => Checked.editHeader (Checked.insert order modifier) site.declaration
  | .remove keyword => Checked.editHeader (Checked.remove keyword) site.declaration
  | .removeAt index => site.declaration |> Checked.editHeader fun header =>
    if index < header.modifiers.length then Checked.removeAt header index
    else throw (.indexOutOfRange index header.modifiers.length)
  | .removeAccessibility => Checked.editHeader Checked.removeAccessibility site.declaration
  | .removeAll => Checked.editHeader (fun header => return header.removeAll) site.declaration
  | .reorder => Checked.editHeader (Checked.reorder order) site.declaration
  | .changeAccessibility level => Checked.changeAccessibility order level site
  | .addAccessibility => Checked.addAccessibility order site

def Edit.applyChecked (conventions : Conventions) (site : Site) : Edit → Checked Declaration
  | .ofModifiers edit => edit.applyChecked conventions.keywords site
  | .setModifiers modifiers => return site.declaration.setModifiers modifiers
  | .setHead head => return site.declaration.setHead head
  | .setName name => return site.declaration.setName name
  | .setMembers members => Checked.lift (site.declaration.setMembers members)
  | .setAccessors accessors => Checked.lift (site.declaration.setAccessors accessors)
  | .replaceMember index member => Checked.replaceMember site.declaration index member
  | .replaceAccessor index accessor => Checked.replaceAccessor site.declaration index accessor
  | .insertMember member => Checked.insertMember site.declaration conventions.members member
  | .removeMember index => Checked.removeMember site.declaration index
  | .sortMembers => Checked.sortMembers site.declaration conventions.members

theorem ModifierEdit.agrees_applyChecked {order : Ranking Keyword}
    (horder : order.Lawful Keyword.all.length) (site : Site) (edit : ModifierEdit) :
    (edit.applyChecked order site).Agrees (edit.apply order site) := by
  cases edit
  case changeAccessibility level => exact Checked.agrees_changeAccessibility horder level site
  case addAccessibility => exact Checked.agrees_addAccessibility horder site
  all_goals
    simp only [applyChecked, apply]
    refine Checked.agrees_editHeader ?_
  case insert keyword => exact Checked.agrees_insert horder _ _
  case insertModifier modifier => exact Checked.agrees_insert horder _ _
  case remove keyword => exact .of_eq (Checked.remove_eq keyword _)
  case removeAt index =>
    split
    · next hindex => exact .of_eq (Checked.removeAt_eq hindex)
    · exact .refused (by simp)
  case removeAccessibility => exact .of_eq (Checked.removeAccessibility_eq _)
  case removeAll => exact .pure _
  case reorder => exact .of_eq (Checked.reorder_eq order _)

variable {conventions : Conventions}

/-- Only the sort asks anything of the declaration: its members must have categories. -/
theorem Edit.agrees_applyChecked (hkeywords : conventions.keywords.Lawful Keyword.all.length)
    (hmembers : conventions.members.Lawful) {site : Site} {edit : Edit}
    (hshape : edit = .sortMembers → site.declaration.WellShaped) :
    (edit.applyChecked conventions site).Agrees (edit.apply conventions site) := by
  cases edit with
  | ofModifiers edit => exact edit.agrees_applyChecked hkeywords site
  | setModifiers modifiers => exact .pure _
  | setHead head => exact .pure _
  | setName name => exact .pure _
  | setMembers members => exact Checked.agrees_setMembers _ members
  | setAccessors accessors => exact Checked.agrees_setAccessors _ accessors
  | replaceMember index member => exact Checked.agrees_replaceMember _ index member
  | replaceAccessor index accessor => exact Checked.agrees_replaceAccessor _ index accessor
  | insertMember member => exact Checked.agrees_insertMember hmembers _ member
  | removeMember index => exact Checked.agrees_removeMember _ index
  | sortMembers => exact Checked.agrees_sortMembers hmembers (hshape rfl)

/-- **No edit faults.** Under lawful orders every edit has a result or is refused, with its list
operations checked just as without, and it is never refused for a rank without a kind. A sort asks
only that the declaration was made by drafts and edits. Every keyword has a place in every list of
keywords, and every member of some category has one in every list of declarations, be they members
of anything or not; the place is at most the length of the list. What has no category is refused. -/
theorem Edit.applyChecked_faultless (hkeywords : conventions.keywords.Lawful Keyword.all.length)
    (hmembers : conventions.members.Lawful) :
    (∀ (site : Site) (edit : Edit), (edit = .sortMembers → site.declaration.Obtainable) →
      (edit.applyChecked conventions site).run = .ok (edit.apply conventions site) ∧
        ∀ rank, edit.apply conventions site ≠ .error (.rankGap rank)) ∧
    (∀ (keywords : List Keyword) (keyword : Keyword), ∃ index,
      conventions.keywords.insertIndex keywords keyword = .ok index ∧ index ≤ keywords.length) ∧
    ∀ (members : List Declaration) (member : Declaration),
      (Checked.insertIndex conventions.members members member).run =
          .ok (conventions.members.insertIndex members member) ∧
        (member.category? = none → conventions.members.insertIndex members member =
          .error (.unsupportedKind member.kind)) ∧
        (member.category?.isSome = true → ∃ index,
          conventions.members.insertIndex members member = .ok index ∧ index ≤ members.length) := by
  refine ⟨?_, ?_, ?_⟩
  · intro site edit hobtainable
    have hagrees := agrees_applyChecked hkeywords hmembers fun h => (hobtainable h).wellShaped
    exact ⟨hagrees.run_eq, hagrees.no_gap⟩
  · intro keywords keyword
    obtain ⟨index, hindex, hplace⟩ := hkeywords.exists_insertIndex keywords keyword
    exact ⟨index, hindex, hplace.le_length⟩
  · intro members member
    refine ⟨(Checked.agrees_insertIndex hmembers members member).run_eq, ?_, ?_⟩
    · intro hcategory
      rw [Arrangement.insertIndex, hcategory]
    · intro hcategory
      obtain ⟨category, hcategory⟩ := Option.isSome_iff_exists.1 hcategory
      obtain ⟨index, -, hindex, hlength⟩ :=
        Checked.exists_insertIndex_le hmembers members hcategory
      exact ⟨index, hindex, hlength⟩

/-- The two halves of a level with a keyword between them both go, the one behind first. A method
has its place among declarations that are no members, and these have none. -/
theorem Edit.applyChecked_faultless_split_pair :
    ∃ method parameter result : Declaration,
      method.header.keywords = [.protectedKw, .staticKw, .privateKw] ∧
      ((Edit.ofModifiers .removeAccessibility).applyChecked ⟨Keyword.defaultOrder, .usual true⟩
        (.root method)).run = .ok (.ok result) ∧
      result.header.keywords = [.staticKw] ∧
      (Checked.insertIndex (.usual true) [parameter] method).run = .ok (.ok 0) ∧
      (Arrangement.usual true).insertIndex [method] parameter =
        .error (.unsupportedKind .parameter) := by
  let method : Declaration := ⟨.method,
    ⟨[.spaced .protectedKw, .spaced .staticKw, .spaced .privateKw], some (.plain "void"), none,
      some (.plain "Run")⟩, [], []⟩
  let parameter : Declaration := ⟨.parameter, ⟨[], none, none, some (.plain "count")⟩, [], []⟩
  let result := { method with header := method.header.removeAccessibility }
  obtain ⟨hedit, -, hindex⟩ :=
    @applyChecked_faultless ⟨Keyword.defaultOrder, .usual true⟩ Keyword.lawful_defaultOrder
      (Arrangement.lawful_usual true)
  obtain ⟨hrun, -⟩ := hedit (.root method) (.ofModifiers .removeAccessibility) nofun
  obtain ⟨hplace, -, -⟩ := hindex [parameter] method
  obtain ⟨-, hrefused, -⟩ := hindex [method] parameter
  exact ⟨method, parameter, result, rfl, hrun.trans rfl, rfl, hplace.trans rfl, hrefused rfl⟩

/-- An order that has no kind for a rank makes an insertion fault. -/
example : ((Edit.ofModifiers (.insert .staticKw)).applyChecked
    ⟨⟨fun _ => 3, fun _ => none⟩, .usual false⟩
    (.root ⟨.field, ⟨[], none, none, some (.plain "count")⟩, [], []⟩)).run =
      .error (.noPlace (.rankGap 3)) := rfl

end DeclEdit
