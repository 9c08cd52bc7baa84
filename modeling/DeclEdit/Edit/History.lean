import DeclEdit.Declaration.Draft
import DeclEdit.Edit

/-!
# Histories of edits

What can be reached from a declaration by editing its modifiers, and what can be obtained at all:
by drafting a declaration and by editing one, with other such declarations as parts. Both come in a
second form, where every edit has to pass a condition.
-/

namespace DeclEdit

/-- The edits in turn, each in the same place as the one before. -/
def ModifierEdit.applyAll (order : Ranking Keyword) (enclosing : List Declaration)
    (edits : List ModifierEdit) (declaration : Declaration) : Except Refusal Declaration :=
  edits.foldlM (fun current edit => edit.apply order ⟨current, enclosing⟩) declaration

theorem ModifierEdit.applyAll_cons {order : Ranking Keyword} {enclosing : List Declaration}
    {declaration : Declaration} (edit : ModifierEdit) (rest : List ModifierEdit) :
    applyAll order enclosing (edit :: rest) declaration =
      edit.apply order ⟨declaration, enclosing⟩ >>= applyAll order enclosing rest := by
  simp only [applyAll, List.foldlM_cons]
  rfl

/-- The second declaration comes from the first one by edits of its modifiers, each under one of the
given orders and in whatever place. -/
inductive ModifierEdit.Reaches (orders : Ranking Keyword → Prop) (start : Declaration) :
    Declaration → Prop
  | start : Reaches orders start start
  | step {order : Ranking Keyword} {current result : Declaration} {enclosing : List Declaration}
      {edit : ModifierEdit} (hcurrent : Reaches orders start current) (horder : orders order)
      (hresult : edit.apply order ⟨current, enclosing⟩ = .ok result) : Reaches orders start result

/-- Like `Reaches`, for edits that may be made under their orders. -/
inductive ModifierEdit.ReachesBy (may : Ranking Keyword → ModifierEdit → Prop)
    (start : Declaration) : Declaration → Prop
  | start : ReachesBy may start start
  | step {order : Ranking Keyword} {current result : Declaration} {enclosing : List Declaration}
      {edit : ModifierEdit} (hcurrent : ReachesBy may start current) (hmay : may order edit)
      (hresult : edit.apply order ⟨current, enclosing⟩ = .ok result) : ReachesBy may start result

theorem ModifierEdit.Reaches.reachesBy {orders : Ranking Keyword → Prop}
    {start result : Declaration} (h : Reaches orders start result) :
    ReachesBy (fun order _ => orders order) start result := by
  induction h with
  | start => exact .start
  | step _ horder hstep ih => exact .step ih horder hstep

/-- The declarations that an edit brings along. -/
def Edit.parts : Edit → List Declaration
  | .setMembers declarations | .setAccessors declarations => declarations
  | .replaceMember _ declaration | .replaceAccessor _ declaration
  | .insertMember declaration => [declaration]
  | _ => []

/-- The declarations that a step of a draft brings along. -/
def Draft.Step.parts : Draft.Step → List Declaration
  | .members declarations => declarations
  | .member declaration | .accessor declaration => [declaration]
  | _ => []

/-- A declaration that drafts and edits can make. -/
inductive Declaration.Obtainable : Declaration → Prop
  | drafted {kind : Kind} {steps : List Draft.Step} {result : Declaration}
      (hparts : ∀ step ∈ steps, ∀ part ∈ step.parts, Obtainable part)
      (hresult : (Draft.run kind steps).finish = .ok result) : Obtainable result
  | edited {conventions : Conventions} {current result : Declaration}
      {enclosing : List Declaration} {edit : Edit} (hcurrent : Obtainable current)
      (hparts : ∀ part ∈ edit.parts, Obtainable part)
      (hresult : edit.apply conventions ⟨current, enclosing⟩ = .ok result) : Obtainable result

/-- Like `Obtainable`, for edits that may be made on what they change. -/
inductive Declaration.ObtainableBy (may : Declaration → Edit → Prop) : Declaration → Prop
  | drafted {kind : Kind} {steps : List Draft.Step} {result : Declaration}
      (hparts : ∀ step ∈ steps, ∀ part ∈ step.parts, ObtainableBy may part)
      (hresult : (Draft.run kind steps).finish = .ok result) : ObtainableBy may result
  | edited {conventions : Conventions} {current result : Declaration}
      {enclosing : List Declaration} {edit : Edit} (hcurrent : ObtainableBy may current)
      (hmay : may current edit) (hparts : ∀ part ∈ edit.parts, ObtainableBy may part)
      (hresult : edit.apply conventions ⟨current, enclosing⟩ = .ok result) :
      ObtainableBy may result

theorem Declaration.Obtainable.obtainableBy {declaration : Declaration} (h : Obtainable declaration) :
    ObtainableBy (fun _ _ => True) declaration := by
  induction h with
  | drafted _ hresult ihparts => exact .drafted ihparts hresult
  | edited _ _ hresult ih ihparts => exact .edited ih trivial ihparts hresult

/-- Edits of modifiers lead from what can be obtained to what can be obtained. -/
theorem Declaration.Obtainable.of_reaches {orders : Ranking Keyword → Prop}
    {start result : Declaration} (hstart : Obtainable start)
    (hresult : ModifierEdit.Reaches orders start result) : Obtainable result := by
  induction hresult with
  | start => exact hstart
  | @step order _ _ _ edit _ _ hstep ih =>
    exact @edited ⟨order, .usual false⟩ _ _ _ (.ofModifiers edit) ih (by simp [Edit.parts]) hstep

end DeclEdit
