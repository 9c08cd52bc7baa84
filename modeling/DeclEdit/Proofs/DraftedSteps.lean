import DeclEdit.Edit.History
import Mathlib.Data.List.Induction

/-!
# What counts of the steps of a draft

Every step is about one slot of the draft. In most slots a step sets what is read there when the
draft is finished, whatever was there before, and the steps about other slots leave it alone, so the
last step about the slot counts. Modifiers and keywords share a slot in this sense although the
draft keeps both: the keywords are read if there are some, and a step with modifiers takes them
away. Members and accessors pile up, each in a slot of their own and in the order of the steps.
-/

namespace DeclEdit.Draft

open Declaration (Kind)

/-! ### Steps by slot -/

inductive Slot where
  | modifiers | head | name | explicitInterface | leading | members | accessors
deriving DecidableEq, Repr

/-- What a step is about. -/
def Step.slot : Step → Slot
  | .modifiers _ | .keywords _ => .modifiers
  | .head _ | .headToken _ | .noHead => .head
  | .name _ => .name
  | .explicitInterface _ => .explicitInterface
  | .leading _ => .leading
  | .member _ | .members _ => .members
  | .accessor _ => .accessors

/-- The last step about the slot. -/
def lastOf? (slot : Slot) (steps : List Step) : Option Step :=
  (steps.filter (·.slot = slot)).getLast?

variable {kind : Kind} {slot : Slot} {first second steps : List Step} {step : Step}

theorem lastOf?_append (slot : Slot) (first second : List Step) :
    lastOf? slot (first ++ second) = (lastOf? slot second).or (lastOf? slot first) := by
  rw [lastOf?, List.filter_append, List.getLast?_append]
  rfl

theorem lastOf?_singleton (slot : Slot) (step : Step) :
    lastOf? slot [step] = if step.slot = slot then some step else none := by
  by_cases hslot : step.slot = slot <;> simp [lastOf?, hslot]

theorem run_concat (kind : Kind) (steps : List Step) (step : Step) :
    run kind (steps ++ [step]) = (run kind steps).apply step := by
  simp only [run, List.foldl_append, List.foldl_cons, List.foldl_nil]

/-! ### What the steps leave in a slot -/

/-- Something that is read from a draft and that only steps about the slot set, all anew. -/
structure SetBy {α : Type} (slot : Slot) (read : Draft → α) : Prop where
  anew : ∀ step : Step, step.slot = slot →
    ∀ draft other : Draft, read (draft.apply step) = read (other.apply step)
  kept : ∀ step : Step, step.slot ≠ slot → ∀ draft : Draft, read (draft.apply step) = read draft

namespace SetBy

variable {α : Type} {read : Draft → α}

theorem read_run_of_some (h : SetBy slot read) (hlast : lastOf? slot steps = some step)
    (draft : Draft) : read (run kind steps) = read (draft.apply step) := by
  induction steps using List.reverseRecOn with
  | nil => cases hlast
  | append_singleton steps later ih =>
    rw [lastOf?_append, lastOf?_singleton] at hlast
    rw [run_concat]
    by_cases hslot : later.slot = slot
    · rw [if_pos hslot, Option.some_or] at hlast
      obtain rfl := Option.some.inj hlast
      exact h.anew later hslot _ _
    · rw [if_neg hslot, Option.none_or] at hlast
      rw [h.kept later hslot, ih hlast]

end SetBy

theorem setBy_leading : SetBy .leading (·.leading) where
  anew step hslot draft other := by cases step <;> cases hslot; rfl
  kept step hslot draft := by cases step <;> simp_all [Step.slot, apply]

end DeclEdit.Draft
