import DeclEdit.Keyword

/-!
# Levels of accessibility

Two of the levels are written with two keywords, one level is written with none.
-/

namespace DeclEdit

inductive Accessibility where
  | notApplicable | privateAccess | protectedAndInternal | protectedAccess | internalAccess
  | protectedOrInternal | publicAccess
deriving DecidableEq, Repr

namespace Accessibility

def all : List Accessibility :=
  [notApplicable, privateAccess, protectedAndInternal, protectedAccess, internalAccess,
    protectedOrInternal, publicAccess]

theorem mem_all (level : Accessibility) : level ∈ all := by
  cases level <;> simp [all]

/-- The keywords that spell a level, in the order in which they are inserted. -/
def keywords : Accessibility → List Keyword
  | notApplicable => []
  | privateAccess => [.privateKw]
  | protectedAndInternal => [.privateKw, .protectedKw]
  | protectedAccess => [.protectedKw]
  | internalAccess => [.internalKw]
  | protectedOrInternal => [.protectedKw, .internalKw]
  | publicAccess => [.publicKw]

/-- The visibility keywords in a list are those of the level, in whatever order and with whatever
other keywords between them. -/
def Spells (level : Accessibility) (keywords : List Keyword) : Prop :=
  (keywords.filter Keyword.isVisibility).Perm level.keywords

theorem spells_keywords (level : Accessibility) : level.Spells level.keywords := by
  cases level <;> exact .refl _

theorem Spells.of_perm {level : Accessibility} {keywords permuted : List Keyword}
    (h : level.Spells keywords) (hperm : permuted.Perm keywords) : level.Spells permuted :=
  (hperm.filter _).trans h

/-- The level that one keyword alone spells. -/
def ofKeyword? : Keyword → Option Accessibility
  | .publicKw => some publicAccess
  | .privateKw => some privateAccess
  | .protectedKw => some protectedAccess
  | .internalKw => some internalAccess
  | _ => none

def text (level : Accessibility) : String := " ".intercalate (level.keywords.map (·.text))

/-- The name of a level in messages. -/
def name (level : Accessibility) : String :=
  if level = notApplicable then "not applicable" else level.text

def isSingle (level : Accessibility) : Bool := level.keywords.length = 1

def isCompound (level : Accessibility) : Bool := level.keywords.length = 2

def mentions (level : Accessibility) (keyword : Keyword) : Bool := decide (keyword ∈ level.keywords)

/-- How much may see a declaration of the level. Inheritors and the program are not to be
compared, so `protectedAccess` and `internalAccess` share a rung. -/
def breadth? : Accessibility → Option Nat
  | notApplicable => none
  | privateAccess => some 0
  | protectedAndInternal => some 1
  | protectedAccess | internalAccess => some 2
  | protectedOrInternal => some 3
  | publicAccess => some 4

def isNarrowerThan (level other : Accessibility) : Bool :=
  match level.breadth?, other.breadth? with
  | some own, some others => decide (own < others)
  | _, _ => false

end Accessibility

end DeclEdit
