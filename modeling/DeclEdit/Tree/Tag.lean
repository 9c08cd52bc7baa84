import DeclEdit.Keyword

/-!
# Tags of the header tree

What the leaves and nodes of a header tree are. Every tag has a number. The tags of keywords are
told by their numbers, which lie in one range and follow the list of keywords.
-/

namespace DeclEdit

/-- Each of the seventeen keywords has a tag of its own. -/
inductive Tag where
  | whitespace | endOfLine | lineComment | blockComment
  | keyword (keyword : Keyword)
  | head | identifier | dot
  | declaration | modifierList | explicitInterface | name
deriving DecidableEq, Repr

namespace Tag

def number : Tag → Nat
  | whitespace => 0
  | endOfLine => 1
  | lineComment => 2
  | blockComment => 3
  | keyword .newKw => 4
  | keyword .publicKw => 5
  | keyword .privateKw => 6
  | keyword .protectedKw => 7
  | keyword .internalKw => 8
  | keyword .constKw => 9
  | keyword .staticKw => 10
  | keyword .virtualKw => 11
  | keyword .sealedKw => 12
  | keyword .overrideKw => 13
  | keyword .abstractKw => 14
  | keyword .readonlyKw => 15
  | keyword .externKw => 16
  | keyword .unsafeKw => 17
  | keyword .volatileKw => 18
  | keyword .asyncKw => 19
  | keyword .partialKw => 20
  | head => 21
  | identifier => 22
  | dot => 23
  | declaration => 24
  | modifierList => 25
  | explicitInterface => 26
  | name => 27

/-- The tags in the order of their numbers. -/
def all : List Tag :=
  [whitespace, endOfLine, lineComment, blockComment, keyword .newKw, keyword .publicKw,
    keyword .privateKw, keyword .protectedKw, keyword .internalKw, keyword .constKw,
    keyword .staticKw, keyword .virtualKw, keyword .sealedKw, keyword .overrideKw,
    keyword .abstractKw, keyword .readonlyKw, keyword .externKw, keyword .unsafeKw,
    keyword .volatileKw, keyword .asyncKw, keyword .partialKw, head, identifier, dot, declaration,
    modifierList, explicitInterface, name]

def ofNumber? (number : Nat) : Option Tag := all[number]?

theorem ofNumber?_number (tag : Tag) : ofNumber? tag.number = some tag := by
  cases tag with
  | keyword keyword => cases keyword <;> rfl
  | _ => rfl

def isTrivia : Tag → Bool
  | whitespace | endOfLine | lineComment | blockComment => true
  | _ => false

/-- Whether the number lies between those of the first and the last keyword. -/
def isModifier (tag : Tag) : Bool :=
  decide ((keyword .newKw).number ≤ tag.number) &&
    decide (tag.number ≤ (keyword .partialKw).number)

/-- The keyword that is as far from the first one as the number is from that of the first one. -/
def keyword? (tag : Tag) : Option Keyword :=
  if tag.isModifier then Keyword.all[tag.number - (keyword .newKw).number]? else none

theorem isModifier_keyword (keyword : Keyword) : (Tag.keyword keyword).isModifier = true := by
  cases keyword <;> rfl

theorem keyword?_keyword (keyword : Keyword) : (Tag.keyword keyword).keyword? = some keyword := by
  cases keyword <;> rfl

theorem isModifier_eq_true_iff {tag : Tag} :
    tag.isModifier = true ↔ ∃ keyword, tag = Tag.keyword keyword := by
  constructor
  · intro h
    cases tag with
    | keyword keyword => exact ⟨keyword, rfl⟩
    | _ => cases h
  · rintro ⟨keyword, rfl⟩
    exact isModifier_keyword keyword

theorem isModifier_eq_false_of_isTrivia {tag : Tag} (h : tag.isTrivia = true) :
    tag.isModifier = false := by
  rw [← Bool.not_eq_true, isModifier_eq_true_iff]
  rintro ⟨keyword, rfl⟩
  cases h

end Tag

end DeclEdit
