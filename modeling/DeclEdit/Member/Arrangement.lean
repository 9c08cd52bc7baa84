import DeclEdit.Declaration
import DeclEdit.Ranking
import DeclEdit.Text.NameOrder

/-!
# Arrangements of members

Members are arranged by category and, if so wanted, by name within the categories that have names.
A declaration without a category compares equal with everything. Members are inserted, removed and
sorted in the declarations whose members are kept in order.
-/

namespace DeclEdit

structure Arrangement where
  ranking : Ranking Category
  byName : Bool
  compareNames : String → String → Ordering

/-- The name a member is arranged by, empty if it has none. -/
def Declaration.sortName (declaration : Declaration) : String :=
  declaration.header.nameText?.getD ""

namespace Category

/-- The categories are listed in their usual order. -/
def defaultOrder : Ranking Category := ⟨defaultRank, (all[·]?)⟩

theorem all_defaultRank (category : Category) : all[defaultRank category]? = some category := by
  cases category <;> rfl

theorem lawful_defaultOrder : defaultOrder.Lawful all.length :=
  Ranking.lawful_of_table (by decide) all_defaultRank

end Category

namespace Arrangement

/-- The ranking is lawful, and names are compared so that they can be sorted. -/
structure Lawful (arrangement : Arrangement) : Prop where
  ranking : arrangement.ranking.Lawful Category.all.length
  names : Std.TransCmp arrangement.compareNames

def usual (byName : Bool) : Arrangement := ⟨Category.defaultOrder, byName, Text.compareNames⟩

/-- The categories in the order in which the table lists them; each has to be there once. -/
def ofTable (table : List Category) (byName : Bool) : Except Refusal Arrangement :=
  match Ranking.firstRepeat? [] table with
  | some category => .error (.repeatedCategory category)
  | none =>
    if table.length = Category.all.length then .ok ⟨.ofList table, byName, Text.compareNames⟩
    else .error (.wrongCategoryCount table.length)

def goesByName (arrangement : Arrangement) (category : Category) : Bool :=
  arrangement.byName && category.isNamed

def compare (arrangement : Arrangement) (a b : Declaration) : Ordering :=
  match a.category?, b.category? with
  | some own, some other =>
    (compareOfLessAndEq (arrangement.ranking.rank own) (arrangement.ranking.rank other)).then
      (if arrangement.goesByName own then arrangement.compareNames a.sortName b.sortName else .eq)
  | _, _ => .eq

def le (arrangement : Arrangement) (a b : Declaration) : Bool := arrangement.compare a b != .gt

def isSorted (arrangement : Arrangement) (members : List Declaration) : Bool :=
  ascending arrangement.le members

/-- Where a name goes among the members of its category: behind the last one whose name is not
greater, or before all of them. There is no such place if the category does not occur. -/
def nameIndex? (arrangement : Arrangement) (members : List Declaration) (category : Category)
    (name : String) : Option Nat :=
  afterLast? (fun member => member.category? = some category &&
      arrangement.compareNames member.sortName name != .gt) members <|>
    members.findIdx? (·.category? = some category)

/-- Where a member goes in a list. One without a name goes behind all those of its category. -/
def insertIndex (arrangement : Arrangement) (members : List Declaration) (member : Declaration) :
    Except Refusal Nat :=
  match member.category? with
  | none => .error (.unsupportedKind member.kind)
  | some category => do
    let index ← Ranking.indexOfRank (fun rank => (arrangement.ranking.kindAt? rank).map some)
      (members.map (·.category?)) (arrangement.ranking.rank category)
    match member.header.nameText? with
    | some name =>
      if arrangement.goesByName category then
        return (arrangement.nameIndex? members category name).getD index
      else return index
    | none => return index

end Arrangement

/-! ### Edits of a member list -/

namespace Declaration

/-- Applies an edit of the member list, which only kinds with ordered members take. The new list is
checked as a whole. -/
def editMembers (container : Declaration)
    (edit : List Declaration → Except Refusal (List Declaration)) :
    Except Refusal Declaration :=
  if container.kind.ordersMembers then do
    container.setMembers (← edit container.members)
  else .error (.unsupportedKind container.kind)

def insertMember (container : Declaration) (arrangement : Arrangement) (member : Declaration) :
    Except Refusal Declaration :=
  container.editMembers fun members => do
    let index ← arrangement.insertIndex members member
    return members.insertIdx index member

def removeMember (container : Declaration) (index : Nat) : Except Refusal Declaration :=
  container.editMembers fun members =>
    if index < members.length then .ok (members.eraseIdx index)
    else .error (.indexOutOfRange index members.length)

/-- Members that compare equal stay in their order, and sorted members stay as they are. -/
def sortMembers (container : Declaration) (arrangement : Arrangement) : Except Refusal Declaration :=
  if container.kind.ordersMembers ∧ arrangement.isSorted container.members then .ok container
  else container.editMembers fun members => .ok (members.mergeSort arrangement.le)

end Declaration

end DeclEdit
