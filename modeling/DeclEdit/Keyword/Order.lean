import DeclEdit.Ranking

/-!
# Orders of the modifier keywords

The usual order has one table for the ranks of the keywords and one for the keywords of the ranks,
which are inverse to each other. Other orders are given by a single table that lists every keyword
once.
-/

namespace DeclEdit.Keyword

/-- `private` comes before `protected` and `protected` before `internal`, so the levels of two
keywords read as usual. -/
def defaultRank : Keyword → Nat
  | newKw => 0
  | publicKw => 1
  | privateKw => 2
  | protectedKw => 3
  | internalKw => 4
  | constKw => 5
  | staticKw => 6
  | virtualKw => 7
  | sealedKw => 8
  | overrideKw => 9
  | abstractKw => 10
  | readonlyKw => 11
  | externKw => 12
  | unsafeKw => 13
  | volatileKw => 14
  | asyncKw => 15
  | partialKw => 16

def defaultTable : List Keyword :=
  [newKw, publicKw, privateKw, protectedKw, internalKw, constKw, staticKw, virtualKw, sealedKw,
    overrideKw, abstractKw, readonlyKw, externKw, unsafeKw, volatileKw, asyncKw, partialKw]

def defaultOrder : Ranking Keyword := ⟨defaultRank, (defaultTable[·]?)⟩

theorem defaultTable_defaultRank (keyword : Keyword) :
    defaultTable[defaultRank keyword]? = some keyword := by
  cases keyword <;> rfl

theorem lawful_defaultOrder : defaultOrder.Lawful all.length :=
  Ranking.lawful_of_table (by decide) defaultTable_defaultRank

/-- A repeated keyword is reported before missing ones. -/
def orderOfTable (table : List Keyword) : Except Refusal (Ranking Keyword) :=
  match Ranking.firstRepeat? [] table with
  | some keyword => .error (.repeatedKeyword keyword)
  | none =>
    if table.length = all.length then .ok (.ofList table)
    else .error (.missingKeywords (all.filter (· ∉ table)))

end DeclEdit.Keyword
