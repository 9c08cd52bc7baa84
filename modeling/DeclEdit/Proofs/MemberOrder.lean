import DeclEdit.Proofs.NameOrder
import DeclEdit.Proofs.StableSort

/-!
# The order of members

Among members, all of which have a category, a lawful arrangement compares the ranks of the
categories first and then the names that count. These two keys make the comparison a lexicographic
one, so members can be sorted by it.
-/

namespace DeclEdit

namespace Arrangement

variable {arrangement : Arrangement} {a b : Declaration} {own other : Category}

/-- What has no category ranks behind all that have one. -/
def rankOf (arrangement : Arrangement) : Option Category → Nat
  | some category => arrangement.ranking.rank category
  | none => Category.all.length

/-- The name that counts, empty where the category does not go by name. -/
def nameKey (arrangement : Arrangement) (member : Declaration) : String :=
  if member.category?.any arrangement.goesByName then member.sortName else ""

def compareKeys (arrangement : Arrangement) : Declaration → Declaration → Ordering :=
  compareLex (compareOn fun member => arrangement.rankOf member.category?)
    fun a b => arrangement.compareNames (arrangement.nameKey a) (arrangement.nameKey b)

theorem Lawful.transCmp_compareKeys (h : arrangement.Lawful) :
    Std.TransCmp arrangement.compareKeys := by
  have hnames := transCmp_of_key h.names arrangement.nameKey
  unfold compareKeys
  exact inferInstance

theorem compare_eq (ha : a.category? = some own) (hb : b.category? = some other) :
    arrangement.compare a b =
      (Ord.compare (arrangement.ranking.rank own) (arrangement.ranking.rank other)).then
        (if arrangement.goesByName own then arrangement.compareNames a.sortName b.sortName
        else .eq) := by
  simp only [compare, ha, hb]
  rfl

theorem Lawful.compare_eq_compareKeys (h : arrangement.Lawful) (ha : a.category? = some own)
    (hb : b.category? = some other) : arrangement.compare a b = arrangement.compareKeys a b := by
  have hnames := h.names
  rw [compare_eq ha hb]
  simp only [compareKeys, compareLex, compareOn, rankOf, nameKey, ha, hb, Option.any_some]
  rcases Nat.lt_trichotomy (arrangement.ranking.rank own) (arrangement.ranking.rank other)
    with hrank | hrank | hrank
  · rw [Nat.compare_eq_lt.2 hrank]
    rfl
  · obtain rfl := h.ranking.rank_injective hrank
    congr 1
    split
    · rfl
    · exact Std.ReflCmp.compare_self.symm
  · rw [Nat.compare_eq_gt.2 hrank]
    rfl

theorem le_eq_isLE (arrangement : Arrangement) (a b : Declaration) :
    arrangement.le a b = (arrangement.compare a b).isLE := by
  unfold le
  cases arrangement.compare a b <;> rfl

theorem Lawful.totalOn_le (h : arrangement.Lawful) {members : List Declaration}
    (hmembers : ∀ member ∈ members, member.category?.isSome = true) :
    TotalOn arrangement.le members := by
  have htrans := h.transCmp_compareKeys
  have hle : ∀ a ∈ members, ∀ b ∈ members,
      arrangement.le a b = (arrangement.compareKeys a b).isLE := by
    intro a ha b hb
    obtain ⟨own, hown⟩ := Option.isSome_iff_exists.1 (hmembers a ha)
    obtain ⟨other, hother⟩ := Option.isSome_iff_exists.1 (hmembers b hb)
    rw [le_eq_isLE, h.compare_eq_compareKeys hown hother]
  constructor
  · intro a ha b hb c hc hab hbc
    rw [hle a ha b hb] at hab
    rw [hle b hb c hc] at hbc
    rw [hle a ha c hc]
    exact Std.TransCmp.isLE_trans hab hbc
  · intro a ha b hb
    rw [hle a ha b hb, hle b hb a ha]
    by_cases hab : (arrangement.compareKeys a b).isLE = true
    · exact .inl hab
    · have hlt : arrangement.compareKeys b a = .lt := Std.OrientedCmp.lt_of_not_isLE hab
      exact .inr (by rw [hlt]; rfl)

theorem Lawful.isSorted_eq_true_iff (h : arrangement.Lawful) {members : List Declaration}
    (hmembers : ∀ member ∈ members, member.category?.isSome = true) :
    arrangement.isSorted members = true ↔ members.Pairwise (arrangement.le · · = true) :=
  ascending_eq_true_iff_pairwise (h.totalOn_le hmembers).trans

theorem Lawful.le_eq_true_iff (h : arrangement.Lawful) (ha : a.category? = some own)
    (hb : b.category? = some other) :
    arrangement.le a b = true ↔ arrangement.ranking.rank own < arrangement.ranking.rank other ∨
      own = other ∧ (arrangement.goesByName own = true →
        (arrangement.compareNames a.sortName b.sortName).isLE = true) := by
  have hrank : own = other ↔ arrangement.ranking.rank own = arrangement.ranking.rank other :=
    ⟨congrArg _, h.ranking.rank_injective⟩
  rw [le_eq_isLE, compare_eq ha hb, Ordering.isLE_then_iff_or, Nat.compare_eq_lt,
    Nat.compare_eq_eq, ← hrank]
  split
  · next hname => simp [hname]
  · next hname => simp [hname]

end Arrangement

end DeclEdit
