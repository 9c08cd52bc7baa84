import DeclEdit.Proofs.InsertionIndex
import Mathlib.Data.Nat.Find
import Mathlib.Order.Bounds.Defs

/-!
# Where the search for a place stops

A table that nobody has checked may give one kind several ranks, give some ranks no kind and leave
kinds out. The search goes down from the rank of the new item and stops at the first rank that has
no kind or whose kind occurs. That rank alone decides what comes out; the ranks below it are never
looked at, so gaps among them do no harm.
-/

namespace DeclEdit.Ranking

variable {κ : Type} {kindAt? : Nat → Option κ} {items : List κ} {rank newRank stop : Nat}

/-- The search does not go below the rank: it has no kind, or its kind occurs. -/
def StopsAt (kindAt? : Nat → Option κ) (items : List κ) (rank : Nat) : Prop :=
  kindAt? rank = none ∨ ∃ kind ∈ items, kindAt? rank = some kind

/-- The highest rank at which the search for the place of an item of rank `newRank` stops, so the
one that it comes to. -/
def IsStop (kindAt? : Nat → Option κ) (items : List κ) (newRank stop : Nat) : Prop :=
  IsGreatest {rank | rank ≤ newRank ∧ StopsAt kindAt? items rank} stop

theorem not_stopsAt_iff :
    ¬StopsAt kindAt? items rank ↔ ∃ kind, kindAt? rank = some kind ∧ kind ∉ items := by
  unfold StopsAt
  cases hkind : kindAt? rank with
  | none => simp
  | some kind => simp

theorem exists_isStop (hle : rank ≤ newRank) (hstops : StopsAt kindAt? items rank) :
    ∃ stop, IsStop kindAt? items newRank stop := by
  classical
  refine ⟨Nat.findGreatest (StopsAt kindAt? items) newRank, ⟨?_, ?_⟩, ?_⟩
  · exact Nat.findGreatest_le newRank
  · exact Nat.findGreatest_spec hle hstops
  · intro other hother
    exact Nat.le_findGreatest hother.1 hother.2

theorem IsStop.not_stopsAt (h : IsStop kindAt? items newRank stop) (hlt : stop < rank)
    (hle : rank ≤ newRank) : ¬StopsAt kindAt? items rank := by
  intro hstops
  have hrank : rank ≤ stop := h.2 ⟨hle, hstops⟩
  omega

variable [DecidableEq κ]

/-! ### One step of the search -/

theorem afterLast?_eq_none_iff_notMem {kind : κ} :
    afterLast? (fun x => decide (x = kind)) items = none ↔ kind ∉ items := by
  rw [afterLast?_eq_none_iff]
  constructor
  · intro h hmem
    simpa using h kind hmem
  · intro h x hx
    have hne : x ≠ kind := fun heq => h (heq ▸ hx)
    simpa using hne

theorem indexBelow_succ_of_not_stopsAt (h : ¬StopsAt kindAt? items rank) :
    indexBelow kindAt? items (rank + 1) = indexBelow kindAt? items rank := by
  obtain ⟨kind, hkind, hnot⟩ := not_stopsAt_iff.1 h
  simp only [indexBelow, hkind, afterLast?_eq_none_iff_notMem.2 hnot]

theorem indexBelow_succ_of_eq_none (h : kindAt? rank = none) :
    indexBelow kindAt? items (rank + 1) = .error (.rankGap rank) := by
  simp only [indexBelow, h]

theorem exists_indexBelow_succ_of_mem {kind : κ} (hkind : kindAt? rank = some kind)
    (hmem : kind ∈ items) :
    ∃ before after, items = before ++ kind :: after ∧ kind ∉ after ∧
      indexBelow kindAt? items (rank + 1) = .ok (before.length + 1) := by
  cases hlast : afterLast? (fun x => decide (x = kind)) items with
  | none => exact absurd hmem (afterLast?_eq_none_iff_notMem.1 hlast)
  | some index =>
    obtain ⟨before, last, after, hsplit, hindex, hfound, hafter⟩ := exists_split_of_afterLast? hlast
    obtain rfl : last = kind := by simpa using hfound
    refine ⟨before, after, hsplit, ?_, ?_⟩
    · intro hagain
      have hne := hafter last hagain
      simp at hne
    · simp only [indexBelow, hkind, hlast, hindex]

/-! ### The whole search -/

/-- The search goes through ranks at which it does not stop. -/
theorem indexBelow_eq_of_forall_not_stopsAt {low high : Nat} (hle : low ≤ high)
    (hpassed : ∀ rank, low ≤ rank → rank < high → ¬StopsAt kindAt? items rank) :
    indexBelow kindAt? items high = indexBelow kindAt? items low := by
  -- On the upper bound, since the search starts there and the lower one is where it is let go on.
  induction high, hle using Nat.le_induction with
  | base => rfl
  | succ high hle ih =>
    have hhigh := hpassed high hle (Nat.lt_succ_self high)
    rw [indexBelow_succ_of_not_stopsAt hhigh]
    exact ih fun rank hlow hlt => hpassed rank hlow (by omega)

theorem IsStop.indexOfRank_eq (h : IsStop kindAt? items newRank stop) :
    indexOfRank kindAt? items newRank = indexBelow kindAt? items (stop + 1) := by
  have hle : stop ≤ newRank := h.1.1
  refine indexBelow_eq_of_forall_not_stopsAt (by omega) ?_
  intro rank hlow hlt
  exact h.not_stopsAt (by omega) (by omega)

theorem indexOfRank_eq_zero (h : ¬∃ stop, IsStop kindAt? items newRank stop) :
    indexOfRank kindAt? items newRank = .ok 0 := by
  refine indexBelow_eq_of_forall_not_stopsAt (Nat.zero_le _) ?_
  intro rank _ hlt hstops
  exact h (exists_isStop (Nat.le_of_lt_succ hlt) hstops)

theorem IsStop.exists_place {kind : κ} (h : IsStop kindAt? items newRank stop)
    (hkind : kindAt? stop = some kind) :
    ∃ before after, items = before ++ kind :: after ∧ kind ∉ after ∧
      indexOfRank kindAt? items newRank = .ok (before.length + 1) := by
  have hmem : kind ∈ items := by
    rcases h.1.2 with hnone | ⟨other, hother, hat⟩
    · simp [hkind] at hnone
    · obtain rfl : kind = other := Option.some.inj (hkind.symm.trans hat)
      exact hother
  rw [h.indexOfRank_eq]
  exact exists_indexBelow_succ_of_mem hkind hmem

theorem indexOfRank_eq_error_iff {refusal : Refusal} :
    indexOfRank kindAt? items newRank = .error refusal ↔
      ∃ stop, IsStop kindAt? items newRank stop ∧ kindAt? stop = none ∧
        refusal = .rankGap stop := by
  constructor
  · intro herror
    have hstop : ∃ stop, IsStop kindAt? items newRank stop := by
      by_contra hnone
      rw [indexOfRank_eq_zero hnone] at herror
      cases herror
    obtain ⟨stop, hstop⟩ := hstop
    cases hkind : kindAt? stop with
    | none =>
      rw [hstop.indexOfRank_eq, indexBelow_succ_of_eq_none hkind] at herror
      cases herror
      exact ⟨stop, hstop, hkind, rfl⟩
    | some kind =>
      obtain ⟨before, after, -, -, hplace⟩ := hstop.exists_place hkind
      rw [hplace] at herror
      cases herror
  · rintro ⟨stop, hstop, hkind, rfl⟩
    rw [hstop.indexOfRank_eq, indexBelow_succ_of_eq_none hkind]

/-! ### Tables that agree -/

omit [DecidableEq κ] in
theorem stopsAt_congr {other : Nat → Option κ} (h : other rank = kindAt? rank) :
    StopsAt other items rank ↔ StopsAt kindAt? items rank := by
  rw [StopsAt, StopsAt, h]

omit [DecidableEq κ] in
theorem IsStop.of_agree {other : Nat → Option κ} (h : IsStop kindAt? items newRank stop)
    (hagree : ∀ rank, stop ≤ rank → rank ≤ newRank → other rank = kindAt? rank) :
    IsStop other items newRank stop := by
  obtain ⟨hle, hstops⟩ := h.1
  refine ⟨⟨hle, (stopsAt_congr (hagree stop (Nat.le_refl _) hle)).2 hstops⟩, ?_⟩
  rintro rank ⟨hrank, hother⟩
  by_contra hlt
  have hsame := hagree rank (by omega) hrank
  exact h.not_stopsAt (by omega) hrank ((stopsAt_congr hsame).1 hother)

/-- Where the search stops, the rest of the table does not matter. -/
theorem indexBelow_succ_congr {other : Nat → Option κ} (hstops : StopsAt kindAt? items rank)
    (hagree : other rank = kindAt? rank) :
    indexBelow other items (rank + 1) = indexBelow kindAt? items (rank + 1) := by
  rcases hstops with hnone | ⟨kind, hmem, hkind⟩
  · rw [indexBelow_succ_of_eq_none hnone, indexBelow_succ_of_eq_none (hagree.trans hnone)]
  · cases hlast : afterLast? (fun x => decide (x = kind)) items with
    | none => exact absurd hmem (afterLast?_eq_none_iff_notMem.1 hlast)
    | some index => simp only [indexBelow, hagree, hkind, hlast]

theorem IsStop.indexOfRank_congr {other : Nat → Option κ} (h : IsStop kindAt? items newRank stop)
    (hagree : ∀ rank, stop ≤ rank → rank ≤ newRank → other rank = kindAt? rank) :
    indexOfRank other items newRank = indexOfRank kindAt? items newRank := by
  rw [(h.of_agree hagree).indexOfRank_eq, h.indexOfRank_eq]
  exact indexBelow_succ_congr h.1.2 (hagree stop (Nat.le_refl _) h.1.1)

/-- **The search with any table.** It fails only where it stops at a rank without a kind, and names
that rank. Where it stops at a kind, the place is behind the last item of that kind, and where it
does not stop at all, the place is at the front. Tables that agree from the stop upwards lead to the
same answer, whatever is missing below. -/
theorem indexOfRank_of_stop (kindAt? : Nat → Option κ) (items : List κ) (newRank : Nat) :
    (∀ refusal, indexOfRank kindAt? items newRank = .error refusal ↔
      ∃ stop, IsStop kindAt? items newRank stop ∧ kindAt? stop = none ∧
        refusal = .rankGap stop) ∧
    (∀ stop, (Refusal.rankGap stop).message =
      "canonical order has no category at rank " ++ toString stop) ∧
    (∀ stop kind, IsStop kindAt? items newRank stop → kindAt? stop = some kind →
      ∃ before after, items = before ++ kind :: after ∧ kind ∉ after ∧
        indexOfRank kindAt? items newRank = .ok (before.length + 1)) ∧
    ((¬∃ stop, IsStop kindAt? items newRank stop) →
      indexOfRank kindAt? items newRank = .ok 0) ∧
    ∀ stop other, IsStop kindAt? items newRank stop →
      (∀ rank, stop ≤ rank → rank ≤ newRank → other rank = kindAt? rank) →
      indexOfRank other items newRank = indexOfRank kindAt? items newRank := by
  refine ⟨fun refusal => indexOfRank_eq_error_iff, fun stop => rfl, ?_, indexOfRank_eq_zero, ?_⟩
  · intro stop kind hstop hkind
    exact hstop.exists_place hkind
  · intro stop other hstop hagree
    exact hstop.indexOfRank_congr hagree

/-- A table with a kind twice and a gap. The search from rank 4 stops above the gap, behind a kind
that occurs twice, the search from rank 1 stops at the gap, and a kind that does not occur stops no
search. -/
theorem indexOfRank_of_stop_gap :
    ∃ (kindAt? mended : Nat → Option Keyword) (items : List Keyword),
      kindAt? 1 = none ∧ mended 1 = some .asyncKw ∧
      IsStop kindAt? items 4 2 ∧ kindAt? 2 = some .staticKw ∧
      (∃ before after, items = before ++ .staticKw :: after ∧ Keyword.staticKw ∉ after ∧
        indexOfRank kindAt? items 4 = .ok (before.length + 1)) ∧
      indexOfRank kindAt? items 4 = .ok 3 ∧
      (∀ rank, 2 ≤ rank → rank ≤ 4 → mended rank = kindAt? rank) ∧
      indexOfRank mended items 4 = indexOfRank kindAt? items 4 ∧
      IsStop kindAt? items 1 1 ∧ indexOfRank kindAt? items 1 = .error (.rankGap 1) ∧
      (¬∃ stop, IsStop (fun _ => some Keyword.sealedKw) items 4 stop) ∧
      indexOfRank (fun _ => some Keyword.sealedKw) items 4 = .ok 0 := by
  let kindAt? (rank : Nat) : Option Keyword :=
    [some .publicKw, none, some .staticKw, some .constKw, some .constKw][rank]?.join
  let mended (rank : Nat) : Option Keyword := if rank = 1 then some .asyncKw else kindAt? rank
  let items : List Keyword := [.staticKw, .publicKw, .staticKw, .publicKw]
  have hpassed : ∀ rank ∈ [3, 4], ∃ kind, kindAt? rank = some kind ∧ kind ∉ items := by decide
  have hkind : IsStop kindAt? items 4 2 := by
    refine ⟨⟨by decide, .inr ⟨.staticKw, by decide, rfl⟩⟩, ?_⟩
    rintro rank ⟨hle, hstops⟩
    by_contra hlt
    have hrank : rank ∈ [3, 4] := by
      simp only [List.mem_cons, List.not_mem_nil, or_false]
      omega
    exact not_stopsAt_iff.2 (hpassed rank hrank) hstops
  have hgap : IsStop kindAt? items 1 1 := by
    refine ⟨⟨by decide, .inl rfl⟩, ?_⟩
    rintro rank ⟨hle, -⟩
    exact hle
  have hnever : ¬∃ stop, IsStop (fun _ => some Keyword.sealedKw) items 4 stop := by
    rintro ⟨stop, ⟨-, hstops⟩, -⟩
    have hpast : ∃ kind, some Keyword.sealedKw = some kind ∧ kind ∉ items :=
      ⟨.sealedKw, rfl, by decide⟩
    exact not_stopsAt_iff.2 hpast hstops
  have hagree : ∀ rank, 2 ≤ rank → rank ≤ 4 → mended rank = kindAt? rank := by
    intro rank hlow hhigh
    exact if_neg (by omega)
  obtain ⟨-, -, hplace, -, hsame⟩ := indexOfRank_of_stop kindAt? items 4
  obtain ⟨herror, -⟩ := indexOfRank_of_stop kindAt? items 1
  obtain ⟨-, -, -, hfront, -⟩ := indexOfRank_of_stop (fun _ => some Keyword.sealedKw) items 4
  exact ⟨kindAt?, mended, items, rfl, rfl, hkind, rfl, hplace 2 .staticKw hkind rfl, rfl, hagree,
    hsame 2 mended hkind hagree, hgap, (herror (.rankGap 1)).2 ⟨1, hgap, rfl, rfl⟩, hnever,
    hfront hnever⟩

end DeclEdit.Ranking
