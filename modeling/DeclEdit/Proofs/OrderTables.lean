import DeclEdit.Keyword.Order
import DeclEdit.Member.Arrangement
import Mathlib.Data.List.Nodup
import Mathlib.Data.List.Perm.Subperm

/-!
# Orders from tables

A table without repeats that is as long as the list of all kinds lists every kind, so the order it
gives is lawful. Such tables are the only ones to be accepted: the first kind that comes again is
reported for any other table that has one, and the kinds left out for the rest.
-/

namespace DeclEdit

namespace Ranking

variable {κ : Type}

/-- Each kind has the place in the table for its rank, and the first `count` ranks are all. -/
structure IsListing (ranking : Ranking κ) (table : List κ) (count : Nat) : Prop where
  lawful : ranking.Lawful count
  kindAt?_eq_none : ∀ rank, count ≤ rank → ranking.kindAt? rank = none
  rank_getElem : ∀ (index : Nat) (h : index < table.length), ranking.rank table[index] = index

/-- The kind is the first one in the table that has come before. -/
def RepeatsFirst (table : List κ) (kind : κ) : Prop :=
  ∃ before after, table = before ++ kind :: after ∧ before.Nodup ∧ kind ∈ before

variable [DecidableEq κ]

theorem firstRepeat?_eq_none_iff {seen kinds : List κ} :
    firstRepeat? seen kinds = none ↔ kinds.Nodup ∧ ∀ kind ∈ kinds, kind ∉ seen := by
  induction kinds generalizing seen with
  | nil => simp [firstRepeat?]
  | cons kind rest ih =>
    rw [firstRepeat?, List.nodup_cons, List.forall_mem_cons]
    split
    · next hseen => simp [hseen]
    · next hseen =>
      rw [ih]
      constructor
      · rintro ⟨hnodup, hrest⟩
        have hkind : kind ∉ rest := fun hmem => hrest kind hmem List.mem_cons_self
        exact ⟨⟨hkind, hnodup⟩, hseen, fun other hother hmem => hrest other hother (.tail _ hmem)⟩
      · rintro ⟨⟨hkind, hnodup⟩, -, hrest⟩
        refine ⟨hnodup, ?_⟩
        intro other hother hmem
        rcases List.mem_cons.1 hmem with rfl | hmem
        · exact hkind hother
        · exact hrest other hother hmem

theorem exists_split_of_firstRepeat? {seen kinds : List κ} {kind : κ} (hseen : seen.Nodup)
    (h : firstRepeat? seen kinds = some kind) :
    ∃ before after, kinds = before ++ kind :: after ∧ (before.reverse ++ seen).Nodup ∧
      kind ∈ before.reverse ++ seen := by
  -- What has been seen is the part in front, the latest first, on top of what was seen before.
  induction kinds generalizing seen with
  | nil => simp [firstRepeat?] at h
  | cons next rest ih =>
    rw [firstRepeat?] at h
    split at h
    · next hnext =>
      cases h
      exact ⟨[], rest, rfl, hseen, hnext⟩
    · next hnext =>
      obtain ⟨before, after, hrest, hnodup, hkind⟩ := ih (List.nodup_cons.2 ⟨hnext, hseen⟩) h
      refine ⟨next :: before, after, by rw [hrest, List.cons_append], ?_, ?_⟩
      · simpa using hnodup
      · simpa using hkind

theorem firstRepeat?_append_cons {seen before after : List κ} {kind : κ}
    (hnodup : (before.reverse ++ seen).Nodup) (hkind : kind ∈ before.reverse ++ seen) :
    firstRepeat? seen (before ++ kind :: after) = some kind := by
  induction before generalizing seen with
  | nil => exact if_pos hkind
  | cons next rest ih =>
    rw [List.reverse_cons, List.append_assoc, List.singleton_append] at hnodup hkind
    have hnext : next ∉ seen := (List.nodup_cons.1 (List.nodup_append.1 hnodup).2.1).1
    rw [List.cons_append, firstRepeat?, if_neg hnext]
    exact ih hnodup hkind

theorem firstRepeat?_eq_some_iff {table : List κ} {kind : κ} :
    firstRepeat? [] table = some kind ↔ RepeatsFirst table kind := by
  constructor
  · intro h
    obtain ⟨before, after, htable, hnodup, hkind⟩ := exists_split_of_firstRepeat? List.nodup_nil h
    rw [List.append_nil] at hnodup hkind
    exact ⟨before, after, htable, List.nodup_reverse.1 hnodup, List.mem_reverse.1 hkind⟩
  · rintro ⟨before, after, rfl, hnodup, hkind⟩
    apply firstRepeat?_append_cons
    · rw [List.append_nil]
      exact List.nodup_reverse.2 hnodup
    · rw [List.append_nil]
      exact List.mem_reverse.2 hkind

theorem exists_repeatsFirst {table : List κ} (h : ¬table.Nodup) :
    ∃ kind, RepeatsFirst table kind := by
  cases hrepeat : firstRepeat? [] table with
  | none => exact absurd (firstRepeat?_eq_none_iff.1 hrepeat).1 h
  | some kind => exact ⟨kind, firstRepeat?_eq_some_iff.1 hrepeat⟩

/-! ### Tables that list every kind -/

section Complete

variable {all table : List κ} (hnodup : all.Nodup) (hall : ∀ kind, kind ∈ all)

omit [DecidableEq κ] in
include hall in
theorem perm_of_nodup_of_length_le (htable : table.Nodup) (hlength : all.length ≤ table.length) :
    table.Perm all :=
  (List.subperm_of_subset htable fun other _ => hall other).perm_of_length_le hlength

include hnodup hall in
theorem perm_iff_firstRepeat? :
    table.Perm all ↔ firstRepeat? [] table = none ∧ table.length = all.length := by
  rw [firstRepeat?_eq_none_iff]
  constructor
  · intro hperm
    exact ⟨⟨hperm.nodup_iff.2 hnodup, fun _ _ => List.not_mem_nil⟩, hperm.length_eq⟩
  · rintro ⟨⟨htable, -⟩, hlength⟩
    exact perm_of_nodup_of_length_le hall htable (Nat.le_of_eq hlength.symm)

include hnodup hall in
theorem isListing_ofList (hperm : table.Perm all) : (ofList table).IsListing table all.length := by
  have htable : table.Nodup := hperm.nodup_iff.2 hnodup
  rw [← hperm.length_eq]
  constructor
  · exact lawful_ofList htable fun kind => hperm.mem_iff.2 (hall kind)
  · intro rank hrank
    exact List.getElem?_eq_none hrank
  · intro index h
    exact htable.idxOf_getElem index h

include hnodup hall in
/-- A table without repeats that is not as long as it should be leaves some kinds out. -/
theorem filter_notMem_ne_nil (htable : table.Nodup) (hlength : table.length ≠ all.length) :
    all.filter (· ∉ table) ≠ [] := by
  intro hnone
  have hsubset : all ⊆ table := by
    intro kind hkind
    simpa using List.filter_eq_nil_iff.1 hnone kind hkind
  have hle : all.length ≤ table.length := (List.subperm_of_subset hnodup hsubset).length_le
  exact hlength (perm_of_nodup_of_length_le hall htable hle).length_eq

omit [DecidableEq κ] in
include hnodup hall in
/-- Which kinds are picked from the list of all determines the list of those picked. -/
theorem eq_filter_of_sublist {picked : List κ} {test : κ → Bool} (hpicked : picked.Sublist all)
    (hmem : ∀ kind, kind ∈ picked ↔ test kind = true) : picked = all.filter test := by
  have hself : picked.filter test = picked := List.filter_eq_self.2 fun kind => (hmem kind).1
  have hsublist : picked.Sublist (all.filter test) := hself ▸ hpicked.filter test
  have hperm : picked.Perm (all.filter test) := by
    rw [List.perm_ext_iff_of_nodup (hnodup.sublist hpicked) (hnodup.filter test)]
    intro kind
    rw [List.mem_filter, hmem]
    exact (and_iff_right (hall kind)).symm
  exact hsublist.eq_of_length hperm.length_eq

end Complete

end Ranking

open Ranking (RepeatsFirst)

namespace Keyword

variable {table : List Keyword}

theorem nodup_all : all.Nodup := by decide

theorem orderOfTable_eq_ok_iff {order : Ranking Keyword} :
    orderOfTable table = .ok order ↔ table.Perm all ∧ order = .ofList table := by
  rw [Ranking.perm_iff_firstRepeat? nodup_all mem_all, orderOfTable]
  cases Ranking.firstRepeat? [] table with
  | some keyword => simp
  | none => by_cases hlength : table.length = all.length <;> simp [hlength, eq_comm]

/-- The kinds that a table leaves out, in their usual order. -/
structure IsMissing (table missing : List Keyword) : Prop where
  sublist : missing.Sublist all
  mem_iff : ∀ keyword, keyword ∈ missing ↔ keyword ∉ table

theorem isMissing_iff {missing : List Keyword} :
    IsMissing table missing ↔ missing = all.filter (· ∉ table) := by
  constructor
  · intro h
    refine Ranking.eq_filter_of_sublist nodup_all mem_all h.sublist ?_
    simpa using h.mem_iff
  · rintro rfl
    refine ⟨List.filter_sublist, ?_⟩
    intro keyword
    simp [mem_all keyword]

theorem orderOfTable_of_repeatsFirst {keyword : Keyword} (h : RepeatsFirst table keyword) :
    orderOfTable table = .error (.repeatedKeyword keyword) := by
  rw [orderOfTable, Ranking.firstRepeat?_eq_some_iff.2 h]

theorem orderOfTable_of_isMissing {missing : List Keyword} (hnodup : table.Nodup)
    (h : IsMissing table missing) (hne : missing ≠ []) :
    orderOfTable table = .error (.missingKeywords missing) := by
  have hrepeat : Ranking.firstRepeat? [] table = none :=
    Ranking.firstRepeat?_eq_none_iff.2 ⟨hnodup, fun _ _ => List.not_mem_nil⟩
  have hlength : table.length ≠ all.length := by
    intro hlength
    have hperm := Ranking.perm_of_nodup_of_length_le mem_all hnodup (Nat.le_of_eq hlength.symm)
    obtain ⟨keyword, hkeyword⟩ := List.exists_mem_of_ne_nil missing hne
    exact (h.mem_iff keyword).1 hkeyword (hperm.mem_iff.2 (mem_all keyword))
  rw [orderOfTable, hrepeat, isMissing_iff.1 h]
  exact if_neg hlength

/-- A table is a permutation of all keywords, or it repeats one, or it leaves some out. -/
theorem perm_or_exists_repeatsFirst_or_exists_isMissing (table : List Keyword) :
    table.Perm all ∨ (∃ keyword, RepeatsFirst table keyword) ∨
      table.Nodup ∧ ∃ missing, IsMissing table missing ∧ missing ≠ [] := by
  by_cases hnodup : table.Nodup
  · by_cases hlength : table.length = all.length
    · exact .inl (Ranking.perm_of_nodup_of_length_le mem_all hnodup (Nat.le_of_eq hlength.symm))
    · have hne := Ranking.filter_notMem_ne_nil nodup_all mem_all hnodup hlength
      exact .inr (.inr ⟨hnodup, _, isMissing_iff.2 rfl, hne⟩)
  · exact .inr (.inl (Ranking.exists_repeatsFirst hnodup))

theorem orderOfTable_eq_error_iff {refusal : Refusal} :
    orderOfTable table = .error refusal ↔
      (∃ keyword, RepeatsFirst table keyword ∧ refusal = .repeatedKeyword keyword) ∨
      table.Nodup ∧ ∃ missing, IsMissing table missing ∧ missing ≠ [] ∧
        refusal = .missingKeywords missing := by
  constructor
  · intro herror
    rcases perm_or_exists_repeatsFirst_or_exists_isMissing table with
      hperm | ⟨keyword, hkeyword⟩ | ⟨hnodup, missing, hmissing, hne⟩
    · rw [orderOfTable_eq_ok_iff.2 ⟨hperm, rfl⟩] at herror
      cases herror
    · rw [orderOfTable_of_repeatsFirst hkeyword] at herror
      cases herror
      exact .inl ⟨keyword, hkeyword, rfl⟩
    · rw [orderOfTable_of_isMissing hnodup hmissing hne] at herror
      cases herror
      exact .inr ⟨hnodup, missing, hmissing, hne, rfl⟩
  · rintro (⟨keyword, hkeyword, rfl⟩ | ⟨hnodup, missing, hmissing, hne, rfl⟩)
    · exact orderOfTable_of_repeatsFirst hkeyword
    · exact orderOfTable_of_isMissing hnodup hmissing hne

theorem lawful_of_orderOfTable {order : Ranking Keyword} (h : orderOfTable table = .ok order) :
    order.Lawful all.length := by
  obtain ⟨hperm, rfl⟩ := orderOfTable_eq_ok_iff.1 h
  exact (Ranking.isListing_ofList nodup_all mem_all hperm).lawful

end Keyword

theorem Category.nodup_all : all.Nodup := by decide

theorem Arrangement.ofTable_eq_ok_iff {table : List Category} {byName : Bool}
    {arrangement : Arrangement} :
    ofTable table byName = .ok arrangement ↔
      table.Perm Category.all ∧ arrangement = ⟨.ofList table, byName, Text.compareNames⟩ := by
  rw [Ranking.perm_iff_firstRepeat? Category.nodup_all Category.mem_all, ofTable]
  cases Ranking.firstRepeat? [] table with
  | some category => simp
  | none => by_cases hlength : table.length = Category.all.length <;> simp [hlength, eq_comm]

/-- **Tables of keywords and tables of categories.** A table is accepted when it is a permutation of
all there are, and then it is itself the order, from the first rank to the last. Of keywords, the
first that comes again is reported, or else all that are missing, in their usual order. -/
theorem exists_orderOfTable_iff_perm :
    (∀ table : List Keyword,
      ((∃ order, Keyword.orderOfTable table = .ok order) ↔ table.Perm Keyword.all) ∧
      (∀ order, Keyword.orderOfTable table = .ok order →
        order.IsListing table Keyword.all.length) ∧
      ∀ refusal, Keyword.orderOfTable table = .error refusal ↔
        (∃ keyword, RepeatsFirst table keyword ∧ refusal = .repeatedKeyword keyword) ∨
        table.Nodup ∧ ∃ missing, Keyword.IsMissing table missing ∧ missing ≠ [] ∧
          refusal = .missingKeywords missing) ∧
    (∀ keyword, (Refusal.repeatedKeyword keyword).message =
      "Invalid argument: " ++
        ("modifier `" ++ keyword.text ++ "` appears twice in the order table")) ∧
    (∀ missing, (Refusal.missingKeywords missing).message =
      "Invalid argument: " ++
        ("order table is missing modifiers: " ++ ", ".intercalate (missing.map (·.text)))) ∧
    ∀ (table : List Category) (byName : Bool),
      ((∃ arrangement, Arrangement.ofTable table byName = .ok arrangement) ↔
        table.Perm Category.all) ∧
      ∀ arrangement, Arrangement.ofTable table byName = .ok arrangement →
        arrangement.ranking.IsListing table Category.all.length ∧ arrangement.byName = byName := by
  refine ⟨fun table => ⟨?_, ?_, fun refusal => Keyword.orderOfTable_eq_error_iff⟩,
    fun keyword => rfl, fun missing => rfl, ?_⟩
  · simp [Keyword.orderOfTable_eq_ok_iff]
  · intro order horder
    obtain ⟨hperm, rfl⟩ := Keyword.orderOfTable_eq_ok_iff.1 horder
    exact Ranking.isListing_ofList Keyword.nodup_all Keyword.mem_all hperm
  · intro table byName
    constructor
    · simp [Arrangement.ofTable_eq_ok_iff]
    · intro arrangement harrangement
      obtain ⟨hperm, rfl⟩ := Arrangement.ofTable_eq_ok_iff.1 harrangement
      exact ⟨Ranking.isListing_ofList Category.nodup_all Category.mem_all hperm, rfl⟩

/-- Both lists backwards, a table with two repeats, and one that leaves out two keywords. -/
theorem exists_orderOfTable_iff_perm_backwards :
    ∃ (order : Ranking Keyword) (arrangement : Arrangement),
      Keyword.orderOfTable Keyword.all.reverse = .ok order ∧
      order.IsListing Keyword.all.reverse Keyword.all.length ∧ order.rank .partialKw = 0 ∧
      Arrangement.ofTable Category.all.reverse true = .ok arrangement ∧
      arrangement.ranking.IsListing Category.all.reverse Category.all.length ∧
      arrangement.byName = true ∧
      Keyword.orderOfTable [.newKw, .publicKw, .staticKw, .publicKw, .newKw] =
        .error (.repeatedKeyword .publicKw) ∧
      Keyword.orderOfTable (Keyword.all.reverse.filter (· ∉ [.asyncKw, .constKw])) =
        .error (.missingKeywords [.constKw, .asyncKw]) := by
  obtain ⟨hkeywords, -, -, hcategories⟩ := exists_orderOfTable_iff_perm
  obtain ⟨order, horder⟩ := (hkeywords Keyword.all.reverse).1.2 (List.reverse_perm _)
  obtain ⟨arrangement, harrangement⟩ :=
    (hcategories Category.all.reverse true).1.2 (List.reverse_perm _)
  have hlisting := (hkeywords Keyword.all.reverse).2.1 order horder
  have hranking := (hcategories Category.all.reverse true).2 arrangement harrangement
  have hrank : order.rank .partialKw = 0 := hlisting.rank_getElem 0 (by decide)
  refine ⟨order, arrangement, horder, hlisting, hrank, harrangement, hranking.1, hranking.2, ?_, ?_⟩
  · refine ((hkeywords _).2.2 _).2 (.inl ⟨.publicKw, ?_, rfl⟩)
    exact ⟨[.newKw, .publicKw, .staticKw], [.newKw], rfl, by decide, by decide⟩
  · refine ((hkeywords _).2.2 _).2 (.inr ⟨by decide, [.constKw, .asyncKw], ?_, by decide, rfl⟩)
    exact Keyword.isMissing_iff.2 (by decide)

end DeclEdit
