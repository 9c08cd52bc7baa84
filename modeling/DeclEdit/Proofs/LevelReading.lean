import DeclEdit.Accessibility.Reading
import DeclEdit.Header.Keywords
import DeclEdit.Proofs.InsertionIndex
import Mathlib.Data.List.Permutation

/-!
# What a reading says

A reading cuts the keywords at the one or two that it reads; in front of the first one nothing
speaks of visibility. Which level is read depends on the visibility keywords alone, and where these
spell a level it is that one.
-/

namespace DeclEdit

namespace Accessibility

/-- The visibility keywords are those of some level: none, a single one, or a pair that spells a
compound level, in either order and wherever they stand. -/
def WellSpelled (keywords : List Keyword) : Prop := ∃ level : Accessibility, level.Spells keywords

theorem wellSpelled_iff {keywords : List Keyword} :
    WellSpelled keywords ↔ keywords.filter Keyword.isVisibility = [] ∨
      (∃ keyword, keywords.filter Keyword.isVisibility = [keyword]) ∨
      (keywords.filter Keyword.isVisibility).Perm [.privateKw, .protectedKw] ∨
      (keywords.filter Keyword.isVisibility).Perm [.protectedKw, .internalKw] := by
  constructor
  · rintro ⟨level, h⟩
    unfold Spells at h
    cases level
    case notApplicable => exact .inl h.eq_nil
    case protectedAndInternal => exact .inr (.inr (.inl h))
    case protectedOrInternal => exact .inr (.inr (.inr h))
    all_goals exact .inr (.inl ⟨_, h.eq_singleton⟩)
  · rintro (h | ⟨keyword, h⟩ | h | h)
    · exact ⟨notApplicable, .of_eq h⟩
    · have hkeyword : keyword.isVisibility = true :=
        (List.mem_filter.1 (h ▸ List.mem_singleton_self keyword)).2
      cases keyword <;> simp only [Keyword.isVisibility, Bool.false_eq_true] at hkeyword
      case publicKw => exact ⟨publicAccess, .of_eq h⟩
      case privateKw => exact ⟨privateAccess, .of_eq h⟩
      case protectedKw => exact ⟨protectedAccess, .of_eq h⟩
      case internalKw => exact ⟨internalAccess, .of_eq h⟩
    · exact ⟨protectedAndInternal, h⟩
    · exact ⟨protectedOrInternal, h⟩

theorem isVisibility_of_mem_keywords {level : Accessibility} {keyword : Keyword}
    (h : keyword ∈ level.keywords) : keyword.isVisibility = true := by
  cases level <;> simp only [keywords, List.mem_cons, List.not_mem_nil, or_false] at h
  case protectedAndInternal | protectedOrInternal => rcases h with rfl | rfl <;> rfl
  all_goals subst h; rfl

/-! ### Where the keywords of the level stand -/

/-- The keywords that the reading found, and what stands around them. -/
inductive Reading.Found (reading : Reading) (keywords : List Keyword) : Prop
  | single (before after : List Keyword) (keyword : Keyword)
      (hkeywords : keywords = before ++ keyword :: after)
      (hbefore : ∀ other ∈ before, other.isVisibility = false)
      (hfirst : reading.first = before.length) (hsecond : reading.second = none)
      (hlevel : reading.level.keywords = [keyword])
  | pair (before between after : List Keyword) (keyword partner : Keyword)
      (hkeywords : keywords = before ++ keyword :: (between ++ partner :: after))
      (hbefore : ∀ other ∈ before, other.isVisibility = false) (hbetween : partner ∉ between)
      (hfirst : reading.first = before.length)
      (hsecond : reading.second = some (before.length + 1 + between.length))
      (hlevel : [keyword, partner].Perm reading.level.keywords)

theorem readFrom?_eq_none_iff {keyword : Keyword} {rest : List Keyword} :
    readFrom? keyword rest = none ↔ keyword.isVisibility = false := by
  cases keyword <;> simp [readFrom?, Keyword.isVisibility]

theorem found_of_readFrom? {keyword : Keyword} {rest : List Keyword} {reading : Reading}
    (h : readFrom? keyword rest = some reading) : reading.Found (keyword :: rest) := by
  have hsingle : ∀ level : Accessibility, level.keywords = [keyword] →
      (⟨level, 0, none⟩ : Reading).Found (keyword :: rest) :=
    fun level hlevel => .single [] rest keyword rfl nofun rfl rfl hlevel
  have hpair : ∀ (partner : Keyword) (level : Accessibility) (found : Reading),
      [keyword, partner].Perm level.keywords →
      (rest.findIdx? fun other => decide (other = partner)).map
        (fun index => (⟨level, 0, some (index + 1)⟩ : Reading)) = some found →
      found.Found (keyword :: rest) := by
    intro partner level found hlevel hfound
    obtain ⟨index, hindex, rfl⟩ := Option.map_eq_some_iff.1 hfound
    obtain ⟨between, second, after, rfl, rfl, hsecond, hbetween⟩ := exists_split_of_findIdx? hindex
    obtain rfl : second = partner := of_decide_eq_true hsecond
    have hbetween : second ∉ between := fun hmem =>
      of_decide_eq_false (hbetween second hmem) rfl
    refine .pair [] between after keyword second rfl nofun hbetween rfl ?_ hlevel
    simp [Nat.add_comm]
  cases keyword <;> simp only [readFrom?, Option.orElse_eq_orElse, Option.orElse_eq_or,
    Option.or_eq_some_iff, Option.some.injEq, reduceCtorEq] at h
  case publicKw => exact h ▸ hsingle _ rfl
  case privateKw =>
    rcases h with h | ⟨-, rfl⟩
    · exact hpair _ _ _ (.refl _) h
    · exact hsingle _ rfl
  case protectedKw =>
    rcases h with h | ⟨-, h | ⟨-, rfl⟩⟩
    · exact hpair _ _ _ (.refl _) h
    · exact hpair _ _ _ (.swap ..) h
    · exact hsingle _ rfl
  case internalKw =>
    rcases h with h | ⟨-, rfl⟩
    · exact hpair _ _ _ (.swap ..) h
    · exact hsingle _ rfl

theorem Reading.Found.shift {reading : Reading} {keyword : Keyword} {rest : List Keyword}
    (hkeyword : keyword.isVisibility = false) (h : reading.Found rest) :
    reading.shift.Found (keyword :: rest) := by
  cases h with
  | single before after first hkeywords hbefore hfirst hsecond hlevel =>
    refine .single (keyword :: before) after first (by rw [hkeywords]; rfl)
      (List.forall_mem_cons.2 ⟨hkeyword, hbefore⟩) ?_ ?_ hlevel
    · simp [Reading.shift, hfirst]
    · simp [Reading.shift, hsecond]
  | pair before between after first partner hkeywords hbefore hbetween hfirst hsecond hlevel =>
    refine .pair (keyword :: before) between after first partner (by rw [hkeywords]; rfl)
      (List.forall_mem_cons.2 ⟨hkeyword, hbefore⟩) hbetween ?_ ?_ hlevel
    · simp [Reading.shift, hfirst]
    · simp only [Reading.shift, hsecond, Option.map_some, List.length_cons]
      congr 1
      omega

theorem found_of_read? {keywords : List Keyword} {reading : Reading}
    (h : read? keywords = some reading) : reading.Found keywords := by
  induction keywords generalizing reading with
  | nil => cases h
  | cons keyword rest ih =>
    simp only [read?, Option.orElse_eq_orElse, Option.orElse_eq_or, Option.or_eq_some_iff,
      Option.map_eq_some_iff] at h
    rcases h with h | ⟨hnone, found, hfound, rfl⟩
    · exact found_of_readFrom? h
    · exact (ih hfound).shift (readFrom?_eq_none_iff.1 hnone)

theorem Reading.Found.first_lt_length {reading : Reading} {keywords : List Keyword}
    (h : reading.Found keywords) : reading.first < keywords.length := by
  cases h with
  | single _ _ _ hkeywords _ hfirst _ _ =>
    rw [hkeywords, hfirst, List.length_append, List.length_cons]
    omega
  | pair _ _ _ _ _ hkeywords _ _ hfirst _ _ =>
    rw [hkeywords, hfirst, List.length_append, List.length_cons]
    omega

/-- The partner stands behind the first keyword. -/
theorem Reading.Found.second_bounds {reading : Reading} {keywords : List Keyword} {second : Nat}
    (h : reading.Found keywords) (hsecond : reading.second = some second) :
    reading.first < second ∧ second < keywords.length := by
  cases h with
  | single _ _ _ _ _ _ hnone _ =>
    rw [hnone] at hsecond
    cases hsecond
  | pair before between after keyword partner hkeywords _ _ hfirst hpartner _ =>
    obtain rfl := Option.some.inj (hpartner.symm.trans hsecond)
    rw [hkeywords, hfirst]
    simp only [List.length_append, List.length_cons]
    omega

/-- What stands in front of the first visibility keyword only shifts the reading. -/
theorem read?_append {before behind : List Keyword} {keyword : Keyword} {reading : Reading}
    (hbefore : ∀ other ∈ before, other.isVisibility = false)
    (hreading : readFrom? keyword behind = some reading) :
    read? (before ++ keyword :: behind) = some (Reading.shift^[before.length] reading) := by
  induction before with
  | nil => simp [read?, hreading]
  | cons other rest ih =>
    obtain ⟨hother, hrest⟩ := List.forall_mem_cons.1 hbefore
    rw [List.cons_append, read?, ih hrest, readFrom?_eq_none_iff.2 hother, List.length_cons,
      Function.iterate_succ_apply']
    rfl

/-! ### Which level is read -/

/-- Of what stands behind the first keyword, only the visibility keywords matter, and only whether
they are there. -/
theorem map_level_readFrom?_congr (keyword : Keyword) {rest others : List Keyword}
    (h : ∀ partner, partner.isVisibility = true → (partner ∈ rest ↔ partner ∈ others)) :
    (readFrom? keyword rest).map (·.level) = (readFrom? keyword others).map (·.level) := by
  have hpairing : ∀ (partner : Keyword) (level : Accessibility) (keywords : List Keyword),
      ((keywords.findIdx? fun other => decide (other = partner)).map
        fun index => (⟨level, 0, some (index + 1)⟩ : Reading)).map (·.level) =
        if partner ∈ keywords then some level else none := by
    intro partner level keywords
    split
    · next hmem =>
      obtain ⟨index, hindex⟩ : ∃ index, keywords.findIdx? (fun other => decide (other = partner)) =
          some index := by
        rw [← Option.isSome_iff_exists, List.findIdx?_isSome]
        simpa using hmem
      rw [hindex]
      rfl
    · next hmem =>
      rw [List.findIdx?_eq_none_iff.2]
      · rfl
      · intro other hother
        exact decide_eq_false fun heq => hmem (heq ▸ hother)
  cases keyword <;> simp only [readFrom?, Option.orElse_eq_orElse, Option.orElse_eq_or,
    Option.map_or, hpairing, h .privateKw rfl, h .protectedKw rfl, h .internalKw rfl]

theorem map_level_read?_filter (keywords : List Keyword) :
    (read? (keywords.filter Keyword.isVisibility)).map (·.level) =
      (read? keywords).map (·.level) := by
  have hshift : ∀ reading? : Option Reading,
      (reading?.map Reading.shift).map (·.level) = reading?.map (·.level) := by
    intro reading?
    cases reading? <;> rfl
  induction keywords with
  | nil => rfl
  | cons keyword rest ih =>
    by_cases hkeyword : keyword.isVisibility = true
    · rw [List.filter_cons_of_pos hkeyword]
      simp only [read?, Option.orElse_eq_orElse, Option.orElse_eq_or, Option.map_or, hshift, ih]
      congr 1
      refine map_level_readFrom?_congr keyword fun partner hpartner => ?_
      rw [List.mem_filter, and_iff_left hpartner]
    · rw [List.filter_cons_of_neg hkeyword, ih]
      have hnone : readFrom? keyword rest = none :=
        readFrom?_eq_none_iff.2 (Bool.not_eq_true _ ▸ hkeyword)
      simp only [read?, hnone, Option.orElse_eq_orElse, Option.orElse_eq_or, Option.none_or, hshift]

/-- The level depends on the visibility keywords alone. -/
theorem ofKeywords_filter_isVisibility (keywords : List Keyword) :
    ofKeywords (keywords.filter Keyword.isVisibility) = ofKeywords keywords := by
  rw [ofKeywords, ofKeywords, map_level_read?_filter]

theorem Spells.ofKeywords_eq {level : Accessibility} {keywords : List Keyword}
    (h : level.Spells keywords) : ofKeywords keywords = level := by
  rw [← ofKeywords_filter_isVisibility]
  unfold Spells at h
  generalize keywords.filter Keyword.isVisibility = visible at h
  cases level <;> simp only [Accessibility.keywords, List.perm_nil, List.perm_singleton,
    List.perm_pair] at h
  case protectedAndInternal | protectedOrInternal => rcases h with rfl | rfl <;> rfl
  all_goals subst h; rfl

theorem read?_eq_none_iff {keywords : List Keyword} :
    read? keywords = none ↔ ∀ keyword ∈ keywords, keyword.isVisibility = false := by
  induction keywords with
  | nil => simp [read?]
  | cons keyword rest ih =>
    simp only [read?, Option.orElse_eq_orElse, Option.orElse_eq_or, Option.or_eq_none_iff,
      readFrom?_eq_none_iff, Option.map_eq_none_iff, ih, List.forall_mem_cons]

theorem filter_isVisibility_eq_nil {keywords : List Keyword} (h : read? keywords = none) :
    keywords.filter Keyword.isVisibility = [] := by
  apply List.filter_eq_nil_iff.2
  intro keyword hkeyword
  simp [read?_eq_none_iff.1 h keyword hkeyword]

theorem level_eq_ofKeywords {keywords : List Keyword} {reading : Reading}
    (h : read? keywords = some reading) : reading.level = ofKeywords keywords := by
  rw [ofKeywords, h]
  rfl

theorem read?_eq_none_of_ofKeywords {keywords : List Keyword}
    (h : ofKeywords keywords = notApplicable) : read? keywords = none := by
  cases hread : read? keywords with
  | none => rfl
  | some reading =>
    have hlevel : reading.level = notApplicable := (level_eq_ofKeywords hread).trans h
    cases found_of_read? hread with
    | single _ _ _ _ _ _ _ hkeywords =>
      rw [hlevel] at hkeywords
      cases hkeywords
    | pair _ _ _ _ _ _ _ _ _ _ hkeywords =>
      rw [hlevel] at hkeywords
      exact absurd hkeywords.length_eq (Nat.succ_ne_zero _)

/-! ### Where the keywords spell a level -/

/-- The keywords that say nothing of visibility. -/
def others (keywords : List Keyword) : List Keyword :=
  keywords.filter fun keyword => !keyword.isVisibility

theorem others_append (first second : List Keyword) :
    others (first ++ second) = others first ++ others second :=
  List.filter_append _ _

theorem others_cons_of_isVisibility {keyword : Keyword} (h : keyword.isVisibility = true)
    (rest : List Keyword) : others (keyword :: rest) = others rest :=
  List.filter_cons_of_neg (by simp [h])

theorem others_eq_self {keywords : List Keyword}
    (h : keywords.filter Keyword.isVisibility = []) : others keywords = keywords := by
  apply List.filter_eq_self.2
  intro keyword hkeyword
  simpa using List.filter_eq_nil_iff.1 h keyword hkeyword

theorem filter_others (keywords : List Keyword) :
    (others keywords).filter Keyword.isVisibility = [] := by
  apply List.filter_eq_nil_iff.2
  intro keyword hkeyword
  simpa using (List.mem_filter.1 hkeyword).2

theorem others_others (keywords : List Keyword) : others (others keywords) = others keywords :=
  others_eq_self (filter_others keywords)

theorem Spells.filter_eq_nil_of_single {level written : Accessibility}
    {before after : List Keyword} {keyword : Keyword}
    (h : level.Spells (before ++ keyword :: after)) (hwritten : written.keywords = [keyword])
    (hlevel : written = level) :
    before.filter Keyword.isVisibility = [] ∧ after.filter Keyword.isVisibility = [] := by
  have hkeyword : keyword.isVisibility = true :=
    isVisibility_of_mem_keywords (hwritten ▸ List.mem_singleton_self keyword)
  have hlength := h.length_eq
  rw [← hlevel, hwritten, List.filter_append, List.filter_cons_of_pos hkeyword] at hlength
  simp only [List.length_append, List.length_cons, List.length_nil] at hlength
  exact ⟨List.eq_nil_of_length_eq_zero (by omega), List.eq_nil_of_length_eq_zero (by omega)⟩

theorem Spells.filter_eq_nil_of_pair {level written : Accessibility}
    {before between after : List Keyword} {keyword partner : Keyword}
    (h : level.Spells (before ++ keyword :: (between ++ partner :: after)))
    (hwritten : [keyword, partner].Perm written.keywords) (hlevel : written = level) :
    before.filter Keyword.isVisibility = [] ∧ between.filter Keyword.isVisibility = [] ∧
      after.filter Keyword.isVisibility = [] := by
  have hkeyword : keyword.isVisibility = true :=
    isVisibility_of_mem_keywords (hwritten.subset List.mem_cons_self)
  have hpartner : partner.isVisibility = true :=
    isVisibility_of_mem_keywords (hwritten.subset (.tail _ List.mem_cons_self))
  have hlength := h.length_eq
  rw [← hlevel, ← hwritten.length_eq, List.filter_append, List.filter_cons_of_pos hkeyword,
    List.filter_append, List.filter_cons_of_pos hpartner] at hlength
  simp only [List.length_append, List.length_cons, List.length_nil] at hlength
  exact ⟨List.eq_nil_of_length_eq_zero (by omega), List.eq_nil_of_length_eq_zero (by omega),
    List.eq_nil_of_length_eq_zero (by omega)⟩

/-- A swap of the one keyword that is written changes no keyword of another sort. -/
theorem others_set_first {written : Accessibility} {keywords : List Keyword} {first : Nat}
    {keyword : Keyword} (hread : read? keywords = some ⟨written, first, none⟩)
    (hkeyword : keyword.isVisibility = true) :
    others (keywords.set first keyword) = others keywords := by
  cases found_of_read? hread with
  | single before after old hkeywords _ hfirst _ hwritten =>
    obtain rfl : first = before.length := hfirst
    have hold : old.isVisibility = true :=
      isVisibility_of_mem_keywords (hwritten ▸ List.mem_singleton_self old)
    rw [hkeywords, List.set_append_right _ _ (Nat.le_refl _), Nat.sub_self, List.set_cons_zero,
      others_append, others_append, others_cons_of_isVisibility hkeyword,
      others_cons_of_isVisibility hold]
  | pair _ _ _ _ _ _ _ _ _ hsecond _ => cases hsecond

/-- A swap of the one keyword that is written changes the level and no other keyword. -/
theorem Spells.set_first {level written new : Accessibility} {keywords : List Keyword} {first : Nat}
    {keyword : Keyword} (h : level.Spells keywords)
    (hread : read? keywords = some ⟨written, first, none⟩) (hnew : new.keywords = [keyword]) :
    new.Spells (keywords.set first keyword) ∧
      others (keywords.set first keyword) = others keywords := by
  have hlevel : written = level := (level_eq_ofKeywords hread).trans h.ofKeywords_eq
  have hkeyword : keyword.isVisibility = true :=
    isVisibility_of_mem_keywords (hnew ▸ List.mem_singleton_self keyword)
  refine ⟨?_, others_set_first hread hkeyword⟩
  cases found_of_read? hread with
  | single before after old hkeywords _ hfirst _ hwritten =>
    obtain rfl : first = before.length := hfirst
    subst hkeywords
    obtain ⟨hbefore, hafter⟩ := h.filter_eq_nil_of_single hwritten hlevel
    rw [List.set_append_right _ _ (Nat.le_refl _), Nat.sub_self, List.set_cons_zero]
    unfold Spells
    rw [hnew, List.filter_append, List.filter_cons_of_pos hkeyword, hbefore, hafter]
    exact .refl _
  | pair _ _ _ _ _ _ _ _ _ hsecond _ => cases hsecond

end Accessibility

section Lists

variable {α : Type}

theorem eraseIdx_length_append_cons (before after : List α) (item : α) :
    (before ++ item :: after).eraseIdx before.length = before ++ after := by
  rw [List.eraseIdx_append_of_length_le (Nat.le_refl _), Nat.sub_self, List.eraseIdx_cons_zero]

/-- The second of two items goes first, so that the index of the other one stays. -/
theorem eraseIdx_eraseIdx_append_cons (before between after : List α) (first second : α) :
    ((before ++ first :: (between ++ second :: after)).eraseIdx
      (before.length + 1 + between.length)).eraseIdx before.length =
        before ++ (between ++ after) := by
  have hsplit : before ++ first :: (between ++ second :: after) =
      (before ++ first :: between) ++ second :: after := by simp
  have hindex : before.length + 1 + between.length = (before ++ first :: between).length := by
    simp only [List.length_append, List.length_cons]
    omega
  rw [hsplit, hindex, eraseIdx_length_append_cons, List.append_assoc, List.cons_append,
    eraseIdx_length_append_cons]

end Lists

namespace Header

open Accessibility (others Spells)

variable {header : Header} {level : Accessibility} {before between after : List Keyword}
  {keyword partner : Keyword}

theorem keywords_removeAccessibility_of_single
    (hread : Accessibility.read? header.keywords = some ⟨level, before.length, none⟩)
    (hkeywords : header.keywords = before ++ keyword :: after) :
    header.removeAccessibility.keywords = before ++ after := by
  simp only [removeAccessibility, hread]
  rw [keywords_removeAt, hkeywords, eraseIdx_length_append_cons]

theorem keywords_removeAccessibility_of_pair
    (hread : Accessibility.read? header.keywords =
      some ⟨level, before.length, some (before.length + 1 + between.length)⟩)
    (hkeywords : header.keywords = before ++ keyword :: (between ++ partner :: after)) :
    header.removeAccessibility.keywords = before ++ (between ++ after) := by
  simp only [removeAccessibility, hread]
  rw [keywords_removeAt, keywords_removeAt, hkeywords, eraseIdx_eraseIdx_append_cons]

/-- Whatever the visibility keywords are, only such keywords go. -/
theorem others_removeAccessibility (header : Header) :
    others header.removeAccessibility.keywords = others header.keywords := by
  cases hread : Accessibility.read? header.keywords with
  | none => simp only [removeAccessibility, hread]
  | some reading =>
    obtain ⟨written, first, second⟩ := reading
    cases Accessibility.found_of_read? hread with
    | single before after keyword hkeywords _ hfirst hsecond hwritten =>
      obtain rfl : first = before.length := hfirst
      obtain rfl : second = none := hsecond
      have hkeyword : keyword.isVisibility = true :=
        Accessibility.isVisibility_of_mem_keywords (hwritten ▸ List.mem_singleton_self keyword)
      rw [keywords_removeAccessibility_of_single hread hkeywords, hkeywords,
        Accessibility.others_append, Accessibility.others_append,
        Accessibility.others_cons_of_isVisibility hkeyword]
    | pair before between after keyword partner hkeywords _ _ hfirst hsecond hwritten =>
      obtain rfl : first = before.length := hfirst
      obtain rfl : second = some (before.length + 1 + between.length) := hsecond
      have hkeyword : keyword.isVisibility = true :=
        Accessibility.isVisibility_of_mem_keywords (hwritten.subset List.mem_cons_self)
      have hpartner : partner.isVisibility = true :=
        Accessibility.isVisibility_of_mem_keywords (hwritten.subset (.tail _ List.mem_cons_self))
      rw [keywords_removeAccessibility_of_pair hread hkeywords, hkeywords,
        Accessibility.others_append, Accessibility.others_append, Accessibility.others_append,
        Accessibility.others_cons_of_isVisibility hkeyword, Accessibility.others_append,
        Accessibility.others_cons_of_isVisibility hpartner]

/-- Where the keywords spell a level, all visibility keywords go and nothing else. -/
theorem keywords_removeAccessibility (h : level.Spells header.keywords) :
    header.removeAccessibility.keywords = others header.keywords := by
  have hvisible : header.removeAccessibility.keywords.filter Keyword.isVisibility = [] := by
    cases hread : Accessibility.read? header.keywords with
    | none =>
      simp only [removeAccessibility, hread]
      exact Accessibility.filter_isVisibility_eq_nil hread
    | some reading =>
      obtain ⟨written, first, second⟩ := reading
      have hlevel : written = level :=
        (Accessibility.level_eq_ofKeywords hread).trans h.ofKeywords_eq
      cases Accessibility.found_of_read? hread with
      | single before after keyword hkeywords _ hfirst hsecond hwritten =>
        obtain rfl : first = before.length := hfirst
        obtain rfl : second = none := hsecond
        obtain ⟨hbefore, hafter⟩ := (hkeywords ▸ h).filter_eq_nil_of_single hwritten hlevel
        rw [keywords_removeAccessibility_of_single hread hkeywords, List.filter_append, hbefore,
          hafter, List.append_nil]
      | pair before between after keyword partner hkeywords _ _ hfirst hsecond hwritten =>
        obtain rfl : first = before.length := hfirst
        obtain rfl : second = some (before.length + 1 + between.length) := hsecond
        obtain ⟨hbefore, hbetween, hafter⟩ :=
          (hkeywords ▸ h).filter_eq_nil_of_pair hwritten hlevel
        rw [keywords_removeAccessibility_of_pair hread hkeywords, List.filter_append,
          List.filter_append, hbefore, hbetween, hafter, List.append_nil, List.append_nil]
  rw [← others_removeAccessibility, Accessibility.others_eq_self hvisible]

end Header

end DeclEdit
