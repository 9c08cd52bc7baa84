import DeclEdit.Accessibility.Rules
import DeclEdit.Proofs.TreeShape

/-!
# Where a level may be written

There are five grounds on which a level may be written, and `Grounds` lists them. A declaration
without a level by default takes none, with two exceptions: an override may keep the one it has, and
an incomplete member takes what other members take. Nothing that stands in a struct takes a level
that mentions `protected`. An accessor is measured against its owner alone, so an accessor of a
struct's property may take such a level all the same.
-/

namespace DeclEdit

open Declaration (Kind)

namespace Site

variable {site : Site} {level : Accessibility} {ignoreOverride : Bool}

/-- Whether the declaration is an override does not matter, or it is none. -/
def FreeOfOverride (site : Site) (ignoreOverride : Bool) : Prop :=
  ignoreOverride = true ∨ site.declaration.header.hasKeyword .overrideKw = false

/-- Why a level may be written on a declaration that has modifiers. -/
inductive Grounds (site : Site) (level : Accessibility) (ignoreOverride : Bool) : Prop
  | kept (hignore : ignoreOverride = false)
      (hoverride : site.declaration.header.hasKeyword .overrideKw = true)
      (hlevel : level = site.declaration.header.accessibility)
  | withdrawn (hfree : site.FreeOfOverride ignoreOverride) (hlevel : level = .notApplicable)
  | onOperator (hfree : site.FreeOfOverride ignoreOverride)
      (hkind : site.kind = .operator ∨ site.kind = .conversionOperator)
      (hlevel : level = .publicAccess)
  | onAccessor (hfree : site.FreeOfOverride ignoreOverride) (hkind : site.kind = .accessor)
      (hlevel : level ≠ .notApplicable) (hadmits : site.admitsOnAccessor level = true)
  | here (hfree : site.FreeOfOverride ignoreOverride) (hlevel : level ≠ .notApplicable)
      (htakes : takesNoLevel site.kind = false)
      (hoperator : ¬(site.kind = .operator ∨ site.kind = .conversionOperator))
      (haccessor : site.kind ≠ .accessor)
      (hdefault : ¬(levelNeedsDefault site.kind = true ∧
        site.defaultAccessibility = .notApplicable))
      (hadmits : site.admitsHere level = true)

theorem allows_of_override (hkind : site.kind.hasModifiers = true)
    (hoverride : site.declaration.header.hasKeyword .overrideKw = true) :
    site.allows level false = decide (level = site.declaration.header.accessibility) := by
  simp [allows, hkind, hoverride]

theorem FreeOfOverride.allows_eq (hfree : site.FreeOfOverride ignoreOverride)
    (hkind : site.kind.hasModifiers = true) :
    site.allows level ignoreOverride =
      if level = .notApplicable then true
      else if takesNoLevel site.kind then false
      else if site.kind = .operator ∨ site.kind = .conversionOperator then
        decide (level = .publicAccess)
      else if site.kind = .accessor then site.admitsOnAccessor level
      else if levelNeedsDefault site.kind ∧ site.defaultAccessibility = .notApplicable then false
      else site.admitsHere level := by
  have hgate : (!ignoreOverride && site.declaration.header.hasKeyword .overrideKw) = false := by
    rcases hfree with rfl | hnone
    · rfl
    · rw [hnone, Bool.and_false]
  simp [allows, hkind, hgate]

/-- Whether overrides matter is settled first, then the kind decides which test the level has to
pass. -/
theorem allows_eq_true_iff : site.allows level ignoreOverride = true ↔
    site.kind.hasModifiers = true ∧ site.Grounds level ignoreOverride := by
  by_cases hkind : site.kind.hasModifiers = true
  swap
  · simp [allows, hkind]
  rw [and_iff_right hkind]
  constructor
  · intro hallows
    by_cases hfree : site.FreeOfOverride ignoreOverride
    · rw [hfree.allows_eq hkind] at hallows
      split at hallows
      · next hlevel => exact .withdrawn hfree hlevel
      next hlevel =>
      split at hallows
      · cases hallows
      next htakes =>
      split at hallows
      · next hoperator => exact .onOperator hfree hoperator (of_decide_eq_true hallows)
      next hoperator =>
      split at hallows
      · next haccessor => exact .onAccessor hfree haccessor hlevel hallows
      next haccessor =>
      split at hallows
      · cases hallows
      next hdefault =>
      exact .here hfree hlevel (Bool.not_eq_true _ ▸ htakes) hoperator haccessor hdefault hallows
    · simp only [FreeOfOverride, not_or, Bool.not_eq_true, Bool.not_eq_false] at hfree
      obtain ⟨rfl, hoverride⟩ := hfree
      rw [allows_of_override hkind hoverride] at hallows
      exact .kept rfl hoverride (of_decide_eq_true hallows)
  · intro hgrounds
    cases hgrounds with
    | kept hignore hoverride hlevel =>
      rw [hignore, allows_of_override hkind hoverride]
      exact decide_eq_true hlevel
    | withdrawn hfree hlevel => rw [hfree.allows_eq hkind, if_pos hlevel]
    | onOperator hfree hoperator hlevel =>
      rw [hfree.allows_eq hkind, hlevel]
      rcases hoperator with hoperator | hoperator <;> simp [hoperator, takesNoLevel]
    | onAccessor hfree haccessor hlevel hadmits =>
      rw [hfree.allows_eq hkind]
      simp [hlevel, haccessor, takesNoLevel, hadmits]
    | here hfree hlevel htakes hoperator haccessor hdefault hadmits =>
      rw [hfree.allows_eq hkind, if_neg hlevel, htakes, if_neg Bool.false_ne_true,
        if_neg hoperator, if_neg haccessor, if_neg hdefault, hadmits]

/-! ### Without a level by default -/

/-- The kinds that may have no level by default. An accessor has the level of its owner then, and an
incomplete member takes what other members take. -/
theorem kind_of_defaultAccessibility (h : site.defaultAccessibility = .notApplicable) :
    takesNoLevel site.kind = true ∨ levelNeedsDefault site.kind = true ∨ site.kind = .accessor ∨
      site.kind = .incompleteMember := by
  obtain ⟨⟨kind, header, members, accessors⟩, enclosing⟩ := site
  cases kind
  case classType | structType | interfaceType | enumType | delegateType =>
    simp only [defaultAccessibility, Accessibility.byDefault] at h
    split at h <;> cases h
  case field | operator | conversionOperator | enumMember | nameSpace => cases h
  case constructor | method | property | indexer | event | eventField => exact .inr (.inl rfl)
  case destructor | localDeclaration | localFunction | parameter => exact .inl rfl
  case accessor => exact .inr (.inr (.inl rfl))
  case incompleteMember => exact .inr (.inr (.inr rfl))

theorem hasModifiers_of_defaultAccessibility (h : site.defaultAccessibility = .notApplicable) :
    site.kind.hasModifiers = true := by
  rcases kind_of_defaultAccessibility h with h | h | h | h
  all_goals cases hkind : site.kind <;> simp_all [takesNoLevel, levelNeedsDefault, Kind.hasModifiers]

/-- **Where no level holds by default, none may be written.** Apart from accessors and incomplete
members, a declaration without a level by default takes a level in one case only: overrides are
looked at, it is one, and the level is the one that is written on it. -/
theorem allows_iff_of_defaultAccessibility (hdefault : site.defaultAccessibility = .notApplicable)
    (haccessor : site.kind ≠ .accessor) (hincomplete : site.kind ≠ .incompleteMember)
    (hlevel : level ≠ .notApplicable) (ignoreOverride : Bool) :
    site.allows level ignoreOverride = true ↔
      ignoreOverride = false ∧ site.declaration.header.hasKeyword .overrideKw = true ∧
        level = site.declaration.header.accessibility := by
  have hkind : takesNoLevel site.kind = true ∨ levelNeedsDefault site.kind = true := by
    have hkind := kind_of_defaultAccessibility hdefault
    tauto
  rw [allows_eq_true_iff, and_iff_right (hasModifiers_of_defaultAccessibility hdefault)]
  constructor
  · intro hgrounds
    cases hgrounds with
    | kept hignore hoverride hwritten => exact ⟨hignore, hoverride, hwritten⟩
    | withdrawn _ hnone => exact absurd hnone hlevel
    | onOperator _ hoperator _ =>
      rcases hoperator with hoperator | hoperator <;>
        simp [hoperator, takesNoLevel, levelNeedsDefault] at hkind
    | onAccessor _ hkind _ _ => exact absurd hkind haccessor
    | here _ _ htakes _ _ hneeds _ =>
      rcases hkind with hkind | hkind
      · rw [htakes] at hkind
        cases hkind
      · exact absurd ⟨hkind, hdefault⟩ hneeds
  · rintro ⟨hignore, hoverride, hwritten⟩
    exact .kept hignore hoverride hwritten

/-- A method of an interface that is marked as an override. -/
theorem allows_iff_of_defaultAccessibility_override :
    ∃ site : Site, site.kind = .method ∧ site.parentKind? = some .interfaceType ∧
      site.declaration.header.keywords = [.protectedKw, .overrideKw] ∧
      site.defaultAccessibility = .notApplicable ∧
      ∀ level ignoreOverride, level ≠ .notApplicable →
        (site.allows level ignoreOverride = true ↔
          ignoreOverride = false ∧ level = .protectedAccess) := by
  let site : Site := ⟨⟨.method, ⟨[.spaced .protectedKw, .spaced .overrideKw], some (.plain "void"),
    none, some (.plain "f")⟩, [], []⟩,
    [⟨.interfaceType, ⟨[], some (.plain "interface"), none, some (.plain "I")⟩, [], []⟩]⟩
  refine ⟨site, rfl, rfl, rfl, rfl, ?_⟩
  intro level ignoreOverride hlevel
  have hallows := @allows_iff_of_defaultAccessibility site level rfl nofun nofun hlevel
    ignoreOverride
  exact hallows.trans (and_congr_right fun _ => and_iff_right rfl)

/-- Both exceptions: an override keeps the level that is written on it, and an incomplete member
takes one. -/
theorem exists_allows_of_defaultAccessibility :
    ∃ overriding incomplete : Site,
      overriding.kind = .method ∧ overriding.defaultAccessibility = .notApplicable ∧
      overriding.allows .publicAccess false = true ∧
      incomplete.kind = .incompleteMember ∧ incomplete.defaultAccessibility = .notApplicable ∧
      incomplete.allows .publicAccess true = true :=
  ⟨⟨⟨.method, ⟨[.spaced .publicKw, .spaced .overrideKw], some (.plain "void"), none,
      some (.plain "f")⟩, [], []⟩,
    [⟨.interfaceType, ⟨[], some (.plain "interface"), none, some (.plain "I")⟩, [], []⟩]⟩,
   ⟨⟨.incompleteMember, ⟨[], some (.plain "int"), none, none⟩, [], []⟩,
    [⟨.classType, ⟨[], some (.plain "class"), none, some (.plain "C")⟩, [], []⟩]⟩,
   rfl, rfl, by decide, rfl, rfl, by decide⟩

/-! ### In a struct -/

/-- The kind of what the declaration belongs to: the nearest enclosing declaration that is no
property, indexer, event or accessor. -/
def holderKind? (site : Site) : Option Kind :=
  (site.enclosing.map (·.kind)).find? fun kind => !kind.hasAccessors && decide (kind ≠ .accessor)

/-- The declaration is one of a struct's own: it stands in the struct itself, or it is an accessor of
something that does. -/
inductive OfStruct (site : Site) : Prop
  | member (hparent : site.parentKind? = some .structType)
  | accessor (hkind : site.kind = .accessor) (hholder : site.holderKind? = some .structType)

theorem holderKind?_of_hasMembers {owner : Declaration} (howner : owner.kind.hasMembers = true)
    (declaration : Declaration) (outer : List Declaration) :
    holderKind? ⟨declaration, owner :: outer⟩ = some owner.kind := by
  have hholder : (!owner.kind.hasAccessors && decide (owner.kind ≠ .accessor)) = true := by
    cases hkind : owner.kind <;> simp_all [Kind.hasMembers, Kind.hasAccessors]
  exact List.find?_cons_of_pos hholder

/-- In a well-shaped declaration only accessors stand in something else than what they belong to. -/
theorem ofStruct_iff_holderKind? {declaration owner : Declaration} {outer : List Declaration}
    (howner : owner.WellShaped) (hpart : declaration ∈ owner.parts) :
    OfStruct ⟨declaration, owner :: outer⟩ ↔
      holderKind? ⟨declaration, owner :: outer⟩ = some .structType := by
  constructor
  · intro h
    cases h with
    | member hparent =>
      have hkind : owner.kind = .structType := Option.some.inj hparent
      rw [holderKind?_of_hasMembers (hkind ▸ rfl), hkind]
    | accessor _ hholder => exact hholder
  · intro hholder
    rcases List.mem_append.1 hpart with hmember | haccessor
    · have hmembers := Kind.hasMembers_of_holds (howner.members declaration hmember)
      rw [holderKind?_of_hasMembers hmembers] at hholder
      exact .member hholder
    · exact .accessor (howner.accessors declaration haccessor).2 hholder

theorem ne_of_mentions_protectedKw (h : level.mentions .protectedKw = true) :
    level ≠ .notApplicable ∧ level ≠ .publicAccess := by
  constructor <;> rintro rfl <;> cases h

theorem admitsHere_eq_false (hparent : site.parentKind? = some .structType)
    (hlevel : level.mentions .protectedKw = true) : site.admitsHere level = false := by
  simp [admitsHere, hparent, hlevel]

/-- **In a struct only accessors may be protected.** On one of a struct's own, a level that mentions
`protected` may be written exactly if it is an accessor whose owner is easier to reach than the
level. The test on accessors does not look for the struct, which the test on all else does. -/
theorem allows_protected_iff_of_ofStruct (hstruct : site.OfStruct)
    (hlevel : level.mentions .protectedKw = true) :
    site.allows level true = true ↔ site.kind = .accessor ∧
      ∃ owner outer, site.enclosing = owner :: outer ∧
        level.isNarrowerThan (Site.accessibility ⟨owner, outer⟩) = true := by
  obtain ⟨happlicable, hpublic⟩ := ne_of_mentions_protectedKw hlevel
  have hadmits : site.admitsOnAccessor level = true ↔ ∃ owner outer,
      site.enclosing = owner :: outer ∧
        level.isNarrowerThan (Site.accessibility ⟨owner, outer⟩) = true := by
    obtain ⟨declaration, enclosing⟩ := site
    cases enclosing with
    | nil => simp [admitsOnAccessor]
    | cons owner outer => simp [admitsOnAccessor, accessibility]
  rw [allows_eq_true_iff, ← hadmits]
  constructor
  · rintro ⟨-, hgrounds⟩
    cases hgrounds with
    | kept hignore => cases hignore
    | withdrawn _ hnone => exact absurd hnone happlicable
    | onOperator _ _ hwritten => exact absurd hwritten hpublic
    | onAccessor _ hkind _ hadmitted => exact ⟨hkind, hadmitted⟩
    | here _ _ _ _ haccessor _ hhere =>
      cases hstruct with
      | member hparent =>
        rw [admitsHere_eq_false hparent hlevel] at hhere
        cases hhere
      | accessor hkind => exact absurd hkind haccessor
  · rintro ⟨hkind, hadmitted⟩
    refine ⟨?_, .onAccessor (.inl rfl) hkind happlicable hadmitted⟩
    rw [hkind]
    rfl

/-- An internal property of a struct: `protected` reaches elsewhere than `internal` does, and
`private protected` reaches less far. -/
theorem allows_protected_iff_of_ofStruct_internal :
    ∃ site : Site, site.kind = .accessor ∧ site.OfStruct ∧
      site.allows .protectedAccess true = false ∧
      site.allows .protectedAndInternal true = true := by
  let struct : Declaration := ⟨.structType, ⟨[], some (.plain "struct"), none, some (.plain "S")⟩,
    [], []⟩
  let owner : Declaration := ⟨.property, ⟨[.spaced .internalKw], some (.plain "int"), none,
    some (.plain "P")⟩, [], []⟩
  let site : Site := ⟨⟨.accessor, ⟨[], some (.plain "get"), none, none⟩, [], []⟩, [owner, struct]⟩
  have hstruct : site.OfStruct := .accessor rfl rfl
  refine ⟨site, rfl, hstruct, ?_, ?_⟩
  · rw [← Bool.not_eq_true, allows_protected_iff_of_ofStruct hstruct rfl]
    rintro ⟨-, _, _, henclosing, hnarrower⟩
    cases henclosing
    exact absurd hnarrower (by decide)
  · exact (allows_protected_iff_of_ofStruct hstruct rfl).2 ⟨rfl, owner, [struct], rfl, by decide⟩

/-- On the accessor of a public property of a struct, `protected` may be written. -/
theorem exists_allows_protected_of_ofStruct :
    ∃ struct property accessor : Declaration,
      struct.kind = .structType ∧ property.kind = .property ∧ accessor.kind = .accessor ∧
      property ∈ struct.members ∧ accessor ∈ property.accessors ∧
      Site.OfStruct ⟨accessor, [property, struct]⟩ ∧
      Site.allows ⟨accessor, [property, struct]⟩ .protectedAccess true = true := by
  let accessor : Declaration := ⟨.accessor, ⟨[], some (.plain "get"), none, none⟩, [], []⟩
  let property : Declaration := ⟨.property, ⟨[.spaced .publicKw], some (.plain "int"), none,
    some (.plain "P")⟩, [], [accessor]⟩
  let struct : Declaration := ⟨.structType, ⟨[], some (.plain "struct"), none, some (.plain "S")⟩,
    [property], []⟩
  exact ⟨struct, property, accessor, rfl, rfl, rfl, List.mem_cons_self, List.mem_cons_self,
    .accessor rfl rfl, by decide⟩

end Site

end DeclEdit
