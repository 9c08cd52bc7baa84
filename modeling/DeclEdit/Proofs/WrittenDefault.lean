import DeclEdit.Proofs.LevelChange

/-!
# Writing the default level out

A declaration on which no level is written has its default level, unless an interface makes it
public. The members of an interface mostly take no level by default, so nothing is written on them.
Its fields and types do take one, which is not the public one: writing it out takes them what they
have from the interface. On every other declaration the default may be written without effect.
-/

namespace DeclEdit

namespace Accessibility

variable {declaration : Declaration} {parentKind? : Option Declaration.Kind}

/-- The members that an interface makes public and that have another level by default are its fields
and its types. -/
theorem isInterfaceMember_and_byDefault_iff :
    (isInterfaceMember declaration parentKind? = true ∧
        byDefault declaration parentKind? ≠ notApplicable ∧
        byDefault declaration parentKind? ≠ publicAccess) ↔
      parentKind? = some .interfaceType ∧ declaration.header.explicitInterface = none ∧
        (declaration.kind = .field ∨ declaration.kind.isType = true) := by
  by_cases hparent : parentKind? = some .interfaceType
  · by_cases hqualified : declaration.header.explicitInterface = none
    · subst hparent
      cases hkind : declaration.kind <;>
        simp [isInterfaceMember, byDefault, hqualified, hkind, Declaration.Kind.isType]
    · simp [isInterfaceMember, hqualified]
  · simp [isInterfaceMember, hparent]

/-- Where no level is written, an interface has the first word. Accessors, which go by their owner,
have no default. -/
theorem resolve_of_unwritten (hunwritten : declaration.header.accessibility = notApplicable)
    (hdefault : byDefault declaration parentKind? ≠ notApplicable) (ofOwner : Accessibility) :
    resolve declaration parentKind? ofOwner =
      if isInterfaceMember declaration parentKind? = true then publicAccess
      else byDefault declaration parentKind? := by
  have hkind : declaration.kind ≠ .accessor := by
    intro hkind
    apply hdefault
    simp only [byDefault, hkind]
  rw [resolve, if_neg (not_not_intro hunwritten), if_neg hkind]

end Accessibility

namespace Site

variable {order : Ranking Keyword} {site : Site}

/-- An interface makes its fields and types public, but only as long as no level is written. -/
structure PublicUnwritten (site : Site) : Prop where
  unwritten : site.declaration.header.accessibility = .notApplicable
  inInterface : site.parentKind? = some .interfaceType
  unqualified : site.declaration.header.explicitInterface = none
  kind : site.kind = .field ∨ site.kind.isType = true

theorem publicUnwritten_iff (hunwritten : site.declaration.header.accessibility = .notApplicable) :
    site.PublicUnwritten ↔
      Accessibility.isInterfaceMember site.declaration site.parentKind? = true ∧
        site.defaultAccessibility ≠ .notApplicable ∧ site.defaultAccessibility ≠ .publicAccess := by
  rw [defaultAccessibility, Accessibility.isInterfaceMember_and_byDefault_iff]
  constructor
  · rintro ⟨-, hparent, hqualified, hkind⟩
    exact ⟨hparent, hqualified, hkind⟩
  · rintro ⟨hparent, hqualified, hkind⟩
    exact ⟨hunwritten, hparent, hqualified, hkind⟩

theorem accessibility_of_unwritten
    (hunwritten : site.declaration.header.accessibility = .notApplicable)
    (hdefault : site.defaultAccessibility ≠ .notApplicable) :
    site.accessibility =
      if Accessibility.isInterfaceMember site.declaration site.parentKind? = true then .publicAccess
      else site.defaultAccessibility := by
  obtain ⟨declaration, enclosing⟩ := site
  cases enclosing <;> exact Accessibility.resolve_of_unwritten hunwritten hdefault _

theorem addAccessibility_of_written (hkind : site.kind.hasModifiers = true)
    (hwritten : site.declaration.header.accessibility ≠ .notApplicable) :
    site.addAccessibility order = .ok site.declaration := by
  refine Declaration.editHeader_eq_ok_iff.2 ⟨hkind, site.declaration.header, ?_,
    site.declaration.eta.symm⟩
  cases hread : Accessibility.read? site.declaration.header.keywords with
  | some reading => rfl
  | none =>
    refine absurd ?_ hwritten
    rw [Header.accessibility, Accessibility.ofKeywords, hread]
    rfl

/-- What is read afterwards is the default. If that is no level, nothing is written at all. -/
theorem exists_addAccessibility_of_unwritten (horder : order.Lawful Keyword.all.length)
    (hkind : site.kind.hasModifiers = true)
    (hunwritten : site.declaration.header.accessibility = .notApplicable) :
    ∃ header, site.addAccessibility order = .ok { site.declaration with header } ∧
      header.accessibility = site.defaultAccessibility ∧
      (site.defaultAccessibility = .notApplicable → header = site.declaration.header) := by
  have hread := Accessibility.read?_eq_none_of_ofKeywords hunwritten
  obtain ⟨header, hheader, hspells, -⟩ :=
    Header.exists_insertKeywords_of_level horder site.defaultAccessibility site.declaration.header
  rw [Accessibility.filter_isVisibility_eq_nil hread, List.append_nil] at hspells
  refine ⟨header, ?_, Accessibility.Spells.ofKeywords_eq hspells, ?_⟩
  · refine Declaration.editHeader_eq_ok_iff.2 ⟨hkind, header, ?_, rfl⟩
    rw [hread]
    exact hheader
  · intro hdefault
    rw [hdefault] at hheader
    exact (Except.ok.inj hheader).symm

/-- **Writing the default out changes nothing but on the fields and types of an interface.** It
always succeeds. The declaration has the same level as before, in the same place, exactly if it is
none of those that an interface makes public while no level is written on them. -/
theorem exists_addAccessibility (horder : order.Lawful Keyword.all.length)
    (hkind : site.kind.hasModifiers = true) :
    ∃ result, site.addAccessibility order = .ok result ∧
      (Site.accessibility ⟨result, site.enclosing⟩ = site.accessibility ↔
        ¬site.PublicUnwritten) := by
  by_cases hunwritten : site.declaration.header.accessibility = .notApplicable
  · obtain ⟨header, hheader, hread, hsame⟩ :=
      exists_addAccessibility_of_unwritten horder hkind hunwritten
    refine ⟨_, hheader, ?_⟩
    rw [publicUnwritten_iff hunwritten]
    by_cases hdefault : site.defaultAccessibility = .notApplicable
    · rw [hsame hdefault, site.declaration.eta]
      exact iff_of_true rfl fun h => h.2.1 hdefault
    · have hwritten : Site.accessibility ⟨{ site.declaration with header }, site.enclosing⟩ =
          site.defaultAccessibility :=
        (accessibility_of_written fun h => hdefault (hread.symm.trans h)).trans hread
      rw [hwritten, accessibility_of_unwritten hunwritten hdefault]
      split
      · next hmember => simp [hmember, hdefault]
      · next hmember => simp [hmember]
  · exact ⟨site.declaration, addAccessibility_of_written hkind hunwritten,
      iff_of_true rfl fun h => hunwritten h.unwritten⟩

/-- A class within a class is private before and after. -/
theorem accessibility_addAccessibility_nested :
    ∃ result, Site.addAccessibility Keyword.defaultOrder
        ⟨⟨.classType, ⟨[.spaced .staticKw], some (.plain "class"), none, some (.plain "Inner")⟩,
            [], []⟩,
          [⟨.classType, ⟨[], some (.plain "class"), none, some (.plain "Outer")⟩, [], []⟩]⟩ =
        .ok result ∧ result.header.keywords = [.privateKw, .staticKw] ∧
      Site.accessibility ⟨result,
        [⟨.classType, ⟨[], some (.plain "class"), none, some (.plain "Outer")⟩, [], []⟩]⟩ =
        .privateAccess := by
  let inner : Declaration :=
    ⟨.classType, ⟨[.spaced .staticKw], some (.plain "class"), none, some (.plain "Inner")⟩, [], []⟩
  let outer : Declaration :=
    ⟨.classType, ⟨[], some (.plain "class"), none, some (.plain "Outer")⟩, [], []⟩
  obtain ⟨result, hresult, hsame⟩ :=
    @exists_addAccessibility _ ⟨inner, [outer]⟩ Keyword.lawful_defaultOrder rfl
  have hplace : ¬PublicUnwritten ⟨inner, [outer]⟩ := fun h => absurd h.inInterface (by decide)
  refine ⟨result, hresult, ?_, hsame.2 hplace⟩
  obtain rfl := Except.ok.inj hresult
  rfl

/-- A class within an interface is public before and internal after. -/
theorem accessibility_addAccessibility_in_interface :
    ∃ result, Site.addAccessibility Keyword.defaultOrder
        ⟨⟨.classType, ⟨[], some (.plain "class"), none, some (.plain "C")⟩, [], []⟩,
          [⟨.interfaceType, ⟨[], some (.plain "interface"), none, some (.plain "I")⟩, [], []⟩]⟩ =
        .ok result ∧
      Site.accessibility
        ⟨⟨.classType, ⟨[], some (.plain "class"), none, some (.plain "C")⟩, [], []⟩,
          [⟨.interfaceType, ⟨[], some (.plain "interface"), none, some (.plain "I")⟩, [], []⟩]⟩ =
        .publicAccess ∧
      Site.accessibility ⟨result,
        [⟨.interfaceType, ⟨[], some (.plain "interface"), none, some (.plain "I")⟩, [], []⟩]⟩ =
        .internalAccess := by
  exact ⟨_, rfl, by decide, by decide⟩

end Site

end DeclEdit
