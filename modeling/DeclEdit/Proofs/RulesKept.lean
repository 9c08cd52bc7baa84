import DeclEdit.Proofs.LevelFrame

/-!
# The rules do not look at the level that is written

Which level holds by default and which ones may be written depends on the kind, the place and the
keywords that say nothing of visibility. So a change of level changes none of the answers, with one
exception: on an override, where only the level that is written may be written, another answer comes
with another level. A level that may be written before the change to it may be written afterwards in
any case.
-/

namespace DeclEdit

namespace Site

variable {start result : Declaration} {enclosing : List Declaration}

theorem allows_eq_of_sameButLevel (h : start.SameButLevel result) {ignoreOverride : Bool}
    (hoverride : ignoreOverride = true ∨ start.header.hasKeyword .overrideKw = false)
    (level : Accessibility) :
    Site.allows ⟨result, enclosing⟩ level ignoreOverride =
      Site.allows ⟨start, enclosing⟩ level ignoreOverride := by
  have hkind : Site.kind ⟨result, enclosing⟩ = Site.kind ⟨start, enclosing⟩ := h.kind
  have hfree : ∀ declaration : Declaration,
      declaration.header.hasKeyword .overrideKw = start.header.hasKeyword .overrideKw →
      (!ignoreOverride && declaration.header.hasKeyword .overrideKw) = false := by
    intro declaration hsame
    rw [hsame]
    rcases hoverride with rfl | hnone
    · rfl
    · rw [hnone, Bool.and_false]
  have hdefault : Site.defaultAccessibility ⟨result, enclosing⟩ =
      Site.defaultAccessibility ⟨start, enclosing⟩ := h.byDefault_eq _
  have hhere : Site.admitsHere ⟨result, enclosing⟩ level =
      Site.admitsHere ⟨start, enclosing⟩ level := by
    have hinheritable : [Keyword.abstractKw, .virtualKw, .overrideKw].any result.header.hasKeyword =
        [Keyword.abstractKw, .virtualKw, .overrideKw].any start.header.hasKeyword := by
      simp only [List.any_cons, List.any_nil]
      rw [h.hasKeyword_eq rfl, h.hasKeyword_eq rfl, h.hasKeyword_eq rfl]
    simp only [admitsHere, hinheritable]
    rfl
  simp only [allows, hkind, hfree result (h.hasKeyword_eq rfl), hfree start rfl, hdefault, hhere]
  rfl

variable {order : Ranking Keyword} {site : Site} {level : Accessibility}

theorem exists_changeAccessibility_eq_ok (horder : order.Lawful Keyword.all.length)
    (hkind : site.kind.hasModifiers = true) (level : Accessibility) :
    ∃ result, site.changeAccessibility order level = .ok result :=
  @ModifierEdit.exists_apply order (.changeAccessibility level) site horder hkind nofun

/-- An override allows the level that is written, which a change to it leaves there. -/
theorem eq_of_changeAccessibility_of_allows (hkind : site.kind.hasModifiers = true)
    (hoverride : site.declaration.header.hasKeyword .overrideKw = true)
    (hallowed : site.allows level false = true)
    (h : site.changeAccessibility order level = .ok result) : result = site.declaration := by
  have hwritten : level = site.declaration.header.accessibility := by
    simpa [allows, hkind, hoverride] using hallowed
  rw [changeAccessibility_of_present hkind (.inr hwritten)] at h
  exact (Except.ok.inj h).symm

/-- **The rules do not depend on the level that is written.** A change of level always succeeds, and
in the same place the result has the same default level. Every level may be written on the result if
and only if it might be written before, when overrides are not looked at or the declaration is none.
The new level itself is allowed afterwards if it was before, under either reading, whatever
visibility keywords there were. -/
theorem exists_changeAccessibility_same_rules (horder : order.Lawful Keyword.all.length)
    (hkind : site.kind.hasModifiers = true) (level : Accessibility) :
    ∃ result, site.changeAccessibility order level = .ok result ∧
      Site.defaultAccessibility ⟨result, site.enclosing⟩ = site.defaultAccessibility ∧
      (∀ other : Accessibility,
        Site.allows ⟨result, site.enclosing⟩ other true = site.allows other true) ∧
      (site.declaration.header.hasKeyword .overrideKw = false → ∀ other : Accessibility,
        Site.allows ⟨result, site.enclosing⟩ other false = site.allows other false) ∧
      ∀ ignoreOverride, site.allows level ignoreOverride = true →
        Site.allows ⟨result, site.enclosing⟩ level ignoreOverride = true := by
  obtain ⟨result, hresult⟩ := exists_changeAccessibility_eq_ok horder hkind level
  have hsame := sameButLevel_of_changeAccessibility horder hresult
  refine ⟨result, hresult, hsame.byDefault_eq _, ?_, ?_, ?_⟩
  · intro other
    exact allows_eq_of_sameButLevel hsame (.inl rfl) other
  · intro hoverride other
    exact allows_eq_of_sameButLevel hsame (.inr hoverride) other
  · intro ignoreOverride hallowed
    by_cases hfree : ignoreOverride = true ∨ site.declaration.header.hasKeyword .overrideKw = false
    · rw [allows_eq_of_sameButLevel hsame hfree]
      exact hallowed
    · simp only [not_or, Bool.not_eq_true, Bool.not_eq_false] at hfree
      obtain ⟨rfl, hoverride⟩ := hfree
      rw [eq_of_changeAccessibility_of_allows hkind hoverride hallowed hresult]
      exact hallowed

/-- Two visibility keywords that form no level on an override: one of them is read, and the change
takes that one away. -/
theorem exists_changeAccessibility_same_rules_malformed :
    ∃ declaration result : Declaration,
      declaration.header.keywords = [.publicKw, .overrideKw, .internalKw] ∧
      Site.changeAccessibility Keyword.defaultOrder .protectedAccess ⟨declaration, []⟩ =
        .ok result ∧
      result.header.keywords = [.protectedKw, .overrideKw, .internalKw] ∧
      ∀ other : Accessibility,
        Site.allows ⟨result, []⟩ other true = Site.allows ⟨declaration, []⟩ other true := by
  let declaration : Declaration := ⟨.method, ⟨[.spaced .publicKw, .spaced .overrideKw,
    .spaced .internalKw], some (.plain "void"), none, some (.plain "f")⟩, [], []⟩
  obtain ⟨result, hresult, -, hallows, -, -⟩ := @exists_changeAccessibility_same_rules _
    ⟨declaration, []⟩ Keyword.lawful_defaultOrder rfl .protectedAccess
  refine ⟨declaration, result, rfl, hresult, ?_, hallows⟩
  obtain rfl := Except.ok.inj hresult
  rfl

end Site

end DeclEdit
