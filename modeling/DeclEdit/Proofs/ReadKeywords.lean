import DeclEdit.Proofs.WordRuns

/-!
# Keywords are read run by run

Reading goes through the words of a text and ends at the first that is no keyword. As the words are
the runs of the text, what is accepted and what is named otherwise can be told from the text alone.
What has been read is read again from its written form, in which each keyword stands apart.
-/

namespace DeclEdit

/-- The characters are those of a keyword. -/
def Keyword.Spelled (word : List Char) : Prop :=
  ∃ keyword : Keyword, keyword.text = String.ofList word

/-- The run is no keyword, and all that start in front of it are. -/
structure Text.IsFirstUnread (text before word after : List Char) : Prop where
  run : IsRun text before word after
  unread : ¬Keyword.Spelled word
  earlier_spelled : ∀ start earlier rest, IsRun text start earlier rest →
    start.length < before.length → Keyword.Spelled earlier

namespace Modifier

open Text (Blank IsRun IsFirstUnread charWords)

/-- Words are keywords up to the end, or up to the first that is none. -/
theorem exists_keywords (words : List String) :
    (∃ keywords : List Keyword, words = keywords.map (·.text)) ∨
      ∃ (keywords : List Keyword) (word : String) (back : List String),
        words = keywords.map (·.text) ++ word :: back ∧
          ¬∃ keyword : Keyword, keyword.text = word := by
  induction words with
  | nil => exact .inl ⟨[], rfl⟩
  | cons word rest ih =>
    by_cases hword : ∃ keyword : Keyword, keyword.text = word
    · obtain ⟨keyword, rfl⟩ := hword
      rcases ih with ⟨keywords, rfl⟩ | ⟨keywords, other, back, rfl, hother⟩
      · exact .inl ⟨keyword :: keywords, rfl⟩
      · exact .inr ⟨keyword :: keywords, other, back, rfl, hother⟩
    · exact .inr ⟨[], word, rest, rfl, hword⟩

theorem readWord_of_unknown {word : String} (h : ¬∃ keyword : Keyword, keyword.text = word) :
    readWord word = .error (.unknownKeyword word) := by
  rw [readWord]
  cases hfound : Keyword.ofText? word with
  | none => rfl
  | some keyword => exact absurd ⟨keyword, Keyword.text_of_ofText? hfound⟩ h

section Reading

variable {text word : String} {keywords : List Keyword} {back : List String}

theorem readWords_of_keywords (h : Text.words text = keywords.map (·.text)) :
    readWords text = .ok (keywords.map spaced) := by
  rw [readWords, h, mapM_readWord_text]

theorem readWords_of_unknown (h : Text.words text = keywords.map (·.text) ++ word :: back)
    (hword : ¬∃ keyword : Keyword, keyword.text = word) :
    readWords text = .error (.unknownKeyword word) := by
  rw [readWords, h, List.mapM_append, mapM_readWord_text, List.mapM_cons,
    readWord_of_unknown hword]
  rfl

end Reading

theorem readWords_eq_ok_iff {text : String} {modifiers : List Modifier} :
    readWords text = .ok modifiers ↔
      ∃ keywords : List Keyword, Text.words text = keywords.map (·.text) ∧
        modifiers = keywords.map spaced := by
  constructor
  · intro h
    rcases exists_keywords (Text.words text) with
      ⟨keywords, hwords⟩ | ⟨keywords, word, back, hwords, hword⟩
    · rw [readWords_of_keywords hwords] at h
      cases h
      exact ⟨keywords, hwords, rfl⟩
    · rw [readWords_of_unknown hwords hword] at h
      cases h
  · rintro ⟨keywords, hwords, rfl⟩
    exact readWords_of_keywords hwords

theorem readWords_eq_error_iff {text : String} {refusal : Refusal} :
    readWords text = .error refusal ↔
      ∃ (keywords : List Keyword) (word : String) (back : List String),
        Text.words text = keywords.map (·.text) ++ word :: back ∧
          (¬∃ keyword : Keyword, keyword.text = word) ∧ refusal = .unknownKeyword word := by
  constructor
  · intro h
    rcases exists_keywords (Text.words text) with
      ⟨keywords, hwords⟩ | ⟨keywords, word, back, hwords, hword⟩
    · rw [readWords_of_keywords hwords] at h
      cases h
    · rw [readWords_of_unknown hwords hword] at h
      cases h
      exact ⟨keywords, word, back, hwords, hword, rfl⟩
  · rintro ⟨keywords, word, back, hwords, hword, rfl⟩
    exact readWords_of_unknown hwords hword

/-! ### Runs that are keywords -/

theorem exists_keywords_iff_spelled {runs : List (List Char)} :
    (∃ keywords : List Keyword, runs.map String.ofList = keywords.map (·.text)) ↔
      ∀ word ∈ runs, Keyword.Spelled word := by
  constructor
  · rintro ⟨keywords, hkeywords⟩ word hword
    have hmem := List.mem_map_of_mem (f := String.ofList) hword
    rw [hkeywords] at hmem
    obtain ⟨keyword, -, htext⟩ := List.mem_map.1 hmem
    exact ⟨keyword, htext⟩
  · intro hspelled
    rcases exists_keywords (runs.map String.ofList) with
      hkeywords | ⟨keywords, word, back, hwords, hword⟩
    · exact hkeywords
    · have hmem : word ∈ runs.map String.ofList := by simp [hwords]
      obtain ⟨run, hrun, rfl⟩ := List.mem_map.1 hmem
      exact absurd (hspelled run hrun) hword

theorem exists_readWords_iff_spelled {text : String} :
    (∃ modifiers, readWords text = .ok modifiers) ↔
      ∀ before word after, IsRun text.toList before word after → Keyword.Spelled word := by
  have hwords : (∃ modifiers, readWords text = .ok modifiers) ↔
      ∀ word ∈ charWords text.toList, Keyword.Spelled word := by
    rw [← exists_keywords_iff_spelled, ← Text.words_eq_map_charWords]
    simp only [readWords_eq_ok_iff]
    constructor
    · rintro ⟨modifiers, keywords, hkeywords, -⟩
      exact ⟨keywords, hkeywords⟩
    · rintro ⟨keywords, hkeywords⟩
      exact ⟨_, keywords, hkeywords, rfl⟩
  rw [hwords]
  constructor
  · intro h before word after hrun
    exact h word (Text.mem_charWords_iff.2 ⟨before, after, hrun⟩)
  · intro h word hword
    obtain ⟨before, after, hrun⟩ := Text.mem_charWords_iff.1 hword
    exact h before word after hrun

/-- What stands in front of the run is read. -/
theorem isFirstUnread_iff {text before word after : List Char} :
    IsFirstUnread text before word after ↔ IsRun text before word after ∧
      ¬Keyword.Spelled word ∧ ∀ earlier ∈ charWords before, Keyword.Spelled earlier := by
  constructor
  · rintro ⟨hrun, hunread, hspelled⟩
    refine ⟨hrun, hunread, ?_⟩
    intro earlier hearlier
    obtain ⟨start, between, hinner⟩ := Text.mem_charWords_iff.1 hearlier
    refine hspelled start earlier _ (hrun.of_before hinner) ?_
    have hpositive := List.length_pos_of_ne_nil hinner.ne_nil
    simp only [hinner.split, List.length_append]
    omega
  · rintro ⟨hrun, hunread, hspelled⟩
    refine ⟨hrun, hunread, ?_⟩
    intro start earlier rest hearlier hlt
    exact hspelled earlier (hrun.mem_charWords hearlier hlt)

theorem readWords_eq_error_iff_isFirstUnread {text : String} {refusal : Refusal} :
    readWords text = .error refusal ↔
      ∃ before word after, IsFirstUnread text.toList before word after ∧
        refusal = .unknownKeyword (String.ofList word) := by
  simp only [isFirstUnread_iff]
  rw [readWords_eq_error_iff, Text.words_eq_map_charWords]
  constructor
  · rintro ⟨keywords, word, back, hwords, hword, rfl⟩
    obtain ⟨front, rest, hsplit, hfront, hrest⟩ := List.map_eq_append_iff.1 hwords
    obtain ⟨run, others, rfl, rfl, -⟩ := List.map_eq_cons_iff.1 hrest
    obtain ⟨before, after, hrun, hbefore⟩ := Text.exists_isRun_of_charWords_eq hsplit
    refine ⟨before, run, after, ⟨hrun, hword, ?_⟩, rfl⟩
    rw [hbefore]
    exact exists_keywords_iff_spelled.1 ⟨keywords, hfront⟩
  · rintro ⟨before, word, after, ⟨hrun, hunread, hspelled⟩, rfl⟩
    obtain ⟨keywords, hkeywords⟩ := exists_keywords_iff_spelled.2 hspelled
    refine ⟨keywords, String.ofList word, (charWords after).map String.ofList, ?_, hunread, rfl⟩
    rw [hrun.charWords_eq, List.map_append, hkeywords, List.map_cons]

theorem readWords_joinWith {gaps : Nat → String} {front back : String} (keywords : List Keyword)
    (hgaps : ∀ index, Blank (gaps index) ∧ gaps index ≠ "") (hfront : Blank front)
    (hback : Blank back) :
    readWords (front ++ Text.joinWith gaps (keywords.map (·.text)) ++ back) =
      .ok (keywords.map spaced) := by
  apply readWords_of_keywords
  rw [String.append_assoc, Text.words_append_of_blank hfront]
  refine Text.words_joinWith_append ?_ hgaps hback
  intro word hword
  obtain ⟨keyword, -, rfl⟩ := List.mem_map.1 hword
  exact ⟨keyword.text_ne_empty, keyword.isBlank_eq_false_of_mem_text⟩

theorem standsApart_spaced (keyword : Keyword) : (spaced keyword).StandsApart := by
  have hspace : Blank (Trivia.text Trivia.space) ∧ Trivia.text Trivia.space ≠ "" := by decide
  exact ⟨Text.blank_empty, hspace.1, hspace.2⟩

theorem readWords_join_of_readWords {text : String} {modifiers : List Modifier}
    (h : readWords text = .ok modifiers) :
    readWords (String.join (modifiers.map fullText)) = .ok modifiers := by
  obtain ⟨keywords, -, rfl⟩ := readWords_eq_ok_iff.1 h
  have happart : ∀ modifier ∈ keywords.map spaced, modifier.StandsApart := by
    intro modifier hmodifier
    obtain ⟨keyword, -, rfl⟩ := List.mem_map.1 hmodifier
    exact standsApart_spaced keyword
  rw [readWords_join_fullText happart, List.map_map]
  simp [Function.comp_def, spaced]

/-- **Keywords are read run by run.** A text is read when all its runs are keywords, and the first
run that is none is named otherwise. Keywords in a row are read back whatever blanks are between
them and around them, and what has been read is read again from its own written form. -/
theorem readWords_by_runs :
    (∀ text, (∃ modifiers, readWords text = .ok modifiers) ↔
      ∀ before word after, IsRun text.toList before word after → Keyword.Spelled word) ∧
    (∀ text refusal, readWords text = .error refusal ↔
      ∃ before word after, IsFirstUnread text.toList before word after ∧
        refusal = .unknownKeyword (String.ofList word)) ∧
    (∀ word, (Refusal.unknownKeyword word).message =
      "Invalid argument: " ++ ("unknown modifier keyword `" ++ word ++ "`")) ∧
    (∀ (keywords : List Keyword) (gaps : Nat → String) (front back : String),
      (∀ index, Blank (gaps index) ∧ gaps index ≠ "") → Blank front → Blank back →
      readWords (front ++ Text.joinWith gaps (keywords.map (·.text)) ++ back) =
        .ok (keywords.map spaced)) ∧
    ∀ text modifiers, readWords text = .ok modifiers →
      readWords (String.join (modifiers.map fullText)) = .ok modifiers :=
  ⟨fun _ => exists_readWords_iff_spelled, fun _ _ => readWords_eq_error_iff_isFirstUnread,
    fun _ => rfl, fun keywords _ _ _ => readWords_joinWith keywords,
    fun _ _ => readWords_join_of_readWords⟩

/-- Keywords between blanks of several kinds, and a misspelt one with a keyword in front of it. -/
theorem readWords_by_runs_misspelt :
    ∃ (gaps : Nat → String) (keywords : List Keyword) (text : String),
      (∀ index, Blank (gaps index) ∧ gaps index ≠ "") ∧
      text = "\tstatic\npublic \u2003static\u3000" ∧
      text = "\t" ++ Text.joinWith gaps (keywords.map (·.text)) ++ "\u3000" ∧
      readWords text = .ok (keywords.map spaced) ∧
      (∀ before word after, IsRun text.toList before word after → Keyword.Spelled word) ∧
      readWords (String.join ((keywords.map spaced).map fullText)) = .ok (keywords.map spaced) ∧
      IsFirstUnread "new\u00A0sttic foo".toList "new\u00A0".toList "sttic".toList
        " foo".toList ∧
      readWords "new\u00A0sttic foo" = .error (.unknownKeyword "sttic") := by
  let gaps (index : Nat) : String := if index = 0 then "\n" else " \u2003"
  let keywords : List Keyword := [.staticKw, .publicKw, .staticKw]
  have hgaps : ∀ index, Blank (gaps index) ∧ gaps index ≠ "" := by
    intro index
    by_cases hindex : index = 0
    · simp only [gaps, if_pos hindex]
      decide
    · simp only [gaps, if_neg hindex]
      decide
  have hunread : ¬Keyword.Spelled "sttic".toList := by
    rintro ⟨keyword, hkeyword⟩
    cases keyword <;> exact absurd hkeyword (by decide)
  have hspelled : ∀ earlier ∈ charWords "new\u00A0".toList, Keyword.Spelled earlier := by
    have hwords : charWords "new\u00A0".toList = ["new".toList] := by decide
    rw [hwords, List.forall_mem_singleton]
    exact ⟨.newKw, rfl⟩
  have hletters : "sttic".toList.all (!Text.isBlank ·) = true := by decide
  have hrun : IsRun "new\u00A0sttic foo".toList "new\u00A0".toList "sttic".toList
      " foo".toList := by
    refine ⟨by decide, by decide, ?_, ?_, ?_⟩
    · simpa only [List.all_eq_true, Bool.not_eq_true'] using hletters
    · intro c hc
      obtain rfl : '\u00A0' = c := Option.some.inj hc
      decide
    · intro c hc
      obtain rfl : ' ' = c := Option.some.inj hc
      decide
  have hfirst := isFirstUnread_iff.2 ⟨hrun, hunread, hspelled⟩
  obtain ⟨haccept, hrefuse, -, hjoined, hagain⟩ := readWords_by_runs
  have hread := hjoined keywords gaps "\t" "\u3000" hgaps (by decide) (by decide)
  exact ⟨gaps, keywords, _, hgaps, rfl, rfl, hread, (haccept _).1 ⟨_, hread⟩, hagain _ _ hread,
    hfirst, (hrefuse _ _).2 ⟨_, _, _, hfirst, rfl⟩⟩

end Modifier

end DeclEdit
