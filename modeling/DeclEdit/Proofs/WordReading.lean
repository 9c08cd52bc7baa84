import DeclEdit.Token

/-!
# Reading words

A blank ends a word, so the words of a text are those in front of a blank and those behind it.
Hence keywords are read back from a text in which each of them has only blanks around it, and one at
least behind it.
-/

namespace DeclEdit

namespace Text

theorem pieces_eq_splitOnP (isBreak : Char → Bool) (text : List Char) :
    pieces isBreak text = text.splitOnP isBreak := by
  induction text with
  | nil => rfl
  | cons c rest ih => rw [pieces, ih, List.splitOnP_cons_eq_if_modifyHead]

/-- There is nothing but blanks in the text. -/
def Blank (text : String) : Prop := ∀ c ∈ text.toList, isBlank c = true

-- Named, for the instance that a search finds may go through all characters there are.
instance (text : String) : Decidable (Blank text) :=
  List.decidableBAll (isBlank · = true) text.toList

theorem blank_empty : Blank "" := nofun

theorem Blank.append {first second : String} (hfirst : Blank first) (hsecond : Blank second) :
    Blank (first ++ second) := by
  intro c hc
  rw [String.toList_append, List.mem_append] at hc
  exact hc.elim (hfirst c) (hsecond c)

/-- The words of a list of characters. -/
def charWords (chars : List Char) : List (List Char) :=
  (pieces isBlank chars).filter (· ≠ [])

theorem words_eq_map_charWords (text : String) :
    words text = (charWords text.toList).map String.ofList := rfl

theorem charWords_append_cons {blank : Char} (hblank : isBlank blank = true)
    (first rest : List Char) :
    charWords (first ++ blank :: rest) = charWords first ++ charWords rest := by
  simp only [charWords, pieces_eq_splitOnP]
  rw [List.splitOnP_append_cons first rest hblank, List.filter_append]

theorem charWords_append_of_blank {blanks : List Char} (hblanks : ∀ c ∈ blanks, isBlank c = true)
    (rest : List Char) : charWords (blanks ++ rest) = charWords rest := by
  induction blanks with
  | nil => rfl
  | cons blank others ih =>
    obtain ⟨hblank, hothers⟩ := List.forall_mem_cons.1 hblanks
    have hcut := charWords_append_cons hblank [] (others ++ rest)
    exact hcut.trans (ih hothers)

theorem charWords_of_letters {word : List Char} (hne : word ≠ [])
    (h : ∀ c ∈ word, isBlank c = false) : charWords word = [word] := by
  rw [charWords, pieces_eq_splitOnP, List.splitOnP_eq_singleton h]
  simpa using hne

theorem words_append_of_blank {blank : String} (hblank : Blank blank) (rest : String) :
    words (blank ++ rest) = words rest := by
  rw [words_eq_map_charWords, String.toList_append, charWords_append_of_blank hblank,
    ← words_eq_map_charWords]

/-- A word without a blank in it is the first one of a text that starts with it and a blank. -/
theorem words_append_append {word blank : String} (hword : word ≠ "")
    (hletters : ∀ c ∈ word.toList, isBlank c = false) (hblank : Blank blank) (hne : blank ≠ "")
    (rest : String) : words (word ++ blank ++ rest) = word :: words rest := by
  obtain ⟨c, others, hchars⟩ :=
    List.exists_cons_of_ne_nil fun h => hne (String.toList_eq_nil_iff.1 h)
  have hblanks : ∀ c ∈ blank.toList, isBlank c = true := hblank
  rw [hchars, List.forall_mem_cons] at hblanks
  have hsingle : charWords word.toList = [word.toList] :=
    charWords_of_letters (by simpa using hword) hletters
  rw [words_eq_map_charWords, String.toList_append, String.toList_append, hchars,
    List.append_assoc, List.cons_append, charWords_append_cons hblanks.1,
    charWords_append_of_blank hblanks.2, hsingle, List.singleton_append, List.map_cons,
    String.ofList_toList, ← words_eq_map_charWords]

end Text

theorem Keyword.text_ne_empty (keyword : Keyword) : keyword.text ≠ "" := by
  cases keyword <;> decide

theorem Keyword.isBlank_eq_false_of_mem_text (keyword : Keyword) :
    ∀ c ∈ keyword.text.toList, Text.isBlank c = false := by
  have hletters : keyword.text.toList.all (!Text.isBlank ·) = true := by cases keyword <;> decide
  simpa only [List.all_eq_true, Bool.not_eq_true'] using hletters

namespace Modifier

open Text (Blank)

/-- Only blanks are written around the keyword, and one at least behind it. -/
structure StandsApart (modifier : Modifier) : Prop where
  blank_leading : Blank modifier.leading.text
  blank_trailing : Blank modifier.trailing.text
  trailing_ne_empty : modifier.trailing.text ≠ ""

theorem standsApart_elastic (keyword : Keyword) : (elastic keyword).StandsApart := by
  have hmarker : Blank (Trivia.text [.elasticMarker]) := by decide
  have hspace : Blank (Trivia.text [.elasticSpace]) ∧ Trivia.text [.elasticSpace] ≠ "" := by decide
  exact ⟨hmarker, hspace.1, hspace.2⟩

theorem StandsApart.words_fullText_append {modifier : Modifier} (h : modifier.StandsApart)
    (rest : String) :
    Text.words (modifier.fullText ++ rest) = modifier.keyword.text :: Text.words rest := by
  rw [fullText, String.append_assoc, String.append_assoc,
    Text.words_append_of_blank h.blank_leading, ← String.append_assoc]
  exact Text.words_append_append modifier.keyword.text_ne_empty
    modifier.keyword.isBlank_eq_false_of_mem_text h.blank_trailing h.trailing_ne_empty rest

theorem words_join_fullText {modifiers : List Modifier}
    (h : ∀ modifier ∈ modifiers, modifier.StandsApart) :
    Text.words (String.join (modifiers.map fullText)) =
      modifiers.map (·.keyword.text) := by
  induction modifiers with
  | nil => rfl
  | cons modifier rest ih =>
    obtain ⟨hfirst, hrest⟩ := List.forall_mem_cons.1 h
    rw [List.map_cons, String.join_cons, hfirst.words_fullText_append, ih hrest, List.map_cons]

theorem mapM_readWord_text (keywords : List Keyword) :
    (keywords.map (·.text)).mapM readWord = .ok (keywords.map spaced) := by
  induction keywords with
  | nil => rfl
  | cons keyword rest ih =>
    have hfirst : readWord keyword.text = .ok (spaced keyword) := by
      rw [readWord, Keyword.ofText?_text]
    rw [List.map_cons, List.mapM_cons, hfirst, ih]
    rfl

/-- Keywords that stand apart are read back. -/
theorem readWords_join_fullText {modifiers : List Modifier}
    (h : ∀ modifier ∈ modifiers, modifier.StandsApart) :
    readWords (String.join (modifiers.map fullText)) =
      .ok ((modifiers.map (·.keyword)).map spaced) := by
  rw [readWords, words_join_fullText h, ← mapM_readWord_text, List.map_map]
  rfl

end Modifier

end DeclEdit
