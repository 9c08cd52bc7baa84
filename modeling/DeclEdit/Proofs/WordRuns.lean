import DeclEdit.Proofs.WordReading
import Mathlib.Data.List.Basic

/-!
# The words of a text are its runs

A run is a stretch of characters without a blank that cannot be made longer at either end. The text
in front of a run has the words in front of it and the text behind it those behind, so the runs are
the words one by one, in the order in which they stand.
-/

namespace DeclEdit

namespace Text

/-- The word stands in the text right behind `before` and right in front of `after`, has no blank in
it, and would have one if it were longer. -/
structure IsRun (text before word after : List Char) : Prop where
  split : text = before ++ word ++ after
  ne_nil : word ≠ []
  letters : ∀ c ∈ word, isBlank c = false
  blank_before : ∀ c ∈ before.getLast?, isBlank c = true
  blank_after : ∀ c ∈ after.head?, isBlank c = true

/-! ### Cutting at a blank -/

theorem charWords_nil : charWords [] = [] := rfl

theorem charWords_of_blank {blanks : List Char} (h : ∀ c ∈ blanks, isBlank c = true) :
    charWords blanks = [] := by
  have hwords := charWords_append_of_blank h []
  rwa [List.append_nil, charWords_nil] at hwords

theorem charWords_append_of_getLast? {before : List Char}
    (h : ∀ c ∈ before.getLast?, isBlank c = true) (rest : List Char) :
    charWords (before ++ rest) = charWords before ++ charWords rest := by
  rcases List.eq_nil_or_concat before with rfl | ⟨front, blank, rfl⟩
  · rfl
  · have hblank : isBlank blank = true := h blank (by simp)
    have hfront := charWords_append_cons hblank front []
    rw [List.concat_eq_append, List.append_assoc, List.singleton_append,
      charWords_append_cons hblank, hfront, charWords_nil, List.append_nil]

theorem charWords_append_of_head? {after : List Char}
    (h : ∀ c ∈ after.head?, isBlank c = true) (front : List Char) :
    charWords (front ++ after) = charWords front ++ charWords after := by
  cases after with
  | nil => rw [List.append_nil, charWords_nil, List.append_nil]
  | cons blank rest =>
    have hblank : isBlank blank = true := h blank (by simp)
    have hrest := charWords_append_cons hblank [] rest
    rw [List.nil_append, charWords_nil, List.nil_append] at hrest
    rw [charWords_append_cons hblank, hrest]

namespace IsRun

variable {text before word after : List Char}

/-- The words in front of a run, the run itself, the words behind it. -/
theorem charWords_eq (h : IsRun text before word after) :
    charWords text = charWords before ++ word :: charWords after :=
  calc
    charWords text = charWords before ++ charWords (word ++ after) := by
      rw [h.split, List.append_assoc, charWords_append_of_getLast? h.blank_before]
    _ = charWords before ++ (charWords word ++ charWords after) := by
      rw [charWords_append_of_head? h.blank_after]
    _ = charWords before ++ word :: charWords after := by
      rw [charWords_of_letters h.ne_nil h.letters, List.singleton_append]

end IsRun

theorem exists_span (test : Char → Bool) (text : List Char) :
    ∃ front back, text = front ++ back ∧ (∀ c ∈ front, test c = true) ∧
      ∀ c ∈ back.head?, test c = false := by
  refine ⟨text.takeWhile test, text.dropWhile test, List.takeWhile_append_dropWhile.symm,
    List.all_eq_true.1 List.all_takeWhile, ?_⟩
  intro c hc
  have hhead := List.head?_dropWhile_not test text
  rwa [Option.mem_def.1 hc] at hhead

/-- A text that is not blank has a first run, with blanks in front of it. -/
theorem exists_isRun_first {text : List Char} (h : ¬∀ c ∈ text, isBlank c = true) :
    ∃ blanks word after, IsRun text blanks word after ∧ ∀ c ∈ blanks, isBlank c = true := by
  obtain ⟨blanks, tail, rfl, hblanks, htail⟩ := exists_span isBlank text
  obtain ⟨word, after, rfl, hword, hafter⟩ := exists_span (!isBlank ·) tail
  refine ⟨blanks, word, after, ⟨(List.append_assoc ..).symm, ?_, ?_, ?_, ?_⟩, hblanks⟩
  · -- Without a letter in it the rest starts with a blank as well as with none.
    rintro rfl
    cases after with
    | nil => exact h (by simpa using hblanks)
    | cons c rest =>
      have hletter : isBlank c = false := htail c rfl
      simp [hletter] at hafter
  · intro letter hletter
    simpa using hword letter hletter
  · intro blank hlast
    exact hblanks blank (List.mem_of_mem_getLast? hlast)
  · intro blank hfirst
    simpa using hafter blank hfirst

theorem blank_of_charWords_eq_nil {text : List Char} (h : charWords text = []) :
    ∀ c ∈ text, isBlank c = true := by
  by_contra hblank
  obtain ⟨blanks, word, after, hrun, -⟩ := exists_isRun_first hblank
  simp [hrun.charWords_eq] at h

theorem charWords_cons_ne_nil {c : Char} (hletter : isBlank c = false) (rest : List Char) :
    charWords (c :: rest) ≠ [] := by
  intro hnil
  have hblank := blank_of_charWords_eq_nil hnil c List.mem_cons_self
  simp [hletter] at hblank

theorem exists_isRun_of_charWords_eq_cons {text word : List Char} {rest : List (List Char)}
    (h : charWords text = word :: rest) :
    ∃ blanks after, IsRun text blanks word after ∧ charWords blanks = [] ∧
      charWords after = rest := by
  have hblank : ¬∀ c ∈ text, isBlank c = true := by
    intro hblank
    simp [charWords_of_blank hblank] at h
  obtain ⟨blanks, first, after, hrun, hblanks⟩ := exists_isRun_first hblank
  rw [hrun.charWords_eq, charWords_of_blank hblanks, List.nil_append] at h
  obtain ⟨rfl, hafter⟩ := List.cons.inj h
  exact ⟨blanks, after, hrun, charWords_of_blank hblanks, hafter⟩

/-! ### Runs of parts of a text -/

namespace IsRun

variable {text before word after : List Char}

theorem ne_nil_of_head? (h : IsRun text before word after)
    (hblank : ∀ c ∈ text.head?, isBlank c = true) : before ≠ [] := by
  rintro rfl
  obtain ⟨c, rest, hword⟩ := List.exists_cons_of_ne_nil h.ne_nil
  have hletter := h.letters c (by simp [hword])
  have hhead := hblank c (by simp [h.split, hword])
  simp [hletter] at hhead

theorem ne_nil_of_getLast? (h : IsRun text before word after)
    (hblank : ∀ c ∈ text.getLast?, isBlank c = true) : after ≠ [] := by
  rintro rfl
  have hlast := List.getLast?_eq_some_getLast h.ne_nil
  have hletter := h.letters _ (List.mem_of_getLast? hlast)
  have hend := hblank (word.getLast h.ne_nil) (by simp [h.split, hlast])
  simp [hletter] at hend

/-- A run of what stands behind another run is a run of the whole text. -/
theorem of_after {between next rest : List Char} (h : IsRun text before word after)
    (hnext : IsRun after between next rest) :
    IsRun text (before ++ word ++ between) next rest ∧
      charWords (before ++ word ++ between) = charWords before ++ word :: charWords between := by
  have hne := hnext.ne_nil_of_head? h.blank_after
  have hhead : ∀ c ∈ between.head?, isBlank c = true := by
    intro c hc
    refine h.blank_after c ?_
    rw [hnext.split, List.append_assoc, List.head?_append_of_ne_nil _ hne]
    exact hc
  have hword : IsRun (before ++ word ++ between) before word between :=
    ⟨rfl, h.ne_nil, h.letters, h.blank_before, hhead⟩
  refine ⟨⟨?_, hnext.ne_nil, hnext.letters, ?_, hnext.blank_after⟩, hword.charWords_eq⟩
  · simp only [h.split, hnext.split, List.append_assoc]
  · rw [List.getLast?_append_of_ne_nil _ hne]
    exact hnext.blank_before

/-- A run of what stands in front of another run is a run of the whole text. -/
theorem of_before {start earlier between : List Char} (h : IsRun text before word after)
    (hearlier : IsRun before start earlier between) :
    IsRun text start earlier (between ++ word ++ after) := by
  have hne := hearlier.ne_nil_of_getLast? h.blank_before
  refine ⟨?_, hearlier.ne_nil, hearlier.letters, hearlier.blank_before, ?_⟩
  · simp only [h.split, hearlier.split, List.append_assoc]
  · rw [List.append_assoc, List.head?_append_of_ne_nil _ hne]
    exact hearlier.blank_after

/-- Between the start of an earlier run and that of the run there are words. -/
theorem exists_gap {start earlier rest : List Char} (h : IsRun text before word after)
    (hearlier : IsRun text start earlier rest) (hlt : start.length < before.length) :
    ∃ gap, before = start ++ gap ∧ charWords gap ≠ [] := by
  have hstart : start <+: text := ⟨earlier ++ rest, by rw [hearlier.split, List.append_assoc]⟩
  have hbefore : before <+: text := ⟨word ++ after, by rw [h.split, List.append_assoc]⟩
  obtain ⟨gap, rfl⟩ := List.prefix_of_prefix_length_le hstart hbefore (Nat.le_of_lt hlt)
  have hsame : gap ++ (word ++ after) = earlier ++ rest := by
    have hsplit := h.split.symm.trans hearlier.split
    simpa only [List.append_assoc, List.append_cancel_left_eq] using hsplit
  refine ⟨gap, rfl, ?_⟩
  cases gap with
  | nil => simp at hlt
  | cons c others =>
    obtain ⟨first, letters, hcons⟩ := List.exists_cons_of_ne_nil hearlier.ne_nil
    obtain rfl : c = first := by simpa [hcons] using congrArg List.head? hsame
    exact charWords_cons_ne_nil (hearlier.letters c (by simp [hcons])) others

/-- A run that starts earlier is one of the words in front of the run. -/
theorem mem_charWords {start earlier rest : List Char} (h : IsRun text before word after)
    (hearlier : IsRun text start earlier rest) (hlt : start.length < before.length) :
    earlier ∈ charWords before := by
  obtain ⟨gap, rfl, hgap⟩ := h.exists_gap hearlier hlt
  obtain ⟨first, others, hcons⟩ := List.exists_cons_of_ne_nil hgap
  have hwords := charWords_append_of_getLast? hearlier.blank_before gap
  have hsame := h.charWords_eq.symm.trans hearlier.charWords_eq
  rw [hwords, List.append_assoc, List.append_cancel_left_eq, hcons, List.cons_append] at hsame
  rw [hwords, hcons, (List.cons.inj hsame).1]
  exact List.mem_append_right _ List.mem_cons_self

end IsRun

/-- Each word of a text is a run, and the words in front of it are those of the text in front. -/
theorem exists_isRun_of_charWords_eq {text : List Char} {front back : List (List Char)}
    {word : List Char} (h : charWords text = front ++ word :: back) :
    ∃ before after, IsRun text before word after ∧ charWords before = front := by
  -- On the words in front: the first run is cut off and the word sought in what stands behind it.
  induction front generalizing text with
  | nil =>
    obtain ⟨blanks, after, hrun, hblanks, -⟩ := exists_isRun_of_charWords_eq_cons h
    exact ⟨blanks, after, hrun, hblanks⟩
  | cons first front ih =>
    obtain ⟨blanks, rest, hfirst, hblanks, hrest⟩ := exists_isRun_of_charWords_eq_cons h
    obtain ⟨before, after, hrun, hbefore⟩ := ih hrest
    obtain ⟨hwhole, hwords⟩ := hfirst.of_after hrun
    refine ⟨blanks ++ first ++ before, after, hwhole, ?_⟩
    rw [hwords, hblanks, hbefore, List.nil_append]

theorem mem_charWords_iff {text word : List Char} :
    word ∈ charWords text ↔ ∃ before after, IsRun text before word after := by
  constructor
  · intro h
    obtain ⟨front, back, hsplit⟩ := List.append_of_mem h
    obtain ⟨before, after, hrun, -⟩ := exists_isRun_of_charWords_eq hsplit
    exact ⟨before, after, hrun⟩
  · rintro ⟨before, after, hrun⟩
    rw [hrun.charWords_eq]
    exact List.mem_append_right _ List.mem_cons_self

/-! ### Words in a row -/

/-- The words in a row, with a gap of its own behind each but the last. -/
def joinWith (gaps : Nat → String) : List String → String
  | [] => ""
  | [word] => word
  | word :: next :: rest =>
    word ++ gaps 0 ++ joinWith (fun index => gaps (index + 1)) (next :: rest)

theorem words_of_blank {blank : String} (h : Blank blank) : words blank = [] := by
  rw [words_eq_map_charWords, charWords_of_blank h, List.map_nil]

theorem words_append_of_blank_right {word blank : String} (hne : word ≠ "")
    (hletters : ∀ c ∈ word.toList, isBlank c = false) (hblank : Blank blank) :
    words (word ++ blank) = [word] := by
  have hrun : IsRun (word.toList ++ blank.toList) [] word.toList blank.toList :=
    ⟨rfl, by simpa using hne, hletters, by simp, fun c hc => hblank c (List.mem_of_mem_head? hc)⟩
  rw [words_eq_map_charWords, String.toList_append, hrun.charWords_eq, charWords_nil,
    charWords_of_blank hblank, List.nil_append, List.map_singleton, String.ofList_toList]

theorem words_joinWith_append {gaps : Nat → String} {blank : String} {row : List String}
    (hrow : ∀ word ∈ row, word ≠ "" ∧ ∀ c ∈ word.toList, isBlank c = false)
    (hgaps : ∀ index, Blank (gaps index) ∧ gaps index ≠ "") (hblank : Blank blank) :
    words (joinWith gaps row ++ blank) = row := by
  induction row generalizing gaps with
  | nil => simpa [joinWith] using words_of_blank hblank
  | cons word rest ih =>
    obtain ⟨⟨hne, hletters⟩, hrest⟩ := List.forall_mem_cons.1 hrow
    cases rest with
    | nil => exact words_append_of_blank_right hne hletters hblank
    | cons next rest =>
      obtain ⟨hgap, hgapne⟩ := hgaps 0
      rw [joinWith, String.append_assoc, words_append_append hne hletters hgap hgapne,
        ih hrest fun index => hgaps (index + 1)]

end Text

end DeclEdit
