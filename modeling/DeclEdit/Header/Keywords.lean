import DeclEdit.Header.Edits
import Mathlib.Data.List.InsertIdx

/-!
# The keywords of an edited header

What an edit of a header does to its keywords does not depend on any trivia: each edit acts on the
list of keywords like the list operation of the same name.
-/

namespace DeclEdit.Header

theorem length_keywords (header : Header) : header.keywords.length = header.modifiers.length :=
  List.length_map _

@[simp] theorem keywords_mapFront (change : Trivia → Trivia) (header : Header) :
    (header.mapFront change).keywords = header.keywords := by
  unfold mapFront keywords
  split <;> simp_all

@[simp] theorem keywords_handOver (trivia : Trivia) (header : Header) :
    (header.handOver trivia).keywords = header.keywords := by
  unfold handOver
  split <;> simp

theorem keywords_insertAt (header : Header) (index : Nat) (modifier : Modifier) :
    (header.insertAt index modifier).keywords =
      header.keywords.insertIdx index modifier.keyword := by
  cases index with
  | zero =>
    have h := keywords_mapFront (fun _ => []) header
    simp only [keywords] at h
    simp [insertAt, keywords, h]
  | succ index => simp [insertAt, keywords, List.map_insertIdx]

theorem keywords_removeAt (header : Header) (index : Nat) :
    (header.removeAt index).keywords = header.keywords.eraseIdx index := by
  unfold removeAt
  split
  · next hmodifiers =>
    rw [keywords_handOver]
    simp [keywords, hmodifiers]
  · exact (List.eraseIdx_map ..).symm

theorem length_modifiers_removeAt (header : Header) (index : Nat) :
    (header.removeAt index).modifiers.length = (header.modifiers.eraseIdx index).length := by
  rw [← length_keywords, keywords_removeAt, keywords, List.eraseIdx_map, List.length_map]

theorem keywords_remove (keyword : Keyword) (header : Header) :
    (header.remove keyword).keywords = header.keywords.erase keyword := by
  have hsearch : header.keywords.findIdx? (· = keyword) = header.keywords.idxOf? keyword := by
    simp [List.idxOf?, beq_eq_decide]
  rw [List.erase_eq_eraseIdx, remove, hsearch]
  cases header.keywords.idxOf? keyword with
  | none => rfl
  | some index => exact keywords_removeAt ..

@[simp] theorem keywords_removeAll (header : Header) : header.removeAll.keywords = [] := by
  unfold removeAll
  split
  · next hmodifiers => simp [keywords, hmodifiers]
  · rw [keywords_handOver]
    rfl

/-- Sorting the modifiers sorts their keywords. -/
theorem keywords_reorder_perm (order : Ranking Keyword) (header : Header) :
    (header.reorder order).keywords.Perm header.keywords := by
  unfold reorder
  split
  · exact .refl _
  · have hopened := keywords_mapFront (fun _ => []) header
    rw [keywords_mapFront, ← hopened]
    exact (List.mergeSort_perm _ _).map _

end DeclEdit.Header
