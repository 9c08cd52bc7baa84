/-!
# Trivia

The layout and the comments around a token. Two elastic pieces stand for layout that an edit made
up: a marker without any text, and a space. Two operations join the trivia of neighbouring tokens
when a token comes in front or goes away.
-/

namespace DeclEdit

inductive Trivia.Piece where
  | whitespace (text : String)
  | endOfLine (text : String)
  | lineComment (text : String)
  | blockComment (text : String)
  | elasticMarker
  | elasticSpace
deriving DecidableEq, Repr

/-- The pieces on one side of a token, in reading order. -/
abbrev Trivia := List Trivia.Piece

namespace Trivia

def Piece.text : Piece → String
  | .whitespace text | .endOfLine text | .lineComment text | .blockComment text => text
  | .elasticMarker => ""
  | .elasticSpace => " "

def Piece.isElastic : Piece → Bool
  | .elasticMarker | .elasticSpace => true
  | _ => false

def Piece.isComment : Piece → Bool
  | .lineComment _ | .blockComment _ => true
  | _ => false

def text (trivia : Trivia) : String := String.join (trivia.map Piece.text)

@[simp] theorem text_nil : text [] = "" := rfl

@[simp] theorem text_cons (piece : Piece) (rest : Trivia) :
    text (piece :: rest) = piece.text ++ text rest := by
  simp [text, String.join_cons]

@[simp] theorem text_append (first second : Trivia) :
    text (first ++ second) = text first ++ text second := by
  simp [text, String.join_append]

/-- One plain space, as between two words of a line. -/
def space : Trivia := [.whitespace " "]

/-- A lone elastic marker carries no layout of its own. -/
def isLoneMarker (trivia : Trivia) : Bool := trivia = [.elasticMarker]

theorem isLoneMarker_eq_true_iff {trivia : Trivia} :
    trivia.isLoneMarker = true ↔ trivia = [.elasticMarker] := by
  simp [isLoneMarker]

/-- The trivia in front of a new token that takes the place of a token with `front` in front of it:
the old layout comes first, and the new token's own follows unless it is a lone marker. -/
def takenOver (front own : Trivia) : Trivia :=
  if front = [] then own else if own.isLoneMarker then front else front ++ own

/-- The trivia in front of a token that moves up to where a token with `front` in front of it stood:
a lone marker gives way, other layout stays behind the old. -/
def handedOver (front own : Trivia) : Trivia :=
  if own = [] ∨ own.isLoneMarker then front else front ++ own

theorem text_takenOver (front own : Trivia) :
    text (takenOver front own) = text front ++ text own := by
  unfold takenOver
  split
  · simp_all
  · split
    · simp_all [isLoneMarker_eq_true_iff, Piece.text]
    · simp

theorem text_handedOver (front own : Trivia) :
    text (handedOver front own) = text front ++ text own := by
  unfold handedOver
  split
  · next h => rcases h with h | h <;> simp_all [isLoneMarker_eq_true_iff, Piece.text]
  · simp

end Trivia

end DeclEdit
