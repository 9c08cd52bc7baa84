import DeclEdit.Accessibility
import DeclEdit.Accessibility.Change
import DeclEdit.Accessibility.Reading
import DeclEdit.Accessibility.Rules
import DeclEdit.Declaration
import DeclEdit.Declaration.Draft
import DeclEdit.Declaration.Kind
import DeclEdit.Declaration.Shape
import DeclEdit.Declaration.View
import DeclEdit.Edit
import DeclEdit.Edit.History
import DeclEdit.Header
import DeclEdit.Header.Edits
import DeclEdit.Header.Keywords
import DeclEdit.Header.Text
import DeclEdit.Header.Tree
import DeclEdit.Keyword
import DeclEdit.Keyword.Order
import DeclEdit.Member.Arrangement
import DeclEdit.Member.Category
import DeclEdit.Path
import DeclEdit.Ranking
import DeclEdit.Refusal
import DeclEdit.Sequence
import DeclEdit.Text.Identifier
import DeclEdit.Text.NameOrder
import DeclEdit.Text.Words
import DeclEdit.Token
import DeclEdit.Tree
import DeclEdit.Tree.Tag
import DeclEdit.Trivia
import DeclEdit.Proofs.InsertionIndex
import DeclEdit.Proofs.HeaderMoves
import DeclEdit.Proofs.LevelReading
import DeclEdit.Proofs.OrderTables
import DeclEdit.Proofs.SortedModifiers
import DeclEdit.Proofs.LevelChange
import DeclEdit.Proofs.FrontTrivia
import DeclEdit.Proofs.SwapAgreement
import DeclEdit.Proofs.NameOrder
import DeclEdit.Proofs.StableSort
import DeclEdit.Proofs.MemberOrder
import DeclEdit.Proofs.MemberPlace
import DeclEdit.Proofs.MemberSorting
import DeclEdit.Proofs.SortedMembers
import DeclEdit.Proofs.WrittenDefault
import DeclEdit.Proofs.HeaderLayout
import DeclEdit.Proofs.FrontKept
import DeclEdit.Proofs.LevelReturn
import DeclEdit.Proofs.InsertionOrder
import DeclEdit.Proofs.PrintedModifiers
import DeclEdit.Proofs.TreeShape
import DeclEdit.Proofs.OwnedModifiers
import DeclEdit.Proofs.LevelFrame
import DeclEdit.Proofs.RebuiltContainer
import DeclEdit.Proofs.RulesKept
import DeclEdit.Proofs.CheckedEdits
import DeclEdit.Proofs.AllowedLevels
import DeclEdit.Proofs.LosslessTree
import DeclEdit.Proofs.LoneKeyword
import DeclEdit.Proofs.LevelRemoval
import DeclEdit.Proofs.SplicedText
import DeclEdit.Proofs.InsertionUndone
import DeclEdit.Proofs.NearestPlace
import DeclEdit.Proofs.LevelIndependence
import DeclEdit.Proofs.ReorderedModifiers
import DeclEdit.Proofs.ArrangedMembers
import DeclEdit.Proofs.SuccessiveRemoval
import DeclEdit.Proofs.DraftedSteps
import DeclEdit.Proofs.DraftedText
import DeclEdit.Proofs.SearchStop
import DeclEdit.Proofs.ReadKeywords
