import CanvasLayout.Command.Response
import CanvasLayout.Drawing.Screen
import CanvasLayout.Files.Reader
import CanvasLayout.Inspection.Display
import CanvasLayout.Interchange.Text
import CanvasLayout.Main
import CanvasLayout.Validation.Report
import CanvasLayout.Proofs.Outcome
import CanvasLayout.Proofs.Resolution
import CanvasLayout.Proofs.Classification
import CanvasLayout.Proofs.WellFormed
import CanvasLayout.Proofs.DecimalGrid
import CanvasLayout.Proofs.Binary64
import CanvasLayout.Proofs.Rounding
import CanvasLayout.Proofs.DecimalRounding
import CanvasLayout.Proofs.ShortestDecimal
import CanvasLayout.Proofs.PrintedToken
import CanvasLayout.Proofs.PrintedValue
import CanvasLayout.Proofs.FormWritten
import CanvasLayout.Proofs.FormRead
import CanvasLayout.Proofs.ScreenData
import CanvasLayout.Proofs.RoundTrip
import CanvasLayout.Proofs.WholeNumbers
import CanvasLayout.Proofs.DrawnLayers
import CanvasLayout.Proofs.SearchAndSort
import CanvasLayout.Proofs.Anchoring
import CanvasLayout.Proofs.ScreenChecks
import CanvasLayout.Proofs.ReadingOrder
import CanvasLayout.Proofs.IssueCounts
import CanvasLayout.Proofs.ExactLayout
import CanvasLayout.Proofs.DraftTrees
import CanvasLayout.Proofs.Inheritance
import CanvasLayout.Proofs.PartRules
import CanvasLayout.Proofs.FirstFault
import CanvasLayout.Proofs.Provenance
import CanvasLayout.Proofs.ExactChecks
import CanvasLayout.Proofs.DrawnFrames
import CanvasLayout.Proofs.OverrideEntries
import CanvasLayout.Proofs.ScreenRules
import CanvasLayout.Proofs.DrawnChecks
import CanvasLayout.Proofs.Precedence
import CanvasLayout.Proofs.Muting
import CanvasLayout.Proofs.Metadata
import CanvasLayout.Proofs.Assembly
import CanvasLayout.Proofs.ShuffledTags
import CanvasLayout.Proofs.AttributeOrder
import CanvasLayout.Proofs.Paging
import CanvasLayout.Proofs.WrittenEntries
import CanvasLayout.Proofs.ColorTexts
import CanvasLayout.Proofs.Background
import CanvasLayout.Proofs.ScrollSuffix
import CanvasLayout.Proofs.StyleFields
import CanvasLayout.Proofs.StoredElements
import CanvasLayout.Proofs.SiblingDocuments
import CanvasLayout.Proofs.TypeNames
import CanvasLayout.Proofs.ReadOrder
import CanvasLayout.Proofs.ReorderedText
import CanvasLayout.Proofs.DrawnTexts
