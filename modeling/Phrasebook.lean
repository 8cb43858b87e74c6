import Phrasebook.Diagnostic.Json
import Phrasebook.Disk
import Phrasebook.Lookup.LazyProvider
import Phrasebook.Lookup.Provider
import Phrasebook.Main
import Phrasebook.Proofs.Emission.Arrangement
import Phrasebook.Proofs.Tree.Findings
import Phrasebook.Proofs.Lookup.Message
import Phrasebook.Proofs.Lookup.Provider
import Phrasebook.Proofs.Lookup.LazyProvider
import Phrasebook.Proofs.Lookup.LazyRun
import Phrasebook.Proofs.Lookup.LazyRefinement
import Phrasebook.Proofs.Emission.Conformance
import Phrasebook.Proofs.Emission.Units
import Phrasebook.Proofs.Report.Agreement
import Phrasebook.Proofs.Emission.TypeText
import Phrasebook.Proofs.InputOrder
import Phrasebook.Proofs.Tree.Mirror
import Phrasebook.Proofs.Emission.Indentation
import Phrasebook.Proofs.Generation
import Phrasebook.Proofs.Linking
import Phrasebook.Proofs.Tree.Faithful
import Phrasebook.Proofs.Emission.Evaluation
import Phrasebook.Proofs.Text.BareQuote
import Phrasebook.Proofs.Lookup.LazyRollback
import Phrasebook.Proofs.Tree.Settling
import Phrasebook.Proofs.Recording
import Phrasebook.Proofs.Descent
import Phrasebook.Proofs.Text.Label
import Phrasebook.Proofs.Code.LastLine
import Phrasebook.Proofs.Lookup.Address
import Phrasebook.Proofs.Emission.Coverage
import Phrasebook.Proofs.Report.Numbering
import Phrasebook.Proofs.Locale.Loading
import Phrasebook.Proofs.Text.Position
import Phrasebook.Proofs.Pipeline.Observers
import Phrasebook.Proofs.Emission.Declarations
import Phrasebook.Proofs.Manifest.NameLabel
import Phrasebook.Proofs.Text.PointLabel
import Phrasebook.Proofs.Manifest.Search
