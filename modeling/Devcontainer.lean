import Devcontainer.Main
import Devcontainer.Proofs.Codec
import Devcontainer.Proofs.Descriptor.Parts
import Devcontainer.Proofs.Descriptor.Document
import Devcontainer.Proofs.Descriptor.Merge
import Devcontainer.Proofs.Ancestry
import Devcontainer.Proofs.Survival
import Devcontainer.Proofs.Template.Form
import Devcontainer.Proofs.Template.Reference
import Devcontainer.Proofs.Template.Report
import Devcontainer.Proofs.Template.Segment
import Devcontainer.Proofs.Descriptor.Expand
import Devcontainer.Proofs.Template.Leak
import Devcontainer.Proofs.SortedMap
import Devcontainer.Proofs.Launch.Folder
import Devcontainer.Proofs.FileTree
import Devcontainer.Proofs.Ancestry.Chain
import Devcontainer.Proofs.Ancestry.Inheritance
import Devcontainer.Proofs.Descriptor.Precedence
import Devcontainer.Proofs.Mount.Canonical
import Devcontainer.Proofs.Amount
import Devcontainer.Proofs.Launch.Outcome
import Devcontainer.Proofs.Launch.Arguments
import Devcontainer.Proofs.Launch.Layout
import Devcontainer.Proofs.Template.Mention
import Devcontainer.Proofs.Mount.Reading
import Devcontainer.Proofs.Template.Cut
import Devcontainer.Proofs.Mount.Encodings
import Devcontainer.Proofs.Document
import Devcontainer.Proofs.Descriptor.Unknown
import Devcontainer.Proofs.Resolve
import Devcontainer.Proofs.Json.Merge
import Devcontainer.Proofs.Descriptor.Idempotence
import Devcontainer.Proofs.Launch.Order
import Devcontainer.Proofs.Decimal.Binary64
import Devcontainer.Proofs.Decimal.Shortest
import Devcontainer.Proofs.Document.Numeral
import Devcontainer.Proofs.Document.Quoted
import Devcontainer.Proofs.Json.Legible
import Devcontainer.Proofs.Document.Print
import Devcontainer.Proofs.Record.Legible
import Devcontainer.Proofs.Descriptor.Print
import Devcontainer.Proofs.RunVector.Grammar
import Devcontainer.Proofs.Mount.Stability
import Devcontainer.Proofs.Script
import Devcontainer.Proofs.Template.Found
import Devcontainer.Proofs.Descriptor.Report
import Devcontainer.Proofs.Command
import Devcontainer.Proofs.Mount.Injection
import Devcontainer.Proofs.Port
import Devcontainer.Proofs.Mount.Grammar
import Devcontainer.Proofs.RunVector.Flags
import Devcontainer.Proofs.Text.Lines
import Devcontainer.Proofs.Launch.Lines
