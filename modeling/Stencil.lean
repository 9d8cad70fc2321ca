import Stencil.Main
import Stencil.Template.Print
import Stencil.Files.Tree
import Stencil.Pattern.Search
import Stencil.Proofs.Result
import Stencil.Proofs.Scan
import Stencil.Proofs.Tokens
import Stencil.Proofs.Pattern.Sequel
import Stencil.Proofs.Pattern.Takes
import Stencil.Proofs.Pattern.Retry
import Stencil.Proofs.Standard.Form
import Stencil.Proofs.Standard.Pattern
import Stencil.Proofs.Standard.Directives
import Stencil.Proofs.Template.Grammar
import Stencil.Proofs.Template.Viable
import Stencil.Proofs.Template.Compile
import Stencil.Proofs.Template.Fault
import Stencil.Proofs.Template.Copying
import Stencil.Proofs.Template.Inert
import Stencil.Proofs.Template.Print
import Stencil.Proofs.Template.FreeNames
import Stencil.Proofs.Template.Agree
import Stencil.Proofs.Template.Insertion
import Stencil.Proofs.Template.Concat
import Stencil.Proofs.Template.Void
import Stencil.Proofs.Path.Spelling
import Stencil.Proofs.Path.Unclosed
import Stencil.Proofs.Files.Name
import Stencil.Proofs.Files.Tree
import Stencil.Proofs.Program.Stages
import Stencil.Proofs.Program.Run
import Stencil.Proofs.Program.Check
import Stencil.Proofs.Escape
import Stencil.Proofs.Path.Location
import Stencil.Proofs.Program.Place
import Stencil.Proofs.Template.Rename
import Stencil.Proofs.Template.Equal
import Stencil.Proofs.Slots
import Stencil.Proofs.Number.Rounding
import Stencil.Proofs.Text.Digit
import Stencil.Proofs.Number.Shortest
import Stencil.Proofs.Document.Numeral
import Stencil.Proofs.Number.Exact
import Stencil.Proofs.Number.Layout
import Stencil.Proofs.Number.Text
