import SinosLang.Main
import SinosLang.Proofs.Lexing.Partition
import SinosLang.Proofs.Parse.BracketLimit
import SinosLang.Proofs.Parse.FailFast
import SinosLang.Proofs.Parse.Rereading
import SinosLang.Proofs.Parse.Simulation
import SinosLang.Proofs.Parse.Unlimited
import SinosLang.Proofs.Parse.Abreast
import SinosLang.Proofs.Parse.Layout
import SinosLang.Proofs.Parse.Places
import SinosLang.Proofs.Grammar.Sentences
import SinosLang.Proofs.Parse.EarliestOffence
import SinosLang.Proofs.Lexing.Lines
import SinosLang.Proofs.Parse.Succession
import SinosLang.Proofs.Parse.OnDemand
import SinosLang.Proofs.Parse.Naming
import SinosLang.Proofs.Answers
import SinosLang.Proofs.Formatting
import SinosLang.Proofs.Commands
import SinosLang.Proofs.Listings
import SinosLang.Proofs.Lexing.Faults
import SinosLang.Proofs.Prompts
import SinosLang.Proofs.Parse.Chained
import SinosLang.Proofs.Lexing.Operations
import SinosLang.Proofs.Lexing.Quoting
import SinosLang.Proofs.Decimal.Notation
import SinosLang.Proofs.Parse.Termination
import SinosLang.Proofs.Positions
import SinosLang.Proofs.Lexing.TokenListing
import SinosLang.Proofs.Node.Interchange
import SinosLang.Proofs.Node.TreeListing
import SinosLang.Proofs.Carets
import SinosLang.Proofs.Node.Traversals
import SinosLang.Proofs.Node.Conversion
import SinosLang.Proofs.Parse.Nesting
import SinosLang.Proofs.Parse.Slot
import SinosLang.Proofs.Parse.Callers
