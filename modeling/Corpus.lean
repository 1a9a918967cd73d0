import Corpus.Main
import Corpus.Proofs.Conll.Acceptance
import Corpus.Proofs.Conll.Writing
import Corpus.Proofs.Conll.Rewriting
import Corpus.Proofs.Conll.Transparency
import Corpus.Proofs.Conll.Rereading
import Corpus.Proofs.Conll.RoundTrip
import Corpus.Proofs.Conll.SecondPass
import Corpus.Proofs.Conll.NoteRoundTrip
import Corpus.Proofs.Conll.Ignored
import Corpus.Proofs.English.Spelling
import Corpus.Proofs.English.Isolation
import Corpus.Proofs.English.Contractions
import Corpus.Proofs.English.OrdinaryWords
import Corpus.Proofs.English.Spacing
import Corpus.Proofs.English.OnePass
import Corpus.Proofs.English.IdleRules
import Corpus.Proofs.English.Decorations
import Corpus.Proofs.Format.WellFormed
import Corpus.Proofs.Format.Unbroken
import Corpus.Proofs.Format.ThroughRows
import Corpus.Proofs.Format.Dropped
import Corpus.Proofs.Format.Retokenizing
import Corpus.Proofs.Registry.History
import Corpus.Proofs.Record.Calls
import Corpus.Proofs.Record.Whole
import Corpus.Proofs.Conversion.Agreement
import Corpus.Proofs.Conversion.Concatenation
import Corpus.Proofs.Conversion.OutputRecords
import Corpus.Proofs.Conversion.SecondRun
import Corpus.Proofs.CommandLine.Files
import Corpus.Proofs.CommandLine.InPlace
import Corpus.Proofs.CommandLine.Malformed
import Corpus.Proofs.Options.Configuration
