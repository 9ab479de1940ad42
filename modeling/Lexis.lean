import Lexis.Scanner.Stream
import Lexis.Token.Record
import Lexis.Proofs.Source.Folding
import Lexis.Proofs.Source.Place
import Lexis.Proofs.Source.Displacement
import Lexis.Proofs.Source.Reading
import Lexis.Proofs.Grammar.Word
import Lexis.Proofs.Grammar.Numeral
import Lexis.Proofs.Grammar.Quoted
import Lexis.Proofs.Grammar.Lexeme
import Lexis.Proofs.Grammar.Gap
import Lexis.Proofs.Grammar.Fault
import Lexis.Proofs.Scan.Token
import Lexis.Proofs.Scan.Keep
import Lexis.Proofs.Scan.Skip
import Lexis.Proofs.Scan.Passage
import Lexis.Proofs.Scan.Displaced
import Lexis.Proofs.Scan.Outcome
import Lexis.Proofs.Scan.Frame
import Lexis.Proofs.Scan.Session
import Lexis.Proofs.Scan.Item
import Lexis.Proofs.Scan.Yield
import Lexis.Proofs.Scan.InStep
import Lexis.Proofs.FirstFault
import Lexis.Proofs.Partition
import Lexis.Proofs.Lines
import Lexis.Proofs.Positions
import Lexis.Proofs.LineEndings
import Lexis.Proofs.Elision
import Lexis.Proofs.Progress
import Lexis.Proofs.Pushback
import Lexis.Proofs.Renewal
import Lexis.Proofs.Streams
import Lexis.Proofs.Extension
import Lexis.Proofs.WellFormed
import Lexis.Proofs.Quotation
import Lexis.Proofs.Spelling
import Lexis.Proofs.Numerals
import Lexis.Proofs.Skipping
import Lexis.Proofs.OpenComment
import Lexis.Proofs.Respacing
import Lexis.Proofs.Window
import Lexis.Proofs.Rendering
import Lexis.Proofs.Records
