import Tokenizer.Channel.Session
import Tokenizer.Cursor.Session
import Tokenizer.Main
import Tokenizer.Proofs.Channel.Accounting
import Tokenizer.Proofs.Channel.Finality
import Tokenizer.Proofs.Command.Agreement
import Tokenizer.Proofs.Command.Initialization
import Tokenizer.Proofs.Command.Rejection
import Tokenizer.Proofs.Command.Reporting
import Tokenizer.Proofs.Config.Partial
import Tokenizer.Proofs.Cursor.Zipper
import Tokenizer.Proofs.Pipeline.Collection
import Tokenizer.Proofs.Pipeline.Excerpts
import Tokenizer.Proofs.Report.Counts
import Tokenizer.Proofs.Report.Limited
import Tokenizer.Proofs.Report.Lossless
import Tokenizer.Proofs.Report.Unambiguous
import Tokenizer.Proofs.Scanner.Handover
import Tokenizer.Proofs.Scanner.Indentation
import Tokenizer.Proofs.Scanner.Literal
import Tokenizer.Proofs.Scanner.Relocation
import Tokenizer.Proofs.Tokenization.Concatenation
import Tokenizer.Proofs.Tokenization.Extension
import Tokenizer.Proofs.Tokenization.Lines
import Tokenizer.Proofs.Tokenization.Rendering
import Tokenizer.Scanner.Session
