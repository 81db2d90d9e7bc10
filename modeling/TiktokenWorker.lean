import TiktokenWorker.Utf8.Lossy
import TiktokenWorker.Utf8.Window
import TiktokenWorker.Sliding
import TiktokenWorker.Machine
import TiktokenWorker.CoreBpe
import TiktokenWorker.Greedy
import TiktokenWorker.Tiktoken
import TiktokenWorker.Chunking
import TiktokenWorker.Decoding
import TiktokenWorker.Budget
import TiktokenWorker.Arrow.Array
import TiktokenWorker.Arrow.Builder
import TiktokenWorker.ArrowIo
import TiktokenWorker.MachineChunk
import TiktokenWorker.Scalar.Rows
import TiktokenWorker.Scalar.Count
import TiktokenWorker.Scalar.Encoding
import TiktokenWorker.Scalar.Tokenize
import TiktokenWorker.Scalar.Truncate
import TiktokenWorker.Scalar.Chunk
import TiktokenWorker.RowWise
import TiktokenWorker.Aborts
import TiktokenWorker.Resolution
import TiktokenWorker.ModelTable
import TiktokenWorker.Integers
import TiktokenWorker.Counts
import TiktokenWorker.Capacity
import TiktokenWorker.Json.Grammar
import TiktokenWorker.Json.Lexer
import TiktokenWorker.Json.Parser
import TiktokenWorker.Meta
import TiktokenWorker.OnceCell
import TiktokenWorker.Worker
import TiktokenWorker.Outcome
import TiktokenWorker.Serving
import TiktokenWorker.Sessions
import TiktokenWorker.Scan
import TiktokenWorker.Stitch
import TiktokenWorker.Room
import TiktokenWorker.Targets
import TiktokenWorker.Binding
import TiktokenWorker.Composition
import TiktokenWorker.Rechunk
