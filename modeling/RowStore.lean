import RowStore.Json.Records
import RowStore.Main
import RowStore.OrderedMap.Lookup
import RowStore.Proofs.Recovery
import RowStore.Proofs.Compaction
import RowStore.Proofs.Refusals
import RowStore.Proofs.Sessions
import RowStore.Proofs.Reopening
import RowStore.Proofs.Opening
import RowStore.Proofs.Relations
import RowStore.Proofs.Answering
import RowStore.Proofs.References
import RowStore.Proofs.RowCodec
import RowStore.Proofs.Recoding
import RowStore.Proofs.LastWritten
import RowStore.Proofs.TypeSoundness
import RowStore.Proofs.Parsing
import RowStore.Proofs.Precedence
import RowStore.Proofs.Isolation
import RowStore.Proofs.Literals
import RowStore.Proofs.Lifecycle
import RowStore.Proofs.Restarting
import RowStore.Proofs.RowWidths
import RowStore.Proofs.Tiling
import RowStore.Proofs.Comparing
import RowStore.Proofs.Conditions
import RowStore.Proofs.SchemaTexts
import RowStore.Proofs.Numerals
import RowStore.Proofs.RowIdentity
import RowStore.Proofs.Loading
import RowStore.Proofs.Counting
import RowStore.Proofs.Overwriting
import RowStore.Proofs.Payloads
import RowStore.Proofs.Alignment
import RowStore.Proofs.JsonMembers
import RowStore.Proofs.DateTexts
