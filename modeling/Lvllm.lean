import Lvllm.Engine.Batching
import Lvllm.Engine.Coordinator
import Lvllm.Eplb.Exchange
import Lvllm.KVCache.CommonPrefix
import Lvllm.KVCache.HybridHit
import Lvllm.KVCache.QueueList
import Lvllm.KVCache.Reservation
import Lvllm.KVCache.WindowMask
import Lvllm.Multimodal.Mirrored
import Lvllm.Offload.AsyncRuns
import Lvllm.Offload.OffloadRuns
import Lvllm.Parser.LexerChunks
import Lvllm.Sched.Budgets
import Lvllm.Sched.EncoderAccounting
import Lvllm.Sched.QueueOrder
import Lvllm.StructuredOutput.Bitmask
import Lvllm.Text.Incremental
import Lvllm.Worker.Reorder
import Lvllm.Worker.SlotMapping
import Lvllm.Worker.UBatch
