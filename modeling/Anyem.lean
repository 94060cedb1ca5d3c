import Anyem.ThrowingMethods
import Anyem.ReplyMachine
import Anyem.KeyedMachine
import Anyem.ReservedCell
import Anyem.Separators
import Anyem.ByteStream
import Anyem.Readers
import Anyem.AtomicObjects
import Anyem.FloatNumbers
import Anyem.Resource
import Anyem.ResourceHandles
import Anyem.ResourceHolder
import Anyem.ResourceManager
import Anyem.PoolCells
import Anyem.Reservations
import Anyem.Exclusion
import Anyem.LockHistory
import Anyem.Verdicts
import Anyem.DataAndClock
import Anyem.ValueHistory
import Anyem.Answers
import Anyem.PoolInvariant
import Anyem.Identifiers
import Anyem.Isolation
import Anyem.MixedValues
import Anyem.MixedRequests
import Anyem.MixedOutcomes
import Anyem.Server
import Anyem.MixedServer
import Anyem.Framing
import Anyem.Client
import Anyem.NoLostUpdate
import Anyem.Finishing
import Anyem.CallOrder
import Anyem.ConcurrentCalls
import Anyem.SharedVariable
import Anyem.IncrementThreads
import Anyem.MainLoops
import Anyem.WholeMessages
import Anyem.Serialization
import Anyem.ReadBack
import Anyem.PhpValues
import Anyem.ConfigReader
import Anyem.RetryLoop
import Anyem.DefaultAttempts
import Anyem.RetriedGet
import Anyem.RetriedClosing
import Anyem.SoleClient
import Anyem.SerializedValues
import Anyem.ValueTexts
import Anyem.WireMessages
import Anyem.Exchanges
import Anyem.ClientMessages
