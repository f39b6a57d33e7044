import Aizign.Json
import Aizign.JsonSound
import Aizign.Unicode
import Aizign.Serde
import Aizign.Units
import Aizign.JsonToken
import Aizign.JsonTokenString
import Aizign.JsonTokenSound
import Aizign.JsonTokenWalk
import Aizign.JsonTokenScan
import Aizign.JsonTokenExact
import Aizign.JsonTokenRewrite
import Aizign.JsonTokenTs
import Aizign.JsonTokenTsSound
import Aizign.Identity
import Aizign.Workflow
import Aizign.WorkflowRuns
import Aizign.Sha256
import Aizign.JsonWrite
import Aizign.JsonMember
import Aizign.Prog
import Aizign.Engine
import Aizign.Commit
import Aizign.CommitSound
import Aizign.SerdeSound
import Aizign.CommitLanguage
import Aizign.Record
import Aizign.RecordSound
import Aizign.RecordStream
import Aizign.Fs
import Aizign.Store
import Aizign.StoreLogic
import Aizign.StoreReads
import Aizign.StoreRuns
import Aizign.StoreAppend
import Aizign.StoreOpen
import Aizign.StoreImage
import Aizign.StoreClassify
import Aizign.StoreExec
import Aizign.StoreExecAppend
import Aizign.StoreCrash
import Aizign.StoreFaults
import Aizign.StoreExecOpen
import Aizign.StoreMatrix
import Aizign.Payload
import Aizign.Envelope
import Aizign.EnvelopeSound
import Aizign.EnvelopeStages
import Aizign.WorkflowReplay
import Aizign.CommitBytes
import Aizign.Mountinfo
import Aizign.MountinfoSound
import Aizign.Framing
import Aizign.FramingSound
import Aizign.JsonValue
import Aizign.EnvelopeEncode
import Aizign.EnvelopeRoundTrip
import Aizign.Respond
import Aizign.Js
import Aizign.JsParse
import Aizign.SignalTs
import Aizign.RecordLanguage
import Aizign.EnvelopeTs
import Aizign.ResponseTs
import Aizign.ResponseTsSound
import Aizign.ProgRefine
import Aizign.EngineHandle
import Aizign.EngineObserved
import Aizign.EngineService
import Aizign.MemoryJournal
import Aizign.Client
import Aizign.ClientSound
import Aizign.Watchdog
import Aizign.WatchdogSound
import Aizign.StoreFresh
import Aizign.StoreCommitted
import Aizign.Cli
import Aizign.StoreMemory
import Aizign.StoreList
import Aizign.StoreSections
import Aizign.Processes
import Aizign.Service
import Aizign.Host
import Aizign.Disk
import Aizign.Durable
import Aizign.StorePhases
import Aizign.PowerLoss
import Aizign.StateEntry
import Aizign.Initialization
import Aizign.Adapter
import Aizign.AdapterSound
import Aizign.Conversation
