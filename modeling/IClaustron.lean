import IClaustron.Lib.Run
import IClaustron.Lib.Search
import IClaustron.Lib.Cells
import IClaustron.Lib.Chain
import IClaustron.Lib.Dll
import IClaustron.Lib.Duplex
import IClaustron.Lib.Heap
import IClaustron.Lib.Outcome
import IClaustron.Lib.Overwrite
import IClaustron.Lib.Records
import IClaustron.Lib.Result
import IClaustron.Lib.Assoc
import IClaustron.Lib.Lines
import IClaustron.Lib.Words
import IClaustron.Lib.Forall2
import IClaustron.Lib.Faulty
import IClaustron.Lib.Fields
import IClaustron.Lib.Mutex
import IClaustron.Lib.Threads
import IClaustron.Lib.Locks
import IClaustron.MemContainer.Container
import IClaustron.MemContainer.Regions
import IClaustron.Protocol.Connection
import IClaustron.Protocol.Framing
import IClaustron.Protocol.Messages
import IClaustron.Protocol.RoundTrip
import IClaustron.Protocol.OkReply
import IClaustron.Protocol.NumberFields
import IClaustron.Config.Base64
import IClaustron.Config.Base64RoundTrip
import IClaustron.Config.Base64Strict
import IClaustron.Config.Entries
import IClaustron.Config.Parameters
import IClaustron.Config.KeyValue
import IClaustron.Config.Translate
import IClaustron.Config.SectionWalk
import IClaustron.Config.ReplyReceiver
import IClaustron.Config.NetworkRoundTrip
import IClaustron.Config.Numbers
import IClaustron.Config.VersionFile
import IClaustron.Config.VersionRoundTrip
import IClaustron.Config.DecimalText
import IClaustron.Config.ConnectString
import IClaustron.Config.ConnectPrinters
import IClaustron.Config.DiskUpdate
import IClaustron.Config.Reader
import IClaustron.Config.ReaderLoop
import IClaustron.Config.ReaderEvents
import IClaustron.Config.LineEnds
import IClaustron.Config.GridReader
import IClaustron.Config.PortCheck
import IClaustron.Config.ClusterReader
import IClaustron.Config.ClusterMemory
import IClaustron.Config.ClusterTwoPass
import IClaustron.Config.ClusterSections
import IClaustron.Config.AcceptedConfig
import IClaustron.LinkedList.Sll
import IClaustron.LinkedList.Dll
import IClaustron.ThreadPool.Pool
import IClaustron.ThreadPool.Conservation
import IClaustron.SockBuf.Pool
import IClaustron.SockBuf.Conservation
import IClaustron.DynArray.Array
import IClaustron.DynArray.Simple
import IClaustron.DynArray.Ordered
import IClaustron.DynArray.AllocFail
import IClaustron.DynArray.Refine
import IClaustron.DynArray.PtrArray
import IClaustron.DynArray.Slots
import IClaustron.DynArray.Alike
import IClaustron.DynArray.AlikeCalls
import IClaustron.DynArray.InsertOutcome
import IClaustron.DynArray.FailedInsert
import IClaustron.Pcntrl.Table
import IClaustron.Pcntrl.Commands
import IClaustron.Pcntrl.LockBalance
import IClaustron.Pcntrl.TableInv
import IClaustron.Pcntrl.Ownership
import IClaustron.Pcntrl.ProcessTable
import IClaustron.Pcntrl.History
import IClaustron.Pcntrl.SingleProcess
import IClaustron.Pcntrl.Listing
import IClaustron.Pcntrl.ListReply
import IClaustron.Pcntrl.CopyFiles
import IClaustron.Pcntrl.Containment
import IClaustron.Pcntrl.SendFile
import IClaustron.Pcntrl.StartProtocol
import IClaustron.Pcntrl.StartMemory
import IClaustron.ClusterServer.Update
import IClaustron.ClusterServer.DynamicPort
import IClaustron.ClusterServer.ConfigSwitch
import IClaustron.Config.EncoderSections
import IClaustron.ClusterServer.ConfigRequest
import IClaustron.ClusterServer.StartProtocol
import IClaustron.ClusterServer.Agreement
import IClaustron.ClusterServer.StartThreads
import IClaustron.ClusterServer.StartLocks
import IClaustron.ClusterServer.VersionSync
import IClaustron.ClusterServer.StartQuorum
import IClaustron.Comm.PollSet
import IClaustron.Comm.PartialWrite
import IClaustron.Comm.SizeRanges
import IClaustron.ClusterManager.Sessions
import IClaustron.Apid.Authenticate
import IClaustron.Apid.Heartbeat
import IClaustron.Apid.LockOrder
import IClaustron.Apid.MessageCodec
import IClaustron.Apid.MetadataTransaction
import IClaustron.Apid.Receive
import IClaustron.Apid.ReceivePages
import IClaustron.Apid.ReceiveFraming
import IClaustron.Apid.ReceiveRobust
import IClaustron.Apid.ReceiveNodes
import IClaustron.Apid.TableDescription
import IClaustron.Apid.TableBuilder
import IClaustron.Apid.TableBuilderRuns
import IClaustron.Apid.TableBuilderLists
import IClaustron.Apid.RecordSize
import IClaustron.Apid.QueryFields
import IClaustron.Apid.QueryFieldsOrganized
import IClaustron.Apid.AdaptiveSend
import IClaustron.Apid.Fragmentation
import IClaustron.Bootstrap.CopyConfigIni
import IClaustron.Lib.Scan
import IClaustron.Lex.Keywords
import IClaustron.Lex.Calls
import IClaustron.Lex.Lexers
import IClaustron.Lex.Safety
import IClaustron.Bootstrap.PrepareTables
import IClaustron.Comm.FailedAdd
import IClaustron.DynArray.OutOfRange
