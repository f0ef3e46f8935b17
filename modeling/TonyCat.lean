import TonyCat.Library.ByteOrder
import TonyCat.Library.LengthPrefix
import TonyCat.Database.RawData
import TonyCat.Database.ListCodec
import TonyCat.Database.Protobuf
import TonyCat.Library.Varint
import TonyCat.Database.ProtoWire
import TonyCat.Database.KVHandle
import TonyCat.Database.KeySpace
import TonyCat.Library.Run
import TonyCat.Database.IndexedTable
import TonyCat.Database.IndexSteps
import TonyCat.Database.Schema
import TonyCat.Database.UserData
import TonyCat.Database.UserEntries
import TonyCat.Database.KVRefinement
import TonyCat.Database.KeyedLoad
import TonyCat.Database.RangeMode
import TonyCat.Database.MysqlStatements
import TonyCat.Database.SqlPlaces
import TonyCat.Database.SqlRows
import TonyCat.Database.QueryStringReplace
import TonyCat.Database.MysqlAgreement
import TonyCat.Database.SingularTable
import TonyCat.Library.Sharded
import TonyCat.Library.ShiftRegister
import TonyCat.Utility.Crc
import TonyCat.Library.BitRegister
import TonyCat.Utility.CrcBits
import TonyCat.Database.RocksDb
import TonyCat.Database.Footprint
import TonyCat.Database.Isolation
import TonyCat.Database.KeyPath
import TonyCat.Database.Reshard
import TonyCat.Library.BooleanCondition
import TonyCat.Library.Transducer
import TonyCat.Library.LoopPool
import TonyCat.Library.FairRun
import TonyCat.Library.Descent
import TonyCat.Loop.ModuleManager
import TonyCat.Loop.LoopPool
import TonyCat.Loop.PoolOrder
import TonyCat.Loop.PoolCopies
import TonyCat.Loop.PoolCompletion
import TonyCat.Library.DirectStyle
import TonyCat.Loop.LoopCoroutine
import TonyCat.Loop.CoroutineMeaning
import TonyCat.Database.RemapRun
import TonyCat.Database.RemapExact
import TonyCat.Database.RemapCrash
import TonyCat.Database.RemapRestart
import TonyCat.Database.RemapTidy
import TonyCat.Database.MysqlDelete
import TonyCat.Database.SqlCondition
import TonyCat.Database.MysqlExact
import TonyCat.Library.FrameStream
import TonyCat.Library.Delimited
import TonyCat.Net.SessionBuffer
import TonyCat.Library.Fifo
import TonyCat.Net.BufferQueue
import TonyCat.Net.NetPbModule
import TonyCat.Net.PacketStream
import TonyCat.Net.PacketRoundTrip
import TonyCat.Net.CorruptFrame
import TonyCat.Library.GreedyFill
import TonyCat.Net.WritePump
import TonyCat.Net.WriteAdmission
import TonyCat.Net.ReadPump
import TonyCat.Library.KeyedList
import TonyCat.Utility.HttpRequest
import TonyCat.Utility.HttpLines
import TonyCat.Utility.HttpScan
import TonyCat.Utility.HttpBoundary
import TonyCat.Utility.HttpGrammar
import TonyCat.Utility.HttpFragments
import TonyCat.Database.ColumnText
import TonyCat.Utility.ConfigFieldPaser
import TonyCat.Config.XmlConfigModule
import TonyCat.Net.NetHttpModule
import TonyCat.Net.HttpStream
import TonyCat.Library.TurnLoop
import TonyCat.Net.HttpLoop
import TonyCat.Net.HttpRoute
import TonyCat.Service.RpcModule
import TonyCat.Service.RpcCompletion
import TonyCat.Service.ServiceGovernment
import TonyCat.Service.Reconnect
import TonyCat.Service.SingleLink
import TonyCat.Service.ServerRouting
import TonyCat.Game.ServerHead
import TonyCat.Library.PartyLoops
import TonyCat.Library.Mailbox
import TonyCat.Utility.SpinLock
import TonyCat.Net.MsgFunctions
import TonyCat.Net.Delivery
import TonyCat.Net.HeadTTL
import TonyCat.Net.NetModule
import TonyCat.Net.SessionLifecycle
import TonyCat.Net.HttpContext
import TonyCat.Net.ConnectCall
import TonyCat.Library.StorageProgram
import TonyCat.Database.KVProgram
import TonyCat.Game.DBExecModule
import TonyCat.Game.SaveAck
import TonyCat.Game.DBShards
import TonyCat.Game.DBLives
import TonyCat.Game.DBStart
import TonyCat.Service.RpcPending
import TonyCat.Game.PlayerManagerModule
import TonyCat.Game.ClientPbModule
import TonyCat.Game.LoginSystem
import TonyCat.Game.GateRelay
import TonyCat.Game.SessionRegistry
import TonyCat.Game.ClientManagerModule
import TonyCat.Library.LineFeed
import TonyCat.Tools.PaserPb
import TonyCat.Tools.ProtoLayout
import TonyCat.Tools.LayoutFits
import TonyCat.Tools.LineWords
import TonyCat.Tools.BodyLines
import TonyCat.Tools.FieldReading
import TonyCat.Tools.PassedLines
import TonyCat.Tools.ItemReading
import TonyCat.Tools.MessageReading
import TonyCat.Tools.FileReading
import TonyCat.Tools.LineTurns
import TonyCat.Tools.LostKeys
import TonyCat.Tools.LostTables
import TonyCat.Tools.LostFields
import TonyCat.Tools.KeyTable
