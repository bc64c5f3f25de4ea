import Smer.Lib.Prog
import Smer.Lib.Run
import Smer.Lib.Pool
import Smer.Lib.Custody
import Smer.Lib.Handover
import Smer.Lib.CText
import Smer.Lib.CMemory
import Smer.Lib.Framing
import Smer.Lib.SqlText
import Smer.Seqeue.TransObj
import Smer.Redis.Store
import Smer.Mysql.Sql
import Smer.Server.Effect
import Smer.Redis.RedisPool
import Smer.Redis.Contexts
import Smer.Mysql.MysqlPool
import Smer.Mysql.Connections
import Smer.Communication.ComManger
import Smer.Communication.Commands
import Smer.Communication.Sessions
import Smer.Communication.UserMap
import Smer.HandleMsg.HandleMsgServer
import Smer.HandleMsg.Footprint
import Smer.HandleMsg.InPlace
import Smer.Util.ThreadPool
import Smer.Util.ConcList
import Smer.Util.ConcQueue
import Smer.Util.Input
import Smer.Player.Player
import Smer.SmerSystem.SysManger
import Smer.HandleMsg.HandleMsgClient
import Smer.Client.Client
import Smer.Server.Zepoll
import Smer.Server.EventLoop
import Smer.Server.Wire
import Smer.Server.System
import Smer.Laws.Framing
import Smer.Laws.Decoding
import Smer.Laws.Session
import Smer.Laws.SessionReads
import Smer.Laws.SessionWindows
import Smer.Laws.Login
import Smer.Laws.Routing
import Smer.Laws.Registration
import Smer.Laws.RegistrationOutcome
import Smer.Laws.RegistrationId
import Smer.Laws.RoundTrip
import Smer.Laws.Chat
import Smer.Laws.Friends
import Smer.Laws.Connections
import Smer.Laws.Contexts
import Smer.Laws.CommandBuffer
import Smer.Laws.Durability
import Smer.Laws.UserMap
import Smer.Laws.Logout
import Smer.Laws.Grammar
import Smer.Laws.EventLoop
import Smer.Laws.TalkOrder
import Smer.Laws.Outbound
import Smer.Laws.Sender
import Smer.Game.Game
import Smer.Laws.Keyboard
import Smer.Laws.Credentials
import Smer.Laws.FriendMap
import Smer.Laws.ConcList
import Smer.Laws.Requests
import Smer.Laws.Statements
import Smer.Laws.SessionCommands
import Smer.Laws.PoolLeaks
import Smer.Laws.SessionWrites
import Smer.Laws.WakeUps
import Smer.Laws.Replies
import Smer.Laws.HeapCells
import Smer.Laws.UserMapRefresh
import Smer.Game.Frames
import Smer.Laws.KeyboardScan
import Smer.Laws.Descriptors
import Smer.Laws.Answers
import Smer.Lib.Refinement
import Smer.Server.ChatService
import Smer.Laws.ChatService
import Smer.Game.ClientRun
import Smer.Lib.Ensures
import Smer.HandleMsg.ClientEffects
import Smer.Laws.TypedLines
import Smer.Laws.ClientMoves
import Smer.Laws.Display
import Smer.Laws.ClientSession
import Smer.Server.Deployment
import Smer.Laws.Deployment
import Smer.Lib.Padded
import Smer.Util.ZTime
import Smer.Log.Log
import Smer.Laws.Log
import Smer.Lib.Segments
import Smer.Laws.LogFiles
import Smer.Laws.ContextCount
import Smer.Util.PoolWakes
import Smer.Laws.Workers
import Smer.Laws.ServerInit
import Smer.Laws.Friendship
import Smer.Laws.Completion
import Smer.Laws.Reconnects
