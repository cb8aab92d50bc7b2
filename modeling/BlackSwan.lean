import BlackSwan.Bytes
import BlackSwan.Memory
import BlackSwan.Decimal
import BlackSwan.Separators
import BlackSwan.Framing
import BlackSwan.Pipe
import BlackSwan.Packet
import BlackSwan.Reader
import BlackSwan.Runs
import BlackSwan.Simulation
import BlackSwan.Turns
import BlackSwan.Directory
import BlackSwan.Journal
import BlackSwan.Writer
import BlackSwan.Connector
import BlackSwan.ConnectorAttempts
import BlackSwan.ConnectorBackoff
import BlackSwan.AsioConnector
import BlackSwan.Tables
import BlackSwan.Gate
import BlackSwan.GateInvariant
import BlackSwan.GateClients
import BlackSwan.GatePlayers
import BlackSwan.GateObjects
import BlackSwan.GateRelay
import BlackSwan.Login
import BlackSwan.LoginActs
import BlackSwan.LoginInvariant
import BlackSwan.LoginRuns
import BlackSwan.LoginAccounts
import BlackSwan.LoginIntake
import BlackSwan.LoginLogoff
import BlackSwan.Game
import BlackSwan.Loops
import BlackSwan.Transparent
import BlackSwan.RecvBuffer
import BlackSwan.RecvStall
import BlackSwan.AsioLink
import BlackSwan.AsioRest
import BlackSwan.SendQueue
import BlackSwan.SendCycle
import BlackSwan.Server
import BlackSwan.Heartbeat
import BlackSwan.HeartbeatDetector
import BlackSwan.ChatRoom
import BlackSwan.ChatSystem
import BlackSwan.Recursion
import BlackSwan.PlayerMgr
import BlackSwan.PlayerCtrl
import BlackSwan.PlayerRefs
import BlackSwan.GateParse
import BlackSwan.GateForward
import BlackSwan.LoginData
import BlackSwan.LoginAuth
import BlackSwan.LoginTimeout
import BlackSwan.AuthQuery
import BlackSwan.APThreads
import BlackSwan.APThreadsRuns
import BlackSwan.SessionEnd
import BlackSwan.SessionLink
import BlackSwan.SessionRest
import BlackSwan.LinkPrograms
import BlackSwan.GameEcho
import BlackSwan.GateSpeech
import BlackSwan.LoginSpeech
import BlackSwan.LoginRecords
import BlackSwan.LoginAP
import BlackSwan.LoginDirectory
import BlackSwan.LoginTold
import BlackSwan.LoginServed
import BlackSwan.GateLogin
import BlackSwan.GateLoginInvariant
import BlackSwan.GateLoginRuns
