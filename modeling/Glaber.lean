import Glaber.Algo.EventQueue
import Glaber.Algo.HashmapRun
import Glaber.Algo.HashsetIter
import Glaber.Algo.Int128
import Glaber.Algo.ObjIndexUpdate
import Glaber.Algo.Queue
import Glaber.Algo.TsbuffOverflow
import Glaber.Crypto.Base64
import Glaber.Eval.RenderParses
import Glaber.Eval.SerializeBounds
import Glaber.Eval.Slices
import Glaber.Exec.Worker
import Glaber.Expr.Report
import Glaber.Expr.ScheduleGrammar
import Glaber.Expr.ScheduleNextcheck
import Glaber.Expr.Unreachable
import Glaber.History.ClickhouseFaithful
import Glaber.History.Trends
import Glaber.History.WorkerRoundTrip
import Glaber.Ip.RangeAccept
import Glaber.Ip.RangeWalk
import Glaber.Ipc.Ipc2Accounting
import Glaber.Ipc.MetricsFlush
import Glaber.Ipc.ServiceStream
import Glaber.Json.Iterate
import Glaber.Jsonpath.Meaning
import Glaber.Jsonpath.Select
import Glaber.Macros.VaultRuns
import Glaber.Maintenance.Occurrences
import Glaber.Maintenance.UpdateFlags
import Glaber.Poller.Asn1RoundTrip
import Glaber.Poller.Notify
import Glaber.Poller.Pinger
import Glaber.Poller.PollTimer
import Glaber.Poller.Sessions
import Glaber.Poller.SnmpDiscovery
import Glaber.Poller.TcpOnce
import Glaber.Poller.TcpSessions
import Glaber.Preproc.AggWindows
import Glaber.Preproc.CsvRoundTrip
import Glaber.Preproc.Dispatch
import Glaber.Selfmon.ReadersAgree
import Glaber.Services.Messages
import Glaber.State.HostIps
import Glaber.State.Ids
import Glaber.State.IfacePolls
import Glaber.State.ItemsCount
import Glaber.State.ItemsDemand
import Glaber.State.ItemsTime
import Glaber.State.Triggers
import Glaber.Tags.Filter
import Glaber.Tags.Maintenance
import Glaber.Time.Iso8601
import Glaber.Trends.CacheRun
