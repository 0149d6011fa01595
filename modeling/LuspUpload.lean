import LuspUpload.Lib.Runs
import LuspUpload.Lib.LeBytes
import LuspUpload.Lib.Ring
import LuspUpload.Lib.TwoTier
import LuspUpload.MQ.Message
import LuspUpload.MQ.Streams
import LuspUpload.MQ.Queue
import LuspUpload.MQ.Steps
import LuspUpload.MQ.Rep
import LuspUpload.MQ.Refine
import LuspUpload.MQ.IndexFile
import LuspUpload.MQ.Account
import LuspUpload.MQ.Order
import LuspUpload.MQ.Head
import LuspUpload.MQ.Recovery
import LuspUpload.MQ.Restart
import LuspUpload.MQ.TornLog
import LuspUpload.MQ.Lifetimes
import LuspUpload.MQ.Coherence
import LuspUpload.MQ.DiskBytes
import LuspUpload.MQ.DiskBound
import LuspUpload.Lib.Deframe
import LuspUpload.Ipc.Frame
import LuspUpload.Ipc.Server
import LuspUpload.Lib.FlatTable
import LuspUpload.Upload.FileInfo
import LuspUpload.Ipc.Demux
import LuspUpload.Ipc.Client
import LuspUpload.Ipc.HandOver
import LuspUpload.Ipc.Monitor
import LuspUpload.Ipc.Reconnect
import LuspUpload.Lib.Cut
import LuspUpload.Upload.Service
import LuspUpload.Upload.Forward
import LuspUpload.Ipc.Backoff
import LuspUpload.Ipc.Registry
import LuspUpload.Ipc.Bounds
import LuspUpload.Ipc.Wakeup
import LuspUpload.Ipc.Wire
import LuspUpload.Lib.Calls
import LuspUpload.Upload.RowLockQueue
import LuspUpload.Config.NetworkConfig
import LuspUpload.Lib.Timer
import LuspUpload.Ipc.Link
import LuspUpload.Ipc.LinkSteps
import LuspUpload.Ipc.Final
import LuspUpload.Ipc.HeartbeatFailure
import LuspUpload.Ipc.Heartbeat
import LuspUpload.Ipc.Downstream
import LuspUpload.MQ.Reported
import LuspUpload.MQ.MessageIds
import LuspUpload.Ipc.EarlySend
import LuspUpload.Ipc.FailureCount
import LuspUpload.Lib.Fields
import LuspUpload.Lib.TomlValue
import LuspUpload.Config.Manager
import LuspUpload.Lib.TomlString
import LuspUpload.Lib.TomlText
import LuspUpload.Lib.TomlReader
import LuspUpload.Config.FailedImport
import LuspUpload.Config.Narrowing
import LuspUpload.Lib.TomlParts
import LuspUpload.Config.Export
import LuspUpload.Config.RoundTrip
import LuspUpload.Ipc.Redelivery
import LuspUpload.Upload.Stopping
import LuspUpload.MQ.Damaged
import LuspUpload.MQ.Rescan
import LuspUpload.Ipc.ConnectedTime
import LuspUpload.Ipc.StaleClients
import LuspUpload.Upload.QueueCounter
import LuspUpload.MQ.Spsc
import LuspUpload.Ipc.UploadRecord
import LuspUpload.MQ.Codec
import LuspUpload.Config.WrongTypes
import LuspUpload.Lib.ReadLoop
import LuspUpload.Upload.Md5
import LuspUpload.Lib.Crc
import LuspUpload.Hash.Crc32
import LuspUpload.Hash.Window
import LuspUpload.MQ.Checksum
import LuspUpload.Hash.Md5
import LuspUpload.Hash.Md5Stream
import LuspUpload.Ipc.FileDigest
import LuspUpload.Lib.Atomic
import LuspUpload.Upload.LinearQueue
import LuspUpload.Ipc.EndToEnd
import LuspUpload.Ipc.Pipeline
import LuspUpload.Log.LogWakeup
import LuspUpload.Lib.Converter
import LuspUpload.Text.ConvertEncoding
import LuspUpload.Text.History
import LuspUpload.Text.SystemEncoding
import LuspUpload.Text.UniConv
import LuspUpload.Ipc.LostLink
import LuspUpload.Ipc.Attempts
import LuspUpload.Config.Store
