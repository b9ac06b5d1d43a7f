import Mediabox.Lib.Transition
import Mediabox.LinkedList
import Mediabox.Queue
import Mediabox.QueueFifo
import Mediabox.QueueClose
import Mediabox.ObjectUnref
import Mediabox.Dispatch
import Mediabox.DispatchRefs
import Mediabox.TimeUtil
import Mediabox.Timers
import Mediabox.TorrentReadahead
import Mediabox.TorrentQueue
import Mediabox.Checkpoint
import Mediabox.Lib.Outcome
import Mediabox.Lib.SqlText
import Mediabox.Lib.Ring
import Mediabox.Player
import Mediabox.PlayerSpec
import Mediabox.PlayerLife
import Mediabox.PlayerPause
import Mediabox.PlayerCheckpoints
import Mediabox.PlayerRest
import Mediabox.PlayerSession
import Mediabox.PlayerPlan
import Mediabox.PlayerPlaylist
import Mediabox.Audio
import Mediabox.AudioPackets
import Mediabox.AudioDrop
import Mediabox.AudioFrames
import Mediabox.AudioDecode
import Mediabox.AudioHandles
import Mediabox.DispatchChange
import Mediabox.DispatchLife
import Mediabox.DestroyTimer
import Mediabox.Process
import Mediabox.ProcessSteps
import Mediabox.ProcessLocks
import Mediabox.ProcessEntries
import Mediabox.ProcessStop
import Mediabox.ProcessExits
import Mediabox.ProcessReap
import Mediabox.ProcessTimers
import Mediabox.Dvdio
import Mediabox.DvdioTalk
import Mediabox.DvdioLocks
import Mediabox.DvdioArgs
import Mediabox.DvdioPipeline
import Mediabox.DvdioAnswers
import Mediabox.Settings
import Mediabox.SettingsMap
import Mediabox.HttpStream
import Mediabox.HttpFill
import Mediabox.HttpMoves
import Mediabox.HttpPositions
import Mediabox.HttpBytes
import Mediabox.TorrentPieces
import Mediabox.LibraryNames
import Mediabox.LibraryTable
import Mediabox.LibraryAdd
import Mediabox.LibraryEvents
import Mediabox.LibraryWatch
import Mediabox.LibraryPaths
import Mediabox.Delegate
import Mediabox.Downloads
import Mediabox.AudioLocks
import Mediabox.PlayerStreams
import Mediabox.Lib.Mutex
import Mediabox.TorrentClose
import Mediabox.TorrentWake
import Mediabox.PlayerStart
import Mediabox.PlayerHalt
import Mediabox.PlayerDrop
import Mediabox.TorrentWarmup
import Mediabox.WindowPaint
import Mediabox.Lib.LinkRing
import Mediabox.WindowStack
import Mediabox.DispatchDelivery
import Mediabox.DispatchMail
import Mediabox.DelegatePost
import Mediabox.MmalTransit
import Mediabox.Lib.MachineInt
import Mediabox.TimersPass
import Mediabox.ThreadPick
import Mediabox.PlayerChapters
import Mediabox.PlayerMarks
import Mediabox.PlayerScale
import Mediabox.DownloadProgress
import Mediabox.TorrentDeadlines
import Mediabox.TorrentBufferState
import Mediabox.TorrentSeek
import Mediabox.PlayerCache
import Mediabox.LibrarySeries
import Mediabox.Lib.SqlLike
import Mediabox.LibraryDelete
import Mediabox.Lib.Double
import Mediabox.AudioTimeout
import Mediabox.PlayerTracks
import Mediabox.Listview
import Mediabox.ProcessPolicy
import Mediabox.Lib.Lifetime
import Mediabox.ProcessStart
import Mediabox.ProcessWait
import Mediabox.Lib.Circulation
import Mediabox.PlayerPackets
import Mediabox.PlayerPacketSteps
import Mediabox.PlayerFlow
import Mediabox.PlayerFlowControl
import Mediabox.PlayerPool
import Mediabox.Stopwatch
import Mediabox.MmalPackets
import Mediabox.Lib.Recency
import Mediabox.InputStack
import Mediabox.Overlay
import Mediabox.Volume
import Mediabox.Lib.Nesting
import Mediabox.SoftwareSurface
import Mediabox.Lib.NameTable
import Mediabox.OpenglSurface
import Mediabox.OpenglUpload
import Mediabox.ListviewRows
import Mediabox.Lib.Chunks
import Mediabox.Lib.LongestPrefix
import Mediabox.InputSocket
import Mediabox.VolumeBar
import Mediabox.UrlDecode
import Mediabox.DbUtil
import Mediabox.PipeTransfer
import Mediabox.Resource
import Mediabox.GetUrl
import Mediabox.Lib.Tokens
import Mediabox.MkdirP
import Mediabox.KernelArgs
import Mediabox.Discovery
import Mediabox.Subscribers
import Mediabox.Lib.Occurrences
import Mediabox.StrReplace
import Mediabox.StringBuilder
import Mediabox.ListMacros
import Mediabox.WindowClear
import Mediabox.BrowserDestroy
import Mediabox.BrowserListing
import Mediabox.PlayerFrameOrder
import Mediabox.ShellStatus
import Mediabox.SoftwareScreen
import Mediabox.LibraryBrowse
import Mediabox.LibraryScan
import Mediabox.DownloadsShown
import Mediabox.SettingsValues
