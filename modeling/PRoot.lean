import PRoot.Accounts
import PRoot.AutoAttach
import PRoot.AuxvReads
import PRoot.CanonCorrect
import PRoot.CwdRenames
import PRoot.DeletedFiles
import PRoot.FailedLinks
import PRoot.GlueMode
import PRoot.HeaderTable
import PRoot.HiddenFiles
import PRoot.IpcIds
import PRoot.IpcKeys
import PRoot.LinkCounts
import PRoot.ListedNames
import PRoot.LoaderNames
import PRoot.MountUndo
import PRoot.MsgSelection
import PRoot.NestedScripts
import PRoot.NetlinkDumps
import PRoot.PathBuffers
import PRoot.PathSplits
import PRoot.PivotRoots
import PRoot.PtraceRuns
import PRoot.QueueWakeups
import PRoot.ScratchMemory
import PRoot.SeccompFilter
import PRoot.SegmentLoads
import PRoot.SegmentSizes
import PRoot.SemAtomic
import PRoot.SessionService
import PRoot.SocketCalls
import PRoot.SysnumReads
import PRoot.TerminalOutput
import PRoot.TracemeParents
import PRoot.VmService
