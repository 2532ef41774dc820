import OS391.Lib.CInt
import OS391.Lib.Memory
import OS391.Lib.Reverse
import OS391.Lib.Transition
import OS391.Lib.StraightLine
import OS391.Lib.Stacks
import OS391.Lib.Slots
import OS391.Lib.Window
import OS391.Lib.Tally
import OS391.Lib.Traced
import OS391.Lib.Divider
import OS391.Lib.ByteMemory
import OS391.Lib.X86
import OS391.Lib.X86Run
import OS391.Lib.Descriptor
import OS391.Lib.Pic
import OS391.CString
import OS391.FileSys
import OS391.Lookup
import OS391.Itoa
import OS391.NameLookup
import OS391.ReadData
import OS391.Console
import OS391.Printf
import OS391.Keyboard
import OS391.Panes
import OS391.KeyInput
import OS391.Screens
import OS391.ScreenBounds
import OS391.BackgroundWrite
import OS391.RowOverflow
import OS391.Kernel
import OS391.Paging
import OS391.Descriptors
import OS391.TerminalIo
import OS391.TypedLines
import OS391.LineDiscipline
import OS391.SystemCall
import OS391.ReadCall
import OS391.Process
import OS391.Table
import OS391.System
import OS391.Terminals
import OS391.Operations
import OS391.Bookkeeping
import OS391.Frames
import OS391.Refinement
import OS391.Consistency
import OS391.ProcessNumbers
import OS391.Context
import OS391.HaltAtomic
import OS391.Arguments
import OS391.StoredBuf
import OS391.Splitting
import OS391.RoundTrip
import OS391.Loader
import OS391.ReadBounds
import OS391.ReadReturn
import OS391.DescriptorBounds
import OS391.DescriptorMap
import OS391.CleanTable
import OS391.TimerMask
import OS391.SequentialReads
import OS391.DirectoryListing
import OS391.ImageFormat
import OS391.VideoMap
import OS391.Protection
import OS391.FailedExecute
import OS391.ShellCount
import OS391.Executability
import OS391.FailedOpen
import OS391.RtcRates
import OS391.RtcClock
import OS391.WriteText
import OS391.UserPrograms
import OS391.StringOps
import OS391.Gates
import OS391.Linkage
import OS391.OwnStack
import OS391.PcbSearch
import OS391.BlockSubscripts
import OS391.RowCounter
import OS391.BaseShells
import OS391.Preemption
import OS391.Interrupts
import OS391.Handlers
import OS391.LineMasks
import OS391.InService
import OS391.RtcService
