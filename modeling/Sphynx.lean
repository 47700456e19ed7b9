import Sphynx.Lib.Loop
import Sphynx.Lib.CString
import Sphynx.External.Nanoprintf
import Sphynx.Dev.Tty
import Sphynx.Stdlib.String
import Sphynx.Stdlib.Data.Tar
import Sphynx.Stdlib.Data.TarWalk
import Sphynx.Stdlib.Data.TarListing
import Sphynx.Stdlib.Data.TarArchive
import Sphynx.Stdlib.Data.TarLookup
import Sphynx.Core.Idt
import Sphynx.Lib.Outcome
import Sphynx.Lib.Memory
import Sphynx.Lib.X86
import Sphynx.Sys.Cpu
import Sphynx.Kernel
import Sphynx.KernelMessage
import Sphynx.Core.IdtStub
import Sphynx.Dev.Log
import Sphynx.Stdlib.Data.TarSize
import Sphynx.Lib.Search
import Sphynx.Stdlib.StringSearch
import Sphynx.Stdlib.StringOrder
import Sphynx.Lib.Block
import Sphynx.Stdlib.MemoryMove
import Sphynx.Stdlib.StringCopy
import Sphynx.Lib.LastWrite
import Sphynx.Lib.Rounding
import Sphynx.Lib.CInteger
import Sphynx.Core.IdtGates
import Sphynx.Stdlib.MathUtils
import Sphynx.Stdlib.Bitmap
import Sphynx.Lib.InterruptedRun
import Sphynx.Core.InterruptedProgram
import Sphynx.Lib.Segments
import Sphynx.Core.Gdt
import Sphynx.Core.InterruptDelivery
import Sphynx.Dev.Serial
import Sphynx.Lib.Uart
import Sphynx.Dev.SerialLine
import Sphynx.External.FormatSpecs
import Sphynx.Lib.Numerals
import Sphynx.External.FormatNumbers
import Sphynx.Core.ExceptionReport
import Sphynx.Dev.LogLine
import Sphynx.KernelConsole
import Sphynx.Stdlib.Data.TarPrinted
import Sphynx.Sys.RegisterDump
import Sphynx.Stdlib.MemoryOverlap
