import Optrace.Accounting
import Optrace.Aliasing
import Optrace.Arrivals
import Optrace.Assertions
import Optrace.BpfProgram
import Optrace.Cloexec
import Optrace.CommandLine
import Optrace.Conservation
import Optrace.CoreCounts
import Optrace.CorePaths
import Optrace.Cores
import Optrace.DocumentedOptions
import Optrace.Domains
import Optrace.ExitCode
import Optrace.FailedCalls
import Optrace.FdPaths
import Optrace.FilterVerdicts
import Optrace.Forwarding
import Optrace.Growth
import Optrace.HighWater
import Optrace.Idle
import Optrace.Inherited
import Optrace.Log
import Optrace.Narrowing
import Optrace.Parity
import Optrace.Picked
import Optrace.Progress
import Optrace.Registers
import Optrace.Registration
import Optrace.Schedules
import Optrace.Sizes
import Optrace.ThreadReports
import Optrace.Totals
