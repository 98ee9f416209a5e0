import QosKernel.Mm.PmmCount
import QosKernel.Mm.VmmCompare
import QosKernel.Net.UdpCompare
import QosKernel.Net.Arp
import QosKernel.Irq.CTimerTiming
import QosKernel.Irq.RustTimer
import QosKernel.Irq.WorkqueueOrder
import QosKernel.Net.NapiRuns
import QosKernel.Net.TcpCompare
import QosKernel.Syscall.CPositions
import QosKernel.Syscall.CPipes
import QosKernel.Exec.CLibsHeld
import QosKernel.Exec.CLibsTrace
import QosKernel.Locks.Discipline
import QosKernel.Syscall.RustFileStore
import QosKernel.Sched.Compare
import QosKernel.Proc.CSelection
import QosKernel.Proc.CWait
import QosKernel.Proc.CRuntimeMap
import QosKernel.Proc.CExitStatus
import QosKernel.Proc.SignalCompare
import QosKernel.Syscall.ProcPaths
import QosKernel.Exec.ExecFiles
import QosKernel.Syscall.Duplicates
import QosKernel.Syscall.StreamIsolation
import QosKernel.Libc.Format
import QosKernel.Libc.Inet
import QosKernel.Libc.Strtok
import QosKernel.Probe.Checksum
import QosKernel.Sched.CKthread
