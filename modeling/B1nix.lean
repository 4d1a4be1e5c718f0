import B1nix.Dev.Zram
import B1nix.Fs.Fsync
import B1nix.Fs.LandlockPaths
import B1nix.Fs.Eventfd
import B1nix.Dev.Md
import B1nix.Fs.MemFile
import B1nix.Fs.TimerfdExact
import B1nix.Fs.FilelockHolds
import B1nix.Mm.SwapRun
import B1nix.Mm.PageCache
import B1nix.Mm.PageLifeSteps
import B1nix.Sched.VmaEdit
import B1nix.Sched.Ktimer
import B1nix.Sched.Runqueue
import B1nix.Sched.Setgroups
import B1nix.Net.Route
import B1nix.Net.TcpParse
import B1nix.Net.TcpRetransmit
import B1nix.Net.TcpDelivery
import B1nix.Net.TcpClose
import B1nix.Net.SockFilter
import B1nix.Bpf.Map
import B1nix.Bpf.Ringbuf
import B1nix.Bpf.Jit
import B1nix.Mm.KheapRun
import B1nix.Mm.Klarge
import B1nix.Bpf.Fold
import B1nix.Lkpi.Rwsem
import B1nix.Lkpi.WwMutex
import B1nix.Lz4.Decoder
import B1nix.Sched.Seccomp
import B1nix.Mm.PcpLayout
import B1nix.Sched.Futex
import B1nix.Fs.Pipe
import B1nix.Ipc.Mqueue
import B1nix.Ipc.Sem
import B1nix.Ipc.Wait
import B1nix.Mm.PageFrames
import B1nix.Lib.Ksym
import B1nix.Lib.Wallclock
import B1nix.Fs.FatNames
import B1nix.Lkpi.IovIter
