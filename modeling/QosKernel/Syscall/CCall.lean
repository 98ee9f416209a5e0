import QosKernel.Syscall.CTables

/-! # What a C system call reads and writes

A system call gets four words. Some of them point into the memory of the
caller, which is not part of the kernel state: the `Env` of a call gives
what the call finds there, and the `Outcome` lists what it writes. The
`Env` also answers the queries to the parts of the kernel that have no
state here (processes, memory, scheduler, drivers).
-/
open Framework
namespace QosKernel
structure Env where
  byte : UInt64 → UInt8
  /-- The C strings in it, by their address. -/
  str : UInt64 → CStr
  /-- What the kernel stack holds behind the buffer of a `/proc` text. -/
  stack : Nat → UInt8
  proc_alive : UInt32 → Bool
  init_state : UInt32
  pmm_total_pages : UInt32
  pmm_free_pages : UInt32
  sched_count : UInt32
  drivers_count : UInt32
  proc_count : UInt32
  /-- The text of `/proc/runtime/map`. -/
  runtime_map : List UInt8
  /-- The result of an operation on processes, memory, the scheduler or
  libraries, and what it writes to the caller. -/
  other : SyscallOp → Int × List (UInt64 × List UInt8)

namespace Env
variable (env : Env) (addr : UInt64)
def bytes (len : Nat) : List UInt8 :=
  (List.range len).map fun k => env.byte (addr + UInt64.ofNat k)

def word : UInt32 :=
  (env.byte addr).toUInt32 ||| (env.byte (addr + 1)).toUInt32 <<< 8 |||
    (env.byte (addr + 2)).toUInt32 <<< 16 ||| (env.byte (addr + 3)).toUInt32 <<< 24
end Env
def leBytes (n : Nat) (v : UInt64) : List UInt8 :=
  (List.range n).map fun k => (v >>> UInt64.ofNat (8 * k)).toUInt8

/-- The return value, the writes to the caller's memory and the state. -/
structure Outcome where
  rc : Int
  out : List (UInt64 × List UInt8)
  state : KState

namespace Outcome
variable (s : KState)
def ret (rc : Int) : Outcome := ⟨rc, [], s⟩
def fail : Outcome := ⟨-1, [], s⟩
@[simp] theorem ret_state (rc : Int) : (ret s rc).state = s := rfl
@[simp] theorem fail_state : (fail s).state = s := rfl
end Outcome
/-! ### Socket addresses -/
/-- `parse_sockaddr`: the port and the address, both in network order. -/
def parse_sockaddr (env : Env) (addr : UInt64) (len : UInt32) (allow_any_ip : Bool) :
    Option (UInt16 × UInt32) :=
  if addr == 0 || len < 8 then none
  else
    let port := (env.byte (addr + 2)).toUInt16 <<< 8 ||| (env.byte (addr + 3)).toUInt16
    let ip := (env.byte (addr + 4)).toUInt32 <<< 24 ||| (env.byte (addr + 5)).toUInt32 <<< 16 |||
      (env.byte (addr + 6)).toUInt32 <<< 8 ||| (env.byte (addr + 7)).toUInt32
    if port == 0 then none
    else if !allow_any_ip && ip == 0 then none
    else some (port, ip)

def sockaddr (port : UInt16) (ip : UInt32) : List UInt8 :=
  [(2 : UInt8), 0, (port >>> 8).toUInt8, port.toUInt8, (ip >>> 24).toUInt8, (ip >>> 16).toUInt8,
    (ip >>> 8).toUInt8, ip.toUInt8] ++ List.replicate 8 0

def write_sockaddr (addr : UInt64) (port : UInt16) (ip : UInt32) : List (UInt64 × List UInt8) :=
  if addr == 0 then [] else [(addr, sockaddr port ip)]

/-! ### The files under `/proc` -/
/-- The process id in a path: `none` if a byte is not a digit. The value
wraps around. -/
def proc_path_pid : List UInt8 → UInt32 → Option UInt32
  | [], pid => some pid
  | ch :: rest, pid =>
    if ch < 48 || 57 < ch then none else proc_path_pid rest (pid * 10 + (ch - 48).toUInt32)

def proc_path_kind (path : CStr) : Option (ProcKind × UInt32) :=
  let suffix := cstr "/status"
  if path == cstr "/proc/meminfo" then some (.meminfo, 0)
  else if path == cstr "/proc/kernel/status" then some (.kernelStatus, 0)
  else if path == cstr "/proc/net/dev" then some (.netDev, 0)
  else if path == cstr "/proc/syscalls" then some (.syscalls, 0)
  else if path == cstr "/proc/uptime" then some (.uptime, 0)
  else if path == cstr "/proc/runtime/map" then some (.runtimeMap, 0)
  else if path.take 6 ≠ cstr "/proc/" then none
  else if path.length ≤ 6 + suffix.length then none
  else if path.drop (path.length - suffix.length) ≠ suffix then none
  else
    match proc_path_pid ((path.take (path.length - suffix.length)).drop 6) 0 with
    | none => none
    | some pid => if pid == 0 then none else some (.status, pid)

def render_u32 (value : UInt32) : List UInt8 :=
  (Nat.toDigits 10 value.toNat).map fun c => c.val.toUInt8

def proc_fd_render (env : Env) (s : KState) (fd : Fd) : List UInt8 :=
  match fd.proc_kind with
  | .meminfo =>
    cstr "MemTotal:\t" ++ render_u32 (env.pmm_total_pages * 4) ++ cstr " kB\nMemFree:\t" ++
      render_u32 (env.pmm_free_pages * 4) ++ cstr " kB\nProcCount:\t" ++
      render_u32 env.proc_count ++ cstr "\n"
  | .kernelStatus =>
    cstr "InitState:\t" ++ render_u32 env.init_state ++
      cstr "\nPmmTotal:\t" ++ render_u32 env.pmm_total_pages ++
      cstr "\nPmmFree:\t" ++ render_u32 env.pmm_free_pages ++
      cstr "\nSchedCount:\t" ++ render_u32 env.sched_count ++
      cstr "\nVfsCount:\t" ++ render_u32 s.vfs.count ++
      cstr "\nNetQueue:\t" ++ render_u32 (.ofNat s.net.packets.count) ++
      cstr "\nDrivers:\t" ++ render_u32 env.drivers_count ++
      cstr "\nSyscalls:\t" ++ render_u32 s.count ++
      cstr "\nProcCount:\t" ++ render_u32 env.proc_count ++ cstr "\n"
  | .netDev =>
    cstr "Inter-|   Receive                 |  Transmit\n eth0: " ++
      render_u32 (.ofNat s.net.packets.count) ++ cstr " packets              " ++
      render_u32 (.ofNat s.net.packets.count) ++ cstr " packets\n"
  | .syscalls => cstr "SyscallCount:\t" ++ render_u32 s.count ++ cstr "\n"
  | .uptime => cstr "0.00 0.00\n"
  | .runtimeMap => env.runtime_map
  | .status =>
    cstr "Pid:\t" ++ render_u32 fd.proc_pid ++ cstr "\nState:\t" ++
      cstr (if env.proc_alive fd.proc_pid then "Running" else "Zombie") ++ cstr "\n"
  | .none => []

/-- The size of the buffer that `READ` renders into. -/
def PROC_TEXT_CAP : Nat := 2048

/-- A byte of that buffer: the text is cut off so that a NUL fits, and behind
the buffer is the rest of the stack. -/
def proc_text_byte (env : Env) (text : List UInt8) (k : Nat) : UInt8 :=
  if k < PROC_TEXT_CAP - 1 then text.getD k 0
  else if k < PROC_TEXT_CAP then 0
  else env.stack k
end QosKernel
