import QosKernel.Syscall.CConnections
import QosKernel.Syscall.RustReturns
import QosKernel.Syscall.StreamTraffic

/-! # Isolation of local streams

In runs of system calls whose reads from local streams are all `Orderly`,
what a descriptor receives on a connection is what the other end of that
connection sent, in order. The kernels do not make reads orderly: the
packets of all connections are in one queue, and a read takes the oldest
one, whoever sent it.
-/
open Framework
namespace QosKernel
namespace KState
variable {s : KState} {nr : UInt32}
def opAt (s : KState) (nr : UInt32) : Option SyscallOp :=
  if h : nr.toNat < QOS_SYSCALL_MAX then (s.calls ⟨nr.toNat, h⟩).map Prod.fst else none

theorem dispatch_none (h : s.opAt nr = none) (env : Env) (a0 a1 a2 a3 : UInt64) :
    s.qos_syscall_dispatch env nr a0 a1 a2 a3 = .fail s := by
  unfold opAt at h
  unfold qos_syscall_dispatch
  split
  next hlt =>
    rw [dif_pos hlt, Option.map_eq_none_iff] at h
    rw [h]
  · rfl

theorem dispatch_some {op : SyscallOp} (h : s.opAt nr = some op) (env : Env) (a0 a1 a2 a3 : UInt64) :
    ∃ value, s.qos_syscall_dispatch env nr a0 a1 a2 a3 = s.syscall_op env op value a0 a1 a2 a3 := by
  unfold opAt at h
  unfold qos_syscall_dispatch
  split
  next hlt =>
    rw [dif_pos hlt] at h
    obtain ⟨⟨op', value⟩, hentry, rfl⟩ := Option.map_eq_some_iff.mp h
    exact ⟨value, by rw [hentry]⟩
  next hlt =>
  rw [dif_neg hlt] at h
  cases h

theorem establishes_c (env : Env) (s : KState) (a0 a1 a2 : UInt64) :
    s.Establishes (fdIndex a0.toUInt32.toNat) (s.syscall_op_connect env a0 a1 a2) := by
  unfold syscall_op_connect
  split
  · exact establishes_fail
  next i hi =>
  rw [fdIndex_of_openSocket hi]
  split
  · exact establishes_fail
  exact establishes_connect hi _ _
end KState
/-! ### The C kernel -/
namespace StreamTraffic
def afterCall (l : StreamTraffic) (s : KState) : Syscall → StreamTraffic
  | .register .. | .unregister _ => l
  | .dispatch env nr a0 a1 a2 a3 =>
    match s.opAt nr with
    | none => l
    | some op => l.record s op (env.bytes a1 a2.toUInt32.toNat) a0 a1
        (s.qos_syscall_dispatch env nr a0 a1 a2 a3)

/-- A read takes only what is meant for it. -/
def orderlyCall (x : KState × StreamTraffic) : Syscall → Prop
  | .register .. | .unregister _ => True
  | .dispatch _ nr a0 _ a2 _ => ∀ op ∈ x.1.opAt nr, x.2.Orderly x.1 op a0 a2.toUInt32.toNat

instance (x : KState × StreamTraffic) (c : Syscall) : Decidable (orderlyCall x c) :=
  match c with
  | .register .. | .unregister _ => .isTrue trivial
  | .dispatch _ nr a0 _ a2 _ =>
    inferInstanceAs (Decidable (∀ op ∈ x.1.opAt nr, x.2.Orderly x.1 op a0 a2.toUInt32.toNat))

theorem Fits.afterCall {l : StreamTraffic} {s : KState} (h : l.Fits s) {c : Syscall}
    (hc : orderlyCall (s, l) c) : (l.afterCall s c).Fits (s.call c) := by
  cases c with
  | register nr op value => exact h.keep (RustSys.register_quiet s nr op value).keeps rfl rfl
  | unregister nr => exact h.keep (RustSys.unregister_quiet s nr).keeps rfl rfl
  | dispatch env nr a0 a1 a2 a3 =>
  unfold StreamTraffic.afterCall KState.call
  dsimp only
  cases hop : s.opAt nr with
  | none =>
    dsimp only
    rw [KState.dispatch_none hop]
    exact h
  | some op =>
  obtain ⟨value, heq⟩ := KState.dispatch_some hop env a0 a1 a2 a3
  have hlen : (env.bytes a1 a2.toUInt32.toNat).length = a2.toUInt32.toNat := by
    rw [Env.bytes, List.length_map, List.length_range]
  dsimp only
  rw [heq]
  refine h.call (fun t ht => ht) (s.syscall_op_moves env op value a0 a1 a2 a3) ?_ ?_
  · rintro rfl
    exact s.establishes_c env a0 a1 a2
  rw [hlen]
  exact hc op hop
end StreamTraffic
/-- The runs of the C system calls, with what callers know of streams. -/
def trafficRuns (vfs : Vfs) : System (KState × StreamTraffic) Syscall :=
  (syscallRuns vfs).logged .empty StreamTraffic.afterCall

theorem fits_of_reach {vfs : Vfs} {tr : List Syscall} {x : KState × StreamTraffic}
    (hr : (trafficRuns vfs).Reach StreamTraffic.orderlyCall tr x) : x.2.Fits x.1 := by
  refine hr.invariant (fun x => x.2.Fits x.1) (StreamTraffic.Fits.reset vfs) ?_
  intro x c x' h hc hs
  obtain ⟨hstep, hlog⟩ := System.logged_step_some hs
  rw [hlog, ← Option.some.inj hstep]
  exact h.afterCall hc

/-! ### The Rust kernel -/
namespace StreamTraffic
def afterRustCall (l : StreamTraffic) (s : RustSys) : RustCall → StreamTraffic
  | .dispatch env nr a0 a1 a2 a3 =>
    match s.registered nr, s.syscall_dispatch env nr a0 a1 a2 a3 with
    | some (op, _), .ok o => l.record s.toKState op (env.bytes a1 a2.toNat) a0 a1 o.onTables
    | _, _ => l
  | _ => l

/-- The functions of the kernel that put packets into the queue, or take them,
without a system call. -/
def writesPackets : RustCall → Bool
  | .net_enqueue_packet _ | .net_dequeue_packet _ | .net_reset => true
  | _ => false

/-- A read takes only what is meant for it, and nobody else uses the queue. -/
def orderlyRustCall (x : RustSys × StreamTraffic) (c : RustCall) : Prop :=
  writesPackets c = false ∧
    match c with
    | .dispatch _ nr a0 _ a2 _ =>
      ∀ entry ∈ x.1.registered nr, x.2.Orderly x.1.toKState entry.1 a0 a2.toNat
    | _ => True

instance (x : RustSys × StreamTraffic) (c : RustCall) : Decidable (orderlyRustCall x c) :=
  match c with
  | .dispatch _ nr a0 _ a2 _ => inferInstanceAs (Decidable (_ ∧
      ∀ entry ∈ x.1.registered nr, x.2.Orderly x.1.toKState entry.1 a0 a2.toNat))
  | .register .. | .unregister _ | .syscall_reset | .vfs_create _ | .vfs_remove _ | .vfs_reset
  | .net_enqueue_packet _ | .net_dequeue_packet _ | .udp _ | .tcp _ | .net_reset | .proc _
  | .proc_cwd_set .. | .proc_reset | .sched _ | .sched_reset | .vmm_map_as .. | .vmm_unmap_as ..
  | .vmm_set_asid _ | .vmm_reset | .kthread_create .. | .kthread_set_runnable ..
  | .kthread_run_next | .kthread_name_get .. | .kthread_reset =>
    inferInstanceAs (Decidable (_ ∧ True))
end StreamTraffic
namespace RustSys
variable {s : RustSys} {l : StreamTraffic}
theorem establishes_rust (mem : RustKernel.UserMem) (s : KState) (a0 a1 a2 : UInt64) :
    s.Establishes (fdIndex a0.toUInt32.toNat) (RustCalls.op_connect mem s a0 a1 a2) := by
  unfold RustCalls.op_connect
  split
  · exact KState.establishes_fail
  split
  · exact KState.establishes_fail
  next i hi =>
  rw [KState.fdIndex_of_openSocket hi]
  exact KState.establishes_connect hi _ _

theorem fits_dispatch (h : s.Ok) (hl : l.Fits s.toKState) {env : Env} {nr : UInt32}
    {a0 a1 a2 a3 : UInt64} {o : Outcome} (ho : s.syscall_dispatch env nr a0 a1 a2 a3 = .ok o)
    (hc : ∀ entry ∈ s.registered nr, l.Orderly s.toKState entry.1 a0 a2.toNat) :
    (l.afterRustCall s (.dispatch env nr a0 a1 a2 a3)).Fits o.state.toKState := by
  have hmoves := (dispatch_moves h ho).2
  unfold DispatchMoves at hmoves
  unfold StreamTraffic.afterRustCall
  dsimp only
  rw [ho]
  cases hreg : s.registered nr with
  | none =>
    rw [hreg] at hmoves
    dsimp only at hmoves ⊢
    rw [hmoves]
    exact hl
  | some entry =>
  obtain ⟨op, value⟩ := entry
  have hlen : (env.bytes a1 a2.toNat).length = a2.toNat := by
    rw [RustKernel.UserMem.bytes, List.length_map, List.length_range]
  rw [hreg] at hmoves
  refine hl.call (fun t ht => ht.keeps) hmoves ?_ ?_
  · rintro rfl
    -- `CONNECT` works on the tables only
    unfold syscall_dispatch at ho
    rw [hreg] at ho
    cases ho
    exact establishes_rust env.toUserMem s.toKState a0 a1 a2
  rw [hlen]
  exact hc (op, value) hreg

theorem Ok.fits_call (h : s.Ok) (hl : l.Fits s.toKState) {c : RustCall}
    (hc : StreamTraffic.orderlyRustCall (s, l) c) {s' : RustSys} (hs : s.call c = some s') :
    (l.afterRustCall s c).Fits s'.toKState := by
  cases c
  case dispatch env nr a0 a1 a2 a3 =>
    obtain ⟨o, ho, rfl⟩ := call_dispatch hs
    exact fits_dispatch h hl ho hc.2
  case syscall_reset =>
    cases hs
    exact hl.keep (.refl _) rfl rfl
  case vfs_remove path =>
    rw [RustSys.call, RustCalls.vfs_remove_eq h.tables.vfs] at hs
    cases hs
    exact hl.keep (.refl _) rfl rfl
  case vfs_reset =>
    cases hs
    exact hl.keep (.refl _) rfl rfl
  case net_enqueue_packet data => cases hc.1
  case net_dequeue_packet out => cases hc.1
  case net_reset => cases hc.1
  all_goals exact hl.keep (other_call h rfl hs).tables.keeps rfl rfl
end RustSys
/-- The runs of the Rust kernel, with what callers know of streams. -/
def rustTrafficRuns : System (RustSys × StreamTraffic) RustCall :=
  rustRuns.logged .empty StreamTraffic.afterRustCall

theorem rust_fits_of_reach {tr : List RustCall} {x : RustSys × StreamTraffic}
    (hr : rustTrafficRuns.Reach StreamTraffic.orderlyRustCall tr x) :
    x.1.Ok ∧ x.2.Fits x.1.toKState := by
  refine hr.invariant (fun x => x.1.Ok ∧ x.2.Fits x.1.toKState)
    ⟨RustSys.ok_reset, StreamTraffic.Fits.reset .reset⟩ ?_
  intro x c x' ⟨h, hl⟩ hc hs
  obtain ⟨hstep, hlog⟩ := System.logged_step_some hs
  rw [hlog]
  exact ⟨h.call hstep, h.fits_call hl hc hstep⟩

/-! ### Isolation -/
/-- In every run of system calls in which a read from a local stream finds only
packets from the other end of its connection, what a descriptor receives on
a connection is the start of what the other end of that connection sent. -/
theorem streams_isolated (vfs : Vfs) :
    (∀ tr x, (trafficRuns vfs).Reach StreamTraffic.orderlyCall tr x → x.2.InOrder) ∧
    ∀ tr x, rustTrafficRuns.Reach StreamTraffic.orderlyRustCall tr x → x.2.InOrder := by
  constructor
  · intro tr x hr
    exact (fits_of_reach hr).inOrder
  intro tr x hr
  exact (rust_fits_of_reach hr).2.inOrder

/-- The caller of the C kernel, for the Rust kernel. -/
def rustNetEnv : RustSys.Env := .ofMem ⟨netEnv.byte, fun _ => none⟩

/-- The socket calls, as a number and its arguments: a listener at descriptor
0, a connection to it at descriptor 1, and its other end at 2. -/
def pairArgs : List (UInt32 × UInt64 × UInt64 × UInt64) :=
  [(14, 2, 1, 0), (15, 0, 1, 8), (16, 0, 4, 0), (14, 2, 1, 0), (18, 1, 1, 8), (17, 0, 0, 0)]

/-- Two bytes go from descriptor 1 to 2, and then one byte goes back. -/
def talkArgs : List (UInt32 × UInt64 × UInt64 × UInt64) :=
  pairArgs ++ [(19, 1, 3, 2), (20, 2, 100, 4), (19, 2, 5, 1), (20, 1, 100, 4)]

def socketNumbers : List (UInt32 × UInt32) :=
  [(14, 30), (15, 31), (16, 32), (17, 33), (18, 34), (19, 35), (20, 36)]

section
variable (args : List (UInt32 × UInt64 × UInt64 × UInt64))
def socketCalls : List Syscall :=
  socketNumbers.map (fun n => .register n.1 n.2 0) ++
    args.map fun a => .dispatch netEnv a.1 a.2.1 a.2.2.1 a.2.2.2 0

def rustSocketCalls : List RustCall :=
  socketNumbers.map (fun n => .register n.1 n.2 0) ++
    args.map fun a => .dispatch rustNetEnv a.1 a.2.1 a.2.2.1 a.2.2.2 0
end
/-- Both ends of one connection talk, and each receives what the other sent. -/
theorem streams_isolated_pair :
    (∃ x, (trafficRuns .reset).Reach StreamTraffic.orderlyCall (socketCalls talkArgs) x ∧
      x.2.traffic.received (0, true) = [19, 136] ∧ x.2.traffic.received (0, false) = [10] ∧
      x.2.InOrder) ∧
    ∃ x, rustTrafficRuns.Reach StreamTraffic.orderlyRustCall (rustSocketCalls talkArgs) x ∧
      x.2.traffic.received (0, true) = [19, 136] ∧ x.2.traffic.received (0, false) = [10] ∧
      x.2.InOrder := by
  constructor
  · refine System.exists_execIf (P := fun x => x.2.traffic.received (0, true) = [19, 136] ∧
      x.2.traffic.received (0, false) = [10]) (by decide +kernel) ?_
    intro x hr hx
    exact ⟨hx.1, hx.2, (streams_isolated .reset).1 _ x hr⟩
  refine System.exists_execIf (P := fun x => x.2.traffic.received (0, true) = [19, 136] ∧
    x.2.traffic.received (0, false) = [10]) (by decide +kernel) ?_
  intro x hr hx
  exact ⟨hx.1, hx.2, (streams_isolated .reset).2 _ x hr⟩

/-- A second connection, from descriptor 3 to 4. What descriptor 1 sends first
is received by 4, which is on the other connection, and what it sends then
by itself. -/
def crossArgs : List (UInt32 × UInt64 × UInt64 × UInt64) :=
  pairArgs ++ [(14, 2, 1, 0), (18, 3, 1, 8), (17, 0, 0, 0), (19, 1, 3, 2), (20, 4, 100, 4),
    (19, 1, 5, 1), (20, 1, 100, 4)]

/-- The ends receive what nobody sent to them. -/
def crossed (l : StreamTraffic) : Bool :=
  l.traffic.received (1, true) == [19, 136] && l.traffic.sent (1, false) == [] &&
    l.traffic.received (0, false) == [10] && l.traffic.sent (0, true) == []

theorem not_inOrder_of_crossed {l : StreamTraffic} (h : crossed l = true) : ¬l.InOrder := by
  simp only [crossed, Bool.and_eq_true, beq_iff_eq] at h
  obtain ⟨⟨⟨hreceived, hsent⟩, -⟩, -⟩ := h
  intro hin
  have hfirst := hin.2 (1, true)
  change l.traffic.received (1, true) <+: l.traffic.sent (1, false) at hfirst
  rw [hreceived, hsent] at hfirst
  exact absurd hfirst (by decide)

/-- Both kernels deliver bytes to another connection, and back to the sender. -/
theorem streams_cross :
    (∃ x, (trafficRuns .reset).Reach anyStep (socketCalls crossArgs) x ∧
      crossed x.2 = true ∧ ¬x.2.InOrder) ∧
    ∃ x, rustTrafficRuns.Reach anyStep (rustSocketCalls crossArgs) x ∧
      crossed x.2 = true ∧ ¬x.2.InOrder := by
  constructor
  · exact System.exists_exec (P := fun x => crossed x.2 = true) (by decide +kernel)
      fun _ _ hx => ⟨hx, not_inOrder_of_crossed hx⟩
  exact System.exists_exec (P := fun x => crossed x.2 = true) (by decide +kernel)
    fun _ _ hx => ⟨hx, not_inOrder_of_crossed hx⟩
end QosKernel
