import QosKernel.Syscall.CContracts
import QosKernel.Syscall.PipeLog

/-! # Pipes after any run of C system calls

What callers know of pipes agrees with the kernel state in every run, so a
pipe is a stream of bytes that come out in the order in which they went in.
-/
open Framework
namespace QosKernel
/-- The runs of the system calls, with what callers know of pipes. -/
def pipeRuns (vfs : Vfs) : System (KState × PipeLog) Syscall :=
  eventRuns vfs .empty PipeLog.record

theorem Fd.isEnd_iff_endpoint {fd : Fd} {p : PipeSlot} :
    fd.IsEnd p ↔ fd.endpoint.pipe? = some p.val := by
  rw [Fd.isEnd_iff, Fd.endpoint_pipe_iff]

/-- What callers know of pipes is what the kernel has. -/
structure KState.PipesInStep (s : KState) (l : PipeLog) : Prop where
  /-- What was read is the start of what was written, also of pipes that are
  gone. -/
  inOrder : ∀ n, l.got n <+: l.wrote n
  /-- A descriptor with a number is an end of a pipe, which holds the rest. -/
  rest : ∀ i n, l.pipe i = some n → ∃ p, (s.fds i).IsEnd p ∧
    l.wrote n = l.got n ++ (s.pipes p).buf ∧ (s.pipes p).buf.length ≤ 1024
  /-- Every end has a number, and two ends have the same one exactly if they
  are ends of the same pipe. -/
  numbered : ∀ i p, (s.fds i).IsEnd p → ∃ n, l.pipe i = some n
  same : ∀ i j p q, (s.fds i).IsEnd p → (s.fds j).IsEnd q → (l.pipe i = l.pipe j ↔ p = q)

namespace KState
variable {env : Env} {a0 a1 a2 : UInt64} {p : PipeSlot}
variable {s : KState} {l : PipeLog} {home : Nat → Nat} {i : FdNum}
theorem buffered_some {p : Nat} {buf : List UInt8} (h : s.buffered p = some buf) :
    ∃ hlt : p < QOS_PIPE_MAX, (s.pipes ⟨p, hlt⟩).buf = buf := by
  unfold buffered at h
  split at h
  next hlt =>
    split at h
    · exact ⟨hlt, Option.some.inj h⟩
    cases h
  · cases h

theorem pipesInStep (h : PipesAgree s.endpoints l home) : s.PipesInStep l := by
  constructor
  · exact h.inOrder
  · intro i n hn
    obtain ⟨buf, hbuf, hflow, hbound⟩ := h.buffered n ⟨i, hn⟩
    obtain ⟨hlt, rfl⟩ := buffered_some hbuf
    refine ⟨⟨home n, hlt⟩, ?_, hflow, hbound⟩
    have hend := h.ends i
    rw [hn] at hend
    exact Fd.isEnd_iff_endpoint.mpr hend
  · intro i p hp
    obtain ⟨n, hn, -⟩ := h.pipe_some (Fd.isEnd_iff_endpoint.mp hp)
    exact ⟨n, hn⟩
  intro i j p q hp hq
  obtain ⟨n, hn, hnp⟩ := h.pipe_some (Fd.isEnd_iff_endpoint.mp hp)
  obtain ⟨m, hm, hmq⟩ := h.pipe_some (Fd.isEnd_iff_endpoint.mp hq)
  rw [hn, hm, Option.some.injEq]
  constructor
  · rintro rfl
    exact Fin.ext (hnp.symm.trans hmq)
  rintro rfl
  exact h.apart n m ⟨i, hn⟩ ⟨j, hm⟩ (hnp.trans hmq.symm)

theorem pipesAgree_of_reach {vfs : Vfs} {tr : List Syscall} {x : KState × PipeLog}
    (hr : (pipeRuns vfs).Reach anyStep tr x) : ∃ home, PipesAgree x.1.endpoints x.2 home := by
  have hr : (eventRuns vfs PipeLog.empty PipeLog.record).Reach (fun x c => anyStep x.1 c) tr x := hr
  refine (eventRuns_invariant hr (fun v l => ∃ home, PipesAgree v l home) ⟨id, .init id⟩ ?_).2
  intro s l c v ⟨home, h⟩ _ he
  exact h.effect he

/-! ### Reads and writes that fail -/
section
variable (s : KState) (i : FdNum)
/-- A read of a pipe that fails changes nothing, and otherwise it tells how
many bytes it returns. -/
theorem read_pipe_ends (addr : UInt64) (len : Nat) :
    s.read_pipe i addr len = .fail s ∨
      (s.read_pipe i addr len).rc = (s.read_pipe i addr len).bytes.length := by
  simp only [read_pipe]
  split
  · exact .inl rfl
  next p _ =>
  split
  · exact .inl rfl
  split
  · exact .inr rfl
  refine .inr ?_
  simp only [Outcome.bytes, List.flatMap_cons, List.flatMap_nil, List.append_nil, List.length_take]
  omega

theorem write_pipe_ends (data : List UInt8) :
    s.write_pipe i data = .fail s ∨ (s.write_pipe i data).rc = data.length := by
  simp only [write_pipe]
  split
  · exact .inl rfl
  split
  · exact .inl rfl
  exact .inr rfl
end
theorem syscall_op_read_end (hi : s.openFd a0.toUInt32 = some i) (hp : (s.fds i).IsEnd p) :
    s.syscall_op_read env a0 a1 a2 = .fail s ∨
      (s.syscall_op_read env a0 a1 a2).rc = (s.syscall_op_read env a0 a1 a2).bytes.length := by
  unfold syscall_op_read
  rw [hi]
  dsimp only
  split
  · exact .inl rfl
  rcases hp.2.1 with hk | hk
  · rw [hk]
    exact s.read_pipe_ends i a1 _
  rw [hk]
  exact .inl rfl

theorem syscall_op_write_end (hi : s.openFd a0.toUInt32 = some i) (hp : (s.fds i).IsEnd p) :
    s.syscall_op_write env a0 a1 a2 = .fail s ∨
      (s.syscall_op_write env a0 a1 a2).rc = a2.toUInt32.toNat := by
  unfold syscall_op_write
  rw [hi]
  dsimp only
  split
  · exact .inl rfl
  rcases hp.2.1 with hk | hk
  · rw [hk]
    exact .inl rfl
  rw [hk]
  have hlen : (env.bytes a1 a2.toUInt32.toNat).length = a2.toUInt32.toNat := by simp [Env.bytes]
  have hends := s.write_pipe_ends i (env.bytes a1 a2.toUInt32.toNat)
  rw [hlen] at hends
  exact hends
end KState
/-- After every run of system calls, what was read from a pipe is the start of
what was written to it, the rest is what is buffered, and it is at most
1024 bytes. A `READ` of a pipe fails and changes nothing, or returns as
many bytes as it says; a `WRITE` fails and changes nothing, or takes all
the bytes. -/
theorem pipes_are_fifo (vfs : Vfs) (tr : List Syscall) (x : KState × PipeLog)
    (hr : (pipeRuns vfs).Reach anyStep tr x) :
    x.1.PipesInStep x.2 ∧
    ∀ env (a0 a1 a2 : UInt64) i p, x.1.openFd a0.toUInt32 = some i → (x.1.fds i).IsEnd p →
      (x.1.syscall_op_read env a0 a1 a2 = .fail x.1 ∨ (x.1.syscall_op_read env a0 a1 a2).rc =
          (x.1.syscall_op_read env a0 a1 a2).bytes.length) ∧
      (x.1.syscall_op_write env a0 a1 a2 = .fail x.1 ∨
        (x.1.syscall_op_write env a0 a1 a2).rc = a2.toUInt32.toNat) := by
  obtain ⟨home, h⟩ := KState.pipesAgree_of_reach hr
  refine ⟨KState.pipesInStep h, ?_⟩
  intro env a0 a1 a2 i p hi hp
  exact ⟨KState.syscall_op_read_end hi hp, KState.syscall_op_write_end hi hp⟩

/-- A run that makes a pipe, writes three bytes, copies the read end to
descriptor 5, closes the first one and reads two bytes. -/
def pipeCalls : List Syscall :=
  [.register 6 22 0, .register 7 23 0, .register 8 24 0, .register 9 25 0, .register 26 39 0,
    .dispatch plainEnv 26 1 0 0 0, .dispatch plainEnv 7 1 2 3 0, .dispatch plainEnv 9 0 5 0 0,
    .dispatch plainEnv 8 0 0 0 0, .dispatch plainEnv 6 5 1 2 0]

/-- In that run, two bytes were read and one is buffered. -/
theorem pipes_are_fifo_copied : ∃ x, (pipeRuns .reset).Reach anyStep pipeCalls x ∧
    x.2.pipe ⟨5, by decide⟩ = some 0 ∧ x.2.wrote 0 = [0, 19, 136] ∧ x.2.got 0 = [0, 19] ∧
    x.1.PipesInStep x.2 := by
  refine System.exists_exec (P := fun x => x.2.pipe ⟨5, by decide⟩ = some 0 ∧
    x.2.wrote 0 = [0, 19, 136] ∧ x.2.got 0 = [0, 19]) ?_ ?_
  · decide +kernel
  rintro x hr ⟨hpipe, hwrote, hgot⟩
  exact ⟨hpipe, hwrote, hgot, (pipes_are_fifo .reset pipeCalls x hr).1⟩
end QosKernel
