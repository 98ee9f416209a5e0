import QosKernel.Proc.CProcCount
import QosKernel.Syscall.CCall

/-! # The processes in `/proc/runtime/map`

The branch of `proc_fd_render` for this file. It asks for each pid from 1
to 255 whether a process is alive, and takes the number of processes from
the counter of the table, which counts the exited ones too.
-/
open Framework
namespace QosKernel
/-- What the scheduler, the kernel threads and the page tables answer. -/
structure RuntimeEnv where
  current_pid : UInt32
  current_tid : UInt32
  /-- Empty if the thread has no name. -/
  thread_name : CStr
  asid : UInt32
  /-- The mappings of an address space: virtual and physical address, flags. -/
  mappings : UInt32 → List (UInt64 × UInt64 × UInt32)

namespace CProc.Procs
/-! ### The text -/
def render_u32_hex (value : UInt32) : List UInt8 :=
  (Nat.toDigits 16 value.toNat).map fun c => c.val.toUInt8

/-- `render_append_u64_hex_fixed` with 16 digits. -/
def render_u64_hex_fixed (value : UInt64) : List UInt8 :=
  (List.range 16).map fun i =>
    (Nat.digitChar ((value >>> UInt64.ofNat (4 * (15 - i))) &&& 0xF).toNat).val.toUInt8

def nameOrNone (name : CStr) : List UInt8 := if name.isEmpty then cstr "none" else name

def render_name (t : Procs) (pid : UInt32) : CStr :=
  (t.qos_proc_name_get pid (.ofNat QOS_PROC_NAME_MAX)).getD []

/-- The lines of the mappings; `lead` stands in front of each. -/
def render_mappings (lead : List UInt8) (maps : List (UInt64 × UInt64 × UInt32)) : List UInt8 :=
  maps.zipIdx.flatMap fun ((va, pa, flags), idx) =>
    lead ++ cstr "Map" ++ render_u32 (.ofNat idx) ++ cstr ":\t0x" ++ render_u64_hex_fixed va ++
      cstr "->0x" ++ render_u64_hex_fixed pa ++ cstr " f=0x" ++ render_u32_hex flags ++ cstr "\n"

/-- The lines of the process `pidx`, as number `seen`. -/
def render_process (env : RuntimeEnv) (t : Procs) (seen : Nat) (pidx : UInt32) : List UInt8 :=
  cstr "Proc" ++ render_u32 (.ofNat seen) ++ cstr ":\tpid=" ++ render_u32 pidx ++
    cstr " name=" ++ nameOrNone (t.render_name pidx) ++
    cstr " maps=" ++ render_u32 (.ofNat (env.mappings pidx).length) ++
    (if pidx == env.current_pid then cstr " current" else []) ++
    (if pidx == env.asid then cstr " asid" else []) ++ cstr "\n" ++
    render_mappings (cstr "  P" ++ render_u32 pidx) (env.mappings pidx)

/-- The loop over `pslot`. -/
def render_processes (env : RuntimeEnv) (t : Procs) : List Nat → Nat → List UInt8
  | [], _ => []
  | pslot :: rest, seen =>
    let pidx := UInt32.ofNat (pslot + 1)
    if t.qos_proc_alive pidx then
      t.render_process env seen pidx ++ render_processes env t rest (seen + 1)
    else render_processes env t rest seen

section
variable (env : RuntimeEnv) (t : Procs)
/-- The text, with the number in its line `Processes` and the lines of the
processes. -/
def mapText (processes : UInt32) (lines : List UInt8) : List UInt8 :=
  cstr "CurrentPid:\t" ++ render_u32 env.current_pid ++
    cstr "\nCurrentProc:\t" ++
      nameOrNone (if env.current_pid = 0 then [] else t.render_name env.current_pid) ++
    cstr "\nCurrentTid:\t" ++ render_u32 env.current_tid ++
    cstr "\nCurrentThread:\t" ++ nameOrNone (if env.current_tid = 0 then [] else env.thread_name) ++
    cstr "\nCurrentAsid:\t" ++ render_u32 env.asid ++
    cstr "\nMappings:\t" ++ render_u32 (.ofNat (env.mappings env.asid).length) ++
    cstr "\nProcesses:\t" ++ render_u32 processes ++ cstr "\n" ++
    render_mappings [] (env.mappings env.asid) ++ lines

def render_runtime_map : List UInt8 :=
  t.mapText env t.qos_proc_count (t.render_processes env (List.range 255) 0)

/-! ### The processes that are listed -/
/-- The lines of the processes with the pids `l`, in this order. -/
def processLines (l : List UInt32) (seen : Nat) : List UInt8 :=
  (l.zipIdx seen).flatMap fun (pid, n) => t.render_process env n pid
end
/-- The pids that the loop finds alive. -/
def listed (t : Procs) : List UInt32 :=
  ((List.range 255).map fun k => UInt32.ofNat (k + 1)).filter t.qos_proc_alive

/-- A process with this pid is in the table and has not exited. -/
def Live (t : Procs) (pid : UInt32) : Prop :=
  ∃ i, (t.procs i).used = true ∧ (t.procs i).exited = false ∧ (t.procs i).pid = pid

variable {t : Procs} {pid : UInt32}
theorem render_processes_eq (env : RuntimeEnv) (t : Procs) (l : List Nat) (seen : Nat) :
    t.render_processes env l seen =
      t.processLines env ((l.map fun k => UInt32.ofNat (k + 1)).filter t.qos_proc_alive) seen := by
  induction l generalizing seen with
  | nil => rfl
  | cons k rest ih =>
  unfold render_processes
  dsimp only
  rw [List.map_cons]
  by_cases halive : t.qos_proc_alive (UInt32.ofNat (k + 1)) = true
  · rw [if_pos halive, List.filter_cons_of_pos halive, ih]
    unfold processLines
    rw [List.zipIdx_cons, List.flatMap_cons]
  rw [if_neg halive, List.filter_cons_of_neg halive, ih]

theorem toNat_probed {k : Nat} (hk : k ∈ List.range 255) : (UInt32.ofNat (k + 1)).toNat = k + 1 :=
  UInt32.toNat_ofNat_of_lt' (Nat.lt_of_lt_of_le (Nat.succ_lt_succ (List.mem_range.mp hk))
    (by decide))

theorem mem_listed : pid ∈ t.listed ↔
    (1 ≤ pid.toNat ∧ pid.toNat ≤ 255) ∧ t.qos_proc_alive pid = true := by
  unfold listed
  rw [List.mem_filter, List.mem_map]
  refine and_congr_left fun _ => ⟨?_, ?_⟩
  · rintro ⟨k, hk, rfl⟩
    rw [toNat_probed hk]
    rw [List.mem_range] at hk
    omega
  intro hpid
  refine ⟨pid.toNat - 1, List.mem_range.mpr (by omega), ?_⟩
  rw [Nat.sub_add_cancel hpid.1, UInt32.ofNat_toNat]

theorem nodup_listed (t : Procs) : t.listed.Nodup := by
  refine List.Nodup.filter _ (List.Nodup.map_on ?_ List.nodup_range)
  intro a ha b hb hab
  have heq := congrArg UInt32.toNat hab
  rw [toNat_probed ha, toNat_probed hb] at heq
  exact Nat.succ.inj heq

theorem Sized.alive_iff (h : t.Sized) : t.qos_proc_alive pid = true ↔ t.Live pid := by
  unfold qos_proc_alive
  cases hfind : t.find_pid pid with
  | none =>
    refine iff_of_false Bool.false_ne_true ?_
    rintro ⟨i, hused, -, hpid⟩
    exact Family.Table.find_none (t := t.family) hfind hused hpid
  | some idx =>
  obtain ⟨hused, hpid⟩ := used_of_find_pid hfind
  dsimp only
  rw [Bool.not_eq_true']
  constructor
  · intro hexited
    exact ⟨idx, hused, hexited, hpid⟩
  rintro ⟨i, hi, hexited, hipid⟩
  rw [← h.ok.distinct i idx hi hused (hipid.trans hpid.symm)]
  exact hexited

theorem Sized.one_le (h : t.Sized) (hlive : t.Live pid) : 1 ≤ pid.toNat := by
  obtain ⟨i, hused, -, rfl⟩ := hlive
  exact Nat.one_le_iff_ne_zero.mpr fun hzero => h.ok.nonzero i hused (UInt32.toNat_inj.mp hzero)

def liveSlots (t : Procs) : Finset Slot :=
  Finset.univ.filter fun i => (t.procs i).used = true ∧ (t.procs i).exited = false

theorem Sized.length_listed (h : t.Sized) (hlow : ∀ pid, t.Live pid → pid.toNat ≤ 255) :
    t.listed.length = t.liveSlots.card := by
  have hset : t.listed.toFinset = t.liveSlots.image fun i => (t.procs i).pid := by
    ext pid
    rw [List.mem_toFinset, mem_listed, h.alive_iff, Finset.mem_image]
    constructor
    · rintro ⟨-, i, hused, hexited, hpid⟩
      exact ⟨i, Finset.mem_filter.mpr ⟨Finset.mem_univ i, hused, hexited⟩, hpid⟩
    rintro ⟨i, hi, hpid⟩
    obtain ⟨-, hused, hexited⟩ := Finset.mem_filter.mp hi
    have hlive : t.Live pid := ⟨i, hused, hexited, hpid⟩
    exact ⟨⟨h.one_le hlive, hlow pid hlive⟩, hlive⟩
  rw [← List.toFinset_card_of_nodup t.nodup_listed, hset, Finset.card_image_of_injOn]
  intro i hi j hj hpid
  exact h.ok.distinct i j (Finset.mem_filter.mp hi).2.1 (Finset.mem_filter.mp hj).2.1 hpid

/-- The counter also counts the processes that have exited. -/
theorem Sized.count_eq_live_iff (h : t.Sized) : t.qos_proc_count.toNat = t.liveSlots.card ↔
    ∀ i, (t.procs i).used = true → (t.procs i).exited = false := by
  have hsub : t.liveSlots ⊆ Finset.univ.filter fun i => (t.procs i).used = true := by
    intro i hi
    exact Finset.mem_filter.mpr ⟨Finset.mem_univ i, (Finset.mem_filter.mp hi).2.1⟩
  have hcount : t.qos_proc_count.toNat =
      (Finset.univ.filter fun i => (t.procs i).used = true).card := by
    refine h.count.trans ?_
    unfold slotCount
    rw [Finset.card_filter]
    refine Finset.sum_congr rfl fun i _ => ?_
    cases (t.procs i).used <;> rfl
  rw [hcount]
  constructor
  · intro hcard i hused
    have hmem := Finset.eq_of_subset_of_card_le hsub (Nat.le_of_eq hcard)
    have hi : i ∈ t.liveSlots := by
      rw [hmem]
      exact Finset.mem_filter.mpr ⟨Finset.mem_univ i, hused⟩
    exact (Finset.mem_filter.mp hi).2.2
  intro hall
  refine congrArg Finset.card (Finset.Subset.antisymm (fun i hi => ?_) hsub)
  have hused := (Finset.mem_filter.mp hi).2
  exact Finset.mem_filter.mpr ⟨Finset.mem_univ i, hused, hall i hused⟩

/-- The lines `l` name every live process once and nothing else, and the number
in the line `Processes` is theirs. -/
structure Complete (t : Procs) (processes : UInt32) (l : List UInt32) : Prop where
  once : l.Nodup
  live : ∀ pid, pid ∈ l ↔ t.Live pid
  number : processes.toNat = l.length

/-- In every table that calls can reach: the text has a line for each pid of
`listed`, and it is complete exactly when no process of the table has exited
and all pids are at most 255. -/
theorem runtime_map_complete_iff {tr : List Call} (hr : system.Reach anyStep tr t)
    (env : RuntimeEnv) :
    t.render_runtime_map env = t.mapText env t.qos_proc_count (t.processLines env t.listed 0) ∧
    (t.Complete t.qos_proc_count t.listed ↔ ∀ i, (t.procs i).used = true →
      (t.procs i).exited = false ∧ (t.procs i).pid.toNat ≤ 255) := by
  have h := sized_of_reach hr
  refine ⟨congrArg (t.mapText env t.qos_proc_count) (t.render_processes_eq env _ 0), ?_⟩
  constructor
  · intro hc
    have hlow : ∀ pid, t.Live pid → pid.toNat ≤ 255 :=
      fun pid hlive => (mem_listed.mp ((hc.live pid).mpr hlive)).1.2
    have hlive := h.count_eq_live_iff.mp (hc.number.trans (h.length_listed hlow))
    intro i hused
    exact ⟨hlive i hused, hlow _ ⟨i, hused, hlive i hused, rfl⟩⟩
  intro hall
  have hlow : ∀ pid, t.Live pid → pid.toNat ≤ 255 := by
    rintro pid ⟨i, hused, -, rfl⟩
    exact (hall i hused).2
  refine ⟨t.nodup_listed, fun pid => ?_, ?_⟩
  · rw [mem_listed, h.alive_iff, and_iff_right_iff_imp]
    exact fun hlive => ⟨h.one_le hlive, hlow pid hlive⟩
  rw [h.length_listed hlow, h.count_eq_live_iff]
  exact fun i hused => (hall i hused).1

theorem runtime_map_complete_two : ∃ t, system.Reach anyStep [.create 1 0, .fork 1 2] t ∧
    t.Complete t.qos_proc_count t.listed := by
  refine System.exists_exec (P := fun t => ∀ i, (t.procs i).used = true →
    (t.procs i).exited = false ∧ (t.procs i).pid.toNat ≤ 255) (by decide +kernel) ?_
  intro t hr hall
  exact (runtime_map_complete_iff hr ⟨0, 0, [], 0, fun _ => []⟩).2.mpr hall

/-- Process 1 has exited and is counted, but not listed. Process 256 is alive
and is not listed either. The text fits into the buffer. -/
theorem runtime_map_incomplete :
    ∃ t, system.Reach anyStep [.create 256 0, .create 1 0, .exit 1 0] t ∧
      (t.render_runtime_map ⟨0, 0, [], 0, fun _ => []⟩).length < 2048 ∧
      t.qos_proc_alive 1 = false ∧ t.qos_proc_alive 256 = true ∧
      t.qos_proc_count = 2 ∧ t.listed = [] ∧ ¬t.Complete t.qos_proc_count t.listed := by
  refine System.exists_exec (P := fun t =>
    (t.mapText ⟨0, 0, [], 0, fun _ => []⟩ 2 []).length < 2048 ∧
      t.qos_proc_alive 1 = false ∧ t.qos_proc_alive 256 = true ∧
      t.qos_proc_count = 2 ∧ t.listed = []) (by decide +kernel) ?_
  intro t _ ⟨hfits, hexited, halive, hcount, hlisted⟩
  refine ⟨?_, hexited, halive, hcount, hlisted, fun hc => ?_⟩
  · rw [render_runtime_map, render_processes_eq, hcount, ← listed, hlisted]
    exact hfits
  have hnumber := hc.number
  rw [hcount, hlisted] at hnumber
  cases hnumber
end CProc.Procs
end QosKernel
