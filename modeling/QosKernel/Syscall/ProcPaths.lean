import QosKernel.Syscall.RustReturns

/-! # Paths below `/proc` in the two kernels

Both kernels know six paths by name, and read the process id out of
`/proc/<pid>/status`. The C kernel lets the id wrap around, and the Rust
kernel lets it saturate; the Rust kernel panics where the start and the end
of the path overlap. Elsewhere they give the same answer, and the id is
the number that is written in the path.
-/
open Framework Framework.Checked
namespace QosKernel
namespace ProcPath
variable {ds : List UInt8} {path : CStr}
/-- The value of decimal digits behind those that gave `n`. -/
def decimal : List UInt8 → Nat → Option Nat
  | [], n => some n
  | b :: rest, n =>
    if b < 48 || 57 < b then none else decimal rest (n * 10 + (b - 48).toNat)

/-- The path of the status of a process, with the digits of its id. -/
def status (digits : List UInt8) : CStr := cstr "/proc/" ++ digits ++ cstr "/status"

/-! ### The loops over the digits -/
section
variable (digits : List UInt8) (n : Nat)
/-- In C the value is the one modulo `2 ^ 32`. -/
theorem c_pid : proc_path_pid digits (.ofNat n) = (decimal digits n).map UInt32.ofNat := by
  induction digits generalizing n with
  | nil => rfl
  | cons b rest ih =>
  unfold proc_path_pid decimal
  split
  · rfl
  have hstep : UInt32.ofNat n * 10 + (b - 48).toUInt32 =
      UInt32.ofNat (n * 10 + (b - 48).toNat) := by
    apply UInt32.toNat_inj.mp
    simp
  rw [hstep]
  exact ih _

/-- In Rust it stays at the largest word. -/
theorem rust_pid :
    RustKernel.proc_path_pid digits (min n 0xFFFFFFFF) =
      (decimal digits n).map (min · 0xFFFFFFFF) := by
  induction digits generalizing n with
  | nil => rfl
  | cons b rest ih =>
  unfold RustKernel.proc_path_pid decimal
  split
  · rfl
  have hstep : min (min (min n 0xFFFFFFFF * 10) 0xFFFFFFFF + (b - 48).toNat) 0xFFFFFFFF =
      min (n * 10 + (b - 48).toNat) 0xFFFFFFFF := by
    omega
  rw [hstep]
  exact ih _
end
/-! ### The shape of a path -/
theorem status_inj {es : List UInt8} (h : status ds = status es) : ds = es :=
  List.append_cancel_left (List.append_cancel_right h)

theorem length_proc : (cstr "/proc/").length = 6 := by decide +kernel
theorem length_status : (cstr "/status").length = 7 := by decide +kernel

theorem status_length (ds : List UInt8) : (status ds).length = ds.length + 13 := by
  rw [status, List.length_append, List.length_append, length_proc, length_status]
  omega

theorem status_middle (ds : List UInt8) :
    ((status ds).take ((status ds).length - 7)).drop 6 = ds := by
  have hlen : (status ds).length - 7 = (cstr "/proc/" ++ ds).length := by
    rw [status_length, List.length_append, length_proc]
    omega
  rw [hlen, status, List.take_left, ← length_proc, List.drop_left]

/-- A path with this start and this end has digits between them, unless the two
overlap. -/
theorem shape (hpre : cstr "/proc/" <+: path) (hsuf : cstr "/status" <:+ path) :
    path = cstr "/proc/status" ∨ ∃ ds, path = status ds := by
  by_cases hlen : path.length - 7 < 6
  · exact .inl (RustCalls.eq_proc_status hpre hsuf hlen)
  obtain ⟨rest, rfl⟩ := hpre
  rw [List.length_append, length_proc] at hlen
  have hrest : cstr "/status" <:+ rest := by
    refine List.suffix_of_suffix_length_le hsuf (List.suffix_append _ _) ?_
    rw [length_status]
    omega
  obtain ⟨ds, rfl⟩ := hrest
  exact .inr ⟨ds, by rw [status, List.append_assoc]⟩

/-! ### The answers -/
/-- The paths that both kernels know by name, with what they stand for. -/
def kinds : List (CStr × ProcKind) :=
  [(cstr "/proc/meminfo", .meminfo), (cstr "/proc/kernel/status", .kernelStatus),
    (cstr "/proc/net/dev", .netDev), (cstr "/proc/syscalls", .syscalls),
    (cstr "/proc/uptime", .uptime), (cstr "/proc/runtime/map", .runtimeMap)]

def named : List CStr := kinds.map Prod.fst

/-- Both kernels give the same answer, and an id in it is the number that is
written in the path. -/
def Alike (path : CStr) : Prop :=
  ∃ answer, RustCalls.syscall_proc_path_kind path = .ok answer ∧ proc_path_kind path = answer ∧
    ∀ pid, answer = some (.status, pid) → ∃ ds, path = status ds ∧ decimal ds 0 = some pid.toNat

theorem rust_of_pure {answer : Option (ProcKind × UInt32)}
    (h : RustKernel.syscall_proc_path_kind path = pure answer) :
    RustCalls.syscall_proc_path_kind path = .ok answer := by
  unfold RustCalls.syscall_proc_path_kind RustFiles.procPathKind
  rw [h]
  rfl

theorem kinds_answers : ∀ e ∈ kinds, e.2 ≠ .status ∧
    RustCalls.syscall_proc_path_kind e.1 = .ok (some (e.2, 0)) ∧
    proc_path_kind e.1 = some (e.2, 0) := by
  decide +kernel

theorem alike_named (h : path ∈ named) : Alike path := by
  obtain ⟨e, he, rfl⟩ := List.mem_map.mp h
  obtain ⟨hkind, hrust, hc⟩ := kinds_answers e he
  refine ⟨_, hrust, hc, ?_⟩
  intro pid heq
  exact absurd (congrArg Prod.fst (Option.some.inj heq)) hkind

theorem alike_none (hrust : RustCalls.syscall_proc_path_kind path = .ok none)
    (hc : proc_path_kind path = none) : Alike path := by
  refine ⟨none, hrust, hc, ?_⟩
  intro pid heq
  cases heq

theorem named_decimal (h : status ds ∈ named) : decimal ds 0 = none := by
  have hends : ∀ path ∈ named, cstr "/status" <:+ path → path = status (cstr "kernel") := by
    decide +kernel
  have heq := hends _ h (List.suffix_append _ _)
  rw [status_inj heq]
  decide +kernel

section unnamed
variable {path : CStr} (h : path ∉ named)
include h
theorem c_unnamed : proc_path_kind path = if path.take 6 ≠ cstr "/proc/" then none
    else if path.length ≤ 6 + (cstr "/status").length then none
    else if path.drop (path.length - (cstr "/status").length) ≠ cstr "/status" then none
    else
      match proc_path_pid ((path.take (path.length - (cstr "/status").length)).drop 6) 0 with
      | none => none
      | some pid => if pid == 0 then none else some (.status, pid) := by
  simp only [named, kinds, List.map_cons, List.mem_cons, not_or] at h
  obtain ⟨h1, h2, h3, h4, h5, h6, -⟩ := h
  have hno {name : CStr} (hne : path ≠ name) : ¬(path == name) = true :=
    fun heq => hne (eq_of_beq heq)
  unfold proc_path_kind
  exact (if_neg (hno h1)).trans <| (if_neg (hno h2)).trans <| (if_neg (hno h3)).trans <|
    (if_neg (hno h4)).trans <| (if_neg (hno h5)).trans (if_neg (hno h6))

theorem rust_unnamed : RustKernel.syscall_proc_path_kind path =
    if !(cstr "/proc/").isPrefixOf path || !(cstr "/status").isSuffixOf path then pure none
    else if path.length - 7 < 6 then Prog.panic
    else
      if ((path.take (path.length - 7)).drop 6).isEmpty then pure none
      else
        match RustKernel.proc_path_pid ((path.take (path.length - 7)).drop 6) 0 with
        | none => pure none
        | some pid => pure (if pid == 0 then none else some (.status, .ofNat pid)) := by
  simp only [named, kinds, List.map_cons, List.mem_cons, not_or] at h
  obtain ⟨h1, h2, h3, h4, h5, h6, -⟩ := h
  have hno {name : CStr} (hne : path ≠ name) : ¬(path == name) = true :=
    fun heq => hne (eq_of_beq heq)
  unfold RustKernel.syscall_proc_path_kind
  exact (if_neg (hno h1)).trans <| (if_neg (hno h2)).trans <| (if_neg (hno h3)).trans <|
    (if_neg (hno h4)).trans <| (if_neg (hno h5)).trans (if_neg (hno h6))

theorem alike_other (hshape : ¬(cstr "/proc/" <+: path ∧ cstr "/status" <:+ path)) :
    Alike path := by
  apply alike_none
  · apply rust_of_pure
    rw [rust_unnamed h, if_pos]
    rw [Bool.or_eq_true, Bool.not_eq_true', Bool.not_eq_true', ← Bool.not_eq_true,
      ← Bool.not_eq_true, List.isPrefixOf_iff_prefix, List.isSuffixOf_iff_suffix]
    exact not_and_or.mp hshape
  rw [c_unnamed h]
  by_cases hpre : path.take 6 = cstr "/proc/"
  · rw [if_neg (not_not.mpr hpre)]
    split
    · rfl
    rw [if_pos]
    intro hsuf
    refine hshape ⟨?_, ?_⟩
    · rw [List.prefix_iff_eq_take, length_proc]
      exact hpre.symm
    rw [List.suffix_iff_eq_drop]
    exact hsuf.symm
  rw [if_pos hpre]
end unnamed
theorem alike_empty : Alike (status []) := by
  apply alike_none
  all_goals decide +kernel

section status
variable {ds : List UInt8} (h : status ds ∉ named)
include h
theorem c_status (hne : ds ≠ []) : proc_path_kind (status ds) =
    match decimal ds 0 with
    | none => none
    | some n => if UInt32.ofNat n == 0 then none else some (.status, .ofNat n) := by
  have htake : (status ds).take 6 = cstr "/proc/" := by
    rw [status, List.append_assoc, ← length_proc, List.take_left]
  have hdrop : (status ds).drop ((status ds).length - 7) = cstr "/status" := by
    have hlen : (status ds).length - 7 = (cstr "/proc/" ++ ds).length := by
      rw [status_length, List.length_append, length_proc]
      omega
    rw [hlen, status, List.drop_left]
  have hlong : ¬(status ds).length ≤ 6 + 7 := by
    have hpos := List.length_pos_iff.mpr hne
    rw [status_length]
    omega
  have hpid : proc_path_pid ds 0 = (decimal ds 0).map UInt32.ofNat := c_pid ds 0
  rw [c_unnamed h, length_status, if_neg (not_not.mpr htake), if_neg hlong,
    if_neg (not_not.mpr hdrop), status_middle, hpid]
  cases decimal ds 0 with
  | none | some n => rfl

theorem rust_status (hne : ds ≠ []) : RustKernel.syscall_proc_path_kind (status ds) =
    match decimal ds 0 with
    | none => pure none
    | some n => pure (if min n 0xFFFFFFFF == 0 then none
        else some (.status, .ofNat (min n 0xFFFFFFFF))) := by
  have hpre : (cstr "/proc/").isPrefixOf (status ds) = true := by
    rw [List.isPrefixOf_iff_prefix, status, List.append_assoc]
    exact List.prefix_append _ _
  have hsuf : (cstr "/status").isSuffixOf (status ds) = true := by
    rw [List.isSuffixOf_iff_suffix]
    exact List.suffix_append _ _
  have hlong : ¬(status ds).length - 7 < 6 := by
    rw [status_length]
    omega
  have hpid : RustKernel.proc_path_pid ds 0 = (decimal ds 0).map (min · 0xFFFFFFFF) := rust_pid ds 0
  rw [rust_unnamed h, hpre, hsuf, if_neg (by simp), if_neg hlong, status_middle,
    if_neg (by simpa using hne), hpid]
  cases decimal ds 0 with
  | none | some n => rfl

theorem alike_digits (hsmall : ∀ n, decimal ds 0 = some n → n < 2 ^ 32) : Alike (status ds) := by
  by_cases hds : ds = []
  · rw [hds]
    exact alike_empty
  have hc := c_status h hds
  have hr := rust_status h hds
  cases hdec : decimal ds 0 with
  | none =>
    rw [hdec] at hc hr
    exact alike_none (rust_of_pure hr) hc
  | some n =>
  have hn := hsmall n hdec
  have hmin : min n 0xFFFFFFFF = n := by omega
  have hval : (UInt32.ofNat n).toNat = n := UInt32.toNat_ofNat_of_lt' hn
  rw [hdec] at hc hr
  dsimp only at hc hr
  rw [hmin] at hr
  by_cases hz : n = 0
  · subst hz
    exact alike_none (rust_of_pure hr) hc
  have hz' : UInt32.ofNat n ≠ 0 := by
    intro heq
    rw [heq] at hval
    exact hz hval.symm
  rw [if_neg (by simpa using hz)] at hr
  rw [if_neg (by simpa using hz')] at hc
  refine ⟨_, rust_of_pure hr, hc, ?_⟩
  intro pid heq
  cases heq
  exact ⟨ds, rfl, by rw [hval, hdec]⟩

theorem not_alike_large {n : Nat} (hdec : decimal ds 0 = some n) (hlarge : 2 ^ 32 ≤ n) :
    ¬Alike (status ds) := by
  have hds : ds ≠ [] := by
    rintro rfl
    cases hdec
    omega
  have hr := rust_status h hds
  have hmin : min n 0xFFFFFFFF = 0xFFFFFFFF := by omega
  rw [hdec] at hr
  dsimp only at hr
  rw [hmin] at hr
  rintro ⟨answer, hanswer, -, hexact⟩
  rw [rust_of_pure hr] at hanswer
  obtain ⟨es, hes, hval⟩ := hexact _ (Except.ok.inj hanswer).symm
  -- the id would be the number in the path
  rw [← status_inj hes, hdec] at hval
  have heq := Option.some.inj hval
  have hmax : (UInt32.ofNat 0xFFFFFFFF).toNat = 0xFFFFFFFF := by decide
  omega
end status
/-- The number in the path of a process does not fit in a word. -/
def TooLarge (path : CStr) : Prop :=
  ∃ ds n, path = status ds ∧ decimal ds 0 = some n ∧ 2 ^ 32 ≤ n
end ProcPath

open ProcPath in
/-- The two kernels give the same answer to a path, with the number written in
it, exactly if it is not the one where start and end overlap and the number
fits in 32 bits. -/
theorem proc_paths_alike (path : CStr) :
    Alike path ↔ path ≠ cstr "/proc/status" ∧ ¬TooLarge path := by
  constructor
  · intro halike
    constructor
    · rintro rfl
      obtain ⟨answer, hanswer, -⟩ := halike
      rw [RustCalls.proc_path_kind_error] at hanswer
      cases hanswer
    rintro ⟨ds, n, rfl, hdec, hlarge⟩
    by_cases hn : status ds ∈ named
    · rw [named_decimal hn] at hdec
      cases hdec
    exact not_alike_large hn hdec hlarge halike
  rintro ⟨hne, hsmall⟩
  by_cases hn : path ∈ named
  · exact alike_named hn
  by_cases hshape : cstr "/proc/" <+: path ∧ cstr "/status" <:+ path
  · rcases shape hshape.1 hshape.2 with heq | ⟨ds, rfl⟩
    · exact absurd heq hne
    refine alike_digits hn fun n hdec => ?_
    by_contra hlarge
    exact hsmall ⟨ds, n, rfl, hdec, Nat.not_lt.mp hlarge⟩
  exact alike_other hn hshape

open ProcPath in
/-- The Rust kernel panics on the overlap, where the C kernel refuses; and each
kernel finds another id in a number that does not fit, where none is to be
found. -/
theorem proc_paths_differ :
    RustCalls.syscall_proc_path_kind (cstr "/proc/status") = .error .bounds ∧
    proc_path_kind (cstr "/proc/status") = none ∧
    RustCalls.syscall_proc_path_kind (cstr "/proc/4294967297/status") =
      .ok (some (.status, 4294967295)) ∧
    proc_path_kind (cstr "/proc/4294967297/status") = some (.status, 1) ∧
    cstr "/proc/4294967297/status" = status (cstr "4294967297") ∧
    decimal (cstr "4294967297") 0 = some 4294967297 := by
  decide +kernel
end QosKernel
