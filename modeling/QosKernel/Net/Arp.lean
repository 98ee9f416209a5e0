import QosKernel.Framework.SlotMap

/-! # The ARP cache of the C kernel

The functions of `c-os/kernel/net/net.c`. Remaining times only go down, so they
are natural numbers here.
-/
open Framework
namespace QosKernel.Arp
def QOS_NET_ARP_MAX : Nat := 32
abbrev Mac := Fin 6 → UInt8

/-- `g_arp`: addresses with their hardware addresses and remaining times. -/
abbrev Cache := SlotMap UInt32 (Mac × Nat) QOS_NET_ARP_MAX

section
variable (t : Cache) (ip : UInt32)
/-- `none` is the return value -1. -/
def qos_net_arp_put (mac : Option Mac) (ttl_secs : Nat) : Option Cache :=
  match mac with
  | none => none
  | some mac => if ip = 0 ∨ ttl_secs = 0 then none else t.put ip (mac, ttl_secs)

def qos_net_arp_lookup : Option Mac :=
  if ip = 0 then none else ((t.get ip).filter (·.2 ≠ 0)).map Prod.fst
end
def qos_net_arp_tick (t : Cache) (elapsed_secs : Nat) : Cache :=
  if elapsed_secs = 0 then t
  else t.adjust fun (mac, ttl_secs) =>
    if ttl_secs ≤ elapsed_secs then none else some (mac, ttl_secs - elapsed_secs)

inductive Call where
  | put (ip : UInt32) (mac : Option Mac) (ttl_secs : Nat)
  | lookup (ip : UInt32)
  | tick (elapsed_secs : Nat)

def step (t : Cache) : Call → Cache
  | .put ip mac ttl_secs => (qos_net_arp_put t ip mac ttl_secs).getD t
  | .lookup _ => t
  | .tick elapsed_secs => qos_net_arp_tick t elapsed_secs

/-- The cache after the calls, of which the latest is the first. -/
def run : List Call → Cache
  | [] => .empty
  | c :: calls => step (run calls) c

/-- The most recent successful put for `ip`, with the time ticked since then. -/
def lastPut (ip : UInt32) : List Call → Option (Mac × Nat × Nat)
  | [] => none
  | .put ip' mac ttl_secs :: calls =>
    if ip' = ip ∧ (qos_net_arp_put (run calls) ip' mac ttl_secs).isSome = true then
      mac.map (·, ttl_secs, 0)
    else lastPut ip calls
  | .lookup _ :: calls => lastPut ip calls
  | .tick elapsed_secs :: calls =>
    (lastPut ip calls).map fun (mac, ttl, since) => (mac, ttl, since + elapsed_secs)

/-- What such a put has left in the cache. -/
def left : Mac × Nat × Nat → Option (Mac × Nat)
  | (mac, ttl, since) => if since < ttl then some (mac, ttl - since) else none

theorem put_some {t t' : Cache} {ip : UInt32} {mac : Option Mac} {ttl : Nat}
    (h : qos_net_arp_put t ip mac ttl = some t') : ip ≠ 0 ∧ ∃ m, mac = some m ∧ 0 < ttl ∧
      ∀ ip', t'.get ip' = if ip' = ip then some (m, ttl) else t.get ip' := by
  unfold qos_net_arp_put at h
  split at h
  · cases h
  split at h
  · cases h
  next m hne =>
  obtain ⟨hip, httl⟩ := not_or.mp hne
  exact ⟨hip, m, rfl, Nat.pos_of_ne_zero httl, (SlotMap.put_eq_some h).1⟩

/-- Puts and ticks keep in the cache what is not too old. -/
theorem get_run (ip : UInt32) (calls : List Call) :
    (run calls).get ip = (lastPut ip calls).bind left := by
  induction calls with
  | nil => exact SlotMap.get_empty
  | cons c calls ih =>
  cases c with
  | put ip' mac ttl =>
    dsimp only [run, step, lastPut]
    cases hp : qos_net_arp_put (run calls) ip' mac ttl with
    | none =>
      rw [if_neg (by simp)]
      exact ih
    | some t' =>
    obtain ⟨-, m, rfl, hpos, hget⟩ := put_some hp
    rw [Option.getD_some, hget]
    by_cases hip : ip = ip'
    · rw [if_pos hip, if_pos ⟨hip.symm, rfl⟩]
      simp [left, hpos]
    rw [if_neg hip, if_neg fun h => hip h.1.symm, ih]
  | lookup _ => exact ih
  | tick n =>
  dsimp only [run, step, lastPut, qos_net_arp_tick]
  split
  next hn => simp [hn, ih]
  · rw [SlotMap.get_adjust, ih, Option.bind_assoc, Option.bind_map]
    refine congrArg _ (funext fun (mac, ttl, since) => ?_)
    simp only [left, Function.comp]
    by_cases hs : since + n < ttl
    · rw [if_pos hs, if_pos (by omega), Option.bind_some, if_neg (by omega), Nat.sub_add_eq]
    rw [if_neg hs]
    split
    · exact if_pos (by omega)
    rfl

variable (calls : List Call)
theorem lastPut_zero : lastPut 0 calls = none := by
  induction calls with
  | nil => rfl
  | cons c calls ih =>
  cases c with
  | put ip mac ttl =>
    refine (if_neg ?_).trans ih
    rintro ⟨rfl, h⟩
    obtain ⟨t', h⟩ := Option.isSome_iff_exists.mp h
    exact (put_some h).1 rfl
  | lookup _ => exact ih
  | tick n => exact congrArg (Option.map _) ih

/-- A put succeeds exactly with an address, a hardware address and a time that are
given, if the address is cached already or an entry is free. -/
theorem put_isSome_iff (t : Cache) (ip : UInt32) (mac : Option Mac) (ttl : Nat) :
    (qos_net_arp_put t ip mac ttl).isSome = true ↔
      ip ≠ 0 ∧ mac.isSome = true ∧ ttl ≠ 0 ∧ (t.get ip ≠ none ∨ t.room ≠ 0) := by
  unfold qos_net_arp_put
  cases mac with
  | none => simp
  | some mac =>
  dsimp only
  by_cases hargs : ip = 0 ∨ ttl = 0
  · rw [if_pos hargs]
    exact iff_of_false nofun fun h => hargs.elim h.1 h.2.2.1
  rw [if_neg hargs, Option.isSome_iff_ne_none, Ne, SlotMap.put_eq_none, not_and_or]
  obtain ⟨hip, httl⟩ := not_or.mp hargs
  simp [hip, httl]

/-- No address is cached twice, a lookup finds what the last put for the address
gave, until that is too old, and a put that is well formed fails only if the
address is new and all entries are taken. -/
theorem arp_cache_ages (ip : UInt32) (mac : Mac) :
    (∀ i j ip v w, (run calls).slots i = some (ip, v) → (run calls).slots j = some (ip, w) →
      i = j) ∧
    (qos_net_arp_lookup (run calls) ip = some mac ↔
      ∃ ttl since, lastPut ip calls = some (mac, ttl, since) ∧ since < ttl) ∧
    ∀ mac ttl, (qos_net_arp_put (run calls) ip mac ttl).isSome = true ↔
      ip ≠ 0 ∧ mac.isSome = true ∧ ttl ≠ 0 ∧ ((run calls).get ip ≠ none ∨ (run calls).room ≠ 0) := by
  refine ⟨(run calls).distinct, ?_, put_isSome_iff _ _⟩
  unfold qos_net_arp_lookup
  split
  next h => simp [h, lastPut_zero]
  rw [get_run]
  cases lastPut ip calls with
  | none => simp
  | some e =>
  obtain ⟨mac', ttl, since⟩ := e
  by_cases hs : since < ttl
  · simp [left, hs, Nat.sub_ne_zero_of_lt hs]
  simp [left, hs]

-- a time to live of 5, looked up 4 and 5 seconds later
example :
    let put := Call.put 1 (some fun _ => 7) 5
    qos_net_arp_lookup (run [.tick 4, put]) 1 = some (fun _ => 7) ∧
      qos_net_arp_lookup (run [.tick 1, .tick 4, put]) 1 = none := by
  decide +kernel
end QosKernel.Arp
