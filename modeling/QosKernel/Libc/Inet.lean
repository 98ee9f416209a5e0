import QosKernel.Fs.CVfs
import QosKernel.Framework.Decimal
import Mathlib.Algebra.Ring.Nat

/-! # IPv4 addresses as text

`qos_inet_addr` of the C and of the Rust library. The two loops differ only
in where they notice a fifth number.
-/
open Framework
namespace QosKernel.Libc
/-- The numbers of the string `s`, of which `left` are still missing. -/
def parts : (left : Nat) → CStr → Option (List Nat)
  | 0, s => if s = [] then some [] else none
  | left + 1, s =>
    if s.head?.any isDigit then
      match digits 255 s 0 with
      | some (value, []) => (parts left []).map (value :: ·)
      | some (value, 46 :: s) => (parts left s).map (value :: ·)
      | _ => none
    else none

def address : List Nat → UInt32
  | [a, b, c, d] => a.toUInt32 <<< 24 ||| b.toUInt32 <<< 16 ||| c.toUInt32 <<< 8 ||| d.toUInt32
  | _ => 0

def qos_inet_addr : Option CStr → UInt32
  | none => 0xFFFFFFFF
  | some s => ((parts 4 s).map address).getD 0xFFFFFFFF

/-- The string in a slice, which may end in a NUL or not. -/
def cstring (s : List UInt8) : CStr := s.takeWhile (· ≠ 0)
def Rust.qos_inet_addr (s : List UInt8) : Option UInt32 := (parts 4 (cstring s)).map address

/-! ### The grammar -/
def Octet (n : Nat) (s : CStr) : Prop :=
  s ≠ [] ∧ (∀ ch ∈ s, isDigit ch = true) ∧ value s 0 = n ∧ n ≤ 255

/-- The numbers with single dots between them. -/
def Dotted : List Nat → CStr → Prop
  | [], _ => False
  | [n], s => Octet n s
  | n :: ns, s => ∃ d rest, s = d ++ 46 :: rest ∧ Octet n d ∧ Dotted ns rest

/-- `s` is exactly four numbers, and `a` is the address they denote. -/
def Denotes (s : CStr) (a : UInt32) : Prop :=
  ∃ ns, ns.length = 4 ∧ Dotted ns s ∧ address ns = a

theorem parts_succ {k : Nat} {s : CStr} {ns : List Nat} :
    parts (k + 1) s = some ns ↔ ∃ n ns' d, ns = n :: ns' ∧ Octet n d ∧
      (s = d ∧ parts k [] = some ns' ∨ ∃ rest, s = d ++ 46 :: rest ∧ parts k rest = some ns') := by
  constructor
  · intro h
    unfold parts at h
    split at h
    next hfirst =>
      -- an empty number would leave the first character
      have hne : ∀ {d rest}, s = d ++ rest → rest.head?.any isDigit = false → d ≠ [] := by
        rintro d rest rfl hrest rfl
        rw [List.nil_append, hrest] at hfirst
        cases hfirst
      split at h
      next n heq =>
        obtain ⟨ns', hns, rfl⟩ := Option.map_eq_some_iff.mp h
        obtain ⟨d, hs, hall, hval⟩ := exists_of_digits heq
        exact ⟨n, ns', d, rfl, ⟨hne hs rfl, hall, hval⟩, .inl ⟨hs.trans (List.append_nil d), hns⟩⟩
      next n rest heq =>
        obtain ⟨ns', hns, rfl⟩ := Option.map_eq_some_iff.mp h
        obtain ⟨d, hs, hall, hval⟩ := exists_of_digits heq
        exact ⟨n, ns', d, rfl, ⟨hne hs rfl, hall, hval⟩, .inr ⟨rest, hs, hns⟩⟩
      next => cases h
    next => cases h
  rintro ⟨n, ns', d, rfl, ⟨hne, hall, hval, hle⟩, h⟩
  have hfirst : ∀ rest, (d ++ rest).head?.any isDigit = true := by
    obtain ⟨c, d, rfl⟩ := List.exists_cons_of_ne_nil hne
    exact fun rest => hall c List.mem_cons_self
  have hread : ∀ rest : CStr, (∀ ch ∈ rest.head?, isDigit ch = false) →
      digits 255 (d ++ rest) 0 = some (n, rest) := by
    intro rest hrest
    rw [digits_append hall hrest, hval, if_pos hle]
  rcases h with ⟨rfl, hns⟩ | ⟨rest, rfl, hns⟩
  · rw [← List.append_nil s, parts, if_pos (hfirst []), hread [] nofun]
    exact congrArg (Option.map _) hns
  rw [parts, if_pos (hfirst _), hread (46 :: rest) (by rintro ch ⟨⟩; rfl)]
  exact congrArg (Option.map _) hns

/-- The loop also takes a dot behind the last number. -/
theorem parts_iff {k : Nat} {s : CStr} {ns : List Nat} : parts (k + 1) s = some ns ↔
    ns.length = k + 1 ∧ (Dotted ns s ∨ ∃ t, s = t ++ [46] ∧ Dotted ns t) := by
  induction k generalizing s ns with
  | zero =>
    have hzero : ∀ {s ns}, parts 0 s = some ns ↔ s = [] ∧ ns = [] := by
      intro s ns
      simp [parts, eq_comm]
    rw [parts_succ]
    constructor
    · rintro ⟨n, ns', d, rfl, hd, ⟨rfl, h⟩ | ⟨rest, rfl, h⟩⟩ <;> obtain ⟨hrest, rfl⟩ := hzero.mp h
      · exact ⟨rfl, .inl hd⟩
      exact ⟨rfl, .inr ⟨d, by rw [hrest], hd⟩⟩
    rintro ⟨hlen, h⟩
    obtain ⟨n, rfl⟩ := List.length_eq_one_iff.mp hlen
    rcases h with hd | ⟨t, rfl, hd⟩
    · exact ⟨n, [], s, rfl, hd, .inl ⟨rfl, rfl⟩⟩
    exact ⟨n, [], t, rfl, hd, .inr ⟨[], rfl, rfl⟩⟩
  | succ k ih =>
  rw [parts_succ]
  constructor
  · rintro ⟨n, ns', d, rfl, hd, ⟨-, h⟩ | ⟨rest, rfl, h⟩⟩
    · cases h
    obtain ⟨hlen, hns⟩ := ih.mp h
    obtain ⟨m, ns, rfl⟩ := List.exists_cons_of_length_eq_add_one hlen
    refine ⟨congrArg (· + 1) hlen, ?_⟩
    rcases hns with hns | ⟨t, rfl, hns⟩
    · exact .inl ⟨d, rest, rfl, hd, hns⟩
    exact .inr ⟨d ++ 46 :: t, by simp, d, t, rfl, hd, hns⟩
  rintro ⟨hlen, h⟩
  obtain ⟨n, ns, rfl⟩ := List.exists_cons_of_length_eq_add_one hlen
  have hlen : ns.length = k + 1 := Nat.succ.inj hlen
  obtain ⟨m, ns, rfl⟩ := List.exists_cons_of_length_eq_add_one hlen
  rcases h with ⟨d, rest, rfl, hd, h⟩ | ⟨t, rfl, d, rest, rfl, hd, h⟩
  · exact ⟨n, _, d, rfl, hd, .inr ⟨rest, rfl, ih.mpr ⟨hlen, .inl h⟩⟩⟩
  exact ⟨n, _, d, rfl, hd, .inr ⟨rest ++ [46], by simp, ih.mpr ⟨hlen, .inr ⟨rest, rfl, h⟩⟩⟩⟩

theorem Dotted.last {ns : List Nat} {s : CStr} (h : Dotted ns s) :
    ∃ u ch, s = u ++ [ch] ∧ isDigit ch = true := by
  induction ns generalizing s with
  | nil => exact h.elim
  | cons n ns ih =>
  cases ns with
  | nil =>
    obtain ⟨hne, hall, -⟩ := h
    obtain ⟨u, ch, rfl⟩ := (List.eq_nil_or_concat s).resolve_left hne
    exact ⟨u, ch, by simp, hall ch (by simp)⟩
  | cons m ns =>
  obtain ⟨d, rest, rfl, -, h⟩ := h
  obtain ⟨u, ch, rfl, hch⟩ := ih h
  exact ⟨d ++ 46 :: u, ch, by simp, hch⟩

theorem Denotes.ne_dot {s t : CStr} {a : UInt32} (h : Denotes s a) : s ≠ t ++ [46] := by
  rintro rfl
  obtain ⟨ns, -, h, -⟩ := h
  obtain ⟨u, ch, hu, hch⟩ := h.last
  cases (List.append_inj' hu rfl).2
  cases hch

/-- Both libraries read the addresses right, and nothing else, exactly if the
string is not an address with a dot behind it. -/
theorem inet_addr_grammar (s : List UInt8) :
    ((qos_inet_addr (some (cstring s)) ≠ 0xFFFFFFFF → ∃ a, Denotes (cstring s) a) ∧
      (∀ a, Denotes (cstring s) a → qos_inet_addr (some (cstring s)) = a) ∧
      ∀ a, Rust.qos_inet_addr s = some a ↔ Denotes (cstring s) a) ↔
    ¬∃ t a, cstring s = t ++ [46] ∧ Denotes t a := by
  have hparse : ∀ a, Rust.qos_inet_addr s = some a ↔
      Denotes (cstring s) a ∨ ∃ t, cstring s = t ++ [46] ∧ Denotes t a := by
    intro a
    rw [Rust.qos_inet_addr, Option.map_eq_some_iff]
    constructor
    · rintro ⟨ns, hns, ha⟩
      obtain ⟨hlen, h | ⟨t, ht, h⟩⟩ := parts_iff.mp hns
      · exact .inl ⟨ns, hlen, h, ha⟩
      exact .inr ⟨t, ht, ns, hlen, h, ha⟩
    rintro (⟨ns, hlen, h, ha⟩ | ⟨t, ht, ns, hlen, h, ha⟩)
    · exact ⟨ns, parts_iff.mpr ⟨hlen, .inl h⟩, ha⟩
    exact ⟨ns, parts_iff.mpr ⟨hlen, .inr ⟨t, ht, h⟩⟩, ha⟩
  have hc : qos_inet_addr (some (cstring s)) = (Rust.qos_inet_addr s).getD 0xFFFFFFFF := rfl
  constructor
  · rintro ⟨-, -, hrust⟩ ⟨t, a, ht, hden⟩
    exact ((hrust a).mp ((hparse a).mpr (.inr ⟨t, ht, hden⟩))).ne_dot ht
  intro hno
  have hrust : ∀ a, Rust.qos_inet_addr s = some a ↔ Denotes (cstring s) a := fun a =>
    (hparse a).trans (or_iff_left fun ⟨t, ht, h⟩ => hno ⟨t, a, ht, h⟩)
  refine ⟨fun hne => ?_, fun a h => ?_, hrust⟩
  · cases ha : Rust.qos_inet_addr s with
    | none =>
      rw [hc, ha] at hne
      exact absurd rfl hne
    | some a => exact ⟨a, (hrust a).mp ha⟩
  rw [hc, (hrust a).mpr h]
  rfl

theorem inet_addr_trailing_dot :
    qos_inet_addr (some (cstr "1.2.3.4.")) = 0x01020304 ∧
      Rust.qos_inet_addr (cstr "1.2.3.4.") = some 0x01020304 ∧
      ∀ a, ¬Denotes (cstr "1.2.3.4.") a := by
  have hdot : cstr "1.2.3.4." = cstr "1.2.3.4" ++ [46] := by decide +kernel
  exact ⟨by decide +kernel, by decide +kernel, fun a h => h.ne_dot hdot⟩
end QosKernel.Libc
