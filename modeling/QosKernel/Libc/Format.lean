import QosKernel.Fs.CVfs
import QosKernel.Framework.Decimal
import Mathlib.Algebra.Ring.Nat
import Mathlib.Data.List.GetD

/-! # Formatted printing of the C library

`qos_vsnprintf` of `c-os/libc/libc.c` hands its characters one by one to
`qos_libc_fmt_putc`, which counts them all and stores those that leave room
for a NUL. A result `none` is undefined behaviour: a signed overflow, or an
argument that is missing or not of the type that the directive names.
-/
open Framework
namespace QosKernel.Libc
abbrev Buffer := Nat → UInt8

inductive Arg where
  | int (value : Int32)
  | uint32 (value : UInt32)
  | str (value : Option CStr)
  | ptr (value : UInt64)

/-- The local variables of `qos_vsnprintf`; `out` is an offset in the buffer. -/
structure Out where
  mem : Buffer
  out : Nat
  remaining : Nat
  total : Nat

def qos_libc_fmt_putc (o : Out) (ch : UInt8) : Out :=
  if 1 < o.remaining then
    ⟨set o.mem o.out ch, o.out + 1, o.remaining - 1, o.total + 1⟩
  else { o with total := o.total + 1 }

/-- The loop of `qos_libc_u64_to_base`. -/
def baseLoop (value base : Nat) : (room : Nat) → CStr
  | 0 => []
  | room + 1 =>
    if value = 0 then []
    else (cstr "0123456789abcdef").getD (value % base) 0 :: baseLoop (value / base) base room

/-- The `tmp` of all callers has 32 bytes, and `upper` is always 0. -/
def qos_libc_u64_to_base (value base : Nat) : CStr :=
  if value = 0 then [48] else baseLoop value base 32

/-- The characters that a directive prints, and the arguments behind it. -/
def directive : UInt8 → List Arg → Option (CStr × List Arg)
  | 37, ap => some ([37], ap)
  | 100, .int value :: ap =>
    if value < 0 then some (45 :: (qos_libc_u64_to_base (-value.toInt).toNat 10).reverse, ap)
    else some ((qos_libc_u64_to_base value.toInt.toNat 10).reverse, ap)
  | 117, .uint32 value :: ap => some ((qos_libc_u64_to_base value.toNat 10).reverse, ap)
  | 120, .uint32 value :: ap => some ((qos_libc_u64_to_base value.toNat 16).reverse, ap)
  | 99, .int value :: ap => some ([value.toUInt32.toUInt8], ap)
  | 115, .str value :: ap => some (value.getD (cstr "(null)"), ap)
  | 112, .ptr value :: ap => some (cstr "0x" ++ (qos_libc_u64_to_base value.toNat 16).reverse, ap)
  | c, ap => if c ∈ cstr "duxcsp" then none else some ([37, c], ap)

/-- The loop of `qos_vsnprintf`. -/
def format (o : Out) : CStr → List Arg → Option Out
  | [], _ => some o
  | c :: fmt, ap =>
    if c ≠ 37 then format (qos_libc_fmt_putc o c) fmt ap
    else
      match fmt with
      | [] => some o
      | c :: fmt =>
        (directive c ap).bind fun (text, ap) => format (text.foldl qos_libc_fmt_putc o) fmt ap

/-- With a NULL buffer the length is 0, so nothing is stored. -/
def qos_vsnprintf (dst : Option Buffer) (len : Nat) (fmt : Option CStr) (ap : List Arg) :
    Option (Int × Option Buffer) :=
  if dst.isNone ∧ 0 < len ∨ fmt.isNone then some (-1, dst)
  else
    let mem := dst.getD fun _ => 0
    let mem := if 0 < len then set mem 0 0 else mem
    (format ⟨mem, 0, len, 0⟩ (fmt.getD []) ap).bind fun o =>
      let stop := if 0 < o.remaining then o.out else len - 1
      let mem := if 0 < len then set o.mem stop 0 else o.mem
      -- `total` is an `int` and counts up, so it overflows if it ends here
      if 2 ^ 31 ≤ o.total then none else some (o.total, dst.map fun _ => mem)

/-! ### The expansion of a format -/
def signed (n : Int) : CStr := if n < 0 then 45 :: number 10 n.natAbs else number 10 n.natAbs

/-- What a directive makes of an argument of its type. -/
def Arg.text : UInt8 → Arg → Option CStr
  | 100, .int value => some (signed value.toInt)
  | 117, .uint32 value => some (number 10 value.toNat)
  | 120, .uint32 value => some (number 16 value.toNat)
  | 99, .int value => some [value.toUInt32.toUInt8]
  | 115, .str value => some (value.getD (cstr "(null)"))
  | 112, .ptr value => some (cstr "0x" ++ number 16 value.toNat)
  | _, _ => none

/-- `Expands fmt ap text`: the arguments have the types of the directives, and
`text` is the complete expansion. -/
inductive Expands : CStr → List Arg → CStr → Prop where
  | nil {ap} : Expands [] ap []
  | lone {ap} : Expands [37] ap []
  | char {c fmt ap text} : c ≠ 37 → Expands fmt ap text → Expands (c :: fmt) ap (c :: text)
  | percent {fmt ap text} : Expands fmt ap text → Expands (37 :: 37 :: fmt) ap (37 :: text)
  | arg {c t a fmt ap text} : Arg.text c a = some t → Expands fmt ap text →
      Expands (37 :: c :: fmt) (a :: ap) (t ++ text)
  | unknown {c fmt ap text} : c ∉ cstr "%duxcsp" → Expands fmt ap text →
      Expands (37 :: c :: fmt) ap (37 :: c :: text)

theorem digit_eq {d : Nat} (hd : d < 16) :
    (cstr "0123456789abcdef").getD d 0 = d.digitChar.toUInt8 := by
  revert d
  decide +kernel

theorem baseLoop_eq {base : Nat} (hb : 1 < base) (hb' : base ≤ 16) (room : Nat) :
    ∀ {value}, value ≠ 0 → value < base ^ room →
      (baseLoop value base room).reverse = number base value := by
  induction room with
  | zero => exact fun h hlt => absurd (Nat.lt_one_iff.mp hlt) h
  | succ room ih =>
  intro value h hlt
  rw [baseLoop, if_neg h, List.reverse_cons, digit_eq ((Nat.mod_lt _ (by omega)).trans_le hb')]
  by_cases hsmall : value < base
  · -- the last digit
    have hstop : baseLoop 0 base room = [] := by cases room <;> rfl
    rw [Nat.div_eq_of_lt hsmall, Nat.mod_eq_of_lt hsmall, hstop, number,
      Nat.toDigits_of_lt_base hsmall]
    rfl
  have hle := Nat.le_of_not_lt hsmall
  rw [ih (Nat.div_pos hle (by omega)).ne' (Nat.div_lt_of_lt_mul (by rwa [← Nat.pow_succ'])),
    number, number, Nat.toDigits_of_base_le hb hle, List.map_append]
  rfl

theorem u64_to_base_eq {base value : Nat} (hb : 4 ≤ base) (hb' : base ≤ 16)
    (hv : value < 2 ^ 64) : (qos_libc_u64_to_base value base).reverse = number base value := by
  unfold qos_libc_u64_to_base
  split
  next h =>
    rw [h, number, Nat.toDigits_zero]
    rfl
  next h =>
  refine baseLoop_eq (by omega) hb' 32 h (hv.trans_le ?_)
  exact Nat.pow_le_pow_left hb 32

theorem directive_arg {c : UInt8} {a : Arg} {t : CStr} (h : a.text c = some t) (ap : List Arg) :
    directive c (a :: ap) = some (t, ap) := by
  unfold Arg.text at h
  split at h <;> cases h
  next value =>
    have hle := value.le_toInt
    have hlt := value.toInt_lt
    have hneg : value < 0 ↔ value.toInt < 0 := Int32.lt_iff_toInt_lt
    simp only [directive, signed, hneg]
    split
    · rw [u64_to_base_eq (by decide) (by decide) (by omega)]
      congr 5
      omega
    rw [u64_to_base_eq (by decide) (by decide) (by omega)]
    congr 4
    omega
  next value =>
    have hlt := value.toNat_lt
    rw [directive, u64_to_base_eq (by decide) (by decide) (by omega)]
  next value =>
    have hlt := value.toNat_lt
    rw [directive, u64_to_base_eq (by decide) (by decide) (by omega)]
  next => rfl
  next => rfl
  next value => rw [directive, u64_to_base_eq (by decide) (by decide) value.toNat_lt]

theorem directive_unknown {c : UInt8} (h : c ∉ cstr "%duxcsp") (ap : List Arg) :
    directive c ap = some ([37, c], ap) := by
  have hbytes : cstr "%duxcsp" = 37 :: cstr "duxcsp" := by decide +kernel
  rw [hbytes, List.mem_cons, not_or] at h
  unfold directive
  split
  · exact absurd rfl h.1
  iterate 6 · exact absurd (by decide +kernel) h.2
  · exact if_neg h.2

/-! ### Printing cuts the expansion off -/
section
variable {mem : Buffer} {len : Nat}
/-- The variables after `text` was printed. -/
def after (mem : Buffer) (len : Nat) (text : CStr) : Out :=
  let n := min text.length (len - 1)
  ⟨fun i => if i < n then text.getD i 0 else mem i, n, len - n, text.length⟩

theorem putc_after (text : CStr) (ch : UInt8) :
    qos_libc_fmt_putc (after mem len text) ch = after mem len (text ++ [ch]) := by
  unfold qos_libc_fmt_putc after
  rw [List.length_append, List.length_singleton]
  by_cases hroom : text.length < len - 1
  · rw [if_pos (by dsimp only; omega)]
    simp only [Nat.min_eq_left hroom.le, Nat.min_eq_left hroom, Out.mk.injEq, true_and, and_true]
    refine ⟨funext fun i => ?_, by omega⟩
    rcases Nat.lt_trichotomy i text.length with hi | rfl | hi
    · rw [set_ne hi.ne, if_pos hi, if_pos (by omega), List.getD_append _ _ _ _ hi]
    · rw [set_self, if_pos (by omega), List.getD_append_right _ _ _ _ le_rfl]
      simp
    rw [set_ne hi.ne', if_neg (by omega), if_neg (by omega)]
  rw [if_neg (by dsimp only; omega)]
  have hn : min (text.length + 1) (len - 1) = min text.length (len - 1) := by omega
  simp only [hn, Out.mk.injEq, and_true]
  funext i
  split
  · rw [List.getD_append _ _ _ _ (by omega)]
  rfl

theorem puts_after (t : CStr) : ∀ text : CStr,
    t.foldl qos_libc_fmt_putc (after mem len text) = after mem len (text ++ t) := by
  induction t with
  | nil => exact fun text => by rw [List.append_nil]; rfl
  | cons ch t ih =>
  intro text
  rw [List.foldl_cons, putc_after, ih, List.append_assoc]
  rfl

theorem format_directive {c : UInt8} {fmt t : CStr} {ap ap' : List Arg}
    (hc : directive c ap = some (t, ap')) (text : CStr) :
    format (after mem len text) (37 :: c :: fmt) ap =
      format (after mem len (text ++ t)) fmt ap' := by
  rw [format, if_neg (by simp), hc, ← puts_after]
  rfl

theorem format_after {fmt rest : CStr} {ap : List Arg} (he : Expands fmt ap rest) :
    ∀ text : CStr, format (after mem len text) fmt ap = some (after mem len (text ++ rest)) := by
  induction he with
  | nil => exact fun text => by rw [List.append_nil]; rfl
  | lone => exact fun text => by rw [List.append_nil]; rfl
  | char hc _ ih =>
    intro text
    rw [format.eq_def]
    dsimp only
    rw [if_pos hc, putc_after, ih, List.append_assoc]
    rfl
  | percent _ ih =>
    intro text
    rw [format_directive rfl, ih, List.append_assoc]
    rfl
  | arg ht _ ih =>
    intro text
    rw [format_directive (directive_arg ht _), ih, List.append_assoc]
  | unknown hc _ ih =>
  intro text
  rw [format_directive (directive_unknown hc _), ih, List.append_assoc]
  rfl
end
/-- The first characters of `text`, as many as leave room for a NUL, the NUL, and
behind it what was there before. -/
def cut (len : Nat) (text : CStr) (mem : Buffer) : Buffer := fun i =>
  let n := min text.length (len - 1)
  if i < n then text.getD i 0 else if i = n then 0 else mem i

section
variable {fmt text : CStr} {ap : List Arg} (he : Expands fmt ap text) (hN : text.length < 2 ^ 31)
include he hN
theorem vsnprintf_cut (mem : Buffer) {len : Nat} (hpos : 0 < len) :
    qos_vsnprintf (some mem) len (some fmt) ap =
      some ((text.length : Int), some (cut len text mem)) := by
  have hstart : (⟨set mem 0 0, 0, len, 0⟩ : Out) =
      after (set mem 0 0) len [] := by simp [after]
  have hroom : ∀ mem, 0 < (after mem len text).remaining := fun mem => by
    dsimp only [after]
    omega
  simp only [qos_vsnprintf, Option.isNone_some, Bool.false_eq_true, false_and, or_self, if_false,
    Option.getD_some, if_pos hpos, hstart, format_after he, List.nil_append, Option.bind_some]
  rw [if_neg (show ¬_ ≤ (after _ len text).total from Nat.not_le.mpr hN), if_pos (hroom _)]
  refine congrArg (fun mem => some ((text.length : Int), some mem)) (funext fun i => ?_)
  dsimp only [after, cut]
  by_cases hi : i = min text.length (len - 1)
  · rw [hi, set_self, if_neg (lt_irrefl _), if_pos rfl]
  rw [set_ne hi, if_neg hi]
  split
  · rfl
  exact set_ne (by omega)

/-- `qos_vsnprintf` returns the length of the complete expansion, and stores what
there is room for. -/
theorem vsnprintf_expands :
    (∀ dst, qos_vsnprintf dst 0 (some fmt) ap = some ((text.length : Int), dst)) ∧
      ∀ mem len, 0 < len → qos_vsnprintf (some mem) len (some fmt) ap =
        some ((text.length : Int), some (cut len text mem)) := by
  refine ⟨fun dst => ?_, fun mem len hpos => vsnprintf_cut he hN mem hpos⟩
  have hstart : ∀ mem, (⟨mem, 0, 0, 0⟩ : Out) = after mem 0 [] := by simp [after]
  simp only [qos_vsnprintf, Nat.lt_irrefl, and_false, Option.isNone_some, Bool.false_eq_true,
    or_self, if_false, Option.getD_some, hstart, format_after he, List.nil_append,
    Option.bind_some]
  rw [if_neg (show ¬_ ≤ (after _ 0 text).total from Nat.not_le.mpr hN)]
  cases dst <;> simp [after]
end
theorem vsnprintf_expands_answer :
    qos_vsnprintf (some fun _ => 1) 2 (some [37, 117]) [.uint32 42] =
      some (2, some (cut 2 [52, 50] fun _ => 1)) := by
  have ht : Arg.text 117 (.uint32 42) = some [52, 50] := by decide +kernel
  exact (vsnprintf_expands (.arg ht .nil) (by decide)).2 _ 2 (by decide)

/-! ### Reading a number back -/
def isSpace (ch : UInt8) : Bool := ch ∈ cstr " \t\n\r\x0c\x0b"

/-- The `value` of the loop is an `int`, so it overflows above `INT_MAX`. -/
def qos_atoi : Option CStr → Option Int
  | none => some 0
  | some s =>
    match s.dropWhile isSpace with
    | 43 :: s => (digits (2 ^ 31 - 1) s 0).map fun (value, _) => value
    | 45 :: s => (digits (2 ^ 31 - 1) s 0).map fun (value, _) => -value
    | s => (digits (2 ^ 31 - 1) s 0).map fun (value, _) => value

/-- The C string in the first `len` bytes of a buffer. -/
def text (len : Nat) (mem : Buffer) : CStr := ((List.range len).map mem).takeWhile (· ≠ 0)

theorem text_cut {s : CStr} (h0 : 0 ∉ s) {len : Nat} (hlt : s.length < len) (mem : Buffer) :
    text len (cut len s mem) = s := by
  obtain ⟨k, rfl⟩ : ∃ k, len = s.length + (k + 1) := ⟨len - s.length - 1, by omega⟩
  have hfirst : (List.range s.length).map (cut (s.length + (k + 1)) s mem) = s := by
    refine List.ext_getElem (by simp) fun i _ hi => ?_
    simp [cut, hi]
  have hnul : cut (s.length + (k + 1)) s mem (s.length + 0) = 0 := by simp [cut]
  have hpos : ∀ ch ∈ s, decide (ch ≠ 0) = true := fun ch hch => by
    simpa using ne_of_mem_of_not_mem hch h0
  rw [text, List.range_add, List.map_append, hfirst, List.range_succ_eq_map, List.map_cons,
    List.map_cons, hnul, List.takeWhile_append_of_pos hpos, List.takeWhile_cons_of_neg (by simp),
    List.append_nil]

theorem zero_notMem_signed (n : Int) : 0 ∉ signed n := by
  have hnumber : 0 ∉ number 10 n.natAbs := fun h => by cases isDigit_number h
  unfold signed
  split
  · rw [List.mem_cons, not_or]
    exact ⟨by decide, hnumber⟩
  exact hnumber

/-- The text of a number, with or without a sign, read back. -/
theorem atoi_signed (n : Int) :
    qos_atoi (some (signed n)) = if n.natAbs < 2 ^ 31 then some n else none := by
  have hdigits : digits (2 ^ 31 - 1) (number 10 n.natAbs) 0 =
      if n.natAbs < 2 ^ 31 then some (n.natAbs, []) else none := by
    have hread := @digits_append (2 ^ 31 - 1) (number 10 n.natAbs) []
      (fun _ => isDigit_number) nofun
    rw [List.append_nil, value_number] at hread
    exact hread.trans (if_congr (by omega) rfl rfl)
  unfold qos_atoi signed
  by_cases hneg : n < 0
  · have hsign : (45 :: number 10 n.natAbs).dropWhile isSpace = 45 :: number 10 n.natAbs :=
      List.dropWhile_cons_of_neg (by decide +kernel)
    simp only [if_pos hneg, hsign, hdigits]
    split
    · show some (-(n.natAbs : Int)) = some n
      rw [Int.ofNat_natAbs_of_nonpos hneg.le, Int.neg_neg]
    rfl
  obtain ⟨c, s, hnum⟩ := List.exists_cons_of_ne_nil (number_ne_nil n.natAbs)
  have hc : isDigit c = true := isDigit_number (hnum ▸ List.mem_cons_self)
  have hspace : ∀ ch ∈ cstr " \t\n\r\x0c\x0b", isDigit ch = false := by decide +kernel
  have hfirst : ¬isSpace c = true := by
    intro h
    rw [hspace c (of_decide_eq_true h)] at hc
    cases hc
  simp only [if_neg hneg, hnum, List.dropWhile_cons_of_neg hfirst]
  rw [hnum] at hdigits
  split
  next h =>
    cases h
    cases hc
  next h =>
    cases h
    cases hc
  next =>
  rw [hdigits]
  split
  · show some (n.natAbs : Int) = some n
    rw [Int.natAbs_of_nonneg (Int.not_lt.mp hneg)]
  rfl

theorem length_signed (n : Int32) : (signed n.toInt).length ≤ 11 := by
  have hle := n.le_toInt
  have hlt := n.toInt_lt
  have hnumber : (number 10 n.toInt.natAbs).length ≤ 10 := by
    rw [number, List.length_map, Nat.length_toDigits_le_iff (by decide) (by decide)]
    omega
  unfold signed
  split
  · exact Nat.succ_le_succ hnumber
  exact hnumber.trans (by decide)

/-- `qos_atoi` reads back what `%d` prints, and nothing overflows, exactly for the
numbers other than the least one. -/
theorem atoi_reads_back (n : Int32) {len : Nat} (hlen : (signed n.toInt).length < len)
    (mem : Buffer) :
    (∃ k mem', qos_vsnprintf (some mem) len (some (cstr "%d")) [.int n] = some (k, some mem') ∧
      qos_atoi (some (text len mem')) = some n.toInt) ↔ n ≠ Int32.minValue := by
  have he : Expands (cstr "%d") [.int n] (signed n.toInt) := by
    have hbytes : cstr "%d" = [37, 100] := by decide +kernel
    rw [hbytes, ← List.append_nil (signed _)]
    exact .arg rfl .nil
  have hlast : n ≠ Int32.minValue ↔ n.toInt.natAbs < 2 ^ 31 := by
    have hle := n.le_toInt
    have hlt := n.toInt_lt
    rw [Ne, ← Int32.toInt_inj, Int32.toInt_minValue]
    omega
  rw [vsnprintf_cut he ((length_signed n).trans_lt (by decide)) mem (by omega), hlast]
  constructor
  · rintro ⟨k, mem', h, hread⟩
    cases h
    rw [text_cut (zero_notMem_signed _) hlen, atoi_signed] at hread
    by_contra hlarge
    rw [if_neg hlarge] at hread
    cases hread
  intro hn
  refine ⟨_, _, rfl, ?_⟩
  rw [text_cut (zero_notMem_signed _) hlen, atoi_signed, if_pos hn]

theorem atoi_reads_back_seven :
    ∃ k mem', qos_vsnprintf (some fun _ => 0) 2 (some (cstr "%d")) [.int 7] = some (k, some mem') ∧
      qos_atoi (some (text 2 mem')) = some 7 :=
  (atoi_reads_back 7 (by decide +kernel) fun _ => 0).mpr (by decide)

/-- The least number is printed, but not read back. -/
theorem atoi_overflows :
    (qos_vsnprintf (some fun _ => 0) 12 (some (cstr "%d")) [.int .minValue]).bind
        (fun (_, mem) => mem.map (text 12)) = some (cstr "-2147483648") ∧
      qos_atoi (some (cstr "-2147483648")) = none := by
  decide +kernel
end QosKernel.Libc
