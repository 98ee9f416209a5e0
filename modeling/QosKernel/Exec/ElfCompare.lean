import QosKernel.Exec.Elf
import Mathlib.Data.List.GetD

/-! # The two parsers accept the same executables

Once the table of program headers is known to lie inside the image, every
read of both parsers does too, and no addition of theirs wraps. Then the
two loops do the same, header by header, and come to their end exactly when
every header is as it must be.
-/
open Framework Framework.Attempt
namespace QosKernel
namespace Image
variable {image : Image}
section
variable (image : Image) (k : Nat)
def byte : UInt8 := image.bytes.getD k 0
def u16 : UInt16 := le16 (image.byte k) (image.byte (k + 1))

def u32 : UInt32 :=
  le32 (image.byte k) (image.byte (k + 1)) (image.byte (k + 2)) (image.byte (k + 3))

def u64 : UInt64 :=
  le64 (image.byte k) (image.byte (k + 1)) (image.byte (k + 2)) (image.byte (k + 3))
    (image.byte (k + 4)) (image.byte (k + 5)) (image.byte (k + 6)) (image.byte (k + 7))
end
theorem index_bytes {k : Nat} (h : k < image.bytes.length) :
    index image.bytes k = .ok (image.byte k) := by
  rw [index_eq h, byte, List.getD_eq_getElem _ _ h]
end Image
/-! ### Reads -/
namespace CElf
variable {p : Nat} {image : Image}
theorem len_toNat (image : Image) : (len image).toNat = image.bytes.length := by
  rw [len, UInt64.toNat_ofNat']
  exact Nat.mod_eq_of_lt image.fits

theorem elf_u16_eq (h : p + 2 ≤ image.bytes.length) : elf_u16 image p = .ok (image.u16 p) := by
  unfold elf_u16
  simp (disch := omega) only [Image.index_bytes, ok_bind]
  rfl

theorem elf_u32_eq (h : p + 4 ≤ image.bytes.length) : elf_u32 image p = .ok (image.u32 p) := by
  unfold elf_u32
  simp (disch := omega) only [Image.index_bytes, ok_bind]
  rfl

theorem elf_u64_eq (h : p + 8 ≤ image.bytes.length) : elf_u64 image p = .ok (image.u64 p) := by
  unfold elf_u64
  simp (disch := omega) only [Image.index_bytes, ok_bind]
  rfl
end CElf
namespace RustElf
variable {off : Nat} {image : Image}
theorem byteAt_eq {k : Nat} (h : off + k < image.bytes.length) :
    byteAt image off k = .ok (image.byte (off + k)) := by
  have hfits := image.fits
  unfold byteAt
  rw [add_eq (by omega), ok_bind, Image.index_bytes h]

theorem room_eq {size : Nat} (h : off + size ≤ image.bytes.length) :
    room image off size = .ok () := by
  have hfits := image.fits
  unfold room
  rw [add_eq (by omega), ok_bind, require, len, if_pos (Nat.not_lt_of_le h)]

theorem elf_u16_eq (h : off + 2 ≤ image.bytes.length) :
    elf_u16 image off = .ok (image.u16 off) := by
  unfold elf_u16
  rw [room_eq h]
  simp (disch := omega) only [byteAt_eq, ok_bind]
  rfl

theorem elf_u32_eq (h : off + 4 ≤ image.bytes.length) :
    elf_u32 image off = .ok (image.u32 off) := by
  unfold elf_u32
  rw [room_eq h]
  simp (disch := omega) only [byteAt_eq, ok_bind]
  rfl

theorem elf_u64_eq (h : off + 8 ≤ image.bytes.length) :
    elf_u64 image off = .ok (image.u64 off) := by
  unfold elf_u64
  rw [room_eq h]
  simp (disch := omega) only [byteAt_eq, ok_bind]
  rfl
end RustElf
/-! ### Segments -/
/-- The segment lies inside the image. -/
def Image.Holds (image : Image) (p_offset p_filesz : UInt64) : Prop :=
  p_offset.toNat + p_filesz.toNat ≤ image.bytes.length

section segments
variable {image : Image} {p_offset p_filesz : UInt64}
theorem CElf.outside_eq_false :
    outside image p_offset p_filesz = false ↔ image.Holds p_offset p_filesz := by
  have hlen := len_toNat image
  unfold outside Image.Holds
  rw [Bool.or_eq_false_iff, decide_eq_false_iff_not, decide_eq_false_iff_not,
    UInt64.lt_iff_toNat_lt, UInt64.lt_iff_toNat_lt]
  constructor
  · rintro ⟨hoff, hsize⟩
    rw [UInt64.toNat_sub_of_le _ _ (UInt64.le_iff_toNat_le.mpr (Nat.le_of_not_lt hoff))] at hsize
    omega
  intro h
  have hoff : ¬(len image).toNat < p_offset.toNat := by omega
  refine ⟨hoff, ?_⟩
  rw [UInt64.toNat_sub_of_le _ _ (UInt64.le_iff_toNat_le.mpr (Nat.le_of_not_lt hoff))]
  omega

theorem CElf.outside_of_not (h : ¬image.Holds p_offset p_filesz) :
    outside image p_offset p_filesz = true := by
  rw [← Bool.not_eq_false, outside_eq_false]
  exact h

theorem RustElf.inside_of_holds (h : image.Holds p_offset p_filesz) :
    inside image p_offset.toNat p_filesz.toNat = .ok () := by
  unfold Image.Holds at h
  unfold inside len
  rw [if_neg (by omega), sub_eq (by omega), ok_bind, require, if_pos (by omega)]

theorem RustElf.inside_of_not (h : ¬image.Holds p_offset p_filesz) :
    inside image p_offset.toNat p_filesz.toNat = .giveUp := by
  unfold Image.Holds at h
  unfold inside len
  split
  · rfl
  rename_i hoff
  rw [sub_eq (Nat.le_of_not_lt hoff), ok_bind, require, if_neg (by omega)]

theorem pt_load_agree (p_vaddr p_memsz p_align : UInt64) {acc : Segments}
    (hacc : acc.load_count.toNat < 65535) :
    RustElf.pt_load image p_offset p_vaddr p_filesz p_memsz p_align acc =
      CElf.pt_load image p_offset p_vaddr p_filesz p_memsz p_align acc := by
  have hcount : UInt16.ofNat (min (acc.load_count.toNat + 1) 0xFFFF) = acc.load_count + 1 := by
    apply UInt16.toNat_inj.mp
    rw [UInt16.toNat_ofNat', UInt16.toNat_add, UInt16.toNat_one]
    omega
  unfold RustElf.pt_load CElf.pt_load
  rw [hcount]
  by_cases hmem : p_memsz < p_filesz
  · simp [require_bind, hmem]
  by_cases hholds : image.Holds p_offset p_filesz
  · rw [RustElf.inside_of_holds hholds, CElf.outside_eq_false.mpr hholds]
    simp [require_bind, hmem, pure, -not_and]
  rw [RustElf.inside_of_not hholds, CElf.outside_of_not hholds]
  by_cases hzero : p_filesz = 0
  · simp [require_bind, hzero, pure, -not_and]
  simp [require_bind, hmem, hzero]

/-- The interpreter's name ends inside the image, so both read its last byte. -/
theorem pt_interp_agree (acc : Segments) :
    RustElf.pt_interp image p_offset p_filesz acc = CElf.pt_interp image p_offset p_filesz acc := by
  unfold RustElf.pt_interp CElf.pt_interp
  dsimp only
  by_cases hzero : p_filesz = 0
  · subst hzero
    simp [require_bind]
  have hsize : p_filesz.toNat ≠ 0 := fun h => hzero (UInt64.toNat_inj.mp h)
  by_cases hholds : image.Holds p_offset p_filesz
  · have hfits := image.fits
    rw [RustElf.inside_of_holds hholds, CElf.outside_eq_false.mpr hholds]
    unfold Image.Holds at hholds
    have hlast : (p_offset + p_filesz - 1).toNat = p_offset.toNat + p_filesz.toNat - 1 := by
      rw [UInt64.toNat_sub, UInt64.toNat_add, UInt64.toNat_one]
      omega
    have hsum : add p_offset.toNat p_filesz.toNat = .ok (p_offset.toNat + p_filesz.toNat) :=
      add_eq (by omega)
    have hpred : sub (p_offset.toNat + p_filesz.toNat) 1 =
        .ok (p_offset.toNat + p_filesz.toNat - 1) := sub_eq (by omega)
    have hbyte := image.index_bytes (k := p_offset.toNat + p_filesz.toNat - 1) (by omega)
    by_cases hnul : image.byte (p_offset.toNat + p_filesz.toNat - 1) = 0
    all_goals simp [require_bind, hlast, hsum, hpred, hbyte, hsize, hzero, hnul, pure]
  rw [RustElf.inside_of_not hholds, CElf.outside_of_not hholds]
  simp [require_bind, hsize]
end segments
/-! ### Program headers -/
/-- The table of program headers lies inside the image. -/
structure Image.Table (image : Image) (e_phoff : UInt64) (e_phentsize e_phnum : UInt16) :
    Prop where
  some : e_phnum ≠ 0
  wide : ¬e_phentsize < 56
  inside : e_phoff.toNat + e_phnum.toNat * e_phentsize.toNat ≤ image.bytes.length

namespace Image.Table
variable {image : Image} {e_phoff : UInt64} {e_phentsize e_phnum : UInt16} {i : Nat}
section
variable (h : image.Table e_phoff e_phentsize e_phnum)
include h
theorem header (hi : i < e_phnum.toNat) :
    e_phoff.toNat + i * e_phentsize.toNat + 56 ≤ image.bytes.length := by
  have hwide : 56 ≤ e_phentsize.toNat := Nat.le_of_not_lt h.wide
  have hnext : (i + 1) * e_phentsize.toNat ≤ e_phnum.toNat * e_phentsize.toNat :=
    Nat.mul_le_mul_right _ hi
  rw [Nat.add_mul, Nat.one_mul] at hnext
  have hinside := h.inside
  omega

theorem c_phoff (hi : i < e_phnum.toNat) :
    (e_phoff + UInt64.ofNat i * e_phentsize.toUInt64).toNat =
      e_phoff.toNat + i * e_phentsize.toNat := by
  have hheader := h.header hi
  have hfits := image.fits
  have hnum := e_phnum.toNat_lt
  have hsmall : i % 2 ^ 64 = i := Nat.mod_eq_of_lt (by omega)
  rw [UInt64.toNat_add, UInt64.toNat_mul, UInt64.toNat_ofNat', UInt16.toNat_toUInt64, hsmall]
  rw [Nat.add_mod_mod, Nat.mod_eq_of_lt (by omega)]

theorem program_header_agree
    (hi : i < e_phnum.toNat) {acc : Segments} (hacc : acc.load_count.toNat ≤ i) :
    RustElf.program_header image e_phoff.toNat e_phentsize.toNat i acc =
      CElf.program_header image e_phoff e_phentsize i acc := by
  have hheader := h.header hi
  have hfits := image.fits
  have hnum := e_phnum.toNat_lt
  unfold RustElf.program_header CElf.program_header
  dsimp only
  rw [h.c_phoff hi]
  simp (disch := omega) only [mul_eq, add_eq, ok_bind, RustElf.elf_u32_eq, RustElf.elf_u64_eq,
    CElf.elf_u32_eq, CElf.elf_u64_eq]
  rw [pt_load_agree _ _ _ (by omega), pt_interp_agree]
end
end Image.Table
/-! ### What a program header must be -/
/-- A segment that may be loaded. -/
structure Image.Loadable (image : Image) (p_offset p_vaddr p_filesz p_memsz p_align : UInt64) :
    Prop where
  memory : p_filesz.toNat ≤ p_memsz.toNat
  file : p_filesz ≠ 0 → image.Holds p_offset p_filesz
  aligned : p_align ≠ 0 → p_vaddr.toNat % p_align.toNat = p_offset.toNat % p_align.toNat

/-- The name of an interpreter. -/
structure Image.Interpreter (image : Image) (p_offset p_filesz : UInt64) : Prop where
  some : p_filesz ≠ 0
  file : image.Holds p_offset p_filesz
  ended : image.byte (p_offset.toNat + p_filesz.toNat - 1) = 0

structure Image.Header (image : Image) (k : Nat) : Prop where
  load : image.u32 k = QOS_ELF_PT_LOAD → image.Loadable (image.u64 (k + 8)) (image.u64 (k + 16))
    (image.u64 (k + 32)) (image.u64 (k + 40)) (image.u64 (k + 48))
  interp : image.u32 k = QOS_ELF_PT_INTERP →
    image.Interpreter (image.u64 (k + 8)) (image.u64 (k + 32))

namespace CElf
variable {image : Image} {e_phoff : UInt64} {e_phentsize e_phnum : UInt16} {i : Nat}
variable (p_offset p_vaddr p_filesz p_memsz p_align : UInt64) (acc : Segments)
theorem pt_load_ends :
    image.Loadable p_offset p_vaddr p_filesz p_memsz p_align ∧
      pt_load image p_offset p_vaddr p_filesz p_memsz p_align acc =
        .ok { acc with load_count := acc.load_count + 1 } ∨
    ¬image.Loadable p_offset p_vaddr p_filesz p_memsz p_align ∧
      pt_load image p_offset p_vaddr p_filesz p_memsz p_align acc = .giveUp := by
  unfold pt_load
  split
  next hmem => exact .inr ⟨fun h => Nat.not_le_of_lt hmem h.memory, rfl⟩
  next hmem =>
  split
  next hfile =>
    rw [Bool.and_eq_true, bne_iff_ne] at hfile
    refine .inr ⟨fun h => ?_, rfl⟩
    rw [outside_eq_false.mpr (h.file hfile.1)] at hfile
    cases hfile.2
  next hfile =>
  split
  next halign =>
    simp only [Bool.and_eq_true, bne_iff_ne, ne_eq, ← UInt64.toNat_inj (a := _ % _),
      UInt64.toNat_mod] at halign
    exact .inr ⟨fun h => halign.2 (h.aligned halign.1), rfl⟩
  next halign =>
  refine .inl ⟨⟨Nat.le_of_not_lt hmem, fun hsize => ?_, fun hne => ?_⟩, rfl⟩
  · rw [Bool.and_eq_true, not_and, Bool.not_eq_true, bne_iff_ne, outside_eq_false] at hfile
    exact hfile hsize
  by_contra hmod
  refine halign ?_
  simp only [Bool.and_eq_true, bne_iff_ne, ne_eq, ← UInt64.toNat_inj (a := _ % _), UInt64.toNat_mod]
  exact ⟨hne, hmod⟩

theorem pt_interp_ends :
    image.Interpreter p_offset p_filesz ∧ (∃ acc', pt_interp image p_offset p_filesz acc =
      .ok acc' ∧ acc'.load_count = acc.load_count) ∨
    ¬image.Interpreter p_offset p_filesz ∧ pt_interp image p_offset p_filesz acc = .giveUp := by
  unfold pt_interp
  split
  next hplace =>
    refine .inr ⟨fun h => ?_, rfl⟩
    rw [Bool.or_eq_true, beq_iff_eq, outside_eq_false.mpr h.file] at hplace
    exact hplace.elim h.some Bool.false_ne_true
  next hplace =>
  rw [Bool.not_eq_true, Bool.or_eq_false_iff, beq_eq_false_iff_ne, outside_eq_false] at hplace
  obtain ⟨hzero, hholds⟩ := hplace
  have hsize : p_filesz.toNat ≠ 0 := fun h => hzero (UInt64.toNat_inj.mp h)
  have hfits := image.fits
  have hinside := hholds
  unfold Image.Holds at hinside
  have hlast : (p_offset + p_filesz - 1).toNat = p_offset.toNat + p_filesz.toNat - 1 := by
    rw [UInt64.toNat_sub, UInt64.toNat_add, UInt64.toNat_one]
    omega
  rw [hlast, Image.index_bytes (by omega), ok_bind]
  by_cases hnul : image.byte (p_offset.toNat + p_filesz.toNat - 1) = 0
  · rw [if_neg (by simp [hnul])]
    exact .inl ⟨⟨hzero, hholds, hnul⟩, _, rfl, rfl⟩
  rw [if_pos (by simpa using hnul)]
  exact .inr ⟨fun h => hnul h.ended, rfl⟩

theorem program_header_ends (h : image.Table e_phoff e_phentsize e_phnum) (hi : i < e_phnum.toNat) :
    image.Header (e_phoff.toNat + i * e_phentsize.toNat) ∧
      (∃ acc', program_header image e_phoff e_phentsize i acc = .ok acc' ∧
        acc'.load_count = acc.load_count +
          if image.u32 (e_phoff.toNat + i * e_phentsize.toNat) = QOS_ELF_PT_LOAD then 1 else 0) ∨
    ¬image.Header (e_phoff.toNat + i * e_phentsize.toNat) ∧
      program_header image e_phoff e_phentsize i acc = .giveUp := by
  have hheader := h.header hi
  unfold program_header
  dsimp only
  rw [h.c_phoff hi]
  simp (disch := omega) only [elf_u32_eq, elf_u64_eq, ok_bind]
  generalize e_phoff.toNat + i * e_phentsize.toNat = k
  by_cases hload : image.u32 k = QOS_ELF_PT_LOAD
  · have hne : image.u32 k ≠ QOS_ELF_PT_INTERP := by rw [hload]; decide
    rw [if_pos (by simpa using hload), if_pos hload]
    rcases pt_load_ends _ _ _ _ _ acc with ⟨hok, heq⟩ | ⟨hnot, heq⟩
    · exact .inl ⟨⟨fun _ => hok, fun h => absurd h hne⟩, _, heq, rfl⟩
    exact .inr ⟨fun h => hnot (h.load hload), heq⟩
  rw [if_neg (by simpa using hload), if_neg hload]
  by_cases hinterp : image.u32 k = QOS_ELF_PT_INTERP
  · rw [if_pos (by simpa using hinterp)]
    rcases pt_interp_ends _ _ acc with ⟨hok, acc', heq, hcount⟩ | ⟨hnot, heq⟩
    · exact .inl ⟨⟨fun h => absurd h hload, fun _ => hok⟩, acc', heq, by simpa using hcount⟩
    exact .inr ⟨fun h => hnot (h.interp hinterp), heq⟩
  rw [if_neg (by simpa using hinterp)]
  exact .inl ⟨⟨fun h => absurd h hload, fun h => absurd h hinterp⟩, acc, rfl, by simp⟩
end CElf
/-! ### The table -/
section table
variable {image : Image} {e_phoff : UInt64} {e_phentsize e_phnum : UInt16}
theorem division_ok {phoff phentsize phnum : Nat} (hsize : 0 < phentsize) (hoff : phoff < 2 ^ 64) :
    ¬(2 ^ 64 - 1 - phoff) / phentsize < phnum ↔ phoff + phnum * phentsize < 2 ^ 64 := by
  rw [Nat.not_lt, Nat.le_div_iff_mul_le hsize]
  omega

theorem CElf.table_bad_eq_false :
    table_bad image e_phoff e_phentsize e_phnum = false ↔
      image.Table e_phoff e_phentsize e_phnum := by
  have hlen := len_toNat image
  have hfits := image.fits
  have hmax : (UINT64_MAX - e_phoff).toNat = 2 ^ 64 - 1 - e_phoff.toNat :=
    UInt64.toNat_sub_of_le _ _ (UInt64.le_iff_toNat_le.mpr (Nat.le_sub_one_of_lt e_phoff.toNat_lt))
  unfold table_bad
  simp only [Bool.or_eq_false_iff, beq_eq_false_iff_ne, decide_eq_false_iff_not,
    UInt64.lt_iff_toNat_lt, UInt64.toNat_div, hlen, hmax, UInt16.toNat_toUInt64]
  constructor
  · rintro ⟨⟨⟨⟨hsome, hwide⟩, hoff⟩, hdiv⟩, hend⟩
    have hsize : 56 ≤ e_phentsize.toNat := Nat.le_of_not_lt hwide
    rw [division_ok (by omega) (by omega)] at hdiv
    rw [UInt64.toNat_add, UInt64.toNat_mul, UInt16.toNat_toUInt64, UInt16.toNat_toUInt64,
      Nat.add_mod_mod, Nat.mod_eq_of_lt hdiv] at hend
    exact ⟨hsome, hwide, by omega⟩
  rintro ⟨hsome, hwide, hinside⟩
  have hsize : 56 ≤ e_phentsize.toNat := Nat.le_of_not_lt hwide
  have hdiv : e_phoff.toNat + e_phnum.toNat * e_phentsize.toNat < 2 ^ 64 := by omega
  refine ⟨⟨⟨⟨hsome, hwide⟩, by omega⟩, (division_ok (by omega) (by omega)).mpr hdiv⟩, ?_⟩
  rw [UInt64.toNat_add, UInt64.toNat_mul, UInt16.toNat_toUInt64, UInt16.toNat_toUInt64,
    Nat.add_mod_mod, Nat.mod_eq_of_lt hdiv]
  omega

theorem RustElf.table_of (h : image.Table e_phoff e_phentsize e_phnum) :
    table image e_phoff.toNat e_phentsize.toNat e_phnum.toNat = .ok () := by
  have hfits := image.fits
  have hinside := h.inside
  have hsize : 56 ≤ e_phentsize.toNat := Nat.le_of_not_lt h.wide
  have hdiv : ¬(2 ^ 64 - 1 - e_phoff.toNat) / e_phentsize.toNat < e_phnum.toNat :=
    (division_ok (by omega) (by omega)).mpr (by omega)
  unfold table len USIZE_MAX
  simp (disch := omega) only [require_bind, sub_eq, div_eq, mul_eq, add_eq, ok_bind]
  rw [if_pos (by omega), if_pos hdiv, require, if_pos (by omega)]

theorem RustElf.table_of_not (hwide : ¬e_phentsize < 56) (hsome : e_phnum ≠ 0)
    (h : ¬image.Table e_phoff e_phentsize e_phnum) :
    table image e_phoff.toNat e_phentsize.toNat e_phnum.toNat = .giveUp := by
  have hfits := image.fits
  have hsize : 56 ≤ e_phentsize.toNat := Nat.le_of_not_lt hwide
  have hout : ¬e_phoff.toNat + e_phnum.toNat * e_phentsize.toNat ≤ image.bytes.length :=
    fun hinside => h ⟨hsome, hwide, hinside⟩
  have hoff := e_phoff.toNat_lt
  unfold table len USIZE_MAX
  simp (disch := omega) only [require_bind, sub_eq, div_eq, ok_bind]
  split
  · split
    · rename_i hdiv
      rw [division_ok (by omega) hoff] at hdiv
      rw [mul_eq (by omega), ok_bind, add_eq hdiv, ok_bind, require, if_neg (by omega)]
    rfl
  rfl
end table
/-! ### The parsers -/
section parsers
variable {image : Image} {e_phoff : UInt64} {e_phentsize e_phnum : UInt16}
/-- The number of segments to load among the first `n` headers. -/
def Image.loads (image : Image) (e_phoff : UInt64) (e_phentsize : UInt16) (n : Nat) : Nat :=
  ((List.range n).filter fun i =>
    image.u32 (e_phoff.toNat + i * e_phentsize.toNat) = QOS_ELF_PT_LOAD).length

theorem Image.loads_le (n : Nat) : image.loads e_phoff e_phentsize n ≤ n := by
  refine Nat.le_trans (List.length_filter_le _ _) ?_
  exact Nat.le_of_eq List.length_range

section
variable (h : image.Table e_phoff e_phentsize e_phnum)
include h
/-- The counter never wraps: there are fewer headers than it can count. -/
theorem CElf.counted {i : Nat} (hi : i < e_phnum.toNat) {acc : Segments}
    (hacc : acc.load_count.toNat = image.loads e_phoff e_phentsize i) :
    image.Header (e_phoff.toNat + i * e_phentsize.toNat) ∧
      (∃ acc', program_header image e_phoff e_phentsize i acc = .ok acc' ∧
        acc'.load_count.toNat = image.loads e_phoff e_phentsize (i + 1)) ∨
    ¬image.Header (e_phoff.toNat + i * e_phentsize.toNat) ∧
      program_header image e_phoff e_phentsize i acc = .giveUp := by
  refine (program_header_ends acc h hi).imp_left (And.imp_right fun ⟨acc', heq, hcount⟩ => ?_)
  refine ⟨acc', heq, ?_⟩
  have hle : image.loads e_phoff e_phentsize i ≤ i := image.loads_le i
  have hnum := e_phnum.toNat_lt
  unfold Image.loads at hacc hle ⊢
  rw [List.range_succ, List.filter_append, List.length_append, ← hacc, hcount, UInt16.toNat_add]
  split
  next hload =>
    rw [List.filter_cons_of_pos (by simpa using hload)]
    show (_ + 1) % 2 ^ 16 = _ + 1
    omega
  next hload =>
  rw [List.filter_cons_of_neg (by simpa using hload)]
  show (_ + 0) % 2 ^ 16 = _ + 0
  omega

-- No more segments are counted than headers were read, so the counter of neither loop reaches
-- its bound.
theorem loops_agree :
    loop (RustElf.program_header image e_phoff.toNat e_phentsize.toNat) e_phnum.toNat 0 .none =
      loop (CElf.program_header image e_phoff e_phentsize) e_phnum.toNat 0 .none := by
  symm
  refine loop_congr (fun i acc => acc.load_count.toNat = image.loads e_phoff e_phentsize i)
    ?_ ?_ rfl
  · intro i acc _ hi hacc
    exact (h.program_header_agree (by omega) (hacc ▸ image.loads_le i)).symm
  intro i acc acc' _ hi hacc hstep
  obtain ⟨-, acc'', heq, hcount⟩ | ⟨-, heq⟩ := CElf.counted h (by omega) hacc
  · rw [hstep] at heq
    cases heq
    exact hcount
  rw [hstep] at heq
  cases heq

/-- The loop comes to its end exactly when every header is as it must be. -/
theorem CElf.loop_ends :
    (∀ i < e_phnum.toNat, image.Header (e_phoff.toNat + i * e_phentsize.toNat)) ∧
      (∃ acc, loop (program_header image e_phoff e_phentsize) e_phnum.toNat 0 .none = .ok acc ∧
        acc.load_count.toNat = image.loads e_phoff e_phentsize e_phnum.toNat) ∨
    (¬∀ i < e_phnum.toNat, image.Header (e_phoff.toNat + i * e_phentsize.toNat)) ∧
      loop (program_header image e_phoff e_phentsize) e_phnum.toNat 0 .none = .giveUp := by
  have hends := Attempt.loop_ends (n := e_phnum.toNat) (i := 0)
    (fun i acc => acc.load_count.toNat = image.loads e_phoff e_phentsize i)
    (fun i acc _ hi hacc => counted h (by omega) hacc) (s := Segments.none) rfl
  simpa only [Nat.zero_le, true_implies, Nat.zero_add] using hends
end
end parsers
/-- Both parsers read the header in the same way, and give up at the same field. -/
theorem parse_exec_elf_image_eq (image : Image) :
    CElf.parse_exec_elf_image image = RustElf.parse_exec_elf_image image := by
  have h64 : CElf.len image < 64 ↔ RustElf.len image < 64 := by
    rw [UInt64.lt_iff_toNat_lt, CElf.len_toNat image]
    rfl
  unfold CElf.parse_exec_elf_image RustElf.parse_exec_elf_image
  simp only [h64]
  refine bind_congr fun _ hlen => ?_
  have hlong : 64 ≤ image.bytes.length := Nat.le_of_not_lt (require_ok hlen)
  -- the bytes that identify the file are read and checked by the same expressions
  iterate 9 refine bind_congr fun _ _ => ?_
  rw [CElf.elf_u16_eq (p := 16) (by omega), RustElf.elf_u16_eq (by omega), ok_bind,
    ok_bind, CElf.elf_u16_eq (p := 18) (by omega), RustElf.elf_u16_eq (by omega), ok_bind,
    ok_bind, RustElf.elf_u64_eq (by omega), ok_bind, CElf.elf_u64_eq (by omega),
    RustElf.elf_u64_eq (by omega), ok_bind, ok_bind, CElf.elf_u16_eq (by omega),
    RustElf.elf_u16_eq (by omega), ok_bind, ok_bind, CElf.elf_u16_eq (by omega),
    RustElf.elf_u16_eq (by omega), ok_bind, ok_bind]
  refine bind_congr fun _ _ => ?_
  by_cases htable : image.Table (image.u64 32) (image.u16 54) (image.u16 56)
  · rw [CElf.table_bad_eq_false.mpr htable, RustElf.table_of htable, loops_agree htable,
      require_bind, require_bind, if_pos Bool.false_ne_true, if_pos ⟨htable.some, htable.wide⟩,
      ok_bind]
    refine bind_congr fun acc _ => bind_congr fun _ _ => ?_
    rw [CElf.elf_u64_eq (by omega), ok_bind]
  have hbad : CElf.table_bad image (image.u64 32) (image.u16 54) (image.u16 56) = true := by
    rw [← Bool.not_eq_false, CElf.table_bad_eq_false]
    exact htable
  rw [hbad, require_bind, require_bind, if_neg (not_not_intro rfl)]
  split
  · rename_i hshape
    rw [RustElf.table_of_not hshape.2 hshape.1 htable, giveUp_bind]
  rfl

/-- An executable, or a shared object, of 64 bits. All numbers of the file are
compared as integers. -/
structure Image.Executable (image : Image) : Prop where
  long : 64 ≤ image.bytes.length
  magic : image.byte 0 = 0x7F ∧ image.byte 1 = 69 ∧ image.byte 2 = 76 ∧ image.byte 3 = 70
  ident : image.byte 4 = QOS_ELF_CLASS_64 ∧ image.byte 5 = QOS_ELF_DATA_LSB ∧ image.byte 6 = 1
  kind : (image.u16 16 = QOS_ELF_ET_EXEC ∨ image.u16 16 = QOS_ELF_ET_DYN) ∧
    (image.u16 18 = QOS_ELF_EM_X86_64 ∨ image.u16 18 = QOS_ELF_EM_AARCH64)
  table : image.Table (image.u64 32) (image.u16 54) (image.u16 56)
  headers : ∀ i < (image.u16 56).toNat,
    image.Header ((image.u64 32).toNat + i * (image.u16 54).toNat)
  loads : 0 < image.loads (image.u64 32) (image.u16 54) (image.u16 56).toNat

variable (image : Image)
theorem CElf.parse_exec_elf_image_ends :
    image.Executable ∧ (∃ e, parse_exec_elf_image image = .ok e ∧
      e.load_count.toNat = image.loads (image.u64 32) (image.u16 54) (image.u16 56).toNat) ∨
    ¬image.Executable ∧ parse_exec_elf_image image = .giveUp := by
  unfold parse_exec_elf_image
  rw [require_bind]
  split
  case isFalse hlen =>
    refine .inr ⟨fun h => hlen fun hshort => ?_, rfl⟩
    have hlt : (len image).toNat < 64 := hshort
    rw [len_toNat image] at hlt
    exact Nat.not_le_of_lt hlt h.long
  next hlen =>
  have hlong : 64 ≤ image.bytes.length := by
    rw [← len_toNat image]
    exact Nat.le_of_not_lt hlen
  rw [Image.index_bytes (k := 0) (by omega), ok_bind, Image.index_bytes (k := 1) (by omega),
    ok_bind, Image.index_bytes (k := 2) (by omega), ok_bind,
    Image.index_bytes (k := 3) (by omega), ok_bind, require_bind]
  split
  case isFalse hmagic => exact .inr ⟨fun h => hmagic h.magic, rfl⟩
  next hmagic =>
  rw [Image.index_bytes (k := 4) (by omega), ok_bind, Image.index_bytes (k := 5) (by omega),
    ok_bind, Image.index_bytes (k := 6) (by omega), ok_bind, require_bind]
  split
  case isFalse hident => exact .inr ⟨fun h => hident h.ident, rfl⟩
  next hident =>
  rw [elf_u16_eq (p := 16) (by omega), ok_bind, elf_u16_eq (p := 18) (by omega), ok_bind,
    elf_u64_eq (p := 32) (by omega), ok_bind, elf_u16_eq (p := 54) (by omega), ok_bind,
    elf_u16_eq (p := 56) (by omega), ok_bind, require_bind]
  split
  case isFalse hkind => exact .inr ⟨fun h => hkind h.kind, rfl⟩
  next hkind =>
  rw [require_bind]
  split
  case isFalse hbad =>
    rw [not_not] at hbad
    refine .inr ⟨fun h => ?_, rfl⟩
    rw [table_bad_eq_false.mpr h.table] at hbad
    cases hbad
  next hbad =>
  have htable := table_bad_eq_false.mp (eq_false_of_ne_true hbad)
  rcases loop_ends htable with ⟨hheaders, acc, heq, hcount⟩ | ⟨hheaders, heq⟩
  · rw [heq, ok_bind, require_bind]
    split
    next hsome =>
      rw [elf_u64_eq (p := 24) (by omega), ok_bind]
      have hpos : acc.load_count.toNat ≠ 0 := fun h => hsome (UInt16.toNat_inj.mp h)
      exact .inl ⟨⟨hlong, hmagic, hident, hkind, htable, hheaders, by omega⟩, _, rfl, hcount⟩
    next hnone =>
    refine .inr ⟨fun h => ?_, rfl⟩
    have hpos := h.loads
    rw [← hcount, not_not.mp hnone] at hpos
    exact Nat.lt_irrefl 0 hpos
  rw [heq]
  exact .inr ⟨fun h => hheaders h.headers, rfl⟩

theorem CElf.parse_exec_elf_image_ne_fault : parse_exec_elf_image image ≠ .fault := by
  rcases parse_exec_elf_image_ends image with ⟨-, e, heq, -⟩ | ⟨-, heq⟩ <;> simp [heq]

/-- On every byte string the two parsers give the same answer, with the same fields, and neither
reads behind its end or panics. -/
theorem parse_exec_elf_image_equivalent :
    CElf.parse_exec_elf_image image = RustElf.parse_exec_elf_image image ∧
      CElf.parse_exec_elf_image image ≠ .fault :=
  ⟨parse_exec_elf_image_eq image, CElf.parse_exec_elf_image_ne_fault image⟩

/-- The C parser reads inside the image only, accepts the executables and
nothing else, and its counter is the number of segments to load. -/
theorem parse_exec_elf_image_accepts : CElf.parse_exec_elf_image image ≠ .fault ∧
    ((∃ e, CElf.parse_exec_elf_image image = .ok e) ↔ image.Executable) ∧
    ∀ e, CElf.parse_exec_elf_image image = .ok e →
      e.load_count.toNat = image.loads (image.u64 32) (image.u16 54) (image.u16 56).toNat := by
  refine ⟨CElf.parse_exec_elf_image_ne_fault image, ?_⟩
  rcases CElf.parse_exec_elf_image_ends image with ⟨hexec, e, heq, hcount⟩ | ⟨hexec, heq⟩
  · rw [heq]
    refine ⟨iff_of_true ⟨e, rfl⟩ hexec, fun e' he' => ?_⟩
    cases he'
    exact hcount
  rw [heq]
  refine ⟨iff_of_false ?_ hexec, fun e he => by cases he⟩
  rintro ⟨e, he⟩
  cases he
end QosKernel
