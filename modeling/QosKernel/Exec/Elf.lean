import QosKernel.Framework.Attempt

/-! # The parsers of executables

`parse_exec_elf_image` of `c-os/kernel/syscall/syscall.c` and of
`rust-os/kernel/src/lib.rs`. Both check the header of an ELF file and then
run over its program headers; nothing is loaded.

Giving up is the return value -1 in C and `None` in Rust. A fault is a
read behind the end of the image in C, and a panic in Rust.
-/
open Framework
namespace QosKernel
structure Image where
  bytes : List UInt8
  fits : bytes.length < 2 ^ 64

/-- `qos_proc_exec_image_t` and `ProcExecImage`. -/
structure ExecImage where
  entry : UInt64
  phoff : UInt64
  phentsize : UInt16
  phnum : UInt16
  load_count : UInt16
  has_interp : Bool
  interp_off : UInt64
  interp_len : UInt64
  deriving DecidableEq

/-- What the loop over the program headers collects. -/
structure Segments where
  load_count : UInt16
  has_interp : Bool
  interp_off : UInt64
  interp_len : UInt64
  deriving DecidableEq

def Segments.none : Segments := ⟨0, false, 0, 0⟩

/-! ### Numbers -/
def QOS_ELF_CLASS_64 : UInt8 := 2
def QOS_ELF_DATA_LSB : UInt8 := 1
def QOS_ELF_ET_EXEC : UInt16 := 2
def QOS_ELF_ET_DYN : UInt16 := 3
def QOS_ELF_EM_X86_64 : UInt16 := 0x3E
def QOS_ELF_EM_AARCH64 : UInt16 := 0xB7
def QOS_ELF_PT_LOAD : UInt32 := 1
def QOS_ELF_PT_INTERP : UInt32 := 3

/-- Little-endian words; the two kernels put them together in the same way. -/
def le16 (b0 b1 : UInt8) : UInt16 := b0.toUInt16 ||| b1.toUInt16 <<< 8

def le32 (b0 b1 b2 b3 : UInt8) : UInt32 :=
  b0.toUInt32 ||| b1.toUInt32 <<< 8 ||| b2.toUInt32 <<< 16 ||| b3.toUInt32 <<< 24

def le64 (b0 b1 b2 b3 b4 b5 b6 b7 : UInt8) : UInt64 :=
  b0.toUInt64 ||| b1.toUInt64 <<< 8 ||| b2.toUInt64 <<< 16 ||| b3.toUInt64 <<< 24 |||
    b4.toUInt64 <<< 32 ||| b5.toUInt64 <<< 40 ||| b6.toUInt64 <<< 48 ||| b7.toUInt64 <<< 56

/-! ### C -/
namespace CElf
open Attempt
section
variable (image : Image)
/-- `image_len`. -/
def len : UInt64 := .ofNat image.bytes.length

def elf_u16 (p : Nat) : Attempt UInt16 := do
  return le16 (← index image.bytes p) (← index image.bytes (p + 1))

def elf_u32 (p : Nat) : Attempt UInt32 := do
  return le32 (← index image.bytes p) (← index image.bytes (p + 1)) (← index image.bytes (p + 2))
    (← index image.bytes (p + 3))

def elf_u64 (p : Nat) : Attempt UInt64 := do
  return le64 (← index image.bytes p) (← index image.bytes (p + 1)) (← index image.bytes (p + 2))
    (← index image.bytes (p + 3)) (← index image.bytes (p + 4)) (← index image.bytes (p + 5))
    (← index image.bytes (p + 6)) (← index image.bytes (p + 7))

/-- The segment does not lie inside the image. -/
def outside (p_offset p_filesz : UInt64) : Bool :=
  len image < p_offset || len image - p_offset < p_filesz

def pt_load (p_offset p_vaddr p_filesz p_memsz p_align : UInt64)
    (acc : Segments) : Attempt Segments :=
  if p_memsz < p_filesz then .giveUp
  else if p_filesz != 0 && outside image p_offset p_filesz then .giveUp
  else if p_align != 0 && p_vaddr % p_align != p_offset % p_align then .giveUp
  else .ok { acc with load_count := acc.load_count + 1 }

/-- The name of the interpreter. -/
def pt_interp (p_offset p_filesz : UInt64) (acc : Segments) : Attempt Segments :=
  if p_filesz == 0 || outside image p_offset p_filesz then .giveUp
  else do
    let last ← index image.bytes (p_offset + p_filesz - 1).toNat
    if last != 0 then .giveUp
    else .ok { acc with has_interp := true, interp_off := p_offset, interp_len := p_filesz }

def program_header (e_phoff : UInt64) (e_phentsize : UInt16) (i : Nat)
    (acc : Segments) : Attempt Segments := do
  let phoff := e_phoff + UInt64.ofNat i * e_phentsize.toUInt64
  let p_type ← elf_u32 image phoff.toNat
  let p_offset ← elf_u64 image (phoff.toNat + 8)
  let p_vaddr ← elf_u64 image (phoff.toNat + 16)
  let p_filesz ← elf_u64 image (phoff.toNat + 32)
  let p_memsz ← elf_u64 image (phoff.toNat + 40)
  let p_align ← elf_u64 image (phoff.toNat + 48)
  if p_type == QOS_ELF_PT_LOAD then pt_load image p_offset p_vaddr p_filesz p_memsz p_align acc
  else if p_type == QOS_ELF_PT_INTERP then pt_interp image p_offset p_filesz acc
  else return acc
end
def UINT64_MAX : UInt64 := 0xFFFFFFFFFFFFFFFF

variable (image : Image)
def table_bad (e_phoff : UInt64) (e_phentsize e_phnum : UInt16) : Bool :=
  e_phnum == 0 || e_phentsize < 56 || len image < e_phoff ||
    (UINT64_MAX - e_phoff) / e_phentsize.toUInt64 < e_phnum.toUInt64 ||
    len image < e_phoff + e_phnum.toUInt64 * e_phentsize.toUInt64

def parse_exec_elf_image : Attempt ExecImage := do
  require (¬len image < 64)
  require ((← index image.bytes 0) = 0x7F ∧ (← index image.bytes 1) = 69 ∧
    (← index image.bytes 2) = 76 ∧ (← index image.bytes 3) = 70)
  require ((← index image.bytes 4) = QOS_ELF_CLASS_64 ∧
    (← index image.bytes 5) = QOS_ELF_DATA_LSB ∧ (← index image.bytes 6) = 1)
  let e_type ← elf_u16 image 16
  let e_machine ← elf_u16 image 18
  let e_phoff ← elf_u64 image 32
  let e_phentsize ← elf_u16 image 54
  let e_phnum ← elf_u16 image 56
  require ((e_type = QOS_ELF_ET_EXEC ∨ e_type = QOS_ELF_ET_DYN) ∧
    (e_machine = QOS_ELF_EM_X86_64 ∨ e_machine = QOS_ELF_EM_AARCH64))
  require (¬table_bad image e_phoff e_phentsize e_phnum)
  let acc ← loop (program_header image e_phoff e_phentsize) e_phnum.toNat 0 .none
  require (acc.load_count ≠ 0)
  let entry ← elf_u64 image 24
  return ⟨entry, e_phoff, e_phentsize, e_phnum, acc.load_count, acc.has_interp, acc.interp_off,
    acc.interp_len⟩
end CElf
/-! ### Rust

A `usize` is a word of 64 bits, and its arithmetic is checked. -/
namespace RustElf
open Attempt
section
variable (image : Image)
/-- `image.len()`. -/
def len : Nat := image.bytes.length

/-- `image[off + k]`. -/
def byteAt (off k : Nat) : Attempt UInt8 := do index image.bytes (← add off k)

/-- The check at the start of `elf_u16`, `elf_u32` and `elf_u64`. -/
def room (off size : Nat) : Attempt Unit := do
  let stop ← add off size
  require (¬len image < stop)

section
variable (off : Nat)
def elf_u16 : Attempt UInt16 := do
  room image off 2
  return le16 (← byteAt image off 0) (← byteAt image off 1)

def elf_u32 : Attempt UInt32 := do
  room image off 4
  return le32 (← byteAt image off 0) (← byteAt image off 1) (← byteAt image off 2)
    (← byteAt image off 3)

def elf_u64 : Attempt UInt64 := do
  room image off 8
  return le64 (← byteAt image off 0) (← byteAt image off 1) (← byteAt image off 2)
    (← byteAt image off 3) (← byteAt image off 4) (← byteAt image off 5) (← byteAt image off 6)
    (← byteAt image off 7)
end
/-- `off > image.len() || sz > image.len() - off` leads to `None`. -/
def inside (off sz : Nat) : Attempt Unit :=
  if len image < off then .giveUp
  else do
    let left ← sub (len image) off
    require (¬left < sz)

def pt_load (p_offset p_vaddr p_filesz p_memsz p_align : UInt64)
    (acc : Segments) : Attempt Segments := do
  require (¬p_memsz < p_filesz)
  if p_filesz != 0 then inside image p_offset.toNat p_filesz.toNat
  require (¬(p_align ≠ 0 ∧ p_vaddr % p_align ≠ p_offset % p_align))
  -- `load_count.saturating_add(1)`
  return { acc with load_count := .ofNat (min (acc.load_count.toNat + 1) 0xFFFF) }

def pt_interp (p_offset p_filesz : UInt64) (acc : Segments) :
    Attempt Segments := do
  let off := p_offset.toNat
  let sz := p_filesz.toNat
  require (sz ≠ 0)
  inside image off sz
  let last ← index image.bytes (← sub (← add off sz) 1)
  require (last = 0)
  return { acc with has_interp := true, interp_off := p_offset, interp_len := p_filesz }

def program_header (phoff phentsize i : Nat) (acc : Segments) :
    Attempt Segments := do
  let p_off ← add phoff (← mul i phentsize)
  let p_type ← elf_u32 image p_off
  let p_offset ← elf_u64 image (← add p_off 8)
  let p_vaddr ← elf_u64 image (← add p_off 16)
  let p_filesz ← elf_u64 image (← add p_off 32)
  let p_memsz ← elf_u64 image (← add p_off 40)
  let p_align ← elf_u64 image (← add p_off 48)
  if p_type == QOS_ELF_PT_LOAD then pt_load image p_offset p_vaddr p_filesz p_memsz p_align acc
  else if p_type == QOS_ELF_PT_INTERP then pt_interp image p_offset p_filesz acc
  else return acc
end
def USIZE_MAX : Nat := 2 ^ 64 - 1

variable (image : Image)
def table (phoff phentsize phnum : Nat) : Attempt Unit := do
  require (¬len image < phoff)
  let most ← div (← sub USIZE_MAX phoff) phentsize
  require (¬most < phnum)
  let stop ← add phoff (← mul phnum phentsize)
  require (¬len image < stop)

def parse_exec_elf_image : Attempt ExecImage := do
  require (¬len image < 64)
  require ((← index image.bytes 0) = 0x7F ∧ (← index image.bytes 1) = 69 ∧
    (← index image.bytes 2) = 76 ∧ (← index image.bytes 3) = 70)
  require ((← index image.bytes 4) = QOS_ELF_CLASS_64 ∧
    (← index image.bytes 5) = QOS_ELF_DATA_LSB ∧ (← index image.bytes 6) = 1)
  let e_type ← elf_u16 image 16
  let e_machine ← elf_u16 image 18
  let e_entry ← elf_u64 image 24
  let e_phoff ← elf_u64 image 32
  let e_phentsize ← elf_u16 image 54
  let e_phnum ← elf_u16 image 56
  require ((e_type = QOS_ELF_ET_EXEC ∨ e_type = QOS_ELF_ET_DYN) ∧
    (e_machine = QOS_ELF_EM_X86_64 ∨ e_machine = QOS_ELF_EM_AARCH64))
  require (e_phnum ≠ 0 ∧ ¬e_phentsize < 56)
  table image e_phoff.toNat e_phentsize.toNat e_phnum.toNat
  let acc ← loop (program_header image e_phoff.toNat e_phentsize.toNat) e_phnum.toNat 0 .none
  require (acc.load_count ≠ 0)
  return ⟨e_entry, e_phoff, e_phentsize, e_phnum, acc.load_count, acc.has_interp, acc.interp_off,
    acc.interp_len⟩
end RustElf
end QosKernel
