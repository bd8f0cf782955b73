import LazyTensor.Object.Elf

/-!
# Formats of records

A record is a row of fields without gaps, the lowest byte of a number first; the fields of an
overlay all start at the same place.
-/

namespace LazyTensor

inductive Format where
  | word (signed : Bool) (width : Nat)
  | words (width count : Nat)
  /-- Fields with their names, one after the other, or one over the other. -/
  | record (tag : String) (overlay : Bool) (fields : List (String × Format))

inductive Contents where
  | number (n : Int)
  | numbers (ns : List Int)
  | fields (fs : List (String × Contents))

namespace Format

def u8 : Format := .word false 1

def u16 : Format := .word false 2
def u32 : Format := .word false 4
def u64 : Format := .word false 8

def i32 : Format := .word true 4

def i64 : Format := .word true 8

def fields : Format → List (String × Format)
  | .record _ _ fs => fs
  | _ => []

mutual

def size : Format → Nat
  | .word _ w => w
  | .words w n => w * n
  | .record _ overlay fs => sizeOf' overlay fs

def sizeOf' (overlay : Bool) : List (String × Format) → Nat
  | [] => 0
  | (_, f) :: fs =>
    if overlay then max f.size (sizeOf' overlay fs) else f.size + sizeOf' overlay fs

end

def wordName (signed : Bool) (width : Nat) : String :=
  match signed, width with
  | false, 1 => "c_ubyte"
  | false, 2 => "c_ushort"
  | false, 4 => "c_uint"
  | false, _ => "c_ulong"
  | true, 4 => "c_int"
  | true, _ => "c_long"

def name : Format → String
  | .word signed w => wordName signed w
  | .words w n => s!"{wordName false w}_Array_{n}"
  | .record tag _ _ => tag

def isPadding (field : String) : Bool := field.startsWith "PADDING"

def number (signed : Bool) (bs : List UInt8) : Int :=
  let n := Packing.ofLittleEndian bs
  if signed then Elf.signed (8 * bs.length) n else n

mutual

/-- The contents of bytes, which are as many as the format wants.  Fields that fill gaps are left
out. -/
def read : Format → List UInt8 → Contents
  | .word signed w, bs => .number (number signed (bs.take w))
  | .words w n, bs =>
    .numbers ((List.range n).map fun i => number false (Elf.slice bs (i * w) ((i + 1) * w)))
  | .record _ overlay fs, bs => .fields (readFields overlay fs bs)

def readFields (overlay : Bool) : List (String × Format) → List UInt8 → List (String × Contents)
  | [], _ => []
  | (k, f) :: fs, bs =>
    let rest := readFields overlay fs (if overlay then bs else bs.drop f.size)
    if isPadding k then rest else (k, f.read bs) :: rest

end

def wordBytes (width : Nat) (n : Int) : List UInt8 :=
  Packing.littleEndian width (n % 2 ^ (8 * width)).toNat

def blank (f : Format) : List UInt8 := List.replicate f.size 0

def locate? (f : Format) (field : String) : Option (Nat × Format) :=
  match f with
  | .record _ overlay fs => go overlay 0 fs
  | _ => none
where
  go (overlay : Bool) (start : Nat) : List (String × Format) → Option (Nat × Format)
    | [] => none
    | (k, g) :: fs =>
      if k == field then some (start, g)
      else go overlay (if overlay then start else start + g.size) fs

def splice (bs : List UInt8) (start : Nat) (new : List UInt8) : List UInt8 :=
  bs.take start ++ new ++ bs.drop (start + new.length)

def fieldFormat? (f : Format) (field : String) : Option Format :=
  (f.fields.find? (·.1 == field)).map (·.2)

end Format

end LazyTensor

/-!
## Formats of object files

The records that object files consist of, for both word sizes.
-/

namespace LazyTensor.Format

variable (name : String)

def plain (fields : List (String × Format)) : String × Format :=
  (name, .record ("struct_c__SA_" ++ name) false fields)

def row (f : Format) (names : String) : List (String × Format) := (names.splitOn " ").map (·, f)

/-- A record for both word sizes, whose fields may be as wide as a word. -/
def both (fields : Format → List (String × Format)) : List (String × Format) :=
  [plain ("Elf32_" ++ name) (fields .u32), plain ("Elf64_" ++ name) (fields .u64)]

def same (fields : List (String × Format)) : List (String × Format) :=
  both name fun _ => fields

/-- The headers of files, sections and segments, and of compressed sections. -/
def headers : List (String × Format) :=
  both "Ehdr" (fun w => ("e_ident", .words 1 16) :: row .u16 "e_type e_machine" ++
    row .u32 "e_version" ++ row w "e_entry e_phoff e_shoff" ++ row .u32 "e_flags" ++
    row .u16 "e_ehsize e_phentsize e_phnum e_shentsize e_shnum e_shstrndx") ++
  both "Shdr" (fun w => row .u32 "sh_name sh_type" ++ row w "sh_flags sh_addr sh_offset sh_size" ++
    row .u32 "sh_link sh_info" ++ row w "sh_addralign sh_entsize") ++
  [ plain "Elf32_Phdr"
      (row .u32 "p_type p_offset p_vaddr p_paddr p_filesz p_memsz p_flags p_align"),
    plain "Elf64_Phdr" (row .u32 "p_type p_flags" ++
      row .u64 "p_offset p_vaddr p_paddr p_filesz p_memsz p_align"),
    plain "Elf32_Chdr" (row .u32 "ch_type ch_size ch_addralign"),
    plain "Elf64_Chdr" (row .u32 "ch_type ch_reserved" ++ row .u64 "ch_size ch_addralign") ]

def symbols : List (String × Format) :=
  [ plain "Elf32_Sym" (row .u32 "st_name st_value st_size" ++ row .u8 "st_info st_other" ++
      row .u16 "st_shndx"),
    plain "Elf64_Sym" (row .u32 "st_name" ++ row .u8 "st_info st_other" ++ row .u16 "st_shndx" ++
      row .u64 "st_value st_size"),
    plain "Elf32_Rela" (row .u32 "r_offset r_info" ++ row .i32 "r_addend"),
    plain "Elf64_Rela" (row .u64 "r_offset r_info" ++ row .i64 "r_addend") ] ++
  same "Syminfo" (row .u16 "si_boundto si_flags") ++ both "Rel" (row · "r_offset r_info") ++
  both "Move" (fun w => row .u64 "m_value" ++ row w "m_info m_poffset" ++
    row .u16 "m_repeat m_stride" ++ [("PADDING_0", .words 1 4)])

def linkage : List (String × Format) :=
  [ plain "Elf32_Dyn"
      [("d_tag", .i32), ("d_un", .record "union_c__SA_Elf32_Dyn_d_un" true (row .u32 "d_val d_ptr"))],
    plain "Elf64_Dyn"
      [("d_tag", .i64), ("d_un", .record "union_c__SA_Elf64_Dyn_d_un" true (row .u64 "d_val d_ptr"))],
    plain "Elf32_auxv_t"
      [("a_type", .u32), ("a_un", .record "union_c__SA_Elf32_auxv_t_a_un" true [("a_val", .u32)])],
    plain "Elf64_auxv_t"
      [("a_type", .u64), ("a_un", .record "union_c__SA_Elf64_auxv_t_a_un" true [("a_val", .u64)])] ] ++
  same "Nhdr" (row .u32 "n_namesz n_descsz n_type") ++
  same "Lib" (row .u32 "l_name l_time_stamp l_checksum l_version l_flags")

def versions : List (String × Format) :=
  same "Verdef" (row .u16 "vd_version vd_flags vd_ndx vd_cnt" ++
    row .u32 "vd_hash vd_aux vd_next") ++
  same "Verdaux" (row .u32 "vda_name vda_next") ++
  same "Verneed" (row .u16 "vn_version vn_cnt" ++ row .u32 "vn_file vn_aux vn_next") ++
  same "Vernaux" (row .u32 "vna_hash" ++ row .u16 "vna_flags vna_other" ++
    row .u32 "vna_name vna_next")

def registers : List (String × Format) :=
  [ ("Elf32_gptab", .record "union_c__UA_Elf32_gptab" true
      [("gt_header", .record "struct_c__UA_Elf32_gptab_gt_header" false
         (row .u32 "gt_current_g_value gt_unused")),
       ("gt_entry", .record "struct_c__UA_Elf32_gptab_gt_entry" false
         (row .u32 "gt_g_value gt_bytes"))]),
    plain "Elf32_RegInfo"
      [("ri_gprmask", .u32), ("ri_cprmask", .words 4 4), ("ri_gp_value", .i32)],
    plain "Elf_Options" (row .u8 "kind size" ++ row .u16 "section" ++ row .u32 "info"),
    plain "Elf_Options_Hw" (row .u32 "hwp_flags1 hwp_flags2"),
    plain "Elf_MIPS_ABIFlags_v0" (row .u16 "version" ++
      row .u8 "isa_level isa_rev gpr_size cpr1_size cpr2_size fp_abi" ++
      row .u32 "isa_ext ases flags1 flags2") ]

def tables : List (String × Format) := headers ++ symbols ++ linkage ++ versions ++ registers

def parts : List (String × Format) :=
  tables.flatMap fun (_, f) => f.fields.filterMap fun (_, g) =>
    match g with
    | .record tag _ _ => some (tag, g)
    | _ => none

def named? : Option Format :=
  match (tables ++ parts).find? fun (k, f) => k == name || f.name == name with
  | some (_, f) => some f
  | none => none

def numbers : List (String × Format) :=
  row .u16 "Elf32_Half Elf64_Half Elf32_Section Elf64_Section Elf32_Versym Elf64_Versym" ++
  row .u32 ("mode_t Elf32_Word Elf64_Word Elf32_Addr Elf32_Off Elf32_Relr Elf32_Conflict " ++
    "c__Ea_Val_GNU_MIPS_ABI_FP_ANY gid_t uid_t useconds_t socklen_t __useconds_t __uid_t __gid_t") ++
  row .u64 "size_t Elf32_Xword Elf64_Xword Elf64_Addr Elf64_Off Elf64_Relr" ++
  row .i32 "Elf32_Sword Elf64_Sword pid_t __pid_t" ++
  row .i64 "off_t __off_t Elf32_Sxword Elf64_Sxword ssize_t intptr_t"

end LazyTensor.Format
