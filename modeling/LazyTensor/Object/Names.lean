import LazyTensor.Number.Const

/-!
# Names of object files

Object files and the system give names to numbers, texts and functions.  Some functions take apart
two numbers that are packed into one, the binding and the type of a symbol or the symbol and the
kind of a relocation, and put them together: with shifts, masks and sums, on integers of any size.
-/

namespace LazyTensor

namespace Info

def high (bits : Int) (v : Const) : Result Const := v.shiftRight (.int bits)

def low (mask : Int) (v : Const) : Result Const := v.land (.int mask)

def countDown (last : Int) (v : Const) : Result Const := Const.sub (.int last) v

def join (bits : Int) (mask : Option Int) (a b : Const) : Result Const := do
  let up ← a.shiftLeft (.int bits)
  let b ← match mask with
    | some m => low m b
    | none => pure b
  up.add b

/-- The distance between the two entries of a function, which three bits give as a power of two of
four at least. -/
def entryOffset (v : Const) : Result Const := do
  let n ← (← v.land (.int (7 * 2 ^ 5))).shiftRight (.int 5)
  (← (← Const.shiftLeft (.int 1) n).shiftRight (.int 2)).shiftLeft (.int 2)

def unary : List (String × (Const → Result Const)) :=
  [ ("ELF32_ST_BIND", high 4), ("ELF64_ST_BIND", high 4),
    ("ELF32_ST_TYPE", low 0xf), ("ELF64_ST_TYPE", low 0xf),
    ("ELF32_ST_VISIBILITY", low 3), ("ELF64_ST_VISIBILITY", low 3),
    ("ELF32_R_SYM", high 8), ("ELF32_R_TYPE", low 0xff),
    ("ELF64_R_SYM", high 32), ("ELF64_R_TYPE", low 0xffffffff),
    ("DT_VALTAGIDX", countDown 0x6ffffdff), ("DT_ADDRTAGIDX", countDown 0x6ffffeff),
    ("DT_VERSIONTAGIDX", countDown 0x6fffffff),
    ("ELF32_M_SYM", high 8), ("ELF64_M_SYM", high 8),
    ("ELF32_M_SIZE", .ok), ("ELF64_M_SIZE", .ok),
    ("PPC64_LOCAL_ENTRY_OFFSET", entryOffset), ("EF_ARM_EABI_VERSION", low 0xff000000) ]

def binary : List (String × (Const → Const → Result Const)) :=
  [ ("ELF32_ST_INFO", join 4 (some 0xf)), ("ELF64_ST_INFO", join 4 (some 0xf)),
    ("ELF32_R_INFO", join 8 (some 0xff)),
    ("ELF32_M_INFO", join 8 none), ("ELF64_M_INFO", join 8 none) ]

/-- The functions that are named but cannot be computed, as they reckon with a type. -/
def broken : List String := ["DT_EXTRATAGIDX", "ELF64_R_INFO"]

def isFunction (name : String) : Bool :=
  unary.any (·.1 == name) || binary.any (·.1 == name) || broken.contains name

def apply (name : String) (args : List Const) : Result Const :=
  match args, unary.find? (·.1 == name), binary.find? (·.1 == name) with
  | [a], some (_, f), _ => f a
  | [a, b], _, some (_, f) => f a b
  | _, _, _ => .error .wrongType

end Info

namespace Names

def identification : String :=
  "E(I_(ABIVERSION CLASS DATA MAG(0 1 2 3) NIDENT OSABI PAD VERSION) LF(CLASS(32 64 NONE NUM)
   DATA(2LSB 2MSB NONE NUM) MAG0 OSABI_(AIX ARM ARM_AEABI FREEBSD GNU HPUX IRIX LINUX MODESTO
   NETBSD NONE OPENBSD SOLARIS STANDALONE SYSV TRU64)) T_(CORE DYN EXEC HIOS HIPROC LOOS LOPROC
   NONE NUM REL) V_(CURRENT NONE NUM) _MIPS_ARCH_(1 2 3 32 4 5 64)) SELFMAG"

def machines : String :=
  "(EF_SH(2A(. _SH(3 4)) 4 4A 4_NOMMU))_NOFPU (EF_(ARM_(APCS MAVERICK SOFT VFP) LARCH_ABI_(DOUBLE
   SINGLE SOFT)))_FLOAT E(F(A_PARISC_(1_(0 1) 2_0) _((SH(. 3 4AL))_DSP A(LPHA_(32BIT CANRELAX)
   R(C_(ALL MACH OSABI)_MSK M_((NEW OLD)_ABI A(BI_FLOAT_(HARD SOFT) LIGN8 PCS_26) BE8
   DYNSYMSUSESEGIDX EABI(MASK _(UNKNOWN VER(1 2 3 4 5))) HASENTRY INTERWORK LE8 MAPSYMSFIRST PIC
   RELEXEC SYMSARESORTED))) C(PU32 SKY_(ABI(MASK V1 V2) OTHER PROCESSOR)) IA_64_(ABI64 ARCH MASKOS)
   LARCH_(ABI_MODIFIER_MASK OBJABI_V1) MIPS_((ARCH_(32 64))(. R2 R6) (32BITM UC)ODE A((BI_(EABI
   O))(32 64) BI(. 2 _ON32) RCH(. _(1 2 3 4 5 ASE(. _M(16 DMX ICROMIPS))))) CPIC FP64 MACH(. _((39
   41 5(4 5 9) 90)00 4(010 111 120 650) ALLEGREX GS(264E 464(. E)) IAMR2 LS2(E F) OCTEON(. 2 3) SB1
   XLR)) NAN2008 NOREORDER OPTIONS_FIRST PIC XGOT) P(ARISC_(ARCH EXT LAZYSWAP LSB NO_KABP TRAPNIL
   WIDE) PC(64_ABI _(EMB RELOCATABLE(. _LIB)))) RISCV_(FLOAT_ABI(. _(DOUBLE QUAD SINGLE SOFT)) RV(C
   E) TSO) S((H H2A_SH)(3E 4) 390_HIGH_GPRS H(1 2 2A 2E 3 3_NOMMU 4A _MACH_MASK _UNKNOWN)
   PARC(V9_(MM PSO RMO TSO) _(32PLUS EXT_MASK HAL_R1 LEDATA SUN_US(1 3)))))) M_((AVR FT KM KMX
   LATTICEMICO M NDS RH TI_ARP)32 (H8_(3 5) MN10(2 3) ST(1 2) T(I_C(20 55 60) SK30) V8 VPP5)00
   (STAR TRI UNI VIDEO X)CORE (AMDG ET NC S)PU (K L)10M 386 56800EX 68(HC(05 08 1(1 2 6)) K) 78KOR
   8(051 60 8K) 960 A(ARCH64 LPHA LTERA_NIOS2 R(C(. A V2 _A5 _COMPACT) M) VR) B(A1 A2 LACKFIN PF)
   C(166 DP E LOUDSHIELD O(GE LDFIRE OL REA_(1ST 2ND)) R(. 16 AYNV2 IS X) SKY SR_KALIMBA UDA
   YPRESS_M8C) D(10V 30V SP(24 IC30F) XP) E(COG(16 1X 2) MX(16 8) XCESS) F(2MC16 AKE_ALPHA IREPATH
   R(2 3)0 X66) H(8S 8_300H UANY) I(AMCU A_64 NTELGT P2K) JAVELIN KVARC LOONGARCH M(16C 32(C R)
   A(NIK X XQ30) CHP_PIC CST_ELBRUS E16 ETAG I(CROBLAZE PS(. _RS3_LE _X)) M(A DSP_PLUS IX) OXIE
   SP430) N(DR1 ONE ORC S32K UM) OPEN(8 RISC) P(ARISC CP D(P1(0 1) SP) J PC PC64 RISM) QDSP6 R(32C
   CE ISCV L78 S08 X) S(3(7 9)0 CORE7 E(P _C(17 33)) H HARC LE9X NP1K PARC(. 32PLUS V9) T(19 7
   9PLUS M8 XP7X) VX) T(I(LE(64 GX PRO) NYJ _PRU) MM_GPP PC RIMEDIA) V(850 AX I(DEOCORE(3 5) SIUM))
   X(86_64 GATE IMO16 TENSA) Z80 ZSP))"

def sections : String :=
  "(SHT_(AR(C M) CSKY GNU RISCV))_ATTRIBUTES (SHT_(HI LO))(OS PROC SUNW USER) (SHT_((I PREI)NIT
   FINI))_ARRAY (SHN_(. MIPS_(A S) PARISC_(ANSI HUGE)_))COMMON ELFCOMPRESS_((HI LO)(OS PROC) ZLIB
   ZSTD) GRP_COMDAT SH((T_(ALPHA MIPS)_)(DEBUG REGINFO) (T_(IA_64 PARISC)_)(EXT UNWIND) (F T)_GROUP
   F_(A(LLOC LPHA_GPREL RM_(COMDEF ENTRYSECT)) COMPRESSED EX(CLUDE ECINSTR) GNU_RETAIN
   I(A_64_(NORECOV SHORT) NFO_LINK) LINK_ORDER M(ASK(OS PROC) ERGE IPS_(ADDR GPREL LOCAL MERGE
   N(AMES ODUPE OSTRIP) STRINGS)) ORDERED OS_NONCONFORMING PARISC_(HUGE SBP SHORT) STRINGS TLS
   WRITE) N_(ABS AFTER BEFORE UNDEF XINDEX (HI LO)(OS PROC RESERVE) MIPS_(DATA SUNDEFINED TEXT))
   T_((DYN MIPS_(AUX DELTA EXT LOC M OPT PACK))SYM (NO PROG)BITS ARM_(EXIDX PREEMPTMAP) CHECKSUM
   DYNAMIC GNU_(HASH LIBLIST ver(def need sym)) HASH MIPS_((F P RF)DESC (EH_REG PDR_EXCEPT)ION
   ABIFLAGS CON(FLIC TEN)T D(E(LTA(CLASS DECL INST) NSE) WARF) EVENTS GPTAB IFACE L(IBLIST INE
   OCSTR) OPTIONS P(ACKAG IXI)E RELD SHDR SYMBOL_LIB TRANSLATE UCODE WHIRL X(HASH LATE(. _DEBUG
   _OLD))) N(OTE ULL UM) PARISC_DOC REL(. A R) S(HLIB TRTAB UNW_(COMDAT move syminfo) YMTAB(.
   _SHNDX)) X86_64_UNWIND))"

def symbolKinds : String :=
  "(ST(O_MIPS V)_)(DEFAULT HIDDEN INTERNAL PROTECTED) (ST(B T)_)((HI LO)(OS PROC) NUM)
   S(T((B_MIPS_SPLIT T)_COMMON B_(GLOBAL GNU_UNIQUE LOCAL WEAK) N_UNDEF O_(A(ARCH64_VARIANT_PCS
   LPHA_(NOPV STD_GPLOAD)) MIPS_(PLT SC_ALIGN_UNUSED) PPC64_LOCAL_(BIT MASK) RISCV_VARIANT_CC)
   T_((ARM_TF F GNU_IF)UNC ARM_16BIT FILE HP_(OPAQUE STUB) NOTYPE OBJECT PARISC_MILLICODE SECTION
   SPARC_REGISTER TLS)) YMINFO_(BT_(LOWRESERVE PARENT SELF) CURRENT FLG_(COPY DIRECT LAZYLOAD
   PASSTHRU) NONE NUM))"

def segments : String :=
  "PF_(ARM_(ABS PI SB) HP_(CODE FAR_SHARED LAZYSWAP MODIFY NEAR_SHARED PAGE_SIZE SBP) IA_64_NORECOV
   MASK(OS PROC) MIPS_LOCAL PARISC_SBP R W X) PN_XNUM PT_(AARCH64_MEMTAG_MTE ARM_EXIDX DYNAMIC
   GNU_(EH_FRAME PROPERTY RELRO SFRAME STACK) HI(OS PROC SUNW) HP_(CORE_(COMM KERNEL LOADABLE MMF
   NONE PROC SHM STACK VERSION) FASTBIND HSL_ANNOT OPT_ANNOT PARALLEL STACK TLS) IA_64_(ARCHEXT
   HP_(HSL_ANOT OPT_ANOT STACK) UNWIND) INTERP LO(AD OS PROC SUNW) MIPS_(ABIFLAGS OPTIONS REGINFO
   RTPROC) NOTE NULL NUM PARISC_(ARCHEXT UNWIND) PHDR RISCV_ATTRIBUTES SHLIB SUNW(BSS STACK) TLS)"

def dynamic : String :=
  "((DT_((I PREI)NIT FINI))_ARRAY DT_(GNU_(CONFLIC LIBLIS)T P(LT(PAD REL) PC64_OPD) REL(. A R)
   X86_64_PLT))(. SZ) (D(F T)_)(BIND_NOW SYMBOLIC TEXTREL) (VER_(DEF NEED)_)(CURRENT NONE NUM)
   (DT_(ADDR VAL))(NUM RNG(HI LO)) (DT_MIPS_DELTA_(CLASS(. SYM) INSTANCE RELOC SYM))(. _NO) (DT_(HI
   LO))(OS PROC) (LL RHF_DEFAULT)_DELAY_LOAD D((T_MIPS_(HIDDEN LOCAL(. PAGE) PROTECTED))_GOTIDX
   F_((1_O O)RIGIN 1_((INTER SYMINT)POSE CONFALT DI(RECT SPREL(DNE PND)) EDITED ENDFILTEE G(LOBA(L
   UDIT) ROUP) IGNMULDEF INITFIRST KMOD LOADFLTR NO(COMMON D(EFLIB ELETE IRECT UMP) HDR KSYMS OPEN
   RELOC W) PIE SINGLETON STUB TRANS WEAKFILTER) P1_(GROUPPERM LAZYLOAD) STATIC_TLS) T((_
   _MIPS_)(FLAGS NUM PLTGOT) F_1_(CONFEXP PARINIT) _((MOVE STR)(SZ TAB) (A DEPA)UDIT A(ARCH64_((BTI
   PAC)_PLT NUM VARIANT_PCS) LPHA_(NUM PLTRO) UXILIARY) CHECKSUM CONFIG DEBUG ENCODING EXTRANUM
   F(EATURE_1 ILTER INI LAGS_1) GNU_(HASH PRELINKED) HASH I(A_64_(NUM PLT_RESERVE) NIT) JMPREL
   M((IPS_(CONFLIC LIBLIS)T)(. NO) IPS_((HIPAGE LOCAL_GOT SYMTAB UNREFEXT)NO (GOT M)SYM AUX_DYNAMIC
   BASE_ADDRESS COMPACT_SIZE CXX_FLAGS DYNSTR_ALIGN GP_VALUE I(CHECKSUM NTERFACE(. _SIZE) VERSION)
   OPTIONS PERF_SUFFIX PIXIE_INIT R(LD_(MAP(. _REL) TEXT_RESOLVE_ADDR VERSION) WPLT) SYMBOL_LIB
   TIME_STAMP XHASH) OVEENT) N(EEDED IOS2_GP ULL) P(OSFLAG_1 PC((64_ _)(NUM OPT) 64_GLINK _GOT)
   ROCNUM) R((P UNP)ATH EL(ACOU AE COU E RE)NT ISCV_VARIANT_CC) S(ONAME PARC_(NUM REGISTER) YM(ENT
   IN(ENT FO SZ) TAB(. _SHNDX))) TLSDESC_(GO PL)T VER((DEF NEED)(. NUM) S(IONTAGNU Y)M) X86_64_(NUM
   PLTENT)))) LL_(DELTA EX(ACT_MATCH PORTS) IGNORE_INT_VER NONE REQUIRE_MINOR) RHF_(CORD
   DELTA_C_PLUS_PLUS GUARANTEE_(. START_)INIT NO(NE TPOT _(LIBRARY_REPLACEMENT MOVE UNRES_UNDEF))
   PIXIE QUICKSTART R(EQUICKSTART(. ED) LD_ORDER_SAFE) SGI_ONLY) VER_(FLG_(BASE WEAK)
   NDX_(ELIMINATE GLOBAL LO(CAL RESERVE)))"

def notes : String :=
  "(AT_L(1D 1I 2 3)_CACHE)(GEOMETRY S(HAP IZ)E) (AT_(D I U))CACHEBSIZE (NT_PPC_(. TM_C))(DSCR PPR
   TAR V(M S)X) (NT_(. LW)PS)(INFO TATUS) (AT AT_BASE NT)_PLATFORM AT_((EG EU G U)ID (MINSIGSTK
   PAGE)SZ BASE CLKTCK E(NTRY XECF(D N)) FLAGS FPUCW HWCAP(. 2 3 4) IGNORE(. PPC) NOTELF NULL PH(DR
   ENT NUM) R(ANDOM SEQ_(ALIGN FEATURE_SIZE)) S(ECURE YSINFO(. _EHDR))) ELF_NOTE_(ABI OS_(FREEBSD
   GNU LINUX SOLARIS2) PAGESIZE_HINT) GNU_PROPERTY_((UINT32_(AND OR)_)(HI LO) 1_NEEDED(.
   _INDIRECT_EXTERN_ACCESS) AARCH64_FEATURE_1_(AND BTI PAC) (HI LO)(PROC USER) NO_COPY_ON_PROTECTED
   STACK_SIZE X86_(FEATURE_1_(AND IBT SHSTK) ISA_1_(BASELINE NEEDED USED V(2 3 4)))) NT_((ARM
   S390)_SYSTEM_CALL (ARM_PAC(A G _ENABLED))_KEYS (PRPS SIG)INFO 386_(IOPERM TLS) A(RM_(HW_(BREAK
   WATCH) PAC_MASK SVE TAGGED_ADDR_CTRL TLS VFP) SRS UXV) F(DO_PACKAGING_METADATA ILE PREGSET)
   G(NU_(ABI_TAG BUILD_ID GOLD_VERSION HWCAP PROPERTY_TYPE_0) WINDOWS) LOONGARCH_(CPUCFG CSR
   HW_(BREAK WATCH) L(ASX BT SX)) MIPS_(DSP FP_MODE MSA) P((R(FP FPX X XFP))REG PC_(DEXCR EBB
   HASHKEYR PKEY PMU SPE TM_(CF CG S)PR) RCRED RSTATUS) RISCV_(CS VECTO)R S390_(CTRS GS_(BC CB)
   HIGH_GPRS LAST_BREAK PREFIX PV_CPU_DATA RI_CB T(DB IMER OD(CMP PREG)) VXRS_(HIGH LOW))
   TASKSTRUCT UTSNAME VERSION VMCOREDD X86_(SHSTK XSTATE))"

def options : String :=
  "LITUSE_ALPHA_(ADDR BASE BYTOFF JSR TLS_(GD LDM)) MIPS_AFL_(ASE_(DSP DSPR2 EVA M(ASK CU DMX
   ICROMIPS IPS(16 3D) SA T) SMARTMIPS VIRT XPA) EXT_(10000 3900 4010 41(00 11 20) 4650 5400 5500
   5900 LOONGSON_(2E 2F 3A) OCTEON(. 2 P) SB1 XLR) FLAGS1_ODDSPREG REG_(128 32 64 NONE))
   O(DK_(EXCEPTIONS FILL HW(AND OR PATCH) NULL PAD REGINFO TAGS) EX_(DISMISS FPDBUG FPU_(DIV0 INEX
   INVAL MAX MIN OFLO UFLO) PAGE0 PRECISEFP SMM) HW(A0_R4KEOP_CHECKED A1_R4KEOP_CLEAN _R(4KEOP
   5KCVTL 5KEOP 8KPFETCH)) PAD_(POSTFIX PREFIX SYMBOL)) PPC(64_OPT_(LOCALENTRY MULTI_TOC TLS)
   _OPT_TLS) Val_GNU_MIPS_ABI_FP_(64 64A ANY DOUBLE MAX OLD_64 SINGLE SOFT XX)"

def relocations : String :=
  "(R_((AARCH PPC X86_)64 386 390 68K A(LPHA RC RM) CKCORE CRIS M(32R ETAG IPS N10300) N(DS3 IOS)2
   OR1K PPC SH SPARC TILE(GX PRO))_)(COPY GLOB_DAT NONE RELATIVE) (R_PPC(. 64)_)((((DTPR R TPR)EL
   ADDR GOT(. _TLS(G L)D))16 SECTOFF)(. _(HA HI LO)) ((GOT_(. D)TPREL PLT)16_H)(A I) (ADDR
   REL)(14(. _BR(. N)TAKEN) 24 32) IRELATIVE JMP_SLOT PLT(16_LO 32 REL32) T(LS(. GD LD) OC16)
   UADDR(16 32)) (R_(ARM CRIS LARCH M(32R ETAG ICROBLAZE IPS N10300) NIOS2 OR1K PARISC RISCV SH
   SPARC TILE(GX PRO))_)(GNU_VT(ENTRY INHERIT)) (R_PARISC_((GP PC TP)REL DIR LTOFF(. _FPTR
   _TP)))(1(4(. D W)R 6(. D W)F) 21L 64) (R_TILE(GX PRO)_)((IMM8_((X Y)(0 1)))(. _TLS_GD_ADD) (16
   32 8)(. _PCREL) BROFF_X1 DEST_IMM8_X1 JMP_SLOT NUM MM(END START)_X0 SHAMT_((X Y)(0 1))
   TLS_(DTP(MOD OFF)32 GD_CALL IE_LOAD TPOFF32)) ((R_(LARCH MIPS RISCV)_)(. TLS_((DT T)PREL
   DTPMOD)) R_(390_(. GOT(. OFF PLT) P(C LT LTOFF) TLS_(GD GOTIE IE LD(M O))) A(ARCH64_(ABS GOTREL
   PREL) LPHA_SREL) BPF_64_ (LARCH_ RISCV_)(ADD SUB) MICROBLAZE_(. GOTOFF_ TLSDTPREL) PARISC_(SE(C
   G)REL TLS_(DTP(MOD OFF) TPREL)) SPARC_(. DISP PLT SIZE TLS_(DTP(MOD OFF) TPOFF) UA) X86_64_(.
   DTPOFF GOT(. PC) PC SIZE TPOFF)))(32 64) (R_MI(. CROMI)PS_)((CALL_ GOT_ TLS_(. D)TPREL_)(HI16
   LO16) (CALL GOT GPREL HI LO)16 GOT_(DISP OFST PAGE) HIGHE(R ST) JALR LITERAL SCN_DISP SUB
   TLS_(GD GOTTPREL LDM)) (R_IA64_((DTP GP PC SE(C G))REL (F LTOFF_F)PTR DIR LTV REL))((32 64)(LSB
   MSB)) (R_LARCH_(ABS GOT PCALA TLS_(I L)E))(64_(HI12 LO20) _HI20 _LO12)
   ((R_A(ARCH64_(MOVW_(GOTOFF PREL UABS) TLSL(D_MOVW_D E_MOVW_)TPREL) RM_ALU_(PC SB))_G)(0 1)
   R_A(ARCH64_(ADR_PREL_PG_HI21 MOVW_(GOTOFF PREL UABS)_G2 TLSL(D_(ADD LDST(128 16 32 64 8))_D
   E_(ADD LDST(128 16 32 64 8))_)TPREL_LO12) RM_(. THM_)MOVW_BREL))(. _NC) (R_(386 ARM CKCORE
   SH)_)(GOT(32 OFF PC) PLT32 TLS_((DT T)POFF DTPMOD)32) (R_(CKCORE_(ADDR(. GOT PLT) GOT(. OFF PC)
   PLT)_ M(ETAG_TLS_(IENONPIC LDO LE)_ IPS(16_(. TLS_(. D)TPREL_) _PC)) NIOS2_ OR1K_(GOT(OFF PC)
   TLS_(GD IE L(DM DO E)))_ TILEPRO_))(HI16 LO16) (R_(390 ARC METAG MN10300 OR1K)_)(JMP_SLOT
   TLS_((DT T)POFF DTPMOD)) (R_PPC64_((DT T)PREL ADDR))((16_HIGH(. ER EST))(. A) 16_(. LO_)DS 64)
   ((R_TILEGX_IMM16_X(0 1)_HW)((0 1 2)(. _LAST) 3) R_CRIS_32)(. _P(. LT_P)CREL) (R_(LARCH
   RISCV)_)((IR R)ELATIVE 32_PCREL A(DD(16 8) LIGN) COPY JUMP_SLOT NONE RELAX SUB(16 6 8 _ULEB128)
   TLS_GD_HI20) (R_(386_(. PC) 68K_(. GOT PC PLT TLS_(GD IE L(DM DO E))) AR(C_ C_N M_ABS)
   MN10300_(. PCREL) NIOS2_BFD_RELOC_ OR1K_ RISCV_SET SH_SWITCH))(16 32 8) (R_ARM_(.
   THM_))(GOT_BREL12 JUMP24 MOV(T_(ABS BREL PREL) W_(ABS PREL)_NC) TLS_(CALL DESCSEQ))
   (R_(AARCH64(. _P32) NIOS2)_)(JUMP_SLOT TLS_((DT T)PREL DTPMOD)) ((R_M32R_(10 18 26))_PCREL
   R_M32R_(16 24 32 HI16_(S U)LO LO16 SDA16))(. _RELA) (R_PARISC_(DPREL PL(ABEL TOFF) TLS_(GD IE
   L(DM DO E))))(14R 21L) (R_(386 68K ALPHA M32R SH SPARC)_)(JMP_SLOT NUM) (R_TILE((GX_IMM16_X(0
   1)_HW)((0 1)_LAST 0) PRO_IMM16_X(0 1))_)(GOT TLS_(GD IE LE)) (R_(LARCH_((GOT TLS_(GD IE LD))_PC
   TLS_LD) RISCV((_ _TLS_)GOT . _(PC TP)REL)))_HI20 (R_AARCH64_TLS(G L)D_)(AD(D_LO12_NC R_P(AGE
   REL)21) MOVW_G(0_NC 1)) (R_(PPC(64_(PLTGOT TOC)16 _(DIAB_(RELSDA SDA21) EMB_(NADDR16 RELST)))
   TILEPRO_IMM16_X((0 1)(. _(GOT TLS_(GD IE LE)))))_)(HA HI LO) (R_PPC64_((GOT(. _(. D)TPREL)
   PLTGOT TOC)16 SECTOFF)_)(DS LO_DS) (R_ARM_LD(C R RS)_)(PC_G(1 2) SB_G(0 1 2)) (R_(ARM
   CKCORE)_)(JUMP_SLOT TLS_(GD IE L(DM DO E))32) (R_(386 390 A(ARCH64(. _P32) RM) SPARC
   X86_64))_IRELATIVE (R_M32R_GOT(16 OFF PC)_)(HI_(S U)LO LO) (R_SPARC_(. GOTDATA_(. OP_) TLS_L(DO
   E)_))(HIX22 LOX10) (R_(ARC_S2((1 5)(H W))_PCREL METAG_RELBRANCH RISCV_CALL TILE(GX_JUMPOFF
   PRO_JOFFLONG)_X1))(. _PLT) (R_(CRIS MIPS X86_64)_)(16 JUMP_SLOT NUM) (R_IA64_((DTPMOD PLTOFF
   TPREL)64 IPLT))(LSB MSB) (R_SPARC_TLS_(GD IE LDM)_)(ADD HI22 LO10) (R_ARM_(. R))((R SBR)EL32
   PC24 XPC25) (R_IA64_((DTP GP PC TP)REL LTOFF(. _FPTR) PLTOFF))(22 64I) R_((AARCH64_((ADD
   LDST(128 16 32 64 8))_ABS LD64_GOT TLSIE_LD64_GOTTPREL))_LO12_NC (68K_TLS_ PPC_)((DT T)PREL32
   DTPMOD32) (NIOS2_(CALL GOT PCREL))(16 _HA _LO) (386_ SH_)(TLS_(GD IE LDO LE)_32) 3((86_TLS_(GD
   LDM))(. _(CALL POP PUSH)) (90_P(C LT))(16DBL 32DBL) (90_GOT(. PLT))(12 16 20 ENT) 86_(32PLT
   GOT32X SIZE32 TLS_(DESC(. _CALL) GOT(DESC IE) IE LDM_32 LE TPOFF)) 90_((GO PL)TOFF16 12 16 20 8
   GOTPC(. DBL) NUM PC16 TLS_((G L)DCALL GOTIE(12 20) IEENT L(E32 E64 OAD)))) 68K_((GOT PLT)(16 32
   8))O A((LPHA_(. D)TPREL)(16 64 HI LO) (RC_(32 B22 S13))_PCREL (C_SECTOFF_(S9 U8) RC_SECTOFF(.
   _ME))(. _1 _2) ARCH64_((GOT TLS(DESC LD))_LD_PREL19 (TLSL(D_ADD_D E_ADD_))TPREL_HI12 (ABS
   PREL)16 ADR_(GOT_PAGE PREL_LO21) CALL26 CONDBR19 JUMP26 LD(64_GOT(OFF PAGE)_LO15 _PREL_LO19)
   MOVW_((GOTOFF PREL UABS)_G3 SABS_G(0 1 2)) P32_(ABS32 COPY GLOB_DAT RELATIVE TLSDESC)
   T(LS(DESC(. _((ADD LD64)_LO12 AD(D R_P(AGE REL)21) CALL LDR OFF_G(0_NC 1)))
   IE_(ADR_GOTTPREL_PAGE21 LD_GOTTPREL_PREL19 MOVW_GOTTPREL_G(0_NC 1)) L(D_MOVW_D E_MOVW_)TPREL_G2)
   STBR14)) LPHA_(BRADDR DTPMOD64 G(OT(. D)TPREL P(DISP REL(16 32 HIGH LOW))) HINT LIT(ERAL USE)
   REF(LONG QUAD) SREL16 TLS(GD _GD_HI _LDM)) R((C_ C_N)(24 32_ME) C_((H30 SDA32 W)(. _ME) GOT(32
   OFF PC PC32) JLI_SECTOFF NPS_CMEM16 P(C LT)32 S((DA(16_LD _LDST))(. 1 2) DA(. 16_ST2 _12)
   ECTOFF_(S9 U8)) TLS_(DTPOFF_S9 GD_(CALL GOT LD) IE_GOT LE_(32 S9))) M_((LDR_SB
   THM_ALU_P)REL_11_0 (BASE GOT PLT32)_ABS (ABS REL)32_NOI (P SB)REL31 A(BS12 LU_((PC SB)_G2
   PCREL_(15_8 23_15 7_0) SBREL_(19_12 27_20)) MP_VCALL9) CALL GOT(OFF12 RELAX _PREL) LD(C
   RS)_PC_G0 ME_TOO NUM PC13 RABS22 RBASE SWI24 T(ARGET(1 2) HM_((P RP XP)C22 ABS5 JUMP(19 6) PC(11
   12 8 9) SWI8 TLS_DESCSEQ(16 32)) LS_((D GOTD)ESC IE12GP L(DO E)12)) V4BX))) BPF_NONE
   C((KCORE_(GO PL)T)(12 _IMM18BY4) (RIS_((16 8)_PC 32_(. PLT_)GOT))REL KCORE_((D T)OFFSET_LO16
   ADDR(32 GOT PLT) DOFFSET_IMM18(. BY(2 4)) PCREL(((_ _JSR_)IMM26 (I JSR_I)MM11 _IMM1(0 6 8))BY2
   (IMM8 _IMM(10 16 7))BY4 32)) RIS_((16_GOT 32_GOT)(. PLT) 8)) IA64_((DT T)PREL14 COPY FPTR64I
   IMM(14 22 64) L(DXMOV TOFF(22X _((DT T)PREL DTPMOD)22)) NONE PCREL(21(B BI F M) 60B) SUB)
   LARCH_(64_PCREL CFA DELETE PCREL20_S2 ADD(24 6 _ULEB128) B(16 21 26) (GOT TLS_IE)(64_PC_(HI12
   LO20) _PC_LO12) MARK_(LA PCREL) S(OP_(A(DD ND SSERT) IF_ELSE NOT P(OP_32_(S_(0_(10 5)_10_16_S2
   10_(1(2 6 6_S2) 5) 5_20) U U_10_12) USH_(ABSOLUTE DUP GPREL P(. LT_P)CREL TLS_(GD GOT TPREL)))
   S(L R UB)) UB24)) M((IPS_(PC REL) N10300_(GOT(. OFF PC) PLT))(16 32) 32R_(26_PLTREL GOT(24 OFF
   PC24) REL(32 A_GNU_VT(ENTRY INHERIT))) ETAG_(ADDR32 PLT G(ETSET(OFF _GOT(. OFF)) OTOFF) (HI
   LO)(16_(GOT(OFF PC) PLT) ADDR16 OG) RE(G(16OP(1 2 3) 32OP(1 2 3 4)) L16 L8) TLS_(GD IE IENONPIC
   L(DM DO E))) I(CRO(BLAZE_((GOT(. PC) PLT)_64 32_(LO PCREL(. _LO) SYM_OP_SYM) 64_(NONE PCREL)
   COPY GLOB_DAT JUMP_SLOT NONE REL SR(O W)32 TLS((GOTT T)PREL32 . DTPMOD32 GD LD)) MIPS_((26 PC(10
   16 7))_S1 (GPREL7 PC23)_S2 HI0_LO16)) PS((_(GNU_REL16 PC(19 21 26)))_S2 16_(26 CALL16 GOT16
   GPREL PC16_S1 TLS_(GD GOTTPREL LDM)) _(26 ADD_IMMEDIATE DELETE EH GPREL32 INSERT_(A B) PC18_S3
   PJUMP RELGOT SHIFT(5 6)))) N10300_(24 ALIGN GOT(. OFF)24 NUM SYM_DIFF TLS_(GD GOTIE IE L(D DO
   E)))) N(DS32_(32_RELA JMP_SLOT TLS_(DESC TPOFF)) IOS2_((HIADJ S TLS_(GD IE L(DM DO E)) U)16 (C
   U)JMP ALIGN CA(CHE_OPX LL(26 26_NOAT R)) G(OTOFF(. _HA _LO) PREL) IMM(5 6 8))) OR1K_((16 32
   8)_PCREL (HI LO)_16_IN_INSN GOT16 INSN_REL_26 PLT26) P((PC_GOT_(. D)TPREL16)(. _LO) ARISC_((HI
   LO)RESERVE (DIR PCREL)(17(F R) 32) (PLAB TPR)EL32 (E I)PLT COPY FPTR64 LTOFF_(FPTR32 TP14F) NONE
   P(CREL22F LTOFF1(4(D W)R 6(. D W)F)) SEGBASE TLS_(GD LDM)CALL) PC(64_(ADDR30 DTPMOD64 JMP_IREL
   PLT(16_LO_DS 64 GOT16 REL64) REL64 TOC(. SAVE) UADDR64) _(EMB_(BIT_FLD MRKREF NADDR(16 32)
   RELS(DA EC16) SDA(2(1 I16 REL) I16)) LOCAL24PC PLTREL24 SDAREL16))) RISCV_(((PC TP)REL_LO12_ (G
   T)PREL_ LO12_)(I S) BRANCH JAL NUM PLT32 RVC_(BRANCH JUMP LUI) SET(6 _ULEB128) TPREL_ADD)
   S(H_((DIR REL TLS_LD_)32 ALIGN CO(DE UNT) D(ATA IR8(BP L W(. P(L N Z)))) IND12W LABEL USES)
   PARC_((H PC_H)(H22 M10) (LO PC)(10 PLT10) (H L M)44 (HI PC)(22 PLT22) 1(0 1 3 6) 22 5 6 7 8
   DISP(16 8) G(LOB_JMP OT(10 13 22 DATA_OP)) H34 JMP_IREL LM22 OLO10 PC(PLT3 _LM2)2 RE(GISTER V32)
   TLS_((GD LDM)_CALL IE_LD(. X) LDO_ADD) UA16 W(DISP(1(0 6 9) 22 30) PLT30))) TILE(GX_(64 64_PCREL
   HW((0 1 2)(. _LAST) 3) IMM8_((X Y)(0 1))_TLS_ADD M(F T)_IMM14_X1 TLS_((DT T)POFF DTPMOD)64)
   PRO_(HA16 IMM16_X((0 1)(. _(. H(A I)_ LO_)PCREL)) M((F T)_IMM15 MEND MSTART)_X1)) X86_64_(32S 8
   DTPMOD64 GOT(OFF64 P(C(32_TLSDESC REL(. 64 X)) LT64) TPOFF) P(C16 C8 LT(32 OFF64)) RE(LATIVE64
   X_GOTPCRELX) TLS(DESC(. _CALL) GD LD)))"

def system : String :=
  "(__((g p u)id intptr mode off socklen ssize useconds))_t_defined (_(POSIX(. 2 2_C) XOPEN(. _XCU)
   _POSIX2_THIS))_VERSION (F R W X)_OK (F_(. T U) MAP_NONB)LOCK F_TEST L_(INCR SET XTND) M((AP_ S_
   S_A)SYNC A((DV_(. UN))MERGEABLE DV_((H NOH)UGEPAGE (DO DONT KEEPON WIPEON)FORK (DONTNE(.
   ED_LOCK) WILLNE)ED COL(D LAPSE) DO(. NT)DUMP FREE HWPOISON NORMAL P(AGEOUT OPULATE_(READ WRITE))
   RANDOM REMOVE SEQUENTIAL SOFT_OFFLINE) P_(ANONYMOUS FI(LE XED(. _NOREPLACE)) HUGETLB POPULATE
   STACK TYPE UNINITIALIZED)) LOCK_ONFAULT S_INVALIDATE) P(KEY_(ACCESS_MASK DISABLE_(ACCESS WRITE))
   ROT_(EXEC GROWS(DOWN UP) NONE READ SEM WRITE)) S(EEK_(CUR END SET) TD(ERR IN OUT)_FILENO) _((ELF
   S(TRING YS(CALL _MMAN)) UNISTD _ASM_GENERIC_MMAN_COMMON)_H POSIX2_((C SW)_DEV C_BIND LOCALEDEF)
   XOPEN_(ENH_I18N LEGACY UNIX XPG(2 3 4)) _(GLIBC_INTERNAL_STARTING_HEADER_IMPLEMENTATION
   need_(NULL size_t)))"

def others : String :=
  "ELF(MAG(. 1 2 3) _NOTE_(FDO GNU SOLARIS)) NOTE_GNU_PROPERTY_SECTION_NAME __environ locale_t
   struct___locale_(data struct)"

def groups : List String :=
  [identification, machines, sections, symbolKinds, segments, dynamic, notes, options, relocations,
   system, others]

/-- A list of names up to some character: what stands before the open brackets, the names before, and
the beginnings of the word. -/
structure Reading where
  outer : List (List String × List String) := []
  names : List String := []
  word : List String := []

namespace Reading

def put (word ends : List String) : List String :=
  if word.isEmpty then ends else word.flatMap fun w => ends.map (w ++ ·)

def endWord (r : Reading) : Reading := { r with word := [], names := r.word ++ r.names }

/-- In `A(B C .)D` each of `B`, `C` and nothing stands once between `A` and `D`. -/
def step (r : Reading) (c : Char) : Reading :=
  match c with
  | '(' => { outer := (r.names, r.word) :: r.outer }
  | ')' =>
    match r.outer with
    | [] => r
    | (names, word) :: outer => { outer, names, word := put word r.endWord.names }
  | ' ' | '\n' => r.endWord
  | '.' => { r with word := put r.word [""] }
  | c => { r with word := put r.word [c.toString] }

end Reading

def listed (s : String) : List String := (s.foldl Reading.step {}).endWord.names

def known : List String := groups.flatMap listed

def functions : List String := listed
  "(get set)((eg eu g host pg s u)id (domain host)name login pgrp usershell) ((l readl syml unl)ink
   fchown)(. at) (__st st)(p(. n)cpy rtok_r) (m mun)(lock(. all) map) (str(. n))(c(at mp py) dup
   len) (fdatas fs ms s)ync (fp p)athconf (ft t)runcate (a ua)larm (ch fch rm)dir (b fo sb strpb
   vfo)rk (m posix_m)advise (exec(l v))(. e p) (pw w)rite (c lc)hown (s us)leep _(_(getpgid
   mem(cmpeq pcpy)) exit) acc(ess t) c(hroot lose(. from) onfstr) d(aemon up up2) endusershell
   explicit_bzero faccessat fexecve get((dtabl pag)esize cwd entropy groups login_r p(ass id pid)
   wd) isatty lockf lseek m(em((c cc pc)py chr cmp mem move set) incore protect) nice p(ause ipe
   read rofil) re(ad voke) s(etre(g u)id hm_(open unlink) tr((coll error xfrm)(. _l) c(asestr hr
   hrnul spn) error_r lc(at py) rchr s(ep ignal pn tr) tok) ysc(all onf)) t(c(g s)etpgrp ty(name(.
   _r) slot)) vhangup"

end Names

end LazyTensor
