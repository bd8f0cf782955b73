/-!
# Settings

The switches that change how graphs are simplified, scheduled and run.  Each has a default; all
are integers.
-/

namespace LazyTensor

inductive Flag where
  | debug | image | beam | noopt | jit | wino | capturing | tracemeta | tc | tcSelect | tcOpt | amx
  | transcendental | tcSearchOverShape | nolocals | fuseArange | fuseConvBw | splitReduceop
  | noMemoryPlanner | ring | pickleBuffers | profile | lru | cachelevel | ignoreBeamCache
  | devectorize | disableCompilerCache | dontRealizeExpand | dontGroupReduces | quantize
  | validateWithCpu | correctDivmodFolding | fuseOptim | allowDeviceUsage | amdLlvm | viz
  | trackMatchStats | ignoreOob
  deriving DecidableEq, Repr

namespace Flag

def all : List Flag :=
  [.debug, .image, .beam, .noopt, .jit, .wino, .capturing, .tracemeta, .tc, .tcSelect, .tcOpt, .amx,
   .transcendental, .tcSearchOverShape, .nolocals, .fuseArange, .fuseConvBw, .splitReduceop,
   .noMemoryPlanner, .ring, .pickleBuffers, .profile, .lru, .cachelevel, .ignoreBeamCache,
   .devectorize, .disableCompilerCache, .dontRealizeExpand, .dontGroupReduces, .quantize,
   .validateWithCpu, .correctDivmodFolding, .fuseOptim, .allowDeviceUsage, .amdLlvm, .viz,
   .trackMatchStats, .ignoreOob]

def name : Flag → String
  | debug => "DEBUG" | image => "IMAGE" | beam => "BEAM" | noopt => "NOOPT" | jit => "JIT"
  | wino => "WINO" | capturing => "CAPTURING" | tracemeta => "TRACEMETA" | tc => "TC"
  | tcSelect => "TC_SELECT" | tcOpt => "TC_OPT" | amx => "AMX"
  | transcendental => "TRANSCENDENTAL" | tcSearchOverShape => "TC_SEARCH_OVER_SHAPE"
  | nolocals => "NOLOCALS" | fuseArange => "FUSE_ARANGE" | fuseConvBw => "FUSE_CONV_BW"
  | splitReduceop => "SPLIT_REDUCEOP" | noMemoryPlanner => "NO_MEMORY_PLANNER" | ring => "RING"
  | pickleBuffers => "PICKLE_BUFFERS" | profile => "PROFILE" | lru => "LRU"
  | cachelevel => "CACHELEVEL" | ignoreBeamCache => "IGNORE_BEAM_CACHE"
  | devectorize => "DEVECTORIZE" | disableCompilerCache => "DISABLE_COMPILER_CACHE"
  | dontRealizeExpand => "DONT_REALIZE_EXPAND" | dontGroupReduces => "DONT_GROUP_REDUCES"
  | quantize => "QUANTIZE" | validateWithCpu => "VALIDATE_WITH_CPU"
  | correctDivmodFolding => "CORRECT_DIVMOD_FOLDING" | fuseOptim => "FUSE_OPTIM"
  | allowDeviceUsage => "ALLOW_DEVICE_USAGE" | amdLlvm => "AMD_LLVM" | viz => "VIZ"
  | trackMatchStats => "TRACK_MATCH_STATS" | ignoreOob => "IGNORE_OOB"

def ofName? (s : String) : Option Flag := all.find? (·.name = s)

def default : Flag → Int
  | jit | capturing | tracemeta | tc | transcendental | tcSearchOverShape | splitReduceop | ring
  | pickleBuffers | lru | devectorize | allowDeviceUsage | amdLlvm | ignoreOob => 1
  | cachelevel => 2
  | tcSelect => -1
  | _ => 0

end Flag

/-- A value for every switch: those that differ from their default are listed. -/
structure Settings where
  changed : List (Flag × Int) := []

namespace Settings

def get (s : Settings) (f : Flag) : Int :=
  match s.changed.find? (·.1 = f) with
  | some (_, v) => v
  | none => f.default

def set (s : Settings) (f : Flag) (v : Int) : Settings :=
  ⟨(f, v) :: s.changed.filter (·.1 ≠ f)⟩

def on (s : Settings) (f : Flag) : Bool := s.get f != 0

end Settings

end LazyTensor
