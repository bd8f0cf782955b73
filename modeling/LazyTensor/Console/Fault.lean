import LazyTensor.Graph.Store
import LazyTensor.Text.Json

/-!
# Documents of failures

A failure is answered with the name of its cause, and with its text where it says nothing about one
run only.
-/

namespace LazyTensor.Fault

def name : Failure.Kind → String
  | .invalidValue => "ValueError"
  | .brokenContract => "AssertionError"
  | .outOfRange => "IndexError"
  | .missingKey => "KeyError"
  | .wrongType => "TypeError"
  | .missingMember => "AttributeError"
  | .divisionByZero => "ZeroDivisionError"
  | .overflow => "OverflowError"
  | .misuse => "RuntimeError"
  | .unsupported => "NotImplementedError"
  | .missingImport => "ImportError"
  | .missingFile => "FileNotFoundError"
  | .badPacking => "struct.error"
  | .badEncoding => "UnicodeDecodeError"
  | .badJson => "JSONDecodeError"
  | .badArchive => "ReadError"
  | .unsupportedOperation => "UnsupportedOperation"
  | .outOfMemory => "MemoryError"
  | .endOfData => "EOFError"
  | .badStatement => "OperationalError"
  | .brokenPipe => "BrokenPipeError"
  | .badPickle => "UnpicklingError"
  | .badGzip => "BadGzipFile"
  | .compileFailed => "CompileError"
  | .recursionLimit => "RecursionError"
  | .stopped => "StopIteration"
  | .badZip => "BadZipFile"
  | .missingModule => "ModuleNotFoundError"
  | .permissionDenied => "PermissionError"
  | .isDirectory => "IsADirectoryError"
  | .badInput => "BadInput"
  | .unbound => "Unbound"
  | .exhausted => "RecursionError"
  | .osFailure => "OSError"
  | .unknownName => "NameError"
  | .badCompression => "error"
  | .fileExists => "FileExistsError"
  | .notDirectory => "NotADirectoryError"
  | .badBinding => "ProgrammingError"
  | .badCharacter => "UnicodeEncodeError"
  | .unknownCodec => "LookupError"
  | .badTokens => "TokenError"
  | .badIndentation => "IndentationError"
  | .badSyntax => "SyntaxError"

def occurs (part whole : String) : Bool := (whole.splitOn part).length > 1

/-- Whether the text of a failure is shown: short, on one line, without printed graphs, addresses
or numbers that differ between runs. -/
def shown (s : String) : Bool :=
  s.length ≤ 240 && !s.contains '\n' &&
    ["UOp(", "0x", "object at", "<buf", "<class", "<Ops", "Ops.UNIQUE", "cannot merge"].all fun p =>
      !occurs p s

def json (f : Failure) : Json :=
  match f.message with
  | some s =>
    if shown s then .record [("error", .text (name f.kind)), ("message", .text s)]
    else .record [("error", .text (name f.kind))]
  | none => .record [("error", .text (name f.kind))]

def guarded (x : GraphM Json) : GraphM Json := tryCatch x fun f => return json f

end LazyTensor.Fault
