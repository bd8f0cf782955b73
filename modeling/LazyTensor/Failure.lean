/-!
# Failures

A computation of this library ends in a value or in a `Failure`: a kind, and a text when the
library itself chose the words.  Failures that arise inside an elementary operation (an index past
the end of a list, a division by zero) carry a kind only.
-/

namespace LazyTensor

inductive Failure.Kind where
  | invalidValue
  | brokenContract
  | outOfRange
  | missingKey
  | wrongType
  | missingMember
  | divisionByZero
  | overflow
  | misuse
  | unsupported
  | missingImport
  | missingFile
  | badPacking
  | badEncoding
  | badJson
  | badArchive
  | unsupportedOperation
  | outOfMemory
  | endOfData
  | badStatement
  | brokenPipe
  | badPickle
  | badGzip
  | compileFailed
  | recursionLimit
  | stopped
  | badZip
  | missingModule
  | permissionDenied
  | isDirectory
  | badInput
  | unbound
  | exhausted
  | osFailure
  | unknownName
  | badCompression
  | fileExists
  | notDirectory
  /-- A value of a kind that a statement cannot take. -/
  | badBinding
  /-- A character that an encoding does not have. -/
  | badCharacter
  /-- An encoding, or a way with broken bytes, that does not exist. -/
  | unknownCodec
  /-- A program text that ends inside a token. -/
  | badTokens
  | badIndentation
  | badSyntax
  deriving DecidableEq, Repr

/-- A cause, with a text when the library chose the words. -/
structure Failure where
  kind : Failure.Kind
  message : Option String := none
  deriving DecidableEq, Repr

namespace Failure

def bare (k : Kind) : Failure := ⟨k, none⟩

abbrev wrongType := bare .wrongType
abbrev outOfRange := bare .outOfRange
abbrev missingMember := bare .missingMember
abbrev invalidValue := bare .invalidValue
abbrev missingKey := bare .missingKey
abbrev badInput := bare .badInput
abbrev divisionByZero := bare .divisionByZero
abbrev badPacking := bare .badPacking
abbrev exhausted := bare .exhausted
abbrev overflow := bare .overflow

def because (k : Kind) (text : String) : Failure := ⟨k, some text⟩

def broken (text : String) : Failure := ⟨.brokenContract, some text⟩

def invalid (text : String) : Failure := ⟨.invalidValue, some text⟩

def misused (text : String) : Failure := ⟨.misuse, some text⟩

end Failure

abbrev Result := Except Failure

end LazyTensor
