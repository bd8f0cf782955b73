import LazyTensor.Text.Character

/-!
# Lexemes of Python programs

The next lexeme of a line.  Of several readings the first in this order is taken: a joined line, the
end, a comment, an opening triple quote, a number, an end of line, an operator, a string, a word.
-/

namespace LazyTensor

/-- A kind of token. -/
inductive Lexeme where
  /-- A backslash at the end of the line. -/
  | join
  | finish
  | comment
  /-- The opening of a string in triple quotes. -/
  | openTriple (quote : Char)
  | number
  | newline
  | operator (text : String)
  | string
  /-- A string that goes on in the next line. -/
  | openString (quote : Char)
  | word
  | stray
  deriving DecidableEq

namespace Lexeme

def moreDigits (isDigit : Char → Bool) : List Char → List Char
  | '_' :: c :: cs => if isDigit c then moreDigits isDigit cs else '_' :: c :: cs
  | c :: cs => if isDigit c then moreDigits isDigit cs else c :: cs
  | [] => []

def digits? (isDigit : Char → Bool) : List Char → Option (List Char)
  | c :: cs => if isDigit c then some (moreDigits isDigit cs) else none
  | [] => none

def digitsAfter? (isDigit : Char → Bool) : List Char → Option (List Char)
  | '_' :: cs => digits? isDigit cs
  | cs => digits? isDigit cs

def exponent? : List Char → Option (List Char)
  | e :: cs =>
    if e = 'e' || e = 'E' then
      match cs with
      | '+' :: r | '-' :: r => digits? Char.isDigit r
      | r => digits? Char.isDigit r
    else none
  | [] => none

variable (cs : List Char)

def pointNumber? : Option (List Char) :=
  let tail (r : List Char) : List Char := (exponent? r).getD r
  match digits? Char.isDigit cs, cs with
  | some ('.' :: r), _ => some (tail ((digits? Char.isDigit r).getD r))
  | _, '.' :: r => (digits? Char.isDigit r).map tail
  | _, _ => none

def floatNumber? : Option (List Char) :=
  match pointNumber? cs with
  | some r => some r
  | none => (digits? Char.isDigit cs).bind exponent?

def imaginary? : List Char → Option (List Char)
  | c :: r => if c = 'j' || c = 'J' then some r else none
  | [] => none

def integer? : Option (List Char) :=
  let isHex (c : Char) : Bool := c.isDigit || ('a' ≤ c && c ≤ 'f') || ('A' ≤ c && c ≤ 'F')
  let isZero (c : Char) : Bool := c = '0'
  let based (r : List Char) : Option (List Char) := match r with
    | b :: r =>
      if b = 'x' || b = 'X' then digitsAfter? isHex r
      else if b = 'b' || b = 'B' then digitsAfter? (fun c => c = '0' || c = '1') r
      else if b = 'o' || b = 'O' then digitsAfter? (fun c => '0' ≤ c && c ≤ '7') r
      else none
    | [] => none
  match cs with
  | '0' :: r => match based r with
    | some r => some r
    | none => some (moreDigits isZero r)
  | cs => digits? Char.isDigit cs

/-- What follows a number: an imaginary one, one with a point or an exponent, an integer. -/
def number? : Option (List Char) :=
  match (digits? Char.isDigit cs).bind imaginary? with
  | some r => some r
  | none =>
    match floatNumber? cs with
    | some r => some ((imaginary? r).getD r)
    | none => integer? cs

def operators : List String :=
  ["**=", "...", "//=", "<<=", ">>=",
   "!=", "%=", "&=", "**", "*=", "+=", "-=", "->", "//", "/=", ":=", "<<", "<=", "==", ">=", ">>",
   "@=", "^=", "|=",
   "%", "&", "(", ")", "*", "+", ",", "-", ".", "/", ":", ";", "<", "=", ">", "@", "[", "]", "^",
   "\x7b", "|", "\x7d", "~"]

def operator? : Option String :=
  operators.find? fun o => cs.take o.length == o.toList

def stringMarks : List String := ["", "b", "r", "u", "f", "br", "rb", "fr", "rf"]

def quote? : Option (Char × List Char) :=
  let after? (n : Nat) : Option (Char × List Char) :=
    match cs.drop n with
    | q :: r =>
      if (q = '"' || q = '\'') && stringMarks.contains (String.ofList ((cs.take n).map Char.toLower))
        then some (q, r) else none
    | [] => none
  match after? 0, after? 1 with
  | some x, _ => some x
  | none, some x => some x
  | none, none => after? 2

def isTriple (q : Char) (cs : List Char) : Bool := cs.take 2 == [q, q]

/-- How a string on one line goes on after its quote: to its end, with what follows, or to the next
line. -/
inductive Ending where
  | closed (rest : List Char)
  | continued
  | broken

def ending (q : Char) : List Char → Ending
  | '\\' :: '\n' :: _ => .continued
  | '\\' :: _ :: r => ending q r
  | c :: r => if c = q then .closed r else if c = '\n' then .broken else ending q r
  | [] => .broken

def afterString? (q : Char) : List Char → Option (List Char)
  | '\\' :: '\n' :: _ => none
  | '\\' :: _ :: r => afterString? q r
  | c :: r => if c = q then some r else afterString? q r
  | [] => none

def afterTriple? (q : Char) : List Char → Option (List Char)
  | '\\' :: '\n' :: _ => none
  | '\\' :: _ :: r => afterTriple? q r
  | c :: r => if c = q && isTriple q r then some (r.drop 2) else afterTriple? q r
  | [] => none

def isBlank (c : Char) : Bool := c = ' ' || c = '\t' || c = '\x0c'

def stringOrWord : Lexeme × List Char :=
  let word : Lexeme × List Char :=
    match cs with
    | c :: _ => if Word.isIn c then (.word, cs.dropWhile Word.isIn) else (.stray, cs.drop 1)
    | [] => (.finish, [])
  match quote? cs with
  | none => word
  | some (q, r) => match ending q r with
    | .closed rest => (.string, rest)
    | .continued => (.openString q, [])
    | .broken => word

def firstOf : Lexeme × List Char :=
  match cs with
  | [] => (.finish, [])
  | '\\' :: '\n' :: r => (.join, r)
  | '#' :: r => (.comment, r.dropWhile (· ≠ '\n'))
  | '\n' :: r => (.newline, r)
  | cs =>
    match quote? cs with
    | some (q, r) => if isTriple q r then (.openTriple q, r.drop 2) else rest cs
    | none => rest cs
where
  rest (cs : List Char) : Lexeme × List Char :=
    match number? cs, operator? cs with
    | some r, _ => (.number, r)
    | none, some o => (.operator o, cs.drop o.length)
    | none, none => stringOrWord cs

/-- The first lexeme of a line and what follows.  If none begins after the blanks, the first
character is stray. -/
def first : Lexeme × List Char :=
  match firstOf (cs.dropWhile isBlank) with
  | (.stray, _) => (.stray, cs.drop 1)
  | x => x

end Lexeme

end LazyTensor
