import LazyTensor.Failure
import LazyTensor.Source.Lexeme

/-!
# Tokens of Python programs

Operators, words, numbers and strings of a program, with the lines they stand on.  Strings can go over
several lines, and so can what stands in brackets or before a joined line.
-/

namespace LazyTensor

/-- A token: whether it is a string, its text if it is one, its first and its last line, and the text of
these lines. -/
structure Token where
  isString : Bool := false
  text : String := ""
  firstLine : Nat
  lastLine : Nat
  line : String

/-- A string that was begun in a line before: its quotes, its text so far, the line it was begun in,
and the text of all lines since. -/
structure OpenString where
  quote : Char
  triple : Bool
  text : String
  start : Nat
  lines : String

/-- What is known between two lines: how deep in brackets, whether the last line was joined, an open
string, whether such a string needs a joined line to go on, and the columns of the open blocks, the
innermost first. -/
structure Scanner where
  depth : Int := 0
  joined : Bool := false
  openString : Option OpenString := none
  needsJoin : Bool := false
  indents : List Nat := [0]
  tokens : List Token := []

namespace Scanner

def push (s : Scanner) (t : Token) : Scanner := { s with tokens := t :: s.tokens }

def depthOf (operator : String) : Int :=
  if ["(", "[", "\x7b"].contains operator then 1
  else if [")", "]", "\x7d"].contains operator then -1
  else 0

/-- The tokens of a line. -/
def scan (number : Nat) (line : String) : Nat → List Char → Scanner → Scanner
  | 0, _, s => s
  | _, [], s => s
  | fuel + 1, cs, s =>
    let (x, rest) := Lexeme.first cs
    let plain : Token := { firstLine := number, lastLine := number, line }
    let from' := cs.dropWhile Lexeme.isBlank
    let textTo (r : List Char) : String := String.ofList (from'.take (from'.length - r.length))
    let begin (quote : Char) (triple : Bool) : Scanner :=
      let o : OpenString :=
        { quote, triple, text := String.ofList from', start := number, lines := line }
      { s with openString := some o, needsJoin := s.needsJoin || !triple }
    match x with
    | .join => scan number line fuel rest { s with joined := true }
    | .finish | .comment | .newline | .stray => scan number line fuel rest s
    | .number | .word => scan number line fuel rest (s.push plain)
    | .operator o =>
      scan number line fuel rest ({ s with depth := s.depth + depthOf o }.push plain)
    | .string =>
      scan number line fuel rest (s.push { plain with isString := true, text := textTo rest })
    | .openTriple q =>
      match Lexeme.afterTriple? q rest with
      | some r => scan number line fuel r (s.push { plain with isString := true, text := textTo r })
      | none => begin q true
    | .openString q => begin q false

/-- The column of the first character that is no blank, and the rest from there on. -/
def indent : Nat → List Char → Nat × List Char
  | n, ' ' :: cs => indent (n + 1) cs
  | n, '\t' :: cs => indent ((n / 8 + 1) * 8) cs
  | _, '\x0c' :: cs => indent 0 cs
  | n, cs => (n, cs)

def align (column : Nat) (indents : List Nat) : Result (List Nat) :=
  match indents with
  | top :: _ =>
    if top < column then .ok (column :: indents)
    else if indents.contains column then .ok (indents.dropWhile (column < ·))
    else .error (.bare .badIndentation)
  | [] => .ok [column]

def resume (s : Scanner) (o : OpenString) (number : Nat) (line : String) : Scanner :=
  let cs := line.toList
  let after := if o.triple then Lexeme.afterTriple? o.quote cs else Lexeme.afterString? o.quote cs
  match after with
  | some rest =>
    let taken := String.ofList (cs.take (cs.length - rest.length))
    let t : Token := { isString := true, text := o.text ++ taken, firstLine := o.start,
                       lastLine := number, line := o.lines ++ line }
    scan number line (rest.length + 1) rest
      ({ s with openString := none, needsJoin := false }.push t)
  | none =>
    if s.needsJoin && !(line.endsWith "\\\n") then { s with openString := none }
    else { s with openString := some { o with text := o.text ++ line, lines := o.lines ++ line } }

/-- Scan the lines of a program from one on.  It has to end outside of strings, brackets and joined
lines. -/
def lines : Nat → List String → Scanner → Result Scanner
  | _, [], s =>
    if s.openString.isSome || s.depth ≠ 0 || s.joined then .error (.bare .badTokens) else .ok s
  | number, line :: rest, s => do
    match s.openString with
    | some o => lines (number + 1) rest (s.resume o number line)
    | none =>
      if s.depth = 0 && !s.joined then
        let (column, cs) := indent 0 line.toList
        match cs with
        | [] => return s
        | '#' :: _ | '\n' :: _ => lines (number + 1) rest s
        | cs =>
          let s := { s with indents := ← align column s.indents }
          lines (number + 1) rest (scan number line (cs.length + 1) cs s)
      else
        let cs := line.toList
        lines (number + 1) rest (scan number line (cs.length + 1) cs { s with joined := false })

end Scanner

def Token.ofLines (ls : List String) : Result (List Token) := do
  return (← Scanner.lines 1 ls {}).tokens.reverse

end LazyTensor
