import LazyTensor.Number.Const
import LazyTensor.Source.Token
import LazyTensor.Text.Encoding
import LazyTensor.Text.Character

/-!
# Statistics of source code

How many lines of code the files of a project have, and how many tokens a line has on average.  Blank
lines, comments and the texts that document a program do not count, nor does code that is generated.
-/

namespace LazyTensor

structure SourceFile where
  path : String
  text : String

/-- A row of statistics: a file, its lines of code, and the tokens in a line. -/
structure SourceRow where
  name : String
  lines : Const
  tokens : Const

/-- A row of changes: a file, its lines and how many more there are, its tokens in a line and how many
more there are. -/
structure SourceChange where
  name : String
  lines : Const
  moreLines : Const
  tokens : Const
  moreTokens : Const

namespace Statistics

def plainEnds : List Char → List Char
  | '\r' :: '\n' :: cs => '\n' :: plainEnds cs
  | '\r' :: cs => '\n' :: plainEnds cs
  | c :: cs => c :: plainEnds cs
  | [] => []

/-- Cut characters after every end of line; `acc` is the line so far, its last character first. -/
def cutLines (acc : List Char) : List Char → List String
  | [] => if acc.isEmpty then [] else [String.ofList acc.reverse]
  | '\n' :: cs => String.ofList ('\n' :: acc).reverse :: cutLines [] cs
  | c :: cs => cutLines (c :: acc) cs

variable (text : String)

def linesOf : List String := cutLines [] (plainEnds text.toList)

/-- Whether blanks are all that stands at the start of a line before a comment or its end. -/
def isBlankLine (cs : List Char) : Bool :=
  match cs.dropWhile Lexeme.isBlank with
  | [] | '#' :: _ | '\n' :: _ | '\r' :: _ => true
  | _ => false

def nameAfterMark? (cs : List Char) : Option String :=
  if cs.take 6 == "coding".toList then
    match cs.drop 6 with
    | c :: r =>
      if c = ':' || c = '=' then
        let isIn (c : Char) : Bool := c.isAlphanum || c = '_' || c = '-' || c = '.'
        let name := (r.dropWhile fun c => c = ' ' || c = '\t').takeWhile isIn
        if name.isEmpty then none else some (String.ofList name)
      else none
    | [] => none
  else none

def encodingIn? : List Char → Option String
  | [] => none
  | c :: cs => match nameAfterMark? (c :: cs) with
    | some n => some n
    | none => encodingIn? cs

def declared? (line : String) : Option String :=
  match line.toList.dropWhile Lexeme.isBlank with
  | '#' :: r => encodingIn? (r.takeWhile (· ≠ '\n'))
  | _ => none

def encodingOf? (lines : List String) : Option String :=
  match lines with
  | [] => none
  | first :: rest =>
    match declared? first with
    | some e => some e
    | none => if isBlankLine first.toList then rest.head?.bind declared? else none

def encodingNamed (name : String) : Result Encoding :=
  let low := String.ofList (((name.toList.take 12).map Char.toLower).map fun c =>
    if c = '_' then '-' else c)
  if low = "utf-8" || low.startsWith "utf-8-" then .ok .utf8
  else if ["latin-1", "iso-8859-1", "iso-latin-1"].any fun n => low = n || low.startsWith (n ++ "-")
    then .ok .latin1
  else (Encoding.ofName? name).getDM (.error (.bare .badSyntax))

/-- The lines of a program, whose file was written in the usual encoding; if it declares another one,
its bytes are read so. -/
def programLines : Result (List String) := do
  let marked := text.startsWith "\ufeff"
  let text := if marked then String.ofList (text.toList.drop 1) else text
  let some name := encodingOf? (cutLines [] text.toList) | return linesOf text
  let e ← encodingNamed name
  if marked && e ≠ .utf8 then throw (.bare .badSyntax)
  return linesOf (← e.decode text.toUTF8.data.toList)

def isDocumentation (t : Token) : Bool :=
  let quotes := ['"', '"', '"']
  t.isString && t.text.toList.take 3 == quotes &&
    (Numeral.trim t.line.toList).take 3 == quotes

def ofProgram : Result (Nat × Nat) := do
  let ts := (← Token.ofLines (← programLines text)).filter fun t => !isDocumentation t
  let lines := ts.flatMap fun t => (List.range (t.lastLine + 1 - t.firstLine)).map (t.firstLine + ·)
  return (lines.eraseDups.length, ts.length)

def wordsOf (cs : List Char) : Nat :=
  let rec go : Bool → List Char → Nat
    | _, [] => 0
    | inside, c :: cs =>
      if Numeral.isBlank c then go false cs
      else if inside then go true cs
      else go true cs + 1
  go false cs

/-- The lines and the words of a script; lines that begin with a comment do not count. -/
def ofScript : Nat × Nat :=
  let lines := ((linesOf text).map fun l => Numeral.trim l.toList).filter fun l =>
    !l.isEmpty && l.take 2 != ['/', '/']
  (lines.length, (lines.map wordsOf).foldl (· + ·) 0)

/-- Whether the files of a directory are left out, as they are generated or foreign. -/
def isForeign (directory : String) : Bool :=
  ["testgrad/runtime/autogen", "testgrad/viz/assets"].any fun s => (directory.splitOn s).length > 1

def ofFile? (f : SourceFile) : Result (Option SourceRow) := do
  let parts := f.path.splitOn "/"
  let isProgram := f.path.endsWith ".py"
  if parts.head? ≠ some "testgrad" || parts.length < 2 || !(isProgram || f.path.endsWith ".js") ||
      isForeign ("/".intercalate parts.dropLast) then
    return none
  let (lines, tokens) ← if isProgram then ofProgram f.text else pure (ofScript f.text)
  if lines = 0 then return none
  return some ⟨f.path, .int lines, .float (Binary64.ofFraction false tokens lines)⟩

def ofFiles (files : List SourceFile) : Result (List SourceRow) := do
  let rows ← files.mapM ofFile?
  return (rows.filterMap id).mergeSort fun a b => a.name ≤ b.name

def find? (rows : List SourceRow) (name : String) : Option SourceRow := rows.find? (·.name = name)

def change? (before after : List SourceRow) (name : String) : Result (Option SourceChange) := do
  let zero : Const := .int 0
  match find? before name, find? after name with
  | none, some r => return some ⟨name, r.lines, ← r.lines.sub zero, r.tokens, ← r.tokens.sub zero⟩
  | some r, none => return some ⟨name, zero, ← zero.sub r.lines, zero, ← zero.sub r.tokens⟩
  | some r, some s =>
    let lines ← s.lines.sub r.lines
    let tokens ← s.tokens.sub r.tokens
    if lines.eq zero && tokens.eq zero then return none
    return some ⟨name, s.lines, lines, s.tokens, tokens⟩
  | none, none => return none

def changes (before after : List SourceRow) : Result (List SourceChange) := do
  let names := ((before ++ after).map (·.name)).eraseDups.mergeSort (· ≤ ·)
  return (← names.mapM (change? before after)).filterMap id

def signed (c : Const) : String := if c.lt (.int 0) || c.eq (.int 0) then c.text else "+" ++ c.text

end Statistics

end LazyTensor
