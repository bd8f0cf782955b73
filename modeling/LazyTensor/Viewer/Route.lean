import LazyTensor.Text.Character
import LazyTensor.Text.Encoding
import LazyTensor.Text.Json

/-!
# Requests of a browser

The parts of an address: the path, and the query with its fields.
-/

namespace LazyTensor

structure Url where
  path : String
  query : String
  deriving DecidableEq

namespace Url

def splitAt (c : Char) (cs : List Char) : List Char × Option (List Char) :=
  let rest := cs.dropWhile (· ≠ c)
  (cs.takeWhile (· ≠ c), match rest with
    | [] => none
    | _ :: r => some r)

variable (cs : List Char)

def dropScheme : List Char :=
  let isIn (c : Char) : Bool := c.isAlphanum || c = '+' || c = '-' || c = '.'
  match cs, splitAt ':' cs with
  | c :: _, (scheme, some rest) => if c.isAlpha && scheme.all isIn then rest else cs
  | _, _ => cs

def dropHost : List Char :=
  match cs with
  | '/' :: '/' :: r => r.dropWhile fun c => c ≠ '/' && c ≠ '?' && c ≠ '#'
  | cs => cs

def dropParameters : List Char :=
  let last := (cs.reverse.takeWhile (· ≠ '/')).reverse
  let head := cs.take (cs.length - last.length)
  head ++ last.takeWhile (· ≠ ';')

/-- The path and the query of an address.  Characters below the blank at its start, tabs and ends of
lines are dropped. -/
def parse (address : String) : Url :=
  let cs := (address.toList.dropWhile fun c => c.toNat ≤ 32).filter fun c =>
    c ≠ '\t' && c ≠ '\n' && c ≠ '\r'
  let cs := dropHost (dropScheme cs)
  let (cs, _) := splitAt '#' cs
  let (path, query) := splitAt '?' cs
  ⟨String.ofList (dropParameters path), String.ofList (query.getD [])⟩

/-- The bytes of a field, where a percent sign and two digits stand for a byte and a plus sign for a
blank. -/
def unescape : List Char → List UInt8
  | '%' :: a :: b :: rest =>
    match Json.hexValue? a, Json.hexValue? b with
    | some x, some y => UInt8.ofNat (16 * x + y) :: unescape rest
    | _, _ => 37 :: unescape (a :: b :: rest)
  | '+' :: rest => 32 :: unescape rest
  | c :: rest => (String.singleton c).toUTF8.data.toList ++ unescape rest
  | [] => []
termination_by cs => cs.length

def fieldText : String :=
  ((Encoding.utf8.decode (unescape cs) "replace").toOption).getD ""

def fields (query : String) : List (String × String) :=
  (query.splitOn "&").filterMap fun part =>
    match splitAt '=' part.toList with
    | (name, some value) => if value.isEmpty then none else some (fieldText name, fieldText value)
    | (_, none) => none

def field? (u : Url) (name : String) : Option String := (fields u.query).lookup name

end Url

/-!
## Answering a browser

The viewer answers requests: its pages and their parts from files, the list of recorded rewritings, one
recording step by step, and the report of a profile.
-/

namespace Site

/-- The files there are, by the names on the way to them, with their sizes in bytes. -/
def files : List (List String × Nat) :=
  [ (["index.html"], 6317),
    (["js", "index.js"], 25731),
    (["js", "worker.js"], 1471),
    (["assets", "d3js.org", "d3.v7.min.js"], 279706),
    (["assets", "unpkg.com", "@highlightjs", "cdn-assets@11.10.0", "styles",
      "tokyo-night-dark.min.css"], 1234),
    (["assets", "dagrejs.github.io", "project", "dagre", "latest", "dagre.min.js"], 96038),
    (["assets", "cdnjs.cloudflare.com", "ajax", "libs", "highlight.js", "11.10.0",
      "highlight.min.js"], 124980),
    (["assets", "cdnjs.cloudflare.com", "ajax", "libs", "highlight.js", "11.10.0", "styles",
      "default.min.css"], 1144),
    (["assets", "cdnjs.cloudflare.com", "ajax", "libs", "highlight.js", "11.10.0", "languages",
      "python.min.js"], 3590),
    (["assets", "cdnjs.cloudflare.com", "ajax", "libs", "highlight.js", "11.10.0", "languages",
      "cpp.min.js"], 6005) ]

def isFile (names : List String) : Bool := files.any (·.1 == names)

def isDirectory (names : List String) : Bool :=
  files.any fun (p, _) => names.length < p.length && p.take names.length == names

/-- Follow names from a directory on; names that stand for the directory itself stay in it. -/
def follow : List String → List String → Result (List String)
  | there, [] => .ok there
  | there, n :: rest =>
    if isFile there then .error (.bare .notDirectory)
    else if n.isEmpty || n = "." then follow there rest
    else
      let next := there ++ [n]
      if isFile next || isDirectory next then follow next rest else .error (.bare .missingFile)

def size (path : String) : Result Nat := do
  let names ← follow [] (path.splitOn "/")
  (files.lookup names).getDM (throw (.bare .isDirectory))

end Site

inductive Route where
  | file (type : String) (size : Nat)
  | recordings
  /-- One recording: its place among the keys, and its place under the key. -/
  | recording (key index : Int)
  | profile
  | missing
  deriving DecidableEq

namespace Route

def strip (s : String) : String :=
  let isSlash (c : Char) : Bool := c = '/'
  String.ofList (((s.toList.dropWhile isSlash).reverse.dropWhile isSlash).reverse)

def number (s : String) : Result Int :=
  (Numeral.integer? s).getDM (.error .invalidValue)

def typeOf (path : String) : String :=
  if path.endsWith ".css" then "text/css"
  else if path.endsWith ".js" then "application/javascript"
  else "text/html"

/-- What a request asks for.  A file that does not exist is missing; a directory cannot be read. -/
def ofPath (path : String) : Result Route := do
  let url := Url.parse path
  if url.path = "/" then return .file "text/html" (← Site.size "index.html")
  else if (path.startsWith "/assets/" || path.startsWith "/js/") &&
      (path.splitOn "/..").length = 1 then
    match Site.size (strip path) with
    | .ok n => return .file (typeOf url.path) n
    | .error f => if f.kind = .missingFile then return .missing else throw f
  else if url.path = "/ctxs" then
    let some key := url.field? "ctx" | return .recordings
    let key ← number key
    let index ← (url.field? "idx").getDM (throw .missingKey)
    return .recording key (← number index)
  else if url.path = "/get_profile" then return .profile
  else return .missing

end Route

end LazyTensor
