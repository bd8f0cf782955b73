import LazyTensor.Archive.Zip
import LazyTensor.Digest
import LazyTensor.Text.Quoted

/-!
# Fetched pages

Pages are fetched once and kept as files in a directory for downloads.  A page that was fetched before
is not asked for again, unless that is wanted.  What arrives is written under another name first, so
that a file with the right name is complete; a fetch that fails half-way leaves the other file behind.
-/

namespace LazyTensor

namespace Path

variable (p : String)

def names : List String := (p.splitOn "/").filter fun n => n ≠ "" && n ≠ "."

/-- What a path begins with: nothing, or the root.  Two slashes are kept, more count as one. -/
def root : String :=
  match p.toList with
  | '/' :: '/' :: '/' :: _ => "/"
  | '/' :: '/' :: _ => "//"
  | '/' :: _ => "/"
  | _ => ""

def normal : String :=
  let s := root p ++ String.intercalate "/" (names p)
  if s = "" then "." else s

def join (p q : String) : String := if (root q).isEmpty then normal (p ++ "/" ++ q) else normal q

def parent : String :=
  normal (root p ++ String.intercalate "/" (names p).dropLast)

def resolved : String :=
  let ns := (names p).foldl (fun (acc : List String) n =>
    if n = ".." then acc.drop 1 else n :: acc) []
  normal (root p ++ String.intercalate "/" ns.reverse)

def ancestors : List String :=
  let ns := names p
  (List.range ns.length).map fun k =>
    normal (root p ++ String.intercalate "/" (ns.take (ns.length - 1 - k)))

end Path

structure Page where
  url : String
  status : Int := 200
  length : Option Int := none
  bytes : ByteArray

structure FetchWish where
  /-- The name of the file, and whether it is a path as it stands. -/
  name : Option (String × Bool) := none
  folder : String := ""
  /-- Whether the page is compressed and wanted as it was before. -/
  unpack : Bool := false
  /-- Whether a file that is there already will do. -/
  cached : Bool := true

/-- The pages there are, the requests so far, and the files. -/
structure Web where
  pages : List Page := []
  requests : List String := []
  files : List (String × ByteArray) := []
  folders : List String := []
  /-- The announced length, and how much was read, of every page that was opened. -/
  transfers : List (Int × Option Nat) := []

abbrev WebM := EStateM Failure Web

namespace Web

def agent : String := "tinygrad 0.10.3"

def patience : Nat := 10

def putPage (p : Page) : WebM Unit :=
  modify fun w => { w with pages := p :: w.pages.filter (·.url ≠ p.url) }

variable (url : String)

def bare : String :=
  let s := url.trimAscii.toString
  let s := if s.startsWith "<" && s.endsWith ">" then
      ((s.drop 1).dropEnd 1).trimAscii.toString
    else s
  if s.startsWith "URL:" then (s.drop 4).trimAscii.toString else s

def hasScheme : Bool :=
  let cs := (bare url).toList
  let scheme := cs.takeWhile fun c => c ≠ '/' && c ≠ ':'
  !scheme.isEmpty && cs[scheme.length]? == some ':'

def outside (p : String) : String := if (Path.root p).isEmpty then "../" ++ p else p

def isInside (p : String) : Bool := (Path.root p).isEmpty && !p.startsWith "../"

/-- The file that a page is kept in: its path as it is shown, and seen from the directory. -/
def target (o : FetchWish) : String × String :=
  match o.name with
  | some (n, true) => (Path.normal n, Path.resolved n)
  | name =>
    let name := (name.map (·.1)).getD ""
    if name.contains '/' then (Path.normal name, outside (Path.resolved name))
    else
      let name := if name.isEmpty then Quoted.hex (Md5.digest url.toUTF8) else name
      let p := Path.join (Path.join "downloads" o.folder) (name ++ if o.unpack then ".gunzip" else "")
      (p, Path.resolved p)

def file? (w : Web) (place : String) : Option ByteArray :=
  (w.files.find? (·.1 = place)).map (·.2)

def makeFolder (p : String) : WebM Unit := do
  let w ← get
  if w.files.any (·.1 = p) then throw (.bare .fileExists)
  if (Path.ancestors p).any fun q => w.files.any (·.1 = q) then throw (.bare .notDirectory)
  set { w with folders := (p :: Path.ancestors p ++ w.folders).eraseDups }

def putFile (p : String) (b : ByteArray) : WebM Unit :=
  modify fun w => { w with files := (p, b) :: w.files.filter (·.1 ≠ p) }

def leave (folder : String) : WebM Unit :=
  modify fun w => { w with
    files := (Path.join folder "tmp*", ByteArray.empty) :: w.files }

def request (o : FetchWish) : WebM (ByteArray × Int) := do
  if !hasScheme url then throw .invalidValue
  let url := bare url
  modify fun w => { w with requests := w.requests ++ [url] }
  let page ← ((← get).pages.find? (·.url = url)).getDM (throw .badInput)
  if page.status ≠ 200 then throw (.broken s!"{page.status}")
  let length := if o.unpack then 0 else page.length.getD 0
  if o.unpack then
    match Gzip.decompress page.bytes with
    | .ok b => return (b, length)
    | .error f =>
      modify fun w => { w with transfers := w.transfers ++ [(length, none)] }
      leave (Path.parent (target url o).2)
      throw f
  else return (page.bytes, length)

/-- The file of a page: its path as it is shown, and its contents.  A path in place of an address is
the file itself. -/
def fetch (url : String) (o : FetchWish) : WebM (String × Option ByteArray) := do
  if url.startsWith "/" || url.startsWith "." then return (Path.normal url, none)
  let (shown, place) := target url o
  if o.cached then
    if let some b := (← get).file? place then return (shown, some b)
  makeFolder (Path.parent place)
  let (b, length) ← request url o
  modify fun w => { w with transfers := w.transfers ++ [(length, some b.size)] }
  if (← get).folders.contains place then
    leave (Path.parent place)
    throw (.bare .isDirectory)
  putFile place b
  if length ≠ 0 && (b.size : Int) < length then
    throw (.misused s!"fetch size incomplete, {b.size} < {length}")
  return (shown, some b)

end Web

end LazyTensor
