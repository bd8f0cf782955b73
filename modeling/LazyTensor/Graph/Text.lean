import LazyTensor.Graph.Traverse
import LazyTensor.Text.Quoted

/-!
# The printed form of graphs

A graph prints as nested calls, one node a line.  A node used more than once is named where it
stands first, and later only its name is written.
-/

namespace LazyTensor

def tupleOf (xs : List String) : String :=
  match xs with
  | [x] => "(" ++ x ++ ",)"
  | xs => "(" ++ String.intercalate ", " xs ++ ")"

def listOf (xs : List String) : String := "[" ++ String.intercalate ", " xs ++ "]"

def Dim.textWith (f : Expr → String) : Dim → String
  | .int n => toString n
  | .sym e => f e

def View.textWith {ι : Type} (f : ι → String) (v : View ι) : String :=
  let mask := match v.mask with
    | none => "None"
    | some ms => tupleOf (ms.map fun (b, e) => tupleOf [f b, f e])
  "View(shape=" ++ tupleOf (v.shape.map f) ++ ", strides=" ++ tupleOf (v.strides.map f)
    ++ ", offset=" ++ f v.offset ++ ", mask=" ++ mask
    ++ ", contiguous=" ++ (if v.contiguous then "True" else "False") ++ ")"

def KernelInfo.text (k : KernelInfo) : String :=
  "KernelInfo(name=" ++ Quoted.text k.name ++ ", local_dims=" ++ toString k.localDims
    ++ ", upcasted=" ++ toString k.upcasted
    ++ ", dont_use_locals=" ++ (if k.dontUseLocals then "True" else "False")
    ++ ", applied_opts=(), opts_to_apply=None)"

namespace Block

def shortText (e : Expr) : String :=
  match e.op, e.arg with
  | .branch, _ => "IF" ++ toString e.number
  | .range, .const c => c.text
  | .range, _ => "None"
  | _, _ => "<NONE>"

/-- The printed form of a block: what it closes, what it waits for, where it stands, and its
operations. -/
def text (b : Block Expr) : String :=
  let ctx (es : List Expr) : String := listOf (es.map fun e => Quoted.text (shortText e))
  (match b.closes with | some e => shortText e ++ " " | none => "")
    ++ "f" ++ toString b.count ++ " " ++ ctx b.ctx ++ " "
    ++ (match b.childCtx with | some es => ctx es | none => "-") ++ " "
    ++ toString b.body.length ++ "\n" ++ String.intercalate "\n" (b.body.map fun e => e.op.text)

end Block

def Op.detail (o : Op) : String := "<Ops." ++ o.name ++ ": " ++ toString o.rank ++ ">"

def kernelText (ast : Expr) : String :=
  let rep := if ast.is .sink then "SINK" ++ tupleOf (ast.src.map fun s => s.op.detail)
    else ast.op.detail
  "<Kernel " ++ toString ast.toposort.size ++ " " ++ rep ++ ">"

def Arg.textWith (f : Expr → String) : Arg → String
  | .none => "None"
  | .const c => c.text
  | .text s => Quoted.text s
  | .op o => o.detail
  | .dtype d => d.text
  | .bytes b => Quoted.bytes b
  | .tuple xs => tupleOf (textAll xs)
  | .expr e => f e
  | .layout vs => "ShapeTracker(views=" ++ tupleOf (vs.map (View.textWith (Dim.textWith f))) ++ ")"
  | .view v => View.textWith (Dim.textWith f) v
  | .info k => k.text
  | .block b => Block.text b
  | .kernel ast _ => kernelText ast
where
  textAll : List Arg → List String
    | [] => []
    | x :: xs => textWith f x :: textAll xs

namespace Expr

/-- What is known of a node while its graph prints: its name, how often it is used, and whether it
has been written. -/
structure Mark where
  name : Nat
  uses : Nat
  written : Bool := false

mutual

/-- Count the uses of the nodes below a node, naming them in the order they are met. -/
def tally : Expr → Std.HashMap Nat Mark → Std.HashMap Nat Mark
  | .mk _ _ _ src _ _, m => tallyAll src m

def tallyAll : List Expr → Std.HashMap Nat Mark → Std.HashMap Nat Mark
  | [], m => m
  | e :: rest, m =>
    match m[e.number]? with
    | some k => tallyAll rest (m.insert e.number { k with uses := k.uses + 1 })
    | none => tallyAll rest (tally e (m.insert e.number ⟨m.size, 1, false⟩))

end

/-- The argument as a node shows it: a reduction shows the bare items of its tuple. -/
def argText (f : Expr → String) (e : Expr) : String :=
  match e.op, e.arg with
  | .reduceAxis, .tuple xs =>
    "(" ++ String.intercalate ", " (xs.map fun x => match x with
      | .op o => o.text
      | x => x.textWith f) ++ ")"
  | _, a => a.textWith f

def tagText (f : Expr → String) (e : Expr) : String :=
  match e.tag with
  | .none => ""
  | .text s => ", tag=" ++ s
  | .op o => ", tag=" ++ o.text
  | t => ", tag=" ++ t.textWith f

mutual

def write (f : Expr → String) (depth : Nat) :
    Expr → Std.HashMap Nat Mark → String × Std.HashMap Nat Mark
  | .mk n op d src arg tag, m =>
    let k := (m[n]?).getD ⟨0, 0, false⟩
    let pad := String.ofList (List.replicate depth ' ')
    if k.written then (pad ++ " x" ++ toString k.name, m)
    else
      let (inner, m) := writeAll f (depth + 2) src (m.insert n { k with written := true })
      let e : Expr := .mk n op d src arg tag
      (pad ++ (if k.uses > 1 then "x" ++ toString k.name ++ ":=" else "")
        ++ "UOp(" ++ op.text ++ ", " ++ d.text ++ ", arg=" ++ argText f e ++ tagText f e
        ++ ", src=(" ++ inner ++ "))", m)

def writeAll (f : Expr → String) (depth : Nat) :
    List Expr → Std.HashMap Nat Mark → String × Std.HashMap Nat Mark
  | [], m => ("", m)
  | e :: rest, m =>
    let (a, m) := write f depth e m
    let (b, m) := writeAll f depth rest m
    ("\n" ++ a ++ "," ++ b, m)

end

/-- The printed form of a graph; graphs inside arguments are printed to the given depth. -/
def textDepth : Nat → Expr → String
  | 0, _ => "UOp(...)"
  | n + 1, e => (write (textDepth n) 0 e (tally e {})).1

def text (e : Expr) : String := textDepth 8 e

end Expr

def Arg.literal (a : Arg) : String := a.textWith Expr.text

/-- The printed form of an argument on its own: texts stand without quotes. -/
def Arg.bareText : Arg → String
  | .text s => s
  | .op o => o.text
  | a => a.literal

def Dim.text (d : Dim) : String := d.textWith Expr.text

def Dim.shapeText (ds : List Dim) : String := tupleOf (ds.map Dim.text)

def Dim.pairsText (ps : List (Dim × Dim)) : String :=
  tupleOf (ps.map fun (a, b) => tupleOf [a.text, b.text])

def View.layoutText (vs : List (View Dim)) : String := (Arg.layout vs).literal

def View.text (v : View Dim) : String := (Arg.view v).literal

end LazyTensor
