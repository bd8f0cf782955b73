import LazyTensor.Device.Clock
import LazyTensor.Number.Const

/-!
# Progress bars

A progress bar counts what is done, and shows it on one line of a terminal: a bar, the share, the time
spent and the time left, and the rate.  It reads the clock only when it writes, and it writes less
often when counting is fast.
-/

namespace LazyTensor

/-- How far a count has come. -/
structure Progress where
  label : String := ""
  silent : Bool := false
  unit : String := "it"
  /-- Whether numbers are written with a letter for their magnitude. -/
  scaled : Bool := false
  total : Int := 0
  /-- So many lines a second are enough. -/
  rate : Int := 100
  start : Float := 0
  done : Int := 0
  updates : Int := -1
  /-- Only one of so many updates writes. -/
  skip : Int := 1

namespace Progress

def labelOf (s : String) : String := if s.isEmpty then "" else s ++ ": "

def wholePart (x : Float) : Int := ((Const.float x).toInt?).toOption.getD 0

def clockTime (t : Float) : String :=
  let n := wholePart t
  let two (k : Int) : String := if k < 10 then s!"0{k}" else s!"{k}"
  let hours := Int.fdiv n 3600
  let rest := [two (Int.fdiv (Int.fmod n 3600) 60), two (Int.fmod n 60)]
  String.intercalate ":" (if hours = 0 then rest else s!"{hours}" :: rest)

def letters : List String := ["", "k", "M", "G", "T", "P", "E", "Z", "Y"]

def scaledText (x : Float) : String :=
  if x == 0 then "0.00"
  else
    let g := (Decimal.parse? (Decimal.fixed 6 (x.log / Float.log 1000))).getD 0
    let k := wholePart g
    let scale := if k ≥ 0 then Float.ofInt (1000 ^ k.toNat) else 1 / Float.ofInt (1000 ^ k.natAbs)
    let fraction := g - Float.ofInt k
    let places := (wholePart (3 - 3 * fraction)).toNat
    let digits := String.ofList ((Decimal.fixed places (x / scale)).toList.take 4)
    let digits := String.ofList (digits.toList.reverse.dropWhile (· = '.')).reverse
    digits ++ letters.getD (Int.fmod k 9).toNat ""

def eighths : List String := ["", "▏", "▎", "▍", "▌", "▋", "▊", "▉"]

def line (p : Progress) (elapsed : Float) (columns : Nat) : String :=
  let n := Float.ofInt p.done
  let t := Float.ofInt p.total
  let open? := p.total = 0
  let share := if open? then 0 else n / t
  let number (k : Int) : String := if p.scaled then scaledText (Float.ofInt k) else s!"{k}"
  let amount := number p.done ++ (if open? then p.unit else "/" ++ number p.total)
  let left := if open? then ""
    else if p.done = 0 then "<?"
    else "<" ++ clockTime (elapsed / share - elapsed)
  let speed := if p.done = 0 then "?"
    else if p.scaled then scaledText (n / elapsed)
    else Decimal.padLeft 5 (Decimal.fixed 2 (n / elapsed))
  let tail := s!"{amount} [{clockTime elapsed}{left}, {speed}{p.unit}/s]"
  let width : Int := max ((columns : Int) - p.label.length - 7 - tail.length) 1
  let bar := if open? then "" else
    let filled := Float.ofInt width * share
    let cells := Decimal.rep '█' (wholePart filled).toNat ++
      eighths.getD (Int.fmod (wholePart (8 * filled)) 8).toNat ""
    Decimal.padLeft 3 (Decimal.fixed 0 (100 * share)) ++ "%|" ++
      Decimal.padRight width.toNat cells ++ "| "
  String.ofList (("\r" ++ p.label ++ bar ++ tail).toList.take (columns + 1))

/-- Count, and write if it is time to: the bar, the clock, and what is written. -/
def update (p : Progress) (clock : Clock) (columns : Nat) (n : Int := 0) (close : Bool := false) :
    Progress × Clock × String :=
  let p := { p with done := p.done + n, updates := p.updates + 1 }
  if p.silent || (!close && Int.fmod p.updates p.skip ≠ 0) then (p, clock, "")
  else
    let clock := clock.tick
    let elapsed := clock.seconds - p.start
    let speed := Float.ofInt p.updates / elapsed
    let p := if elapsed != 0 && speed > Float.ofInt p.rate && p.updates ≠ 0 then
        { p with skip := max (Int.fdiv (wholePart speed) p.rate) 1 }
      else p
    (p, clock, p.line elapsed columns ++ (if close then "\n" else ""))

def new (p : Progress) (clock : Clock) (columns : Nat) : Progress × Clock × String :=
  let clock := clock.tick
  { p with start := clock.seconds }.update clock columns

def interjection (s : String) : String := s!"\r\x1b[K{s}\n"

end Progress

end LazyTensor
