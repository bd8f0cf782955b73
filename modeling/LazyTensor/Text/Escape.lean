/-!
# Colored text

Terminals take color from escape sequences: an escape character, an opening bracket, and then either
`K` or anything up to the next `m` on the same line.
-/

namespace LazyTensor.Escape

def mark : Char := Char.ofNat 27

def afterColor? : List Char → Option (List Char)
  | [] => none
  | c :: rest => if c = 'm' then some rest else if c = '\n' then none else afterColor? rest

/-- What follows the sequence that a text starts with, if it starts with one. -/
def afterSequence? : List Char → Option (List Char)
  | c :: '[' :: rest =>
    if c = mark then
      match rest with
      | 'K' :: more => some more
      | _ => afterColor? rest
    else none
  | _ => none

theorem length_of_afterColor? {cs rest : List Char} (h : afterColor? cs = some rest) :
    rest.length < cs.length := by
  induction cs with
  | nil => simp [afterColor?] at h
  | cons c cs ih =>
    unfold afterColor? at h
    split at h
    · cases h; simp
    · split at h
      · simp at h
      · exact Nat.lt_succ_of_lt (ih h)

theorem length_of_afterSequence? {cs rest : List Char} (h : afterSequence? cs = some rest) :
    rest.length < cs.length := by
  unfold afterSequence? at h
  split at h
  · split at h
    · split at h
      · cases h; simp only [List.length_cons]; omega
      · have := length_of_afterColor? h
        simp only [List.length_cons]
        omega
    · simp at h
  · simp at h

def stripChars (cs : List Char) : List Char :=
  match _h : afterSequence? cs with
  | some rest => stripChars rest
  | none =>
    match cs with
    | [] => []
    | c :: rest => c :: stripChars rest
termination_by cs.length
decreasing_by
  · exact length_of_afterSequence? _h
  · simp

def strip (s : String) : String := String.ofList (stripChars s.toList)

def length (s : String) : Nat := (stripChars s.toList).length

def colors : List String := ["black", "red", "green", "yellow", "blue", "magenta", "cyan", "white"]

def colored (s : String) (color : String) (background : Bool := false) : String :=
  let code := colors.findIdx (· == color.toLower)
  let bright := color.toUpper == color
  let n := (if background then 10 else 0) + (if bright then 60 else 0) + 30 + code
  String.singleton mark ++ "[" ++ toString n ++ "m" ++ s ++ String.singleton mark ++ "[0m"

/-- The least number of characters from the start, from some number on, that show as many as asked, or
all characters. -/
def reachWidth (width : Int) (cs : List Char) : Nat → Nat → Nat
  | 0, i => i
  | fuel + 1, i =>
    if ((stripChars (cs.take i)).length : Int) < width && i < cs.length then
      reachWidth width cs fuel (i + 1)
    else i

/-- Characters cut into lines of a visible length; `none` if no character fits. -/
def wrapChars (width : Int) : Nat → List Char → Option (List Char)
  | 0, _ => none
  | fuel + 1, cs =>
    if ((stripChars cs).length : Int) ≤ width then some cs
    else
      let i := reachWidth width cs (cs.length + 1) 0
      (wrapChars width fuel (cs.drop i)).map fun rest => cs.take i ++ '\n' :: rest

def wrap (s : String) (width : Int := 80) : Option String :=
  let cs := s.toList
  (wrapChars width (cs.length + 1) cs).map String.ofList

end LazyTensor.Escape
