import TermGraph.Value.Basic

/-!
# Values and texts

How a value is written in diagnostics, and how a text is kept in a value, as an
aggregate of its bytes.
-/

namespace TermGraph

/-!
## Values in diagnostics

How values are written.  A function shows its declaration, a reference its
slot and path, an aggregate its elements between brackets of its sort.  Texts
are put together from characters, which makes it plain where one ends.
-/

/-- A natural number in decimal. -/
def decimalChars (n : Nat) : List Char := Nat.toDigits 10 n

/-- An integer in decimal, with a minus sign if it is negative. -/
def signedChars : Int → List Char
  | .ofNat n => decimalChars n
  | .negSucc n => '-' :: decimalChars (n + 1)

/-- A reference in diagnostics; of a null reference no path is shown. -/
def ValueRef.spelled (r : ValueRef) : List Char :=
  "ref#".toList ++
    match r.slot with
    | none => "null".toList
    | some slot => decimalChars slot ++ r.path.flatMap fun i => '.' :: decimalChars i

def ValueRef.text (r : ValueRef) : String := String.ofList r.spelled

/-- What an aggregate begins with. -/
def Shape.opening : Shape → List Char
  | .array => ['[']
  | .dynarray => ['d', 'y', 'n', '[']
  | .tuple => ['(']

/-- What an aggregate ends with. -/
def Shape.closing : Shape → Char
  | .array | .dynarray => ']'
  | .tuple => ')'

namespace Value

mutual

/-- A value in diagnostics. -/
def spelled : Value → List Char
  | .error => "<error>".toList
  | .integer n => signedChars n.toInt
  | .float x => x.spelled
  | .function d => "fn#".toList ++ if d.isValid then decimalChars d.index else "null".toList
  | .reference r => r.spelled
  | .aggregate shape [] => shape.opening ++ [shape.closing]
  | .aggregate shape (v :: vs) => shape.opening ++ spelled v ++ spelledRest vs ++ [shape.closing]

/-- All elements but the first, each after a comma. -/
def spelledRest : List Value → List Char
  | [] => []
  | v :: vs => ',' :: ' ' :: (spelled v ++ spelledRest vs)

end

def text (v : Value) : String := String.ofList v.spelled

end Value

def ValueFault.message : ValueFault → String
  | .kindMismatch expected found =>
    s!"value kind mismatch: expected {expected.text}, found {found.text}"
  | .dangling r => s!"dangling value reference {r.text}"
  | .chained r => s!"reference to a reference at {r.text}"
  | .outOfBounds len index => s!"index out of bounds: the len is {len} but the index is {index}"

end TermGraph

namespace TermGraph.Value

/-!
## Texts in aggregates

A string literal is an aggregate of its bytes, one integer for each.  An
aggregate holds a text when all its elements are integers that are bytes and
the bytes are the encoding of a text.
-/

/-- One integer for each byte. -/
def ofBytes (bytes : List UInt8) : List Value :=
  bytes.map fun b => .integer (Int64.ofNat b.toNat)

/-- The byte that an integer is. -/
def byte? : Value → Option UInt8
  | .integer n => if 0 ≤ n.toInt ∧ n.toInt ≤ 255 then some (UInt8.ofNat n.toInt.toNat) else none
  | _ => none

/-- The bytes that values are. -/
def bytes? (elems : List Value) : Option (List UInt8) := elems.mapM byte?

/-- The text that values hold the encoding of. -/
def string? (elems : List Value) : Option String := do
  String.fromUTF8? ⟨(← bytes? elems).toArray⟩

end TermGraph.Value
