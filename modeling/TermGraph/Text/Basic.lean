/-!
# Reading texts

What settings and directives are read with: blanks around them, the numbers in
them, and places in them that are counted in bytes.
-/

namespace TermGraph.Text

/-!
## Blanks

The characters with the Unicode property White_Space, and what is left of a
text when they are taken off both of its ends.
-/

/-- Whether a character has the property White_Space. -/
def isBlank (c : Char) : Bool :=
  let n := c.toNat
  (9 ≤ n && n ≤ 13) || n == 0x20 || n == 0x85 || n == 0xA0 || n == 0x1680 ||
    (0x2000 ≤ n && n ≤ 0x200A) || n == 0x2028 || n == 0x2029 || n == 0x202F || n == 0x205F ||
    n == 0x3000

/-- The characters without the blanks at both ends. -/
def trim (cs : List Char) : List Char :=
  ((cs.dropWhile isBlank).reverse.dropWhile isBlank).reverse

/-!
## Numerals

Numbers as they are written in settings.  Natural numbers are decimal digits,
with leading zeros or without, after at most one plus sign.  Other numbers may
also have a minus sign, a fraction and an exponent, or be one of the three words
for what is no finite number.
-/

/-- The number that decimal digits spell; there has to be at least one. -/
def decimal? : List Char → Option Nat
  | [] => none
  | cs =>
    if cs.all Char.isDigit then some (cs.foldl (fun n c => 10 * n + (c.toNat - 48)) 0) else none

/-- The number written: decimal digits after at most one plus sign. -/
def number? : List Char → Option Nat
  | '+' :: cs => decimal? cs
  | cs => decimal? cs

/-- What is written without its sign. -/
def unsigned : List Char → List Char
  | '+' :: cs | '-' :: cs => cs
  | cs => cs

/-- Whether an exponent is written, or nothing: a letter, at most one sign and
decimal digits. -/
def isExponent : List Char → Bool
  | [] => true
  | e :: cs => e.toLower == 'e' && (decimal? (unsigned cs)).isSome

/-- Whether a number is written, whole or not. -/
def isNumeral (cs : List Char) : Bool :=
  let size := unsigned cs
  ["inf", "infinity", "nan"].contains (String.ofList (size.map Char.toLower)) ||
    let whole := size.takeWhile Char.isDigit
    match size.drop whole.length with
    | '.' :: rest =>
      let part := rest.takeWhile Char.isDigit
      !(whole.isEmpty && part.isEmpty) && isExponent (rest.drop part.length)
    | rest => !whole.isEmpty && isExponent rest

/-!
## Positions in bytes

Places in a text counted in bytes of its encoding.  Not every place can be cut
at: one inside the bytes of a character is no boundary, and cutting there fails.
-/

/-- How many bytes characters take. -/
def byteSize : List Char → Nat
  | [] => 0
  | c :: cs => c.utf8Size + byteSize cs

/-- What is left behind a number of bytes. -/
def dropBytes? : Nat → List Char → Option (List Char)
  | 0, cs => some cs
  | _ + 1, [] => none
  | n + 1, c :: cs => if c.utf8Size ≤ n + 1 then dropBytes? (n + 1 - c.utf8Size) cs else none

/-- A number of bytes from the front. -/
def takeBytes? : Nat → List Char → Option (List Char)
  | 0, _ => some []
  | _ + 1, [] => none
  | n + 1, c :: cs =>
    if c.utf8Size ≤ n + 1 then (takeBytes? (n + 1 - c.utf8Size) cs).map (c :: ·) else none

end TermGraph.Text
