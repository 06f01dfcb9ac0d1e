/-! # Text layout

Padding, digit grouping, hexadecimal numbers of a least width, and the bracketed listings
that messages show.
-/

namespace Chip8.Text

/-- Fills up on the left to `width` characters. -/
def padLeft (fill : Char) (width : Nat) (s : String) : String :=
  "".pushn fill (width - s.length) ++ s

def hexDigits (n : Nat) : String :=
  String.ofList ((Nat.toDigits 16 n).map Char.toUpper)

/-- Hexadecimal with zeros up to `width` characters. A minus sign counts towards the width
and stands before the zeros. -/
def hex (width : Nat) (n : Int) : String :=
  if n < 0 then "-" ++ padLeft '0' (width - 1) (hexDigits n.natAbs)
  else padLeft '0' width (hexDigits n.natAbs)

/-- Puts a comma after every third digit of a number that is given last digit first. -/
def groupThousands : List Char → List Char
  | a :: b :: c :: d :: rest => a :: b :: c :: ',' :: groupThousands (d :: rest)
  | short => short

/-- A text with commas between the thousands of the digits that it begins with, which a minus
sign may precede. -/
def groupedWhole (s : String) : String :=
  let cs := s.toList
  let sign := cs.takeWhile (· = '-')
  let rest := cs.dropWhile (· = '-')
  String.ofList (sign ++ (groupThousands (rest.takeWhile Char.isDigit).reverse).reverse
    ++ rest.dropWhile Char.isDigit)

def grouped (n : Int) : String := groupedWhole (toString n)

/-- A listing in round brackets. A single item is followed by a comma. -/
def tuple : List String → String
  | [] => "()"
  | [item] => "(" ++ item ++ ",)"
  | items => "(" ++ ", ".intercalate items ++ ")"

def listing (items : List String) : String := "[" ++ ", ".intercalate items ++ "]"

end Chip8.Text
