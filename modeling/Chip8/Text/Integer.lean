import Chip8.Text.Digit

/-! # Integers in text

An integer may be surrounded by blanks and may carry a sign. Its digits may be those of any
script, and single underscores may stand between them.
-/

namespace Chip8.Text

/-- Most digits that an integer may have where it is read or written. -/
def maxDigits : Nat := 4300

/-- Irreducible, as the power is too large to be unfolded. -/
@[irreducible]
def isWritable (n : Int) : Bool := n.natAbs < Nat.pow 10 maxDigits

/-- The values of the digits, or `none` if the text is more than digits with single
underscores between them. `after` tells that the character before was a digit. -/
def digitValues (after : Bool) : List Char → Option (List Nat)
  | [] => if after then some [] else none
  | c :: rest =>
    if c = '_' then
      if after then digitValues false rest else none
    else
      match digitValue? c with
      | some d => (digitValues true rest).map (d :: ·)
      | none => none

def natural? (s : List Char) : Option Nat := do
  let digits ← digitValues false s
  if maxDigits < digits.length then none
  else some (digits.foldl (fun n d => 10 * n + d) 0)

def trimBlanks (s : List Char) : List Char :=
  ((s.dropWhile isBlank).reverse.dropWhile isBlank).reverse

def integer? (s : String) : Option Int :=
  match trimBlanks s.toList with
  | '-' :: digits => (natural? digits).map fun n => -n
  | '+' :: digits => (natural? digits).map fun n => n
  | digits => (natural? digits).map fun n => n

/-- Whether a text is a minus sign and a plain decimal number, which one line end may follow. -/
def isNegativeNumber (s : String) : Bool :=
  match s.toList with
  | '-' :: rest =>
    let body := if rest.getLast? = some '\n' then rest.dropLast else rest
    let whole := body.takeWhile isDigit
    match body.dropWhile isDigit with
    | [] => !whole.isEmpty
    | '.' :: places => !places.isEmpty && places.all isDigit
    | _ => false
  | _ => false

end Chip8.Text
