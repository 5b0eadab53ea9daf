/-!
Integers written by people: decimal digits with an optional sign before them and
blanks around them. The digits are those of any script and may be mixed, and a
single line may stand between two digits. A numeral of more than 4300 digits is
none.
-/

namespace Tilde.Text.Numeral

/-- The zeros beyond ASCII. The nine code points after each of them are the digits
one to nine of its script. -/
def zeros : List Nat :=
  [0x660, 0x6f0, 0x7c0, 0x966, 0x9e6, 0xa66, 0xae6, 0xb66, 0xbe6, 0xc66, 0xce6, 0xd66,
   0xde6, 0xe50, 0xed0, 0xf20, 0x1040, 0x1090, 0x17e0, 0x1810, 0x1946, 0x19d0, 0x1a80,
   0x1a90, 0x1b50, 0x1bb0, 0x1c40, 0x1c50, 0xa620, 0xa8d0, 0xa900, 0xa9d0, 0xa9f0, 0xaa50,
   0xabf0, 0xff10, 0x104a0, 0x10d30, 0x11066, 0x110f0, 0x11136, 0x111d0, 0x112f0, 0x11450,
   0x114d0, 0x11650, 0x116c0, 0x11730, 0x118e0, 0x11950, 0x11c50, 0x11d50, 0x11da0, 0x16a60,
   0x16ac0, 0x16b50, 0x1d7ce, 0x1d7d8, 0x1d7e2, 0x1d7ec, 0x1d7f6, 0x1e140, 0x1e2f0, 0x1e950,
   0x1fbf0]

def digitValue? (c : Char) : Option Nat :=
  let code := c.toNat
  if code < 0x80 then if c.isDigit then some (code - 0x30) else none
  else (zeros.find? fun first => first ≤ code && code ≤ first + 9).map (code - ·)

/-- The blanks that may stand around a numeral. -/
def isBlank (c : Char) : Bool :=
  let code := c.toNat
  (0x9 ≤ code && code ≤ 0xd) || code == 0x20 || code == 0x85 || code == 0xa0 ||
    code == 0x1680 || (0x2000 ≤ code && code ≤ 0x200a) || code == 0x2028 ||
    code == 0x2029 || code == 0x202f || code == 0x205f || code == 0x3000

/-- The longest numeral, in digits. -/
def maxDigits : Nat := 4300

def trim (text : List Char) : List Char :=
  ((text.dropWhile isBlank).reverse.dropWhile isBlank).reverse

/-- The values of the digits of a text in which a line may stand between any two.
`afterDigit` says whether a digit has just been read, and `before` are the values
read so far, from the last to the first. -/
def readDigits (afterDigit : Bool) (before : List Nat) : List Char → Option (List Nat)
  | [] => if afterDigit then some before.reverse else none
  | c :: rest =>
      if c = '_' then if afterDigit then readDigits false before rest else none
      else
        match digitValue? c with
        | some d => readDigits true (d :: before) rest
        | none => none

def natural? (text : List Char) : Option Nat :=
  match readDigits false [] text with
  | some digits =>
      if digits.length ≤ maxDigits then some (digits.foldl (fun n d => n * 10 + d) 0) else none
  | none => none

/-- The integer that a text stands for, if it is a numeral. -/
def integer? (text : String) : Option Int :=
  match trim text.toList with
  | '-' :: digits => (natural? digits).map fun n => -n
  | '+' :: digits => (natural? digits).map fun n => n
  | digits => (natural? digits).map fun n => n

end Tilde.Text.Numeral
