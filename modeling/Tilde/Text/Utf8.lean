import Tilde.Text.Quoted

/-!
Texts from bytes. A character takes one to four bytes; the first says how many
there are and the others, its continuation, hold six bits each. The least and the
greatest value of the byte after the first depend on the first, which rules out
longer forms than needed, surrogates and code points beyond the last.

A decoder stands between two characters or within one that it has begun. It stops
at the first byte that no text can have there, and the fault names the bytes that
could not be understood: the one that begins no character, or those of a character
that is broken off.
-/

namespace Tilde.Text.Utf8

inductive Reason where
  /-- The byte begins no character. -/
  | invalidStart
  /-- The byte after those named does not go on with their character. -/
  | invalidContinuation
  /-- The bytes end within a character. -/
  | unexpectedEnd
  deriving DecidableEq, Repr

def Reason.text : Reason → String
  | .invalidStart => "invalid start byte"
  | .invalidContinuation => "invalid continuation byte"
  | .unexpectedEnd => "unexpected end of data"

/-- The bytes from `start` up to but not including `stop` are part of no text. The
first of them is `byte`. -/
structure Fault where
  reason : Reason
  byte : UInt8
  start : Nat
  stop : Nat
  deriving DecidableEq, Repr

def hexByte (byte : UInt8) : String :=
  "0x" ++ String.ofList (hexNumeral 2 byte.toNat)

def Fault.message (fault : Fault) : String :=
  let bytes :=
    if fault.stop = fault.start + 1 then
      "byte " ++ hexByte fault.byte ++ " in position " ++ toString fault.start
    else s!"bytes in position {fault.start}-{fault.stop - 1}"
  s!"'utf-8' codec can't decode {bytes}: {fault.reason.text}"

/-- A character that has been begun: its first byte, how many bytes there are of
it so far, how many are owed, the value so far and the range of the next byte. -/
structure Begun where
  lead : UInt8
  length : Nat
  owed : Nat
  value : Nat
  least : Nat
  greatest : Nat
  deriving DecidableEq, Repr

inductive Stage where
  | between
  | within (begun : Begun)
  deriving DecidableEq, Repr

inductive Move where
  | goOn (stage : Stage)
  | finish (c : Char)
  | refuse (reason : Reason)
  deriving DecidableEq, Repr

/-- The move of a byte that stands between two characters. -/
def begin (byte : UInt8) : Move :=
  let b := byte.toNat
  let lead (owed value least greatest : Nat) : Move :=
    .goOn (.within ⟨byte, 1, owed, value, least, greatest⟩)
  if b < 0x80 then .finish (Char.ofNat b)
  else if b < 0xc2 then .refuse .invalidStart
  else if b < 0xe0 then lead 1 (b - 0xc0) 0x80 0xbf
  else if b = 0xe0 then lead 2 0 0xa0 0xbf
  else if b = 0xed then lead 2 0xd 0x80 0x9f
  else if b < 0xf0 then lead 2 (b - 0xe0) 0x80 0xbf
  else if b = 0xf0 then lead 3 0 0x90 0xbf
  else if b < 0xf4 then lead 3 (b - 0xf0) 0x80 0xbf
  else if b = 0xf4 then lead 3 4 0x80 0x8f
  else .refuse .invalidStart

/-- The move of a byte that stands within a character. -/
def Begun.resume (begun : Begun) (byte : UInt8) : Move :=
  let b := byte.toNat
  if b < begun.least ∨ begun.greatest < b then .refuse .invalidContinuation
  else
    let value := begun.value * 64 + (b - 0x80)
    if begun.owed ≤ 1 then .finish (Char.ofNat value)
    else .goOn (.within ⟨begun.lead, begun.length + 1, begun.owed - 1, value, 0x80, 0xbf⟩)

def Stage.move : Stage → UInt8 → Move
  | .between => begin
  | .within begun => begun.resume

/-- The fault of a byte that is refused at a position. -/
def Stage.faultAt (stage : Stage) (reason : Reason) (byte : UInt8) (position : Nat) : Fault :=
  match stage with
  | .between => ⟨reason, byte, position, position + 1⟩
  | .within begun => ⟨reason, begun.lead, position - begun.length, position⟩

/-- Decodes the bytes from a position on. The characters before it are given from
the last to the first. -/
def decodeFrom (position : Nat) (stage : Stage) (before : List Char) :
    List UInt8 → Except Fault (List Char)
  | [] =>
      match stage with
      | .between => .ok before.reverse
      | .within begun =>
          .error ⟨.unexpectedEnd, begun.lead, position - begun.length, position⟩
  | byte :: rest =>
      match stage.move byte with
      | .goOn stage => decodeFrom (position + 1) stage before rest
      | .finish c => decodeFrom (position + 1) .between (c :: before) rest
      | .refuse reason => .error (stage.faultAt reason byte position)

def decode (bytes : List UInt8) : Except Fault (List Char) :=
  decodeFrom 0 .between [] bytes

end Tilde.Text.Utf8
