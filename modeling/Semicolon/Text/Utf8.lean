/-
UTF-8, both ways.

Reading is by the ranges of a well-formed sequence: the first byte fixes the width and
narrows the range of the second, every later byte lies in 80..BF.  Reading a text never
fails, because a byte that starts no well-formed sequence is kept as a stray glyph.
Reading strictly fails at the first such byte, and says where and why.

Writing gives every glyph its own bytes back, so a text that was read writes the same bytes.
-/
import Semicolon.Text.Glyph

namespace Semicolon

/-- A string of bytes. -/
abbrev Bytes := List UInt8

namespace Utf8

/-! ### One character -/

/-- A byte that may stand after the first one of a sequence. -/
def isTail (b : UInt8) : Bool := 0x80 ≤ b && b ≤ 0xBF

/-- The number of bytes in a sequence that starts with `a`, or `none` if nothing starts so. -/
def width? (a : UInt8) : Option Nat :=
  if a ≤ 0x7F then some 1
  else if 0xC2 ≤ a && a ≤ 0xDF then some 2
  else if 0xE0 ≤ a && a ≤ 0xEF then some 3
  else if 0xF0 ≤ a && a ≤ 0xF4 then some 4
  else none

/-- May `b` stand second after the first byte `a`?  The narrower ranges keep out overlong
forms, surrogates and numbers beyond the last code point. -/
def isSecond (a b : UInt8) : Bool :=
  if a = 0xE0 then 0xA0 ≤ b && b ≤ 0xBF
  else if a = 0xED then 0x80 ≤ b && b ≤ 0x9F
  else if a = 0xF0 then 0x90 ≤ b && b ≤ 0xBF
  else if a = 0xF4 then 0x80 ≤ b && b ≤ 0x8F
  else isTail b

/-- The number that six low bits of a tail byte stand for. -/
def tailBits (b : UInt8) : Nat := b.toNat - 0x80

/-- The character at the head of the bytes and the number of bytes it takes. -/
def char? : Bytes → Option (Char × Nat)
  | [] => none
  | a :: rest =>
    match width? a, rest with
    | some 1, _ => some (Char.ofNat a.toNat, 1)
    | some 2, b :: _ =>
      if isSecond a b then some (Char.ofNat ((a.toNat - 0xC0) * 64 + tailBits b), 2) else none
    | some 3, b :: c :: _ =>
      if isSecond a b && isTail c then
        some (Char.ofNat (((a.toNat - 0xE0) * 64 + tailBits b) * 64 + tailBits c), 3)
      else none
    | some 4, b :: c :: d :: _ =>
      if isSecond a b && isTail c && isTail d then
        some (Char.ofNat ((((a.toNat - 0xF0) * 64 + tailBits b) * 64 + tailBits c) * 64
          + tailBits d), 4)
      else none
    | _, _ => none

/-- The bytes that spell a character. -/
def encodeChar (c : Char) : Bytes :=
  let n := c.toNat
  if n ≤ 0x7F then [n.toUInt8]
  else if n ≤ 0x7FF then [(0xC0 + n / 64).toUInt8, (0x80 + n % 64).toUInt8]
  else if n ≤ 0xFFFF then
    [(0xE0 + n / 4096).toUInt8, (0x80 + n / 64 % 64).toUInt8, (0x80 + n % 64).toUInt8]
  else
    [(0xF0 + n / 262144).toUInt8, (0x80 + n / 4096 % 64).toUInt8, (0x80 + n / 64 % 64).toUInt8,
      (0x80 + n % 64).toUInt8]

/-! ### A whole text -/

/-- The glyphs of the bytes that are left after the first `skip` of them. -/
def glyphs : (skip : Nat) → Bytes → Text
  | _, [] => []
  | skip + 1, _ :: rest => glyphs skip rest
  | 0, a :: rest =>
    match char? (a :: rest) with
    | some (c, width) => .char c :: glyphs (width - 1) rest
    | none => .byte a :: glyphs 0 rest

/-- Reads bytes as text.  Never fails: a byte that is part of no character is a glyph itself. -/
def decode (bs : Bytes) : Text := glyphs 0 bs

/-- The bytes of one glyph. -/
def encodeGlyph : Glyph → Bytes
  | .char c => encodeChar c
  | .byte b => [b]

/-- The bytes of a text. -/
def encode (t : Text) : Bytes := t.flatMap encodeGlyph

/-- The bytes of a string. -/
def encodeString (s : String) : Bytes := s.toList.flatMap encodeChar

/-! ### Strict reading -/

/-- Why bytes are not UTF-8. -/
inductive Defect where
  | invalidStart
  | invalidContinuation
  | unexpectedEnd
  deriving DecidableEq, Repr

/-- The wording of a defect. -/
def Defect.text : Defect → String
  | .invalidStart => "invalid start byte"
  | .invalidContinuation => "invalid continuation byte"
  | .unexpectedEnd => "unexpected end of data"

/-- The place of the first defect: its first byte, that byte's position, and how many bytes of
a sequence that began well are spoilt by it. -/
structure Undecodable where
  byte : UInt8
  position : Nat
  length : Nat
  defect : Defect
  deriving DecidableEq, Repr

/-- What is wrong at the head of the bytes, given that no character starts there: the number of
bytes that still fit a sequence, and the defect that comes after them. -/
def defectAt : Bytes → Nat × Defect
  | [] => (0, .unexpectedEnd)
  | a :: rest =>
    match width? a with
    | none => (1, .invalidStart)
    | some width =>
      match rest with
      | [] => (1, .unexpectedEnd)
      | b :: rest =>
        if !isSecond a b then (1, .invalidContinuation)
        else
          let good := rest.take (width - 2) |>.takeWhile isTail
          if good.length = rest.length then (2 + good.length, .unexpectedEnd)
          else (2 + good.length, .invalidContinuation)

/-- The characters of the bytes after the first `skip`, which start at `position`. -/
def chars? : (skip position : Nat) → Bytes → Except Undecodable (List Char)
  | _, _, [] => .ok []
  | skip + 1, position, _ :: rest => chars? skip (position + 1) rest
  | 0, position, a :: rest =>
    match char? (a :: rest) with
    | some (c, width) => (chars? (width - 1) (position + 1) rest).map (c :: ·)
    | none =>
      let (length, defect) := defectAt (a :: rest)
      .error { byte := a, position, length, defect }

/-- Reads bytes that have to be UTF-8 throughout. -/
def decodeStrict (bs : Bytes) : Except Undecodable (List Char) := chars? 0 0 bs

/-- Two lower-case hexadecimal digits. -/
def hexByte (b : UInt8) : String :=
  String.ofList [Nat.digitChar (b.toNat / 16), Nat.digitChar (b.toNat % 16)]

/-- The wording of a failure to read strictly. -/
def Undecodable.message (u : Undecodable) : String :=
  let place :=
    if u.length = 1 then "byte 0x" ++ hexByte u.byte ++ " in position " ++ toString u.position
    else "bytes in position " ++ toString u.position ++ "-" ++ toString (u.position + u.length - 1)
  "'utf-8' codec can't decode " ++ place ++ ": " ++ u.defect.text

end Utf8

end Semicolon
