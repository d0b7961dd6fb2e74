import ViewForge.Text.Basic

namespace ViewForge.Text

abbrev Bytes := List UInt8

def encodeChar (c : Char) : Bytes :=
  let n := c.toNat
  let tail (unit : Nat) : UInt8 := .ofNat (0x80 + n / unit % 0x40)
  if n < 0x80 then [.ofNat n]
  else if n < 0x800 then [.ofNat (0xC0 + n / 0x40), tail 1]
  else if n < 0x10000 then [.ofNat (0xE0 + n / 0x1000), tail 0x40, tail 1]
  else [.ofNat (0xF0 + n / 0x40000), tail 0x1000, tail 0x40, tail 1]

def encode (t : Text) : Bytes := t.flatMap encodeChar

inductive DecodeReason where
  | badStart
  | badContinuation
  | cutShort
  deriving DecidableEq, Repr

def DecodeReason.message : DecodeReason → Text
  | .badStart => "invalid start byte"
  | .badContinuation => "invalid continuation byte"
  | .cutShort => "unexpected end of data"

/-- Bytes that are no text: the first of them with its place, and how many there are. -/
structure DecodeError where
  first : UInt8
  position : Nat
  count : Nat
  reason : DecodeReason
  deriving DecidableEq, Repr

def hexByte (b : UInt8) : Text := [Nat.digitChar (b.toNat / 16), Nat.digitChar (b.toNat % 16)]

def DecodeError.message (e : DecodeError) : Text :=
  let place : Text :=
    if e.count == 1 then "byte 0x" ++ hexByte e.first ++ " in position " ++ ofNat e.position
    else
      "bytes in position " ++ ofNat e.position ++ "-" ++ ofNat (e.position + e.count - 1)
  "'utf-8' codec can't decode " ++ place ++ ": " ++ e.reason.message

/-- How many bytes follow a first byte, and the least and the greatest the next one may be. -/
def following (b : UInt8) : Option (Nat × Nat × Nat) :=
  let n := b.toNat
  if n < 0x80 then some (0, 0x80, 0xBF)
  else if n < 0xC2 then none
  else if n < 0xE0 then some (1, 0x80, 0xBF)
  else if n == 0xE0 then some (2, 0xA0, 0xBF)
  else if n == 0xED then some (2, 0x80, 0x9F)
  else if n < 0xF0 then some (2, 0x80, 0xBF)
  else if n == 0xF0 then some (3, 0x90, 0xBF)
  else if n < 0xF4 then some (3, 0x80, 0xBF)
  else if n == 0xF4 then some (3, 0x80, 0x8F)
  else none

/-- The part of a character that its first byte holds, when `count` bytes follow. -/
def leadValue (b : UInt8) (count : Nat) : Nat :=
  match count with
  | 0 => b.toNat
  | 1 => b.toNat - 0xC0
  | 2 => b.toNat - 0xE0
  | _ => b.toNat - 0xF0

/-- Where reading stands: between characters, or inside one that owes `owed` bytes. -/
structure Pending where
  first : UInt8
  position : Nat
  taken : Nat
  owed : Nat
  least : Nat
  greatest : Nat
  value : Nat

def Pending.fail (p : Pending) (reason : DecodeReason) : DecodeError :=
  ⟨p.first, p.position, p.taken, reason⟩

def decodeFrom (position : Nat) (pending : Option Pending) : Bytes → Except DecodeError Text
  | [] =>
    match pending with
    | none => .ok []
    | some p => .error (p.fail .cutShort)
  | b :: rest =>
    match pending with
    | none =>
      match following b with
      | none => .error ⟨b, position, 1, .badStart⟩
      | some (0, _, _) => (decodeFrom (position + 1) none rest).map (Char.ofNat b.toNat :: ·)
      | some (owed, least, greatest) =>
        decodeFrom (position + 1)
          (some ⟨b, position, 1, owed, least, greatest, leadValue b owed⟩) rest
    | some p =>
      if b.toNat < p.least || p.greatest < b.toNat then .error (p.fail .badContinuation)
      else
        let value := p.value * 64 + (b.toNat - 0x80)
        if p.owed == 1 then (decodeFrom (position + 1) none rest).map (Char.ofNat value :: ·)
        else
          decodeFrom (position + 1)
            (some { p with
              taken := p.taken + 1, owed := p.owed - 1, least := 0x80, greatest := 0xBF, value })
            rest

def decode (bytes : Bytes) : Except DecodeError Text := decodeFrom 0 none bytes

def plainLineBreaks : Text → Text
  | [] => []
  | '\r' :: '\n' :: r => '\n' :: plainLineBreaks r
  | c :: r => (if c == '\r' then '\n' else c) :: plainLineBreaks r

def isShown (c : Char) : Bool :=
  let n := c.toNat
  (32 ≤ n && n < 127) || (161 ≤ n && n != 0xAD && !isBlank c && !(0xE000 ≤ n && n ≤ 0xF8FF) &&
    !(0x200B ≤ n && n ≤ 0x200F) && !(0x202A ≤ n && n ≤ 0x202E) && !(0x2060 ≤ n && n ≤ 0x206F) &&
    n != 0xFEFF)

def hexadecimal (width n : Nat) : Text :=
  let digits := Nat.toDigits 16 n
  List.replicate (width - digits.length) '0' ++ digits

/-- A character inside quotes, escaped if it could not be told apart otherwise. -/
def shownChar (quote c : Char) : Text :=
  if c == '\\' || c == quote then ['\\', c]
  else if c == '\n' then ['\\', 'n']
  else if c == '\r' then ['\\', 'r']
  else if c == '\t' then ['\\', 't']
  else if isShown c then [c]
  else if c.toNat < 0x100 then "\\x" ++ hexadecimal 2 c.toNat
  else if c.toNat < 0x10000 then "\\u" ++ hexadecimal 4 c.toNat
  else "\\U" ++ hexadecimal 8 c.toNat

/-- A text in quotes, as messages name files: double quotes stand around a text that holds a
single one and no double one. -/
def shown (t : Text) : Text :=
  let quote := if t.contains '\'' && !t.contains '"' then '"' else '\''
  quote :: t.flatMap (shownChar quote) ++ [quote]

end ViewForge.Text
