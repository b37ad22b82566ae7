import Aerial.Json.Error
import Aerial.Octets

/-! # The letters of JSON, read and written

What all readers share are the space between tokens, the literals, and the escapes in
a string. The text of the writer is compact: it has no space between tokens, and
members stand in the order given. In a string it escapes the quote, the backslash and
bytes below 32, and leaves every other byte as it is. -/

namespace Aerial.Json

/-! ## Reading -/

/-- Space, tab, line feed and carriage return may stand between tokens. -/
def isSpace (b : UInt8) : Bool := b = 32 || b = 9 || b = 10 || b = 13

def skipSpace : Octets → Octets := List.dropWhile isSpace

/-- Reads the letters of a literal one by one. -/
def spell : (word : Octets) → Octets → Except ReadError Octets
  | [], s => .ok s
  | _ :: _, [] => .error .incomplete
  | w :: word, c :: s => if c = w then spell word s else .error .malformed

/-- `null`, `true` and `false` after their first letter. -/
def ull : Octets := [117, 108, 108]
def rue : Octets := [114, 117, 101]
def alse : Octets := [97, 108, 115, 101]

/-- The value of a hexadecimal digit. -/
def hexDigit? (b : UInt8) : Option Nat :=
  if 48 ≤ b ∧ b ≤ 57 then some (b.toNat - 48)
  else if 97 ≤ b ∧ b ≤ 102 then some (b.toNat - 87)
  else if 65 ≤ b ∧ b ≤ 70 then some (b.toNat - 55)
  else none

/-- The byte a one-letter escape stands for. -/
def simpleEscape? (b : UInt8) : Option UInt8 :=
  if b = 34 ∨ b = 92 ∨ b = 47 then some b
  else if b = 98 then some 8
  else if b = 102 then some 12
  else if b = 110 then some 10
  else if b = 114 then some 13
  else if b = 116 then some 9
  else none

/-- A fault at digit `index` of a `\u` escape. The four digits are taken as one: with
fewer bytes left the text is incomplete, whatever they are. -/
def badHex (index : Nat) (after : Octets) : ReadError :=
  if after.length + index < 3 then .incomplete else .malformed

/-! ## Writing -/

def lowerHex (n : Nat) : UInt8 := UInt8.ofNat (if n < 10 then 48 + n else 87 + n)

def escapeByte (b : UInt8) : Octets :=
  if b = 34 then [92, 34]
  else if b = 92 then [92, 92]
  else if b = 8 then [92, 98]
  else if b = 9 then [92, 116]
  else if b = 10 then [92, 110]
  else if b = 12 then [92, 102]
  else if b = 13 then [92, 114]
  else if b < 32 then [92, 117, 48, 48, lowerHex (b.toNat / 16), lowerHex (b.toNat % 16)]
  else [b]

def writeText (s : String) : Octets := 34 :: (Octets.ofString s).flatMap escapeByte ++ [34]

def writeFlag (b : Bool) : Octets := Octets.ofString (if b then "true" else "false")

/-- Items with commas between them. -/
def commaSeparated (items : List Octets) : Octets := List.intercalate [44] items

def writeMember (key : String) (value : Octets) : Octets := writeText key ++ 58 :: value

def writeObject (members : List (String × Octets)) : Octets :=
  123 :: commaSeparated (members.map fun m => writeMember m.1 m.2) ++ [125]

def writeArray (items : List Octets) : Octets := 91 :: commaSeparated items ++ [93]

end Aerial.Json
