import Aerial.Json.Lexeme

/-! # Strings

`Text.scan` reads a string after its opening quote, byte by byte, and gives its bytes
with escapes replaced. The phase says what the next byte means. Surrogates must come
in pairs, control bytes must be escaped, and the bytes as a whole must be UTF-8. -/

namespace Aerial.Json.Text

inductive Phase where
  | plain
  | escaped
  /-- In a `\u` escape: the first half of a pair, the digits read, their value. -/
  | hex (lead : Option Nat) (index value : Nat)
  /-- After the first half of a pair: a backslash must follow. -/
  | lead (value : Nat)
  /-- After that backslash: a `u` must follow. -/
  | leadEscaped (value : Nat)

def isLead (n : Nat) : Bool := 0xD800 ≤ n && n < 0xDC00
def isTrail (n : Nat) : Bool := 0xDC00 ≤ n && n < 0xE000

def bytesOf (code : Nat) : Octets := String.utf8EncodeChar (Char.ofNat code)

/-- What a complete `\u` escape amounts to: bytes, or a first half that waits. -/
def unit (lead : Option Nat) (value : Nat) : Except ReadError (Octets × Phase) :=
  match lead with
  | some high =>
    if isTrail value then
      .ok (bytesOf ((high - 0xD800) * 1024 + (value - 0xDC00) + 0x10000), .plain)
    else .error .malformed
  | none =>
    if isTrail value then .error .malformed
    else if isLead value then .ok ([], .lead value)
    else .ok (bytesOf value, .plain)

def scan : Phase → Octets → Except ReadError (Octets × Octets)
  | _, [] => .error .incomplete
  | .plain, c :: s =>
    if c = 34 then .ok ([], s)
    else if c = 92 then scan .escaped s
    else if c < 32 then .error .malformed
    else do
      let (t, rest) ← scan .plain s
      pure (c :: t, rest)
  | .escaped, c :: s =>
    if c = 117 then scan (.hex none 0 0) s
    else match simpleEscape? c with
      | none => .error .malformed
      | some b => do
        let (t, rest) ← scan .plain s
        pure (b :: t, rest)
  | .hex lead index value, c :: s =>
    match hexDigit? c with
    | none => .error (badHex index s)
    | some d =>
      if index < 3 then scan (.hex lead (index + 1) (value * 16 + d)) s
      else do
        let (bytes, phase) ← unit lead (value * 16 + d)
        let (t, rest) ← scan phase s
        pure (bytes ++ t, rest)
  | .lead value, c :: s => if c = 92 then scan (.leadEscaped value) s else .error .malformed
  | .leadEscaped value, c :: s =>
    if c = 117 then scan (.hex (some value) 0 0) s else .error .malformed

/-- A string after its opening quote. -/
def read (s : Octets) : Except ReadError (String × Octets) := do
  let (bytes, rest) ← scan .plain s
  match Octets.text? bytes with
  | some t => pure (t, rest)
  | none => throw .malformed

end Aerial.Json.Text
