import Aerial.Json.Lexeme

/-! # Skipping a value

The value of an unknown member is passed over. It must have the shape of JSON, to any
depth of nesting, but its strings may hold any bytes and its numbers any magnitude.
The skipper is a machine over the bytes with a stack of open brackets: `step` takes
one byte, and a run ends with the byte that closes the value, or before the first
byte that is no longer part of it. -/

namespace Aerial.Json.Skip

inductive Bracket where
  | array
  | object
deriving DecidableEq

inductive Numeral where
  | sign
  | zero
  | whole
  | point
  | fraction
  | letter
  | powerSign
  | power
deriving DecidableEq

inductive Mode where
  | value
  /-- After an opening `[`. -/
  | firstElement
  /-- After an opening brace. -/
  | firstKey
  | key
  | colon
  /-- After a value inside a bracket. -/
  | after
  | word (left : Octets)
  | text (isKey : Bool)
  | escaped (isKey : Bool)
  | hex (isKey : Bool) (index : Nat)
  | number (n : Numeral)

inductive Step where
  | go (mode : Mode) (stack : List Bracket)
  /-- The value ended with this byte. -/
  | closed
  /-- The value ended before this byte. -/
  | past
  | fail
  /-- A fault at a digit of a `\u` escape. -/
  | failHex (index : Nat)

/-- A value has ended, together with its last byte. -/
def ended : List Bracket → Step
  | [] => .closed
  | stack => .go .after stack

/-- The first byte of a value. -/
def begin (stack : List Bracket) (c : UInt8) : Step :=
  if isSpace c then .go .value stack
  else if c = 110 then .go (.word ull) stack
  else if c = 116 then .go (.word rue) stack
  else if c = 102 then .go (.word alse) stack
  else if c = 45 then .go (.number .sign) stack
  else if c = 48 then .go (.number .zero) stack
  else if Octets.isDigit c then .go (.number .whole) stack
  else if c = 34 then .go (.text false) stack
  else if c = 91 then .go .firstElement (.array :: stack)
  else if c = 123 then .go .firstKey (.object :: stack)
  else .fail

/-- A byte after a value that stands in a bracket. -/
def between (bracket : Bracket) (stack : List Bracket) (c : UInt8) : Step :=
  if isSpace c then .go .after (bracket :: stack)
  else match bracket with
    | .array =>
      if c = 44 then .go .value (bracket :: stack) else if c = 93 then ended stack else .fail
    | .object =>
      if c = 44 then .go .key (bracket :: stack) else if c = 125 then ended stack else .fail

/-- How a numeral goes on with a byte; `none` if the byte is not part of it. -/
def Numeral.next (n : Numeral) (c : UInt8) : Option Numeral :=
  let digit := Octets.isDigit c
  let isLetter := c = 101 || c = 69
  match n with
  | .sign => if c = 48 then some .zero else if digit then some .whole else none
  | .zero => if c = 46 then some .point else if isLetter then some .letter else none
  | .whole =>
    if digit then some .whole
    else if c = 46 then some .point else if isLetter then some .letter else none
  | .point => if digit then some .fraction else none
  | .fraction => if digit then some .fraction else if isLetter then some .letter else none
  | .letter =>
    if c = 43 || c = 45 then some .powerSign else if digit then some .power else none
  | .powerSign => if digit then some .power else none
  | .power => if digit then some .power else none

/-- Whether a numeral may end here. -/
def Numeral.complete : Numeral → Bool
  | .zero | .whole | .fraction | .power => true
  | .sign | .point | .letter | .powerSign => false

/-- A byte that is not part of the numeral before it. -/
def afterNumeral (n : Numeral) (stack : List Bracket) (c : UInt8) : Step :=
  if !n.complete || n = .zero && Octets.isDigit c then .fail
  else match stack with
    | [] => .past
    | bracket :: stack => between bracket stack c

def step (mode : Mode) (stack : List Bracket) (c : UInt8) : Step :=
  match mode with
  | .value => begin stack c
  | .firstElement =>
    if isSpace c then .go .firstElement stack
    else if c = 93 then ended stack.tail else begin stack c
  | .firstKey =>
    if isSpace c then .go .firstKey stack
    else if c = 34 then .go (.text true) stack
    else if c = 125 then ended stack.tail else .fail
  | .key =>
    if isSpace c then .go .key stack else if c = 34 then .go (.text true) stack else .fail
  | .colon =>
    if isSpace c then .go .colon stack else if c = 58 then .go .value stack else .fail
  | .after =>
    match stack with
    | [] => .past
    | bracket :: stack => between bracket stack c
  | .word left =>
    match left with
    | [] => .fail
    | [w] => if c = w then ended stack else .fail
    | w :: left => if c = w then .go (.word left) stack else .fail
  | .text isKey =>
    if c = 34 then (if isKey then .go .colon stack else ended stack)
    else if c = 92 then .go (.escaped isKey) stack
    else if c < 32 then .fail else .go (.text isKey) stack
  | .escaped isKey =>
    if c = 117 then .go (.hex isKey 0) stack
    else if (simpleEscape? c).isSome then .go (.text isKey) stack else .fail
  | .hex isKey index =>
    if (hexDigit? c).isNone then .failHex index
    else if index < 3 then .go (.hex isKey (index + 1)) stack else .go (.text isKey) stack
  | .number n =>
    match n.next c with
    | some n => .go (.number n) stack
    | none => afterNumeral n stack c

/-- The text ends in this mode. Only a numeral that may end here ends a value. -/
def atEnd (mode : Mode) (stack : List Bracket) : Except ReadError Octets :=
  match mode with
  | .number n =>
    if !n.complete then .error .malformed
    else if stack = [] then .ok [] else .error .incomplete
  | _ => .error .incomplete

def run : Mode → List Bracket → Octets → Except ReadError Octets
  | mode, stack, [] => atEnd mode stack
  | mode, stack, c :: s =>
    match step mode stack c with
    | .go mode stack => run mode stack s
    | .closed => .ok s
    | .past => .ok (c :: s)
    | .fail => .error .malformed
    | .failHex index => .error (badHex index s)

/-- What is left after the value at the front of `s`. -/
def skipValue (s : Octets) : Except ReadError Octets := run .value [] s

end Aerial.Json.Skip
