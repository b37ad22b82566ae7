import Aerial.Json.Lexeme

/-! # What renders a value

The grammar of JSON as relations between what is said and the bytes that say it. Nothing here is
told from a reader: space goes between any two tokens, a character of a string has several
spellings, members come in the order of a list of keys and texts. A text that is a value of any
kind, to any depth, is an `IsValue`; `IsObject` and `IsArray` name the values that an object or an
array holds by their texts. -/

namespace Aerial.Json

variable {ι κ : Type}

/-- Space between two tokens, or none. -/
def Gap (w : Octets) : Prop := ∀ b ∈ w, isSpace b = true

/-! ## Strings -/

def upperHex (n : Nat) : UInt8 := UInt8.ofNat (if n < 10 then 48 + n else 55 + n)

/-- A hexadecimal digit, in either case. -/
def SpellsDigit (n : Nat) (b : UInt8) : Prop := n < 16 ∧ (b = lowerHex n ∨ b = upperHex n)

/-- The escape of a 16-bit number by its four hexadecimal digits. -/
inductive SpellsUnit : Nat → Octets → Prop
  | digits {i j k l : Nat} {a b c d : UInt8} (hi : SpellsDigit i a) (hj : SpellsDigit j b)
      (hk : SpellsDigit k c) (hl : SpellsDigit l d) :
      SpellsUnit (((i * 16 + j) * 16 + k) * 16 + l) [92, 117, a, b, c, d]

/-- The letters that may follow a backslash, and the codes of what they stand for. -/
def shortEscapes : List (UInt8 × Nat) :=
  [(34, 34), (92, 92), (47, 47), (98, 8), (102, 12), (110, 10), (114, 13), (116, 9)]

/-- A character as itself, by its letter, by its number, or by a pair of surrogates. -/
inductive SpellsChar (c : Char) : Octets → Prop
  | plain (printable : 32 ≤ c.toNat) (quote : c.toNat ≠ 34) (backslash : c.toNat ≠ 92) :
      SpellsChar c (String.utf8EncodeChar c)
  | short {letter : UInt8} (h : (letter, c.toNat) ∈ shortEscapes) : SpellsChar c [92, letter]
  | unit {w : Octets} (h : SpellsUnit c.toNat w) : SpellsChar c w
  | pair {high low : Nat} {w v : Octets} (hhigh : high < 1024) (hlow : low < 1024)
      (code : c.toNat = 0x10000 + high * 1024 + low) (hw : SpellsUnit (0xD800 + high) w)
      (hv : SpellsUnit (0xDC00 + low) v) : SpellsChar c (w ++ v)

inductive SpellsChars : List Char → Octets → Prop
  | nil : SpellsChars [] []
  | cons {c : Char} {cs : List Char} {w v : Octets} (hc : SpellsChar c w)
      (hcs : SpellsChars cs v) : SpellsChars (c :: cs) (w ++ v)

/-- A string that says `t`, with its quotes. -/
def SpellsText (t : String) (w : Octets) : Prop :=
  ∃ body, SpellsChars t.toList body ∧ w = 34 :: (body ++ [34])

/-- The inside of a string. What it says is not asked: a surrogate may stand alone. -/
inductive IsBody : Octets → Prop
  | nil : IsBody []
  | byte {b : UInt8} {w : Octets} (printable : 32 ≤ b) (quote : b ≠ 34) (backslash : b ≠ 92)
      (h : IsBody w) : IsBody (b :: w)
  | short {letter : UInt8} {code : Nat} {w : Octets} (hcode : (letter, code) ∈ shortEscapes)
      (h : IsBody w) : IsBody (92 :: letter :: w)
  | unit {n : Nat} {u w : Octets} (hu : SpellsUnit n u) (h : IsBody w) : IsBody (u ++ w)

def IsQuoted (w : Octets) : Prop := ∃ body, IsBody body ∧ w = 34 :: (body ++ [34])

/-! ## Numbers -/

/-- One decimal digit or more. -/
def IsDigits (ds : Octets) : Prop := ds ≠ [] ∧ ∀ d ∈ ds, Octets.isDigit d = true

def IsFraction (w : Octets) : Prop := w = [] ∨ ∃ ds, IsDigits ds ∧ w = 46 :: ds

def IsExponent (w : Octets) : Prop :=
  w = [] ∨ ∃ letter sign ds, (letter = 101 ∨ letter = 69) ∧
    (sign = [] ∨ sign = [43] ∨ sign = [45]) ∧ IsDigits ds ∧ w = letter :: (sign ++ ds)

/-- A number. Before the point stand the digits of a natural number, with no zeros in front. -/
inductive IsNumber : Octets → Prop
  | parts {sign fraction exponent : Octets} (n : Nat) (hsign : sign = [] ∨ sign = [45])
      (hfraction : IsFraction fraction) (hexponent : IsExponent exponent) :
      IsNumber (sign ++ (Octets.ofNat n ++ (fraction ++ exponent)))

/-! ## Members and items -/

/-- A token or value with the space around it. -/
def Spaced (v w : Octets) : Prop :=
  ∃ before after, Gap before ∧ Gap after ∧ w = before ++ (v ++ after)

/-- A member of an object: what its key says, and the text of its value. -/
def RendersMember (spells : κ → Octets → Prop) (m : κ × Octets) (w : Octets) : Prop :=
  ∃ key u v, spells m.1 key ∧ Spaced key u ∧ Spaced m.2 v ∧ w = u ++ 58 :: v

/-- One item after the other, with commas between them. -/
inductive Separated (renders : ι → Octets → Prop) : List ι → Octets → Prop
  | one {i : ι} {w : Octets} (h : renders i w) : Separated renders [i] w
  | more {i : ι} {is : List ι} {w v : Octets} (h : renders i w) (rest : Separated renders is v) :
      Separated renders (i :: is) (w ++ 44 :: v)

/-- What stands in a bracket: items, or nothing but space. -/
inductive Inside (renders : ι → Octets → Prop) : List ι → Octets → Prop
  | empty {g : Octets} (h : Gap g) : Inside renders [] g
  | items {is : List ι} {w : Octets} (h : Separated renders is w) : Inside renders is w

def RendersArray (vs : List Octets) (w : Octets) : Prop :=
  ∃ inside, Inside Spaced vs inside ∧ w = 91 :: (inside ++ [93])

def RendersObject (spells : κ → Octets → Prop) (ms : List (κ × Octets)) (w : Octets) : Prop :=
  ∃ inside, Inside (RendersMember spells) ms inside ∧ w = 123 :: (inside ++ [125])

/-! ## Values -/

def writeNull : Octets := Octets.ofString "null"

/-- A JSON value of any kind. -/
inductive IsValue : Octets → Prop
  | null : IsValue writeNull
  | flag (b : Bool) : IsValue (writeFlag b)
  | number {w : Octets} (h : IsNumber w) : IsValue w
  | text {w : Octets} (h : IsQuoted w) : IsValue w
  | array {vs : List Octets} {w : Octets} (h : RendersArray vs w) (values : ∀ v ∈ vs, IsValue v) :
      IsValue w
  | object {ms : List (Octets × Octets)} {w : Octets} (h : RendersObject Eq ms w)
      (keys : ∀ m ∈ ms, IsQuoted m.1) (values : ∀ m ∈ ms, IsValue m.2) : IsValue w

/-- An array of values, by their texts. -/
structure IsArray (vs : List Octets) (w : Octets) : Prop where
  renders : RendersArray vs w
  values : ∀ v ∈ vs, IsValue v

/-- An object, by what its keys say and the texts of its values. -/
structure IsObject (ms : List (String × Octets)) (w : Octets) : Prop where
  renders : RendersObject SpellsText ms w
  values : ∀ m ∈ ms, IsValue m.2

end Aerial.Json
