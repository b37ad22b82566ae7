import Aerial.Decimal.Shortest
import Aerial.Text.Quoted

/-! # Why a text is not accepted

A message is read in one pass from left to right, and the first fault decides. It
is `incomplete` when the text ends inside a value, `malformed` when nothing could
continue it to a JSON text, and `unfit` when the JSON is right so far but is not
what was asked for. -/

namespace Aerial.Json

/-- What was asked for. -/
inductive Expected where
  | degrees
  | flag
  | text
  | list
  | nothing
  | record (title : String)

/-- What stood there instead. -/
inductive Found where
  | null
  | boolean (b : Bool)
  | integer (n : Int)
  | real (x : Float)
  | text (s : String)
  | array
  | object

inductive Complaint where
  | wrongType (found : Found) (expected : Expected)
  | outOfRange (n : Int)
  | wrongLength (n : Nat) (title : String) (fields : Nat)
  | unknownVariant (given : String) (known : List String)
  | missing (field : String)
  | duplicate (field : String)
  | noCommand

inductive ReadError where
  | incomplete
  | malformed
  | unfit (why : Complaint)

/-! ## Wording -/

def ticked (s : String) : String := "\x60" ++ s ++ "\x60"

def Expected.message : Expected → String
  | degrees => "i32"
  | flag => "a boolean"
  | text => "a string"
  | list => "a sequence"
  | nothing => "unit"
  | record title => s!"struct {title}"

def Found.message : Found → String
  | null => "null"
  | boolean b => "boolean " ++ ticked (if b then "true" else "false")
  | integer n => "integer " ++ ticked s!"{n}"
  | real x => "floating point " ++ ticked (Decimal.render Decimal.plain x)
  | text s => "string " ++ Text.quoted s
  | array => "sequence"
  | object => "map"

def Complaint.message : Complaint → String
  | wrongType found expected => s!"invalid type: {found.message}, expected {expected.message}"
  | outOfRange n =>
    s!"invalid value: {(Found.integer n).message}, expected {Expected.degrees.message}"
  | wrongLength n title fields =>
    s!"invalid length {n}, expected struct {title} with {fields} elements"
  | unknownVariant given known =>
    s!"unknown variant {ticked given}, expected one of " ++ String.intercalate ", " (known.map ticked)
  | missing field => s!"missing field {ticked field}"
  | duplicate field => s!"duplicate field {ticked field}"
  | noCommand => "request contains no command"

end Aerial.Json
