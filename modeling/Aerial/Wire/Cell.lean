import Aerial.Json.Record
import Aerial.Json.Lexeme
import Aerial.Notice
import Aerial.Request

/-! # Cells

What a member of a record on the wire may hold. -/

namespace Aerial.Wire
open Aerial.Json

inductive Cell where
  | text (s : String)
  | degrees (a : Degrees)
  | flag (b : Bool)
  /-- A heading that may be `null`. -/
  | degrees? (a : Option Degrees)
  | kind (k : Notice.Kind)
  | status (s : Status)

namespace Cell

def text? : Cell → Option String
  | text s => some s
  | _ => none

def heading? : Cell → Option Degrees
  | degrees a => some a
  | _ => none

def flag? : Cell → Option Bool
  | flag b => some b
  | _ => none

def kind? : Cell → Option Notice.Kind
  | kind k => some k
  | _ => none

def status? : Cell → Option Status
  | status s => some s
  | _ => none

/-- A heading that is absent, `null`, or given. -/
def optionalHeading : Option Cell → Option Degrees
  | some (degrees? a) => a
  | _ => none

/-- A flag that counts as lowered when absent. -/
def optionalFlag : Option Cell → Bool
  | some (flag b) => b
  | _ => false

end Cell

abbrev Read (α : Type) := Octets → Except ReadError (α × Octets)

def Read.map {α β : Type} (f : α → β) (read : Read α) : Read β := fun s => do
  let (a, rest) ← read s
  pure (f a, rest)

def textMember (name : String) : Member Cell := ⟨name, Read.map .text readText⟩
def degreesMember (name : String) : Member Cell := ⟨name, Read.map .degrees readDegrees⟩
def flagMember (name : String) : Member Cell := ⟨name, Read.map .flag readFlag⟩
def optionalDegreesMember (name : String) : Member Cell := ⟨name, Read.map .degrees? readDegrees?⟩

end Aerial.Wire
