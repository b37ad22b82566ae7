import Aerial.Json.Scalar
import Aerial.Json.Skip

/-! # Records and lists

A record is an object with known members, in any order, or an array of their values
in the declared order. Members with other keys are skipped. What was read is a list
of named cells, from which the record is assembled by name; the order of the members
is therefore of no account once they are read. -/

namespace Aerial.Json

variable {γ α : Type}

/-- A member that a record knows. -/
structure Member (γ : Type) where
  name : String
  read : Octets → Except ReadError (γ × Octets)

abbrev Cells (γ : Type) := List (String × γ)

/-! ## The object form -/

/-- One member after the opening quote of its key. A known key may come only once, and
that is found out before its value is looked at. -/
def readMember (members : List (Member γ)) (cells : Cells γ) (s : Octets) :
    Except ReadError (Cells γ × Octets) := do
  let (key, s) ← Text.read s
  match members.find? (·.name = key) with
  | some m =>
    if (cells.lookup key).isSome then throw (.unfit (.duplicate key))
    let s ← readColon s
    let (c, s) ← m.read s
    pure (cells ++ [(key, c)], s)
  | none =>
    let s ← readColon s
    let s ← Skip.skipValue s
    pure (cells, s)

/-- The text after the opening quote of the next key, if there is a next key. -/
def nextKey (first : Bool) (s : Octets) : Except ReadError (Option Octets) :=
  match skipSpace s with
  | [] => .error .incomplete
  | c :: rest =>
    if c = 125 then .ok none
    else if first then (if c = 34 then .ok (some rest) else .error .malformed)
    else if c = 44 then
      match skipSpace rest with
      | [] => .error .incomplete
      | c :: rest => if c = 34 then .ok (some rest) else .error .malformed
    else .error .malformed

/-- All members up to the closing brace, which is left in place. There is a round for each
byte of `rounds`; a member takes several bytes, so the text itself has enough of them. -/
def readMembers (members : List (Member γ)) :
    (rounds : Octets) → (first : Bool) → Cells γ → Octets → Except ReadError (Cells γ × Octets)
  | [], _, _, _ => .error .incomplete
  | _ :: rounds, first, cells, s => do
    match ← nextKey first s with
    | none => pure (cells, skipSpace s)
    | some s =>
      let (cells, s) ← readMember members cells s
      readMembers members rounds false cells s

/-! ## The array form -/

/-- The text of the next element, if there is one before the closing bracket. -/
def nextElement (first : Bool) (s : Octets) : Except ReadError (Option Octets) :=
  match skipSpace s with
  | [] => .error .incomplete
  | c :: rest =>
    if c = 93 then .ok none
    else if first then .ok (some (c :: rest))
    else if c = 44 then
      match skipSpace rest with
      | [] => .error .incomplete
      | c :: rest => if c = 93 then .error .malformed else .ok (some (c :: rest))
    else .error .malformed

/-- Values for the members in their declared order, until there are no more. -/
def readElements : (members : List (Member γ)) → (first : Bool) → Octets →
    Except ReadError (Cells γ × Octets)
  | [], _, s => .ok ([], s)
  | m :: members, first, s => do
    match ← nextElement first s with
    | none => pure ([], s)
    | some s =>
      let (c, s) ← m.read s
      let (cells, s) ← readElements members false s
      pure ((m.name, c) :: cells, s)

/-- The closing bracket of an array. -/
def readArrayEnd (s : Octets) : Except ReadError Octets :=
  match skipSpace s with
  | [] => .error .incomplete
  | c :: rest => if c = 93 then .ok rest else .error .malformed

/-! ## Records -/

/-- A kind of record: its known members, whether they may be left out, and how it is
assembled from what was read. -/
structure Record (γ α : Type) where
  title : String
  members : List (Member γ)
  optional : Bool
  assemble : (String → Option γ) → Except Complaint α

namespace Record

variable (r : Record γ α)

def build (cells : Cells γ) : Except ReadError α :=
  match r.assemble fun key => cells.lookup key with
  | .ok a => .ok a
  | .error why => .error (.unfit why)

/-- A record after its opening brace. -/
def readObject (s : Octets) : Except ReadError (α × Octets) := do
  let (cells, s) ← readMembers r.members s true [] s
  let a ← r.build cells
  pure (a, s.drop 1)

/-- A record after its opening bracket. -/
def readArray (s : Octets) : Except ReadError (α × Octets) := do
  let (cells, s) ← readElements r.members true s
  if !r.optional && cells.length < r.members.length then
    throw (.unfit (.wrongLength cells.length r.title r.members.length))
  let a ← r.build cells
  pure (a, ← readArrayEnd s)

def read (s : Octets) : Except ReadError (α × Octets) :=
  match skipSpace s with
  | [] => .error .incomplete
  | c :: rest =>
    if c = 123 then r.readObject rest
    else if c = 91 then r.readArray rest
    else .error (mismatch (.record r.title) (c :: rest))

end Record

/-- A member that must be present and of the right kind. -/
def need (get : String → Option γ) (name : String) (as : γ → Option α) : Except Complaint α :=
  match (get name).bind as with
  | some a => .ok a
  | none => .error (.missing name)

/-! ## Lists -/

/-- The elements of an array up to its closing bracket, with a round for each byte of
`rounds`. -/
def readItems (read : Octets → Except ReadError (α × Octets)) :
    (rounds : Octets) → (first : Bool) → Octets → Except ReadError (List α × Octets)
  | [], _, _ => .error .incomplete
  | _ :: rounds, first, s => do
    match ← nextElement first s with
    | none => pure ([], s)
    | some s =>
      let (a, s) ← read s
      let (as, s) ← readItems read rounds false s
      pure (a :: as, s)

def readList (read : Octets → Except ReadError (α × Octets)) (s : Octets) :
    Except ReadError (List α × Octets) :=
  match skipSpace s with
  | 91 :: rest => do
    let (as, s) ← readItems read rest true rest
    pure (as, ← readArrayEnd s)
  | s => .error (mismatch .list s)

/-- A whole text: one value with nothing but space after it. -/
def decode (read : Octets → Except ReadError (α × Octets)) (s : Octets) : Except ReadError α := do
  let (a, rest) ← read s
  if skipSpace rest = [] then pure a else throw .malformed

end Aerial.Json
