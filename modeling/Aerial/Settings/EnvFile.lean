import Aerial.Settings.Environment
import Aerial.Text.Alphanumeric

/-! # The environment file

A file of `NAME=value` lines fills gaps in the environment: it never overrides a
variable that has a readable value, and of two lines for one name the first counts.
Lines may be blank or comments, values may be quoted, quotes may run over several
lines, and `$NAME` stands for a variable. The first line that breaks the rules ends
the file; what stood before it counts. A value that no environment can hold makes the
file unusable as a whole. -/

namespace Aerial.Settings.EnvFile

/-- White space in the sense of the file. -/
def isWhite (c : Char) : Bool :=
  let n := c.toNat
  (9 ≤ n && n ≤ 13) || n = 32 || n = 0x85 || n = 0xA0 || n = 0x1680 || (0x2000 ≤ n && n ≤ 0x200A)
    || n = 0x2028 || n = 0x2029 || n = 0x202F || n = 0x205F || n = 0x3000

def skipWhite : List Char → List Char := List.dropWhile isWhite

/-! ## Logical lines -/

/-- Where a logical line stands with its quotes. -/
inductive Quoting where
  | complete
  | white
  | escape
  | strong
  | strongEscape
  | weak
  | weakEscape
deriving DecidableEq

def Quoting.plain (c : Char) : Quoting :=
  if c = '\\' then escape else if c = '"' then weak else if c = '\'' then strong else complete

def Quoting.next (q : Quoting) (c : Char) : Quoting :=
  match q with
  | complete => if isWhite c && c ≠ '\n' && c ≠ '\r' then white else plain c
  | white => plain c
  | escape => complete
  | weak => if c = '\\' then weakEscape else if c = '"' then complete else weak
  | weakEscape => weak
  | strong => if c = '\\' then strongEscape else if c = '\'' then complete else strong
  | strongEscape => strong

/-- Reads one line on from `q`. The first part is what stands before a comment, if there
is one; a comment begins with a hash after white space. -/
def scanLine : Quoting → List Char → Option (List Char) × Quoting
  | q, [] => (none, q)
  | q, c :: cs =>
    if q = .white ∧ c = '#' then (some [], q)
    else
      let (before, last) := scanLine (q.next c) cs
      (before.map (c :: ·), last)

/-- Drops a line feed at the end, and a carriage return before it. -/
def chop (cs : List Char) : List Char :=
  match cs.reverse with
  | '\n' :: '\r' :: r => r.reverse
  | '\n' :: r => r.reverse
  | _ => cs

/-- The lines of a file, each with its line feed. -/
def splitLines : Octets → List Octets
  | [] => []
  | b :: bs =>
    if b = 10 then [b] :: splitLines bs
    else match splitLines bs with
      | [] => [[b]]
      | line :: lines => (b :: line) :: lines

/-! ## Values -/

inductive Place where
  | bare
  | weak
  | strong
  | escaped (inWeak : Bool)
  /-- In a name after a dollar sign, collected backwards. -/
  | name (braced inWeak : Bool) (collected : List Char)
  /-- After a value, where only a comment may follow. -/
  | past

/-- What `$NAME` stands for: nothing if no entry begins so. -/
def substitute (env : Environment) (collected : List Char) : List Char :=
  ((env.restText? collected.reverse).getD "").toList

def escapedChar? (c : Char) : Option Char :=
  if c = '\\' ∨ c = '\'' ∨ c = '"' ∨ c = '$' ∨ c = ' ' then some c
  else if c = 'n' then some '\n' else none

def quoting (inWeak : Bool) : Place := if inWeak then .weak else .bare

/-- The value that the rest of a line spells; `none` if it breaks the rules. -/
def value? (env : Environment) : Place → List Char → Option (List Char)
  | .bare, [] | .past, [] | .escaped false, [] => some []
  | .name false false n, [] => some (substitute env n)
  | _, [] => none
  | .past, c :: cs =>
    if c = ' ' ∨ c = '\t' then value? env .past cs else if c = '#' then some [] else none
  | .escaped inWeak, c :: cs =>
    match escapedChar? c with
    | some e => (value? env (quoting inWeak) cs).map (e :: ·)
    | none => none
  | .strong, c :: cs =>
    if c = '\'' then value? env .bare cs else (value? env .strong cs).map (c :: ·)
  | .name braced inWeak n, c :: cs =>
    if Text.isAlphanumeric c then value? env (.name braced inWeak (c :: n)) cs
    else if braced then
      if c = '\x7d' then (value? env (quoting inWeak) cs).map (substitute env n ++ ·)
      else value? env (.name true inWeak (c :: n)) cs
    else if c = '\x7b' ∧ n = [] then value? env (.name true inWeak []) cs
    else if c = '$' then (value? env (.name false inWeak []) cs).map (substitute env n ++ ·)
    else (value? env (quoting inWeak) cs).map ((substitute env n ++ [c]) ++ ·)
  | .weak, c :: cs =>
    if c = '$' then value? env (.name false true []) cs
    else if c = '"' then value? env .bare cs
    else if c = '\\' then value? env (.escaped true) cs
    else (value? env .weak cs).map (c :: ·)
  | .bare, c :: cs =>
    if c = '$' then value? env (.name false false []) cs
    else if c = '\'' then value? env .strong cs
    else if c = '"' then value? env .weak cs
    else if c = '\\' then value? env (.escaped false) cs
    else if c = ' ' ∨ c = '\t' then value? env .past cs
    else (value? env .bare cs).map (c :: ·)

/-! ## Entries -/

def isKeyStart (c : Char) : Bool := c.isAlpha || c = '_'
def isKeyChar (c : Char) : Bool := c.isAlphanum || c = '_' || c = '.'

/-- A name and what follows it. -/
def key? (cs : List Char) : Option (String × List Char) :=
  match cs with
  | c :: _ =>
    if isKeyStart c then some (String.ofList (cs.takeWhile isKeyChar), cs.dropWhile isKeyChar)
    else none
  | [] => none

def afterEquals? (cs : List Char) : Option (List Char) :=
  match cs with
  | '=' :: rest => some rest
  | _ => none

/-- The name of a line and the text after its equals sign. `export` may stand before the
name, and may be a name itself. -/
def assignment? (cs : List Char) : Option (String × List Char) := do
  let (key, rest) ← key? cs
  let rest := skipWhite rest
  if key = "export" then
    match afterEquals? rest with
    | some rest => pure (key, rest)
    | none =>
      let (key, rest) ← key? rest
      pure (key, ← afterEquals? (skipWhite rest))
  else pure (key, ← afterEquals? rest)

def isBlankOrComment (cs : List Char) : Bool :=
  match cs with
  | [] => true
  | c :: _ => c = '#'

inductive Line where
  | nothing
  | entry (name value : String)
  | broken

def parseLine (env : Environment) (cs : List Char) : Line :=
  let cs := skipWhite (cs.reverse.dropWhile isWhite).reverse
  if isBlankOrComment cs then .nothing
  else match assignment? cs with
    | none => .broken
    | some (key, rest) =>
      let rest := skipWhite rest
      if isBlankOrComment rest then .entry key ""
      else match value? env .bare rest with
        | some v => .entry key (String.ofList v)
        | none => .broken

/-- Works off the lines. `begun` is the part of a logical line read so far, backwards; it
is open at a quote, so it cannot be a comment. -/
def loadLines (env : Environment) (begun : List Char) (q : Quoting) :
    List Octets → Option Environment
  | [] => some env
  | line :: lines =>
    match Octets.text? line with
    | none => some env
    | some text =>
      let cs := text.toList
      if begun = [] ∧ (skipWhite cs).head? = some '#' then loadLines env [] .complete lines
      else
        let take (logical : List Char) : Option Environment :=
          match parseLine env (begun.reverseAux logical) with
          | .broken => some env
          | .nothing => loadLines env [] .complete lines
          | .entry name value =>
            match env.supply? name value with
            | none => none
            | some env => loadLines env [] .complete lines
        match scanLine q cs with
        | (some before, _) => take before
        | (none, .complete) => take (chop cs)
        | (none, q) => loadLines env (cs.reverseAux begun) q lines

/-- The environment with its gaps filled from a file. A byte order mark is skipped. -/
def load? (file : Octets) (env : Environment) : Option Environment :=
  let bytes := match file with
    | 0xEF :: 0xBB :: 0xBF :: rest => rest
    | file => file
  loadLines env [] .complete (splitLines bytes)

end Aerial.Settings.EnvFile
