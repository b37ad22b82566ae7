/-! # Questions to a web site

A question names a method and a target and carries headers. Its target is a path, an
authority alone (`host:80`) or both behind a scheme (`scheme://host:80/info`), and a query
and a fragment may follow a path. A question with a part that cannot be spelled so does
not exist: `Question.create?` answers `none`. -/

namespace Aerial.Site

/-! ## Tokens and header values -/

def isTokenChar (c : Char) : Bool :=
  c.isAlphanum || ("!#$%&'*+-.^_\x60|~".toList).contains c

/-- Methods and the names of headers are tokens. -/
def isToken (s : String) : Bool := s ≠ "" && s.toList.all isTokenChar

def headerNameLimit : Nat := 65535

/-- Header values hold no control characters but tabs. -/
def isHeaderChar (c : Char) : Bool := c = '\t' || (' ' ≤ c && c ≠ '\x7f')

def isHeader (name value : String) : Bool :=
  isToken name && name.utf8ByteSize ≤ headerNameLimit && value.toList.all isHeaderChar

/-! ## Paths -/

/-- What follows the path of a target begins with one of these. -/
def endsPath (c : Char) : Bool := c = '?' || c = '#'

/-- Whether a character may stand bare in a path or a query that excludes some. -/
def isBare (excluded : String) (c : Char) : Bool := ' ' < c && !excluded.toList.contains c

def isPathChar : Char → Bool := isBare "#<>?\x60"

def isQueryChar : Char → Bool := isBare "\"#<>"

/-- The path before a query and a fragment. A fragment may hold anything. -/
def pathBefore? (cs : List Char) : Option (List Char) :=
  let path := cs.takeWhile (!endsPath ·)
  let query := match cs.dropWhile (!endsPath ·) with
    | '?' :: rest => rest.takeWhile (· ≠ '#')
    | _ => []
  if path.all isPathChar && query.all isQueryChar then some path else none

/-! ## Authorities -/

inductive Brackets where
  | without
  | within
  | behind
deriving DecidableEq

/-- What has been seen of an authority, `user:word@[host]:port`. Of colons and percent signs
only those behind the last `@` or `]` matter: the others are not part of a port. -/
structure AuthorityScan where
  colons : Nat
  percent : Bool
  brackets : Brackets

def AuthorityScan.start : AuthorityScan := ⟨0, false, .without⟩

/-- The most colons in one part of an authority. -/
def colonLimit : Nat := 8

def isHostChar (c : Char) : Bool := c.isAlphanum || ("!$&'()*+,-.;=_~".toList).contains c

def AuthorityScan.next? (s : AuthorityScan) (c : Char) : Option AuthorityScan :=
  if c = ':' then
    if s.colons < colonLimit then some { s with colons := s.colons + 1 } else none
  else if c = '[' then
    if s.brackets = .without && !s.percent then some { s with brackets := .within } else none
  else if c = ']' then
    if s.brackets = .within then some ⟨0, false, .behind⟩ else none
  else if c = '@' then some { s with colons := 0, percent := false }
  else if c = '%' then some { s with percent := true }
  else if isHostChar c then some s
  else none

/-- Whether the scan may end here: its brackets are closed, and it has one port at most. -/
def AuthorityScan.complete (s : AuthorityScan) : Bool :=
  s.brackets ≠ .within && s.colons ≤ 1 && !s.percent

def isAuthority (cs : List Char) : Bool :=
  ((cs.foldlM AuthorityScan.next? .start).map AuthorityScan.complete).getD false
    && cs ≠ [] && cs.getLast? ≠ some '@'

/-! ## Targets -/

def isSchemeChar (c : Char) : Bool := c.isAlphanum || ("+-.~".toList).contains c

def schemeLimit : Nat := 64

def targetLimit : Nat := 65534

/-- The scheme of an absolute target, and what stands behind it. -/
def scheme? (target : List Char) : Option (List Char × List Char) :=
  match target.dropWhile isSchemeChar with
  | ':' :: '/' :: '/' :: rest => some (target.takeWhile isSchemeChar, rest)
  | _ => none

def inAuthority (c : Char) : Bool := c ≠ '/' && !endsPath c

/-- The path behind an authority. An absolute target always has one. -/
def absolutePath? (cs : List Char) : Option (List Char) :=
  if isAuthority (cs.takeWhile inAuthority) then
    (pathBefore? (cs.dropWhile inAuthority)).map fun path => if path = [] then ['/'] else path
  else none

/-- The path of a target, which is empty if the target is an authority alone. -/
def pathOf? (target : List Char) : Option (List Char) :=
  match target, scheme? target with
  | '/' :: _, _ => pathBefore? target
  | _, some (scheme, rest) => if scheme.length ≤ schemeLimit then absolutePath? rest else none
  | _, none => if isAuthority target then some [] else none

/-! ## Questions -/

structure Question where
  method : String
  path : String
  headers : List (String × String)

def Question.create? (method target : String) (headers : List (String × String)) :
    Option Question :=
  if isToken method && headers.all (fun (name, value) => isHeader name value)
      && target.utf8ByteSize ≤ targetLimit then
    (pathOf? target.toList).map fun path => ⟨method, String.ofList path, headers⟩
  else none

/-- The value of a header, whose name is spelled in any letter case. -/
def Question.header? (q : Question) (name : String) : Option String :=
  (q.headers.find? (·.1.toLower = name)).map Prod.snd

end Aerial.Site
