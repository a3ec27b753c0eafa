/-
# Addresses

An address has one of four forms: a path, a star, an authority, or a scheme with an authority and
perhaps a path behind it.  A path may be followed by a query, and both by a fragment, which is left
out and may hold anything.

Scheme and authority are of ASCII.  A path and a query may hold all characters beyond it, and of ASCII
the visible ones but for a few that have to be escaped.

An endpoint is where the sidecar takes proposals.  Nothing is contacted when a gateway is made; all that
is asked of an endpoint is that it is an address.
-/
import Replica.Failure
import Replica.Text.Cut

namespace Replica

/-- The parts of an address. -/
structure Address where
  scheme : Option String
  authority : String
  path : String
  query : Option String
  deriving DecidableEq, Repr

namespace Address

/-! ## 1. The authority -/

/-- The characters without a meaning of their own in an authority. -/
def isAuthorityChar (c : Char) : Bool :=
  c.isAlphanum || "!$&'()*+,-.;=_~".toList.contains c

/-- Where the reading of an authority stands.  Colons and percent signs count since the last `@`, and
a closed bracket makes those inside it forgotten. -/
structure AuthorityScan where
  colons : Nat
  opened : Bool
  closed : Bool
  percent : Bool
  endsWithAt : Bool
  deriving DecidableEq, Repr

namespace AuthorityScan

def start : AuthorityScan := ⟨0, false, false, false, false⟩

def step (s : AuthorityScan) (c : Char) : Option AuthorityScan :=
  let s := { s with endsWithAt := c = '@' }
  if c = ':' then if 8 ≤ s.colons then none else some { s with colons := s.colons + 1 }
  else if c = '[' then if s.percent || s.opened then none else some { s with opened := true }
  else if c = ']' then
    if !s.opened || s.closed then none
    else some { s with closed := true, colons := 0, percent := false }
  else if c = '@' then some { s with colons := 0, percent := false }
  else if c = '%' then some { s with percent := true }
  else if isAuthorityChar c then some s
  else none

/-- Whether an authority may end here: brackets are closed, and at most one colon is left, that of the
port. -/
def isComplete (s : AuthorityScan) : Bool :=
  s.opened == s.closed && s.colons ≤ 1 && !s.endsWithAt && !s.percent

end AuthorityScan

def isAuthority (cs : List Char) : Bool :=
  match cs.foldlM AuthorityScan.step .start with
  | some s => !cs.isEmpty && s.isComplete
  | none => false

/-! ## 2. Path and query -/

/-- Whether a character leaves a mark, as all beyond ASCII are taken to do. -/
def isVisible (c : Char) : Bool := '!' ≤ c && c ≠ '\x7f'

/-- Whether a character may stand in a path. -/
def isPathChar (c : Char) : Bool := isVisible c && c ≠ '<' && c ≠ '>' && c ≠ '`'

/-- Whether a character may stand in a query. -/
def isQueryChar (c : Char) : Bool := isVisible c && c ≠ '"' && c ≠ '<' && c ≠ '>'

/-- An address that ends in a path, a query and a fragment. -/
def withPath? (scheme : Option String) (authority : String) (cs : List Char) : Option Address :=
  let cs := cs.takeWhile (· ≠ '#')
  match Text.cut? '?' cs with
  | some (path, query) =>
    if path.all isPathChar && query.all isQueryChar then
      some ⟨scheme, authority, .ofList path, some (.ofList query)⟩
    else none
  | none => if cs.all isPathChar then some ⟨scheme, authority, .ofList cs, none⟩ else none

/-! ## 3. Whole addresses -/

/-- The longest address, in bytes. -/
def maxBytes : Nat := 65534

/-- The longest scheme. -/
def maxScheme : Nat := 64

def isSchemeChar (c : Char) : Bool := c.isAlphanum || c = '+' || c = '-' || c = '.' || c = '~'

/-- The scheme of an address and what follows `://`, if it starts so. -/
def scheme? (cs : List Char) : Option (List Char × List Char) :=
  match cs.dropWhile isSchemeChar with
  | ':' :: '/' :: '/' :: rest => some (cs.takeWhile isSchemeChar, rest)
  | _ => none

def endsAuthority (c : Char) : Bool := c = '/' || c = '?' || c = '#'

/-- The address that some text spells. -/
def parse? (s : String) : Option Address :=
  let cs := s.toList
  if maxBytes < s.utf8ByteSize then none
  else if cs = ['*'] then some ⟨none, "", s, none⟩
  else if cs.head? = some '/' then withPath? none "" cs
  else match scheme? cs with
    | none => if isAuthority cs then some ⟨none, s, "", none⟩ else none
    | some (scheme, rest) =>
      let authority := rest.takeWhile (!endsAuthority ·)
      if scheme.length ≤ maxScheme && isAuthority authority then
        withPath? (some (.ofList scheme)) (.ofList authority) (rest.dropWhile (!endsAuthority ·))
      else none

end Address

/-! ## 4. Endpoints -/

/-- What stands against an endpoint, if anything does. -/
def Endpoint.check (endpoint : String) : Except Failure Unit :=
  if (Address.parse? endpoint).isSome then .ok ()
  else .error (.transport ("Invalid sidecar endpoint " ++ endpoint ++ ": invalid URI"))

end Replica
