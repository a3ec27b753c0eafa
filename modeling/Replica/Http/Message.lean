/-
# HTTP messages

A request names its target by an address, of which path and query count.  The path is compared as it
is written: no escape in it is decoded and no part of it is normalised.

A response has a text for a body.  The length that it announces is that of the body which a `GET`
would get, also where a `HEAD` leaves the body out.
-/
import Replica.Address
import Replica.Text.Utf8

namespace Replica.Http

/-! ## 1. Requests -/

/-- A request, its header names in any case.  A header value is bytes, which need not be a text. -/
structure Request where
  method : String
  target : String
  headers : List (String × Bytes)
  body : Bytes

/-- The path of a target, and its query if it has one. -/
structure Target where
  path : String
  query : Option Bytes
  deriving DecidableEq, Repr

namespace Target

/-- The target that an address names; with a scheme in front, no path is the root's. -/
def ofAddress (a : Address) : Target :=
  { path := if a.scheme.isSome && a.path.isEmpty then "/" else a.path
    query := a.query.map Utf8.encode }

/-- The target that some text names.  One that is no address has no path. -/
def parse (s : String) : Target :=
  match Address.parse? s with
  | some a => ofAddress a
  | none => ⟨"", none⟩

end Target

namespace Request

/-- The first value of a header. -/
def header? (name : String) (r : Request) : Option Bytes :=
  (r.headers.find? fun h => h.1.toLower = name).map (·.2)

end Request

/-! ## 2. Responses -/

/-- A response with a text for its body. -/
structure Response where
  status : Nat
  /-- The methods that the path allows, where the method was not one of them. -/
  allow : Option String
  length : Nat
  body : String
  deriving DecidableEq, Repr

namespace Response

def ofText (status : Nat) (body : String) : Response := ⟨status, none, body.utf8ByteSize, body⟩

/-- The response without its body. -/
def bodiless (r : Response) : Response := { r with body := "" }

/-- The header lines, sorted. -/
def headerLines (r : Response) : List String :=
  (match r.allow with
    | some methods => ["allow: " ++ methods]
    | none => []) ++
  ["content-length: " ++ toString r.length, "content-type: text/plain; charset=utf-8"]

end Response
end Replica.Http
