/-
# The HTTP interface

Two paths serve clients.  `POST /insert-val` takes a MessagePack command as its body and proposes it;
`GET /get-val?key=…` reads a key.  All else is answered `404`.  A write is told apart by its content
type before its size is looked at, so an oversized body of another type is not found either.

A client's write is handed to the gateway as it came, neither read nor checked, and shows in the
table only once the sidecar has sent it back as a committed entry.  A client's read is answered from
the table at once, and may so be older than a proposal under way.
-/
import Replica.Gateway
import Replica.Http.Message
import Replica.Http.Query
import Replica.Table

namespace Replica

/-! ## 1. Writes and reads -/

namespace Ingress

/-- The answer to a write. -/
inductive WriteReply where
  | ok
  | error
  deriving DecidableEq, Repr

namespace WriteReply

def text : WriteReply → String
  | .ok => "ok"
  | .error => "error"

def ofVerdict (accepted : Bool) : WriteReply := if accepted then .ok else .error

end WriteReply

/-- The answer to a read of an absent key, or of none. -/
def keyNotFound : String := "Key Not Found"

/-- Proposes a write. -/
def write {γ : Type} [Gateway γ] (payload : Bytes) (gateway : γ) : WriteReply × γ :=
  let (accepted, gateway) := Gateway.propose payload gateway
  (.ofVerdict accepted, gateway)

/-- Reads a key, if one is named. -/
def read (key : Option String) (t : Table) : String :=
  match key with
  | some key => (t.get? key).getD keyNotFound
  | none => keyNotFound

end Ingress

namespace Http

/-! ## 2. Which writes are admitted -/

/-- The longest body of a write. -/
def maxCommandBytes : Nat := 4193280

/-- The content type that commands are sent with. -/
def msgpackType : String := "application/msgpack"

/-- The content types of a command. -/
def acceptedTypes : List String := [msgpackType, "application/x-msgpack"]

/-- A letter of ASCII in lower case; any other byte stays. -/
def lower (b : UInt8) : UInt8 := if 0x41 ≤ b ∧ b ≤ 0x5A then b + 0x20 else b

/-- Whether some bytes stand somewhere in others. -/
def occursIn (pattern : Bytes) : Bytes → Bool
  | [] => pattern.isEmpty
  | b :: bs => pattern.isPrefixOf (b :: bs) || occursIn pattern bs

/-- Whether a header value is visible ASCII, with spaces and tabs. -/
def isPlain (value : Bytes) : Bool := value.all fun b => b = 0x09 || (0x20 ≤ b && b ≤ 0x7E)

/-- Whether the content type of a request names a type of commands anywhere in it. -/
def isMsgpack (r : Request) : Bool :=
  match r.header? "content-type" with
  | some value =>
    isPlain value && acceptedTypes.any fun type => occursIn (Utf8.encode type) (value.map lower)
  | none => false

/-! ## 3. Routes -/

def notFoundBody : String := "404 Not Found"

def notFound : Response := .ofText 404 notFoundBody

/-- The answer where a path is there but not for this method. -/
def notAllowed (methods : String) : Response := { notFound with allow := some methods }

variable {γ : Type} [Gateway γ]

/-- A write. -/
def insertValue (r : Request) (gateway : γ) : Response × γ :=
  if !isMsgpack r then (notFound, gateway)
  else if maxCommandBytes < r.body.length then (.ofText 200 Ingress.WriteReply.error.text, gateway)
  else
    let (reply, gateway) := Ingress.write r.body gateway
    (.ofText 200 reply.text, gateway)

omit [Gateway γ] in
/-- A read. -/
def getValue (target : Target) (t : Table) : Response :=
  .ofText 200 (Ingress.read (Query.value? "key" (target.query.getD [])) t)

/-- The answer to a request, from a table and through a gateway. -/
def handle (r : Request) (t : Table) (gateway : γ) : Response × γ :=
  let target := Target.parse r.target
  if target.path = "/insert-val" then
    if r.method = "POST" then insertValue r gateway else (notAllowed "POST", gateway)
  else if target.path = "/get-val" then
    if r.method = "GET" then (getValue target t, gateway)
    else if r.method = "HEAD" then ((getValue target t).bodiless, gateway)
    else (notAllowed "GET,HEAD", gateway)
  else (notFound, gateway)

end Http
end Replica
