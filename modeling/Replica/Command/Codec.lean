/-
# Commands as bytes

A command is written as a MessagePack map of the three fields `op`, `key` and `value`, in that order,
all texts (`encode`).

Reading is more generous (`decode`).  A map may give the fields in any order, may name them by text,
bytes or number, and may hold other fields of any kind, which are read and dropped; the value may be
missing and is then empty.  A list gives the fields by position.  Texts may come as `bin` if their
bytes are UTF-8.  Reading goes from left to right and stops at the first fault; bytes behind the
command are ignored.
-/
import Replica.Command
import Replica.Msgpack
import Replica.Text.Quoted

namespace Replica.Command

open Msgpack (Header)

/-! ## 1. What can be wrong -/

/-- The fields of a command. -/
inductive Field where
  | op
  | key
  | value
  deriving DecidableEq, Repr

def Field.name : Field → String
  | .op => "op"
  | .key => "key"
  | .value => "value"

/-- What a reader wants to find. -/
inductive Wanted where
  | command
  | text
  | fieldName
  deriving DecidableEq, Repr

def Wanted.description : Wanted → String
  | .command => "struct Command"
  | .text => "a string"
  | .fieldName => "field identifier"

/-- Why bytes are no command. -/
inductive Fault where
  /-- They are no MessagePack value. -/
  | value (fault : Msgpack.Fault)
  /-- A value of another kind than wanted. -/
  | unexpected (found : Header) (wanted : Wanted)
  /-- A text in the place of the command. -/
  | unexpectedText (found : String)
  /-- A text that is not UTF-8. -/
  | notText (fault : Utf8.Fault)
  /-- A byte string in the place of a text that is not UTF-8. -/
  | bytesNotText
  /-- A list that ends before the key. -/
  | tooFewFields (count : Nat)
  /-- A list that goes on after the value. -/
  | tooManyFields
  | duplicate (field : Field)
  | missing (field : Field)
  deriving DecidableEq, Repr

namespace Fault

/-- The reason in words. -/
def reason : Fault → String
  | .value f => f.message
  | .unexpected found wanted =>
    "invalid type: " ++ found.description ++ ", expected " ++ wanted.description
  | .unexpectedText s =>
    "invalid type: string " ++ Text.quoted s ++ ", expected " ++ Wanted.command.description
  | .notText f => "string found to be invalid utf8: " ++ f.message
  | .bytesNotText => "invalid value: byte array, expected " ++ Wanted.text.description
  | .tooFewFields n =>
    "invalid length " ++ toString n ++ ", expected struct Command with 3 elements"
  | .tooManyFields => "array had incorrect length, expected 3"
  | .duplicate field => "duplicate field `" ++ field.name ++ "`"
  | .missing field => "missing field `" ++ field.name ++ "`"

/-- A fault as the failure that a caller is shown. -/
def failure (f : Fault) : Failure := .decode ("MessagePack decoding failed: " ++ f.reason)

/-- Whether more bytes might have made a command. -/
def isTruncation : Fault → Bool
  | .value (.truncated _) => true
  | _ => false

end Fault

/-! ## 2. Writing -/

/-- The bytes of a command. -/
def encode (c : Command) : Bytes :=
  0x83 :: (Msgpack.str Field.op.name ++ Msgpack.str c.operation.name ++
    Msgpack.str Field.key.name ++ Msgpack.str c.key ++
    Msgpack.str Field.value.name ++ Msgpack.str c.value)

/-! ## 3. Reading texts and field names -/

/-- How deep the values of unknown fields may be nested. -/
def maxLevels : Nat := 1022

/-- A step of reading fails with a fault of the value that it reads. -/
def lift {α : Type} : Except Msgpack.Fault α → Except Fault α
  | .ok a => .ok a
  | .error f => .error (.value f)

/-- A text, given as `str` or as `bin`. -/
def readText (b : Bytes) : Except Fault (String × Bytes) := do
  let (header, rest) ← lift (Header.read b)
  match header with
  | .str n =>
    let (payload, rest) ← lift (Msgpack.payload n rest)
    match Utf8.decode payload with
    | .ok s => .ok (s, rest)
    | .error f => .error (.notText f)
  | .bin n =>
    let (payload, rest) ← lift (Msgpack.payload n rest)
    match Utf8.decode payload with
    | .ok s => .ok (s, rest)
    | .error _ => .error .bytesNotText
  | other => .error (.unexpected other .text)

/-- The field whose name is spelled by some bytes, if there is one. -/
def Field.ofBytes (b : Bytes) : Option Field :=
  if b = Utf8.encode Field.op.name then some .op
  else if b = Utf8.encode Field.key.name then some .key
  else if b = Utf8.encode Field.value.name then some .value
  else none

/-- The field with a number, if there is one. -/
def Field.ofNumber : Nat → Option Field
  | 0 => some .op
  | 1 => some .key
  | 2 => some .value
  | _ => none

/-- A field name: a known field, or none for a name that is unknown. -/
def readName (b : Bytes) : Except Fault (Option Field × Bytes) := do
  let (header, rest) ← lift (Header.read b)
  match header with
  | .str n | .bin n =>
    let (payload, rest) ← lift (Msgpack.payload n rest)
    .ok (Field.ofBytes payload, rest)
  | .unsigned n => .ok (Field.ofNumber n, rest)
  | other => .error (.unexpected other .fieldName)

/-! ## 4. Reading a command -/

/-- The fields read so far. -/
structure Fields where
  op : Option String
  key : Option String
  value : Option String
  deriving DecidableEq, Repr

namespace Fields

def empty : Fields := ⟨none, none, none⟩

def get? (s : Fields) : Field → Option String
  | .op => s.op
  | .key => s.key
  | .value => s.value

def put (s : Fields) (field : Field) (text : String) : Fields :=
  match field with
  | .op => { s with op := some text }
  | .key => { s with key := some text }
  | .value => { s with value := some text }

/-- The command that some fields make. -/
def command (s : Fields) : Except Fault Command :=
  match s.op, s.key with
  | some op, some key => .ok ⟨.ofName op, key, s.value.getD ""⟩
  | none, _ => .error (.missing .op)
  | some _, none => .error (.missing .key)

end Fields

/-- One field of a map with its value. -/
def readEntry (s : Fields) (b : Bytes) : Except Fault (Fields × Bytes) := do
  let (name, rest) ← readName b
  match name with
  | none => do
    let rest ← lift (Msgpack.skip maxLevels rest)
    .ok (s, rest)
  | some field =>
    if (s.get? field).isSome then .error (.duplicate field)
    else do
      let (text, rest) ← readText rest
      .ok (s.put field text, rest)

/-- The fields of a map with `n` more entries. -/
def readEntries : (n : Nat) → Fields → Bytes → Except Fault (Fields × Bytes)
  | 0, s, b => .ok (s, b)
  | n + 1, s, b =>
    match readEntry s b with
    | .ok (s, rest) => readEntries n s rest
    | .error f => .error f

/-- A command whose `count` fields stand in a list. -/
def readList (count : Nat) (b : Bytes) : Except Fault Command := do
  if count = 0 then .error (.tooFewFields 0)
  else do
    let (op, rest) ← readText b
    if count = 1 then .error (.tooFewFields 1)
    else do
      let (key, rest) ← readText rest
      if count = 2 then .ok ⟨.ofName op, key, ""⟩
      else do
        let (value, _) ← readText rest
        if count = 3 then .ok ⟨.ofName op, key, value⟩ else .error .tooManyFields

/-- The command in front of some bytes. -/
def decode (b : Bytes) : Except Fault Command := do
  let (header, rest) ← lift (Header.read b)
  match header with
  | .map n =>
    let (fields, _) ← readEntries n .empty rest
    fields.command
  | .array n => readList n rest
  | .bin n =>
    -- a byte string counts as the list of its bytes, and the first of them is no text
    let (payload, _) ← lift (Msgpack.payload n rest)
    match payload with
    | [] => .error (.tooFewFields 0)
    | first :: _ => .error (.unexpected (.unsigned first.toNat) .text)
  | .str n =>
    let (payload, _) ← lift (Msgpack.payload n rest)
    match Utf8.decode payload with
    | .ok s => .error (.unexpectedText s)
    | .error f => .error (.notText f)
  | other => .error (.unexpected other .command)

end Replica.Command
