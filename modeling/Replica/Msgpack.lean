/-
# MessagePack values

A MessagePack value starts with a marker byte.  The marker says by itself what follows, or it says
how wide the number after it is; marker and number together are the header of the value.  A header
gives a nil, a boolean or a number in full.  Of a text, a byte string, a list, a map or an extension
it gives the length, and the rest of the value comes after it.

All headers are read; written are only those of texts, the shortest that hold the number of their bytes.

A reader that has no use for a value still has to find its end.  `skip levels` reads one value of any
kind and gives what is behind it; `levels` is the number of lists, maps and extensions that it
follows into each other, and a value nested deeper is refused when the header of the first one too
many has been read.
-/
import Replica.Bytes
import Replica.Decimal
import Replica.Text.Utf8

namespace Replica.Msgpack

/-! ## 1. What can be wrong with the bytes of a value -/

/-- The part of a value that the bytes end in. -/
inductive Part where
  | marker
  | number
  | payload
  deriving DecidableEq, Repr

/-- Why bytes are no MessagePack value. -/
inductive Fault where
  /-- The bytes end too early. -/
  | truncated (part : Part)
  /-- The one marker byte that has no meaning. -/
  | reserved
  /-- More containers inside each other than a reader follows. -/
  | tooDeep
  deriving DecidableEq, Repr

/-- The message of a fault. -/
def Fault.message : Fault → String
  | .truncated .marker => "IO error while reading marker: failed to fill whole buffer"
  | .truncated .number => "IO error while reading data: failed to fill whole buffer"
  | .truncated .payload => "IO error while reading data: unexpected end of file"
  | .reserved => "wrong msgpack marker Reserved"
  | .tooDeep => "depth limit exceeded"

/-! ## 2. Headers -/

/-- What the header of a value says.  Integers keep whether they were written as unsigned. -/
inductive Header where
  | nil
  | boolean (b : Bool)
  | unsigned (n : Nat)
  | signed (n : Int)
  | float (x : Decimal.Binary)
  | str (length : Nat)
  | bin (length : Nat)
  | array (count : Nat)
  | map (count : Nat)
  | ext (length : Nat)
  deriving DecidableEq, Repr

/-- A number of `bits` bits read as two's complement. -/
def twosComplement (bits n : Nat) : Int :=
  if n < Nat.pow 2 (bits - 1) then n else (n : Int) - Nat.pow 2 bits

/-- What a marker byte says: a header, a header that needs the number in the next `width` bytes, or
nothing. -/
inductive Marker where
  | whole (header : Header)
  | followed (width : Nat) (header : Nat → Header)
  | reserved

/-- The meaning of each marker byte. -/
def Marker.ofByte (b : UInt8) : Marker :=
  let n := b.toNat
  if n < 0x80 then .whole (.unsigned n)
  else if n < 0x90 then .whole (.map (n - 0x80))
  else if n < 0xA0 then .whole (.array (n - 0x90))
  else if n < 0xC0 then .whole (.str (n - 0xA0))
  else if 0xE0 ≤ n then .whole (.signed ((n : Int) - 256))
  else match n with
    | 0xC0 => .whole .nil
    | 0xC2 => .whole (.boolean false)
    | 0xC3 => .whole (.boolean true)
    | 0xC4 => .followed 1 .bin
    | 0xC5 => .followed 2 .bin
    | 0xC6 => .followed 4 .bin
    | 0xC7 => .followed 1 .ext
    | 0xC8 => .followed 2 .ext
    | 0xC9 => .followed 4 .ext
    | 0xCA => .followed 4 fun w => .float (.ofSingle w)
    | 0xCB => .followed 8 fun w => .float (.ofDouble w)
    | 0xCC => .followed 1 .unsigned
    | 0xCD => .followed 2 .unsigned
    | 0xCE => .followed 4 .unsigned
    | 0xCF => .followed 8 .unsigned
    | 0xD0 => .followed 1 fun w => .signed (twosComplement 8 w)
    | 0xD1 => .followed 2 fun w => .signed (twosComplement 16 w)
    | 0xD2 => .followed 4 fun w => .signed (twosComplement 32 w)
    | 0xD3 => .followed 8 fun w => .signed (twosComplement 64 w)
    | 0xD4 => .whole (.ext 1)
    | 0xD5 => .whole (.ext 2)
    | 0xD6 => .whole (.ext 4)
    | 0xD7 => .whole (.ext 8)
    | 0xD8 => .whole (.ext 16)
    | 0xD9 => .followed 1 .str
    | 0xDA => .followed 2 .str
    | 0xDB => .followed 4 .str
    | 0xDC => .followed 2 .array
    | 0xDD => .followed 4 .array
    | 0xDE => .followed 2 .map
    | 0xDF => .followed 4 .map
    | _ => .reserved

/-- The header in front of some bytes, and the bytes behind it. -/
def Header.read : Bytes → Except Fault (Header × Bytes)
  | [] => .error (.truncated .marker)
  | b :: rest =>
    match Marker.ofByte b with
    | .whole h => .ok (h, rest)
    | .reserved => .error .reserved
    | .followed width header =>
      match Bytes.take? width rest with
      | some (word, rest) => .ok (header (Bytes.bigEndian word), rest)
      | none => .error (.truncated .number)

/-- What a header announces, in words. -/
def Header.description : Header → String
  | .nil => "unit value"
  | .boolean b => "boolean `" ++ toString b ++ "`"
  | .unsigned n => "integer `" ++ toString n ++ "`"
  | .signed n => "integer `" ++ toString n ++ "`"
  | .float x => "floating point `" ++ x.text ++ "`"
  | .str _ => "string"
  | .bin _ => "byte array"
  | .array _ => "sequence"
  | .map _ => "map"
  | .ext _ => "newtype struct"

/-! ## 3. Texts -/

/-- The header of a text of `length` bytes. -/
def strHeader (length : Nat) : Bytes :=
  if length < 32 then [.ofNat (0xA0 + length)]
  else if length < 256 then 0xD9 :: Bytes.toBigEndian 1 length
  else if length < 65536 then 0xDA :: Bytes.toBigEndian 2 length
  else 0xDB :: Bytes.toBigEndian 4 length

/-- The bytes of a text. -/
def str (s : String) : Bytes :=
  let payload := Utf8.encode s
  strHeader payload.length ++ payload

/-! ## 4. Reading past a value -/

/-- The bytes of a payload and those behind it. -/
def payload (length : Nat) (b : Bytes) : Except Fault (Bytes × Bytes) :=
  match Bytes.take? length b with
  | some p => .ok p
  | none => .error (.truncated .payload)

/-- `n` readings one after the other. -/
def repeatedly (read : Bytes → Except Fault Bytes) : Nat → Bytes → Except Fault Bytes
  | 0, b => .ok b
  | n + 1, b =>
    match read b with
    | .ok rest => repeatedly read n rest
    | .error f => .error f

/-- What is behind a payload. -/
def skipPayload (length : Nat) (b : Bytes) : Except Fault Bytes :=
  match payload length b with
  | .ok (_, rest) => .ok rest
  | .error f => .error f

/-- What is behind the tag byte and the payload of an extension. -/
def skipExtension (length : Nat) (b : Bytes) : Except Fault Bytes :=
  match b with
  | [] => .error (.truncated .number)
  | _ :: rest => skipPayload length rest

/-- What is behind one value.  `inner` reads the values in a container; without it a container is
nested too deep. -/
def skipWith (inner : Option (Bytes → Except Fault Bytes)) (b : Bytes) : Except Fault Bytes :=
  match Header.read b with
  | .error f => .error f
  | .ok (header, rest) =>
    match header, inner with
    | .str n, _ | .bin n, _ => skipPayload n rest
    | .array n, some read => repeatedly read n rest
    | .map n, some read => repeatedly read (2 * n) rest
    | .ext n, some _ => skipExtension n rest
    | .array _, none | .map _, none | .ext _, none => .error .tooDeep
    | _, _ => .ok rest

/-- What is behind one value with at most `levels` containers inside each other. -/
def skip : (levels : Nat) → Bytes → Except Fault Bytes
  | 0 => skipWith none
  | levels + 1 => skipWith (some (skip levels))

end Replica.Msgpack
