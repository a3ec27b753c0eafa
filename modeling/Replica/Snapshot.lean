/-
# Records and snapshots

A record is one line `key=value`, without escapes.  What a record can carry follows from how it is
read: the line ends at a line break and is cut at the first `=`.

A snapshot is the whole table as text: one record a line, in the order of the keys (`encode`).  It is
read from any bytes (`decode`): what is no UTF-8 is repaired, a line that is no record is passed over,
and of several records with one key the last one counts.

* `Record.read?_write`: a record is read back if its key has no `=`;
* `Snapshot.decode_encode_chars`: reading a written snapshot is reading the lines of its records.
-/
import Replica.Table
import Replica.Text.Cut
import Replica.Text.Lines
import Replica.Text.Utf8

namespace Replica

/-! ## 1. Records -/

namespace Record

/-- Stands between the key and the value. -/
def delimiter : Char := '='

def isLineBreak (c : Char) : Bool := c = '\n' || c = '\r'

/-- Whether a text can be the key of a record. -/
def keyFits (key : String) : Bool :=
  !key.toList.any (· == delimiter) && !key.toList.any isLineBreak

/-- Whether a text can be the value of a record. -/
def valueFits (value : String) : Bool :=
  !value.toList.any isLineBreak

/-- The line of a record, without its end. -/
def write (key value : String) : List Char := key.toList ++ delimiter :: value.toList

/-- The key and the value of a line; a line without a delimiter is no record. -/
def read? (line : List Char) : Option (String × String) :=
  (Text.cut? delimiter line).map fun (key, value) => (String.ofList key, String.ofList value)

theorem read?_write {key : String} (value : String) (h : delimiter ∉ key.toList) :
    read? (write key value) = some (key, value) := by
  simp [read?, write, Text.cut?_append h]

end Record

/-! ## 2. Snapshots -/

namespace Snapshot

/-- The text of a table. -/
def chars (t : Table) : List Char :=
  t.toList.flatMap fun e => Record.write e.1 e.2 ++ ['\n']

/-- The bytes of a table. -/
def encode (t : Table) : Bytes := Utf8.encode (String.ofList (chars t))

/-- The table in a text. -/
def read (cs : List Char) : Table := Table.ofEntries ((Text.lines cs).filterMap Record.read?)

/-- The table in some bytes. -/
def decode (b : Bytes) : Table := read (Utf8.repair b).toList

/-- Reading a written snapshot is reading its text. -/
theorem decode_encode_chars (t : Table) : decode (encode t) = read (chars t) := by
  simp [decode, encode, Utf8.repair_encode]

end Snapshot
end Replica
