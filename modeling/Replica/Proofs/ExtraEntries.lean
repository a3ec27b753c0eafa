/-
# Entries of fields yet to come

A newer writer may put entries into the map of a command that this reader does not know.  Such an entry
may stand anywhere and hold any value that is followed: the command, or the fault that is found, is the
one that would be found without it.

* `Command.readEntries_add`: entries are read in two goes as in one;
* `Command.readEntries_other`: an unknown entry leaves the fields as they are;
* `Command.decode_extra_entry`: so a map with it reads as the shorter map without it.
-/
import Replica.Proofs.Verdict

namespace Replica

/-- A value is what is passed over with nothing left, so that values can be told by evaluation. -/
theorem Msgpack.value_iff_skip {levels : Nat} {v : Bytes} :
    Value levels v ↔ skip levels v = .ok [] := by
  rw [skip_eq_ok_iff]
  constructor
  · intro hv
    exact ⟨v, hv, (List.append_nil v).symm⟩
  · rintro ⟨v', hv, rfl⟩
    rwa [List.append_nil]

instance (levels : Nat) (v : Bytes) : Decidable (Msgpack.Value levels v) :=
  decidable_of_iff _ Msgpack.value_iff_skip.symm

namespace Command

open Msgpack (Format Header Value)

/-- A map with `n` entries. -/
theorem decode_map {n : Nat} {header : Bytes} (hs : Format.map.Spells n header) (b : Bytes) :
    decode (header ++ b) = readEntries n .empty b >>= fun p => p.1.command := by
  rw [decode, bind_read (.map hs)]

/-- Entries may be read in two goes. -/
theorem readEntries_add (i j : Nat) (s : Fields) (b : Bytes) :
    readEntries (i + j) s b = readEntries i s b >>= fun p => readEntries j p.1 p.2 := by
  induction i generalizing s b with
  | zero => rw [Nat.zero_add]; rfl
  | succ i ih =>
    rw [Nat.succ_add, readEntries, readEntries]
    cases readEntry s b with
    | error f => rfl
    | ok p => exact ih p.1 p.2

/-- **An unknown entry leaves the fields as they are.** -/
theorem readEntries_other {name value : Bytes} (hname : Name none name) (hvalue : Value 1022 value)
    (n : Nat) (s : Fields) (b : Bytes) :
    readEntries (n + 1) s (name ++ value ++ b) = readEntries n s b := by
  have hentry : readEntry s (name ++ value ++ b) = .ok (s, b) :=
    (Entry.other hname hvalue).read (Fields.fresh_nil s) b
  rw [readEntries, hentry]

/-- **An unknown entry changes no verdict.**  It may stand behind any entries that are read without
fault, in a map of any length, and before any bytes: what is found is what would be found without
it. -/
theorem decode_extra_entry {n i : Nat} {header longer : Bytes} (hs : Format.map.Spells n header)
    (hlonger : Format.map.Spells (n + 1) longer) (hi : i ≤ n) {p : Bytes} {fields : Fields}
    (hp : readEntries i .empty p = .ok (fields, [])) {name value : Bytes} (hname : Name none name)
    (hvalue : Value 1022 value) (q : Bytes) :
    decode (longer ++ (p ++ (name ++ value) ++ q)) = decode (header ++ (p ++ q)) := by
  obtain ⟨j, rfl⟩ := Nat.exists_eq_add_of_le hi
  have hfront : ∀ rest, readEntries i .empty (p ++ rest) = .ok (fields, rest) :=
    fun rest => (stable_readEntries i .empty).append_ok hp rest
  rw [decode_map hlonger, decode_map hs, Nat.add_assoc, readEntries_add, readEntries_add,
    List.append_assoc, hfront, hfront]
  have hrest := readEntries_other hname hvalue j fields q
  show (readEntries (j + 1) fields (name ++ value ++ q) >>= _) = readEntries j fields q >>= _
  rw [hrest]

/-- An entry behind the first of two, with a name that is no text and a value of lists in lists. -/
theorem decode_extra_entry_nested :
    Format.map.Spells 2 [0xDE, 0, 2] ∧ Format.map.Spells 3 [0x83] ∧
      readEntries 1 .empty [0x00, 0xA3, 0x53, 0x45, 0x54] = .ok (⟨some "SET", none, none⟩, []) ∧
      Name none [0xC4, 1, 0xFF] ∧ Value 1022 [0x92, 0x91, 0xC0, 0xA1, 0xFF] ∧
      decode ([0x83] ++ ([0x00, 0xA3, 0x53, 0x45, 0x54] ++
        ([0xC4, 1, 0xFF] ++ [0x92, 0x91, 0xC0, 0xA1, 0xFF]) ++ [0x01, 0xA1, 0x6B])) =
          .ok ⟨.set, "k", ""⟩ := by
  have htwo : Format.map.Spells 2 (0xDE :: Bytes.toBigEndian 2 2) := .word (by decide) (by decide)
  have hthree : Format.map.Spells 3 [0x83] := .byte rfl
  have hfirst : readEntries 1 .empty [0x00, 0xA3, 0x53, 0x45, 0x54] =
      .ok (⟨some "SET", none, none⟩, []) := by decide
  have hlength : Format.bin.Spells 1 (0xC4 :: Bytes.toBigEndian 1 1) := .word (by decide) (by decide)
  have hname : Name none ((0xC4 :: Bytes.toBigEndian 1 1) ++ [0xFF]) :=
    .otherChars (by intro field; cases field <;> decide) (.bin hlength)
  have hvalue : Value 1022 [0x92, 0x91, 0xC0, 0xA1, 0xFF] := by decide
  have hsame := decode_extra_entry htwo hthree (by decide) hfirst hname hvalue [0x01, 0xA1, 0x6B]
  exact ⟨htwo, hthree, hfirst, hname, hvalue, hsame.trans (by decide)⟩

end Command
end Replica
