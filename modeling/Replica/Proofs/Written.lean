/-
# Written commands are read back

Writing picks one spelling of each command, the shortest headers and all three fields in order.  That
spelling is one of the grammar, so it is read back, whatever stands behind it.  Only the operation may
come back another: an unknown operation with the name of a known one is read as the known one.

* `Command.Writable`: no text is longer than a header can announce;
* `Command.spelled_encode`: what is written is a spelling of what was meant;
* `Command.decode_encode_append`: so it is read back, with its operation taken by name.
-/
import Replica.Proofs.Grammar

namespace Replica

/-! ## 1. Texts and operations -/

namespace Msgpack

/-- The shortest header announces its length. -/
theorem spells_strHeader {n : Nat} (h : n < Nat.pow 2 32) : Format.str.Spells n (strHeader n) := by
  unfold strHeader
  split
  · next hshort => exact .byte (Format.upTo_eq_some.mpr ⟨hshort, rfl⟩)
  split
  · next hone => exact .word (by decide) hone
  split
  · next htwo => exact .word (by decide) htwo
  · exact .word (by decide) h

end Msgpack

namespace Operation

/-- An operation is found by its name unless it is an unknown one with the name of a known one. -/
theorem ofName_name_eq_iff {o : Operation} :
    ofName o.name = o ↔ o ≠ .unknown "SET" ∧ o ≠ .unknown "DELETE" := by
  cases o with
  | set => simp [ofName, name]
  | delete => simp [ofName, name]
  | unknown s =>
    by_cases hset : s = "SET"
    · simp [ofName, name, hset]
    · by_cases hdelete : s = "DELETE"
      · simp [ofName, name, hdelete]
      · simp [ofName, name, hset, hdelete]

end Operation

namespace Command

open Msgpack (Format)

theorem isText_str {s : String} (h : (Utf8.encode s).length < Nat.pow 2 32) :
    IsText s (Msgpack.str s) :=
  .str (Msgpack.spells_strHeader h)

/-! ## 2. Commands -/

/-- A command of which every text is short enough for a header. -/
def Writable (c : Command) : Prop :=
  (Utf8.encode c.operation.name).length < Nat.pow 2 32 ∧
    (Utf8.encode c.key).length < Nat.pow 2 32 ∧ (Utf8.encode c.value).length < Nat.pow 2 32

instance (c : Command) : Decidable c.Writable := inferInstanceAs (Decidable (_ ∧ _ ∧ _))

/-- The command that is read where a command was written. -/
def reread (c : Command) : Command := { c with operation := .ofName c.operation.name }

/-- A field as it is written. -/
def entryOf (field : Field) (text : String) : Option (Field × String) × Bytes :=
  (some (field, text), Msgpack.str field.name ++ Msgpack.str text)

theorem entry_entryOf (field : Field) {text : String} (h : (Utf8.encode text).length < Nat.pow 2 32) :
    Entry (entryOf field text).1 (entryOf field text).2 := by
  have hname : (Utf8.encode field.name).length < Nat.pow 2 32 := by cases field <;> decide
  exact .field (.chars (.str (Msgpack.spells_strHeader hname))) (isText_str h)

/-- The fields of a command as they are written. -/
def entriesOf (c : Command) : List (Option (Field × String) × Bytes) :=
  [entryOf .op c.operation.name, entryOf .key c.key, entryOf .value c.value]

theorem encode_eq (c : Command) : encode c = 0x83 :: ((entriesOf c).map Prod.snd).flatten := by
  simp [encode, entriesOf, entryOf]

theorem Writable.entries {c : Command} (h : c.Writable) : ∀ e ∈ entriesOf c, Entry e.1 e.2 := by
  obtain ⟨hop, hkey, hvalue⟩ := h
  simp only [entriesOf, List.forall_mem_cons]
  exact ⟨entry_entryOf .op hop, entry_entryOf .key hkey, entry_entryOf .value hvalue,
    List.forall_mem_nil _⟩

theorem known_entriesOf (c : Command) :
    known (entriesOf c) = [(.op, c.operation.name), (.key, c.key), (.value, c.value)] := rfl

theorem nodup_entriesOf (c : Command) : ((known (entriesOf c)).map Prod.fst).Nodup := by
  show ([.op, .key, .value] : List Field).Nodup
  decide

/-- **What is written is a spelling of the command that is read.** -/
theorem spelled_encode {c : Command} (h : c.Writable) : Spelled c.reread (encode c) := by
  have hheader : Format.map.Spells (entriesOf c).length [0x83] := .byte rfl
  have hknown := known_entriesOf c
  rw [encode_eq]
  refine .map hheader h.entries (nodup_entriesOf c) ?_ ?_ (.inl ?_)
  · rw [hknown]; simp
  · rw [hknown]; simp
  · rw [hknown]; simp

theorem reread_eq_iff {c : Command} :
    c.reread = c ↔ c.operation ≠ .unknown "SET" ∧ c.operation ≠ .unknown "DELETE" := by
  rw [← Operation.ofName_name_eq_iff]
  obtain ⟨operation, key, value⟩ := c
  simp [reread]

/-- **A written command is read back, whatever stands behind it**, with its operation taken by name:
it is the same command exactly if the operation is no unknown one with the name of a known one. -/
theorem decode_encode_append {c : Command} (h : c.Writable) (s : Bytes) :
    decode (encode c ++ s) = .ok { c with operation := .ofName c.operation.name } ∧
      (decode (encode c ++ s) = .ok c ↔
        c.operation ≠ .unknown "SET" ∧ c.operation ≠ .unknown "DELETE") := by
  have hread : decode (encode c ++ s) = .ok c.reread := (spelled_encode h).read s
  refine ⟨hread, ?_⟩
  rw [hread, Except.ok.injEq, reread_eq_iff]

/-- An unknown operation that has the name of a known one, with bytes behind the command. -/
theorem decode_encode_lookalike :
    Writable ⟨.unknown "SET", "é", ""⟩ ∧
      decode (encode ⟨.unknown "SET", "é", ""⟩ ++ [0xC1]) = .ok ⟨.set, "é", ""⟩ ∧
      decode (encode ⟨.unknown "SET", "é", ""⟩ ++ [0xC1]) ≠ .ok ⟨.unknown "SET", "é", ""⟩ := by
  have hwritable : Writable ⟨.unknown "SET", "é", ""⟩ := by decide
  obtain ⟨hread, hsame⟩ := decode_encode_append hwritable [0xC1]
  exact ⟨hwritable, hread, fun h => (hsame.mp h).1 rfl⟩

end Command
end Replica
