/-
# The grammar of commands

What other programs may send as a command, written down as a grammar of bytes, and the proof that
reading follows it: every byte string of the grammar is read, whatever stands behind it, and nothing
else is.

* `Command.Entry`: one field of a map, or an entry that is passed over;
* `Command.Spelled`: the byte strings that make a command, as a list or as a map;
* `Command.Fields.get?_addAll`: what is held of fields after some that each come once;
* `Command.decode_ok_iff_spelled`: a command is read exactly where one of its spellings stands.
-/
import Replica.Command.Codec
import Replica.Proofs.StrictText
import Replica.Proofs.Value

namespace Replica.Command

open Msgpack (Chars Format Header Value)

/-! ## 1. The grammar -/

/-- The bytes of a text: as `str` or as `bin`, with any header that announces its length. -/
def IsText (s : String) (b : Bytes) : Prop := Chars (Utf8.encode s) b

/-- The number that stands for a field's name. -/
def Field.number : Field → Nat
  | .op => 0
  | .key => 1
  | .value => 2

/-- The bytes of the name of a field; with none, of a name that no field has. -/
inductive Name : Option Field → Bytes → Prop where
  | chars {field : Field} {b : Bytes} : Chars (Utf8.encode field.name) b → Name (some field) b
  | number {field : Field} {b : Bytes} : Format.unsigned.Spells field.number b → Name (some field) b
  | otherChars {payload b : Bytes} : (∀ field : Field, payload ≠ Utf8.encode field.name) →
      Chars payload b → Name none b
  | otherNumber {n : Nat} {b : Bytes} : (∀ field : Field, n ≠ field.number) →
      Format.unsigned.Spells n b → Name none b

/-- The bytes of one entry of a map: a field with its text, or a name that no field has with any
value. -/
inductive Entry : Option (Field × String) → Bytes → Prop where
  | field {field : Field} {text : String} {name value : Bytes} :
      Name (some field) name → IsText text value → Entry (some (field, text)) (name ++ value)
  | other {name value : Bytes} : Name none name → Value 1022 value → Entry none (name ++ value)

/-- The fields among the entries of a map. -/
def known (entries : List (Option (Field × String) × Bytes)) : List (Field × String) :=
  entries.filterMap Prod.fst

/-- The bytes of a command: a list of its texts, or a map in which every field comes at most once and
only the value may be missing. -/
inductive Spelled : Command → Bytes → Prop where
  | pair {op key : String} {header b₁ b₂ : Bytes} : Format.array.Spells 2 header →
      IsText op b₁ → IsText key b₂ → Spelled ⟨.ofName op, key, ""⟩ (header ++ b₁ ++ b₂)
  | triple {op key value : String} {header b₁ b₂ b₃ : Bytes} : Format.array.Spells 3 header →
      IsText op b₁ → IsText key b₂ → IsText value b₃ →
      Spelled ⟨.ofName op, key, value⟩ (header ++ b₁ ++ b₂ ++ b₃)
  | map {op key value : String} {header : Bytes}
      {entries : List (Option (Field × String) × Bytes)} :
      Format.map.Spells entries.length header → (∀ e ∈ entries, Entry e.1 e.2) →
      ((known entries).map Prod.fst).Nodup →
      (.op, op) ∈ known entries → (.key, key) ∈ known entries →
      ((.value, value) ∈ known entries ∨ value = "" ∧ ∀ p ∈ known entries, p.1 ≠ .value) →
      Spelled ⟨.ofName op, key, value⟩ (header ++ (entries.map Prod.snd).flatten)

/-! ## 2. Texts and names -/

theorem lift_eq_ok {α : Type} {x : Except Msgpack.Fault α} {a : α} :
    lift x = .ok a ↔ x = .ok a := by
  cases x with
  | ok b => simp [lift]
  | error f => simp [lift]

/-- Reading in two steps succeeds exactly if both steps do. -/
theorem bind_eq_ok {α β : Type} {x : Except Fault α} {k : α → Except Fault β} {r : β} :
    x >>= k = .ok r ↔ ∃ a, x = .ok a ∧ k a = .ok r := by
  cases x with
  | ok a => exact ⟨fun h => ⟨a, rfl, h⟩, fun ⟨_, ha, h⟩ => by cases ha; exact h⟩
  | error f => exact ⟨fun h => (by cases h), fun ⟨_, ha, _⟩ => (by cases ha)⟩

/-- A step that reads a header with another of its spellings in front. -/
theorem bind_read {β : Type} {h : Header} {front : Bytes} (hs : h.Spelled front) (rest : Bytes)
    (k : Header × Bytes → Except Fault β) :
    (lift (Header.read (front ++ rest)) >>= k) = k (h, rest) := by
  rw [hs.read rest]
  rfl

/-- A step that reads a payload. -/
theorem bind_payload {β : Type} (payload rest : Bytes) (k : Bytes × Bytes → Except Fault β) :
    (lift (Msgpack.payload payload.length (payload ++ rest)) >>= k) = k (payload, rest) := by
  rw [Msgpack.payload_eq_ok_iff.mpr ⟨rfl, rfl⟩]
  rfl

theorem readText_sound {b rest : Bytes} {s : String} (h : readText b = .ok (s, rest)) :
    ∃ front, IsText s front ∧ b = front ++ rest := by
  obtain ⟨⟨header, r⟩, hh, htail⟩ := bind_eq_ok.mp h
  obtain ⟨front, hfront, rfl⟩ := Msgpack.Header.read_eq_ok_iff.mp (lift_eq_ok.mp hh)
  cases header with
  | str n | bin n =>
    obtain ⟨⟨payload, r'⟩, hp, htext⟩ := bind_eq_ok.mp htail
    obtain ⟨v, hv, hb⟩ := Msgpack.chars_of_read (by simp) hfront (lift_eq_ok.mp hp)
    simp only at htext
    split at htext
    · next hs =>
      cases htext
      obtain rfl := Utf8.decode_eq_ok_iff.mp hs
      exact ⟨v, hv, hb⟩
    · cases htext
  | nil | boolean | unsigned | signed | float | array | map | ext => cases htail

theorem IsText.read {s : String} {front : Bytes} (hs : IsText s front) (rest : Bytes) :
    readText (front ++ rest) = .ok (s, rest) := by
  cases hs with
  | str hs =>
    rw [List.append_assoc, readText, bind_read (.str hs)]
    simp only [bind_payload, Utf8.decode_encode]
  | bin hs =>
    rw [List.append_assoc, readText, bind_read (.bin hs)]
    simp only [bind_payload, Utf8.decode_encode]

theorem Field.ofBytes_eq_some {payload : Bytes} {field : Field} :
    Field.ofBytes payload = some field ↔ payload = Utf8.encode field.name := by
  constructor
  · intro h
    unfold ofBytes at h
    split at h
    · cases h; assumption
    split at h
    · cases h; assumption
    split at h
    · cases h; assumption
    · cases h
  · rintro rfl
    cases field <;> decide

theorem Field.ofNumber_eq_some {n : Nat} {field : Field} :
    Field.ofNumber n = some field ↔ n = field.number := by
  constructor
  · intro h
    unfold ofNumber at h
    split at h <;> cases h <;> rfl
  · rintro rfl
    cases field <;> rfl

theorem Field.ofBytes_eq_none {payload : Bytes} :
    Field.ofBytes payload = none ↔ ∀ field : Field, payload ≠ Utf8.encode field.name := by
  simp only [Option.eq_none_iff_forall_ne_some, ne_eq, Field.ofBytes_eq_some]

theorem Field.ofNumber_eq_none {n : Nat} :
    Field.ofNumber n = none ↔ ∀ field : Field, n ≠ field.number := by
  simp only [Option.eq_none_iff_forall_ne_some, ne_eq, Field.ofNumber_eq_some]

/-- A name given as text or bytes. -/
theorem Name.of_chars {payload b : Bytes} (h : Chars payload b) : Name (Field.ofBytes payload) b := by
  cases hname : Field.ofBytes payload with
  | some field =>
    obtain rfl := Field.ofBytes_eq_some.mp hname
    exact .chars h
  | none => exact .otherChars (Field.ofBytes_eq_none.mp hname) h

/-- A name given as a number. -/
theorem Name.of_number {n : Nat} {b : Bytes} (h : Format.unsigned.Spells n b) :
    Name (Field.ofNumber n) b := by
  cases hname : Field.ofNumber n with
  | some field =>
    obtain rfl := Field.ofNumber_eq_some.mp hname
    exact .number h
  | none => exact .otherNumber (Field.ofNumber_eq_none.mp hname) h

theorem readName_sound {b rest : Bytes} {name : Option Field} (h : readName b = .ok (name, rest)) :
    ∃ front, Name name front ∧ b = front ++ rest := by
  obtain ⟨⟨header, r⟩, hh, htail⟩ := bind_eq_ok.mp h
  obtain ⟨front, hfront, rfl⟩ := Msgpack.Header.read_eq_ok_iff.mp (lift_eq_ok.mp hh)
  cases header with
  | str n | bin n =>
    obtain ⟨⟨payload, r'⟩, hp, hname⟩ := bind_eq_ok.mp htail
    obtain ⟨v, hv, hb⟩ := Msgpack.chars_of_read (by simp) hfront (lift_eq_ok.mp hp)
    cases hname
    exact ⟨v, .of_chars hv, hb⟩
  | unsigned n =>
    cases hfront with | unsigned hs =>
    cases htail
    exact ⟨_, .of_number hs, rfl⟩
  | nil | boolean | signed | float | array | map | ext => cases htail

theorem readName_chars {payload front : Bytes} (h : Chars payload front) (rest : Bytes) :
    readName (front ++ rest) = .ok (Field.ofBytes payload, rest) := by
  cases h with
  | str hs =>
    rw [List.append_assoc, readName, bind_read (.str hs)]
    simp only [bind_payload]
  | bin hs =>
    rw [List.append_assoc, readName, bind_read (.bin hs)]
    simp only [bind_payload]

theorem readName_number {n : Nat} {front : Bytes} (h : Format.unsigned.Spells n front)
    (rest : Bytes) : readName (front ++ rest) = .ok (Field.ofNumber n, rest) := by
  rw [readName, bind_read (.unsigned h)]

theorem Name.read {name : Option Field} {front : Bytes} (hn : Name name front) (rest : Bytes) :
    readName (front ++ rest) = .ok (name, rest) := by
  cases hn with
  | chars hc => rw [readName_chars hc, Field.ofBytes_eq_some.mpr rfl]
  | otherChars hnone hc => rw [readName_chars hc, Field.ofBytes_eq_none.mpr hnone]
  | number hs => rw [readName_number hs, Field.ofNumber_eq_some.mpr rfl]
  | otherNumber hnone hs => rw [readName_number hs, Field.ofNumber_eq_none.mpr hnone]

/-! ## 3. Fields that each come once -/

/-- Fields with some more. -/
def Fields.addAll (s : Fields) (more : List (Field × String)) : Fields :=
  more.foldl (fun s p => s.put p.1 p.2) s

/-- Whether fields can be taken in: each comes once, and none is there already. -/
def Fields.Fresh (s : Fields) (more : List (Field × String)) : Prop :=
  (more.map Prod.fst).Nodup ∧ ∀ p ∈ more, s.get? p.1 = none

namespace Fields

theorem get?_put (s : Fields) (field other : Field) (text : String) :
    (s.put field text).get? other = if other = field then some text else s.get? other := by
  cases field <;> cases other <;> rfl

theorem get?_empty (field : Field) : empty.get? field = none := by cases field <;> rfl

theorem addAll_append (s : Fields) (a b : List (Field × String)) :
    s.addAll (a ++ b) = (s.addAll a).addAll b :=
  List.foldl_append

theorem fresh_nil (s : Fields) : s.Fresh [] :=
  ⟨List.nodup_nil, fun _ hp => absurd hp List.not_mem_nil⟩

theorem fresh_cons {s : Fields} {field : Field} {text : String} {more : List (Field × String)} :
    s.Fresh ((field, text) :: more) ↔ s.get? field = none ∧ (s.put field text).Fresh more := by
  simp only [Fresh, List.map_cons, List.nodup_cons, List.forall_mem_cons, get?_put]
  constructor
  · rintro ⟨⟨hnot, hnodup⟩, hnone, hall⟩
    refine ⟨hnone, hnodup, ?_⟩
    intro p hp
    rw [if_neg, hall p hp]
    rintro rfl
    exact hnot (List.mem_map_of_mem hp)
  · rintro ⟨hnone, hnodup, hall⟩
    refine ⟨⟨?_, hnodup⟩, hnone, ?_⟩
    · intro hmem
      obtain ⟨p, hp, rfl⟩ := List.mem_map.mp hmem
      simpa using hall p hp
    · intro p hp
      have hget := hall p hp
      split at hget
      · cases hget
      · exact hget

theorem fresh_append {s : Fields} {a b : List (Field × String)} :
    s.Fresh (a ++ b) ↔ s.Fresh a ∧ (s.addAll a).Fresh b := by
  induction a generalizing s with
  | nil => exact ⟨fun h => ⟨fresh_nil s, h⟩, fun h => h.2⟩
  | cons p a ih =>
    obtain ⟨field, text⟩ := p
    rw [List.cons_append, fresh_cons, fresh_cons, ih, and_assoc]
    rfl

/-- **What is held after some fields that each come once**: those, and what was there before. -/
theorem get?_addAll {s : Fields} {more : List (Field × String)} (h : s.Fresh more) (field : Field)
    (text : String) :
    (s.addAll more).get? field = some text ↔ (field, text) ∈ more ∨ s.get? field = some text := by
  induction more generalizing s with
  | nil => simp [addAll]
  | cons p more ih =>
    obtain ⟨field', text'⟩ := p
    obtain ⟨hnone, hfresh⟩ := fresh_cons.mp h
    have hadd : s.addAll ((field', text') :: more) = (s.put field' text').addAll more := rfl
    rw [hadd, ih hfresh, get?_put, List.mem_cons, Prod.mk.injEq]
    split
    · next heq =>
      subst heq
      rw [hnone]
      simp [eq_comm, or_comm]
    · next hne => simp [hne]

/-- What makes a command of fields. -/
theorem command_eq_ok_iff {s : Fields} {c : Command} :
    s.command = .ok c ↔ ∃ op key, s.op = some op ∧ s.key = some key ∧
      c = ⟨.ofName op, key, s.value.getD ""⟩ := by
  obtain ⟨op, key, value⟩ := s
  cases op with
  | none => simp [command]
  | some op =>
    cases key with
    | none => simp [command]
    | some key => simp [command, eq_comm]

end Fields

/-! ## 4. Entries -/

theorem readEntry_sound {s s' : Fields} {b rest : Bytes} (h : readEntry s b = .ok (s', rest)) :
    ∃ field? front, Entry field? front ∧ s.Fresh field?.toList ∧ s' = s.addAll field?.toList ∧
      b = front ++ rest := by
  obtain ⟨⟨name, r⟩, hn, htail⟩ := bind_eq_ok.mp h
  obtain ⟨front, hname, rfl⟩ := readName_sound hn
  cases name with
  | none =>
    obtain ⟨r', hskip, hend⟩ := bind_eq_ok.mp htail
    obtain ⟨value, hvalue, rfl⟩ := Msgpack.skip_eq_ok_iff.mp (lift_eq_ok.mp hskip)
    cases hend
    exact ⟨none, _, .other hname hvalue, Fields.fresh_nil s, rfl, (List.append_assoc ..).symm⟩
  | some field =>
    simp only at htail
    split at htail
    · cases htail
    · next hnone =>
      obtain ⟨⟨text, r'⟩, htext, hend⟩ := bind_eq_ok.mp htail
      obtain ⟨value, hvalue, rfl⟩ := readText_sound htext
      cases hend
      have hfresh : s.Fresh [(field, text)] :=
        Fields.fresh_cons.mpr ⟨by simpa using hnone, Fields.fresh_nil _⟩
      exact ⟨some (field, text), _, .field hname hvalue, hfresh, rfl, (List.append_assoc ..).symm⟩

theorem Entry.read {field? : Option (Field × String)} {front : Bytes} (he : Entry field? front)
    {s : Fields} (hfresh : s.Fresh field?.toList) (rest : Bytes) :
    readEntry s (front ++ rest) = .ok (s.addAll field?.toList, rest) := by
  cases he with
  | other hname hvalue =>
    rw [List.append_assoc, readEntry, hname.read]
    refine bind_eq_ok.mpr ⟨_, rfl, bind_eq_ok.mpr ⟨_, lift_eq_ok.mpr (hvalue.skip rest), rfl⟩⟩
  | @field field text _ _ hname hvalue =>
    have hnone : s.get? field = none := (Fields.fresh_cons.mp hfresh).1
    rw [List.append_assoc, readEntry, hname.read]
    refine bind_eq_ok.mpr ⟨_, rfl, ?_⟩
    simp only [hnone]
    exact bind_eq_ok.mpr ⟨_, hvalue.read rest, rfl⟩

theorem known_cons (e : Option (Field × String) × Bytes)
    (entries : List (Option (Field × String) × Bytes)) :
    known (e :: entries) = e.1.toList ++ known entries := by
  obtain ⟨_ | field, b⟩ := e <;> rfl

theorem readEntries_sound {n : Nat} {s s' : Fields} {b rest : Bytes}
    (h : readEntries n s b = .ok (s', rest)) :
    ∃ entries : List (Option (Field × String) × Bytes),
      entries.length = n ∧ (∀ e ∈ entries, Entry e.1 e.2) ∧ s.Fresh (known entries) ∧
      s' = s.addAll (known entries) ∧ b = (entries.map Prod.snd).flatten ++ rest := by
  induction n generalizing s b with
  | zero =>
    cases h
    exact ⟨[], rfl, fun _ he => absurd he List.not_mem_nil, Fields.fresh_nil _, rfl, rfl⟩
  | succ n ih =>
    rw [readEntries] at h
    split at h
    · next s₁ r hentry =>
      obtain ⟨field?, front, he, hfresh, rfl, rfl⟩ := readEntry_sound hentry
      obtain ⟨entries, rfl, hentries, hmore, rfl, rfl⟩ := ih h
      refine ⟨(field?, front) :: entries, rfl, List.forall_mem_cons.mpr ⟨he, hentries⟩, ?_, ?_, ?_⟩
      · rw [known_cons]
        exact Fields.fresh_append.mpr ⟨hfresh, hmore⟩
      · rw [known_cons, Fields.addAll_append]
      · rw [List.map_cons, List.flatten_cons, List.append_assoc]
    · cases h

theorem readEntries_complete {entries : List (Option (Field × String) × Bytes)}
    (hentries : ∀ e ∈ entries, Entry e.1 e.2) {s : Fields} (hfresh : s.Fresh (known entries))
    (rest : Bytes) :
    readEntries entries.length s ((entries.map Prod.snd).flatten ++ rest) =
      .ok (s.addAll (known entries), rest) := by
  induction entries generalizing s with
  | nil => rfl
  | cons e entries ih =>
    obtain ⟨he, hentries⟩ := List.forall_mem_cons.mp hentries
    rw [known_cons] at hfresh ⊢
    obtain ⟨hfirst, hmore⟩ := Fields.fresh_append.mp hfresh
    rw [List.length_cons, readEntries, List.map_cons, List.flatten_cons, List.append_assoc,
      he.read hfirst, Fields.addAll_append]
    exact ih hentries hmore

/-! ## 5. Commands -/

/-- Fields that each come once, taken in from the start. -/
theorem Fields.get?_addAll_empty {more : List (Field × String)} (h : (more.map Prod.fst).Nodup)
    (field : Field) (text : String) :
    (empty.addAll more).get? field = some text ↔ (field, text) ∈ more := by
  rw [get?_addAll ⟨h, fun p _ => get?_empty p.1⟩, get?_empty]
  simp

theorem readList_sound {n : Nat} {b : Bytes} {c : Command} (h : readList n b = .ok c)
    {header : Bytes} (hs : Format.array.Spells n header) :
    ∃ front, front <+: header ++ b ∧ Spelled c front := by
  unfold readList at h
  split at h
  · cases h
  obtain ⟨⟨op, r₁⟩, hop, htail₁⟩ := bind_eq_ok.mp h
  obtain ⟨b₁, hb₁, rfl⟩ := readText_sound hop
  simp only at htail₁
  split at htail₁
  · cases htail₁
  obtain ⟨⟨key, r₂⟩, hkey, htail₂⟩ := bind_eq_ok.mp htail₁
  obtain ⟨b₂, hb₂, rfl⟩ := readText_sound hkey
  simp only at htail₂
  split at htail₂
  · next htwo =>
    cases htail₂
    subst htwo
    exact ⟨_, ⟨r₂, by simp only [List.append_assoc]⟩, .pair hs hb₁ hb₂⟩
  obtain ⟨⟨value, r₃⟩, hvalue, htail₃⟩ := bind_eq_ok.mp htail₂
  obtain ⟨b₃, hb₃, rfl⟩ := readText_sound hvalue
  simp only at htail₃
  split at htail₃
  · next hthree =>
    cases htail₃
    subst hthree
    exact ⟨_, ⟨r₃, by simp only [List.append_assoc]⟩, .triple hs hb₁ hb₂ hb₃⟩
  · cases htail₃

theorem readMap_sound {n : Nat} {s : Fields} {b rest : Bytes} {c : Command}
    (h : readEntries n .empty b = .ok (s, rest)) (hc : s.command = .ok c) {header : Bytes}
    (hs : Format.map.Spells n header) : ∃ front, front <+: header ++ b ∧ Spelled c front := by
  obtain ⟨entries, rfl, hentries, hfresh, rfl, rfl⟩ := readEntries_sound h
  obtain ⟨op, key, hop, hkey, rfl⟩ := Fields.command_eq_ok_iff.mp hc
  have hheld := Fields.get?_addAll_empty hfresh.1
  refine ⟨_, ⟨rest, List.append_assoc ..⟩, .map hs hentries hfresh.1 ((hheld .op op).mp hop)
    ((hheld .key key).mp hkey) ?_⟩
  cases hvalue : (Fields.empty.addAll (known entries)).value with
  | some value => exact .inl ((hheld .value value).mp hvalue)
  | none =>
    refine .inr ⟨rfl, ?_⟩
    rintro ⟨field, text⟩ hp rfl
    have hsome : (Fields.empty.addAll (known entries)).value = some text := (hheld .value text).mpr hp
    rw [hvalue] at hsome
    cases hsome

/-- The value of a map is the one that it gives, or empty if it gives none. -/
theorem value_addAll {entries : List (Option (Field × String) × Bytes)}
    (h : ((known entries).map Prod.fst).Nodup) {value : String}
    (hvalue : (.value, value) ∈ known entries ∨
      value = "" ∧ ∀ p ∈ known entries, p.1 ≠ .value) :
    (Fields.empty.addAll (known entries)).value.getD "" = value := by
  have hheld : ∀ text, (Fields.empty.addAll (known entries)).value = some text ↔
      (.value, text) ∈ known entries := Fields.get?_addAll_empty h .value
  rcases hvalue with hmem | ⟨rfl, hnone⟩
  · rw [(hheld value).mpr hmem]
    rfl
  · have hempty : (Fields.empty.addAll (known entries)).value = none := by
      rw [Option.eq_none_iff_forall_ne_some]
      exact fun text htext => hnone _ ((hheld text).mp htext) rfl
    rw [hempty]
    rfl

/-- **Every spelling of a command is read**, whatever stands behind it. -/
theorem Spelled.read {c : Command} {front : Bytes} (hs : Spelled c front) (rest : Bytes) :
    decode (front ++ rest) = .ok c := by
  cases hs with
  | pair hs hop hkey =>
    rw [List.append_assoc, List.append_assoc, decode, bind_read (.array hs)]
    exact bind_eq_ok.mpr ⟨_, hop.read _, bind_eq_ok.mpr ⟨_, hkey.read _, rfl⟩⟩
  | triple hs hop hkey hvalue =>
    rw [List.append_assoc, List.append_assoc, List.append_assoc, decode, bind_read (.array hs)]
    exact bind_eq_ok.mpr ⟨_, hop.read _, bind_eq_ok.mpr ⟨_, hkey.read _,
      bind_eq_ok.mpr ⟨_, hvalue.read _, rfl⟩⟩⟩
  | map hs hentries hnodup hop hkey hvalue =>
    have hfresh : Fields.empty.Fresh _ := ⟨hnodup, fun p _ => Fields.get?_empty p.1⟩
    have hheld := Fields.get?_addAll_empty hnodup
    rw [List.append_assoc, decode, bind_read (.map hs)]
    refine bind_eq_ok.mpr ⟨_, readEntries_complete hentries hfresh rest, ?_⟩
    refine Fields.command_eq_ok_iff.mpr ⟨_, _, (hheld .op _).mpr hop, (hheld .key _).mpr hkey, ?_⟩
    rw [value_addAll hnodup hvalue]

/-- **A command is read exactly where one of its spellings stands.** -/
theorem decode_ok_iff_spelled {b : Bytes} {c : Command} :
    decode b = .ok c ↔ ∃ front, front <+: b ∧ Spelled c front := by
  constructor
  · intro h
    obtain ⟨⟨header, r⟩, hh, htail⟩ := bind_eq_ok.mp h
    obtain ⟨front, hfront, rfl⟩ := Msgpack.Header.read_eq_ok_iff.mp (lift_eq_ok.mp hh)
    cases header with
    | map n =>
      cases hfront with | map hs =>
      obtain ⟨⟨s, rest⟩, hentries, hc⟩ := bind_eq_ok.mp htail
      exact readMap_sound hentries hc hs
    | array n =>
      cases hfront with | array hs =>
      exact readList_sound htail hs
    | bin n =>
      obtain ⟨⟨payload, rest⟩, -, hbytes⟩ := bind_eq_ok.mp htail
      cases payload <;> cases hbytes
    | str n =>
      obtain ⟨⟨payload, rest⟩, -, htext⟩ := bind_eq_ok.mp htail
      simp only at htext
      split at htext <;> cases htext
    | nil | boolean | unsigned | signed | float | ext => cases htail
  · rintro ⟨front, ⟨rest, rfl⟩, hs⟩
    exact hs.read rest

end Replica.Command
