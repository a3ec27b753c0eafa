/-
# Reading a key over HTTP

A client that reads a key writes it into a query string.  Any byte may be written as an escape, with
digits of either case; the letters and digits of ASCII and the characters `-_.~` may also stand for
themselves, and nothing else may.  So a key has many spellings, and its characters beyond ASCII are
spread over several escapes each.

Whichever spelling is taken, and whatever other parameters stand around it, the read is that of the
key.  `Written` and `Spells` are relations on characters, which know nothing of how a query is read.

* `Query.parameters_of_spells`: a spelled list of parameters is read back;
* `Query.value?_eq_some_iff`, `Query.value?_eq_none_iff`: of the parameters of one name the last counts;
* `Http.reads_of_spells`: a spelled query may stand in the target of a request;
* `Node.http_reads_key`: what a read of a key is answered.
-/
import Mathlib.Data.List.Forall2
import Mathlib.Data.List.TakeWhile
import Replica.Proofs.Routing

namespace Replica

namespace Http.Query

/-! ## 1. Spellings -/

/-- The characters that may stand for themselves. -/
def isUnreserved (c : Char) : Bool :=
  ('a' ≤ c && c ≤ 'z') || ('A' ≤ c && c ≤ 'Z') || ('0' ≤ c && c ≤ '9') || "-_.~".toList.contains c

/-- A hexadecimal digit, of either case. -/
def IsDigit (n : Nat) (c : Char) : Prop := c = n.digitChar ∨ c = n.digitChar.toUpper

/-- Some bytes are written by some characters. -/
inductive Written : Bytes → List Char → Prop where
  | nil : Written [] []
  | plain {c : Char} {b : Bytes} {cs : List Char} (hc : isUnreserved c = true) (h : Written b cs) :
    Written (.ofNat c.toNat :: b) (c :: cs)
  | escape {x : UInt8} {high low : Char} {b : Bytes} {cs : List Char}
    (hhigh : IsDigit (x.toNat / 16) high) (hlow : IsDigit (x.toNat % 16) low) (h : Written b cs) :
    Written (x :: b) ('%' :: high :: low :: cs)

/-- A parameter is written as its name and its value. -/
def WrittenParameter (p : String × String) (cs : List Char) : Prop :=
  ∃ name value, Written (Utf8.encode p.1) name ∧ Written (Utf8.encode p.2) value ∧
    cs = name ++ '=' :: value

/-- A query spells some parameters, in their order. -/
def Spells (ps : List (String × String)) (query : String) : Prop :=
  ∃ written, List.Forall₂ WrittenParameter ps written ∧ query.toList = ['&'].intercalate written

/-! ## 2. The characters of a spelling -/

/-- A character that neither ends a component nor stands for another one. -/
structure Harmless (c : Char) : Prop where
  ascii : c.toNat < 0x80
  notSpecial : c ∉ "&=+#".toList
  inQuery : Address.isQueryChar c = true

instance (c : Char) : Decidable (Harmless c) :=
  decidable_of_iff (c.toNat < 0x80 ∧ c ∉ "&=+#".toList ∧ Address.isQueryChar c = true)
    ⟨fun ⟨ascii, notSpecial, inQuery⟩ => ⟨ascii, notSpecial, inQuery⟩,
      fun h => ⟨h.ascii, h.notSpecial, h.inQuery⟩⟩

theorem Harmless.ne_hash {c : Char} (h : Harmless c) : c ≠ '#' := by
  rintro rfl
  exact h.notSpecial (by decide)

theorem toNat_lt_of_isUnreserved {c : Char} (h : isUnreserved c = true) : c.toNat < 0x80 := by
  simp only [isUnreserved, Bool.or_eq_true, Bool.and_eq_true, decide_eq_true_eq,
    List.contains_iff_mem] at h
  rcases h with ((⟨-, h⟩ | ⟨-, h⟩) | ⟨-, h⟩) | h
  · exact Nat.lt_of_le_of_lt h (by decide)
  · exact Nat.lt_of_le_of_lt h (by decide)
  · exact Nat.lt_of_le_of_lt h (by decide)
  · have hc : c = '-' ∨ c = '_' ∨ c = '.' ∨ c = '~' := by simpa using h
    rcases hc with rfl | rfl | rfl | rfl <;> decide

theorem harmless_of_isUnreserved {c : Char} (h : isUnreserved c = true) : Harmless c ∧ c ≠ '%' := by
  have hall : ∀ n < 0x80, isUnreserved (Char.ofNat n) = true →
      Harmless (Char.ofNat n) ∧ Char.ofNat n ≠ '%' := by decide
  have hc : Char.ofNat c.toNat = c := Char.ofNat_toNat c
  have := hall c.toNat (toNat_lt_of_isUnreserved h)
  rw [hc] at this
  exact this h

/-- A digit is harmless, and is read as its number. -/
theorem IsDigit.spec {n : Nat} {c : Char} (hn : n < 16) (h : IsDigit n c) :
    Harmless c ∧ hexDigit? (.ofNat c.toNat) = some n := by
  have hlower : ∀ n < 16, Harmless n.digitChar ∧
      hexDigit? (.ofNat n.digitChar.toNat) = some n := by decide
  have hupper : ∀ n < 16, Harmless n.digitChar.toUpper ∧
      hexDigit? (.ofNat n.digitChar.toUpper.toNat) = some n := by decide
  rcases h with rfl | rfl
  · exact hlower n hn
  · exact hupper n hn

/-- The digits of an escape are harmless, and spell its byte. -/
theorem escape_spec {x : UInt8} {high low : Char} (hhigh : IsDigit (x.toNat / 16) high)
    (hlow : IsDigit (x.toNat % 16) low) :
    Harmless high ∧ Harmless low ∧ escaped? (.ofNat high.toNat) (.ofNat low.toNat) = some x := by
  have hx : x.toNat < 256 := x.toNat_lt
  obtain ⟨hharmless, hhigh⟩ := hhigh.spec (by omega)
  obtain ⟨hharmless', hlow⟩ := hlow.spec (by omega)
  refine ⟨hharmless, hharmless', ?_⟩
  rw [escaped?, hhigh, hlow]
  simp only [Nat.div_add_mod, UInt8.ofNat_toNat]

theorem Written.harmless {b : Bytes} {cs : List Char} (h : Written b cs) : ∀ c ∈ cs, Harmless c := by
  induction h with
  | nil => simp
  | plain hc _ ih => exact List.forall_mem_cons.mpr ⟨(harmless_of_isUnreserved hc).1, ih⟩
  | escape hhigh hlow _ ih =>
    obtain ⟨hh, hl, -⟩ := escape_spec hhigh hlow
    simp only [List.forall_mem_cons]
    exact ⟨by decide, hh, hl, ih⟩

/-! ## 3. Their bytes -/

/-- The bytes of some characters. -/
def bytes (cs : List Char) : Bytes := cs.flatMap Utf8.encodeChar

theorem bytes_append (cs ds : List Char) : bytes (cs ++ ds) = bytes cs ++ bytes ds :=
  List.flatMap_append

theorem bytes_cons {c : Char} (h : c.toNat < 0x80) (cs : List Char) :
    bytes (c :: cs) = .ofNat c.toNat :: bytes cs := by
  simp [bytes, Utf8.encodeChar, h]

theorem bytes_intercalate {c : Char} (h : c.toNat < 0x80) (ps : List (List Char)) :
    bytes ([c].intercalate ps) = [.ofNat c.toNat].intercalate (ps.map bytes) := by
  induction ps with
  | nil => rfl
  | cons p ps ih =>
    cases ps with
    | nil => simp only [List.map_cons, List.map_nil, List.intercalate_singleton]
    | cons q ps =>
      rw [List.map_cons] at ih
      rw [List.map_cons, List.map_cons, List.intercalate_cons_cons, List.intercalate_cons_cons,
        bytes_append, bytes_append, ih, bytes_cons h]
      rfl

/-- A character of ASCII has its byte among those of a text only where it stands in it. -/
theorem notMem_bytes {c : Char} (hc : c.toNat < 0x80) {cs : List Char} (h : ∀ d ∈ cs, d.toNat < 0x80)
    (hne : c ∉ cs) : .ofNat c.toNat ∉ bytes cs := by
  induction cs with
  | nil => exact List.not_mem_nil
  | cons d cs ih =>
    obtain ⟨hd, hcs⟩ := List.forall_mem_cons.mp h
    obtain ⟨hcd, hne⟩ := not_or.mp (mt List.mem_cons.mpr hne)
    rw [bytes_cons hd, List.mem_cons, not_or]
    refine ⟨fun heq => hcd ?_, ih hcs hne⟩
    have hnat : c.toNat = d.toNat := by
      simpa [Nat.mod_eq_of_lt (show c.toNat < 256 by omega),
        Nat.mod_eq_of_lt (show d.toNat < 256 by omega)] using congrArg UInt8.toNat heq
    exact Char.toNat_inj.mp hnat

/-! ## 4. A component is read back -/

theorem Written.percentDecode {b : Bytes} {cs : List Char} (h : Written b cs) :
    percentDecode (bytes cs) = b := by
  induction h with
  | nil => rfl
  | @plain c b cs hc _ ih =>
    obtain ⟨hharmless, hpercent⟩ := harmless_of_isUnreserved hc
    have hne : .ofNat c.toNat ∉ bytes ['%'] :=
      notMem_bytes hharmless.ascii (by simp) (by simpa using hpercent)
    rw [bytes_cons hharmless.ascii, percentDecode_cons (mt List.mem_singleton.mpr hne), ih]
  | @escape x _ _ _ _ hhigh hlow _ ih =>
    obtain ⟨hh, hl, hescaped⟩ := escape_spec hhigh hlow
    rw [bytes_cons (by decide), bytes_cons hh.ascii, bytes_cons hl.ascii]
    exact (percentDecode_escape hescaped _).trans (congrArg (x :: ·) ih)

theorem Written.notMem_bytes {b : Bytes} {cs : List Char} (h : Written b cs) {c : Char}
    (hc : c.toNat < 0x80) (hne : ¬ Harmless c) : .ofNat c.toNat ∉ bytes cs :=
  Query.notMem_bytes hc (fun d hd => (h.harmless d hd).ascii) fun hmem => hne (h.harmless c hmem)

/-- **A written text is read back**, whichever way it is written. -/
theorem component_of_written {s : String} {cs : List Char} (h : Written (Utf8.encode s) cs) :
    component (bytes cs) = s := by
  have hplus : 0x2B ∉ bytes cs := h.notMem_bytes (c := '+') (by decide) (by decide)
  have hsame : (bytes cs).map (fun c => if c = 0x2B then 0x20 else c) = bytes cs := by
    conv_rhs => rw [← List.map_id (bytes cs)]
    refine List.map_congr_left fun c hc => if_neg ?_
    rintro rfl
    exact hplus hc
  rw [component, hsame, h.percentDecode, Utf8.repair_encode]

/-! ## 5. The parameters are read back -/

theorem bytes_parameter (name value : List Char) :
    bytes (name ++ '=' :: value) = bytes name ++ 0x3D :: bytes value := by
  rw [bytes_append, bytes_cons (by decide)]
  rfl

theorem WrittenParameter.parameter {p : String × String} {cs : List Char}
    (h : WrittenParameter p cs) : parameter (bytes cs) = p := by
  obtain ⟨name, value, hname, hvalue, rfl⟩ := h
  have hequals : 0x3D ∉ bytes name := hname.notMem_bytes (c := '=') (by decide) (by decide)
  rw [bytes_parameter, Query.parameter, Text.cut?_append hequals]
  exact Prod.ext (component_of_written hname) (component_of_written hvalue)

theorem WrittenParameter.isEmpty {p : String × String} {cs : List Char}
    (h : WrittenParameter p cs) : (bytes cs).isEmpty = false := by
  obtain ⟨name, value, -, -, rfl⟩ := h
  rw [bytes_parameter]
  simp

theorem WrittenParameter.notMem_bytes {p : String × String} {cs : List Char}
    (h : WrittenParameter p cs) : 0x26 ∉ bytes cs := by
  obtain ⟨name, value, hname, hvalue, rfl⟩ := h
  have hn : 0x26 ∉ bytes name := hname.notMem_bytes (c := '&') (by decide) (by decide)
  have hv : 0x26 ∉ bytes value := hvalue.notMem_bytes (c := '&') (by decide) (by decide)
  rw [bytes_parameter]
  simp [hn, hv]

section
variable {ps : List (String × String)} {written : List (List Char)}

theorem map_parameter_of_written (h : List.Forall₂ WrittenParameter ps written) :
    ((written.map bytes).filter (!·.isEmpty)).map parameter = ps := by
  induction h with
  | nil => rfl
  | cons hp _ ih =>
    rw [List.map_cons, List.filter_cons_of_pos (by simp [hp.isEmpty]), List.map_cons, hp.parameter, ih]

theorem notMem_of_mem_map_bytes (h : List.Forall₂ WrittenParameter ps written) :
    ∀ b ∈ written.map bytes, 0x26 ∉ b := by
  induction h with
  | nil => simp
  | cons hp _ ih =>
    rw [List.map_cons]
    exact List.forall_mem_cons.mpr ⟨hp.notMem_bytes, ih⟩

/-- **Spelled parameters are read back.** -/
theorem parameters_of_spells {query : String} (h : Spells ps query) :
    parameters (Utf8.encode query) = ps := by
  obtain ⟨written, hwritten, hquery⟩ := h
  have hbytes : Utf8.encode query = [0x26].intercalate (written.map bytes) := by
    rw [Utf8.encode, hquery]
    exact bytes_intercalate (c := '&') (by decide) written
  rw [parameters, hbytes]
  cases hwritten with
  | nil => rfl
  | cons hp hrest =>
    have hall := List.Forall₂.cons hp hrest
    rw [Text.pieces_intercalate (by simp) (notMem_of_mem_map_bytes hall)]
    exact map_parameter_of_written hall

end

/-- Of the parameters of one name the last counts. -/
theorem value?_eq_some_iff {name value : String} {query : Bytes} :
    value? name query = some value ↔
      ∃ before after, parameters query = before ++ (name, value) :: after ∧
        ∀ p ∈ after, p.1 ≠ name := by
  simp only [value?, Option.map_eq_some_iff, List.find?_eq_some_iff_append, decide_eq_true_eq,
    Bool.not_eq_true', decide_eq_false_iff_not]
  constructor
  · rintro ⟨⟨_, _⟩, ⟨rfl, after, before, hreverse, hafter⟩, rfl⟩
    refine ⟨before.reverse, after.reverse, ?_, fun p hp => hafter p (List.mem_reverse.mp hp)⟩
    rw [List.reverse_eq_iff.mp hreverse]
    simp
  · rintro ⟨before, after, hparameters, hafter⟩
    refine ⟨(name, value), ⟨rfl, after.reverse, before.reverse, ?_, ?_⟩, rfl⟩
    · rw [hparameters]
      simp
    · exact fun p hp => hafter p (List.mem_reverse.mp hp)

theorem value?_eq_none_iff {name : String} {query : Bytes} :
    value? name query = none ↔ ∀ p ∈ parameters query, p.1 ≠ name := by
  simp [value?]

end Http.Query

/-! ## 6. A query in a target -/

namespace Http

open Query

/-- A request for the path of reads, with a query. -/
def Asks (query : String) (r : Request) : Prop :=
  r.method = "GET" ∧ Target.parse r.target = ⟨"/get-val", some (Utf8.encode query)⟩

theorem Asks.reads {query : String} {r : Request} (h : Asks query r) : Reads "GET" r :=
  ⟨h.1, congrArg Target.path h.2⟩

theorem Asks.key? {query : String} {r : Request} (h : Asks query r) :
    r.key? = value? "key" (Utf8.encode query) := by
  rw [Request.key?, h.2]
  rfl

/-- A query that a target may have. -/
def Query.MayStand (cs : List Char) : Prop := ∀ c ∈ cs, c ≠ '#' ∧ Address.isQueryChar c = true

theorem Query.WrittenParameter.mayStand {p : String × String} {cs : List Char}
    (h : WrittenParameter p cs) : MayStand cs := by
  obtain ⟨name, value, hname, hvalue, rfl⟩ := h
  intro c hc
  rcases List.mem_append.mp hc with hc | hc
  · exact ⟨(hname.harmless c hc).ne_hash, (hname.harmless c hc).inQuery⟩
  rcases List.mem_cons.mp hc with rfl | hc
  · decide
  · exact ⟨(hvalue.harmless c hc).ne_hash, (hvalue.harmless c hc).inQuery⟩

theorem Query.mayStand_of_written {ps : List (String × String)} {written : List (List Char)}
    (h : List.Forall₂ WrittenParameter ps written) : MayStand (['&'].intercalate written) := by
  induction h with
  | nil => exact fun c hc => absurd hc List.not_mem_nil
  | cons hp hrest ih =>
    cases hrest with
    | nil =>
      rw [List.intercalate_singleton]
      exact hp.mayStand
    | cons =>
      rw [List.intercalate_cons_cons, List.append_assoc]
      have hseparator : MayStand ['&'] := List.forall_mem_singleton.mpr (by decide)
      exact List.forall_mem_append.mpr ⟨hp.mayStand, List.forall_mem_append.mpr ⟨hseparator, ih⟩⟩

end Http

theorem Address.withPath?_append {scheme : Option String} {authority : String} {path query : List Char}
    (hpath : ∀ c ∈ path, c ≠ '?' ∧ c ≠ '#' ∧ isPathChar c = true)
    (hquery : Http.Query.MayStand query) :
    withPath? scheme authority (path ++ '?' :: query) =
      some ⟨scheme, authority, .ofList path, some (.ofList query)⟩ := by
  have hfragment : (path ++ '?' :: query).takeWhile (· ≠ '#') = path ++ '?' :: query := by
    refine List.takeWhile_eq_self_iff.mpr fun c hc => ?_
    rcases List.mem_append.mp hc with hc | hc
    · simpa using (hpath c hc).2.1
    rcases List.mem_cons.mp hc with rfl | hc
    · decide
    · simpa using (hquery c hc).1
  have hcut : Text.cut? '?' (path ++ '?' :: query) = some (path, query) :=
    Text.cut?_append fun hmem => (hpath '?' hmem).1 rfl
  have hall : path.all isPathChar = true := List.all_eq_true.mpr fun c hc => (hpath c hc).2.2
  have hall' : query.all isQueryChar = true := List.all_eq_true.mpr fun c hc => (hquery c hc).2
  rw [withPath?, hfragment, hcut]
  simp only [hall, hall', Bool.and_self, if_true]

namespace Http

open Query

/-- **A spelled query may stand in the target of a read**, if the target is not too long. -/
theorem asks_of_spells {ps : List (String × String)} {query : String} (h : Spells ps query)
    (hsize : ("/get-val?" ++ query).utf8ByteSize ≤ Address.maxBytes)
    (headers : List (String × Bytes)) (body : Bytes) :
    Asks query ⟨"GET", "/get-val?" ++ query, headers, body⟩ := by
  have hmay : MayStand query.toList := by
    obtain ⟨written, hwritten, hquery⟩ := h
    rw [hquery]
    exact mayStand_of_written hwritten
  have hlist : ("/get-val?" ++ query).toList = "/get-val".toList ++ '?' :: query.toList := by
    rw [String.toList_append]
    rfl
  have hpath : "/get-val".toList.all
      (fun c => c ≠ '?' && c ≠ '#' && Address.isPathChar c) = true := by decide
  have hparse : Address.parse? ("/get-val?" ++ query) =
      some ⟨none, "", .ofList "/get-val".toList, some (.ofList query.toList)⟩ := by
    rw [Address.parse?, if_neg (Nat.not_lt.mpr hsize), hlist, if_neg (by simp), if_pos (by rfl)]
    refine Address.withPath?_append (fun c hc => ?_) hmay
    simpa [and_assoc] using List.all_eq_true.mp hpath c hc
  refine ⟨rfl, ?_⟩
  rw [Target.parse, hparse]
  simp [Target.ofAddress]

end Http

/-! ## 7. Reading a key -/

namespace Node

open Http Query

variable {σ γ : Type} [Gateway γ]

theorem http_of_reads {r : Request} (h : Reads "GET" r) (n : Node σ γ) :
    n.http r = (.ofText 200 (Ingress.read r.key? n.table), n) := by
  rw [http_eq, handle_of_reads h]

/-- **Reading a key over HTTP.**  Whatever the table and however the query is spelled, a read is that of
the last parameter with the name `key`, and one without such a parameter finds nothing; the node stays
as it is.  A target may have any spelled query that is not too long for it.  Without a parameter of
that name, a query that nobody has spelled finds nothing either. -/
theorem http_reads_key {ps : List (String × String)} {query : String} (h : Spells ps query)
    (n : Node σ γ) :
    (∀ r, Asks query r →
      (∀ before k after, ps = before ++ ("key", k) :: after → (∀ p ∈ after, p.1 ≠ "key") →
        n.http r = (.ofText 200 ((n.table.get? k).getD "Key Not Found"), n)) ∧
      ((∀ p ∈ ps, p.1 ≠ "key") → n.http r = (.ofText 200 "Key Not Found", n))) ∧
    (("/get-val?" ++ query).utf8ByteSize ≤ Address.maxBytes → ∀ headers body,
      Asks query ⟨"GET", "/get-val?" ++ query, headers, body⟩) ∧
    (∀ r, Reads "GET" r →
      (∀ p ∈ parameters ((Target.parse r.target).query.getD []), p.1 ≠ "key") →
        n.http r = (.ofText 200 "Key Not Found", n)) := by
  have hparameters := parameters_of_spells h
  have hnamed : ∀ r k, Reads "GET" r → r.key? = some k →
      n.http r = (.ofText 200 ((n.table.get? k).getD "Key Not Found"), n) := by
    intro r k hr hkey
    rw [http_of_reads hr, hkey]
    rfl
  have hunnamed : ∀ r, Reads "GET" r → r.key? = none →
      n.http r = (.ofText 200 "Key Not Found", n) := by
    intro r hr hkey
    rw [http_of_reads hr, hkey]
    rfl
  refine ⟨fun r hr => ⟨?_, ?_⟩, fun hsize => asks_of_spells h hsize, ?_⟩
  · intro before k after hps hafter
    refine hnamed r k hr.reads (hr.key?.trans ?_)
    exact value?_eq_some_iff.mpr ⟨before, after, hparameters.trans hps, hafter⟩
  · intro hnone
    refine hunnamed r hr.reads (hr.key?.trans ?_)
    rw [value?_eq_none_iff, hparameters]
    exact hnone
  · intro r hr hnone
    exact hunnamed r hr (value?_eq_none_iff.mpr hnone)

/-- A key with an accent, spread over two escapes, and with an equals sign. -/
theorem http_reads_accented :
    let query := "a=%31&%6bey=%C3%a9%3D&b="
    let r : Request := ⟨"GET", "/get-val?" ++ query, [], []⟩
    let n : Node Memory Recording :=
      ⟨⟨⟨Table.empty.insert "é=" "v", .ofSnapshot none⟩, .idle⟩, .empty true⟩
    Spells [("a", "1"), ("key", "é="), ("b", "")] query ∧ n.http r = (.ofText 200 "v", n) := by
  intro query r n
  have hspells : Spells [("a", "1"), ("key", "é="), ("b", "")] query := by
    have ha : WrittenParameter ("a", "1") "a=%31".toList :=
      ⟨['a'], "%31".toList, .plain (by decide) .nil, .escape (.inl rfl) (.inl rfl) .nil, rfl⟩
    have hkey : WrittenParameter ("key", "é=") "%6bey=%C3%a9%3D".toList := by
      refine ⟨"%6bey".toList, "%C3%a9%3D".toList, ?_, ?_, rfl⟩
      · exact .escape (.inl rfl) (.inl rfl) (.plain (by decide) (.plain (by decide) .nil))
      · exact .escape (.inr rfl) (.inl rfl) (.escape (.inl rfl) (.inl rfl)
          (.escape (.inl rfl) (.inr rfl) .nil))
    have hb : WrittenParameter ("b", "") "b=".toList := ⟨['b'], [], .plain (by decide) .nil, .nil, rfl⟩
    exact ⟨_, .cons ha (.cons hkey (.cons hb .nil)), by decide⟩
  refine ⟨hspells, ?_⟩
  obtain ⟨hreads, hasks, -⟩ := http_reads_key hspells n
  exact (hreads r (hasks (by decide) [] [])).1 [("a", "1")] "é=" [("b", "")] rfl (by decide)

end Node
end Replica
