/-
# What requests hand to the gateway

A client's request is proposed only past three gates: method and path, the headers, and the size of the
body.  Everything else is answered on the spot, and the gateway does not hear of it.  To say what a
gateway is handed, whatever it is and does, a node is watched: its gateway keeps a list of all that is
proposed through it, and is otherwise the same.

* `Http.isMsgpack_iff`: which headers declare a command;
* `Http.handle_of_admissible`, `Http.handle_of_oversized`, `Http.handle_of_reads`, `Http.handle_of_other`:
  what becomes of each kind of request, over any gateway;
* `Node.proposals`: what a request hands to the gateway;
* `Node.http_forwards_admissible`: all that a request does.
-/
import Replica.Node

namespace Replica

/-! ## 1. Headers that declare a command -/

namespace Http

theorem occursIn_iff {pattern bs : Bytes} : occursIn pattern bs = true ↔ pattern <:+: bs := by
  induction bs with
  | nil => rw [occursIn, List.isEmpty_iff, List.infix_nil]
  | cons b bs ih =>
    rw [occursIn, Bool.or_eq_true, ih, List.isPrefixOf_iff_prefix, List.infix_cons_iff]

/-- The value of the first header of a name, in letters of either case. -/
def FirstHeader (name : String) (value : Bytes) (headers : List (String × Bytes)) : Prop :=
  ∃ before written after, headers = before ++ (written, value) :: after ∧
    written.toLower = name ∧ ∀ h ∈ before, h.1.toLower ≠ name

/-- A value of visible ASCII, spaces and tabs. -/
def Plain (value : Bytes) : Prop := ∀ b ∈ value, b = 0x09 ∨ 0x20 ≤ b ∧ b ≤ 0x7E

-- over the bytes of the value, not over all bytes
instance (value : Bytes) : Decidable (Plain value) :=
  List.decidableBAll (fun b => b = 0x09 ∨ 0x20 ≤ b ∧ b ≤ 0x7E) value

/-- A value in which a type of commands occurs, in letters of either case. -/
def Mentions (value : Bytes) : Prop :=
  ∃ type ∈ acceptedTypes, Utf8.encode type <:+: value.map lower

/-- The first content type is plain and mentions a type of commands. -/
def DeclaresCommand (r : Request) : Prop :=
  ∃ value, FirstHeader "content-type" value r.headers ∧ Plain value ∧ Mentions value

theorem header?_eq_some_iff {name : String} {value : Bytes} {r : Request} :
    r.header? name = some value ↔ FirstHeader name value r.headers := by
  simp only [Request.header?, Option.map_eq_some_iff, List.find?_eq_some_iff_append,
    decide_eq_true_eq, Bool.not_eq_true', decide_eq_false_iff_not]
  constructor
  · rintro ⟨⟨written, _⟩, ⟨hname, before, after, hheaders, hbefore⟩, rfl⟩
    exact ⟨before, written, after, hheaders, hname, hbefore⟩
  · rintro ⟨before, written, after, hheaders, hname, hbefore⟩
    exact ⟨(written, value), ⟨hname, before, after, hheaders, hbefore⟩, rfl⟩

theorem isMsgpack_of_header? {r : Request} {value : Bytes}
    (h : r.header? "content-type" = some value) : isMsgpack r = true ↔ Plain value ∧ Mentions value := by
  simp [isMsgpack, h, isPlain, Plain, Mentions, occursIn_iff]

theorem isMsgpack_iff {r : Request} : isMsgpack r = true ↔ DeclaresCommand r := by
  constructor
  · intro h
    cases hvalue : r.header? "content-type" with
    | none => simp [isMsgpack, hvalue] at h
    | some value =>
      exact ⟨value, header?_eq_some_iff.mp hvalue, (isMsgpack_of_header? hvalue).mp h⟩
  · rintro ⟨value, hfirst, hvalue⟩
    exact (isMsgpack_of_header? (header?_eq_some_iff.mpr hfirst)).mpr hvalue

/-! ## 2. Kinds of requests -/

/-- The path of a request, as it is written. -/
def Request.path (r : Request) : String := (Target.parse r.target).path

/-- A request that declares a command where commands are taken. -/
def Writes (r : Request) : Prop := r.method = "POST" ∧ r.path = "/insert-val" ∧ DeclaresCommand r

/-- A write that is not too long. -/
def Admissible (r : Request) : Prop := Writes r ∧ r.body.length ≤ maxCommandBytes

/-- A request for a value, by a method. -/
def Reads (method : String) (r : Request) : Prop := r.method = method ∧ r.path = "/get-val"

/-- The key that a read asks for, if it names one. -/
def Request.key? (r : Request) : Option String :=
  Query.value? "key" ((Target.parse r.target).query.getD [])

variable {γ : Type} [Gateway γ] {r : Request}

theorem handle_of_admissible (h : Admissible r) (t : Table) (gateway : γ) :
    handle r t gateway =
      (.ofText 200 (Ingress.WriteReply.ofVerdict (Gateway.propose r.body gateway).1).text,
        (Gateway.propose r.body gateway).2) := by
  obtain ⟨⟨hmethod, hpath : (Target.parse r.target).path = _, hdeclares⟩, hsize⟩ := h
  simp [handle, hpath, hmethod, insertValue, isMsgpack_iff.mpr hdeclares, Nat.not_lt.mpr hsize,
    Ingress.write]

theorem handle_of_oversized (h : Writes r) (hsize : maxCommandBytes < r.body.length) (t : Table)
    (gateway : γ) : handle r t gateway = (.ofText 200 "error", gateway) := by
  obtain ⟨hmethod, hpath : (Target.parse r.target).path = _, hdeclares⟩ := h
  simp [handle, hpath, hmethod, insertValue, isMsgpack_iff.mpr hdeclares, hsize,
    Ingress.WriteReply.text]

theorem handle_of_reads (h : Reads "GET" r) (t : Table) (gateway : γ) :
    handle r t gateway = (.ofText 200 (Ingress.read r.key? t), gateway) := by
  obtain ⟨hmethod, hpath : (Target.parse r.target).path = _⟩ := h
  simp [handle, hpath, hmethod, getValue, Request.key?]

theorem handle_of_reads_head (h : Reads "HEAD" r) (t : Table) (gateway : γ) :
    handle r t gateway = ((Response.ofText 200 (Ingress.read r.key? t)).bodiless, gateway) := by
  obtain ⟨hmethod, hpath : (Target.parse r.target).path = _⟩ := h
  simp [handle, hpath, hmethod, getValue, Request.key?]

omit [Gateway γ]

/-- All else is not found, whatever the gateway. -/
theorem handle_of_other (hwrite : ¬ Writes r) (hget : ¬ Reads "GET" r) (hhead : ¬ Reads "HEAD" r)
    (t : Table) : ∃ response, response.status = 404 ∧ response.body = notFoundBody ∧
      ∀ (γ : Type) [Gateway γ] (gateway : γ), handle r t gateway = (response, gateway) := by
  by_cases hinsert : (Target.parse r.target).path = "/insert-val"
  · by_cases hpost : r.method = "POST"
    · have hnone : isMsgpack r = false := by
        rw [← Bool.not_eq_true, isMsgpack_iff]
        exact fun hdeclares => hwrite ⟨hpost, hinsert, hdeclares⟩
      refine ⟨notFound, rfl, rfl, ?_⟩
      intro γ _ gateway
      simp [handle, hinsert, hpost, insertValue, hnone]
    · refine ⟨notAllowed "POST", rfl, rfl, ?_⟩
      intro γ _ gateway
      simp [handle, hinsert, hpost]
  by_cases hpath : (Target.parse r.target).path = "/get-val"
  · have hnotGet : r.method ≠ "GET" := fun hmethod => hget ⟨hmethod, hpath⟩
    have hnotHead : r.method ≠ "HEAD" := fun hmethod => hhead ⟨hmethod, hpath⟩
    refine ⟨notAllowed "GET,HEAD", rfl, rfl, ?_⟩
    intro γ _ gateway
    simp [handle, hpath, hnotGet, hnotHead]
  · refine ⟨notFound, rfl, rfl, ?_⟩
    intro γ _ gateway
    simp [handle, hinsert, hpath]

/-- **What is not admissible does not reach the gateway**, and is answered without it. -/
theorem handle_of_not_admissible (h : ¬ Admissible r) (t : Table) :
    ∃ response, ∀ (γ : Type) [Gateway γ] (gateway : γ), handle r t gateway = (response, gateway) := by
  by_cases hwrite : Writes r
  · have hsize : maxCommandBytes < r.body.length := Nat.not_le.mp fun hsize => h ⟨hwrite, hsize⟩
    exact ⟨_, fun γ _ gateway => handle_of_oversized hwrite hsize t gateway⟩
  by_cases hget : Reads "GET" r
  · exact ⟨_, fun γ _ gateway => handle_of_reads hget t gateway⟩
  by_cases hhead : Reads "HEAD" r
  · exact ⟨_, fun γ _ gateway => handle_of_reads_head hhead t gateway⟩
  · obtain ⟨response, -, -, hresponse⟩ := handle_of_other hwrite hget hhead t
    exact ⟨response, hresponse⟩

end Http

/-! ## 3. Watched gateways -/

/-- A gateway and all that was proposed through it, the oldest first. -/
structure Watched (γ : Type) where
  gateway : γ
  proposals : List Bytes

instance {γ : Type} [Gateway γ] : Gateway (Watched γ) where
  propose b w :=
    ((Gateway.propose b w.gateway).1, ⟨(Gateway.propose b w.gateway).2, w.proposals ++ [b]⟩)

namespace Node

open Http

variable {σ γ : Type} [Gateway γ]

theorem http_eq (r : Request) (n : Node σ γ) :
    n.http r = ((handle r n.table n.gateway).1, ⟨n.applier, (handle r n.table n.gateway).2⟩) := rfl

omit [Gateway γ] in
/-- The node with its gateway watched from now on. -/
def watched (n : Node σ γ) : Node σ (Watched γ) := ⟨n.applier, ⟨n.gateway, []⟩⟩

omit [Gateway γ] in
@[simp] theorem table_watched (n : Node σ γ) : n.watched.table = n.table := rfl

/-- What a request hands to the gateway of a node. -/
def proposals (r : Request) (n : Node σ γ) : List Bytes := (n.watched.http r).2.gateway.proposals

/-- Watching a gateway changes neither what is answered nor what becomes of the gateway. -/
theorem http_watched (r : Request) (n : Node σ γ) :
    (n.watched.http r).1 = (n.http r).1 ∧
      (n.watched.http r).2.gateway.gateway = (n.http r).2.gateway := by
  rw [http_eq, http_eq]
  by_cases h : Admissible r
  · rw [handle_of_admissible h, handle_of_admissible h]
    exact ⟨rfl, rfl⟩
  · obtain ⟨response, hresponse⟩ := handle_of_not_admissible h n.table
    rw [table_watched, hresponse, hresponse]
    exact ⟨rfl, rfl⟩

theorem proposals_of_admissible {r : Request} (h : Admissible r) (n : Node σ γ) :
    n.proposals r = [r.body] := by
  rw [proposals, http_eq, handle_of_admissible h]
  rfl

theorem proposals_of_not_admissible {r : Request} (h : ¬ Admissible r) (n : Node σ γ) :
    n.proposals r = [] := by
  obtain ⟨response, hresponse⟩ := handle_of_not_admissible h n.table
  rw [proposals, http_eq, table_watched, hresponse]
  rfl

theorem status_of_other {r : Request} (hwrite : ¬ Writes r) (hget : ¬ Reads "GET" r)
    (hhead : ¬ Reads "HEAD" r) (n : Node σ γ) :
    (n.http r).1.status = 404 ∧ (n.http r).1.body = notFoundBody := by
  obtain ⟨response, hstatus, hbody, hresponse⟩ := handle_of_other hwrite hget hhead n.table
  rw [http_eq, hresponse]
  exact ⟨hstatus, hbody⟩

/-- **What a request does.**  It never changes the applier, with its table and its storage.  An admissible
request hands its body to the gateway once, as it came, and is answered as the gateway decides; any other
leaves the gateway alone.  A write that is too long is an error, a read shows its key, and all else is not
found. -/
theorem http_forwards_admissible (r : Request) (n : Node σ γ) :
    (n.http r).2.applier = n.applier ∧
    (Admissible r → n.proposals r = [r.body] ∧
      (n.http r).2.gateway = (Gateway.propose r.body n.gateway).2 ∧
      (n.http r).1 = .ofText 200 (if (Gateway.propose r.body n.gateway).1 then "ok" else "error")) ∧
    (¬ Admissible r → n.proposals r = [] ∧ (n.http r).2.gateway = n.gateway) ∧
    (Writes r → ¬ Admissible r → (n.http r).1 = .ofText 200 "error") ∧
    (Reads "GET" r → (n.http r).1 = .ofText 200 (n.read r.key?)) ∧
    (Reads "HEAD" r → (n.http r).1 = (Response.ofText 200 (n.read r.key?)).bodiless) ∧
    (¬ Writes r → ¬ Reads "GET" r → ¬ Reads "HEAD" r →
      (n.http r).1.status = 404 ∧ (n.http r).1.body = notFoundBody) := by
  refine ⟨rfl, ?_, ?_, ?_, ?_, ?_, ?_⟩
  · intro h
    refine ⟨proposals_of_admissible h n, ?_⟩
    rw [http_eq, handle_of_admissible h]
    refine ⟨rfl, ?_⟩
    cases (Gateway.propose r.body n.gateway).1 with
    | false => rfl
    | true => rfl
  · intro h
    obtain ⟨response, hresponse⟩ := handle_of_not_admissible h n.table
    refine ⟨proposals_of_not_admissible h n, ?_⟩
    rw [http_eq, hresponse]
  · intro hwrite h
    have hsize : maxCommandBytes < r.body.length := Nat.not_le.mp fun hsize => h ⟨hwrite, hsize⟩
    rw [http_eq, handle_of_oversized hwrite hsize]
  · intro h
    rw [http_eq, handle_of_reads h]
    rfl
  · intro h
    rw [http_eq, handle_of_reads_head h]
    rfl
  · intro hwrite hget hhead
    exact status_of_other hwrite hget hhead n

/-- A command sent where commands are taken is proposed once, and shows in no table yet; the target of a
read names its key; and with a slash after it the path is another one. -/
theorem http_forwards_admissible_requests :
    let n : Node Memory Recording :=
      ⟨⟨⟨.ofEntries [("k", "v")], .ofSnapshot none⟩, .idle⟩, .empty true⟩
    let command := Command.encode (.set "k" "w")
    let send (target : String) : Request :=
      ⟨"POST", target, [("Content-Type", Utf8.encode "application/msgpack")], command⟩
    let read : Request := ⟨"GET", "/get-val?key=k", [], []⟩
    ((send "/insert-val").path = "/insert-val" ∧ Admissible (send "/insert-val") ∧
      n.proposals (send "/insert-val") = [command] ∧
      (n.http (send "/insert-val")).1 = .ofText 200 "ok" ∧
      (n.http (send "/insert-val")).2.gateway.pending = [command] ∧
      (n.http (send "/insert-val")).2.applier = n.applier) ∧
    (read.path = "/get-val" ∧ read.key? = some "k" ∧ Reads "GET" read ∧ ¬ Admissible read ∧
      n.proposals read = [] ∧ (n.http read).1 = .ofText 200 "v") ∧
    (send "/insert-val/").path = "/insert-val/" ∧ ¬ Writes (send "/insert-val/") ∧
      n.proposals (send "/insert-val/") = [] ∧ (n.http (send "/insert-val/")).1.status = 404 := by
  intro n command send read
  have hdeclares (target : String) : DeclaresCommand (send target) := by
    refine ⟨_, ⟨[], "Content-Type", [], rfl, by decide +kernel, by simp⟩, by decide, ?_⟩
    exact ⟨msgpackType, List.mem_cons_self, by decide⟩
  have hinsert : (send "/insert-val").path = "/insert-val" := by decide +kernel
  have hslash : (send "/insert-val/").path = "/insert-val/" := by decide +kernel
  have hget : read.path = "/get-val" := by decide +kernel
  have hkey : read.key? = some "k" := by decide +kernel
  have hadmissible : Admissible (send "/insert-val") :=
    ⟨⟨rfl, hinsert, hdeclares _⟩, by decide +kernel⟩
  have hreads : Reads "GET" read := ⟨rfl, hget⟩
  have hrefused : ¬ Admissible read := fun h => absurd h.1.1 (by decide)
  have hother : ¬ Writes (send "/insert-val/") := by
    rintro ⟨-, hpath, -⟩
    exact absurd (hslash.symm.trans hpath) (by decide)
  refine ⟨⟨hinsert, hadmissible, ?_⟩, ⟨hget, hkey, hreads, hrefused, ?_⟩, hslash, hother, ?_⟩
  · obtain ⟨happlier, hwrite, -⟩ := http_forwards_admissible (send "/insert-val") n
    obtain ⟨hproposed, hgateway, hresponse⟩ := hwrite hadmissible
    refine ⟨hproposed, hresponse, ?_, happlier⟩
    rw [hgateway]
    rfl
  · obtain ⟨-, -, hnone, -, hread, -⟩ := http_forwards_admissible read n
    refine ⟨(hnone hrefused).1, ?_⟩
    rw [hread hreads, hkey]
    decide
  · obtain ⟨-, -, hnone, -, -, -, hrest⟩ := http_forwards_admissible (send "/insert-val/") n
    have hnotGet : ¬ Reads "GET" (send "/insert-val/") := fun h => absurd h.1 (by decide)
    have hnotHead : ¬ Reads "HEAD" (send "/insert-val/") :=
      fun h => absurd h.1 (by decide)
    exact ⟨(hnone fun h => hother h.1).1, (hrest hother hnotGet hnotHead).1⟩

/-- A content type in the second place does not count. -/
example : isMsgpack ⟨"POST", "/insert-val",
    [("Content-Type", Utf8.encode "application/json"),
      ("content-type", Utf8.encode "application/msgpack")], []⟩ = false := by
  decide +kernel

end Node
end Replica
