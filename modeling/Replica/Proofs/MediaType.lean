/-
# Content types and media types

A content type is a media type, and parameters after it that say more about the body.  Whether a body is
a command should hang on the media type alone.  The interface looks at the whole value instead: a name of
a type of commands may stand in a parameter or inside a longer name, and a parameter that is not plain
makes it overlook a media type of commands.  This module says for which values it makes no difference.

* `Http.IsCommandType`: the media type of a content type is one of commands;
* `Http.IsCommandType.mentions`: then it is found in the value;
* `Node.judgedByMediaType_iff`: the values that are judged as their media type says;
* `Node.foreign_type_proposed`: two that are not.
-/
import Replica.Proofs.Routing

namespace Replica

/-! ## 1. Media types -/

namespace Http

/-- A space or a tab. -/
def isBlank (b : UInt8) : Bool := b = 0x20 || b = 0x09

/-- What stands between the blanks at both ends. -/
def withoutBlanks (bs : Bytes) : Bytes := ((bs.dropWhile isBlank).reverse.dropWhile isBlank).reverse

/-- The media type of a content type: what stands before its first semicolon, without blanks. -/
def mediaType (value : Bytes) : Bytes := withoutBlanks (value.takeWhile (· ≠ 0x3B))

/-- The media type is one of commands, in letters of either case. -/
def IsCommandType (value : Bytes) : Prop :=
  ∃ type ∈ acceptedTypes, (mediaType value).map lower = Utf8.encode type

instance (value : Bytes) : Decidable (IsCommandType value) :=
  inferInstanceAs (Decidable (∃ type ∈ acceptedTypes, _))

theorem isInfix_withoutBlanks (bs : Bytes) : withoutBlanks bs <:+: bs := by
  have hend : ((bs.dropWhile isBlank).reverse.dropWhile isBlank).reverse <+: bs.dropWhile isBlank := by
    rw [← List.reverse_suffix, List.reverse_reverse]
    exact List.dropWhile_suffix _
  exact hend.isInfix.trans (List.dropWhile_suffix _).isInfix

theorem isInfix_mediaType (value : Bytes) : mediaType value <:+: value :=
  (isInfix_withoutBlanks _).trans (List.takeWhile_prefix _).isInfix

/-- A media type of commands is found in the value. -/
theorem IsCommandType.mentions {value : Bytes} (h : IsCommandType value) : Mentions value := by
  obtain ⟨type, htype, hsame⟩ := h
  refine ⟨type, htype, ?_⟩
  rw [← hsame]
  exact (isInfix_mediaType value).map lower

end Http

/-! ## 2. What becomes of a write -/

namespace Node

open Http

variable {σ γ : Type} [Gateway γ] {r : Request} {value : Bytes}

/-- A write is told by its whole content type. -/
theorem writes_iff (hmethod : r.method = "POST") (hpath : r.path = "/insert-val")
    (hvalue : FirstHeader "content-type" value r.headers) : Writes r ↔ Plain value ∧ Mentions value := by
  rw [← isMsgpack_of_header? (header?_eq_some_iff.mpr hvalue), isMsgpack_iff]
  constructor
  · rintro ⟨-, -, hdeclares⟩
    exact hdeclares
  · intro hdeclares
    exact ⟨hmethod, hpath, hdeclares⟩

/-- A request is proposed if its media type is one of commands, and not found otherwise. -/
def JudgedByMediaType (value : Bytes) (r : Request) (n : Node σ γ) : Prop :=
  (IsCommandType value → n.proposals r = [r.body]) ∧
  (¬ IsCommandType value →
    n.proposals r = [] ∧ (n.http r).1.status = 404 ∧ (n.http r).1.body = notFoundBody)

/-- **Where the media type decides.**  A request with a body that is not too long comes where commands are
taken.  It is judged by the media type of its content type exactly if that is plain where its media type is
one of commands, and if a plain one mentions a type of commands only where its media type is one. -/
theorem judgedByMediaType_iff (hmethod : r.method = "POST") (hpath : r.path = "/insert-val")
    (hvalue : FirstHeader "content-type" value r.headers) (hsize : r.body.length ≤ maxCommandBytes)
    (n : Node σ γ) :
    JudgedByMediaType value r n ↔
      (IsCommandType value → Plain value) ∧ (Plain value → Mentions value → IsCommandType value) := by
  have hwrites := writes_iff hmethod hpath hvalue
  constructor
  · rintro ⟨hproposed, hrefused⟩
    constructor
    · intro htype
      by_cases hwrite : Writes r
      · exact (hwrites.mp hwrite).1
      · have hnothing := proposals_of_not_admissible (fun h => hwrite h.1) n
        rw [hproposed htype] at hnothing
        cases hnothing
    · intro hplain hmentions
      by_cases htype : IsCommandType value
      · exact htype
      · have hbody := proposals_of_admissible ⟨hwrites.mpr ⟨hplain, hmentions⟩, hsize⟩ n
        rw [(hrefused htype).1] at hbody
        cases hbody
  · rintro ⟨hplain, hcommand⟩
    constructor
    · intro htype
      exact proposals_of_admissible ⟨hwrites.mpr ⟨hplain htype, htype.mentions⟩, hsize⟩ n
    · intro htype
      have hwrite : ¬ Writes r := by
        rw [hwrites]
        exact fun h => htype (hcommand h.1 h.2)
      have hget : ¬ Reads "GET" r := fun h => by simp [h.1] at hmethod
      have hhead : ¬ Reads "HEAD" r := fun h => by simp [h.1] at hmethod
      exact ⟨proposals_of_not_admissible (fun h => hwrite h.1) n, status_of_other hwrite hget hhead n⟩

/-- A request to take a command, with a content type. -/
def upload (contentType : String) : Request :=
  ⟨"POST", "/insert-val", [("Content-Type", Utf8.encode contentType)], Command.encode (.set "k" "v")⟩

/-- A node over empty memory, whose gateway accepts everything. -/
def fresh : Node Memory Recording := ⟨⟨⟨.empty, .ofSnapshot none⟩, .idle⟩, .empty true⟩

/-- Parameters and letters of either case do not matter to a plain content type. -/
theorem judgedByMediaType_charset :
    let request := upload "Application/MsgPack ; charset=binary"
    let value := Utf8.encode "Application/MsgPack ; charset=binary"
    request.method = "POST" ∧ request.path = "/insert-val" ∧
      FirstHeader "content-type" value request.headers ∧ request.body.length ≤ maxCommandBytes ∧
      JudgedByMediaType value request fresh ∧
      fresh.proposals request = [Command.encode (.set "k" "v")] := by
  intro request value
  have hpath : request.path = "/insert-val" := by decide +kernel
  have hvalue : FirstHeader "content-type" value request.headers :=
    ⟨[], "Content-Type", [], rfl, by decide +kernel, by simp⟩
  have hsize : request.body.length ≤ maxCommandBytes := by decide +kernel
  have htype : IsCommandType value := by decide +kernel
  have hplain : Plain value := by decide +kernel
  have hjudged : JudgedByMediaType value request fresh :=
    (judgedByMediaType_iff rfl hpath hvalue hsize fresh).mpr ⟨fun _ => hplain, fun _ _ => htype⟩
  exact ⟨rfl, hpath, hvalue, hsize, hjudged, hjudged.1 htype⟩

/-- **Two values that are not judged by their media type.**  A type of commands that is only named in a
parameter is taken for the type of the body, and one whose parameter is not plain is overlooked. -/
theorem foreign_type_proposed :
    ¬ IsCommandType (Utf8.encode "text/plain; note=application/msgpack") ∧
    fresh.proposals (upload "text/plain; note=application/msgpack") =
      [Command.encode (.set "k" "v")] ∧
    (fresh.http (upload "text/plain; note=application/msgpack")).1 = .ofText 200 "ok" ∧
    IsCommandType (Utf8.encode "application/msgpack;é") ∧
    fresh.proposals (upload "application/msgpack;é") = [] ∧
    (fresh.http (upload "application/msgpack;é")).1 = notFound := by
  decide +kernel

end Node
end Replica
