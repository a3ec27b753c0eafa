/-
# What clients see of their writes

A client's write goes to the gateway and shows in the table only once it has come back as a committed
entry.  Here a gateway that records plays the sidecar: clients write and read, the gateway changes its
verdict, and from time to time all proposals are committed, in any order of these events.

* `Node.drained_append_pending`: what was committed and what is still pending are all the writes, in
  their order, the refused ones included;
* `Node.table_run`: the table has the changes of the committed entries and no others;
* `Node.reads_see_committed`: so a read shows what the last admissible command among the committed
  entries made of its key.
-/
import Replica.Proofs.Entries
import Replica.Proofs.LawfulStorage

namespace Replica.Node

variable {σ : Type} [Storage σ]

/-! ## 1. Runs of a node with clients -/

/-- What can happen to a node whose gateway records. -/
inductive Event where
  | write (payload : Bytes)
  | read (key : Option String)
  /-- The gateway accepts from now on, or refuses. -/
  | accept (accepting : Bool)
  | commit
  deriving DecidableEq, Repr

/-- What came of an event. -/
inductive Answer where
  | wrote (reply : Ingress.WriteReply)
  | read (text : String)
  | accept
  /-- All that was pending, and what came of each. -/
  | committed (entries : List Bytes) (results : List (Except Failure Bool))

/-- The payload that an event proposes. -/
def Event.payload? : Event → Option Bytes
  | .write payload => some payload
  | _ => none

/-- What an event says about the gateway's verdict. -/
def Event.accepting? : Event → Option Bool
  | .accept accepting => some accepting
  | _ => none

/-- The entries that an event had committed. -/
def Answer.entries : Answer → List Bytes
  | .committed entries _ => entries
  | _ => []

def step (n : Node σ Recording) : Event → Answer × Node σ Recording
  | .write payload => (.wrote (n.write payload).1, (n.write payload).2)
  | .read key => (.read (n.read key), n)
  | .accept accepting => (.accept, { n with gateway := n.gateway.setAccepting accepting })
  | .commit => (.committed n.gateway.drain.1 n.commit.1, n.commit.2)

def run (n : Node σ Recording) : List Event → List Answer × Node σ Recording
  | [] => ([], n)
  | e :: events => ((n.step e).1 :: ((n.step e).2.run events).1, ((n.step e).2.run events).2)

/-- All payloads that a run proposes. -/
def written (events : List Event) : List Bytes := events.filterMap Event.payload?

/-- All entries that a run had committed. -/
def drained (answers : List Answer) : List Bytes := answers.flatMap Answer.entries

theorem written_cons (e : Event) (events : List Event) :
    written (e :: events) = e.payload?.toList ++ written events := by
  unfold written
  cases he : e.payload? with
  | none => rw [List.filterMap_cons_none he]; rfl
  | some payload => rw [List.filterMap_cons_some he]; rfl

theorem drained_cons (a : Answer) (answers : List Answer) :
    drained (a :: answers) = a.entries ++ drained answers :=
  List.flatMap_cons

/-! ## 2. What one event does -/

theorem commit_eq (n : Node σ Recording) :
    n.commit = ({ n with gateway := { n.gateway with pending := [] } } : Node σ Recording).applyAll
      n.gateway.pending := rfl

theorem gateway_commit (n : Node σ Recording) :
    n.commit.2.gateway = { n.gateway with pending := [] } := by
  rw [commit_eq, gateway_applyAll]

theorem pending_commit (n : Node σ Recording) : n.commit.2.gateway.pending = [] := by
  rw [gateway_commit]

theorem table_commit (n : Node σ Recording) :
    n.commit.2.table = n.table.changed (n.gateway.pending.filterMap Change.ofEntry?) := by
  rw [commit_eq, table_applyAll]
  rfl

/-- An event takes what it commits off the front of the pending proposals, and puts what it proposes
at their end. -/
theorem pending_step (n : Node σ Recording) (e : Event) :
    (n.step e).1.entries ++ (n.step e).2.gateway.pending =
      n.gateway.pending ++ e.payload?.toList := by
  cases e with
  | write payload => rfl
  | read key => exact (List.append_nil _).symm
  | accept accepting => exact (List.append_nil _).symm
  | commit => exact congrArg (n.gateway.pending ++ ·) (pending_commit n)

theorem accepting_step (n : Node σ Recording) (e : Event) :
    (n.step e).2.gateway.accepting = e.accepting?.getD n.gateway.accepting := by
  cases e with
  | write payload | read key | accept accepting => rfl
  | commit =>
    have hgateway := gateway_commit n
    simp only [step, hgateway]
    rfl

/-- Only a commit changes the table, and only by what it commits. -/
theorem table_step (n : Node σ Recording) (e : Event) :
    (n.step e).2.table = n.table.changed ((n.step e).1.entries.filterMap Change.ofEntry?) := by
  cases e with
  | write payload | read key | accept accepting => rfl
  | commit => exact table_commit n

/-! ## 3. What holds after a run -/

/-- **Nothing is lost, altered or reordered.**  The committed entries, with the pending proposals
after them, are what was pending at first and then all that was written. -/
theorem drained_append_pending (n : Node σ Recording) (events : List Event) :
    drained (n.run events).1 ++ (n.run events).2.gateway.pending =
      n.gateway.pending ++ written events := by
  induction events generalizing n with
  | nil => exact (List.append_nil _).symm
  | cons e events ih =>
    rw [run, drained_cons, List.append_assoc, ih, ← List.append_assoc, pending_step, written_cons,
      List.append_assoc]

/-- The verdict of the gateway is the last one that it was given. -/
theorem accepting_run (n : Node σ Recording) (events : List Event) :
    (n.run events).2.gateway.accepting =
      (events.filterMap Event.accepting?).getLast?.getD n.gateway.accepting := by
  induction events generalizing n with
  | nil => rfl
  | cons e events ih =>
    rw [run, ih, accepting_step]
    cases he : e.accepting? with
    | none => rw [List.filterMap_cons_none he]; rfl
    | some accepting => rw [List.filterMap_cons_some he, List.getLast?_cons]; rfl

/-- **The table has the changes of the committed entries**, whatever is pending. -/
theorem table_run (n : Node σ Recording) (events : List Event) :
    (n.run events).2.table =
      n.table.changed ((drained (n.run events).1).filterMap Change.ofEntry?) := by
  induction events generalizing n with
  | nil => rfl
  | cons e events ih =>
    rw [run, ih, table_step, ← Table.changed_append, ← List.filterMap_append, drained_cons]

/-! ## 4. Writes and reads -/

/-- What a client sees of a key: what the last admissible command of some entries made of it, or else
what the key held before them. -/
def visible (before : Table) (entries : List Bytes) (key : String) : String :=
  match Table.lastOf key (entries.filterMap Change.ofEntry?) with
  | some (.set _ value) => value
  | some (.remove _) => Ingress.keyNotFound
  | none => (before.get? key).getD Ingress.keyNotFound

omit [Storage σ]

theorem read_of_table {n : Node σ Recording} {t : Table} {entries : List Bytes}
    (h : n.table = t.changed (entries.filterMap Change.ofEntry?)) (key : String) :
    n.read (some key) = visible t entries key := by
  unfold read Ingress.read visible
  simp only [h, Table.get?_changed]
  cases Table.lastOf key (entries.filterMap Change.ofEntry?) with
  | none => rfl
  | some c => cases c <;> rfl

theorem write_ok_iff (n : Node σ Recording) (payload : Bytes) :
    (n.write payload).1 = .ok ↔ n.gateway.accepting = true := by
  have hreply : (n.write payload).1 = .ofVerdict n.gateway.accepting := rfl
  rw [hreply]
  cases n.gateway.accepting with
  | true => exact ⟨fun _ => rfl, fun _ => rfl⟩
  | false => exact ⟨fun h => (by cases h), fun h => (by cases h)⟩

/-- **From a client's write to its read.**  A node can be started over any snapshot or none.  After
any events: the committed entries, with the pending proposals after them, are all that was written, and
a commit would leave nothing pending; a write is answered by the verdict given last and changes no
store; and a read shows its key as the committed entries leave it. -/
theorem reads_see_committed (snapshot : Option Bytes) (accepting : Bool) :
    ∃ n : Node Memory Recording,
      start (Memory.ofSnapshot snapshot) (Recording.empty accepting) = .ok n ∧
      ∀ events, ∃ answers m, n.run events = (answers, m) ∧
        drained answers ++ m.gateway.pending = written events ∧
        m.commit.2.gateway.pending = [] ∧
        (∀ payload,
          ((m.write payload).1 = .ok ↔
            (events.filterMap Event.accepting?).getLast?.getD accepting = true) ∧
          (m.write payload).2.applier = m.applier) ∧
        (∀ key, m.read (some key) =
          visible (Memory.ofSnapshot snapshot).table (drained answers) key) ∧
        m.read none = Ingress.keyNotFound := by
  have hstart : start (Memory.ofSnapshot snapshot) (Recording.empty accepting) =
      .ok ⟨⟨⟨(Memory.ofSnapshot snapshot).table, .ofSnapshot snapshot⟩, .idle⟩, .empty accepting⟩ := by
    rw [start, Memory.load_eq]
  refine ⟨_, hstart, ?_⟩
  intro events
  refine ⟨_, _, rfl, drained_append_pending _ events, pending_commit _, ?_, ?_, rfl⟩
  · intro payload
    refine ⟨?_, rfl⟩
    rw [write_ok_iff, accepting_run]
    rfl
  · intro key
    exact read_of_table (table_run _ events) key

/-- A write that the gateway refused shows all the same, once it is committed. -/
example :
    ((⟨⟨⟨.empty, .ofSnapshot none⟩, .idle⟩, .empty false⟩ : Node Memory Recording).run
      [.write (Command.encode (.set "k" "v")), .read (some "k"), .commit, .read (some "k")]).1 =
      [.wrote .error, .read Ingress.keyNotFound,
        .committed [Command.encode (.set "k" "v")] [.ok true], .read "v"] :=
  rfl

end Replica.Node
