/-
# Proposals with a deadline

A gateway with a deadline sends each proposal once and waits for its answer no longer than the
deadline.  What it says about one proposal depends on that proposal's reply alone: a call that was
given up leaves nothing behind that a later call could meet.

* `Reply.settles_iff`: a caller that looks for the answer at every moment, and for its deadline after
  that, sees what `Reply.Settles` says;
* `Bounded.after`: a gateway after any calls, in either of the two ways to propose;
* `Bounded.waited_after_le`: so many calls wait at most so many deadlines;
* `Bounded.proposal_after`: what the next call does, whatever the calls before it came to.
-/
import Replica.Gateway

namespace Replica

/-! ## 1. One reply -/

namespace Reply

/-- What becomes of a reply that is waited for until a deadline: the result, and the nanoseconds that
pass. -/
inductive Settles (deadline : Duration) : Reply → Except Failure Bool → Nat → Prop where
  | inTime {delay : Duration} {result : Except Failure Bool} (h : delay.nanos ≤ deadline.nanos) :
    Settles deadline (.after delay result) result (min delay.nanos deadline.nanos)
  | late {delay : Duration} {result : Except Failure Bool} (h : deadline.nanos < delay.nanos) :
    Settles deadline (.after delay result) (.error (.timeout deadline))
      (min delay.nanos deadline.nanos)
  | silent : Settles deadline .never (.error (.timeout deadline)) deadline.nanos

theorem settles_within (deadline : Duration) (reply : Reply) :
    reply.Settles deadline (reply.within deadline).1 (reply.within deadline).2.nanos := by
  cases reply with
  | never => exact .silent
  | after delay result =>
    by_cases h : delay.nanos ≤ deadline.nanos
    · have inTime : Settles deadline (.after delay result) result _ := .inTime h
      rw [Nat.min_eq_left h] at inTime
      simpa only [within, if_pos h] using inTime
    · have late : Settles deadline (.after delay result) _ _ := .late (Nat.lt_of_not_le h)
      rw [Nat.min_eq_right (Nat.le_of_not_le h)] at late
      simpa only [within, if_neg h] using late

/-- The answer, if it has come so many nanoseconds after the question. -/
def answered (elapsed : Nat) : Reply → Option (Except Failure Bool)
  | .never => none
  | .after delay result => if delay.nanos ≤ elapsed then some result else none

/-- What a caller finds so many nanoseconds after it asked.  It looks for the answer first, and for its
deadline only where there is no answer. -/
def polled (deadline : Duration) (elapsed : Nat) (reply : Reply) : Option (Except Failure Bool) :=
  (reply.answered elapsed).or
    (if deadline.nanos ≤ elapsed then some (.error (.timeout deadline)) else none)

theorem Settles.spent_le {deadline : Duration} {reply : Reply} {result : Except Failure Bool}
    {spent : Nat} (h : reply.Settles deadline result spent) : spent ≤ deadline.nanos := by
  cases h with
  | inTime => exact Nat.min_le_right _ _
  | late => exact Nat.min_le_right _ _
  | silent => exact Nat.le_refl _

theorem Settles.polled_eq {deadline : Duration} {reply : Reply} {result : Except Failure Bool}
    {spent : Nat} (h : reply.Settles deadline result spent) :
    reply.polled deadline spent = some result := by
  cases h with
  | inTime h => rw [Nat.min_eq_left h, polled, answered, if_pos (Nat.le_refl _), Option.some_or]
  | late h =>
    rw [Nat.min_eq_right (Nat.le_of_lt h), polled, answered, if_neg (Nat.not_le_of_lt h),
      if_pos (Nat.le_refl _), Option.none_or]
  | silent => rw [polled, answered, if_pos (Nat.le_refl _), Option.none_or]

/-- Nothing is found before a call ends: neither the answer has come, nor has the deadline passed. -/
theorem Settles.polled_eq_none {deadline : Duration} {reply : Reply} {result : Except Failure Bool}
    {spent : Nat} (h : reply.Settles deadline result spent) {elapsed : Nat} (hlt : elapsed < spent) :
    reply.polled deadline elapsed = none := by
  have notAnswered : reply.answered elapsed = none := by
    cases h with
    | inTime => exact if_neg (Nat.not_le_of_lt (Nat.lt_of_lt_of_le hlt (Nat.min_le_left _ _)))
    | late => exact if_neg (Nat.not_le_of_lt (Nat.lt_of_lt_of_le hlt (Nat.min_le_left _ _)))
    | silent => rfl
  rw [polled, notAnswered, Option.none_or,
    if_neg (Nat.not_le_of_lt (Nat.lt_of_lt_of_le hlt h.spent_le))]

/-- A call ends at the first moment at which its caller finds something, with what it finds there. -/
theorem settles_iff {deadline : Duration} {reply : Reply} {result : Except Failure Bool}
    {spent : Nat} :
    reply.Settles deadline result spent ↔
      reply.polled deadline spent = some result ∧
        ∀ elapsed < spent, reply.polled deadline elapsed = none := by
  constructor
  · intro h
    exact ⟨h.polled_eq, fun _ hlt => h.polled_eq_none hlt⟩
  · rintro ⟨found, before⟩
    have ends := settles_within deadline reply
    -- there is one first moment only
    rcases Nat.lt_trichotomy spent (reply.within deadline).2.nanos with hlt | heq | hlt
    · rw [ends.polled_eq_none hlt] at found
      cases found
    · have same := ends.polled_eq
      rw [← heq, found] at same
      cases same
      rwa [← heq] at ends
    · have nothing := before _ hlt
      rw [ends.polled_eq] at nothing
      cases nothing

end Reply

/-! ## 2. Any transport -/

namespace Bounded

/-- A proposal made to a gateway: one that tells whether it was accepted, or one that keeps the cause of
a failure. -/
inductive Call where
  | propose (b : Bytes)
  | tryPropose (b : Bytes)
  deriving DecidableEq, Repr

def Call.bytes : Call → Bytes
  | .propose b | .tryPropose b => b

theorem accepted_eq_true_iff {result : Except Failure Bool} :
    accepted result = true ↔ result = .ok true := by
  cases result with
  | error _ => simp [accepted]
  | ok verdict => simp [accepted]

section AnyTransport

variable {τ : Type} [Transport τ]

/-- The gateway after a call.  What the call gave back is the caller's and left out. -/
def step (g : Bounded τ) : Call → Bounded τ
  | .propose b => (Gateway.propose b g).2
  | .tryPropose b => (g.tryPropose b).2

/-- The gateway after calls in order. -/
def after (g : Bounded τ) (calls : List Call) : Bounded τ := calls.foldl step g

theorem propose_eq (g : Bounded τ) (b : Bytes) :
    Gateway.propose b g = (accepted (g.tryPropose b).1, (g.tryPropose b).2) := rfl

/-- Both ways to propose do the same to a gateway. -/
theorem step_eq (g : Bounded τ) (x : Call) : g.step x = (g.tryPropose x.bytes).2 := by
  cases x <;> rfl

theorem step_deadline (g : Bounded τ) (x : Call) : (g.step x).deadline = g.deadline := by
  rw [step_eq]
  rfl

theorem after_deadline (g : Bounded τ) (calls : List Call) :
    (g.after calls).deadline = g.deadline := by
  induction calls generalizing g with
  | nil => rfl
  | cons x xs ih => exact (ih (g.step x)).trans (step_deadline g x)

theorem step_waited_le (g : Bounded τ) (x : Call) :
    (g.step x).waited.nanos ≤ g.waited.nanos + g.deadline.nanos := by
  have settled := Reply.settles_within g.deadline (Transport.call x.bytes g.transport).1
  rw [step_eq]
  exact Nat.add_le_add_left settled.spent_le _

/-- Calls one after the other wait no longer than so many deadlines. -/
theorem waited_after_le (g : Bounded τ) (calls : List Call) :
    (g.after calls).waited.nanos ≤ g.waited.nanos + calls.length * g.deadline.nanos := by
  induction calls generalizing g with
  | nil => simp [after]
  | cons x xs ih =>
    have first := step_waited_le g x
    have rest := ih (g.step x)
    rw [step_deadline] at rest
    calc ((g.step x).after xs).waited.nanos
        ≤ (g.step x).waited.nanos + xs.length * g.deadline.nanos := rest
      _ ≤ g.waited.nanos + g.deadline.nanos + xs.length * g.deadline.nanos :=
          Nat.add_le_add_right first _
      _ = g.waited.nanos + (x :: xs).length * g.deadline.nanos := by
          rw [List.length_cons, Nat.succ_mul]
          omega

end AnyTransport

/-! ## 3. A transport with a script -/

/-- The reply that a gateway gets to its next proposal after so many more. -/
def replyAfter (g : Bounded Scripted) (n : Nat) : Reply := g.transport.replies.getD n .never

/-- A proposal takes one reply off the script and sends its bytes once, whatever the reply is. -/
theorem step_transport (g : Bounded Scripted) (x : Call) :
    (g.step x).transport = ⟨g.transport.replies.tail, x.bytes :: g.transport.sent⟩ := by
  rw [step_eq]
  rfl

theorem after_transport (g : Bounded Scripted) (calls : List Call) :
    (g.after calls).transport =
      ⟨g.transport.replies.drop calls.length, (calls.map Call.bytes).reverse ++ g.transport.sent⟩ := by
  induction calls generalizing g with
  | nil => rfl
  | cons x xs ih =>
    have rest := ih (g.step x)
    rw [step_transport] at rest
    rw [List.length_cons, ← List.drop_tail, List.map_cons, List.reverse_cons, List.append_assoc]
    exact rest

theorem replyAfter_after (g : Bounded Scripted) (calls : List Call) :
    (g.after calls).transport.replies.headD .never = g.replyAfter calls.length := by
  rw [after_transport, List.headD_eq_head?_getD, List.head?_drop, replyAfter,
    List.getD_eq_getElem?_getD]

/-- The result of a call and the time that it takes are those of its own reply. -/
theorem tryPropose_after (g : Bounded Scripted) (calls : List Call) (b : Bytes) :
    (g.after calls).tryPropose b =
      (((g.replyAfter calls.length).within g.deadline).1,
        { transport := (Transport.call b (g.after calls).transport).2
          deadline := g.deadline
          waited := ⟨(g.after calls).waited.nanos +
            ((g.replyAfter calls.length).within g.deadline).2.nanos⟩ }) := by
  rw [← replyAfter_after, ← after_deadline g calls]
  rfl

/-- After any calls, a proposal is one call of the transport with the bytes of the proposal; its result
and the time it takes are settled by the deadline and the reply to it, both ways to propose do the
same, and calls before it with other replies and other bytes would have changed neither. -/
theorem proposal_after (g : Bounded Scripted) (calls : List Call) (b : Bytes) :
    ∃ (result : Except Failure Bool) (verdict : Bool) (spent : Nat) (next : Bounded Scripted),
      (g.after calls).tryPropose b = (result, next) ∧
      Gateway.propose b (g.after calls) = (verdict, next) ∧
      (verdict = true ↔ result = .ok true) ∧
      (g.replyAfter calls.length).Settles g.deadline result spent ∧
      next.waited.nanos = (g.after calls).waited.nanos + spent ∧
      next.transport = (Transport.call b (g.after calls).transport).2 ∧
      next.transport.sent = b :: ((calls.map Call.bytes).reverse ++ g.transport.sent) ∧
      ∀ (g' : Bounded Scripted) (calls' : List Call) (b' : Bytes), g'.deadline = g.deadline →
        g'.replyAfter calls'.length = g.replyAfter calls.length →
        ((g'.after calls').tryPropose b').1 = result ∧
          ((g'.after calls').tryPropose b').2.waited.nanos =
            (g'.after calls').waited.nanos + spent := by
  have now := tryPropose_after g calls b
  refine ⟨_, _, _, _, now, ?_, accepted_eq_true_iff, Reply.settles_within _ _, rfl, rfl, ?_, ?_⟩
  · rw [propose_eq, now]
  · change b :: (g.after calls).transport.sent = _
    rw [after_transport]
  · intro g' calls' b' sameDeadline sameReply
    rw [tryPropose_after, sameDeadline, sameReply]
    exact ⟨rfl, rfl⟩

/-- An answer that comes at the deadline counts, also where the deadline leaves no time at all and the
call before was given up. -/
example (b c : Bytes) :
    let g : Bounded Scripted := ⟨⟨[.never, .after ⟨0⟩ (.ok true)], []⟩, ⟨0⟩, ⟨0⟩⟩
    ((g.after [.propose b]).tryPropose c).1 = .ok true := rfl

end Bounded
end Replica
