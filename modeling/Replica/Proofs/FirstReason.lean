/-
# The first reason to stop

A node is stopped by one signal, and much can give it a reason: an operator, a server that ends, an
entry whose save fails.  Here any number of services share a signal.  Each has a store of its own and
applies the entries that it is handed, while reasons come in from elsewhere and storages may begin
to fail, or recover, at any time.

The signal is idle until the first of these gives a reason, and has that reason from then on.  Whether
a run has given one, and which was the first, is read off its events (`Services.Quiet`,
`Services.First`).

* `Services.reason?_step`: what one event does to the signal;
* `Services.reason?_after`: what a run does to it;
* `Services.first_reason_stays`: what everyone who asks the signal, waits for it or stops the node is
  told.
-/
import Mathlib.Logic.Function.Basic
import Replica.Site
import Replica.Proofs.SingleEntry

namespace Replica

/-! ## 1. Services that share a signal -/

/-- The stores of some services, and the signal that stops them all. -/
structure Services (ι σ : Type) where
  stores : ι → Store σ
  shutdown : Shutdown

namespace Services

/-- What can happen to services. -/
inductive Event (ι σ : Type) where
  /-- The signal is given a reason. -/
  | trigger (reason : StopReason)
  /-- A service is handed an entry. -/
  | entry (service : ι) (entry : Bytes)
  /-- The storage of a service comes into another state; its saves may fail there. -/
  | storage (service : ι) (state : σ)

variable {ι σ : Type}

/-- Services before any of them is handed an entry. -/
def started (stores : ι → Store σ) : Services ι σ := ⟨stores, .idle⟩

/-- A service as an applier of its own. -/
def applier (g : Services ι σ) (i : ι) : Applier σ := ⟨g.stores i, g.shutdown⟩

variable [Storage σ]

/-- What a service answers to an entry. -/
def answer (g : Services ι σ) (i : ι) (entry : Bytes) : Except Failure Bool :=
  ((g.applier i).applyEntry entry).1

/-- The reason that an event gives, if it gives one. -/
def given? (g : Services ι σ) : Event ι σ → Option StopReason
  | .trigger reason => some reason
  | .entry i entry =>
    match g.answer i entry with
    | .ok _ => none
    | .error f => some (.fatal f.message)
  | .storage _ _ => none

variable [DecidableEq ι]

/-- Services after an event. -/
def step (g : Services ι σ) : Event ι σ → Services ι σ
  | .trigger reason => { g with shutdown := g.shutdown.trigger reason }
  | .entry i entry =>
    let a := ((g.applier i).applyEntry entry).2
    ⟨Function.update g.stores i a.store, a.shutdown⟩
  | .storage i state =>
    { g with stores := Function.update g.stores i { g.stores i with storage := state } }

/-- Services after some events. -/
def after (g : Services ι σ) (events : List (Event ι σ)) : Services ι σ := events.foldl step g

/-- The states of the signal under some events, the first one included. -/
def signals (g : Services ι σ) : List (Event ι σ) → List Shutdown
  | [] => [g.shutdown]
  | e :: rest => g.shutdown :: (g.step e).signals rest

@[simp] theorem after_cons (g : Services ι σ) (e : Event ι σ) (events : List (Event ι σ)) :
    g.after (e :: events) = (g.step e).after events := rfl

theorem after_append (g : Services ι σ) (before after : List (Event ι σ)) :
    g.after (before ++ after) = (g.after before).after after :=
  List.foldl_append

/-- None of some events gives a reason. -/
def Quiet (g : Services ι σ) (events : List (Event ι σ)) : Prop :=
  ∀ before e after, events = before ++ e :: after → (g.after before).given? e = none

/-- Some events give a reason, and this is the first that they give. -/
def First (g : Services ι σ) (events : List (Event ι σ)) (reason : StopReason) : Prop :=
  ∃ before e after, events = before ++ e :: after ∧ g.Quiet before ∧
    (g.after before).given? e = some reason

end Services

/-! ## 2. One event

An event moves the signal only by the reason that it gives. -/

theorem Shutdown.reason?_trigger_or (s : Shutdown) (reason : StopReason) :
    (s.trigger reason).reason? = s.reason?.or (some reason) := by
  rw [reason?_trigger]
  cases s.reason? <;> rfl

namespace Services

variable {ι σ : Type} [Storage σ] [DecidableEq ι]

theorem shutdown_entry (g : Services ι σ) (i : ι) (entry : Bytes) :
    (g.step (.entry i entry)).shutdown =
      match g.answer i entry with
      | .ok _ => g.shutdown
      | .error f => g.shutdown.trigger (.fatal f.message) := by
  show ((g.applier i).applyEntry entry).2.shutdown = _
  unfold answer
  cases h : (g.applier i).applyEntry entry with
  | mk r a' =>
    rcases Applier.applyEntry_cases h with
      ⟨-, rfl, rfl⟩ | ⟨c, -, ⟨-, rfl, rfl⟩ | ⟨-, rfl, hs, -⟩ | ⟨-, f, rfl, hs, -⟩⟩
    · rfl
    · rfl
    · exact hs
    · exact hs

/-- An entry that does not fail leaves the signal as it is. -/
theorem shutdown_entry_of_ok {g : Services ι σ} {i : ι} {entry : Bytes} {applied : Bool}
    (h : g.answer i entry = .ok applied) : (g.step (.entry i entry)).shutdown = g.shutdown := by
  rw [shutdown_entry, h]

/-- **What one event does to the signal**: a reason that is there stays, and one that the event gives
fills an empty place. -/
theorem reason?_step (g : Services ι σ) (e : Event ι σ) :
    (g.step e).shutdown.reason? = g.shutdown.reason?.or (g.given? e) := by
  cases e with
  | trigger reason => exact Shutdown.reason?_trigger_or g.shutdown reason
  | entry i entry =>
    rw [shutdown_entry, given?]
    cases g.answer i entry with
    | ok applied => exact Option.or_none.symm
    | error f => exact Shutdown.reason?_trigger_or g.shutdown (.fatal f.message)
  | storage i state => exact Option.or_none.symm

/-! ## 3. A run -/

/-- The first reason that some events give, if they give one. -/
def first? (g : Services ι σ) : List (Event ι σ) → Option StopReason
  | [] => none
  | e :: rest => (g.given? e).or ((g.step e).first? rest)

/-- **What a run does to the signal**: a reason that is there stays, and the first that is given fills
an empty place. -/
theorem reason?_after (g : Services ι σ) (events : List (Event ι σ)) :
    (g.after events).shutdown.reason? = g.shutdown.reason?.or (g.first? events) := by
  induction events generalizing g with
  | nil => exact Option.or_none.symm
  | cons e rest ih => rw [after_cons, ih, reason?_step, Option.or_assoc, first?]

theorem quiet_nil (g : Services ι σ) : g.Quiet [] := by
  intro before e after h
  simp at h

theorem quiet_cons_iff (g : Services ι σ) (e : Event ι σ) (rest : List (Event ι σ)) :
    g.Quiet (e :: rest) ↔ g.given? e = none ∧ (g.step e).Quiet rest := by
  constructor
  · intro h
    refine ⟨h [] e rest rfl, fun before e' after hrest => ?_⟩
    exact h (e :: before) e' after (by rw [hrest, List.cons_append])
  · rintro ⟨hfirst, hrest⟩ before e' after heq
    cases before with
    | nil =>
      obtain ⟨rfl, rfl⟩ := List.cons.inj heq
      exact hfirst
    | cons b before =>
      obtain ⟨rfl, htail⟩ := List.cons.inj heq
      exact hrest before e' after htail

theorem first_cons_iff (g : Services ι σ) (e : Event ι σ) (rest : List (Event ι σ))
    (reason : StopReason) :
    g.First (e :: rest) reason ↔
      g.given? e = some reason ∨ g.given? e = none ∧ (g.step e).First rest reason := by
  constructor
  · rintro ⟨before, e', after, heq, hquiet, hgives⟩
    cases before with
    | nil =>
      obtain ⟨rfl, rfl⟩ := List.cons.inj heq
      exact .inl hgives
    | cons b before =>
      obtain ⟨rfl, htail⟩ := List.cons.inj heq
      obtain ⟨hnone, hrest⟩ := (g.quiet_cons_iff e before).mp hquiet
      exact .inr ⟨hnone, before, e', after, htail, hrest, hgives⟩
  · rintro (hgives | ⟨hnone, before, e', after, heq, hquiet, hgives⟩)
    · exact ⟨[], e, rest, rfl, g.quiet_nil, hgives⟩
    · refine ⟨e :: before, e', after, by rw [heq, List.cons_append], ?_, hgives⟩
      exact (g.quiet_cons_iff e before).mpr ⟨hnone, hquiet⟩

theorem first?_eq_none_iff (g : Services ι σ) (events : List (Event ι σ)) :
    g.first? events = none ↔ g.Quiet events := by
  induction events generalizing g with
  | nil => exact iff_of_true rfl g.quiet_nil
  | cons e rest ih => rw [quiet_cons_iff, ← ih, first?, Option.or_eq_none_iff]

theorem first?_eq_some_iff (g : Services ι σ) (events : List (Event ι σ)) (reason : StopReason) :
    g.first? events = some reason ↔ g.First events reason := by
  induction events generalizing g with
  | nil =>
    refine iff_of_false (by simp [first?]) ?_
    rintro ⟨before, e, after, heq, -⟩
    simp at heq
  | cons e rest ih => rw [first_cons_iff, ← ih, first?, Option.or_eq_some_iff]

/-- From the start on, the signal has the first reason that was given. -/
theorem reason?_started (stores : ι → Store σ) (events : List (Event ι σ)) :
    ((started stores).after events).shutdown.reason? = (started stores).first? events := by
  rw [reason?_after]
  exact Option.none_or

/-! ## 4. Those who wait, and those who stop the node -/

/-- A triggered signal keeps its reason, whatever happens. -/
theorem reason?_after_of_isTriggered {g : Services ι σ} (h : g.shutdown.isTriggered = true)
    (events : List (Event ι σ)) : (g.after events).shutdown.reason? = g.shutdown.reason? := by
  obtain ⟨reason, hreason⟩ := Option.isSome_iff_exists.mp h
  rw [reason?_after, hreason, Option.some_or]

/-- Once triggered, the signal has the reason that it has at the end of the run. -/
theorem reason?_of_mem_signals {g : Services ι σ} {events : List (Event ι σ)} {s : Shutdown}
    (h : s ∈ g.signals events) (hs : s.isTriggered = true) :
    s.reason? = (g.after events).shutdown.reason? := by
  -- A state on the way is where some of the events have led to; the others keep its reason.
  induction events generalizing g with
  | nil =>
    rw [List.mem_singleton.mp h]
    rfl
  | cons e rest ih =>
    rcases List.mem_cons.mp h with rfl | hrest
    · exact (reason?_after_of_isTriggered hs (e :: rest)).symm
    · exact ih hrest

end Services

/-- A waiter is told what the signal has at the first look at which it has a reason. -/
theorem Shutdown.wait_eq_of_forall {seen : List Shutdown} {reason? : Option StopReason}
    (h : ∀ s ∈ seen, s.isTriggered = true → s.reason? = reason?) :
    wait seen = if seen.any isTriggered then reason? else none := by
  induction seen with
  | nil => rfl
  | cons s rest ih =>
    obtain ⟨r?⟩ := s
    cases r? with
    | none => exact ih fun s hs => h s (List.mem_cons_of_mem _ hs)
    | some r => exact h ⟨some r⟩ List.mem_cons_self rfl

/-- One who looks when the signal is as it is in the end is told what it has then. -/
theorem Shutdown.wait_eq_of_mem {seen : List Shutdown} {last : Shutdown}
    (h : ∀ s ∈ seen, s.isTriggered = true → s.reason? = last.reason?) (hlast : last ∈ seen) :
    wait seen = last.reason? := by
  rw [wait_eq_of_forall h]
  split
  · rfl
  · next hnever =>
    have hidle : ¬ last.isTriggered = true := fun ht => hnever (List.any_eq_true.mpr ⟨last, hlast, ht⟩)
    exact (Option.not_isSome_iff_eq_none.mp hidle).symm

/-- A stop gives its own reason where there is none, and reports the one that there is then. -/
theorem Site.stop?_of_running {s : Site} {a : Applier FileStorage} (h : s.life = .running a) :
    ∃ s', s.stop? = some (a.shutdown.reason?.getD .requested, s') := by
  simp [stop?, trigger?, join?, onNode?, h, Shutdown.reason?_trigger]

namespace Services

variable {ι σ : Type} [Storage σ] [DecidableEq ι]

/-- **The first reason to stop stays.**  The signal is idle as long as no event has given a reason, and
has the first one from then on; an entry that does not fail leaves it alone.  Someone who waits from
any moment on, and looks at the signal at any moments after that, is told that reason if one of the looks
comes after it was given, and so in any case if one of them finds the signal as it is at the end.  A stop
asks for it too and is told the same, so that it reports its own request exactly if no reason was given
before it, or the first of them was such a request. -/
theorem first_reason_stays (stores : ι → Store σ) (events : List (Event ι σ)) :
    let g := started stores
    let signal := (g.after events).shutdown
    (signal.reason? = none ↔ g.Quiet events) ∧
    (∀ reason, signal.reason? = some reason ↔ g.First events reason) ∧
    (signal.isTriggered = true ↔ ¬ g.Quiet events) ∧
    (∀ i entry applied, (g.after events).answer i entry = .ok applied →
      (g.after (events ++ [.entry i entry])).shutdown = signal) ∧
    (∀ before after seen, events = before ++ after →
      List.Sublist seen ((g.after before).signals after) →
      (Shutdown.wait seen = if seen.any Shutdown.isTriggered then signal.reason? else none) ∧
      (signal ∈ seen → Shutdown.wait seen = signal.reason?)) ∧
    (∀ (s : Site) (a : Applier FileStorage), s.life = .running a → a.shutdown = signal →
      ∃ reason s', s.stop? = some (reason, s') ∧ (∀ r, g.First events r → reason = r) ∧
        (reason = .requested ↔ g.Quiet events ∨ g.First events .requested)) := by
  intro g signal
  have hreason : signal.reason? = g.first? events := reason?_started stores events
  have hquiet : signal.reason? = none ↔ g.Quiet events := by
    rw [hreason]
    exact g.first?_eq_none_iff events
  have hfirst : ∀ reason, signal.reason? = some reason ↔ g.First events reason := by
    intro reason
    rw [hreason]
    exact g.first?_eq_some_iff events reason
  refine ⟨hquiet, hfirst, ?_, ?_, ?_, ?_⟩
  · rw [← hquiet, Shutdown.isTriggered, Option.isSome_iff_ne_none]
  · intro i entry applied hok
    rw [after_append]
    exact shutdown_entry_of_ok hok
  · intro before after seen hevents hseen
    have htold : ∀ s ∈ seen, s.isTriggered = true → s.reason? = signal.reason? := by
      intro s hs htriggered
      have hend := reason?_of_mem_signals (hseen.subset hs) htriggered
      rw [hend, ← after_append, ← hevents]
    exact ⟨Shutdown.wait_eq_of_forall htold, Shutdown.wait_eq_of_mem htold⟩
  · intro s a hlife hshared
    obtain ⟨s', hstop⟩ := Site.stop?_of_running hlife
    refine ⟨_, s', hstop, ?_, ?_⟩
    · intro r hr
      rw [hshared, (hfirst r).mpr hr]
      rfl
    · rw [hshared, ← hquiet, ← hfirst]
      cases signal.reason? with
      | none => simp
      | some r => simp

/-- A save that fails is what stops the node, though it is asked to stop after that. -/
example :
    let g : Services Bool Memory := started fun _ => ⟨.empty, ⟨none, 0, true⟩⟩
    let events := [.entry true (Command.encode (.set "k" "v")), .trigger .requested]
    (g.after events).shutdown.reason? =
      some (.fatal "Persistence error: injected write failure") := by
  decide +kernel

/-- A stop also reports a request if it was not the first to make one. -/
theorem stop_after_request :
    let g : Services Unit FileStorage := started fun _ => ⟨.empty, ⟨"kv.db", true⟩, .empty⟩
    let requested := g.after [.trigger .requested]
    let site : Site := ⟨.default, none, ⟨.commit, true, []⟩, .running (requested.applier ())⟩
    ¬ g.Quiet [.trigger .requested] ∧ site.stop?.map Prod.fst = some .requested := by
  refine ⟨fun hquiet => ?_, rfl⟩
  have hgives := hquiet [] (.trigger .requested) [] rfl
  cases hgives

end Services
end Replica
