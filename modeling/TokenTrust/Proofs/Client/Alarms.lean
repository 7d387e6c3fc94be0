/-
  TokenTrust.Proofs.Client.Alarms — what the operator of a client gets to see.

  Events at the level of errors are raised where tokens, assertions, principals and answers of the
  service are judged. A kept token is judged by the same check as an answer, but in silence: it is what
  comes of the operation that decides whether there is an alarm, not what was met on the way.
  - `operate_alarms`: one alarm if the operation ends in an error that is one, and none otherwise.
  - `lookup_unalarmed`: none for what a lookup meets in the cache.
  - `record_alarms`: over a run, as many alarms as operations that ended so.
-/

import TokenTrust.Proofs.Client.Operations
import TokenTrust.Proofs.Client.Trust

namespace TokenTrust

namespace Client

variable {σ : Type} [Clock σ]

theorem operate_alarms (c : Client σ) (op : Operation) : (c.operate op).Follows alarmsMatch :=
  operate_follows alarmsMatch_serves c.source.signsUnder_alarmsMatch op

theorem lookup_unalarmed (c : Client σ) (key : Cache.Key) (s : Session σ) :
    alarmsOf ((Cache.findValid key c.source.isValid).run s).entries = [] := by
  have hkeeps := Cache.findValid_keeps alarmsMatch_serves.notes alarmsMatch.conduct_recaches.drops
    (Source.isValid_keeps alarmsMatch_serves.notes c.source) key
  exact List.length_eq_zero_iff.mp (hkeeps.ends (Run.ends_run _ s))

theorem record_alarms (c : Client σ) (tasks : List (Task σ)) (start : Session σ) :
    ((c.record tasks start).flatMap fun x => alarmsOf x.done.entries).length =
      (c.record tasks start).countP fun x => (failure? x.done.value).any (·.isAlarming) := by
  induction tasks generalizing start with
  | nil => rfl
  | cons task rest ih =>
    have hfirst : (alarmsOf (c.report task start).done.entries).length =
        alarmsDue (failure? (c.report task start).done.value) :=
      (c.consulting task.directory).operate_alarms task.operation (task.meanwhile start)
    rw [record, List.flatMap_cons, List.length_append, ih, hfirst, List.countP_cons, alarmsDue,
      Nat.add_comm]

/-- However an operation ends, and in whatever state it began: if it ends in an error that the operator
is to see, it raises one alarm, and otherwise none. What a lookup meets in the cache raises none. So
over a run there are as many alarms as operations that ended in such an error. -/
theorem alarms_match_errors (c : Client σ) (s : Session σ) :
    (∀ op : Operation, let done := (ExceptT.run (c.operate op)).run s
      (∀ e, done.value = .error e → e.isAlarming = true →
        ∃ event, alarmsOf done.entries = [event]) ∧
      ((∀ e, done.value = .error e → e.isAlarming = false) → alarmsOf done.entries = [])) ∧
    (∀ key, alarmsOf ((Cache.findValid key c.source.isValid).run s).entries = []) ∧
    ∀ tasks : List (Task σ), ((c.record tasks s).flatMap fun x => alarmsOf x.done.entries).length =
      (c.record tasks s).countP fun x => (failure? x.done.value).any (·.isAlarming) := by
  refine ⟨?_, fun key => c.lookup_unalarmed key s, fun tasks => c.record_alarms tasks s⟩
  intro op done
  have hmatch : (alarmsOf done.entries).length = alarmsDue (failure? done.value) :=
    c.operate_alarms op s
  constructor
  · intro e he halarming
    refine List.length_eq_one_iff.mp ?_
    simpa [he, failure?, alarmsDue, halarming] using hmatch
  · intro hcalm
    refine List.length_eq_zero_iff.mp ?_
    cases hvalue : done.value with
    | ok u => rwa [hvalue] at hmatch
    | error e => simpa [hvalue, failure?, alarmsDue, hcalm e hvalue] using hmatch

end Client

/-- The unsigned token in the cache goes unnoticed, but not the one that the service answers. -/
example : alarmsOf ((ExceptT.run (Gateway.client.fetchOwn "456" none .use)).run
    { Gateway.tampered with world := ⟨1000, [Gateway.pass .app "1234" "456" 9000 none]⟩ }).entries =
    [.responseForged "1234"] := by decide +kernel

end TokenTrust
