/-
  TokenTrust.Proofs.Session.Policy — what an attempt may have on record, by how it ends.

  A `Policy` is a property of an attempt's end together with its record that every attempt has if its
  parts have it: what a success has done comes before what follows, and what is done once the end is
  settled comes after it. A run that may not fail follows a policy like a success (`Policy.conduct`).
  - `Policy.Works`: what a policy has to permit for the work of a client that has all its keys, and
    `Policy.Serves` for that of any client.
  - `alarmsMatch`: there is one event for the operator if the error is one to be seen, and none else.
  - `neverUnsigned`, `neverUnset`: signing does not fail, nothing is missing.
  - `neverFails`, `onlyUnset`: there is no failure, or none but for what is missing.
-/

import TokenTrust.Proofs.Cache.Holdings

namespace TokenTrust

variable {σ α β : Type}

/-! ## Errors and alarms -/

namespace TrustError

def isAlarming : TrustError → Bool
  | signatureInvalid .. | recipientMismatch .. | notRegistered .. | transportFailed .. => true
  | _ => false

def isUnsigned : TrustError → Bool
  | signingFailed .. => true
  | _ => false

def isUnset : TrustError → Bool
  | configuration .. => true
  | _ => false

end TrustError

def failure? : Except TrustError α → Option TrustError
  | .ok _ => none
  | .error e => some e

/-- The events on record that the operator must see. -/
def alarmsOf (es : List Entry) : List Event :=
  es.filterMap fun
    | .event e => if e.level = .error then some e else none
    | _ => none

@[simp] theorem alarmsOf_nil : alarmsOf [] = [] := rfl

@[simp] theorem alarmsOf_append (es es' : List Entry) :
    alarmsOf (es ++ es') = alarmsOf es ++ alarmsOf es' := List.filterMap_append

theorem alarmsOf_alarm {e : Event} (h : e.level = .error) : alarmsOf [.event e] = [e] := by
  simp [alarmsOf, h]

theorem alarmsOf_note {e : Event} (h : e.level ≠ .error) : alarmsOf [.event e] = [] := by
  simp [alarmsOf, h]

/-! ## Policies -/

structure Policy where
  permits : Option TrustError → List Entry → Prop
  nothing : permits none []
  both : ∀ {r es es'}, permits none es → permits r es' → permits r (es ++ es')
  after : ∀ {r es es'}, permits r es → permits none es' → permits r (es ++ es')

def Policy.conduct (P : Policy) : Conduct σ where
  permits _ es _ := P.permits none es
  nothing _ := P.nothing
  both h h' := P.both h h'

theorem Policy.conduct_recaches (P : Policy) : (P.conduct : Conduct σ).Recaches := fun _ _ => P.nothing

/-- However the attempt ends, the policy permits its record then. -/
def Attempt.Follows (P : Policy) (x : Attempt σ α) : Prop :=
  ∀ s, let done := (ExceptT.run x).run s; P.permits (failure? done.value) done.entries

namespace Attempt.Follows

variable {P : Policy} {s s' : Session σ} {es : List Entry}

theorem ends {x : Attempt σ α} (hx : x.Follows P) {r : Except TrustError α}
    (h : (ExceptT.run x).Ends s r es s') : P.permits (failure? r) es := by
  have hs := hx s
  rw [Run.Ends] at h
  rwa [h] at hs

theorem of_ends {x : Attempt σ α}
    (h : ∀ s r es s', (ExceptT.run x).Ends s r es s' → P.permits (failure? r) es) : x.Follows P :=
  fun s => h s _ _ _ (Run.ends_run _ s)

theorem bind_of_gives {x : Attempt σ α} {f : α → Attempt σ β} (hx : x.Follows P)
    (hf : ∀ s a es s', x.Gives s a es s' → (f a).Follows P) : (x >>= f).Follows P := by
  apply of_ends
  intro s r es s' h
  rcases Attempt.ends_bind.mp h with ⟨a, es₁, s₁, es₂, hgives, hrest, rfl⟩ | ⟨e, rfl, hfails⟩
  · exact P.both (hx.ends hgives) ((hf _ _ _ _ hgives).ends hrest)
  · exact hx.ends hfails

theorem bind {x : Attempt σ α} {f : α → Attempt σ β} (hx : x.Follows P) (hf : ∀ a, (f a).Follows P) :
    (x >>= f).Follows P := hx.bind_of_gives fun _ a _ _ _ => hf a

theorem map {x : Attempt σ α} (hx : x.Follows P) (f : α → β) : (f <$> x).Follows P := by
  rw [← bind_pure_comp]
  exact hx.bind fun _ _ => P.nothing

theorem pure (a : α) : Attempt.Follows P (Pure.pure a : Attempt σ α) := fun _ => P.nothing

theorem lift {x : Run σ α} (hx : x.Keeps P.conduct) : (Attempt.lift x).Follows P := by
  apply of_ends
  intro s r es s' h
  cases r with
  | ok a => exact hx.ends (Attempt.gives_lift.mp h)
  | error e => exact absurd h Attempt.fails_lift

theorem throw {e : TrustError} (he : P.permits (some e) []) :
    Attempt.Follows P (throw e : Attempt σ α) := fun _ => he

theorem refuse {event : Event} {e : TrustError} (he : P.permits (some e) [.event event]) :
    (Attempt.refuse event e : Attempt σ α).Follows P := fun _ => he

theorem ofExcept {x : Except TrustError α} (hx : ∀ e, x = .error e → P.permits (some e) []) :
    (Attempt.ofExcept x : Attempt σ α).Follows P := by
  cases x with
  | ok a => exact fun _ => P.nothing
  | error e => exact fun _ => hx e rfl

/-- Something is done before the end comes into effect. -/
theorem before_end {x : Attempt σ α} {y : Run σ Unit} (hx : x.Follows P) (hy : y.Keeps P.conduct) :
    (do let result ← x.outcome; Attempt.lift y; Attempt.ofExcept result).Follows P := by
  apply of_ends
  intro s r es s' h
  rw [Attempt.ends_bind] at h
  rcases h with ⟨result, es₁, s₁, es₂, houtcome, h, rfl⟩ | ⟨e, -, houtcome⟩
  · rw [Attempt.ends_bind] at h
    rcases h with ⟨_, es₃, s₂, es₄, hgives, h, rfl⟩ | ⟨e, -, hfails⟩
    · obtain ⟨rfl, rfl, -⟩ := Run.ends_pure.mp h
      rw [List.append_nil]
      exact P.after (hx.ends (Attempt.gives_outcome.mp houtcome)) (hy.ends (Attempt.gives_lift.mp hgives))
    · exact absurd hfails Attempt.fails_lift
  · exact absurd houtcome Attempt.fails_outcome

end Attempt.Follows

/-! ## Clients -/

/-- What a client that lacks nothing may do: whatever is no cause for alarm is permitted, an error that is
one if it comes with one alarm, and what was found expired may be mended. Nothing is said of signing. -/
structure Policy.Works (P : Policy) : Prop where
  note : ∀ e, e.level ≠ .error → P.permits none [.event e]
  reading : ∀ t, P.permits none [.reading t]
  call : ∀ c, P.permits none [.call c]
  quiet : ∀ e, e.isAlarming = false → e.isUnsigned = false → e.isUnset = false → P.permits (some e) []
  alarm : ∀ event e, event.level = .error → e.isAlarming = true → P.permits (some e) [.event event]
  mended : ∀ {e es}, e.isRefreshable = true → P.permits (some e) es → P.permits none es

/-- A client that lacks something may say so, too. -/
structure Policy.Serves (P : Policy) : Prop extends P.Works where
  unset : ∀ missing, P.permits (some (.configuration missing)) []

namespace Policy.Works

variable {P : Policy}

theorem notes [Clock σ] (hP : P.Works) : (P.conduct : Conduct σ).Notes :=
  ⟨fun e _ he => hP.note e he, fun _ => hP.reading _⟩

theorem leases [Clock σ] {receives : Call → σ → σ → Prop} (hP : P.Works) :
    (P.conduct : Conduct σ).Leases receives := ⟨hP.notes, fun c _ _ _ => hP.call c⟩

/-- A calm refusal. -/
theorem remark (hP : P.Works) {event : Event} {e : TrustError} (hevent : event.level ≠ .error)
    (hcalm : e.isAlarming = false) (hsigned : e.isUnsigned = false) (hset : e.isUnset = false) :
    P.permits (some e) [.event event] :=
  P.both (hP.note event hevent) (hP.quiet e hcalm hsigned hset)

end Policy.Works

/-- If nothing is given, it may be said that something is missing. -/
def Policy.Excuses (P : Policy) (given : Option α) : Prop :=
  given = none → ∀ missing, P.permits (some (.configuration missing)) []

theorem Policy.Serves.excuses {P : Policy} (hP : P.Serves) (given : Option α) : P.Excuses given :=
  fun _ => hP.unset

theorem Policy.excuses_of_isSome {P : Policy} {given : Option α} (h : given.isSome = true) :
    P.Excuses given := by
  rintro rfl
  cases h

theorem Attempt.Follows.require {P : Policy} {given : Option α} (hgiven : P.Excuses given)
    (missing : String) : (Attempt.require given missing : Attempt σ α).Follows P := by
  unfold Attempt.require
  cases given with
  | some a => exact .pure a
  | none => exact .throw (hgiven rfl missing)

def alarmsDue (r : Option TrustError) : Nat := if r.any (·.isAlarming) then 1 else 0

/-- There are just as many alarms as the end calls for. -/
def alarmsMatch : Policy where
  permits r es := (alarmsOf es).length = alarmsDue r
  nothing := rfl
  both h h' := by rw [alarmsOf_append, List.length_append, h, h']; exact Nat.zero_add _
  after h h' := by rw [alarmsOf_append, List.length_append, h, h']; exact Nat.add_zero _

theorem alarmsMatch_serves : alarmsMatch.Serves where
  note e he := by simp [alarmsMatch, alarmsOf_note he, alarmsDue]
  reading _ := rfl
  call _ := rfl
  quiet e hcalm _ _ := by simp [alarmsMatch, alarmsDue, hcalm]
  alarm event e hevent halarming := by simp [alarmsMatch, alarmsOf_alarm hevent, alarmsDue, halarming]
  mended {e es} hlate h := by
    cases e with
    | expired => exact h
    | _ => cases hlate
  unset _ := rfl

def neverUnsigned : Policy where
  permits r _ := r.any (·.isUnsigned) = false
  nothing := rfl
  both _ h := h
  after h _ := h

theorem neverUnsigned_serves : neverUnsigned.Serves where
  note _ _ := rfl
  reading _ := rfl
  call _ := rfl
  quiet _ _ hsigned _ := hsigned
  alarm _ e _ halarming := by
    cases e with
    | signingFailed => cases halarming
    | _ => rfl
  mended _ _ := rfl
  unset _ := rfl

/-- Whatever fails fails with an error of some kind. -/
def failsOnly (kind : TrustError → Bool) : Policy where
  permits r _ := r.all kind = true
  nothing := rfl
  both _ h := h
  after h _ := h

theorem Run.keeps_failsOnly (kind : TrustError → Bool) (x : Run σ α) : x.Keeps (failsOnly kind).conduct :=
  fun _ => rfl

theorem failsOnly_notes [Clock σ] (kind : TrustError → Bool) :
    ((failsOnly kind).conduct : Conduct σ).Notes := ⟨fun _ _ _ => rfl, fun _ => rfl⟩

def neverFails : Policy := failsOnly fun _ => false

theorem Attempt.Follows.not_fails {x : Attempt σ α} (h : x.Follows neverFails) {s s' : Session σ}
    {e : TrustError} {es : List Entry} : ¬x.Fails s e es s' := by
  intro hfails
  cases h.ends hfails

theorem Attempt.Follows.exists_gives {x : Attempt σ α} (h : x.Follows neverFails) (s : Session σ) :
    ∃ a es s', x.Gives s a es s' := by
  have hends := Run.ends_run (ExceptT.run x) s
  cases hvalue : ((ExceptT.run x).run s).value with
  | ok a => exact ⟨a, _, _, hvalue ▸ hends⟩
  | error e => exact absurd (hvalue ▸ hends) h.not_fails

def onlyUnset : Policy := failsOnly (·.isUnset)

def neverUnset : Policy := failsOnly fun e => !e.isUnset

theorem neverUnset_works : neverUnset.Works where
  note _ _ := rfl
  reading _ := rfl
  call _ := rfl
  quiet e _ _ hset := by simpa [neverUnset, failsOnly] using hset
  alarm _ e _ halarming := by
    cases e with
    | configuration => cases halarming
    | _ => rfl
  mended _ _ := rfl

end TokenTrust
