/-
  TokenTrust.Proofs.Session.Ending — how runs end, and what they do on the way.

  `Run.Ends` says where a run takes a session, and `Attempt.Gives` and `Attempt.Fails` the same of
  one that may fail. A run that is put together from others is taken apart by rewriting with the
  lemmas on `pure`, bind and the single operations; nothing else opens a run.

  A `Conduct` is a property that every run has if its single operations have it: it holds of doing
  nothing, and of one thing after the other. Those in use everywhere are `keepsCache`, `callsNothing`,
  and `looksOn`, which is both.
-/

import TokenTrust.Session.Run

namespace TokenTrust

variable {σ α β : Type}

/-! ## Ends -/

namespace Run

/-- The run takes the session `s` to `s'`, with the value `a` and `es` on record. -/
def Ends (x : Run σ α) (s : Session σ) (a : α) (es : List Entry) (s' : Session σ) : Prop :=
  x.run s = ⟨a, es, s'⟩

theorem ends_run (x : Run σ α) (s : Session σ) :
    x.Ends s (x.run s).value (x.run s).entries (x.run s).session := rfl

/-- A run has one end. -/
theorem Ends.unique {x : Run σ α} {s s₁ s₂ : Session σ} {a b : α} {es es' : List Entry}
    (h : x.Ends s a es s₁) (h' : x.Ends s b es' s₂) : b = a ∧ es' = es ∧ s₂ = s₁ := by
  have heq := h'.symm.trans h
  simpa using heq

variable {s s' : Session σ} {es : List Entry}

@[simp] theorem ends_pure {a b : α} :
    (pure a : Run σ α).Ends s b es s' ↔ b = a ∧ es = [] ∧ s' = s := by
  simp [Ends, eq_comm]

theorem ends_bind {x : Run σ α} {f : α → Run σ β} {b : β} :
    (x >>= f).Ends s b es s' ↔ ∃ a es₁ s₁ es₂,
      x.Ends s a es₁ s₁ ∧ (f a).Ends s₁ b es₂ s' ∧ es = es₁ ++ es₂ := by
  constructor
  · intro h
    simp only [Ends, run_bind, Outcome.mk.injEq] at h
    obtain ⟨rfl, rfl, rfl⟩ := h
    exact ⟨_, _, _, _, rfl, rfl, rfl⟩
  · rintro ⟨a, es₁, s₁, es₂, hx, hf, rfl⟩
    simp only [Ends] at hx hf ⊢
    simp [run_bind, hx, hf]

/-- What follows has the last word. -/
theorem Ends.last {x : Run σ α} {f : α → Run σ β} {b : β} (h : (x >>= f).Ends s b es s') :
    ∃ a s₁ es₂, (f a).Ends s₁ b es₂ s' := by
  obtain ⟨a, _, s₁, es₂, -, hf, -⟩ := ends_bind.mp h
  exact ⟨a, s₁, es₂, hf⟩

theorem ends_map {x : Run σ α} {f : α → β} {b : β} :
    (f <$> x).Ends s b es s' ↔ ∃ a, x.Ends s a es s' ∧ b = f a := by
  rw [← bind_pure_comp, ends_bind]
  constructor
  · rintro ⟨a, es₁, s₁, es₂, hx, hf, rfl⟩
    obtain ⟨rfl, rfl, rfl⟩ := ends_pure.mp hf
    exact ⟨a, by simpa using hx, rfl⟩
  · rintro ⟨a, hx, rfl⟩
    exact ⟨a, es, s', [], hx, by simp, by simp⟩

@[simp] theorem ends_log {e : Event} {u : Unit} :
    (log e).Ends s u es s' ↔ es = [.event e] ∧ s' = s := by
  simp [Ends, eq_comm]

@[simp] theorem ends_now [Clock σ] {t : Millis} :
    (now : Run σ Millis).Ends s t es s' ↔
      t = (Clock.read s.world).1 ∧ es = [.reading t] ∧
        s' = { s with world := (Clock.read s.world).2 } := by
  simp only [Ends, run_now, Outcome.mk.injEq]
  constructor
  · rintro ⟨rfl, rfl, rfl⟩
    exact ⟨rfl, rfl, rfl⟩
  · rintro ⟨rfl, rfl, rfl⟩
    exact ⟨rfl, rfl, rfl⟩

@[simp] theorem ends_cached {f : Cache → α × Cache} {a : α} :
    (cached f : Run σ α).Ends s a es s' ↔
      a = (f s.cache).1 ∧ es = [] ∧ s' = { s with cache := (f s.cache).2 } := by
  simp [Ends, eq_comm]

@[simp] theorem ends_call {f : σ → α × σ} {record : α → Call} {a : α} :
    (call f record).Ends s a es s' ↔
      a = (f s.world).1 ∧ es = [.call (record a)] ∧ s' = { s with world := (f s.world).2 } := by
  simp only [Ends, run_call, Outcome.mk.injEq]
  constructor
  · rintro ⟨rfl, rfl, rfl⟩
    exact ⟨rfl, rfl, rfl⟩
  · rintro ⟨rfl, rfl, rfl⟩
    exact ⟨rfl, rfl, rfl⟩

end Run

namespace Attempt

def Gives (x : Attempt σ α) (s : Session σ) (a : α) (es : List Entry) (s' : Session σ) : Prop :=
  (ExceptT.run x).Ends s (.ok a) es s'

def Fails (x : Attempt σ α) (s : Session σ) (e : TrustError) (es : List Entry) (s' : Session σ) :
    Prop :=
  (ExceptT.run x).Ends s (.error e) es s'

variable {s s' : Session σ} {es : List Entry}

@[simp] theorem gives_pure {a b : α} :
    (pure a : Attempt σ α).Gives s b es s' ↔ b = a ∧ es = [] ∧ s' = s := by
  simp [Gives]

@[simp] theorem fails_pure {a : α} {e : TrustError} :
    ¬(pure a : Attempt σ α).Fails s e es s' := by
  simp [Fails]

theorem ends_bind {x : Attempt σ α} {f : α → Attempt σ β} {r : Except TrustError β} :
    (ExceptT.run (x >>= f)).Ends s r es s' ↔
      (∃ a es₁ s₁ es₂, x.Gives s a es₁ s₁ ∧ (ExceptT.run (f a)).Ends s₁ r es₂ s' ∧
        es = es₁ ++ es₂) ∨
      ∃ e, r = .error e ∧ x.Fails s e es s' := by
  rw [ExceptT.run_bind, Run.ends_bind]
  constructor
  · rintro ⟨v, es₁, s₁, es₂, hx, hf, rfl⟩
    cases v with
    | ok a => exact .inl ⟨a, es₁, s₁, es₂, hx, hf, rfl⟩
    | error e =>
      obtain ⟨rfl, rfl, rfl⟩ := Run.ends_pure.mp hf
      exact .inr ⟨e, rfl, by simpa [Fails] using hx⟩
  · rintro (⟨a, es₁, s₁, es₂, hx, hf, rfl⟩ | ⟨e, rfl, hx⟩)
    · exact ⟨.ok a, es₁, s₁, es₂, hx, hf, rfl⟩
    · exact ⟨.error e, es, s', [], hx, by simp, by simp⟩

theorem gives_bind {x : Attempt σ α} {f : α → Attempt σ β} {b : β} :
    (x >>= f).Gives s b es s' ↔ ∃ a es₁ s₁ es₂,
      x.Gives s a es₁ s₁ ∧ (f a).Gives s₁ b es₂ s' ∧ es = es₁ ++ es₂ := by
  rw [Gives, ends_bind]
  simp [Gives]

theorem Gives.last {x : Attempt σ α} {f : α → Attempt σ β} {b : β} (h : (x >>= f).Gives s b es s') :
    ∃ a s₁ es₂, (f a).Gives s₁ b es₂ s' := by
  obtain ⟨a, _, s₁, es₂, -, hf, -⟩ := gives_bind.mp h
  exact ⟨a, s₁, es₂, hf⟩

theorem fails_bind {x : Attempt σ α} {f : α → Attempt σ β} {e : TrustError} :
    (x >>= f).Fails s e es s' ↔
      (∃ a es₁ s₁ es₂, x.Gives s a es₁ s₁ ∧ (f a).Fails s₁ e es₂ s' ∧ es = es₁ ++ es₂) ∨
      x.Fails s e es s' := by
  rw [Fails, ends_bind]
  simp [Fails]

@[simp] theorem gives_lift {x : Run σ α} {a : α} : (lift x).Gives s a es s' ↔ x.Ends s a es s' := by
  simp [Gives, lift, ExceptT.run_lift, Run.ends_map]

@[simp] theorem fails_lift {x : Run σ α} {e : TrustError} : ¬(lift x).Fails s e es s' := by
  simp [Fails, lift, ExceptT.run_lift, Run.ends_map]

@[simp] theorem gives_throw {a : α} {e : TrustError} : ¬(throw e : Attempt σ α).Gives s a es s' := by
  simp [Gives, ExceptT.run_throw]

@[simp] theorem fails_throw {e e' : TrustError} :
    (throw e : Attempt σ α).Fails s e' es s' ↔ e' = e ∧ es = [] ∧ s' = s := by
  simp [Fails, ExceptT.run_throw]

@[simp] theorem gives_log {e : Event} {u : Unit} :
    (log e : Attempt σ Unit).Gives s u es s' ↔ es = [.event e] ∧ s' = s := by
  simp [log]

@[simp] theorem fails_log {e : Event} {e' : TrustError} :
    ¬(log e : Attempt σ Unit).Fails s e' es s' := fails_lift

@[simp] theorem gives_now [Clock σ] {t : Millis} :
    (now : Attempt σ Millis).Gives s t es s' ↔ (Run.now : Run σ Millis).Ends s t es s' := gives_lift

@[simp] theorem fails_now [Clock σ] {e : TrustError} : ¬(now : Attempt σ Millis).Fails s e es s' :=
  fails_lift

@[simp] theorem gives_refuse {e : Event} {error : TrustError} {a : α} :
    ¬(refuse e error : Attempt σ α).Gives s a es s' := by
  simp [refuse, gives_bind]

@[simp] theorem fails_refuse {e : Event} {error error' : TrustError} :
    (refuse e error : Attempt σ α).Fails s error' es s' ↔
      error' = error ∧ es = [.event e] ∧ s' = s := by
  simp only [refuse, fails_bind, gives_log, fails_throw, fails_log, or_false]
  constructor
  · rintro ⟨_, es₁, s₁, es₂, ⟨rfl, rfl⟩, ⟨rfl, rfl, rfl⟩, rfl⟩
    exact ⟨rfl, rfl, rfl⟩
  · rintro ⟨rfl, rfl, rfl⟩
    exact ⟨(), _, _, [], ⟨rfl, rfl⟩, ⟨rfl, rfl, rfl⟩, rfl⟩

@[simp] theorem gives_ofExcept {x : Except TrustError α} {a : α} :
    (ofExcept x : Attempt σ α).Gives s a es s' ↔ x = .ok a ∧ es = [] ∧ s' = s := by
  simp [Gives, ofExcept, eq_comm]

@[simp] theorem fails_ofExcept {x : Except TrustError α} {e : TrustError} :
    (ofExcept x : Attempt σ α).Fails s e es s' ↔ x = .error e ∧ es = [] ∧ s' = s := by
  simp [Fails, ofExcept, eq_comm]

@[simp] theorem gives_require {given : Option α} {missing : String} {a : α} :
    (require given missing : Attempt σ α).Gives s a es s' ↔ given = some a ∧ es = [] ∧ s' = s := by
  cases given <;> simp [require, eq_comm]

@[simp] theorem fails_require {given : Option α} {missing : String} {e : TrustError} :
    (require given missing : Attempt σ α).Fails s e es s' ↔
      given = none ∧ e = .configuration missing ∧ es = [] ∧ s' = s := by
  cases given <;> simp [require]

@[simp] theorem gives_outcome {x : Attempt σ α} {r : Except TrustError α} :
    (outcome x).Gives s r es s' ↔ (ExceptT.run x).Ends s r es s' := gives_lift

@[simp] theorem fails_outcome {x : Attempt σ α} {e : TrustError} :
    ¬(outcome x).Fails s e es s' := fails_lift

end Attempt

/-! ## Conduct -/

/-- What a run may do to a session and leave on record: nothing at all, and one permitted thing
after the other. -/
structure Conduct (σ : Type) where
  permits : Session σ → List Entry → Session σ → Prop
  nothing : ∀ s, permits s [] s
  both : ∀ {s es s₁ es' s₂}, permits s es s₁ → permits s₁ es' s₂ → permits s (es ++ es') s₂

namespace Conduct

section Clock

variable [Clock σ]

/-- Looking at the clock is permitted, and so is saying what is no cause for alarm. -/
structure Notes (P : Conduct σ) : Prop where
  note : ∀ e s, e.level ≠ .error → P.permits s [.event e] s
  reading : ∀ s, P.permits s [.reading (Clock.read s.world).1]
    { s with world := (Clock.read s.world).2 }

/-- Looking at the clock and saying what happened is permitted. -/
structure Watches (P : Conduct σ) : Prop where
  event : ∀ e s, P.permits s [.event e] s
  reading : ∀ s, P.permits s [.reading (Clock.read s.world).1]
    { s with world := (Clock.read s.world).2 }

/-- Calling the service is permitted too, without alarm: `receives` says what a call makes of the
world. -/
structure Leases (P : Conduct σ) (receives : Call → σ → σ → Prop) : Prop extends P.Notes where
  call : ∀ c s world, receives c s.world world → P.permits s [.call c] { s with world }

/-- Calling the service is permitted too. -/
structure Calls (P : Conduct σ) (receives : Call → σ → σ → Prop) : Prop extends P.Watches where
  call : ∀ c s world, receives c s.world world → P.permits s [.call c] { s with world }

theorem Watches.notes {P : Conduct σ} (hP : P.Watches) : P.Notes := ⟨fun e s _ => hP.event e s, hP.reading⟩

theorem Calls.leases {P : Conduct σ} {receives : Call → σ → σ → Prop} (hP : P.Calls receives) :
    P.Leases receives := ⟨hP.toWatches.notes, hP.call⟩

end Clock

def keepsCache : Conduct σ where
  permits s _ s' := s'.cache = s.cache
  nothing _ := rfl
  both h h' := h'.trans h

theorem keepsCache_watches [Clock σ] : (keepsCache : Conduct σ).Watches :=
  ⟨fun _ _ => rfl, fun _ => rfl⟩

theorem keepsCache_calls [Clock σ] {receives : Call → σ → σ → Prop} :
    (keepsCache : Conduct σ).Calls receives := ⟨keepsCache_watches, fun _ _ _ _ => rfl⟩

end Conduct

def callsOf (es : List Entry) : List Call :=
  es.filterMap fun
    | .call c => some c
    | _ => none

@[simp] theorem callsOf_nil : callsOf [] = [] := rfl

@[simp] theorem callsOf_append (es es' : List Entry) :
    callsOf (es ++ es') = callsOf es ++ callsOf es' := List.filterMap_append

@[simp] theorem callsOf_event (e : Event) (es : List Entry) :
    callsOf (.event e :: es) = callsOf es := rfl

@[simp] theorem callsOf_reading (t : Millis) (es : List Entry) :
    callsOf (.reading t :: es) = callsOf es := rfl

@[simp] theorem callsOf_call (c : Call) (es : List Entry) :
    callsOf (.call c :: es) = c :: callsOf es := rfl

/-- The instant that a session shows next. -/
def Session.instant [Clock σ] (s : Session σ) : Millis := (Clock.read s.world).1

def readingsOf (es : List Entry) : List Millis :=
  es.filterMap fun
    | .reading t => some t
    | _ => none

@[simp] theorem readingsOf_nil : readingsOf [] = [] := rfl

@[simp] theorem readingsOf_append (es es' : List Entry) :
    readingsOf (es ++ es') = readingsOf es ++ readingsOf es' := List.filterMap_append

@[simp] theorem readingsOf_event (e : Event) (es : List Entry) :
    readingsOf (.event e :: es) = readingsOf es := rfl

@[simp] theorem readingsOf_reading (t : Millis) (es : List Entry) :
    readingsOf (.reading t :: es) = t :: readingsOf es := rfl

theorem mem_readingsOf {t : Millis} {es : List Entry} : t ∈ readingsOf es ↔ .reading t ∈ es := by
  constructor
  · intro h
    obtain ⟨entry, hentry, hreading⟩ := List.mem_filterMap.mp h
    cases entry with
    | reading now =>
      cases hreading
      exact hentry
    | event | call => cases hreading
  · intro h
    exact List.mem_filterMap.mpr ⟨.reading t, h, rfl⟩

def Conduct.callsNothing : Conduct σ where
  permits _ es _ := callsOf es = []
  nothing _ := rfl
  both h h' := by rw [callsOf_append, h, h']; rfl

theorem Conduct.callsNothing_watches [Clock σ] : (callsNothing : Conduct σ).Watches :=
  ⟨fun _ _ => rfl, fun _ => rfl⟩

def Conduct.looksOn : Conduct σ where
  permits s es s' := callsOf es = [] ∧ s'.cache = s.cache
  nothing _ := ⟨rfl, rfl⟩
  both h h' := ⟨by rw [callsOf_append, h.1, h'.1]; rfl, h'.2.trans h.2⟩

theorem Conduct.looksOn_watches [Clock σ] : (looksOn : Conduct σ).Watches :=
  ⟨fun _ _ => ⟨rfl, rfl⟩, fun _ => ⟨rfl, rfl⟩⟩

/-- Whatever session the run starts in, it behaves as `P` says. -/
def Run.Keeps (P : Conduct σ) (x : Run σ α) : Prop :=
  ∀ s, P.permits s (x.run s).entries (x.run s).session

def Attempt.Keeps (P : Conduct σ) (x : Attempt σ α) : Prop := Run.Keeps P (ExceptT.run x)

variable {P : Conduct σ}

namespace Run.Keeps

theorem ends {x : Run σ α} (hx : x.Keeps P) {s s' : Session σ} {a : α} {es : List Entry}
    (h : x.Ends s a es s') : P.permits s es s' := by
  have hs := hx s
  rw [Ends] at h
  rwa [h] at hs

theorem pure (a : α) : Run.Keeps P (Pure.pure a) := fun s => P.nothing s

theorem bind {x : Run σ α} {f : α → Run σ β} (hx : x.Keeps P) (hf : ∀ a, (f a).Keeps P) :
    (x >>= f).Keeps P := fun s => P.both (hx s) (hf _ _)

theorem log [Clock σ] (hP : P.Watches) (e : Event) : (Run.log e).Keeps P := fun s => hP.event e s

theorem note [Clock σ] (hP : P.Notes) {e : Event} (he : e.level ≠ .error) : (Run.log e).Keeps P :=
  fun s => hP.note e s he

theorem now [Clock σ] (hP : P.Notes) : (Run.now : Run σ Millis).Keeps P := fun s => hP.reading s

/-- What is put on record has to be what is done. -/
theorem call [Clock σ] {receives : Call → σ → σ → Prop} (hP : P.Leases receives)
    {f : σ → α × σ} {record : α → Call} (h : ∀ w, receives (record (f w).1) w (f w).2) :
    (Run.call f record).Keeps P := fun s => hP.call _ s _ (h s.world)

end Run.Keeps

namespace Attempt.Keeps

theorem gives {x : Attempt σ α} (hx : x.Keeps P) {s s' : Session σ} {a : α} {es : List Entry}
    (h : x.Gives s a es s') : P.permits s es s' := Run.Keeps.ends hx h

theorem fails {x : Attempt σ α} (hx : x.Keeps P) {s s' : Session σ} {e : TrustError}
    {es : List Entry} (h : x.Fails s e es s') : P.permits s es s' := Run.Keeps.ends hx h

theorem pure (a : α) : Attempt.Keeps P (Pure.pure a) := Run.Keeps.pure _

theorem bind {x : Attempt σ α} {f : α → Attempt σ β} (hx : x.Keeps P) (hf : ∀ a, (f a).Keeps P) :
    (x >>= f).Keeps P := by
  rw [Attempt.Keeps, ExceptT.run_bind]
  refine Run.Keeps.bind hx fun r => ?_
  cases r with
  | ok a => exact hf a
  | error e => exact Run.Keeps.pure _

theorem map {x : Attempt σ α} (hx : x.Keeps P) (f : α → β) : (f <$> x).Keeps P := by
  rw [← bind_pure_comp]
  exact hx.bind fun _ => pure _

theorem lift {x : Run σ α} (hx : x.Keeps P) : (Attempt.lift x).Keeps P :=
  Run.Keeps.bind hx fun _ => Run.Keeps.pure _

theorem throw (e : TrustError) : Attempt.Keeps P (throw e : Attempt σ α) := Run.Keeps.pure _

theorem ofExcept (x : Except TrustError α) : (Attempt.ofExcept x).Keeps P := Run.Keeps.pure _

theorem log [Clock σ] (hP : P.Watches) (e : Event) : (Attempt.log e).Keeps P := lift (.log hP e)

theorem note [Clock σ] (hP : P.Notes) {e : Event} (he : e.level ≠ .error) : (Attempt.log e).Keeps P :=
  lift (.note hP he)

theorem now [Clock σ] (hP : P.Notes) : (Attempt.now : Attempt σ Millis).Keeps P := lift (.now hP)

theorem refuse [Clock σ] (hP : P.Watches) (e : Event) (error : TrustError) :
    (Attempt.refuse e error : Attempt σ α).Keeps P := bind (log hP e) fun _ => throw error

theorem require (given : Option α) (missing : String) :
    (Attempt.require given missing).Keeps P := by
  unfold Attempt.require
  cases given with
  | some a => exact pure a
  | none => exact throw _

theorem outcome {x : Attempt σ α} (hx : x.Keeps P) : (Attempt.outcome x).Keeps P := lift hx

end Attempt.Keeps

end TokenTrust
