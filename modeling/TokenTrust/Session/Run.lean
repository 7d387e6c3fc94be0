/-
  TokenTrust.Session.Run — computations of clients that share a cache and meet an outside world: a
  clock that may move between any two readings, and an issuing service that may answer anything.
  The world is a state of any type; a run leaves a record of every reading of the clock, every
  event and every call, in the order in which they happened.
-/

import TokenTrust.Cache.Basic
import TokenTrust.Service.Call
import TokenTrust.Session.Event

namespace TokenTrust

/-- A world with a clock, which may move when it is read. -/
class Clock (σ : Type) where
  read : σ → Millis × σ

inductive Entry where
  | reading (now : Millis)
  | event (e : Event)
  | call (c : Call)

structure Session (σ : Type) where
  world : σ
  cache : Cache

/-- The value that a run ends with, what happened in it, and the session it leaves. -/
structure Outcome (σ α : Type) where
  value : α
  entries : List Entry
  session : Session σ

structure Run (σ α : Type) where
  run : Session σ → Outcome σ α

namespace Run

variable {σ α β : Type}

theorem ext {x y : Run σ α} (h : ∀ s, x.run s = y.run s) : x = y := by
  cases x; cases y; congr; exact funext h

instance : Monad (Run σ) where
  pure a := ⟨fun s => ⟨a, [], s⟩⟩
  bind x f := ⟨fun s =>
    let o := x.run s
    let o' := (f o.value).run o.session
    ⟨o'.value, o.entries ++ o'.entries, o'.session⟩⟩

@[simp] theorem run_pure (a : α) (s : Session σ) : (pure a : Run σ α).run s = ⟨a, [], s⟩ := rfl

@[simp] theorem run_bind (x : Run σ α) (f : α → Run σ β) (s : Session σ) :
    (x >>= f).run s =
      ⟨((f (x.run s).value).run (x.run s).session).value,
        (x.run s).entries ++ ((f (x.run s).value).run (x.run s).session).entries,
        ((f (x.run s).value).run (x.run s).session).session⟩ := rfl

instance : LawfulMonad (Run σ) := LawfulMonad.mk' (Run σ)
  (fun x => ext fun s => by simp [Functor.map])
  (fun a f => ext fun s => by simp)
  (fun x f g => ext fun s => by simp)

def log (e : Event) : Run σ Unit := ⟨fun s => ⟨(), [.event e], s⟩⟩

def now [Clock σ] : Run σ Millis := ⟨fun s =>
  let (t, world) := Clock.read s.world
  ⟨t, [.reading t], { s with world }⟩⟩

def cached (f : Cache → α × Cache) : Run σ α := ⟨fun s =>
  let (a, cache) := f s.cache
  ⟨a, [], { s with cache }⟩⟩

def recache (f : Cache → Cache) : Run σ Unit := cached fun c => ((), f c)

/-- A call on the world; `record` says what it was, once its answer is known. -/
def call (f : σ → α × σ) (record : α → Call) : Run σ α := ⟨fun s =>
  let (a, world) := f s.world
  ⟨a, [.call (record a)], { s with world }⟩⟩

@[simp] theorem run_log (e : Event) (s : Session σ) : (log e).run s = ⟨(), [.event e], s⟩ := rfl

@[simp] theorem run_now [Clock σ] (s : Session σ) :
    (now : Run σ Millis).run s =
      ⟨(Clock.read s.world).1, [.reading (Clock.read s.world).1],
        { s with world := (Clock.read s.world).2 }⟩ := rfl

@[simp] theorem run_cached (f : Cache → α × Cache) (s : Session σ) :
    (cached f : Run σ α).run s = ⟨(f s.cache).1, [], { s with cache := (f s.cache).2 }⟩ := rfl

@[simp] theorem run_recache (f : Cache → Cache) (s : Session σ) :
    (recache f : Run σ Unit).run s = ⟨(), [], { s with cache := f s.cache }⟩ := rfl

@[simp] theorem run_call (f : σ → α × σ) (record : α → Call) (s : Session σ) :
    (call f record).run s =
      ⟨(f s.world).1, [.call (record (f s.world).1)], { s with world := (f s.world).2 }⟩ := rfl

end Run

abbrev Attempt (σ : Type) := ExceptT TrustError (Run σ)

namespace Attempt

variable {σ α : Type}

def lift (x : Run σ α) : Attempt σ α := ExceptT.lift x

/-- Runs what may fail, and goes on with how it ended. -/
def outcome (x : Attempt σ α) : Attempt σ (Except TrustError α) := lift x.run

def ofExcept (x : Except TrustError α) : Attempt σ α := ExceptT.mk (pure x)

def log (e : Event) : Attempt σ Unit := lift (Run.log e)

def now [Clock σ] : Attempt σ Millis := lift Run.now

/-- Says what happened, and fails. -/
def refuse (e : Event) (error : TrustError) : Attempt σ α := do
  log e
  throw error

/-- What is given, or an error that says what is missing. -/
def require (given : Option α) (missing : String) : Attempt σ α :=
  match given with
  | some a => return a
  | none => throw (.configuration missing)

end Attempt

def Millis.fromNow {σ : Type} [Clock σ] (span : Millis) : Run σ Millis :=
  return Millis.after (← Run.now) span

end TokenTrust
