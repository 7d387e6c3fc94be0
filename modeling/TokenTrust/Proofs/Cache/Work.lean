/-
  TokenTrust.Proofs.Cache.Work — work on a cache, taken apart into what is done in one go.

  An `Act` is a step that nothing gets in between of. A lookup is two of them: it takes a copy of the
  entry, and it comes back with an answer once the copy was judged. What the judge does to the cache
  stands between the two. `Work` is any run of operations, each of which may depend on how the ones
  before have ended and on anything else that goes on; judges are such work themselves.

  - `findValid_eq_verdict`, `run_verdict`: a lookup up to the verdict, and from there on.
  - `cache_run`: work leaves the cache as its acts do, one after the other.
  - `start_of_mem_lookups`: every lookup in it, at whatever depth, starts with what the acts before it
    have left.
-/

import TokenTrust.Proofs.Cache.Entries
import TokenTrust.Proofs.Cache.Holdings

namespace TokenTrust

variable {σ α : Type}

/-! ## Acts -/

namespace Cache

/-- What is done to a cache in one go. -/
inductive Act where
  | put (key : Key) (token : Token)
  /-- A lookup takes a copy of what is under the key. -/
  | look (key : Key)
  /-- The lookup whose copy was `held` comes back with what it answers. -/
  | answer (key : Key) (held found : Option Token)
  | remove (key : Key)
  | clear
  deriving DecidableEq

def Act.effect : Act → Cache → Cache
  | put key t, c => (c.put key t).2
  | look key, c => (c.use key).2
  | answer _ _ (some _), c => c.hit
  | answer key (some t) none, c => (c.dropStale key t).2.miss
  | answer _ none none, c => c.miss
  | remove key, c => (c.remove key).2
  | clear, c => c.clear

def replay : List Act → Cache → Cache
  | [], c => c
  | a :: rest, c => replay rest (a.effect c)

@[simp] theorem replay_nil (c : Cache) : replay [] c = c := rfl

@[simp] theorem replay_cons (a : Act) (rest : List Act) (c : Cache) :
    replay (a :: rest) c = replay rest (a.effect c) := rfl

@[simp] theorem replay_append (acts acts' : List Act) (c : Cache) :
    replay (acts ++ acts') c = replay acts' (replay acts c) := by
  induction acts generalizing c with
  | nil => rfl
  | cons a rest ih => exact ih _

theorem Sound.effect {c : Cache} (h : c.Sound) (a : Act) : (a.effect c).Sound := by
  cases a with
  | put key t => exact h.put key t
  | look key => exact h.use key
  | answer key held found =>
    cases found with
    | some t => exact h.hit
    | none =>
      cases held with
      | some t => exact (h.dropStale key t).miss
      | none => exact h.miss
  | remove key => exact h.remove key
  | clear => exact h.clear

theorem Sound.replay {c : Cache} (h : c.Sound) (acts : List Act) : (replay acts c).Sound := by
  induction acts generalizing c with
  | nil => exact h
  | cons a rest ih => exact ih (h.effect a)

end Cache

/-! ## Lookups -/

section Lookups

variable [Clock σ]

/-- After a lookup has read the clock and taken its copy. -/
def Session.looking (s : Session σ) (key : Cache.Key) : Session σ where
  world := (Clock.read s.world).2
  cache := (s.cache.use key).2

/-- What a lookup has judged: the token under the key, unless it has expired. -/
def Session.candidate (s : Session σ) (key : Cache.Key) : Option Token :=
  (s.cache.peek? key).filter (·.isValidAt (Clock.read s.world).1)

section Candidate

variable {s : Session σ} {key : Cache.Key} {t : Token}

theorem Session.candidate_of_absent (h : s.cache.peek? key = none) : s.candidate key = none := by
  rw [candidate, h]
  rfl

theorem Session.candidate_of_held (h : s.cache.peek? key = some t) :
    s.candidate key = if t.isValidAt (Clock.read s.world).1 then some t else none := by
  rw [candidate, h, Option.filter_some]

theorem Session.candidate_eq_some_iff : s.candidate key = some t ↔
    s.cache.peek? key = some t ∧ t.isValidAt (Clock.read s.world).1 = true :=
  Option.filter_eq_some_iff

end Candidate

namespace Cache

/-- The first part of a lookup: its copy, and whether that may be used. -/
def verdict (key : Key) (judge : Token → Run σ Bool) : Run σ (Option Token × Bool) := do
  let now ← Run.now
  match ← Run.cached (·.use key) with
  | none => return (none, false)
  | some t => if t.isValidAt now then return (some t, ← judge t) else return (some t, false)

omit [Clock σ] in
def conclude (key : Key) : Option Token × Bool → Run σ (Option Token)
  | (some t, true) => answerHit key t
  | (some t, false) => answerStale key t
  | (none, _) => answerMiss key

theorem findValid_eq_verdict (key : Key) (judge : Token → Run σ Bool) :
    findValid key judge = verdict key judge >>= conclude key := by
  rw [findValid_eq, verdict, bind_assoc]
  congr
  funext now
  rw [bind_assoc]
  congr
  funext found
  cases found with
  | none => rfl
  | some t =>
    by_cases hvalid : t.isValidAt now = true
    · simp only [hvalid, if_true, bind_assoc, pure_bind]
      congr
      funext good
      cases good <;> rfl
    · simp only [hvalid, if_false, pure_bind, Bool.false_eq_true]
      rfl

omit [Clock σ] in
theorem fst_use (c : Cache) (key : Key) : (c.use key).1 = c.peek? key := by
  unfold use
  cases c.peek? key <;> rfl

/-- The judge is only asked about a candidate. -/
theorem run_verdict (key : Key) (judge : Token → Run σ Bool) (s : Session σ) :
    (verdict key judge).run s = match s.candidate key with
      | some t =>
        let judged := (judge t).run (s.looking key)
        ⟨(some t, judged.value), .reading (Clock.read s.world).1 :: judged.entries, judged.session⟩
      | none => ⟨(s.cache.peek? key, false), [.reading (Clock.read s.world).1], s.looking key⟩ := by
  unfold verdict
  simp only [Run.run_bind, Run.run_now, Run.run_cached, fst_use]
  cases hheld : s.cache.peek? key with
  | none =>
    rw [Session.candidate_of_absent hheld]
    rfl
  | some t =>
    rw [Session.candidate_of_held hheld]
    by_cases hvalid : t.isValidAt (Clock.read s.world).1 = true
    · simp only [hvalid, if_true, Run.run_bind, Run.run_pure, List.append_nil, List.nil_append]
      rfl
    · simp only [hvalid, if_false, Run.run_pure, Bool.false_eq_true, List.append_nil]
      rfl

theorem fst_value_verdict (key : Key) (judge : Token → Run σ Bool) (s : Session σ) :
    ((verdict key judge).run s).value.1 = s.cache.peek? key := by
  rw [run_verdict]
  cases hcandidate : s.candidate key with
  | none => rfl
  | some t => exact (Session.candidate_eq_some_iff.mp hcandidate).1.symm

omit [Clock σ] in
theorem run_answerStale (key : Key) (t : Token) (s : Session σ) :
    ((answerStale key t).run s).value = none ∧
      ((answerStale key t).run s).session =
        { s with cache := (s.cache.dropStale key t).2.miss } := by
  cases hdropped : (s.cache.dropStale key t).1 with
  | true =>
    simp only [answerStale, Run.run_bind, Run.run_cached, hdropped, if_true]
    exact ⟨rfl, rfl⟩
  | false =>
    simp only [answerStale, Run.run_bind, Run.run_cached, hdropped, Bool.false_eq_true, if_false]
    exact ⟨rfl, rfl⟩

omit [Clock σ] in
/-- The second part of a lookup as an act: it answers with its copy exactly if that may be used. -/
theorem run_conclude (key : Key) (held : Option Token) (good : Bool) (s : Session σ) :
    let found := if good then held else none
    ((conclude key (held, good)).run s).value = found ∧
      ((conclude key (held, good)).run s).session =
        { s with cache := (Act.answer key held found).effect s.cache } := by
  cases held with
  | none => cases good <;> exact ⟨rfl, rfl⟩
  | some t =>
    cases good with
    | true => exact ⟨rfl, rfl⟩
    | false =>
      exact run_answerStale key t s

/-- A lookup answers with its copy exactly if the verdict is good, and leaves behind what its second
part makes of the session after the verdict. -/
theorem run_findValid (key : Key) (judge : Token → Run σ Bool) (s : Session σ) :
    let judged := (verdict key judge).run s
    let done := (findValid key judge).run s
    done.value = (if judged.value.2 then s.cache.peek? key else none) ∧
      done.session = { judged.session with
        cache := (Act.answer key (s.cache.peek? key) done.value).effect judged.session.cache } := by
  intro judged done
  have hheld : judged.value.1 = s.cache.peek? key := fst_value_verdict key judge s
  have hdone : done = (verdict key judge >>= conclude key).run s := by rw [← findValid_eq_verdict]
  obtain ⟨hvalue, hsession⟩ := run_conclude key judged.value.1 judged.value.2 judged.session
  have hfound : done.value = if judged.value.2 then judged.value.1 else none := by
    rw [hdone]
    exact hvalue
  rw [← hheld, hfound, hdone]
  exact ⟨rfl, hsession⟩

end Cache

end Lookups

/-! ## Work -/

namespace Cache

/-- Operations on a cache, one after the other, and among them what leaves the cache alone. -/
inductive Work (σ : Type) : Type → Type 1 where
  | aside {α : Type} (x : Run σ α) (calm : x.Keeps .keepsCache) : Work σ α
  | andThen {α β : Type} (x : Work σ α) (f : α → Work σ β) : Work σ β
  | put (key : Key) (token : Token) : Work σ Unit
  | findValid (key : Key) (judge : Token → Work σ Bool) : Work σ (Option Token)
  | remove (key : Key) : Work σ (Option Token)
  | clear : Work σ Unit

/-- A lookup in a piece of work: what is looked up and who judges it, the acts before, and the session
it starts in. -/
structure Lookup (σ : Type) where
  key : Key
  judge : Token → Work σ Bool
  past : List Act
  start : Session σ

namespace Work

variable [Clock σ]

def run {α : Type} : Work σ α → Run σ α
  | aside x _ => x
  | andThen x f => x.run >>= fun a => (f a).run
  | put key t => store key t
  | findValid key judge => Cache.findValid key fun t => (judge t).run
  | remove key => Run.cached (·.remove key)
  | clear => Run.recache Cache.clear

omit [Clock σ] in
def find (key : Key) : Work σ (Option Token) := findValid key fun _ => aside (pure true) (.pure true)

def acts {α : Type} : Work σ α → Session σ → List Act
  | aside _ _, _ => []
  | andThen x f, s => x.acts s ++ (f (x.run.run s).value).acts (x.run.run s).session
  | put key t, _ => [.put key t]
  | findValid key judge, s =>
    .look key :: ((s.candidate key).elim [] fun t => (judge t).acts (s.looking key)) ++
      [.answer key (s.cache.peek? key) ((Cache.findValid key fun t => (judge t).run).run s).value]
  | remove key, _ => [.remove key]
  | clear, _ => [.clear]

/-- The lookups in the work, those of judges included, when it comes after the acts `past`. -/
def lookups {α : Type} : Work σ α → List Act → Session σ → List (Lookup σ)
  | andThen x f, past, s =>
    x.lookups past s ++
      (f (x.run.run s).value).lookups (past ++ x.acts s) (x.run.run s).session
  | findValid key judge, past, s =>
    ⟨key, judge, past, s⟩ ::
      (s.candidate key).elim [] fun t => (judge t).lookups (past ++ [.look key]) (s.looking key)
  | _, _, _ => []

def judging (key : Key) (judge : Token → Work σ Bool) (s : Session σ) : List Act :=
  .look key :: (s.candidate key).elim [] fun t => (judge t).acts (s.looking key)

/-- Up to the verdict, what was done to the cache was the copying, and then what the judge did. -/
theorem cache_verdict {key : Key} {judge : Token → Work σ Bool} {s : Session σ}
    (hjudge : ∀ t, ((judge t).run.run (s.looking key)).session.cache =
      replay ((judge t).acts (s.looking key)) (s.looking key).cache) :
    ((verdict key fun t => (judge t).run).run s).session.cache =
      replay (judging key judge s) s.cache := by
  rw [run_verdict, judging]
  cases s.candidate key with
  | none => rfl
  | some t => exact hjudge t

/-- Work leaves the cache as its acts do. -/
theorem cache_run (w : Work σ α) (s : Session σ) :
    (w.run.run s).session.cache = replay (w.acts s) s.cache := by
  induction w generalizing s with
  | aside x calm => exact calm s
  | andThen x f ihx ihf =>
    rw [run, Run.run_bind, acts, replay_append, ← ihx]
    exact ihf _ _
  | put key t => exact ends_store (Run.ends_run _ s)
  | findValid key judge ih =>
    obtain ⟨-, hsession⟩ := run_findValid key (fun t => (judge t).run) s
    rw [run, hsession, acts, ← judging, replay_append, ← cache_verdict fun t => ih t _]
    rfl
  | remove key => rfl
  | clear => rfl

/-- A lookup starts with what the acts before it have left, and these are the first acts of the work. -/
theorem start_of_mem_lookups {w : Work σ α} {past : List Act} {s : Session σ} {start : Cache}
    {l : Lookup σ} (hs : s.cache = replay past start) (h : l ∈ w.lookups past s) :
    l.start.cache = replay l.past start ∧ l.past <+: past ++ w.acts s := by
  induction w generalizing past s with
  | andThen x f ihx ihf =>
    rw [acts, ← List.append_assoc]
    rcases List.mem_append.mp h with h | h
    · obtain ⟨hstart, hprefix⟩ := ihx hs h
      exact ⟨hstart, hprefix.trans (List.prefix_append _ _)⟩
    · exact ihf _ (by rw [cache_run, hs, replay_append]) h
  | findValid key judge ih =>
    rcases List.mem_cons.mp h with rfl | h
    · exact ⟨hs, List.prefix_append _ _⟩
    · cases hcandidate : s.candidate key with
      | none =>
        rw [hcandidate] at h
        exact absurd h List.not_mem_nil
      | some t =>
        rw [hcandidate] at h
        have hlooking : (s.looking key).cache = replay (past ++ [.look key]) start := by
          rw [replay_append, ← hs]
          rfl
        obtain ⟨hstart, hprefix⟩ := ih t hlooking h
        refine ⟨hstart, hprefix.trans ?_⟩
        rw [acts, hcandidate]
        simp
  | aside | put | remove | clear => exact absurd h List.not_mem_nil

end Work

end Cache

/-! ## A cloakroom

A small cache, where it is always the same time. -/

structure Hour where
  time : Millis

instance : Clock Hour := ⟨fun w => (w.time, w)⟩

namespace Cloakroom

open Cache (Work)

def hook (number : String) : Cache.Key := ⟨number⟩

def ticket (subject : String) : Token :=
  let validity : Validity := { issuer := "01", issuedTo := "7", issuedTime := 0, notAfter := 9000 }
  { kind := .app, principal := { subject, validity }, validity }

/-- A judge who hangs up a ticket himself, and then rejects the one he was asked about. -/
def replacing (key : Cache.Key) (newer : Token) : Token → Work Hour Bool := fun _ =>
  .andThen (.put key newer) fun _ => .aside (pure false) (.pure _)

/-- The first ticket is looked up, and replaced while it is judged; the second one is then found. -/
def evening : Work Hour (Option Token) :=
  .andThen (.put (hook "1") (ticket "first")) fun _ =>
    .andThen (.findValid (hook "1") (replacing (hook "1") (ticket "second"))) fun _ => .find (hook "1")

def opening : Session Hour := ⟨⟨1000⟩, .ofCapacity 1⟩

end Cloakroom

end TokenTrust
