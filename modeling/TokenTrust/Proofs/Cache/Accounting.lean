/-
  TokenTrust.Proofs.Cache.Accounting — the counters of a cache add up.

  Whatever work is done on a cache, and whatever its judges do to the cache in the middle of a lookup:
  every entry that ever came in is still there or was counted when it went, and every lookup that has
  come back is a hit or a miss.
  - `effect_balance`: one act moves both sides by the same.
  - `replay_balance`: so does any number of acts, whoever they are from and in whatever order.
  - `accounts_balance`: this at every point of any work on a new cache.
-/

import TokenTrust.Proofs.Cache.Work

namespace TokenTrust.Cache

/-! ## Counting -/

namespace Act

def newEntries : Act → Cache → Nat
  | put key _, c => if c.peek? key = none then 1 else 0
  | _, _ => 0

def handedBack : Act → Cache → Nat
  | remove key, c => if (c.remove key).1 = none then 0 else 1
  | _, _ => 0

def cleared : Act → Cache → Nat
  | clear, c => c.size
  | _, _ => 0

def lookups : Act → Cache → Nat
  | answer .., _ => 1
  | _, _ => 0

def found : Act → Cache → Nat
  | answer _ _ (some _), _ => 1
  | _, _ => 0

end Act

/-- What the acts count up to, each one on the cache that it finds. -/
def tally (count : Act → Cache → Nat) : List Act → Cache → Nat
  | [], _ => 0
  | a :: rest, c => count a c + tally count rest (a.effect c)

theorem tally_le {count : Act → Cache → Nat} (hcount : ∀ a c, count a c ≤ 1) (acts : List Act)
    (c : Cache) : tally count acts c ≤ acts.length := by
  induction acts generalizing c with
  | nil => exact Nat.le_refl _
  | cons a rest ih =>
    have hfirst := hcount a c
    have hrest := ih (a.effect c)
    simp only [tally, List.length_cons]
    omega

theorem Act.newEntries_le (a : Act) (c : Cache) : a.newEntries c ≤ 1 := by
  cases a with
  | put key t =>
    simp only [newEntries]
    split <;> omega
  | _ => exact Nat.zero_le _

theorem Act.lookups_le (a : Act) (c : Cache) : a.lookups c ≤ 1 := by
  cases a <;> simp [lookups]

/-! ## Balance -/

section Balance

variable {c : Cache} {key : Key} {t : Token}

/-- The entries that came in and did not go in any other way than to make room or as stale. -/
def accountedFor (c : Cache) : Nat := c.size + c.capacityEvictions + c.expiryEvictions

theorem size_use (h : c.Sound) (key : Key) : (c.use key).2.size = c.size := by
  cases hheld : c.peek? key with
  | none => rw [use_of_absent hheld]
  | some t =>
    rw [use_of_held hheld]
    exact h.length_others hheld

theorem accountedFor_use (h : c.Sound) (key : Key) :
    (c.use key).2.accountedFor = c.accountedFor := by
  have hsize := size_use h key
  unfold accountedFor
  rw [hsize]
  cases hheld : c.peek? key with
  | none => rw [use_of_absent hheld]
  | some t => rw [use_of_held hheld]

theorem accountedFor_put (h : c.Sound) (key : Key) (t : Token) :
    (c.put key t).2.accountedFor = c.accountedFor + (if c.peek? key = none then 1 else 0) := by
  have hothers : (c.others key).length + 1 = c.size + (if c.peek? key = none then 1 else 0) := by
    cases hheld : c.peek? key with
    | none => simp [others_of_absent hheld, size]
    | some u => simpa using h.length_others hheld
  unfold accountedFor Cache.put
  simp only
  split
  · simp only [size, List.length_cons] at hothers ⊢
    omega
  · simp only [size, List.length_dropLast, List.length_cons] at hothers ⊢
    omega

theorem accountedFor_dropStale (h : c.Sound) (key : Key) (t : Token) :
    (c.dropStale key t).2.accountedFor = c.accountedFor := by
  unfold dropStale
  split
  · rename_i hheld
    have hothers := h.length_others hheld
    simp only [accountedFor, size] at hothers ⊢
    omega
  · rfl

theorem accountedFor_remove (h : c.Sound) (key : Key) :
    (c.remove key).2.accountedFor + (if (c.remove key).1 = none then 0 else 1) = c.accountedFor := by
  cases hheld : c.peek? key with
  | none => simp [remove, hheld, others_of_absent hheld, accountedFor, size]
  | some t =>
    have hothers := h.length_others hheld
    simp only [remove, hheld, accountedFor, size, reduceCtorEq, if_false] at hothers ⊢
    omega

/-- One act on a cache. -/
theorem effect_balance (h : c.Sound) (a : Act) :
    (a.effect c).accountedFor + a.handedBack c + a.cleared c = c.accountedFor + a.newEntries c := by
  cases a with
  | put key t => exact accountedFor_put h key t
  | look key => exact accountedFor_use h key
  | answer key held found =>
    cases found with
    | some t => rfl
    | none =>
      cases held with
      | some t => exact accountedFor_dropStale h key t
      | none => rfl
  | remove key => exact accountedFor_remove h key
  | clear =>
    simp only [Act.effect, Act.handedBack, Act.cleared, Act.newEntries, Cache.clear, accountedFor, size,
      List.length_nil]
    omega

theorem effect_lookups (a : Act) (c : Cache) :
    (a.effect c).hits = c.hits + a.found c ∧
      (a.effect c).hits + (a.effect c).misses = c.hits + c.misses + a.lookups c := by
  cases a with
  | answer key held found =>
    cases found with
    | some t => exact ⟨rfl, Nat.add_right_comm _ _ _⟩
    | none => cases held <;> simp [Act.effect, Act.found, Act.lookups, miss, Nat.add_assoc]
  | _ => simp [Act.effect, Act.found, Act.lookups, remove, Cache.clear]

theorem effect_capacity (a : Act) (c : Cache) : (a.effect c).capacity = c.capacity := by
  cases a with
  | answer key held found => cases held <;> cases found <;> simp [Act.effect, hit, miss]
  | _ => simp [Act.effect, remove, Cache.clear]

/-- Any number of acts on a cache. -/
theorem replay_balance (h : c.Sound) (acts : List Act) :
    (replay acts c).accountedFor + tally Act.handedBack acts c + tally Act.cleared acts c =
      c.accountedFor + tally Act.newEntries acts c := by
  induction acts generalizing c with
  | nil => rfl
  | cons a rest ih =>
    have hfirst := effect_balance h a
    have hrest := ih (h.effect a)
    simp only [replay_cons, tally]
    omega

theorem replay_lookups (acts : List Act) (c : Cache) :
    (replay acts c).hits = c.hits + tally Act.found acts c ∧
      (replay acts c).hits + (replay acts c).misses = c.hits + c.misses + tally Act.lookups acts c := by
  induction acts generalizing c with
  | nil => exact ⟨rfl, rfl⟩
  | cons a rest ih =>
    obtain ⟨hhits, hlookups⟩ := effect_lookups a c
    obtain ⟨hhits', hlookups'⟩ := ih (a.effect c)
    simp only [replay_cons, tally]
    omega

theorem replay_capacity (acts : List Act) (c : Cache) : (replay acts c).capacity = c.capacity := by
  induction acts generalizing c with
  | nil => rfl
  | cons a rest ih => exact (ih _).trans (effect_capacity a c)

end Balance

/-! ## Work on a new cache -/

/-- The books of a cache that was new for `n` entries, after some acts. -/
structure Balances (n : Nat) (past : List Act) (c : Cache) : Prop where
  capacity : c.capacity = max 1 n
  fits : c.size ≤ c.capacity
  unique : (c.entries.map (·.1)).Nodup
  lookups : c.hits + c.misses = tally Act.lookups past (ofCapacity n)
  hits : c.hits = tally Act.found past (ofCapacity n)
  entries : tally Act.newEntries past (ofCapacity n) =
    c.size + c.capacityEvictions + c.expiryEvictions +
      tally Act.handedBack past (ofCapacity n) + tally Act.cleared past (ofCapacity n)
  /-- So in fewer than `2 ^ 64` acts no counter outgrows 64 bits. -/
  bounded : c.hits + c.misses ≤ past.length ∧ c.capacityEvictions + c.expiryEvictions ≤ past.length

theorem balances_replay (n : Nat) (past : List Act) :
    Balances n past (replay past (ofCapacity n)) := by
  have hsound := (sound_ofCapacity n).replay past
  have hbalance := replay_balance (sound_ofCapacity n) past
  obtain ⟨hhits, hlookups⟩ := replay_lookups past (ofCapacity n)
  have hnew := tally_le Act.newEntries_le past (ofCapacity n)
  have hback := tally_le Act.lookups_le past (ofCapacity n)
  have hnone : (ofCapacity n).accountedFor = 0 ∧ (ofCapacity n).hits = 0 ∧ (ofCapacity n).misses = 0 :=
    ⟨rfl, rfl, rfl⟩
  unfold accountedFor at hbalance
  exact {
    capacity := replay_capacity past _
    fits := hsound.fits
    unique := hsound.nodup
    lookups := by omega
    hits := by omega
    entries := by unfold accountedFor at hnone; omega
    bounded := by unfold accountedFor at hnone; omega }

variable {σ α : Type} [Clock σ]

/-- Work on a new cache does to it what its acts do, and the books balance at every point in between:
before and after every act, and so whenever a judge begins or has the cache to itself. -/
theorem accounts_balance (n : Nat) (w : Work σ α) (world : σ) :
    let start : Session σ := ⟨world, .ofCapacity n⟩
    (w.run.run start).session.cache = replay (w.acts start) start.cache ∧
      (∀ past, past <+: w.acts start → Balances n past (replay past start.cache)) ∧
      ∀ l ∈ w.lookups [] start, l.past <+: w.acts start ∧ Balances n l.past l.start.cache := by
  intro start
  refine ⟨w.cache_run start, fun past _ => balances_replay n past, fun l hl => ?_⟩
  have hnew : start.cache = replay [] start.cache := rfl
  obtain ⟨hcache, hpast⟩ := Work.start_of_mem_lookups hnew hl
  rw [hcache]
  exact ⟨hpast, balances_replay n l.past⟩

open Cloakroom in
example :
    let c := (evening.run.run opening).session.cache
    (c.hits, c.misses, c.size, tally Act.newEntries (evening.acts opening) opening.cache) =
      (1, 1, 1, 1) := by
  decide +kernel

end TokenTrust.Cache
