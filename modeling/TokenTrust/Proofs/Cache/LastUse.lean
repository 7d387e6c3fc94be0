/-
  TokenTrust.Proofs.Cache.LastUse — a cache keeps what was used last, and drops what was not used for
  longest.

  A key is used when a token is put under it, and when a lookup finds one there, whatever the lookup
  answers in the end. Nothing else is use: not a lookup that finds nothing, nor that a failing lookup
  compares what it has judged with what is there.
  - `entries_effect`: the entry of a used key comes first, and otherwise entries only go.
  - `byLastUse_replay`: so the entries stand in the order in which their keys were used last.
  - `KeptBehind.replay`: and an entry that nobody takes out stays while few other keys are used.
  - `oldestGoes_put`: the one that makes room is that of the key whose last use is the oldest.
  - `least_recent_goes`: this at every point of any work on a new cache.
-/

import Mathlib.Data.Finset.Card
import TokenTrust.Proofs.Cache.Accounting
import TokenTrust.Proofs.Cache.Lookups
import TokenTrust.Proofs.Cache.Recency

namespace TokenTrust.Cache

variable {c start : Cache} {key key' victim : Key} {t u : Token} {used keys : List Key}
variable {entries : List (Key × Token)} {acts past : List Act}

/-! ## Use -/

def Act.uses : Act → Cache → Option Key
  | put key _, _ => some key
  | look key, c => (c.peek? key).map fun _ => key
  | _, _ => none

/-- The keys that acts use, the last one first. -/
def usesOf : List Act → Cache → List Key
  | [], _ => []
  | a :: rest, c => usesOf rest (a.effect c) ++ (a.uses c).toList

/-- The act takes out what is under the key: by name, with all the rest, or as stale. -/
def Act.TakesOut (key : Key) : Act → Cache → Prop
  | remove key', _ => key' = key
  | clear, _ => True
  | answer key' (some t) none, c => key' = key ∧ c.peek? key = some t
  | _, _ => False

def LeftAlone (key : Key) : List Act → Cache → Prop
  | [], _ => True
  | a :: rest, c => ¬ a.TakesOut key c ∧ LeftAlone key rest (a.effect c)

instance decidableTakesOut (key : Key) : (a : Act) → (c : Cache) → Decidable (a.TakesOut key c)
  | .remove key', _ => inferInstanceAs (Decidable (key' = key))
  | .clear, _ => .isTrue trivial
  | .answer key' (some t) none, c => inferInstanceAs (Decidable (key' = key ∧ c.peek? key = some t))
  | .put .., _ | .look _, _ | .answer _ none none, _ => .isFalse id
  | .answer _ none (some _), _ | .answer _ (some _) (some _), _ => .isFalse id

instance decidableLeftAlone (key : Key) : (acts : List Act) → (c : Cache) → Decidable (LeftAlone key acts c)
  | [], _ => .isTrue trivial
  | a :: rest, c =>
    have := decidableLeftAlone key rest (a.effect c)
    inferInstanceAs (Decidable (¬ a.TakesOut key c ∧ LeftAlone key rest (a.effect c)))

def othersUsed (key : Key) (acts : List Act) (c : Cache) : Finset Key :=
  (usesOf acts c).toFinset.erase key

/-! ## The order of the entries -/

/-- Without use, entries only go; after use, the entry of the key stands in front of what is left. -/
theorem entries_effect (a : Act) (c : Cache) :
    a.uses c = none ∧ (a.effect c).entries.Sublist c.entries ∨
      ∃ key t, a.uses c = some key ∧ (a.effect c).entries.Sublist ((key, t) :: c.others key) := by
  cases a with
  | put key t =>
    refine .inr ⟨key, t, rfl, ?_⟩
    show (c.put key t).2.entries.Sublist _
    unfold Cache.put
    dsimp only
    split
    · exact List.Sublist.refl _
    · exact List.dropLast_sublist _
  | look key =>
    cases hheld : c.peek? key with
    | none =>
      refine .inl ⟨by simp [Act.uses, hheld], ?_⟩
      show (c.use key).2.entries.Sublist _
      rw [use_of_absent hheld]
    | some t =>
      refine .inr ⟨key, t, by simp [Act.uses, hheld], ?_⟩
      show (c.use key).2.entries.Sublist _
      rw [use_of_held hheld]
  | answer key held found =>
    refine .inl ⟨rfl, ?_⟩
    cases found with
    | some t => exact List.Sublist.refl _
    | none =>
      rw [entries_answer]
      split
      · exact c.others_sublist key
      · exact List.Sublist.refl _
  | remove key => exact .inl ⟨rfl, c.others_sublist key⟩
  | clear => exact .inl ⟨rfl, List.nil_sublist _⟩

/-- All entries are of keys that were used, and the ones used later stand in front. -/
structure ByLastUse (used : List Key) (entries : List (Key × Token)) : Prop where
  known : ∀ e ∈ entries, e.1 ∈ used
  order : entries.Pairwise fun e e' => used.idxOf e.1 < used.idxOf e'.1

theorem ByLastUse.sublist {entries' : List (Key × Token)} (h : ByLastUse used entries)
    (hsub : entries'.Sublist entries) : ByLastUse used entries' :=
  ⟨fun e he => h.known e (hsub.subset he), h.order.sublist hsub⟩

/-- The key used now is the first one, and all others are one use older than before. -/
theorem ByLastUse.use (h : ByLastUse used c.entries) (key : Key) (t : Token) :
    ByLastUse (key :: used) ((key, t) :: c.others key) := by
  have hrest := h.sublist (c.others_sublist key)
  have holder : ∀ e ∈ c.others key, (key :: used).idxOf e.1 = used.idxOf e.1 + 1 := by
    intro e he
    exact List.idxOf_cons_ne _ (fst_ne_of_mem_others he).symm
  refine ⟨?_, List.pairwise_cons.mpr ⟨?_, ?_⟩⟩
  · intro e he
    rcases List.mem_cons.mp he with rfl | he
    · exact List.mem_cons_self
    · exact List.mem_cons_of_mem _ (hrest.known e he)
  · intro e he
    rw [List.idxOf_cons_self, holder e he]
    omega
  · apply hrest.order.imp_of_mem
    intro e e' he he' hlt
    rw [holder e he, holder e' he']
    omega

theorem ByLastUse.effect (h : ByLastUse used c.entries) (a : Act) :
    ByLastUse ((a.uses c).toList ++ used) (a.effect c).entries := by
  rcases entries_effect a c with ⟨hnone, hsub⟩ | ⟨key, t, hsome, hsub⟩
  · rw [hnone]
    exact h.sublist hsub
  · rw [hsome]
    exact (h.use key t).sublist hsub

theorem ByLastUse.replay (h : ByLastUse used c.entries) (acts : List Act) :
    ByLastUse (usesOf acts c ++ used) (replay acts c).entries := by
  induction acts generalizing c used with
  | nil => exact h
  | cons a rest ih =>
    rw [usesOf, List.append_assoc]
    exact ih (h.effect a)

theorem byLastUse_replay (hempty : start.entries = []) (past : List Act) :
    ByLastUse (usesOf past start) (replay past start).entries := by
  have hnone : ByLastUse [] start.entries := by
    rw [hempty]
    exact ⟨fun _ he => absurd he List.not_mem_nil, .nil⟩
  simpa using hnone.replay past

/-! ## What stays -/

theorem KeptBehind.remove (h : KeptBehind keys key t c) (hkey : key' ≠ key) :
    KeptBehind keys key t (c.remove key').2 :=
  ⟨h.sound.remove key', h.room, h.place.others hkey⟩

/-- An act that uses a key leaves it in front of all others. -/
theorem keptBehind_effect (hsound : c.Sound) (hroom : keys.length < c.capacity) {a : Act}
    (huse : a.uses c = some key) : ∃ t, KeptBehind keys key t (a.effect c) := by
  cases a with
  | put key' u =>
    cases huse
    exact ⟨u, keptBehind_put hsound hroom key u⟩
  | look key' =>
    cases hheld : c.peek? key' with
    | none => simp [Act.uses, hheld] at huse
    | some u =>
      obtain rfl : key' = key := by simpa [Act.uses, hheld] using huse
      exact ⟨u, keptBehind_use hsound hroom hheld⟩
  | answer | remove | clear => cases huse

/-- One act that does not take the entry out, and uses no key that there is no room for. -/
theorem KeptBehind.effect (h : KeptBehind keys key t c) {a : Act} (halone : ¬ a.TakesOut key c)
    (hused : ∀ key' ∈ a.uses c, key' ≠ key → key' ∈ keys) :
    ∃ u, KeptBehind keys key u (a.effect c) := by
  by_cases hown : a.uses c = some key
  · exact keptBehind_effect h.sound h.room hown
  · refine ⟨t, ?_⟩
    cases a with
    | put key' u =>
      have hkey : key' ≠ key := by
        rintro rfl
        exact hown rfl
      exact h.put (hused key' rfl hkey) hkey u
    | look key' =>
      show KeptBehind keys key t (c.use key').2
      cases hheld : c.peek? key' with
      | none => rwa [use_of_absent hheld]
      | some u =>
        have huse : (Act.look key').uses c = some key' := by simp [Act.uses, hheld]
        have hkey : key' ≠ key := by
          rintro rfl
          exact hown huse
        exact h.use (hused key' huse hkey) hkey
    | answer key' held found =>
      rcases found with _ | _
      · rcases held with _ | u
        · exact h.miss
        · show KeptBehind keys key t (c.dropStale key' u).2.miss
          by_cases hkey : key' = key
          · have hother : c.peek? key' ≠ some u := by
              intro hsame
              exact halone ⟨hkey, hkey ▸ hsame⟩
            rw [Cache.dropStale, if_neg hother]
            exact h.miss
          · exact (h.dropStale hkey u).miss
      · exact h.hit
    | remove key' => exact h.remove halone
    | clear => exact absurd trivial halone

/-- Any number of such acts. -/
theorem KeptBehind.replay (h : KeptBehind keys key t c) (halone : LeftAlone key acts c)
    (hused : ∀ key' ∈ usesOf acts c, key' ≠ key → key' ∈ keys) :
    ∃ u, KeptBehind keys key u (replay acts c) := by
  induction acts generalizing c t with
  | nil => exact ⟨t, h⟩
  | cons a rest ih =>
    obtain ⟨u, hfirst⟩ := h.effect halone.1 fun key' huse =>
      hused key' (List.mem_append_right _ (Option.mem_toList.mpr huse))
    exact ih hfirst halone.2 fun key' huse => hused key' (List.mem_append_left _ huse)

/-- After a use, what is under the key stays while it is left alone and fewer other keys are used than
the cache has room for. -/
theorem held_of_use (hsound : c.Sound) {a : Act} (huse : a.uses c = some key)
    (halone : LeftAlone key acts (a.effect c))
    (hfew : (othersUsed key acts (a.effect c)).card < c.capacity) :
    ∃ t, (replay acts (a.effect c)).peek? key = some t := by
  have hroom : (othersUsed key acts (a.effect c)).toList.length < c.capacity := by
    rwa [Finset.length_toList]
  obtain ⟨t, hfront⟩ := keptBehind_effect hsound hroom huse
  have hothers : ∀ key' ∈ usesOf acts (a.effect c), key' ≠ key →
      key' ∈ (othersUsed key acts (a.effect c)).toList := by
    intro key' hmem hkey
    rw [Finset.mem_toList, othersUsed, Finset.mem_erase]
    exact ⟨hkey, List.mem_toFinset.mpr hmem⟩
  obtain ⟨u, hkept⟩ := hfront.replay halone hothers
  exact ⟨u, hkept.peek?⟩

/-! ## What goes -/

theorem put_of_room (h : (c.others key).length < c.capacity) :
    (c.put key t).2.entries = (key, t) :: c.others key := by
  unfold Cache.put
  dsimp only
  rw [if_pos (by rw [List.length_cons]; omega)]

theorem put_of_full {kept : List (Key × Token)} {last : Key × Token}
    (h : c.capacity ≤ (c.others key).length) (hlast : c.others key = kept ++ [last]) :
    (c.put key t).1 = some last.1 ∧ (c.put key t).2.entries = (key, t) :: kept := by
  unfold Cache.put
  dsimp only
  rw [if_neg (by rw [List.length_cons]; omega), hlast, ← List.cons_append, List.dropLast_concat]
  refine ⟨?_, rfl⟩
  rw [List.getLast?_concat]
  rfl

/-- A put that drops the entry of another key: the cache was full, the key put had no entry, and the
one that goes is the last. -/
theorem put_of_dropped (hsound : c.Sound) (hkey : victim ≠ key) (hheld : c.peek? victim = some u)
    (hgone : (c.put key t).2.peek? victim = none) :
    c.size = c.capacity ∧ c.peek? key = none ∧ ∃ kept, c.entries = kept ++ [(victim, u)] ∧
      (c.put key t).1 = some victim ∧ (c.put key t).2.entries = (key, t) :: kept := by
  have hfits := hsound.fits
  have hroomy := hsound.roomy
  by_cases hroom : (c.others key).length < c.capacity
  · rw [peek?, put_of_room hroom, lookup_cons, if_neg hkey, lookup_others, if_neg hkey, hheld] at hgone
    cases hgone
  · have habsent : c.peek? key = none := by
      cases hold : c.peek? key with
      | none => rfl
      | some v =>
        have hothers := hsound.length_others hold
        omega
    have hothers := others_of_absent habsent
    rw [hothers, ← size] at hroom
    rcases List.eq_nil_or_concat c.entries with hnil | ⟨kept, last, hentries⟩
    · rw [size, hnil, List.length_nil] at hroom
      omega
    · rw [List.concat_eq_append] at hentries
      obtain ⟨htold, hafter⟩ := put_of_full (t := t) (by rw [hothers, ← size]; omega)
        (hothers.trans hentries)
      have hlast : last = (victim, u) := by
        rw [peek?, hafter, lookup_cons, if_neg hkey] at hgone
        rw [peek?, hentries, List.lookup_append, hgone, Option.none_or, lookup_cons] at hheld
        split at hheld
        · rename_i hvictim
          cases hheld
          exact Prod.ext hvictim.symm rfl
        · cases hheld
      subst hlast
      exact ⟨by omega, habsent, kept, hentries, htold, hafter⟩

/-- A full cache drops what is under `victim`, and nothing else. The keys used are listed from the last
one on, so the last use of `victim` is the oldest of all. -/
structure OldestGoes (used : List Key) (victim : Key) (before after : Cache) : Prop where
  full : before.size = before.capacity
  known : victim ∈ used
  oldest : ∀ key, before.peek? key ≠ none → key ≠ victim → used.idxOf key < used.idxOf victim
  alone : ∀ key, before.peek? key ≠ none → key ≠ victim → after.peek? key = before.peek? key

theorem oldestGoes_put (hsound : c.Sound) (horder : ByLastUse used c.entries) (hkey : victim ≠ key)
    (hheld : c.peek? victim ≠ none) (hgone : (c.put key t).2.peek? victim = none) :
    (c.put key t).1 = some victim ∧ OldestGoes used victim c (c.put key t).2 := by
  obtain ⟨u, hheld⟩ := Option.ne_none_iff_exists'.mp hheld
  obtain ⟨hfull, habsent, kept, hentries, htold, hafter⟩ := put_of_dropped hsound hkey hheld hgone
  have hkept : ∀ key' ≠ victim, kept.lookup key' = c.peek? key' := by
    intro key' hother
    rw [peek?, hentries, List.lookup_append, lookup_cons, if_neg hother, List.lookup_nil, Option.or_none]
  obtain ⟨hknown, horder⟩ := horder
  rw [hentries, List.pairwise_append] at horder
  refine ⟨htold, hfull, ?_, ?_, ?_⟩
  · exact hknown _ (by rw [hentries]; exact List.mem_append_right _ List.mem_cons_self)
  · intro key' hpresent hother
    obtain ⟨v, hheld'⟩ := Option.ne_none_iff_exists'.mp hpresent
    obtain ⟨front, back, rfl, -⟩ := List.lookup_eq_some_iff.mp ((hkept key' hother).trans hheld')
    exact horder.2.2 (key', v) (by simp) (victim, u) List.mem_cons_self
  · intro key' hpresent hother
    have hnew : key' ≠ key := by
      rintro rfl
      exact hpresent habsent
    rw [peek?, hafter, lookup_cons, if_neg hnew, hkept key' hother]

/-! ## Work on a new cache -/

/-- What the use of keys says about the cache that some acts have left: which entry is there after the
use of its key, and what the last of the acts may have dropped. -/
structure KeepsRecent (start : Cache) (past : List Act) : Prop where
  stays : ∀ older a newer key, past = older ++ a :: newer →
    a.uses (replay older start) = some key →
    LeftAlone key newer (a.effect (replay older start)) →
    (othersUsed key newer (a.effect (replay older start))).card < start.capacity →
    ∃ t, (replay past start).peek? key = some t ∧ LatestPut start past key t
  makesRoom : ∀ older key t victim, past = older ++ [.put key t] → victim ≠ key →
    (replay older start).peek? victim ≠ none → (replay past start).peek? victim = none →
    ((replay older start).put key t).1 = some victim ∧
      OldestGoes (usesOf older start) victim (replay older start) (replay past start)
  unmoved : ∀ older a, past = older ++ [a] → a.uses (replay older start) = none →
    (replay past start).entries.Sublist (replay older start).entries

theorem keepsRecent_replay (hempty : start.entries = []) (hsound : start.Sound) (past : List Act) :
    KeepsRecent start past := by
  refine ⟨?_, ?_, ?_⟩
  · rintro older a newer key rfl huse halone hfew
    have hcapacity : (replay older start).capacity = start.capacity := replay_capacity older start
    obtain ⟨t, hheld⟩ := held_of_use (hsound.replay older) huse halone (hcapacity ▸ hfew)
    have hreplay : (replay (older ++ a :: newer) start).peek? key = some t := by
      rw [replay_append, replay_cons]
      exact hheld
    exact ⟨t, hreplay, (peek?_replay_iff hempty).mp hreplay⟩
  · rintro older key t victim rfl hkey hheld hgone
    rw [replay_append] at hgone ⊢
    exact oldestGoes_put (hsound.replay older) (byLastUse_replay hempty older) hkey hheld hgone
  · rintro older a rfl hunused
    rw [replay_append]
    rcases entries_effect a (replay older start) with ⟨-, hsub⟩ | ⟨key, t, huse, -⟩
    · exact hsub
    · rw [hunused] at huse
      cases huse

variable {σ α : Type} [Clock σ]

/-- Work on a new cache does to it what its acts do. At every point in between, an entry whose key was
used is there as long as nobody has taken it out and fewer other keys were used since than the cache has
room for; and when a put makes room, the entry that goes is that of the key whose last use is the
oldest. -/
theorem least_recent_goes (n : Nat) (w : Work σ α) (world : σ) :
    let start : Session σ := ⟨world, .ofCapacity n⟩
    (w.run.run start).session.cache = replay (w.acts start) start.cache ∧
      start.cache.capacity = max 1 n ∧
      ∀ past, past <+: w.acts start → KeepsRecent start.cache past :=
  ⟨w.cache_run _, rfl, fun past _ => keepsRecent_replay rfl (sound_ofCapacity n) past⟩

/-! With two hooks, the first ticket is asked for again before a third one comes in. -/

open Cloakroom

def busyEvening : Work Hour Unit :=
  .andThen (.put (hook "1") (ticket "first")) fun _ =>
    .andThen (.put (hook "2") (ticket "second")) fun _ =>
      .andThen (.find (hook "1")) fun _ => .put (hook "3") (ticket "third")

def twoHooks : Session Hour := ⟨⟨1000⟩, .ofCapacity 2⟩

def untilThird : List Act := (busyEvening.acts twoHooks).dropLast

/-- So the first one stays, and the second one makes room. -/
theorem second_makes_room :
    let start := twoHooks.cache
    let past := busyEvening.acts twoHooks
    KeepsRecent start past ∧
      (∃ t, (replay past start).peek? (hook "1") = some t ∧ LatestPut start past (hook "1") t) ∧
      OldestGoes (usesOf untilThird start) (hook "2") (replay untilThird start) (replay past start) := by
  intro start past
  have hkeeps : KeepsRecent start past :=
    (least_recent_goes 2 busyEvening ⟨1000⟩).2.2 past (List.prefix_refl past)
  have hlook : past = past.take 2 ++ .look (hook "1") :: past.drop 3 := by decide +kernel
  have hthird : past = untilThird ++ [.put (hook "3") (ticket "third")] := by decide +kernel
  refine ⟨hkeeps, hkeeps.stays _ _ _ (hook "1") hlook ?_ ?_ ?_,
    (hkeeps.makesRoom untilThird (hook "3") (ticket "third") (hook "2") hthird ?_ ?_ ?_).2⟩
  all_goals decide +kernel

end TokenTrust.Cache
