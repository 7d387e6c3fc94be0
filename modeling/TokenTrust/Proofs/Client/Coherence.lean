/-
  TokenTrust.Proofs.Client.Coherence — a kept token is the one acquired last for the same request.

  As long as only its own fetches touch the cache of a client, every entry is the last token that
  was acquired under its key (`Coherent`), whatever was evicted, bypassed or found stale in between:
  - `step_coherent`, `history_coherent`: one visit keeps this up, and so do any number of them.
  - `kept_is_last_acquired`: where the texts of the requests hold no marks, a key is as good as the
    request itself, so a kept token never was acquired for another one.
-/

import Mathlib.Control.Monad.Basic
import TokenTrust.Proofs.Client.Built
import TokenTrust.Proofs.Client.Visits

namespace TokenTrust

open Cache (Parts)

namespace Client

variable {σ : Type} [Clock σ] {c : Client σ}

/-! ## Acquisitions -/

def acquiredFor (p : Parts) : Except TrustError Token → Option Origin → Option (Parts × Token)
  | .ok t, some .acquired => some (p, t)
  | _, _ => none

/-- The tokens that were acquired, the oldest first, each with what it was asked for. -/
def acquisitions (c : Client σ) (steps : List (Step σ)) : List (Parts × Token) :=
  steps.filterMap fun x => (c.asked x.visit).bind fun p => acquiredFor p x.done.value x.origin

def LastFor (P : Parts → Prop) (past : List (Parts × Token)) (t : Token) : Prop :=
  ∃ older q newer, past = older ++ (q, t) :: newer ∧ P q ∧ ∀ x ∈ newer, ¬P x.1

section LastFor

variable {P Q : Parts → Prop} {past : List (Parts × Token)} {q : Parts} {t u : Token}

theorem lastFor_snoc (h : P q) : LastFor P (past ++ [(q, t)]) t :=
  ⟨past, q, [], rfl, h, fun _ hx => absurd hx List.not_mem_nil⟩

theorem LastFor.snoc_other (h : LastFor P past t) (hq : ¬P q) : LastFor P (past ++ [(q, u)]) t := by
  obtain ⟨older, p, newer, rfl, hp, hnewer⟩ := h
  refine ⟨older, p, newer ++ [(q, u)], by simp, hp, fun x hx => ?_⟩
  rcases List.mem_append.mp hx with hx | hx
  · exact hnewer x hx
  · rw [List.mem_singleton.mp hx]
    exact hq

theorem LastFor.congr (h : LastFor P past t) (hPQ : ∀ x ∈ past, P x.1 ↔ Q x.1) :
    LastFor Q past t := by
  obtain ⟨older, p, newer, rfl, hp, hnewer⟩ := h
  refine ⟨older, p, newer, rfl, (hPQ (p, t) (by simp)).mp hp, fun x hx hQ => ?_⟩
  exact hnewer x hx ((hPQ x (by simp [hx])).mpr hQ)

end LastFor

omit [Clock σ] in
theorem acquisitions_singleton (c : Client σ) (x : Step σ) : c.acquisitions [x] =
    ((c.asked x.visit).bind fun p => acquiredFor p x.done.value x.origin).toList := by
  unfold acquisitions
  rw [List.filterMap_cons]
  split
  · rename_i hnone
    rw [hnone]
    rfl
  · rename_i hsome
    rw [hsome]
    rfl

omit [Clock σ] in
/-- Behind an acquisition there is the visit in which it was made. -/
theorem mem_acquisitions {steps : List (Step σ)} {p : Parts} {t : Token}
    (h : (p, t) ∈ c.acquisitions steps) :
    ∃ x ∈ steps, c.asked x.visit = some p ∧ x.done.value = .ok t ∧ x.origin = some .acquired := by
  obtain ⟨x, hx, h⟩ := List.mem_filterMap.mp h
  obtain ⟨q, hq, h⟩ := Option.bind_eq_some_iff.mp h
  unfold acquiredFor at h
  split at h
  · rename_i hvalue horigin
    cases h
    exact ⟨x, hx, hq, hvalue, horigin⟩
  · cases h

omit [Clock σ] in
theorem asked_of_mem_acquisitions {steps : List (Step σ)} {e : Parts × Token}
    (h : e ∈ c.acquisitions steps) : ∃ x ∈ steps, c.asked x.visit = some e.1 := by
  obtain ⟨x, hx, hasked, -, -⟩ := mem_acquisitions h
  exact ⟨x, hx, hasked⟩

/-! ## The invariant -/

def Coherent (past : List (Parts × Token)) (cache : Cache) : Prop :=
  ∀ e ∈ cache.entries, LastFor (·.key = e.1) past e.2

section Steps

variable {past : List (Parts × Token)} {before after : Cache} {es : List Entry}
  {answer : Except TrustError Token} {origin : Option Origin}

theorem Coherent.drop (h : Coherent past before) (hdrop : after.entries ⊆ before.entries) :
    Coherent past after := fun e he => h e (hdrop he)

theorem Fetches.coherent {p : Parts} (h : c.Fetches p.key before after es answer origin)
    (hcoherent : Coherent past before) :
    Coherent (past ++ (acquiredFor p answer origin).toList) after := by
  cases h with
  | kept held valid onRecord rest => simpa [acquiredFor] using hcoherent.drop rest
  | failed rest => simpa [acquiredFor] using hcoherent.drop rest
  | @acquired t _ _ _ _ answered onRecord rest =>
    -- the new token is the last under its key, and under the other keys nothing is new
    intro e he
    rcases rest e he with rfl | ⟨he, hkey⟩
    · exact lastFor_snoc rfl
    · exact (hcoherent e he).snoc_other fun h => hkey h.symm

theorem Fetches.held {key : Cache.Key} (h : c.Fetches key before after es answer (some .kept)) :
    ∃ t, answer = .ok t ∧ (key, t) ∈ before.entries := by
  cases h with
  | @kept t _ _ _ held _ _ _ => exact ⟨t, rfl, held⟩

theorem step_coherent {v : Visit} {s : Session σ} (h : Coherent past (c.step v s).start.cache) :
    Coherent (past ++ c.acquisitions [c.step v s]) (c.step v s).done.session.cache := by
  rw [acquisitions_singleton]
  rcases c.step_cases v s with ⟨p, hp, hfetches⟩ | ⟨e, he, -, hcache⟩
  · have hasked : c.asked (c.step v s).visit = some p := hp
    rw [hasked]
    exact hfetches.coherent h
  · have hnone : ((c.asked (c.step v s).visit).bind fun p =>
        acquiredFor p (c.step v s).done.value (c.step v s).origin) = none := by
      rw [he]
      cases c.asked (c.step v s).visit <;> rfl
    rw [hnone, hcache]
    simpa using h

theorem history_coherent {visits : List Visit} (hcalm : ∀ v ∈ visits, v.meanwhile = id)
    {s : Session σ} (h : Coherent past s.cache) {earlier later : List (Step σ)} {x : Step σ}
    (hx : c.history visits s = earlier ++ x :: later) :
    Coherent (past ++ c.acquisitions earlier) x.start.cache := by
  -- on the visits, with what has been acquired so far going into the past
  induction visits generalizing past s earlier with
  | nil => simp [history] at hx
  | cons v rest ih =>
    have hstart : (c.step v s).start.cache = s.cache := by
      simp only [step, hcalm v List.mem_cons_self, id]
    rw [history] at hx
    cases earlier with
    | nil =>
      obtain ⟨rfl, -⟩ := List.cons.inj hx
      rw [hstart]
      simpa [acquisitions] using h
    | cons y earlier =>
      obtain ⟨rfl, hrest⟩ := List.cons.inj hx
      have hstep := step_coherent (hstart ▸ h : Coherent past (c.step v s).start.cache)
      have hlater := ih (fun w hw => hcalm w (List.mem_cons_of_mem _ hw)) hstep hrest
      have hsplit : c.acquisitions (c.step v s :: earlier) =
          c.acquisitions [c.step v s] ++ c.acquisitions earlier :=
        List.filterMap_append (l := [c.step v s])
      rw [hsplit, ← List.append_assoc]
      exact hlater

end Steps

/-! ## Kept tokens -/

theorem visit_of_mem_history {visits : List Visit} {s : Session σ} {x : Step σ}
    (h : x ∈ c.history visits s) : x.visit ∈ visits := by
  obtain ⟨v, hv, s', rfl⟩ := mem_history h
  exact hv

/-- A token that answers a fetch from the cache is the one that was acquired last for the same kind,
subject, labels, hops and target. -/
theorem kept_is_last_acquired {visits : List Visit} {s : Session σ} (hempty : s.cache.entries = [])
    (hcalm : ∀ v ∈ visits, v.meanwhile = id)
    (hplain : ∀ v ∈ visits, ∀ p, c.asked v = some p → p.Plain)
    {earlier later : List (Step σ)} {x : Step σ}
    (hx : c.history visits s = earlier ++ x :: later) (hkept : x.origin = some .kept) :
    ∃ p t, c.asked x.visit = some p ∧ x.done.value = .ok t ∧
      LastFor (·.Same p) (c.acquisitions earlier) t := by
  have hmem : ∀ y ∈ earlier ++ x :: later, y.visit ∈ visits := by
    rw [← hx]
    exact fun y hy => visit_of_mem_history hy
  have hcoherent : Coherent (c.acquisitions earlier) x.start.cache := by
    have hnothing : Coherent [] s.cache := fun e he => by simp [hempty] at he
    exact history_coherent hcalm hnothing hx
  obtain ⟨v, -, s', rfl⟩ : ∃ v ∈ visits, ∃ s', x = c.step v s' :=
    mem_history (hx ▸ List.mem_append_right _ List.mem_cons_self)
  rcases c.step_cases v s' with ⟨p, hp, hfetches⟩ | ⟨e, -, hnone, -⟩
  · rw [hkept] at hfetches
    obtain ⟨t, ht, hheld⟩ := hfetches.held
    have hlast : LastFor (·.key = p.key) (c.acquisitions earlier) t := hcoherent _ hheld
    -- all that was asked for is plain, so having the key of `p` is asking for the same as `p`
    refine ⟨p, t, hp, ht, hlast.congr fun e he => ?_⟩
    obtain ⟨y, hy, hasked⟩ := asked_of_mem_acquisitions he
    have hplain_e : e.1.Plain := hplain _ (hmem y (List.mem_append_left _ hy)) _ hasked
    have hplain_p : p.Plain :=
      hplain _ (hmem _ (List.mem_append_right _ List.mem_cons_self)) _ hp
    exact ⟨Parts.same_of_key_eq hplain_e hplain_p, Parts.key_eq_of_same⟩
  · rw [hkept] at hnone
    cases hnone

end Client

namespace Gateway

def trusting : Client Scene where
  settings := { ownId := "1234", mode := .unauthenticated }
  source := .unauthenticated ⟨"1234", "token-issuer", Scene.pool⟩
  directory := setup.directory
  issuerKey := none
  frontEndKey := none

def visitTo (target : String) (policy : CachePolicy) : Client.Visit where
  fetch := { wanted := .own, target, policy }
  directory := fun _ => none

def older : Token := pass .app "1234" "456" 8000 none

def newer : Token := pass .app "1234" "456" 9000 none

def elsewhere : Token := pass .app "1234" "457" 9000 none

/-- Two tokens for one target, one for another, and then a fetch that is answered from the cache. -/
def round : List Client.Visit :=
  [visitTo "456" .use, visitTo "456" .bypass, visitTo "457" .use, visitTo "456" .use]

def rounds : List (Client.Step Scene) :=
  trusting.history round (session [older, newer, elsewhere] [])

theorem plain_of_asked {v : Client.Visit} (hv : v ∈ round) {p : Parts}
    (hp : trusting.asked v = some p) : p.Plain := by
  obtain ⟨target, policy, rfl⟩ : ∃ target policy, v = visitTo target policy := by
    simp only [round, List.mem_cons, List.not_mem_nil, or_false] at hv
    rcases hv with rfl | rfl | rfl | rfl
    all_goals exact ⟨_, _, rfl⟩
  cases hp
  have hsubject : Cache.Key.partMark ∉ "1234".toList := by decide
  exact ⟨hsubject, fun l hl => absurd hl List.not_mem_nil, fun l hl => absurd hl List.not_mem_nil⟩

theorem rounds_keep_newer :
    (rounds.map fun x => (x.done.value, x.origin)) =
      [(.ok older, some .acquired), (.ok newer, some .acquired), (.ok elsewhere, some .acquired),
        (.ok newer, some .kept)] ∧
    ∃ p, trusting.asked (visitTo "456" .use) = some p ∧
      Client.LastFor (·.Same p) (trusting.acquisitions (rounds.take 3)) newer := by
  have hvalue : (rounds.get ⟨3, by decide⟩).done.value = .ok newer := by decide +kernel
  have hrounds : rounds = rounds.take 3 ++ [rounds.get ⟨3, by decide⟩] := rfl
  obtain ⟨p, t, hp, ht, hlast⟩ := Client.kept_is_last_acquired rfl (by simp [round, visitTo])
    (fun v hv p hp => plain_of_asked hv hp) hrounds (by decide +kernel)
  rw [hvalue] at ht
  cases ht
  exact ⟨by decide +kernel, p, hp, hlast⟩

end Gateway

end TokenTrust
