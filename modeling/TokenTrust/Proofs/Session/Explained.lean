/-
  TokenTrust.Proofs.Session.Explained — nothing happens to the world but what is on record.

  A run moves the world by looking at the clock and by calling the service. `Explains` says that a
  record tells all of it: the world at the end is what the readings and the calls on record, each in
  its turn and with the answer that is noted, make of the world at the start. What a call makes of the
  world is for those to say who receive it.

  `Conduct.explained` is this as a conduct: a run has it if each of its calls is put on record as it
  was made, and a call that is made without being on record, or twice, or with other contents, has no
  explanation.
-/

import TokenTrust.Proofs.Cache.Holdings

namespace TokenTrust

variable {σ : Type} [Clock σ] {receives : Call → σ → σ → Prop}

/-- The record explains how the world got from one state to another: by the readings and the calls that
are on it, each in its turn, and by nothing else. -/
inductive Explains (receives : Call → σ → σ → Prop) : σ → List Entry → σ → Prop where
  | nothing {w : σ} : Explains receives w [] w
  | event {w w' : σ} {e : Event} {es : List Entry} (rest : Explains receives w es w') :
      Explains receives w (.event e :: es) w'
  | reading {w w' : σ} {es : List Entry} (rest : Explains receives (Clock.read w).2 es w') :
      Explains receives w (.reading (Clock.read w).1 :: es) w'
  | call {w w₁ w' : σ} {c : Call} {es : List Entry} (received : receives c w w₁)
      (rest : Explains receives w₁ es w') : Explains receives w (.call c :: es) w'

theorem Explains.append {w w₁ w₂ : σ} {es es' : List Entry} (h : Explains receives w es w₁)
    (h' : Explains receives w₁ es' w₂) : Explains receives w (es ++ es') w₂ := by
  induction h with
  | nothing => exact h'
  | event _ ih => exact .event (ih h')
  | reading _ ih => exact .reading (ih h')
  | call received _ ih => exact .call received (ih h')

namespace Conduct

def explained (receives : Call → σ → σ → Prop) : Conduct σ where
  permits s es s' := Explains receives s.world es s'.world
  nothing _ := .nothing
  both h h' := h.append h'

theorem explained_calls : (explained receives).Calls receives where
  event _ _ := .event .nothing
  reading _ := .reading .nothing
  call _ _ _ received := .call received .nothing

theorem explained_recaches : (explained receives).Recaches := fun _ _ => .nothing

end Conduct

end TokenTrust
