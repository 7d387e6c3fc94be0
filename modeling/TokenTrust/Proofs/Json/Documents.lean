/-
  TokenTrust.Proofs.Json.Documents — the documents that travel as JSON text keep what they say.

  Proved for every value, whatever texts, numbers, maps and lists are in it and whichever members are
  left out:
  - `documents_read_back`: a token, a principal, a request, an assertion, the user in it and the
    settings are what is read from the text that was written of them. Sets may be written with their
    members in any order and with repetitions; and a token that is handed on as text, in any of these
    ways and any number of times, keeps the text that its signature covers.
-/

import TokenTrust.Proofs.Settings.Written
import TokenTrust.Signing.Canonical

namespace TokenTrust

open Json

/-- What the second form writes of a value, the first one reads as that value. -/
def Json.Codec.ReadsBack {α : Type} (c d : Codec α) : Prop := ∀ a, c.parse (d.render a) = .ok a

theorem Json.Codec.Lawful.readsBack {α : Type} {c : Codec α} (h : c.Lawful) : c.ReadsBack c :=
  parse_render h

/-- A lawful form is read back by every form that reads as it does. -/
theorem Json.Codec.Lawful.readsBack_of_read {α : Type} {c d : Codec α} (h : d.Lawful)
    (hread : d.read = c.read) : c.ReadsBack d := fun a => by
  have hparse := parse_render h a
  simp only [parse, parseList, hread] at hparse ⊢
  exact hparse

/-- The token after some hops, each of which writes it as text, listing sets in its own way, and reads
it again. -/
def Token.handedOn (hops : List Listings) (t : Token) : Except String Token :=
  hops.foldlM (fun u l => codec.parse ((listed l).render u)) t

theorem Token.readsBack_listed (l : Listings) : codec.ReadsBack (listed l) :=
  (listed_lawful l).readsBack_of_read (read_listed l)

theorem Token.handedOn_eq (hops : List Listings) (t : Token) : t.handedOn hops = .ok t := by
  induction hops with
  | nil => rfl
  | cons l hops ih =>
    simp only [handedOn, List.foldlM_cons, readsBack_listed l t]
    exact ih

/-- Every document is what is read of its text, also where the sets in it are listed in other ways, and
a token has the same canonical text after any number of hops. -/
theorem documents_read_back :
    Token.codec.ReadsBack Token.codec ∧ Principal.codec.ReadsBack Principal.codec ∧
    Request.codec.ReadsBack Request.codec ∧ Assertion.codec.ReadsBack Assertion.codec ∧
    AssertedUser.codec.ReadsBack AssertedUser.codec ∧ Settings.codec.ReadsBack Settings.codec ∧
    (∀ l : Listings, Token.codec.ReadsBack (Token.listed l) ∧
      Request.codec.ReadsBack (Request.listed l) ∧ Settings.codec.ReadsBack (Settings.listed l)) ∧
    ∀ (t : Token) (hops : List Listings), (t.handedOn hops).map Token.canonical = .ok t.canonical := by
  refine ⟨Token.codec_lawful.readsBack, Principal.codec_lawful.readsBack,
    Request.codec_lawful.readsBack, Assertion.codec_lawful.readsBack,
    AssertedUser.codec_lawful.readsBack, Settings.codec_lawful.readsBack, ?_, ?_⟩
  · intro l
    exact ⟨Token.readsBack_listed l, (Request.listed_lawful l).readsBack_of_read (Request.read_listed l),
      (Settings.listed_lawful l).readsBack_of_read (Settings.read_listed l)⟩
  · intro t hops
    rw [Token.handedOn_eq]
    rfl

end TokenTrust
