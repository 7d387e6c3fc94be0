/-
  TokenTrust.Proofs.Signing.Separation — signatures of principals and of tokens, under one key.

  Neither canonical text says what it is of, but each must end in its own way: that of a principal in the
  last digit of an instant, that of a token in its closing, the citizenship and the organization, or
  before an empty one in the word for a flag.
  - `Principal.exists_canonical_iff`: the texts of principals are just the texts that end in a digit.
  - `Token.endsInDigit_canonical`: that of a token does so exactly if its closing does.
  - `principal_signatures_kept_apart`: so what was signed for a principal, whichever it is, is never
    signed for a token whose closing ends in no digit; for any other token it may be.
-/

import TokenTrust.Proofs.Signing.Checking

namespace TokenTrust

/-! ## The last character of a text -/

namespace Text

def EndsInDigit (s : String) : Prop := ∃ c, s.toList.getLast? = some c ∧ c.isDigit = true

instance (s : String) : Decidable (EndsInDigit s) :=
  decidable_of_iff (s.toList.getLast?.any (·.isDigit) = true) (by
    rw [Option.any_eq_true]
    exact Iff.rfl)

variable {s a b : String}

theorem endsInDigit_append : EndsInDigit (a ++ b) ↔ if b = "" then EndsInDigit a else EndsInDigit b := by
  unfold EndsInDigit
  rw [String.toList_append, List.getLast?_append]
  by_cases hempty : b = ""
  · rw [if_pos hempty, hempty]
    rfl
  · obtain ⟨c, hc⟩ : ∃ c, b.toList.getLast? = some c := by
      rw [← Option.isSome_iff_exists, List.getLast?_isSome, ne_eq, String.toList_eq_nil_iff]
      exact hempty
    rw [if_neg hempty, hc, Option.some_or]

theorem not_endsInDigit_of_empty (h : s = "") : ¬ EndsInDigit s := by
  subst h
  intro hends
  obtain ⟨c, hlast, -⟩ := hends
  cases hlast

theorem endsInDigit_ofInt64 (n : Int64) : EndsInDigit (ofInt64 n) := by
  have hdigits := Nat.toDigits_ne_nil (n := n.toInt.natAbs) (b := 10)
  obtain ⟨front, c, hc⟩ := (List.eq_nil_or_concat' _).resolve_left hdigits
  have hmem : c ∈ Nat.toDigits 10 n.toInt.natAbs := by simp [hc]
  refine ⟨c, ?_, Nat.isDigit_of_mem_toDigits (by decide) (by decide) hmem⟩
  rw [toList_ofInt64, hc]
  split <;> simp [List.getLast?_cons]

theorem ofInt64_ne_empty (n : Int64) : ofInt64 n ≠ "" := by
  intro hempty
  exact not_endsInDigit_of_empty hempty (endsInDigit_ofInt64 n)

theorem digitChar_of_isDigit {c : Char} (h : c.isDigit = true) :
    c.toNat - 48 < 10 ∧ (c.toNat - 48).digitChar = c := by
  have hchars : ∀ d < 10, d.digitChar = Char.ofNat (48 + d) := by decide
  simp only [Char.isDigit, Bool.and_eq_true, decide_eq_true_eq, UInt32.le_iff_toNat_le] at h
  have hleast : 48 ≤ c.toNat := h.1
  have hmost : c.toNat ≤ 57 := h.2
  have hvalue : 48 + (c.toNat - 48) = c.toNat := by omega
  refine ⟨by omega, ?_⟩
  rw [hchars _ (by omega), hvalue, Char.ofNat_toNat]

/-- A digit is the text of an integer. -/
theorem exists_ofInt64_of_isDigit {c : Char} (h : c.isDigit = true) :
    ∃ n, (ofInt64 n).toList = [c] := by
  obtain ⟨hsmall, hchar⟩ := digitChar_of_isDigit h
  have hvalue : (Int64.ofNat (c.toNat - 48)).toInt = (c.toNat - 48 : Nat) :=
    Int64.toInt_ofNat_of_lt (by omega)
  refine ⟨Int64.ofNat (c.toNat - 48), ?_⟩
  rw [toList_ofInt64, hvalue, if_neg (by omega), Int.natAbs_natCast, Nat.toDigits_of_lt_base hsmall,
    hchar]

end Text

/-! ## The two canonical texts -/

namespace Principal

/-- Any text that ends in a digit is that of a principal, with the last digit as its instant. -/
theorem exists_canonical_iff {s : String} : (∃ p : Principal, p.canonical = s) ↔ Text.EndsInDigit s := by
  constructor
  · intro hp
    obtain ⟨p, rfl⟩ := hp
    have hlast : p.canonical =
        p.subject ++ p.issuer.getD "" ++ String.join p.requestChain ++ Text.ofInt64 p.validity.notAfter := by
      simp [canonical_eq, Item.order, Item.text, String.append_assoc]
    rw [hlast, Text.endsInDigit_append, if_neg (Text.ofInt64_ne_empty _)]
    exact Text.endsInDigit_ofInt64 _
  · intro hends
    obtain ⟨c, hlast, hdigit⟩ := hends
    obtain ⟨front, hfront⟩ := List.getLast?_eq_some_iff.mp hlast
    obtain ⟨n, hn⟩ := Text.exists_ofInt64_of_isDigit hdigit
    refine ⟨{ subject := String.ofList front
              validity := { issuer := "", issuedTo := "", issuedTime := 0, notAfter := n } }, ?_⟩
    rw [← String.toList_inj, hfront, ← hn]
    simp [canonical_eq, Item.order, Item.text]

end Principal

namespace Token

def closing (t : Token) : String := t.citizenship.getD "" ++ t.organization.getD ""

theorem endsInDigit_canonical (t : Token) :
    Text.EndsInDigit t.canonical ↔ Text.EndsInDigit t.closing := by
  obtain ⟨before, hbefore⟩ : [Item.external, .citizenship, .organization] <:+ Item.order := by decide
  have hcanonical : t.canonical = String.join (before.map (Item.text t)) ++
      (if t.validForExternalRequest then "true" else "false") ++ t.closing := by
    rw [canonical_eq, ← hbefore, List.map_append, String.join_append]
    simp [Item.text, closing, String.append_assoc]
  -- the words for a flag end in a letter
  have hflag : ∀ b : Bool, (if b then "true" else "false") ≠ "" ∧
      ¬ Text.EndsInDigit (if b then "true" else "false") := by decide
  rw [hcanonical, Text.endsInDigit_append]
  by_cases hempty : t.closing = ""
  · rw [if_pos hempty, Text.endsInDigit_append, if_neg (hflag _).1]
    exact iff_of_false (hflag _).2 (Text.not_endsInDigit_of_empty hempty)
  · rw [if_neg hempty]

theorem exists_principal_iff (t : Token) :
    (∃ p : Principal, p.signedBytes = t.signedBytes) ↔ Text.EndsInDigit t.closing := by
  rw [← endsInDigit_canonical, ← Principal.exists_canonical_iff]
  exact exists_congr fun p => Text.bytes_inj

end Token

/-! ## Replaying a signature -/

/-- The verifier takes nothing for signed but what was to be signed for a principal. -/
def Verifier.OnlyPrincipals {σ : Type} (check : Verifier σ) : Prop :=
  ∀ bytes signature s, ((check bytes signature).run s).value = true → ∃ p : Principal, bytes = p.signedBytes

/-- If the closing of a token is empty or ends in no digit, then nothing that is signed for a principal is
signed for the token, and who has seen signatures of principals only takes none for the token's. If it ends
in a digit, then there is a principal every signature of which is one of the token, to every verifier. -/
theorem principal_signatures_kept_apart (t : Token) :
    ((t.closing = "" ∨ ∃ c, t.closing.toList.getLast? = some c ∧ c.isDigit = false) →
      (∀ p : Principal, p.canonical ≠ t.canonical ∧ p.signedBytes ≠ t.signedBytes) ∧
      ∀ (σ : Type) (check : Verifier σ), check.OnlyPrincipals → ∀ s, ((t.verify check).run s).value = false) ∧
    ((∃ c, t.closing.toList.getLast? = some c ∧ c.isDigit = true) →
      ∃ p : Principal, p.signedBytes = t.signedBytes ∧ ∀ (σ : Type) (check : Verifier σ) signature,
        (p.withSignature signature).verify check = (t.withSignature signature).verify check) := by
  constructor
  · intro hclosing
    have hopen : ¬ Text.EndsInDigit t.closing := by
      intro hends
      rcases hclosing with hempty | ⟨c, hlast, hother⟩
      · exact Text.not_endsInDigit_of_empty hempty hends
      · obtain ⟨c', hlast', hdigit⟩ := hends
        rw [hlast] at hlast'
        cases hlast'
        simp [hother] at hdigit
    have happart : ∀ p : Principal, p.signedBytes ≠ t.signedBytes := by
      intro p hp
      exact hopen (t.exists_principal_iff.mp ⟨p, hp⟩)
    refine ⟨fun p => ⟨mt (congrArg Text.bytes) (happart p), happart p⟩, ?_⟩
    intro σ check honly s
    unfold Token.verify
    cases hsignature : t.validity.signature with
    | none => rfl
    | some signature =>
      by_contra haccepted
      obtain ⟨p, hp⟩ := honly t.signedBytes signature s (by simpa using haccepted)
      exact happart p hp.symm
  · intro hends
    obtain ⟨p, hp⟩ := t.exists_principal_iff.mpr hends
    refine ⟨p, hp, ?_⟩
    intro σ check signature
    show check (p.withSignature signature).signedBytes signature =
      check (t.withSignature signature).signedBytes signature
    rw [Principal.signedBytes_withSignature, Token.signedBytes_withSignature, hp]

def Principal.onlyVerifier (p : Principal) : Verifier Unit := fun bytes _ => pure (bytes == p.signedBytes)

/-- A badge without closing is told from its own principal; that of someone in the seventh unit is not
told from every principal. -/
theorem badge_kept_apart : (∀ p : Principal, p.signedBytes ≠ Token.badge.signedBytes) ∧
    (∀ s, ((Token.badge.verify Token.badge.principal.onlyVerifier).run s).value = false) ∧
    ∃ p : Principal, p.signedBytes =
      ({ Token.badge with citizenship := some "NZ", organization := some "unit 7" } : Token).signedBytes := by
  obtain ⟨apart, -⟩ := principal_signatures_kept_apart Token.badge
  obtain ⟨-, replayed⟩ := principal_signatures_kept_apart
    { Token.badge with citizenship := some "NZ", organization := some "unit 7" }
  obtain ⟨hbytes, hrefuses⟩ := apart (.inl (by decide))
  have honly : Token.badge.principal.onlyVerifier.OnlyPrincipals := by
    intro bytes signature s haccepted
    exact ⟨Token.badge.principal, beq_iff_eq.mp haccepted⟩
  obtain ⟨p, hp, -⟩ := replayed ⟨'7', by decide, by decide⟩
  exact ⟨fun p => (hbytes p).2, hrefuses Unit _ honly, p, hp⟩

end TokenTrust
