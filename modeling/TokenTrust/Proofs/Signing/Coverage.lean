/-
  TokenTrust.Proofs.Signing.Coverage — a signature covers its items, and nothing else.

  - `Token.checked_alike_of_agree`: two tokens that agree on every item have the same signed bytes, so
    that no verifier tells them apart by one signature. Not covered are the issuer and the signature in
    a token's validity, the name and the validity of its principal, and the keys of its memberships.
  - `tampering_changes_bytes`: two values that differ in just one item have different signed bytes, if
    that item is a single value. In a set or map, as between two items, texts can move.
-/

import TokenTrust.Proofs.Signing.Items

namespace TokenTrust

namespace Token

theorem canonical_eq_of_agree {t u : Token} (h : ∀ i : Item, i.Agree t u) : t.canonical = u.canonical := by
  rw [canonical_eq, canonical_eq]
  exact congrArg String.join (List.map_congr_left fun i _ => Item.text_eq_of_agree (h i))

/-- What is not covered. -/
theorem agree_uncovered (t : Token) (issuer : String) (signature name : Option String)
    (validity : Validity) (i : Item) : i.Agree t
      { t with
        validity := { t.validity with issuer, signature }
        principal := { t.principal with name, validity } } := by
  cases i with
  | projectGroups => exact Item.agree_refl t .projectGroups
  | communities => exact Item.agree_refl t .communities
  | _ => rfl

/-- Tokens that agree on all items have the same signed bytes, and under the same signature they get
the same answer from whatever checks it, with the same on record. -/
theorem checked_alike_of_agree (t u : Token) (h : ∀ i : Item, i.Agree t u) :
    t.signedBytes = u.signedBytes ∧
      (t.validity.signature = u.validity.signature →
        ∀ (σ : Type) (check : Verifier σ), t.verify check = u.verify check) := by
  have hbytes : t.signedBytes = u.signedBytes := congrArg Text.bytes (canonical_eq_of_agree h)
  refine ⟨hbytes, fun hsignature σ check => ?_⟩
  have hsubject : t.subject = u.subject := h .subject
  unfold verify
  rw [hsignature, hbytes, hsubject]

def badge : Token where
  kind := .user
  principal := {
    subject := "alice"
    name := some "Alice"
    issuer := some ""
    requestChain := ["desk", "web"]
    validity := { issuer := "01", issuedTo := "7", issuedTime := 0, notAfter := 9000 } }
  validity := {
    issuer := "01", issuedTo := "7", issuedTime := 3, notAfter := 9000, signature := some "c2ln" }
  projectGroups := ⟨[("north", ["b", "a", "b"])], List.pairwise_singleton _ _⟩
  communities := ⟨[("first", { name := "chess", groups := ["x", "y"], topics := ["openings", "ends"] })],
    List.pairwise_singleton _ _⟩

/-- The same badge from another hand, with its lists in another order. -/
def badgeRearranged : Token where
  kind := .user
  principal := {
    subject := "alice"
    requestChain := ["desk", "web"]
    validity := { issuer := "02", issuedTo := "8", issuedTime := 1, notAfter := 1 } }
  validity := {
    issuer := "02", issuedTo := "7", issuedFor := some "", issuedTime := 3, notBefore := some 0,
    notAfter := 9000, signature := some "c2ln" }
  level := some ""
  projectGroups := ⟨[("north", ["a", "b", "b"])], List.pairwise_singleton _ _⟩
  communities := ⟨[("second", { name := "chess", groups := ["y", "x"], topics := ["ends", "openings"] })],
    List.pairwise_singleton _ _⟩

theorem badge_checked_alike : badge ≠ badgeRearranged ∧ badge.signedBytes = badgeRearranged.signedBytes ∧
    (badge.verify KeyPair.empty.verifier : Run Unit Bool) =
      badgeRearranged.verify KeyPair.empty.verifier := by
  have hagree : ∀ i : Item, i.Agree badge badgeRearranged := by
    intro i
    cases i with
    | projectGroups => exact .cons ⟨rfl, by decide⟩ .nil
    | communities => exact .cons ⟨rfl, rfl, rfl, by decide, by decide, by decide, rfl⟩ .nil
    | _ => rfl
  obtain ⟨hbytes, hcheck⟩ := checked_alike_of_agree badge badgeRearranged hagree
  exact ⟨by decide, hbytes, hcheck rfl Unit KeyPair.empty.verifier⟩

theorem canonical_ne_of_disagree {t u : Token} {i : Item} (hi : i.IsSingle)
    (others : ∀ j, j ≠ i → j.Agree t u) (differ : ¬i.Agree t u) : t.canonical ≠ u.canonical := by
  rw [canonical_eq, canonical_eq]
  exact Text.join_ne_of_differ Item.nodup_order i.mem_order
    (fun j hj => Item.text_eq_of_agree (others j hj)) fun h => differ (Item.agree_of_text_eq hi h)

end Token

theorem Principal.canonical_ne_of_disagree {p q : Principal} {i : Item}
    (others : ∀ j, j ≠ i → j.Agree p q) (differ : ¬i.Agree p q) : p.canonical ≠ q.canonical := by
  rw [canonical_eq, canonical_eq]
  exact Text.join_ne_of_differ Item.nodup_order i.mem_order
    (fun j hj => Item.text_eq_iff_agree.mpr (others j hj)) fun h => differ (Item.text_eq_iff_agree.mp h)

theorem Request.canonical_ne_of_disagree {r s : Request} {i : Item}
    (others : ∀ j, j ≠ i → j.Agree r s) (differ : ¬i.Agree r s) : r.canonical ≠ s.canonical := by
  rw [canonical_eq, canonical_eq]
  exact Text.join_ne_of_differ Item.nodup_order i.mem_order
    (fun j hj => Item.text_eq_iff_agree.mpr (others j hj)) fun h => differ (Item.text_eq_iff_agree.mp h)

/-- Who changes one item of a token, a principal or a request, and leaves all others as they are,
changes what is signed; so does who changes one item of the token that a request is about. -/
theorem tampering_changes_bytes :
    (∀ (t u : Token) (i : Token.Item), i.IsSingle → (∀ j, j ≠ i → j.Agree t u) → ¬i.Agree t u →
      t.signedBytes ≠ u.signedBytes) ∧
    (∀ (p q : Principal) (i : Principal.Item), (∀ j, j ≠ i → j.Agree p q) → ¬i.Agree p q →
      p.signedBytes ≠ q.signedBytes) ∧
    (∀ (r s : Request) (i : Request.Item), (∀ j, j ≠ i → j.Agree r s) → ¬i.Agree r s →
      r.signedBytes ≠ s.signedBytes) ∧
    ∀ (r s : Request) (t u : Token) (i : Token.Item), r.subject = .token t → s.subject = .token u →
      (∀ j : Request.Item, j ≠ .subject → j.Agree r s) → i.IsSingle → (∀ j, j ≠ i → j.Agree t u) →
      ¬i.Agree t u → r.signedBytes ≠ s.signedBytes := by
  refine ⟨fun t u i hi others differ => ?_, fun p q i others differ => ?_,
    fun r s i others differ => ?_, fun r s t u i hr hs alike hi others differ => ?_⟩
  · exact mt Text.bytes_inj.mp (Token.canonical_ne_of_disagree hi others differ)
  · exact mt Text.bytes_inj.mp (Principal.canonical_ne_of_disagree others differ)
  · exact mt Text.bytes_inj.mp (Request.canonical_ne_of_disagree others differ)
  · have hsubject : ¬Request.Item.subject.Agree r s := by
      show r.subject.text ≠ s.subject.text
      rw [hr, hs, Subject.text_token, Subject.text_token]
      exact Token.canonical_ne_of_disagree hi others differ
    exact mt Text.bytes_inj.mp (Request.canonical_ne_of_disagree alike hsubject)

def Token.badgeElsewhere : Token :=
  { badge with validity := { badge.validity with issuedFor := some "8" } }

def Request.about (t : Token) (timestamp : Millis) : Request where
  requester := "7"
  timestamp
  kind := .user
  subject := .token t
  target := "8"

theorem badge_tampering_changes_bytes :
    Token.badge.signedBytes ≠ Token.badgeElsewhere.signedBytes ∧
    Token.badge.principal.signedBytes ≠
      ({ Token.badge.principal with requestChain := ["desk"] } : Principal).signedBytes ∧
    (Request.about .badge 12).signedBytes ≠ (Request.about .badge 1).signedBytes ∧
    (Request.about .badge 12).signedBytes ≠ (Request.about .badgeElsewhere 12).signedBytes := by
  obtain ⟨token, principal, request, subject⟩ := tampering_changes_bytes
  have hothers : ∀ j : Token.Item, j ≠ .recipient → j.Agree .badge .badgeElsewhere := by
    intro j hj
    cases j with
    | recipient => exact absurd rfl hj
    | projectGroups => exact Token.Item.agree_refl _ .projectGroups
    | communities => exact Token.Item.agree_refl _ .communities
    | _ => rfl
  have hdiffer : ¬Token.Item.recipient.Agree .badge .badgeElsewhere := by
    show Token.badge.recipient ≠ Token.badgeElsewhere.recipient
    decide
  refine ⟨token _ _ .recipient (by decide) hothers hdiffer, ?_, ?_, ?_⟩
  · refine principal _ _ .chain (fun j hj => ?_) ?_
    · cases j with
      | chain => exact absurd rfl hj
      | _ => rfl
    · show String.join ["desk", "web"] ≠ String.join ["desk"]
      decide
  · refine request _ _ .timestamp (fun j hj => ?_) ?_
    · cases j with
      | timestamp => exact absurd rfl hj
      | _ => rfl
    · show (12 : Millis) ≠ 1
      decide
  · refine subject _ _ .badge .badgeElsewhere .recipient rfl rfl (fun j hj => ?_) (by decide) hothers hdiffer
    cases j with
    | subject => exact absurd rfl hj
    | _ => rfl

end TokenTrust
