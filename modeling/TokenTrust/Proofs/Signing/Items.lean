/-
  TokenTrust.Proofs.Signing.Items — what a signature covers, item by item.

  A canonical text is the texts of a value's items, one after the other (`Token.canonical_eq` and its
  like). An item is a part of the value that is written in one place, and two values agree on it if
  they say the same there: an absent text is the empty one, a list inside a map may stand in any
  order, and of a request chain only the concatenation counts.
  - `text_eq_of_agree`: what values agree on is written alike.
  - `agree_of_text_eq`: an item that is a single value is written in as many ways as it has values.
-/

import Mathlib.Data.List.Forall2
import TokenTrust.Proofs.Text.Base64
import TokenTrust.Proofs.Text.Numerals
import TokenTrust.Signing.Signed

namespace TokenTrust

/-! ## Texts -/

namespace Text

/-- Texts that stand in one order differ as a whole if they differ in one place. -/
theorem join_ne_of_differ {ι : Type} {order : List ι} (hnodup : order.Nodup) {f g : ι → String} {i : ι}
    (hi : i ∈ order) (others : ∀ j, j ≠ i → f j = g j) (differ : f i ≠ g i) :
    String.join (order.map f) ≠ String.join (order.map g) := by
  obtain ⟨before, after, rfl⟩ := List.append_of_mem hi
  obtain ⟨-, hafter, hdisjoint⟩ := List.nodup_append.mp hnodup
  have hbefore : before.map f = before.map g :=
    List.map_congr_left fun j hj => others j (hdisjoint j hj i List.mem_cons_self)
  have hrest : after.map f = after.map g :=
    List.map_congr_left fun j hj => others j fun heq =>
      (List.nodup_cons.mp hafter).1 (heq ▸ hj)
  -- what stands before and after the place is the same and can be taken off
  intro h
  simp only [List.map_append, List.map_cons, String.join_append, String.join_cons, hbefore,
    hrest, String.append_right_inj, String.append_left_inj] at h
  exact differ h

end Text

theorem sortTexts_perm (ss : List String) : (sortTexts ss).Perm ss := List.mergeSort_perm _ _

theorem sortTexts_sorted (ss : List String) : (sortTexts ss).Pairwise (· ≤ ·) := by
  have htrans : ∀ a b c : String, decide (a ≤ b) = true → decide (b ≤ c) = true → decide (a ≤ c) = true :=
    fun _ _ _ hab hbc => decide_eq_true (String.le_trans (of_decide_eq_true hab) (of_decide_eq_true hbc))
  have htotal : ∀ a b : String, (decide (a ≤ b) || decide (b ≤ a)) = true :=
    fun a b => by simpa using String.le_total a b
  exact (List.pairwise_mergeSort htrans htotal ss).imp of_decide_eq_true

/-- Sorting forgets the order that the texts stood in. -/
theorem sortTexts_eq_of_perm {ss ts : List String} (h : ss.Perm ts) : sortTexts ss = sortTexts ts :=
  List.Perm.eq_of_pairwise (fun _ _ _ _ => String.le_antisymm) (sortTexts_sorted ss)
    (sortTexts_sorted ts) ((sortTexts_perm ss).trans (h.trans (sortTexts_perm ts).symm))

/-- Sorted texts stay as they are. -/
theorem sortTexts_of_sorted {ss : List String} (h : ss.Pairwise (· ≤ ·)) : sortTexts ss = ss :=
  List.Perm.eq_of_pairwise (fun _ _ _ _ => String.le_antisymm) (sortTexts_sorted ss) h
    (sortTexts_perm ss)

theorem canonicalText_append (ps qs : List CanonicalPart) :
    canonicalText (ps ++ qs) = canonicalText ps ++ canonicalText qs := by
  simp [canonicalText]

theorem canonicalText_cons (p : CanonicalPart) (ps : List CanonicalPart) :
    canonicalText (p :: ps) = p.render ++ canonicalText ps := by
  simp [canonicalText]

theorem TokenKind.name_inj {k l : TokenKind} : k.name = l.name ↔ k = l := by
  cases k <;> cases l <;> decide

theorem flagText_inj {a b : Bool} :
    (if a then "true" else "false") = (if b then "true" else "false") ↔ a = b := by
  cases a <;> cases b <;> decide

/-- A recipient is not empty, so that it is there can be seen from its text. -/
theorem Validity.recipient_inj {v w : Validity} :
    v.recipient.getD "" = w.recipient.getD "" ↔ v.recipient = w.recipient := by
  have hne : ∀ {x : Validity}, x.recipient ≠ some "" := by
    intro x h
    simp [recipient, Option.filter_eq_some_iff] at h
  refine ⟨fun h => ?_, fun h => by rw [h]⟩
  cases hv : v.recipient with
  | none =>
    cases hw : w.recipient with
    | none => rfl
    | some s =>
      rw [hv, hw] at h
      cases h
      exact absurd hw hne
  | some r =>
    cases hw : w.recipient with
    | none =>
      rw [hv, hw] at h
      cases h
      exact absurd hv hne
    | some s =>
      rw [hv, hw] at h
      exact congrArg some h

/-! ## Memberships and groups -/

def projectText (e : String × List String) : String := e.1 ++ String.join (sortTexts e.2)

def groupText (m : OrderedMap (List String)) : String := String.join (m.toList.map projectText)

/-- The maps have the same projects with the same groups, in whatever order. -/
def SameGroups (m n : OrderedMap (List String)) : Prop :=
  List.Forall₂ (fun e f => e.1 = f.1 ∧ e.2.Perm f.2) m.toList n.toList

/-- Two lists whose entries are written alike are written alike. -/
theorem join_eq_of_forall₂ {α : Type} {R : α → α → Prop} {f : α → String}
    (hf : ∀ {a b}, R a b → f a = f b) {l m : List α} (h : List.Forall₂ R l m) :
    String.join (l.map f) = String.join (m.map f) := by
  induction h with
  | nil => rfl
  | cons hab _ ih => simp only [List.map_cons, String.join_cons, hf hab, ih]

theorem groupText_eq_of_same {m n : OrderedMap (List String)} (h : SameGroups m n) :
    groupText m = groupText n :=
  join_eq_of_forall₂ (fun h => by rw [projectText, projectText, h.1, sortTexts_eq_of_perm h.2]) h

namespace Membership

def text (m : Membership) : String := canonicalText m.canonicalParts

/-- The memberships are the same but for the order inside their lists. -/
structure Agree (m n : Membership) : Prop where
  name : m.name = n.name
  kind : m.kind = n.kind
  organization : m.organization = n.organization
  groups : m.groups.Perm n.groups
  topics : m.topics.Perm n.topics
  regions : m.regions.Perm n.regions
  flags : m.flags = n.flags

theorem text_eq_of_agree {m n : Membership} (h : m.Agree n) : m.text = n.text := by
  simp only [text, canonicalParts, h.name, h.kind, h.organization, h.flags, canonicalText_append,
    canonicalText_cons, CanonicalPart.render, sortTexts_eq_of_perm h.groups,
    sortTexts_eq_of_perm h.topics, sortTexts_eq_of_perm h.regions]

end Membership

theorem canonicalText_flatMap {α : Type} (f : α → List CanonicalPart) (l : List α) :
    canonicalText (l.flatMap f) = String.join (l.map fun a => canonicalText (f a)) := by
  induction l with
  | nil => rfl
  | cons a l ih => simp only [List.flatMap_cons, canonicalText_append, ih, List.map_cons, String.join_cons]

/-! ## Tokens -/

namespace Token

/-- What a signature on a token covers, in the order in which it is written. -/
inductive Item where
  | holder
  | recipient
  | notAfter
  | notBefore
  | issuedTime
  | kind
  | subject
  | issuer
  | chain
  | level
  | formal
  | community
  | platformObjects
  | projectGroups
  | communities
  | external
  | citizenship
  | organization
  deriving DecidableEq, Repr

namespace Item

def order : List Item := [holder, recipient, notAfter, notBefore, issuedTime, kind, subject, issuer,
  chain, level, formal, community, platformObjects, projectGroups, communities, external, citizenship,
  organization]

theorem mem_order (i : Item) : i ∈ order := by cases i <;> decide

theorem nodup_order : order.Nodup := by decide

def text (t : Token) : Item → String
  | holder => t.holder
  | recipient => t.recipient.getD ""
  | notAfter => Text.ofInt64 t.validity.notAfter
  | notBefore => Text.ofInt64 (t.validity.notBefore.getD 0)
  | issuedTime => Text.ofInt64 t.validity.issuedTime
  | kind => t.kind.name
  | subject => t.subject
  | issuer => t.principal.issuer.getD ""
  | chain => String.join t.principal.requestChain
  | level => t.level.getD ""
  | formal => String.join t.authorizations.formal.toList
  | community => String.join t.authorizations.community.toList
  | platformObjects => String.join (t.authorizations.platformObjects.toList.map Text.ofInt64)
  | projectGroups => groupText t.projectGroups
  | communities => String.join (t.communities.values.map Membership.text)
  | external => if t.validForExternalRequest then "true" else "false"
  | citizenship => t.citizenship.getD ""
  | organization => t.organization.getD ""

/-- Two tokens say the same in the item. -/
def Agree (t u : Token) : Item → Prop
  | holder => t.holder = u.holder
  | recipient => t.recipient = u.recipient
  | notAfter => t.validity.notAfter = u.validity.notAfter
  | notBefore => t.validity.notBefore.getD 0 = u.validity.notBefore.getD 0
  | issuedTime => t.validity.issuedTime = u.validity.issuedTime
  | kind => t.kind = u.kind
  | subject => t.subject = u.subject
  | issuer => t.principal.issuer.getD "" = u.principal.issuer.getD ""
  | chain => String.join t.principal.requestChain = String.join u.principal.requestChain
  | level => t.level.getD "" = u.level.getD ""
  | formal => t.authorizations.formal = u.authorizations.formal
  | community => t.authorizations.community = u.authorizations.community
  | platformObjects => t.authorizations.platformObjects = u.authorizations.platformObjects
  | projectGroups => SameGroups t.projectGroups u.projectGroups
  | communities => List.Forall₂ Membership.Agree t.communities.values u.communities.values
  | external => t.validForExternalRequest = u.validForExternalRequest
  | citizenship => t.citizenship.getD "" = u.citizenship.getD ""
  | organization => t.organization.getD "" = u.organization.getD ""

def IsSingle (i : Item) : Prop :=
  i ∉ [formal, community, platformObjects, projectGroups, communities]

instance : DecidablePred IsSingle := fun i => inferInstanceAs (Decidable (i ∉ _))

theorem agree_refl (t : Token) (i : Item) : i.Agree t t := by
  cases i with
  | projectGroups => exact List.forall₂_same.mpr fun e _ => ⟨rfl, .refl _⟩
  | communities =>
    exact List.forall₂_same.mpr fun m _ => ⟨rfl, rfl, rfl, .refl _, .refl _, .refl _, rfl⟩
  | _ => rfl

theorem text_eq_of_agree {t u : Token} {i : Item} (h : i.Agree t u) : i.text t = i.text u := by
  cases i with
  | projectGroups => exact groupText_eq_of_same h
  | communities =>
    have hvalues : List.Forall₂ Membership.Agree t.communities.values u.communities.values := h
    exact join_eq_of_forall₂ (f := Membership.text) Membership.text_eq_of_agree hvalues
  | _ =>
    simp only [Agree] at h
    simp only [text, h]

theorem agree_of_text_eq {t u : Token} {i : Item} (hi : i.IsSingle) (h : i.text t = i.text u) :
    i.Agree t u := by
  cases i with
  | recipient => exact Validity.recipient_inj.mp h
  | notAfter => exact Text.ofInt64_inj.mp h
  | notBefore => exact Text.ofInt64_inj.mp h
  | issuedTime => exact Text.ofInt64_inj.mp h
  | kind => exact TokenKind.name_inj.mp h
  | formal => exact absurd hi (by decide)
  | community => exact absurd hi (by decide)
  | platformObjects => exact absurd hi (by decide)
  | projectGroups => exact absurd hi (by decide)
  | communities => exact absurd hi (by decide)
  | external => exact flagText_inj.mp h
  | _ => exact h

end Item

theorem canonical_eq (t : Token) : t.canonical = String.join (Item.order.map (Item.text t)) := by
  have hobjects : canonicalText (t.authorizations.platformObjects.toList.map .integer) =
      Item.platformObjects.text t := by
    rw [canonicalText, List.map_map]
    rfl
  have hgroups : canonicalText (t.projectGroups.toList.flatMap fun e => [.text e.1, .sorted e.2]) =
      Item.projectGroups.text t := by
    rw [canonicalText_flatMap]
    refine congrArg String.join (List.map_congr_left fun e _ => ?_)
    simp [canonicalText, CanonicalPart.render, projectText]
  have hcommunities : canonicalText (t.communities.values.flatMap (·.canonicalParts)) =
      Item.communities.text t := canonicalText_flatMap _ _
  simp only [canonical, canonicalParts, canonicalText_append, hobjects, hcommunities]
  rw [hgroups]
  simp [canonicalText, CanonicalPart.render, Item.order, Item.text, String.append_assoc]
  rfl

end Token

/-! ## Principals -/

namespace Principal

inductive Item where
  | subject
  | issuer
  | chain
  | notAfter
  deriving DecidableEq, Repr

namespace Item

def order : List Item := [subject, issuer, chain, notAfter]

theorem mem_order (i : Item) : i ∈ order := by cases i <;> decide

theorem nodup_order : order.Nodup := by decide

def text (p : Principal) : Item → String
  | subject => p.subject
  | issuer => p.issuer.getD ""
  | chain => String.join p.requestChain
  | notAfter => Text.ofInt64 p.validity.notAfter

def Agree (p q : Principal) : Item → Prop
  | subject => p.subject = q.subject
  | issuer => p.issuer.getD "" = q.issuer.getD ""
  | chain => String.join p.requestChain = String.join q.requestChain
  | notAfter => p.validity.notAfter = q.validity.notAfter

theorem text_eq_iff_agree {p q : Principal} {i : Item} : i.text p = i.text q ↔ i.Agree p q := by
  cases i with
  | notAfter => exact Text.ofInt64_inj
  | _ => exact Iff.rfl

end Item

theorem canonical_eq (p : Principal) : p.canonical = String.join (Item.order.map (Item.text p)) := by
  simp [canonical, canonicalParts, canonicalText, CanonicalPart.render, Item.order, Item.text]

end Principal

/-! ## Requests -/

namespace Subject

def text (s : Subject) : String := canonicalText s.canonicalParts

theorem text_token (t : Token) : (token t).text = t.canonical := rfl

end Subject

namespace Request

inductive Item where
  | subject
  | kind
  | requester
  | target
  | timestamp
  | exclusions
  deriving DecidableEq, Repr

namespace Item

def order : List Item := [subject, kind, requester, target, timestamp, exclusions]

theorem mem_order (i : Item) : i ∈ order := by cases i <;> decide

theorem nodup_order : order.Nodup := by decide

def text (r : Request) : Item → String
  | subject => r.subject.text
  | kind => r.kind.name
  | requester => r.requester
  | target => r.target
  | timestamp => Text.ofInt64 r.timestamp
  | exclusions => String.join (r.exclude.elim [] (·.toList))

/-- Two requests say the same in the item; of a subject only what is written counts. -/
def Agree (r s : Request) : Item → Prop
  | subject => r.subject.text = s.subject.text
  | kind => r.kind = s.kind
  | requester => r.requester = s.requester
  | target => r.target = s.target
  | timestamp => r.timestamp = s.timestamp
  | exclusions => String.join (r.exclude.elim [] (·.toList)) = String.join (s.exclude.elim [] (·.toList))

theorem text_eq_iff_agree {r s : Request} {i : Item} : i.text r = i.text s ↔ i.Agree r s := by
  cases i with
  | kind => exact TokenKind.name_inj
  | timestamp => exact Text.ofInt64_inj
  | _ => exact Iff.rfl

end Item

theorem canonical_eq (r : Request) : r.canonical = String.join (Item.order.map (Item.text r)) := by
  simp [canonical, canonicalParts, canonicalText, CanonicalPart.render, Item.order, Item.text,
    Subject.text]

end Request

end TokenTrust
