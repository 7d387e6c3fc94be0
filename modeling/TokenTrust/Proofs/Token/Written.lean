/-
  TokenTrust.Proofs.Token.Written — tokens and requests, with all that they are made of, are read back
  as they were written: every form is a record of lawful fields with names of their own, or a variant
  with a lawful payload.

  A set is written as a list, and which list it is does not matter to the reader. So the forms with
  sets in them are looked at with their members listed in any way (`Listings`); written in order, they
  are the forms themselves.
-/

import TokenTrust.Proofs.Json.Records
import TokenTrust.Token.Request

namespace TokenTrust

open Json

/-- How the sets of a document list their members: in order, if nothing else is said. -/
structure Listings where
  formal : Listing String := .inOrder
  community : Listing String := .inOrder
  platformObjects : Listing Int64 := .inOrder
  excluded : Listing String := .inOrder
  mockLabels : Listing String := .inOrder

/-! ## Tokens -/

theorem Validity.codec_lawful : Validity.codec.Lawful := by
  have hfields : Validity.fields.Lawful := ⟨by decide, .required text_lawful _,
    .required text_lawful _, .optional text_lawful _, .required int64_lawful _,
    .optional int64_lawful _, .required int64_lawful _, .optional text_lawful _,
    trivial⟩
  exact record_lawful hfields _ fun _ => rfl

theorem Principal.codec_lawful : Principal.codec.Lawful := by
  have hfields : Principal.fields.Lawful := ⟨by decide, .required text_lawful _,
    .optional text_lawful _, .optional text_lawful _,
    .withDefault (list_lawful text_lawful) _ _, .required Validity.codec_lawful _, trivial⟩
  exact record_lawful hfields _ fun _ => rfl

namespace Authorizations

def forms (l : Listings) : Forms [OrderedSet String, OrderedSet String, OrderedSet Int64] :=
  (some (listedSet l.formal text), some (listedSet l.community text),
    some (listedSet l.platformObjects int64), ())

def listed (l : Listings) : Codec Authorizations := codec.writingBy (fields.inForms (forms l)) row

theorem listed_lawful (l : Listings) : (listed l).Lawful := by
  have heach : (fields.inForms (forms l)).Each := ⟨.withDefault (listedSet_lawful _ text_lawful) _ _,
    .withDefault (listedSet_lawful _ text_lawful) _ _,
    .withDefault (listedSet_lawful _ int64_lawful) _ _, trivial⟩
  have halike : fields.ReadAlike (forms l) := ⟨rfl, rfl, rfl, trivial⟩
  exact record_inForms_lawful (by decide) heach halike _ fun _ => rfl

end Authorizations

theorem TokenKind.codec_lawful : TokenKind.codec.Lawful := fun k => by
  refine ⟨⟨'"', _, rfl, by decide⟩, fun rest _ => ?_⟩
  cases k with
  | user => exact readVariant_written (v := .unit user.name user) rfl rfl rest
  | app => exact readVariant_written (v := .unit app.name app) rfl rfl rest

theorem Membership.codec_lawful : Membership.codec.Lawful := by
  have hlist := list_lawful text_lawful
  have hfields : Membership.fields.Lawful := ⟨by decide, .required text_lawful _,
    .withDefault text_lawful _ _, .withDefault text_lawful _ _,
    .withDefault hlist _ _, .withDefault hlist _ _, .withDefault hlist _ _,
    .withDefault (map_lawful boolean_lawful) _ _, trivial⟩
  exact record_lawful hfields _ fun _ => rfl

namespace Token

def forms (l : Listings) : Forms [TokenKind, Principal, Validity, Authorizations, Option String,
    OrderedMap (List String), OrderedMap Membership, Option String, Option String, Bool] :=
  (none, none, none, some (Authorizations.listed l), none, none, none, none, none, none, ())

def listed (l : Listings) : Codec Token := codec.writingBy (fields.inForms (forms l)) row

theorem listed_lawful (l : Listings) : (listed l).Lawful := by
  have heach : (fields.inForms (forms l)).Each := ⟨.required TokenKind.codec_lawful _,
    .required Principal.codec_lawful _, .required Validity.codec_lawful _,
    .withDefault (Authorizations.listed_lawful l) _ _, .optional text_lawful _,
    .withDefault (map_lawful (list_lawful text_lawful)) _ _,
    .withDefault (map_lawful Membership.codec_lawful) _ _, .optional text_lawful _,
    .optional text_lawful _, .withDefault boolean_lawful _ _, trivial⟩
  have halike : fields.ReadAlike (forms l) :=
    ⟨rfl, rfl, rfl, rfl, rfl, rfl, rfl, rfl, rfl, rfl, trivial⟩
  exact record_inForms_lawful (by decide) heach halike _ fun _ => rfl

theorem read_listed (l : Listings) : (listed l).read = codec.read := Codec.read_writingBy ..

theorem listed_inOrder : listed {} = codec := rfl

theorem codec_lawful : codec.Lawful := listed_inOrder ▸ listed_lawful {}

end Token

/-! ## Assertions -/

theorem Assertion.codec_lawful : Assertion.codec.Lawful := by
  have hfields : Assertion.fields.Lawful :=
    ⟨by decide, .required text_lawful _, .required text_lawful _, trivial⟩
  exact record_lawful hfields _ fun _ => rfl

theorem Certificate.codec_lawful : Certificate.codec.Lawful := by
  have hfields : Certificate.fields.Lawful :=
    ⟨by decide, .required text_lawful _, .optional text_lawful _, trivial⟩
  exact record_lawful hfields _ fun _ => rfl

theorem AssertedUser.codec_lawful : AssertedUser.codec.Lawful := by
  have hfields : AssertedUser.fields.Lawful := ⟨by decide, .required Certificate.codec_lawful _,
    .required text_lawful _, .required text_lawful _, .optional text_lawful _,
    .required int64_lawful _, trivial⟩
  exact record_lawful hfields _ fun _ => rfl

/-! ## Requests -/

namespace Subject

def listed (l : Listings) : Codec Subject where
  read := codec.read
  write
    | token t => writeVariant "tokenPrincipal" ((Token.listed l).write t)
    | s => codec.write s

theorem listed_lawful (l : Listings) : (listed l).Lawful := fun s => by
  cases s with
  | application =>
    refine ⟨⟨'"', _, rfl, by decide⟩, fun rest _ => ?_⟩
    exact readVariant_written (v := .unit "application" application) rfl rfl rest
  | assertion a =>
    refine ⟨opens_writeVariant _ _, fun rest _ => ?_⟩
    show codec.read (writeVariant "proxyPrincipal" (Assertion.codec.write a) ++ rest) = _
    refine readVariant_holding assertion ?_ (Assertion.codec_lawful a).reads rest
    simp [Variant.unit, Variant.holding]
  | token t =>
    have hread := (Token.listed_lawful l t).reads
    simp only [Codec.Rereads, Token.read_listed] at hread
    refine ⟨opens_writeVariant _ _, fun rest _ => ?_⟩
    show codec.read (writeVariant "tokenPrincipal" ((Token.listed l).write t) ++ rest) = _
    refine readVariant_holding token ?_ hread rest
    simp [Variant.unit, Variant.holding]
  | principal p =>
    refine ⟨opens_writeVariant _ _, fun rest _ => ?_⟩
    show codec.read (writeVariant "principal" (Principal.codec.write p) ++ rest) = _
    refine readVariant_holding principal ?_ (Principal.codec_lawful p).reads rest
    simp [Variant.unit, Variant.holding]

theorem listed_inOrder : listed {} = codec := by
  have hwrite : (listed {}).write = codec.write := by
    funext s
    cases s <;> rfl
  exact congrArg (Codec.mk codec.read) hwrite

end Subject

namespace Request

def forms (l : Listings) :
    Forms [String, Millis, TokenKind, Subject, String, Option (OrderedSet String)] :=
  (none, none, none, some (Subject.listed l), none,
    some (Json.optional (listedSet l.excluded text)), ())

def listed (l : Listings) : Codec Request := codec.writingBy (fields.inForms (forms l)) row

theorem listed_lawful (l : Listings) : (listed l).Lawful := by
  have heach : (fields.inForms (forms l)).Each := ⟨.required text_lawful _,
    .required int64_lawful _, .required TokenKind.codec_lawful _,
    .required (Subject.listed_lawful l) _, .required text_lawful _,
    .optional (listedSet_lawful _ text_lawful) _, trivial⟩
  have halike : fields.ReadAlike (forms l) := ⟨rfl, rfl, rfl, rfl, rfl, rfl, trivial⟩
  exact record_inForms_lawful (by decide) heach halike _ fun _ => rfl

theorem read_listed (l : Listings) : (listed l).read = codec.read := Codec.read_writingBy ..

theorem listed_inOrder : listed {} = codec := by
  rw [listed, forms, Subject.listed_inOrder]
  rfl

theorem codec_lawful : codec.Lawful := listed_inOrder ▸ listed_lawful {}

end Request

end TokenTrust
