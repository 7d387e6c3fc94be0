/-
  TokenTrust.Proofs.Json.Records — records are read back as they were written.

  A record is written as an object with the fields that are shown, in order. Reading it back fills a
  draft with them one after the other (`fills_shown`); what is not shown has the value that the field
  has when it is not given, so the draft is completed to the very values (`complete_drafted`). Two
  fields of one name would be in each other's way.
  - `Fields.Lawful`, `record_lawful`: of lawful fields with different names a lawful form is made.
-/

import TokenTrust.Json.Record
import TokenTrust.Proofs.Json.Containers

namespace TokenTrust.Json

variable {α β : Type} {αs : List Type}

/-! ## Fields -/

/-- A value that is shown is read back, and one that is not is what the field has then. -/
structure Field.Lawful (f : Field α) : Prop where
  shown : ∀ v, f.shown v = true → f.codec.Rereads v
  hidden : ∀ v, f.shown v = false → f.absent = some v

theorem Field.Lawful.required {c : Codec α} (h : c.Lawful) (name : String) :
    (Field.required name c).Lawful := ⟨fun v _ => (h v).reads, fun _ hv => nomatch hv⟩

theorem Field.Lawful.withDefault {c : Codec α} (h : c.Lawful) (name : String) (value : α) :
    (Field.withDefault name c value).Lawful := ⟨fun v _ => (h v).reads, fun _ hv => nomatch hv⟩

/-- A value that is there is not taken for `null`. -/
theorem optional_rereads {c : Codec α} (h : c.Lawful) : ∀ v, (Json.optional c).Rereads v
  | none => fun _ _ => by simp [Json.optional, skip, isSpace, word, Except.map]
  | some a => fun rest hrest => by
    obtain ⟨first, cs, hwrite, hfirst⟩ := (h a).opens
    have hread := (h a).reads rest hrest
    have hnull : first ≠ 'n' := by
      rintro rfl
      exact absurd hfirst (by decide)
    show (Json.optional c).read (c.write a ++ rest) = _
    rw [hwrite, List.cons_append] at hread ⊢
    simp only [Json.optional, skip_of_not_space (not_space_of_opens hfirst)]
    split
    · rename_i heq
      exact absurd (List.cons.inj heq).1 hnull
    · rw [hread]
      rfl

theorem Field.Lawful.optional {c : Codec α} (h : c.Lawful) (name : String) :
    (Field.optional name c).Lawful where
  shown v _ := optional_rereads h v
  hidden v hv := by
    have hnone : v = none := by simpa [Field.optional] using hv
    rw [hnone]
    rfl

/-- A field that shows an absent value as `null`. -/
theorem Field.Lawful.nullable {c : Codec α} (h : c.Lawful) (name : String) (value : Option α) :
    (Field.withDefault name (Json.optional c) value).Lawful :=
  ⟨fun v _ => optional_rereads h v, fun _ hv => nomatch hv⟩

namespace Fields

def names : {αs : List Type} → Fields αs → List String
  | _, nil => []
  | _, cons f fs => f.name :: names fs

def Each : {αs : List Type} → Fields αs → Prop
  | _, nil => True
  | _, cons f fs => f.Lawful ∧ Each fs

/-- Every field is lawful, and no two have one name. -/
structure Lawful (fs : Fields αs) : Prop where
  distinct : fs.names.Nodup
  each : fs.Each

def drafted : {αs : List Type} → Fields αs → Row αs → Draft αs
  | _, nil, _ => ()
  | _, cons f fs, (v, row) => (if f.shown v then some v else none, drafted fs row)

theorem complete_drafted {fs : Fields αs} (h : fs.Each) (row : Row αs) :
    fs.complete (fs.drafted row) = .ok row := by
  induction fs with
  | nil => rfl
  | cons f fs ih =>
    obtain ⟨v, row⟩ := row
    have hvalue : (if f.shown v then some v else none).or f.absent = some v := by
      cases hshown : f.shown v with
      | true => rfl
      | false => exact h.1.hidden v hshown
    simp only [drafted, complete, hvalue, ih h.2 row]
    rfl

/-- Members that fill free slots of a draft, one after the other. -/
inductive Fills (fs : Fields αs) : List (String × List Char) → Draft αs → Draft αs → Prop where
  | none (d : Draft αs) : Fills fs [] d d
  | one {key : String} {value : List Char} {ms : List (String × List Char)} {d d' d'' : Draft αs}
      {read : Reader (Draft αs)} (free : fs.slot key d = .free read)
      (reads : ∀ rest, Closes rest → read (value ++ rest) = .ok (d', rest))
      (others : Fills fs ms d' d'') : Fills fs ((key, value) :: ms) d d''

theorem Fills.takes {fs : Fields αs} {ms : List (String × List Char)} {d d' : Draft αs}
    (h : fs.Fills ms d d') : Takes fs.member ms d d' := by
  induction h with
  | none d => exact .none d
  | one free reads _ ih =>
    refine .one (fun rest hrest => ?_) ih
    simp only [member, free, colon_written]
    exact reads rest hrest

/-- Members of other names pass a field by. -/
theorem Fills.past {f : Field α} {fs : Fields αs} {ms : List (String × List Char)} {d d' : Draft αs}
    (h : fs.Fills ms d d') (hother : ∀ m ∈ ms, m.1 ≠ f.name) (a : Option α) :
    (cons f fs).Fills ms (a, d) (a, d') := by
  induction h with
  | none d => exact .none _
  | @one key value ms d d' d'' read free reads _ ih =>
    have hname : f.name ≠ key := fun heq => hother _ List.mem_cons_self heq.symm
    have hfree : (cons f fs).slot key (a, d) = .free fun s => (read s).map fun o => ((a, o.1), o.2) := by
      simp only [slot, if_neg hname, free]
    refine .one hfree (fun rest hrest => ?_) (ih fun m hm => hother m (List.mem_cons_of_mem _ hm))
    rw [reads rest hrest]
    rfl

theorem mem_names_of_shown {fs : Fields αs} {row : Row αs} {m : String × List Char}
    (h : m ∈ fs.shownMembers row) : m.1 ∈ fs.names := by
  induction fs with
  | nil => cases h
  | cons f fs ih =>
    obtain ⟨v, row⟩ := row
    simp only [shownMembers] at h
    split at h
    · rcases List.mem_cons.mp h with rfl | h
      · exact List.mem_cons_self
      · exact List.mem_cons_of_mem _ (ih h)
    · exact List.mem_cons_of_mem _ (ih h)

theorem fills_shown {fs : Fields αs} (h : fs.Lawful) (row : Row αs) :
    fs.Fills (fs.shownMembers row) fs.blank (fs.drafted row) := by
  -- field by field: each fills its own slot, and the members of the others pass it by
  induction fs with
  | nil => exact .none _
  | cons f fs ih =>
    obtain ⟨v, row⟩ := row
    obtain ⟨hname, hdistinct⟩ := List.nodup_cons.mp h.distinct
    have hothers := ih ⟨hdistinct, h.each.2⟩ row
    have hpast : ∀ m ∈ fs.shownMembers row, m.1 ≠ f.name :=
      fun m hm heq => hname (heq ▸ mem_names_of_shown hm)
    simp only [shownMembers, drafted, blank]
    cases hshown : f.shown v with
    | false => exact hothers.past hpast none
    | true =>
      have hfree : (cons f fs).slot f.name (none, fs.blank) =
          .free fun s => (f.codec.read s).map fun o => ((some o.1, fs.blank), o.2) := if_pos rfl
      refine .one hfree (fun rest hrest => ?_) (hothers.past hpast (some v))
      rw [h.each.1.shown v hshown rest hrest]
      rfl

/-- The values of a written record are read back. -/
theorem readObject_written {fs : Fields αs} (h : fs.Lawful) (row : Row αs) (rest : List Char) :
    fs.readObject (joined ',' ((fs.shownMembers row).map memberText) ++ '\x7d' :: rest) =
      .ok (row, rest) := by
  have hmembers := (fills_shown h row).takes.members_written rest
  have hmapped : (Except.ok (fs.drafted row, rest)).mapError (Fault.settle afterObject) =
      .ok (fs.drafted row, rest) := rfl
  simp only [readObject, hmembers, hmapped]
  simp only [bind, Except.bind, complete_drafted h.each row]

end Fields

/-! ## Records -/

/-- What was written by fields that read as these do is read back. -/
theorem record_reads {fs gs : Fields αs} (h : gs.Lawful) (halike : fs.readObject = gs.readObject)
    (name : String) {toRow : α → Row αs} {ofRow : Row αs → α} (hrow : ∀ a, ofRow (toRow a) = a) (a : α)
    (rest : List Char) : (record name fs toRow ofRow).read
      (writeObject (gs.shownMembers (toRow a)) ++ rest) = .ok (a, rest) := by
  have hbrace : isSpace '\x7b' = false := by decide
  rw [writeObject_append, record]
  simp only [skip_of_not_space hbrace, if_true, halike, Fields.readObject_written h (toRow a) rest]
  simp only [Except.map, hrow]

theorem record_lawful {fs : Fields αs} (h : fs.Lawful) (name : String) {toRow : α → Row αs}
    {ofRow : Row αs → α} (hrow : ∀ a, ofRow (toRow a) = a) : (record name fs toRow ofRow).Lawful :=
  fun a => ⟨opens_writeObject _, fun rest _ => record_reads h rfl name hrow a rest⟩

/-! ## Fields in other forms -/

def Forms : List Type → Type
  | [] => Unit
  | α :: αs => Option (Codec α) × Forms αs

namespace Fields

def inForms : {αs : List Type} → Fields αs → Forms αs → Fields αs
  | _, nil, _ => nil
  | _, cons f fs, (c, cs) => cons { f with codec := c.getD f.codec } (inForms fs cs)

def ReadAlike : {αs : List Type} → Fields αs → Forms αs → Prop
  | _, nil, _ => True
  | _, cons f fs, (c, cs) => (c.getD f.codec).read = f.codec.read ∧ ReadAlike fs cs

variable {fs : Fields αs} {cs : Forms αs}

theorem names_inForms : (fs.inForms cs).names = fs.names := by
  induction fs with
  | nil => rfl
  | cons f fs ih => exact congrArg (List.cons f.name) ih

theorem blank_inForms : (fs.inForms cs).blank = fs.blank := by
  induction fs with
  | nil => rfl
  | cons f fs ih => exact congrArg (Prod.mk none) ih

theorem complete_inForms (d : Draft αs) : (fs.inForms cs).complete d = fs.complete d := by
  induction fs with
  | nil => rfl
  | cons f fs ih =>
    obtain ⟨_, cs⟩ := cs
    obtain ⟨a, d⟩ := d
    simp only [inForms, complete, ih]

theorem slot_inForms (h : fs.ReadAlike cs) (key : String) (d : Draft αs) :
    (fs.inForms cs).slot key d = fs.slot key d := by
  induction fs with
  | nil => rfl
  | cons f fs ih =>
    obtain ⟨_, cs⟩ := cs
    obtain ⟨a, d⟩ := d
    simp only [inForms, slot, h.1, ih h.2]

theorem readObject_inForms (h : fs.ReadAlike cs) : fs.readObject = (fs.inForms cs).readObject := by
  have hmember : (fs.inForms cs).member = fs.member := by
    funext key d s
    simp only [member, slot_inForms h]
  funext s
  simp only [readObject, hmember, blank_inForms, complete_inForms]

end Fields

/-- The form with other fields, or other forms of them, to write a value by. -/
def Codec.writingBy (c : Codec α) (fs : Fields αs) (toRow : α → Row αs) : Codec α :=
  { c with write := fun a => writeObject (fs.shownMembers (toRow a)) }

theorem Codec.read_writingBy (c : Codec α) (fs : Fields αs) (toRow : α → Row αs) :
    (c.writingBy fs toRow).read = c.read := rfl

theorem record_inForms_lawful {fs : Fields αs} {cs : Forms αs} (hdistinct : fs.names.Nodup)
    (heach : (fs.inForms cs).Each) (halike : fs.ReadAlike cs) (name : String) {toRow : α → Row αs}
    {ofRow : Row αs → α} (hrow : ∀ a, ofRow (toRow a) = a) :
    ((record name fs toRow ofRow).writingBy (fs.inForms cs) toRow).Lawful := by
  have hfields : (fs.inForms cs).Lawful := ⟨by rwa [Fields.names_inForms], heach⟩
  exact fun a => ⟨opens_writeObject _, fun rest _ =>
    record_reads hfields (Fields.readObject_inForms halike) name hrow a rest⟩

/-! ## Variants -/

/-- A variant that its name alone stands for is read back from it. -/
theorem readVariant_written {vs : List (Variant α)} {v : Variant α} {a : α}
    (hfound : vs.find? (·.name = v.name) = some v) (halone : v.alone = some a) (rest : List Char) :
    readVariant vs (writeText v.name ++ rest) = .ok (a, rest) := by
  have hquote : isSpace '"' = false := by decide
  rw [writeText_append, readVariant, skip_of_not_space hquote]
  simp only [Char.reduceEq, if_false, if_true, textBody_written]
  simp only [bind, Except.bind, findVariant, hfound, halone]

theorem writeVariant_append (name : String) (payload rest : List Char) :
    writeVariant name payload ++ rest =
      '\x7b' :: '"' :: (name.toList.flatMap escapeChar ++ '"' :: ':' :: (payload ++ '\x7d' :: rest)) := by
  simp [writeVariant, writeObject, joined, writeText]

theorem opens_writeVariant (name : String) (payload : List Char) :
    ∃ first rest, writeVariant name payload = first :: rest ∧ opensValue first = true :=
  opens_writeObject _

/-- A variant with a payload is read back if the payload is. -/
theorem readVariant_holding {vs : List (Variant α)} {name : String} {c : Codec β} (wrap : β → α) {b : β}
    {payload : List Char} (hfound : vs.find? (·.name = name) = some (.holding name c wrap))
    (hb : ∀ rest, Closes rest → c.read (payload ++ rest) = .ok (b, rest)) (rest : List Char) :
    readVariant vs (writeVariant name payload ++ rest) = .ok (wrap b, rest) := by
  have hbrace : isSpace '\x7b' = false := by decide
  have hend : isSpace '\x7d' = false := by decide
  have hquote : isSpace '"' = false := by decide
  have hpayload := hb ('\x7d' :: rest) (.inr (.inr rfl))
  rw [writeVariant_append, readVariant, skip_of_not_space hbrace]
  simp only [if_true, variantKey, skip_of_not_space hquote, textBody_written]
  simp only [bind, Except.bind, findVariant, hfound, colon_written, Variant.holding, hpayload,
    Except.map, skip_of_not_space hend, if_true]

end TokenTrust.Json
