import PhotoIntake.Proofs.Json.RoundTrip
import PhotoIntake.Proofs.Naming.RoundTrip
import Mathlib.Data.List.Forall2
import Mathlib.Tactic.Common

/-!
# Templates of other versions are read

A record of a template may come from a version that knows other fields, other cases and other
members.  It is read all the same: what is not known turns into free text or into the standard case,
and stays that from then on.

* `valuesOf` and `ofMembers?_of_once`: a record reads each field from the one member that gives it,
  wherever that member stands.
* `TokenEntry` and `TemplateRecord`: what a record says, with `WrittenAs` for the objects that say
  it and `Means` for what it stands for.
* `TokenEntry.means_token`: a marked entry is the field of its name, or else free text.
* `templates_decode`: every template is read back, and every record is read.
-/

namespace PhotoIntake

/-! ## Members that are given once -/

namespace Json

variable {members : List (String × Json)} {fields : List String} {key : String}

/-- The values of all members with a key. -/
def valuesOf (members : List (String × Json)) (key : String) : List Json :=
  (members.filter (·.1 == key)).map (·.2)

theorem lookup_eq_head?_valuesOf (members : List (String × Json)) (key : String) :
    members.lookup key = (valuesOf members key).head? := by
  induction members with
  | nil => rfl
  | cons m rest ih =>
    obtain ⟨name, v⟩ := m
    by_cases hkey : name = key
    · simp [valuesOf, hkey]
    · have hother : (key == name) = false := by simpa using Ne.symm hkey
      simpa [valuesOf, List.lookup_cons, hkey, hother] using ih

/-- Members that are no field do not count for a field. -/
theorem valuesOf_filter (hfield : key ∈ fields) :
    valuesOf (members.filter fun m => fields.contains m.1) key = valuesOf members key := by
  unfold valuesOf
  rw [List.filter_filter]
  congr 1
  refine List.filter_congr fun m _ => ?_
  by_cases hkey : m.1 = key
  · simp [hkey, hfield]
  · simp [hkey]

theorem count_keys (members : List (String × Json)) (key : String) :
    (members.map (·.1)).count key = (valuesOf members key).length := by
  rw [valuesOf, List.length_map, List.count, List.countP_map, List.countP_eq_length_filter]
  rfl

/-- An object that gives no field twice is a record, and each field is what its member gives. -/
theorem Record.ofMembers?_of_once (fields : List String) (members : List (String × Json))
    (h : ∀ field ∈ fields, (valuesOf members field).length ≤ 1) :
    ∃ r, Record.ofMembers? fields members = some r ∧
      ∀ field ∈ fields, r.given.lookup field = (valuesOf members field).head? := by
  let given := members.filter fun m => fields.contains m.1
  -- Members that are no field may be repeated: they are gone when the keys are compared.
  have hdistinct : (given.map (·.1)).Nodup := by
    refine List.nodup_iff_count_le_one.2 fun key => ?_
    by_cases hfield : key ∈ fields
    · rw [count_keys, valuesOf_filter hfield]
      exact h key hfield
    · have habsent : key ∉ given.map (·.1) := by
        simp only [given, List.mem_map, List.mem_filter, not_exists, not_and]
        rintro m ⟨-, hm⟩ rfl
        exact hfield (by simpa using hm)
      rw [List.count_eq_zero_of_not_mem habsent]
      exact Nat.zero_le 1
  refine ⟨⟨false, given⟩, if_pos hdistinct, fun field hfield => ?_⟩
  rw [lookup_eq_head?_valuesOf, valuesOf_filter hfield]

end Json

namespace Json

variable {α β : Type} {W : α → Json → Prop} {o : Option α} {vs : List Json}

/-- The values of a field that may be left out: one that writes it, or none. -/
inductive GivenAs (W : α → Json → Prop) : Option α → List Json → Prop where
  | given (a : α) (v : Json) (h : W a v) : GivenAs W (some a) [v]
  | leftOut : GivenAs W none []

theorem GivenAs.length_le_one (h : GivenAs W o vs) : vs.length ≤ 1 := by
  cases h <;> simp

theorem GivenAs.defaulted_eq {r : Record} {field : String} {read : Json → Option β} {f : α → β}
    (h : GivenAs W o vs) (default : β) (hlookup : r.given.lookup field = vs.head?)
    (hread : ∀ a v, W a v → read v = some (f a)) :
    r.defaulted field read default = some ((o.map f).getD default) := by
  cases h with
  | given a v hv =>
    rw [Record.defaulted, hlookup]
    exact hread a v hv
  | leftOut =>
    rw [Record.defaulted, hlookup]
    rfl

end Json

namespace Naming

open Json (valuesOf GivenAs)

/-! ## What a record says -/

/-- An entry of a record for a token. -/
inductive TokenEntry where
  | marked (marker : Bool) (name : String)
  | plain (content : String)

namespace TokenEntry

/-- The values that write an entry.  A marked object may have members besides its two, with any
values that can be kept. -/
inductive WrittenAs : TokenEntry → Json → Prop where
  | marked (marker : Bool) (name : String) (members : List (String × Json))
    (hmarker : valuesOf members "__token__" = [.bool marker])
    (hname : valuesOf members "name" = [.text name])
    (hkept : (Json.object members).settled?.isSome = true) :
    WrittenAs (.marked marker name) (.object members)
  | plain (content : String) : WrittenAs (.plain content) (.text content)

/-- The token that an entry stands for: a field if it is marked with the name of one. -/
inductive Means : TokenEntry → Token → Prop where
  | known (marker : Bool) (f : Field) : Means (.marked marker f.title) (.field f)
  | unknown (marker : Bool) (name : String) (h : ∀ f : Field, f.title ≠ name) :
    Means (.marked marker name) (.text name)
  | plain (content : String) : Means (.plain content) (.text content)

end TokenEntry

/-- The values that write entries: arrays of what writes each. -/
def WritesEntries (entries : List TokenEntry) (v : Json) : Prop :=
  ∃ items, v = .array items ∧ List.Forall₂ TokenEntry.WrittenAs entries items

/-- The values that write a case policy by its name, behind a marker. -/
def WritesCase (given : Bool × String) (v : Json) : Prop :=
  ∃ members, v = .object members ∧
    valuesOf members "__case__" = [.bool given.1] ∧ valuesOf members "name" = [.text given.2]

/-- A record of a template: what it says of each field, with nothing for one that is left out. -/
structure TemplateRecord where
  key : String
  name : String
  tokens : Option (List TokenEntry)
  extension : Option (Bool × String)
  isBuiltin : Option Bool

namespace TemplateRecord

/-- The members of an object write the record.  They may stand in any order, between others. -/
structure WrittenAs (r : TemplateRecord) (members : List (String × Json)) : Prop where
  key : valuesOf members "key" = [.text r.key]
  name : valuesOf members "name" = [.text r.name]
  tokens : GivenAs WritesEntries r.tokens (valuesOf members "template")
  extension : GivenAs WritesCase r.extension (valuesOf members "extension")
  isBuiltin : GivenAs (fun b v => v = .bool b) r.isBuiltin (valuesOf members "isBuiltin")

/-- The template that a record stands for. -/
structure Means (r : TemplateRecord) (t : Template) : Prop where
  key : t.key = r.key
  name : t.name = r.name
  tokens : List.Forall₂ TokenEntry.Means (r.tokens.getD []) t.tokens
  knownCase : ∀ marker, ∀ case : Case, r.extension = some (marker, case.title) → t.extension = case
  otherCase : (∀ marker, ∀ case : Case, r.extension ≠ some (marker, case.title)) →
    t.extension = .standard
  isBuiltin : t.isBuiltin = r.isBuiltin.getD false

end TemplateRecord

/-! ## Tokens -/

namespace TokenEntry

variable {entry : TokenEntry} {v : Json}

/-- The token that an entry is read as. -/
def token : TokenEntry → Token
  | marked _ name => .ofTitle name
  | plain content => .text content

theorem means_token (entry : TokenEntry) : entry.Means entry.token := by
  cases entry with
  | plain content => exact .plain content
  | marked marker name =>
    by_cases hknown : ∃ f : Field, f.title = name
    · obtain ⟨f, rfl⟩ := hknown
      rw [token, Token.ofTitle, Field.ofTitle?_title]
      exact .known marker f
    · have hnone : Field.ofTitle? name = none :=
        List.find?_eq_none.2 fun f _ hf => hknown ⟨f, by simpa using hf⟩
      rw [token, Token.ofTitle, hnone]
      exact .unknown marker name fun f hf => hknown ⟨f, hf⟩

theorem ofJson?_of_writtenAs (h : entry.WrittenAs v) : Token.ofJson? v = some entry.token := by
  cases h with
  | plain content => rfl
  | marked marker name members hmarker hname hkept =>
    obtain ⟨kept, hkept⟩ := Option.isSome_iff_exists.1 hkept
    obtain ⟨r, hr, hgiven⟩ := Json.Record.ofMembers?_of_once ["__token__", "name"] members
      (by simp [hmarker, hname])
    simp [Token.ofJson?, hkept, hr, Json.Record.required, hgiven, hmarker, hname, Json.bool?,
      Json.text?, token]

/-- Entries are read one by one. -/
theorem mapM_ofJson? {entries : List TokenEntry} {items : List Json}
    (h : List.Forall₂ WrittenAs entries items) :
    items.mapM Token.ofJson? = some (entries.map token) := by
  induction h with
  | nil => rfl
  | cons hfirst hrest ih => simp [List.mapM_cons, ofJson?_of_writtenAs hfirst, ih]

end TokenEntry

theorem listOf?_of_writesEntries {entries : List TokenEntry} {v : Json}
    (h : WritesEntries entries v) :
    Json.listOf? Token.ofJson? v = some (entries.map TokenEntry.token) := by
  obtain ⟨items, rfl, hitems⟩ := h
  exact TokenEntry.mapM_ofJson? hitems

/-! ## Case policies -/

namespace Case

theorem ofTitle?_eq_none {title : String} (h : ∀ case : Case, case.title ≠ title) :
    ofTitle? title = none :=
  List.find?_eq_none.2 fun case _ hcase => h case (by simpa using hcase)

/-- A name that is not known is read as the standard case. -/
theorem ofJson?_of_writesCase {given : Bool × String} {v : Json} (h : WritesCase given v) :
    ofJson? v = some ((ofTitle? given.2).getD standard) := by
  obtain ⟨members, rfl, hmarker, hname⟩ := h
  obtain ⟨r, hr, hgiven⟩ := Json.Record.ofMembers?_of_once ["__case__", "name"] members
    (by simp [hmarker, hname])
  simp [ofJson?, Json.Record.ofJson?, hr, Json.Record.required, hgiven, hmarker, hname, Json.bool?,
    Json.text?]

end Case

/-! ## Templates -/

namespace TemplateRecord

variable {members : List (String × Json)}

/-- The template that a record is read as. -/
def template (r : TemplateRecord) : Template where
  key := r.key
  name := r.name
  tokens := (r.tokens.map (List.map TokenEntry.token)).getD []
  extension := (r.extension.map fun given => (Case.ofTitle? given.2).getD .standard).getD .standard
  isBuiltin := (r.isBuiltin.map id).getD false

theorem means_template (r : TemplateRecord) : r.Means r.template where
  key := rfl
  name := rfl
  tokens := by
    have hmeans (entries : List TokenEntry) :
        List.Forall₂ TokenEntry.Means entries (entries.map TokenEntry.token) :=
      List.forall₂_map_right_iff.2 (List.forall₂_same.2 fun entry _ => entry.means_token)
    rw [template]
    cases r.tokens with
    | none => exact .nil
    | some entries => exact hmeans entries
  knownCase marker case h := by simp [template, h, Case.ofTitle?_title]
  otherCase h := by
    cases hgiven : r.extension with
    | none => simp [template, hgiven]
    | some given =>
      have hnone := Case.ofTitle?_eq_none fun case hcase => h given.1 case (by rw [hgiven, hcase])
      simp [template, hgiven, hnone]
  isBuiltin := by simp [template]

theorem ofJson?_of_writtenAs {r : TemplateRecord} (h : r.WrittenAs members) :
    Template.ofJson? (.object members) = some r.template := by
  obtain ⟨record, hrecord, hgiven⟩ := Json.Record.ofMembers?_of_once
    ["key", "name", "template", "extension", "isBuiltin"] members
    (by simp [h.key, h.name, h.tokens.length_le_one, h.extension.length_le_one,
      h.isBuiltin.length_le_one])
  have htokens := h.tokens.defaulted_eq [] (hgiven "template" (by simp))
    fun _ _ => listOf?_of_writesEntries
  have hextension := h.extension.defaulted_eq .standard (hgiven "extension" (by simp))
    fun _ _ => Case.ofJson?_of_writesCase
  have hbool (b : Bool) (v : Json) (hv : v = .bool b) : v.bool? = some (id b) := by rw [hv]; rfl
  have hbuiltin := h.isBuiltin.defaulted_eq false (hgiven "isBuiltin" (by simp)) hbool
  simp [Template.ofJson?, Json.Record.ofJson?, hrecord, htokens, hextension, hbuiltin,
    Json.Record.required, hgiven, h.key, h.name, Json.text?, template]

end TemplateRecord

/-- Every template is read back from its written form, also as a compact or an indented text, and
then renders what it rendered before.  Every object that writes a record is read, whatever names and
markers stand in it: a marked entry with the title of a field as that field, any other entry as free
text, and a case that is not known as the standard one.  What is read is a template, so writing it
and reading it again changes nothing more. -/
theorem templates_decode :
    (∀ t : Template, Template.ofJson? t.toJson = some t ∧
      ∀ text ∈ [t.toJson.write, t.toJson.writeIndented],
        (Json.read? text).bind Template.ofJson? = some t ∧
        ∀ o purpose, ((Json.read? text).bind Template.ofJson?).map (·.render o purpose) =
          some (t.render o purpose)) ∧
    (∀ (r : TemplateRecord) (members : List (String × Json)), r.WrittenAs members →
      ∃ t, Template.ofJson? (.object members) = some t ∧ r.Means t ∧
        Template.ofJson? t.toJson = some t) := by
  refine ⟨fun t => ⟨t.codes.read_eq, fun text htext => ?_⟩, fun r members hwritten => ?_⟩
  · have hread : (Json.read? text).bind Template.ofJson? = some t := by
      rcases List.mem_pair.1 htext with rfl | rfl
      · rw [Json.read?_write t.codes.isProper, Option.bind_some, t.codes.read_eq]
      · rw [Json.read?_writeIndented t.codes.isProper, Option.bind_some, t.codes.read_eq]
    exact ⟨hread, fun o purpose => by rw [hread, Option.map_some]⟩
  · exact ⟨r.template, r.ofJson?_of_writtenAs hwritten, r.means_template,
      r.template.codes.read_eq⟩

/-- A record of a later version: fields and cases that are not known yet, a marker that is off, free
text that spells a title, and members in another order between new ones. -/
theorem templates_decode_sample :
    let r : TemplateRecord :=
      ⟨"k", "Later", some [.marked true "Moon phase", .marked false "Session", .plain "Session"],
        some (true, "sideways"), none⟩
    let tokens : List Json :=
      [.object [("name", .text "Moon phase"), ("__token__", .bool true), ("since", .text "2")],
        .object [("__token__", .bool false), ("name", .text "Session")], .text "Session"]
    let members : List (String × Json) :=
      [("extension", .object [("__case__", .bool true), ("name", .text "sideways")]),
        ("template", .array tokens), ("version", .null), ("name", .text "Later"),
        ("key", .text "k")]
    r.WrittenAs members ∧
      ∃ t, Template.ofJson? (.object members) = some t ∧ r.Means t ∧
        Template.ofJson? t.toJson = some t := by
  intro r tokens members
  have hentries : WritesEntries [.marked true "Moon phase", .marked false "Session",
      .plain "Session"] (.array tokens) :=
    ⟨tokens, rfl, .cons (.marked _ _ _ rfl rfl rfl) (.cons (.marked _ _ _ rfl rfl rfl)
      (.cons (.plain _) .nil))⟩
  have hwritten : r.WrittenAs members :=
    ⟨rfl, rfl, .given _ _ hentries, .given _ _ ⟨_, rfl, rfl, rfl⟩, .leftOut⟩
  exact ⟨hwritten, templates_decode.2 r members hwritten⟩

end Naming

end PhotoIntake
