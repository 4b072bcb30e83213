import PhotoIntake.Naming.Template.Codec
import PhotoIntake.Proofs.Json.Codes
import Mathlib.Data.List.Nodup

/-!
# Templates are read back

A field is written by its title.  Titles are unique: what stands before the bracket tells the genus,
and within a genus no two formats have the same title.  Free text is written as a text, so it stays
free text also where it spells a title.

* `Field.title_injective` and `Field.ofTitle?_title`: the field of a title.
* `Template.codes`: every template stands in JSON for itself.
-/

namespace PhotoIntake.Naming

open Json (Codes)

/-! ## Titles -/

theorem Genus.mem_all (g : Genus) : g ∈ all := by
  cases g <;> decide

namespace Field

theorem mem_fields_genus (f : Field) : f ∈ f.genus.fields := by
  have hdate (format : DateFormat) : format ∈ DateFormat.all := by cases format <;> decide
  have htime (format : TimeFormat) : format ∈ TimeFormat.all := by cases format <;> decide
  have hcase (case : Case) : case ∈ Case.all := by cases case <;> decide
  have hcount (count : DigitCount) : count ∈ DigitCount.choices := by cases count <;> decide
  cases f with
  | date source format => cases source <;> simp [genus, Genus.fields, Genus.dateFields, hdate]
  | time source format => cases source <;> simp [genus, Genus.fields, Genus.dateFields, htime]
  | name case => simp [genus, Genus.fields, hcase]
  | extension case => simp [genus, Genus.fields, hcase]
  | imageNumber count => simp [genus, Genus.fields, hcount]
  | counter counter width => cases counter <;> simp [genus, Genus.fields, Genus.counterFields]
  | letters case => cases case <;> simp [genus, Genus.fields]
  | session => simp [genus, Genus.fields]

theorem mem_all (f : Field) : f ∈ all :=
  List.mem_flatMap.2 ⟨f.genus, f.genus.mem_all, f.mem_fields_genus⟩

/-- What a title says before the bracket. -/
theorem takeWhile_title (f : Field) : f.title.toList.takeWhile (· != '(') =
    f.genus.title.toList ++ if f.formatTitle?.isSome then [' '] else [] := by
  have hbracket (g : Genus) : ∀ c ∈ g.title.toList, (c != '(') = true :=
    List.all_eq_true.1 (by cases g <;> decide)
  unfold title
  cases f.formatTitle? with
  | none =>
    simp [List.takeWhile_eq_self_iff.2 (hbracket f.genus)]
  | some format =>
    simp [List.takeWhile_append_of_pos (hbracket f.genus)]

theorem genus_of_title {f f' : Field} (h : f.title = f'.title) : f.genus = f'.genus := by
  let opening (g : Genus) : List Char := g.title.toList ++ if g = .session then [] else [' ']
  have hopening (f : Field) : f.title.toList.takeWhile (· != '(') = opening f.genus := by
    rw [takeWhile_title]
    cases f with
    | date source format => cases source <;> rfl
    | time source format => cases source <;> rfl
    | counter counter width => cases counter <;> rfl
    | name _ | extension _ | imageNumber _ | letters _ | session => rfl
  have hdistinct : (Genus.all.map opening).Nodup := by decide +kernel
  refine List.inj_on_of_nodup_map hdistinct f.genus.mem_all f'.genus.mem_all ?_
  rw [← hopening f, ← hopening f', h]

theorem formatTitle?_of_title {f f' : Field} (h : f.title = f'.title) :
    f.formatTitle? = f'.formatTitle? := by
  have hgenus := genus_of_title h
  have hlist := congrArg String.toList h
  unfold title at hlist
  rw [hgenus] at hlist
  cases hf : f.formatTitle? <;> cases hf' : f'.formatTitle? <;>
    simp_all [String.toList_inj]

/-- No two fields have the same title. -/
theorem title_injective : Function.Injective title := fun f f' h => by
  have hgenus := genus_of_title h
  have hdistinct : ∀ g ∈ Genus.all, (g.fields.map formatTitle?).Nodup := by decide +kernel
  have hf' : f' ∈ f.genus.fields := hgenus ▸ f'.mem_fields_genus
  exact List.inj_on_of_nodup_map (hdistinct f.genus f.genus.mem_all) f.mem_fields_genus hf'
    (formatTitle?_of_title h)

theorem ofTitle?_title (f : Field) : ofTitle? f.title = some f := by
  cases hfind : ofTitle? f.title with
  | none =>
    have hne := List.find?_eq_none.1 hfind f f.mem_all
    simp at hne
  | some f' =>
    have heq := List.find?_some hfind
    rw [title_injective (beq_iff_eq.1 heq)]

end Field

theorem Case.ofTitle?_title (case : Case) : Case.ofTitle? case.title = some case := by
  cases case <;> decide

/-! ## Templates -/

theorem Token.codes (token : Token) : Codes ofJson? token.toJson token := by
  cases token with
  | text content => exact ⟨rfl, rfl⟩
  | field f =>
    have htitle : ofTitle f.title = field f := by rw [ofTitle, Field.ofTitle?_title]
    exact ⟨rfl, congrArg some htitle⟩

theorem Case.codes (case : Case) : Codes ofJson? case.toJson case :=
  ⟨rfl, by simp [toJson, ofJson?, Json.text?, Json.bool?, ofTitle?_title]⟩

theorem Template.codes (t : Template) : Codes ofJson? t.toJson t := by
  have htokens : Codes (Json.listOf? Token.ofJson?) (.array (t.tokens.map Token.toJson)) t.tokens :=
    .list fun token _ => token.codes
  have hextension := t.extension.codes
  exact ⟨by simp [toJson, htokens.isProper, hextension.isProper],
    by simp [toJson, ofJson?, Json.text?, Json.bool?, htokens.read_eq, hextension.read_eq]⟩

end PhotoIntake.Naming
