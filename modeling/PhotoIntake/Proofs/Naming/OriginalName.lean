import PhotoIntake.Proofs.Download.FreeName
import PhotoIntake.Proofs.Naming.Shelves

/-!
# The names that images came with

An image keeps its file name in two parts, and the builtin template `ORIGINAL` puts them together
again.  The parts are found by two look-ups with rules for points of their own, and the point that
belongs to neither is put back in front of the extension.

* `Image.isCut_ofName`: where a file name is cut.
* `Image.stem_append_extension_iff`: the two parts make the whole again for file names, and for no
  other text but the empty one.
* `ImageUpdate.stem_foldl_apply` and `extension_foldl_apply`: no update touches the parts.
* `render_original`: the template writes the file name, whatever happened to the image.
-/

namespace PhotoIntake

/-! ## The two parts of a name -/

namespace Image

variable {name file : String}

/-- The name of an image is cut where the file name in it is. -/
theorem isCut_ofName (h : Path.fileName? ⟨name⟩ = some file) (path : String) :
    Path.IsCut file (ofName name path).stem (ofName name path).extension := by
  have hstem : (ofName name path).stem = Transfer.numberedStart name := by
    rw [ofName, Transfer.numberedStart, Path.stem?, h]
    rfl
  rw [hstem]
  exact Transfer.isCut_numbered h

/-- A text without a file name in it gives an image neither part. -/
theorem parts_ofName_of_no_file (h : Path.fileName? ⟨name⟩ = none) (path : String) :
    (ofName name path).stem = "" ∧ (ofName name path).extension = "" := by
  rw [ofName, Path.stem?, Path.extension?, h]
  exact ⟨rfl, rfl⟩

/-- The two parts make the whole again for file names, and for no other text but the empty one. -/
theorem stem_append_extension_iff (path : String) :
    (ofName name path).stem ++ (ofName name path).extension = name ↔
      name = "" ∨ Path.IsName name := by
  cases hfile : Path.fileName? ⟨name⟩ with
  | none =>
    obtain ⟨hstem, hextension⟩ := parts_ofName_of_no_file hfile path
    rw [hstem, hextension, String.append_empty, eq_comm]
    refine ⟨Or.inl, fun h => h.elim id fun hname => ?_⟩
    rw [Path.fileName?_of_isName hname] at hfile
    cases hfile
  | some file =>
    have hname := Path.isName_of_fileName? hfile
    rw [(isCut_ofName hfile path).append_eq]
    constructor
    · rintro rfl
      exact Or.inr hname
    · rintro (rfl | h)
      · cases hfile
      · rw [Path.fileName?_of_isName h] at hfile
        exact (Option.some.inj hfile).symm

end Image

/-! ## Updates -/

namespace ImageUpdate

variable (image : Image) (updates : List ImageUpdate)

theorem stem_apply (u : ImageUpdate) : (u.apply image).stem = image.stem := by
  cases u <;> rfl

theorem extension_apply (u : ImageUpdate) : (u.apply image).extension = image.extension := by
  cases u <;> rfl

theorem stem_foldl_apply : (updates.foldl apply image).stem = image.stem := by
  induction updates generalizing image with
  | nil => rfl
  | cons u rest ih => rw [List.foldl_cons, ih, stem_apply]

theorem extension_foldl_apply : (updates.foldl apply image).extension = image.extension := by
  induction updates generalizing image with
  | nil => rfl
  | cons u rest ih => rw [List.foldl_cons, ih, extension_apply]

end ImageUpdate

/-! ## The template -/

namespace Naming

/-- The template that writes the name of an image in its own case. -/
def originalTemplate : Template :=
  builtin "ORIGINAL" "Original name" [.field (.name .original)] .original

theorem originalTemplate_mem : originalTemplate ∈ builtins .image := by
  simp [builtins, originalTemplate]

theorem render_original_eq (o : Occasion) :
    originalTemplate.render o .image = o.image.stem ++ o.image.extension := by
  rw [Template.render, Template.renderTokens, ← String.toList_inj, String.toList_append,
    String.toList_join]
  simp [originalTemplate, builtin, Token.render, Field.render, Case.apply]

/-- The two parts of a file name make the name, and the template that any collection has under the
key `ORIGINAL` writes just this name: whatever the path, the date, the session and the rest of the
image, the counters and the time, and whatever updates were made. -/
theorem render_original {name : String} (h : Path.IsName name) (path : String)
    (captured : Option CaptureDate) (session : String) (isSelected : Bool) (mark : DownloadMark)
    (updates : List ImageUpdate) (counters : Counters) (time : Calendar.DateTime)
    (c : Collection) :
    let image := Image.ofName name path
    let updated :=
      updates.foldl ImageUpdate.apply { image with captured, session, isSelected, mark }
    image.stem ++ image.extension = name ∧
      ∃ t, c.get? .image "ORIGINAL" = some t ∧ t.isBuiltin = true ∧
        t.render ⟨updated, counters, time⟩ .image = name := by
  intro image updated
  have hparts := (Image.stem_append_extension_iff path).2 (Or.inr h)
  refine ⟨hparts, originalTemplate, c.get?_key_of_mem_builtins originalTemplate_mem, rfl, ?_⟩
  rw [render_original_eq]
  show updated.stem ++ updated.extension = name
  rw [ImageUpdate.stem_foldl_apply, ImageUpdate.extension_foldl_apply]
  exact hparts

/-- Two points in front, of which the second one is the cut. -/
theorem render_original_sample :
    Path.IsName "..jpg" ∧ (Image.ofName "..jpg" "card/..jpg").stem = "." ∧
      ∃ t, (⟨⟨"t.json"⟩, [], []⟩ : Collection).get? .image "ORIGINAL" = some t ∧
        t.render ⟨{ Image.ofName "..jpg" "card/..jpg" with session := "Trip" }, .first, .epoch⟩
          .image = "..jpg" := by
  have hname : Path.IsName "..jpg" := by decide
  obtain ⟨-, t, hget, -, hrender⟩ := render_original hname "card/..jpg" none "" true .never
    [.session "Trip"] .first .epoch ⟨⟨"t.json"⟩, [], []⟩
  exact ⟨hname, by decide, t, hget, hrender⟩

end Naming

end PhotoIntake
