import PhotoIntake.Proofs.Download.FreeName
import PhotoIntake.Proofs.Text.Casing
import PhotoIntake.Naming.Template
import Mathlib.Data.List.TakeWhile

/-!
# Numbers and extensions

A template writes a body and the extension of the image behind it.  The search for a free name is
given the whole name and cuts it again, by the rules for file names: the folders of the name are
left out, and a point at its start is no cut.  Where body and extension are what is cut, the number
goes between them.

* `IsExtension`: what stands behind the stem of an image's name, if anything does.  Case mapping
  leaves it one.
* `CutsBack`: the name is cut into the body and the extension that it was put together from.
* `numbered_of_cutsBack` and `numbered_ne_of_not_cutsBack`: then a number goes in front of the
  extension, or it never does.
* `freeName_of_taken`: which name a taken one is given, and in which folder that is.
-/

namespace PhotoIntake

/-! ## Cutting names -/

namespace Path

/-- The two sides of the last point, seen from the end of the text. -/
theorem span_of_last_point (body : String) {e : String} (he : '.' ∉ e.toList) :
    (body ++ "." ++ e).toList.reverse.takeWhile (· != '.') = e.toList.reverse ∧
      (body ++ "." ++ e).toList.reverse.dropWhile (· != '.') = '.' :: body.toList.reverse := by
  have hback : (body ++ "." ++ e).toList.reverse =
      e.toList.reverse ++ '.' :: body.toList.reverse := by
    simp
  have hrun : ∀ c ∈ e.toList.reverse, (c != '.') = true := by
    intro c hc
    refine bne_iff_ne.2 ?_
    rintro rfl
    exact he (List.mem_reverse.1 hc)
  rw [hback]
  constructor
  · rw [List.takeWhile_append_of_pos hrun, List.takeWhile_cons_of_neg (by simp), List.append_nil]
  · rw [List.dropWhile_append_of_pos hrun, List.dropWhile_cons_of_neg (by simp)]

/-- A name is cut at its last point. -/
theorem splitName?_append {body e : String} (hbody : body ≠ "") (he : '.' ∉ e.toList)
    (hdots : body ++ "." ++ e ≠ "..") : splitName? (body ++ "." ++ e) = some (body, e) := by
  obtain ⟨htake, hdrop⟩ := span_of_last_point body he
  obtain ⟨c, rest, hrest⟩ : ∃ c rest, body.toList.reverse = c :: rest :=
    List.exists_cons_of_ne_nil (by simpa using hbody)
  unfold splitName?
  simp only [htake, hdrop, hrest, if_neg hdots]
  rw [← hrest]
  simp

/-- It is not cut at a point that it starts with. -/
theorem splitName?_point {e : String} (he : '.' ∉ e.toList) : splitName? ("." ++ e) = none := by
  obtain ⟨htake, hdrop⟩ := span_of_last_point "" he
  rw [String.empty_append] at htake hdrop
  unfold splitName?
  simp only [htake, hdrop]
  rfl

end Path

/-! ## Extensions -/

/-- A point and what has neither points nor slashes in it. -/
def IsExtension (s : String) : Prop :=
  ∃ e : String, s = "." ++ e ∧ '.' ∉ e.toList ∧ '/' ∉ e.toList

/-- An image has such an extension or none. -/
theorem Image.extension_ofName (name path : String) :
    (Image.ofName name path).extension = "" ∨ IsExtension (Image.ofName name path).extension := by
  rw [ofName]
  dsimp only
  cases hextension : (⟨name⟩ : Path).extension? with
  | none => exact Or.inl rfl
  | some e =>
    obtain ⟨file, hfile, hsplit⟩ := Option.bind_eq_some_iff.1 hextension
    obtain ⟨⟨stem, e'⟩, hcut, rfl⟩ := Option.map_eq_some_iff.1 hsplit
    have hslash := (Path.isName_of_fileName? hfile).no_slash
    obtain ⟨hname, -, hpoint⟩ := Path.splitName?_eq_some hcut
    rw [hname] at hslash
    simp only [String.toList_append, List.mem_append, not_or] at hslash
    exact Or.inr ⟨e', rfl, hpoint, hslash.2⟩

/-- No case policy takes the point away or adds another mark. -/
theorem IsExtension.apply {s : String} (h : IsExtension s) (case : Naming.Case) :
    IsExtension (case.apply s) := by
  obtain ⟨e, rfl, hpoint, hslash⟩ := h
  cases case with
  | original => exact ⟨e, rfl, hpoint, hslash⟩
  | upper =>
    refine ⟨Text.upper e, ?_, fun hc => hpoint (Text.mem_of_mem_upper hc (by decide)),
      fun hc => hslash (Text.mem_of_mem_upper hc (by decide))⟩
    have hfirst : Text.upperChar '.' = ['.'] := by decide
    simp [Naming.Case.apply, Text.upper, hfirst]
  | lower =>
    have hfirst : Text.lowerChar '.' = ['.'] := by decide
    refine ⟨String.ofList (Text.lowerAfter ['.'] e.toList), ?_, fun hc => hpoint ?_,
      fun hc => hslash ?_⟩
    · simp [Naming.Case.apply, Text.lower, Text.lowerAfter, hfirst]
    · exact Text.mem_of_mem_lowerAfter (String.toList_ofList ▸ hc) (by decide)
    · exact Text.mem_of_mem_lowerAfter (String.toList_ofList ▸ hc) (by decide)

/-! ## Numbers -/

/-- The name put together from a body and an extension is cut into these again: the body is not
empty, has no folders, and does not make the two points that mean a folder. -/
structure CutsBack (body ext : String) : Prop where
  ne_empty : body ≠ ""
  no_slash : '/' ∉ body.toList
  ne_dots : body ++ ext ≠ ".."

namespace Transfer

variable {body ext : String}

/-- Where the name is cut back, the number goes between body and extension. -/
theorem numbered_of_cutsBack (h : CutsBack body ext) (hext : IsExtension ext) (k : Nat) :
    numbered (body ++ ext) k = body ++ "-" ++ Decimal.text k ++ ext := by
  obtain ⟨e, rfl, hpoint, hslash⟩ := hext
  have hcut : Path.splitName? (body ++ ("." ++ e)) = some (body, e) := by
    rw [← String.append_assoc]
    exact Path.splitName?_append h.ne_empty hpoint (String.append_assoc ▸ h.ne_dots)
  have hname : Path.IsName (body ++ ("." ++ e)) := by
    obtain ⟨c, rest, hbody⟩ : ∃ c rest, body.toList = c :: rest :=
      List.exists_cons_of_ne_nil (by simpa using h.ne_empty)
    refine ⟨?_, ?_, h.ne_dots, ?_⟩
    · simp [h.ne_empty]
    · simp [← String.toList_inj, hbody]
    · simp [h.no_slash, hslash]
  have hfile := Path.fileName?_of_isName hname
  simp only [numbered, Path.stem?, Path.extension?, hfile, hcut, Option.map_some, Option.bind_some,
    Option.getD_some]

/-- Where nothing is cut off, there is no number between body and extension. -/
theorem numbered_ne_of_start (h : numberedStart (body ++ ext) = body ++ ext)
    (hext : IsExtension ext) (k k' : Nat) :
    numbered (body ++ ext) k ≠ body ++ "-" ++ Decimal.text k' ++ ext := by
  obtain ⟨e, rfl, -, -⟩ := hext
  intro heq
  rw [numbered_eq, h] at heq
  simp [← String.toList_inj] at heq

/-- Where the name is not cut back, there is never a number between body and extension. -/
theorem numbered_ne_of_not_cutsBack (h : ¬ CutsBack body ext) (hext : IsExtension ext)
    (k k' : Nat) : numbered (body ++ ext) k ≠ body ++ "-" ++ Decimal.text k' ++ ext := by
  cases hfile : Path.fileName? ⟨body ++ ext⟩ with
  | none =>
    refine numbered_ne_of_start ?_ hext k k'
    rw [numberedStart, Path.stem?, hfile]
    rfl
  | some file =>
    by_cases hslash : '/' ∈ body.toList
    · -- The folders are cut off, and a name that still has them is another one.
      intro heq
      refine (isName_numbered hfile k).no_slash ?_
      rw [heq]
      simp [hslash]
    · by_cases hdots : body ++ ext = ".."
      · have hnone : Path.fileName? ⟨".."⟩ = none := by decide
        rw [hdots, hnone] at hfile
        cases hfile
      obtain rfl : body = "" := by
        by_contra hbody
        exact h ⟨hbody, hslash, hdots⟩
      refine numbered_ne_of_start ?_ hext k k'
      obtain ⟨e, rfl, hpoint, hslash⟩ := hext
      rw [String.empty_append] at hfile hdots ⊢
      have hname : Path.IsName ("." ++ e) := by
        refine ⟨by simp, ?_, hdots, by simp [hslash]⟩
        intro hdot
        have hnone : Path.fileName? ⟨"."⟩ = none := by decide
        rw [hdot, hnone] at hfile
        cases hfile
      rw [numberedStart, Path.stem?, Path.fileName?_of_isName hname, Option.map_some,
        Path.splitName?_point hpoint]
      rfl

open Naming (Template Occasion)

/-- A taken name of an image gets the least free number, which the counter of 32 bits reaches in a
tree with fewer entries than it has numbers.  The number goes in front of the extension if body and
extension are what the name is cut into, else it never does.  And if the name has a file name at its
end, then what is chosen is one name, so it is in the folder itself, whatever folders the given name
leads through. -/
theorem freeName_of_taken {t : FileTree} {folder : Path} {template : Template} {o : Occasion}
    (hext : IsExtension o.image.extension)
    (htaken : t.isThere (folder.join ⟨template.render o .image⟩) = true) :
    let name := template.render o .image
    let body := template.renderTokens o
    let ext := template.extension.apply o.image.extension
    (∃ i, 1 ≤ i ∧ freeName t folder name = numbered name i ∧
      t.isThere (folder.join ⟨numbered name i⟩) = false ∧
      ∀ k, 1 ≤ k → k < i → t.isThere (folder.join ⟨numbered name k⟩) = true) ∧
    (t.entries.length < lastNumber → Chooses t folder name (freeName t folder name)) ∧
    (CutsBack body ext → ∀ k, numbered name k = body ++ "-" ++ Decimal.text k ++ ext) ∧
    (¬ CutsBack body ext → ∀ k k', numbered name k ≠ body ++ "-" ++ Decimal.text k' ++ ext) ∧
    ((Path.fileName? ⟨name⟩).isSome →
      (folder.join ⟨freeName t folder name⟩).components =
        folder.components ++ [.name (freeName t folder name)]) := by
  intro name body ext
  have hext' : IsExtension ext := hext.apply template.extension
  rcases freeName_cases t folder name with ⟨hfree, -⟩ | ⟨-, i, hi, heq, hfree, hleast⟩
  · rw [htaken] at hfree
    exact absurd hfree (by decide)
  · refine ⟨⟨i, hi, heq, hfree, hleast⟩,
      fun hentries => chooses_freeName hentries folder name,
      fun hcut => numbered_of_cutsBack hcut hext',
      fun hcut => numbered_ne_of_not_cutsBack hcut hext', fun hfile => ?_⟩
    obtain ⟨file, hfile⟩ := Option.isSome_iff_exists.1 hfile
    rw [heq]
    exact Path.components_join_name (isName_numbered hfile i)

/-- A folder in which three names are taken: one of a folder below, and one without a stem. -/
def sampleTaken : FileTree :=
  { FileTree.empty [] with
    entries := [(["out"], .folder), (["out", "a.jpg"], .file "A".toUTF8 0),
      (["out", "2024"], .folder), (["out", "2024", "a.jpg"], .file "B".toUTF8 0),
      (["out", ".jpg"], .file "C".toUTF8 0)] }

/-- A template of one text, with the extension in lower case. -/
def sampleNaming (text : String) : Template :=
  ⟨"K", "N", [.text text], .lower, false⟩

/-- The first image of all. -/
def sampleShot : Occasion :=
  ⟨.ofName "a.JPG" "card/a.JPG", .first, .epoch⟩

theorem freeName_of_taken_sample :
    IsExtension sampleShot.image.extension ∧
      sampleTaken.isThere (Path.join ⟨"out"⟩ ⟨(sampleNaming "a").render sampleShot .image⟩) = true ∧
      ∃ i, freeName sampleTaken ⟨"out"⟩ ((sampleNaming "a").render sampleShot .image) =
        "a" ++ "-" ++ Decimal.text i ++ ".jpg" := by
  have hext : IsExtension sampleShot.image.extension :=
    (Image.extension_ofName "a.JPG" "card/a.JPG").resolve_left (by decide)
  have htaken : sampleTaken.isThere
      (Path.join ⟨"out"⟩ ⟨(sampleNaming "a").render sampleShot .image⟩) = true := by
    decide +kernel
  obtain ⟨⟨i, -, heq, -⟩, -, hcut, -⟩ := freeName_of_taken hext htaken
  refine ⟨hext, htaken, i, ?_⟩
  rw [heq]
  exact hcut ⟨by decide, by decide, by decide⟩ i

/-- The number of a name below a folder leaves that folder, and the number of a name without a stem
goes behind the extension. -/
theorem freeName_not_between :
    (sampleTaken.isThere ⟨"out/2024/a.jpg"⟩ = true ∧
      (sampleNaming "2024/a").render sampleShot .image = "2024/a.jpg" ∧
      freeName sampleTaken ⟨"out"⟩ "2024/a.jpg" = "a-1.jpg" ∧
      sampleTaken.isThere ⟨"out/2024/a-1.jpg"⟩ = false) ∧
    sampleTaken.isThere ⟨"out/.jpg"⟩ = true ∧
      (sampleNaming "").render sampleShot .image = ".jpg" ∧
      freeName sampleTaken ⟨"out"⟩ ".jpg" = ".jpg-1" ∧
      sampleTaken.isThere ⟨"out/-1.jpg"⟩ = false := by
  decide +kernel

end Transfer

end PhotoIntake
