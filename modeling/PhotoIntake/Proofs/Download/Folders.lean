import PhotoIntake.Proofs.Download.Attempts
import Mathlib.Data.List.Induction
import Mathlib.Data.List.Nodup

/-!
# Previewed folders

The folders are previewed at one reading of the counters, while a download reads them again for
every image.  Both show the same folders, since no token that names a folder shows a counter.

* `firstSeen` lists what it is given without repetition, in the order of the first places.
* `Token.render_of_isAllowedIn`: the tokens of folders render alike at all counters, and so do the
  templates that pass their check, `Template.render_of_validate`.
* `folders_of_candidates`: the folders of a preview are those of the candidates, whatever was
  counted before each of them.
-/

namespace PhotoIntake

namespace Naming

variable {image : Image} {time : Calendar.DateTime}

/-! ## Tokens that name folders -/

/-- A field that may name folders shows no counter. -/
theorem Field.render_of_isAllowedIn {f : Field} (h : f.genus.isAllowedIn .destination = true)
    (c c' : Counters) : f.render ⟨image, c, time⟩ = f.render ⟨image, c', time⟩ := by
  cases f with
  | counter counter width => cases counter <;> exact absurd h Bool.false_ne_true
  | letters case => exact absurd h Bool.false_ne_true
  | date source format => cases source <;> rfl
  | time source format => cases source <;> rfl
  | name case => rfl
  | extension case => rfl
  | imageNumber count => rfl
  | session => rfl

theorem Token.render_of_isAllowedIn {token : Token} (h : token.isAllowedIn .destination = true)
    (c c' : Counters) : token.render ⟨image, c, time⟩ = token.render ⟨image, c', time⟩ := by
  cases token with
  | text content => rfl
  | field f => exact Field.render_of_isAllowedIn h c c'

namespace Template

/-- A template that passes its check has only tokens that it may use. -/
theorem isAllowedIn_of_validate {t : Template} {purpose : Purpose}
    (h : t.validate purpose = .ok ()) {token : Token} (htoken : token ∈ t.tokens) :
    token.isAllowedIn purpose = true := by
  unfold validate at h
  split at h
  · cases h
  · rename_i hnone
    simpa using List.find?_eq_none.1 hnone token htoken

/-- A checked template renders the folder of an image alike at all counters. -/
theorem render_of_validate {t : Template} (h : t.validate .destination = .ok ())
    (c c' : Counters) :
    t.render ⟨image, c, time⟩ .destination = t.render ⟨image, c', time⟩ .destination := by
  have htokens : t.tokens.map (Token.render ⟨image, c, time⟩) =
      t.tokens.map (Token.render ⟨image, c', time⟩) :=
    List.map_congr_left fun _ htoken =>
      Token.render_of_isAllowedIn (isAllowedIn_of_validate h htoken) c c'
  show t.renderTokens _ = t.renderTokens _
  rw [renderTokens, renderTokens, htokens]

end Template

end Naming

/-- What is below a root after a text was rendered: the root, and the names of the text. -/
theorem components_folderBelow (root : Path) (rendered : String) :
    (folderBelow root rendered).components =
      root.components ++ (Path.mk rendered).names.map .name :=
  Path.components_descend fun _ hs => Path.isName_of_mem_names hs

namespace Mover

open Calendar (Date DateTime)
open Naming (Template)

/-! ## Items in the order of their first places -/

theorem firstSeen_concat (items : List String) (s : String) :
    firstSeen (items ++ [s]) =
      if s ∈ firstSeen items then firstSeen items else firstSeen items ++ [s] := by
  simp [firstSeen, List.foldl_append]

@[simp] theorem mem_firstSeen {items : List String} {s : String} :
    s ∈ firstSeen items ↔ s ∈ items := by
  induction items using List.reverseRecOn generalizing s with
  | nil => simp [firstSeen]
  | append_singleton items s' ih =>
    rw [firstSeen_concat]
    split_ifs with hseen
    · have hold : s' ∈ items := ih.1 hseen
      rw [ih, List.mem_append, List.mem_singleton]
      exact ⟨Or.inl, fun h => h.elim id fun heq => heq ▸ hold⟩
    · simp [ih]

theorem nodup_firstSeen (items : List String) : (firstSeen items).Nodup := by
  induction items using List.reverseRecOn with
  | nil => exact List.nodup_nil
  | append_singleton items s ih =>
    rw [firstSeen_concat]
    split_ifs with hseen
    · exact ih
    · simpa using List.Nodup.concat hseen ih

/-- Items without repetition are listed as they are. -/
theorem firstSeen_of_nodup {items : List String} (h : items.Nodup) : firstSeen items = items := by
  induction items using List.reverseRecOn with
  | nil => rfl
  | append_singleton items s ih =>
    rw [← List.concat_eq_append, List.nodup_concat] at h
    obtain ⟨hnew, hitems⟩ := h
    rw [firstSeen_concat, ih hitems, if_neg hnew]

/-- What comes first has its first place first. -/
theorem pairwise_firstSeen (items : List String) :
    (firstSeen items).Pairwise fun a b => items.idxOf a < items.idxOf b := by
  induction items using List.reverseRecOn with
  | nil => exact List.Pairwise.nil
  | append_singleton items s ih =>
    have hsame {a : String} (ha : a ∈ firstSeen items) :
        (items ++ [s]).idxOf a = items.idxOf a :=
      List.idxOf_append_of_mem (mem_firstSeen.1 ha)
    have hbefore : (firstSeen items).Pairwise
        fun a b => (items ++ [s]).idxOf a < (items ++ [s]).idxOf b :=
      ih.imp_of_mem fun ha hb hlt => by rwa [hsame ha, hsame hb]
    rw [firstSeen_concat]
    split_ifs with hseen
    · exact hbefore
    · refine List.pairwise_append.2 ⟨hbefore, List.pairwise_singleton _ _, fun a ha b hb => ?_⟩
      obtain rfl := List.mem_singleton.1 hb
      have hnew : b ∉ items := fun hmem => hseen (mem_firstSeen.2 hmem)
      rw [hsame ha, List.idxOf_append_of_notMem hnew]
      have hlt := List.idxOf_lt_length_of_mem (mem_firstSeen.1 ha)
      omega

/-! ## The folders of the candidates -/

/-- A preview shows the folders of the candidates at the counters that it reads. -/
theorem folders_eq {m : Mover} {destination : Path} {template : Template}
    (hdestination : m.destination = some destination)
    (htemplate : m.destinationTemplate = some template) (files : FileTree) (clock : Clock) :
    (m.folders files clock).1 = firstSeen (m.candidates.map fun image =>
      (folderBelow destination (template.render
        ⟨image, (m.sequences.snapshot files (clock.day 0)).1, clock.now⟩ .destination)).text) := by
  unfold folders folderOf
  rw [htemplate, hdestination]

/-- With a destination and a template for folders that passes its check, the preview lists the
folders of the candidates without repetition, in the order in which they are first needed.  They are
the same whatever the counters show when each candidate is named, so they are those of any download
of these candidates.  Each of them is the destination and below it the names of the text that was
rendered. -/
theorem folders_of_candidates (m : Mover) (destination : Path) (template : Template)
    (files : FileTree) (now : DateTime) (today : Date)
    (hdestination : m.destination = some destination)
    (htemplate : m.destinationTemplate = some template)
    (hvalid : template.validate .destination = .ok ()) :
    let clock := Clock.fixed now today
    let shown := (m.folders files clock).1
    let rendered := fun (image : Image) (c : Counters) =>
      template.render ⟨image, c, now⟩ .destination
    let needed := fun (counters : Nat → Counters) => m.candidates.mapIdx fun i image =>
      (folderBelow destination (rendered image (counters i))).text
    shown.Nodup ∧
    (∀ counters, (∀ folder, folder ∈ shown ↔ folder ∈ needed counters) ∧
      shown.Pairwise fun a b => (needed counters).idxOf a < (needed counters).idxOf b) ∧
    (∀ counters plan sequences files', m.plan? = some plan →
      let m' := { m with sequences }
      m'.candidates.mapIdx (fun i image => (plan.folder
        ((m'.jobAfter plan files' clock i).occasion clock i image)).text) = needed counters) ∧
    ∀ folder ∈ shown, ∃ image ∈ m.candidates, ∀ c,
      let names := (Path.mk (rendered image c)).names
      (∀ s ∈ names, Path.IsName s) ∧
        (Path.mk folder).components = destination.components ++ names.map .name := by
  intro clock shown rendered needed
  have hsame (image : Image) (c c' : Counters) : rendered image c = rendered image c' :=
    Template.render_of_validate hvalid c c'
  let c := (m.sequences.snapshot files today).1
  have hshown : shown = firstSeen (m.candidates.map fun image =>
      (folderBelow destination (rendered image c)).text) :=
    folders_eq hdestination htemplate files clock
  have hneeded (counters : Nat → Counters) : needed counters =
      m.candidates.map fun image => (folderBelow destination (rendered image c)).text := by
    refine List.mapIdx_eq_iff.2 fun i => ?_
    simp only [List.getElem?_map, hsame _ (counters i) c]
  refine ⟨?_, fun counters => ?_, fun counters plan sequences files' hplan => ?_,
    fun folder hfolder => ?_⟩
  · rw [hshown]
    exact nodup_firstSeen _
  · rw [hneeded, hshown]
    exact ⟨fun folder => mem_firstSeen, pairwise_firstSeen _⟩
  · obtain ⟨hfolder, hplanned⟩ := plan?_eq_some hplan
    obtain rfl : plan.destination = destination := Option.some.inj (hfolder.symm.trans hdestination)
    obtain rfl : plan.destinationTemplate = template :=
      Option.some.inj (hplanned.2.symm.trans htemplate)
    rw [hneeded]
    refine List.mapIdx_eq_iff.2 fun i => ?_
    rw [List.getElem?_map]
    refine congrArg (Option.map · _) (funext fun image => ?_)
    exact congrArg (fun text => (folderBelow plan.destination text).text) (hsame image _ _)
  · rw [hshown, mem_firstSeen] at hfolder
    obtain ⟨image, himage, rfl⟩ := List.mem_map.1 hfolder
    refine ⟨image, himage, fun c' => ⟨fun s hs => Path.isName_of_mem_names hs, ?_⟩⟩
    rw [hsame image c' c]
    exact components_folderBelow destination _

/-- Three images with session labels, one of which tries to lead out of the destination. -/
def labelledMover : Mover :=
  { sampleMover "x" with
    destinationTemplate := some ⟨"K", "N", [.text "/../", .field .session], .original, false⟩
    workingSet := ⟨["Trip", "../../etc", "Trip"].mapIdx fun i label =>
      { sampleImage ("card/" ++ Decimal.text i) with session := label }⟩ }

/-- Two of the images share their folder, and the third one stays below the destination. -/
theorem folders_of_candidates_sample :
    let template : Template := ⟨"K", "N", [.text "/../", .field .session], .original, false⟩
    let shown := (labelledMover.folders sampleFiles sampleClock).1
    template.validate .destination = .ok () ∧ shown = ["out/Trip", "out/etc"] ∧ shown.Nodup ∧
      ∀ folder ∈ shown, ∃ names : List String,
        (Path.mk folder).components = (Path.mk "out").components ++ names.map .name := by
  intro template shown
  have hvalid : template.validate .destination = .ok () := rfl
  obtain ⟨hnodup, -, -, hbelow⟩ := folders_of_candidates labelledMover ⟨"out"⟩ template sampleFiles
    .epoch .epoch rfl rfl hvalid
  refine ⟨hvalid, by decide +kernel, hnodup, fun folder hfolder => ?_⟩
  obtain ⟨image, -, hfolder⟩ := hbelow folder hfolder
  exact ⟨_, (hfolder .first).2⟩

end Mover

end PhotoIntake
