import PhotoIntake.Source.Scan
import Mathlib.Tactic.Common

/-!
# What a scan hands out

Batches are a matter of size: whatever it is, a scan that nothing stops hands out the image files of
its walk, in the order of the walk, each with what the record of downloads knows of it.
-/

namespace PhotoIntake.Scan

variable {history : Option History} {t : FileTree}

@[simp] theorem isStopped_undisturbed (env : Unit) :
    (undisturbed history t).isStopped env = (false, ()) :=
  rfl

@[simp] theorem lookup_undisturbed (env : Unit) (p : Path) :
    (undisturbed history t).lookup env p = (lookupIn history t p, ()) :=
  rfl

@[simp] theorem receive_undisturbed (env : Unit) (batch : Nat) (found : List Found) :
    (undisturbed history t).receive env batch found = (true, ()) :=
  rfl

/-- An image file as it is handed out. -/
def foundAt (history : Option History) (t : FileTree) (v : Visit) : Found :=
  ⟨v.name, v.path.text, lookupIn history t v.path⟩

/-- The scan of the rest of a walk adds the image files of that rest to what was handed out before
and to the batch that was filling. -/
theorem scanRest_undisturbed (t : FileTree) (history : Option History) (batchSize : Nat)
    (walk : Walk) (s : State) :
    let outcome := (scanRest (undisturbed history t) batchSize walk s ()).1
    outcome.stopped = false ∧
      outcome.batches.flatten =
        s.sent.flatten ++ s.filling ++ (Walk.images walk).map (foundAt history t) := by
  induction walk generalizing s with
  | nil =>
    simp only [scanRest, finish]
    split_ifs with hempty
    · simp [Walk.images, List.isEmpty_iff.1 hempty]
    · simp [Walk.images]
  | cons item rest ih =>
    cases item with
    | none => exact ih s
    | some v =>
      have himages : Walk.images (some v :: rest) =
          if v.isFile && Walk.isImage v.path then v :: Walk.images rest else Walk.images rest := by
        simp only [Walk.images, List.filterMap_cons, id_eq, List.filter_cons]
      rw [himages]
      simp only [scanRest, isStopped_undisturbed, lookup_undisturbed, receive_undisturbed,
        Bool.false_eq_true, if_false, if_true]
      split_ifs with himage hfull
      · simpa [foundAt] using ih ⟨s.sent ++ [s.filling ++ [foundAt history t v]], []⟩
      · simpa [foundAt] using ih { s with filling := s.filling ++ [foundAt history t v] }
      · exact ih s

/-- The whole scan of a source hands out its image files. -/
theorem whole_eq (t : FileTree) (history : Option History) (root : Path) (withSubfolders : Bool)
    (batchSize : Nat) :
    ∃ batches : List (List Found),
      whole t history root withSubfolders batchSize = ⟨batches, false⟩ ∧
        batches.flatten =
          (Walk.images (Walk.ofSource t root withSubfolders)).map (foundAt history t) := by
  obtain ⟨hstopped, hbatches⟩ := scanRest_undisturbed t history (max batchSize 1)
    (Walk.ofSource t root withSubfolders) ⟨[], []⟩
  refine ⟨_, ?_, hbatches⟩
  rw [← hstopped]
  rfl

end PhotoIntake.Scan
