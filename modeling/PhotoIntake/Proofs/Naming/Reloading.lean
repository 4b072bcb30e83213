import PhotoIntake.Proofs.Naming.Shelves
import PhotoIntake.Proofs.StateFiles

/-!
# Saving and loading templates

What is saved passes the checks of loading, since only templates that can be used were on the
shelves.  So nothing is dropped, and the templates are inserted in the order in which they stood.

* `Shelf.ofJson?_toJson`: a shelf that can be used is read back.
* `Collection.load_save`: so is a collection, from the file to which it was saved.
-/

namespace PhotoIntake.Naming

variable {purpose : Purpose} {shelf : Shelf} {t : Template}

/-! ## A shelf is read back -/

namespace Shelf

/-- A template whose key is above all others goes to the end. -/
theorem insert_of_above (h : ∀ t' ∈ shelf, t'.key < t.key) : shelf.insert t = shelf ++ [t] := by
  induction shelf with
  | nil => rfl
  | cons first rest ih =>
    have hfirst := h first List.mem_cons_self
    have hsame : t.key ≠ first.key := fun heq => String.lt_irrefl _ (heq ▸ hfirst)
    rw [Shelf.insert, if_neg (String.lt_asymm hfirst), if_neg hsame,
      ih fun t' ht' => h t' (List.mem_cons_of_mem first ht'), List.cons_append]

/-- Inserting the templates of a shelf in their order makes the shelf. -/
theorem foldl_insert {ts : List Template} (h : Usable purpose (shelf ++ ts)) :
    (ts.map fun t => (t.key, t)).foldl
      (fun shelf m => insert { m.2 with isBuiltin := false } shelf) shelf = shelf ++ ts := by
  induction ts generalizing shelf with
  | nil => simp
  | cons t ts ih =>
    have hsplit : shelf ++ t :: ts = shelf ++ [t] ++ ts := by simp
    have hunmarked : { t with isBuiltin := false } = t := by
      rw [← (h.own t (by simp)).unmarked]
    have habove : ∀ t' ∈ shelf, t'.key < t.key := fun t' ht' =>
      (List.pairwise_append.1 h.sorted).2.2 t' ht' t List.mem_cons_self
    rw [List.map_cons, List.foldl_cons, hunmarked, insert_of_above habove, hsplit]
    exact ih (hsplit ▸ h)

/-- Where no key is given twice, every member is the last of its key. -/
theorem lastMembers_of_nodup {members : List (String × Template)}
    (h : (members.map (·.1)).Nodup) : lastMembers members = members := by
  have hall (kept members : List (String × Template)) (h : ((kept ++ members).map (·.1)).Nodup) :
      members.foldl (fun kept m => kept.filter (·.1 != m.1) ++ [m]) kept = kept ++ members := by
    induction members generalizing kept with
    | nil => simp
    | cons m members ih =>
      have hnew : kept.filter (·.1 != m.1) = kept := by
        rw [List.map_append, List.nodup_append] at h
        refine List.filter_eq_self.2 fun m' hm' => bne_iff_ne.2 ?_
        exact h.2.2 m'.1 (List.mem_map_of_mem hm') m.1 (by simp)
      rw [List.foldl_cons, hnew, List.append_cons kept m members]
      exact ih (kept ++ [m]) (by simpa using h)
  exact hall [] members h

theorem mapM_members (shelf : Shelf) :
    (List.map (fun t => (t.key, t.toJson)) shelf).mapM
      (fun (key, v) => do return (key, ← Template.ofJson? v)) =
        some (List.map (fun t => (t.key, t)) shelf) := by
  induction shelf with
  | nil => rfl
  | cons t shelf ih =>
    rw [List.map_cons, List.mapM_cons, ih]
    simp only [t.codes.read_eq, Option.bind_eq_bind, Option.bind_some]
    rfl

/-- A template that may stand on a shelf can be used under its key. -/
theorem isUsable_of_isOwn (h : t.IsOwn purpose) : isUsable purpose t.key t = true := by
  simp [isUsable, h.key, h.valid]

/-- A shelf that can be used is read back from its written form. -/
theorem ofJson?_toJson (h : Usable purpose shelf) : ofJson? purpose shelf.toJson = some shelf := by
  have hlast : lastMembers (List.map (fun t => (t.key, t)) shelf) =
      List.map (fun t => (t.key, t)) shelf :=
    lastMembers_of_nodup (by simpa [Function.comp_def] using h.sorted.nodup_keys)
  have husable : (List.map (fun t => (t.key, t)) shelf).filter
      (fun m => isUsable purpose m.1 m.2) = List.map (fun t => (t.key, t)) shelf := by
    refine List.filter_eq_self.2 fun m hm => ?_
    obtain ⟨t, ht, rfl⟩ := List.mem_map.1 hm
    exact isUsable_of_isOwn (h.own t ht)
  have hempty : Usable purpose ([] ++ shelf) := h
  rw [toJson, ofJson?, mapM_members, Option.bind_eq_bind, Option.bind_some]
  simp only [hlast]
  exact congrArg some ((congrArg (List.foldl _ []) husable).trans (foldl_insert hempty))

end Shelf

/-! ## A collection is read back -/

namespace Collection

variable {c : Collection}

theorem shelvesOfJson?_toJson (h : c.Usable) :
    shelvesOfJson? c.toJson = some (c.image, c.destination) := by
  have himage : Shelf.ofJson? .image c.image.toJson = some c.image :=
    Shelf.ofJson?_toJson (h .image)
  have hdestination : Shelf.ofJson? .destination c.destination.toJson = some c.destination :=
    Shelf.ofJson?_toJson (h .destination)
  simp [shelvesOfJson?, toJson, himage, hdestination]

/-- A collection is loaded from its text as it is. -/
theorem load_of_textOf? (h : c.Usable) {files : FileTree}
    (htext : files.textOf? c.path = some c.fileText) : load c.path files = c := by
  rw [load, htext, Option.bind_some, fileText, Json.read?_writeIndented c.isProper_toJson,
    Option.bind_some, shelvesOfJson?_toJson h]

/-- A collection that was saved is loaded as it is. -/
theorem load_save (h : c.Usable) {files files' : FileTree}
    (hsave : c.save files = (.ok (), files')) : load c.path files' = c := by
  refine load_of_textOf? h ?_
  unfold save at hsave
  split at hsave
  · next t hwrite =>
    obtain rfl := (Prod.mk.inj hsave).2
    exact FileAction.textOf?_putFile c.isEmpty_fileText (c.write_eq ▸ hwrite)
  · cases (Prod.mk.inj hsave).1

end Collection

end PhotoIntake.Naming
