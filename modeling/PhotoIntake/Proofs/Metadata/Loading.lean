import PhotoIntake.Metadata.Loader
import PhotoIntake.Proofs.Metadata.Thumbnails

/-!
# Loading everything at once

Each command of a loader asks for tags of its own.  What is read from tags depends on the tags that
were asked for alone, so a command has the same answers as if it had all tags of the file, and the
command for everything has those of the other two.

* `Reader.Serves`: a reader fails for a path, or what it gives agrees with a file on the tags that
  were asked for.
* `answers_congr`: the answers to a command depend on its tags.
* `load_eq`: the answers to a command are those to all tags of the file, or to none.
* `captureDate_eq_fallback`: without a date that can be read the date is the fallback.
* `load_all_splits`: all of it for one key.
-/

namespace PhotoIntake.Metadata

variable {σ : Type}

namespace Tags

/-- The tags agree on the names. -/
def Agree (names : List String) (a b : Tags) : Prop :=
  ∀ name ∈ names, (Json.object a.values).member? name = (Json.object b.values).member? name

/-- The tags with some names agree with all tags on these names. -/
theorem agree_restrict (tags : Tags) (names : List String) :
    Agree names (tags.restrict names) tags := by
  intro name hname
  rw [Json.member?, Json.member?, restrict, ← List.filter_reverse]
  induction tags.values.reverse with
  | nil => rfl
  | cons member members ih =>
    obtain ⟨other, v⟩ := member
    rw [List.filter_cons]
    split
    · simp only [List.lookup_cons, ih]
    · next hdropped =>
      have hother : (name == other) = false := beq_false_of_ne fun hsame =>
        hdropped (List.contains_iff_mem.2 (hsame ▸ hname))
      simp only [List.lookup_cons, hother, ih]

variable {a b : Tags} {tag : Tag}

theorem text?_congr (h : a.get? tag = b.get? tag) : a.text? tag = b.text? tag :=
  congrArg (·.bind Json.text?) h

theorem number?_congr (h : a.get? tag = b.get? tag) : a.number? tag = b.number? tag :=
  congrArg (·.bind Json.float?) h

/-- The tags have a date that can be read. -/
def HasDate (tags : Tags) (date : CaptureDate) : Prop :=
  ∃ text, tags.text? .captureDate = some text ∧ CaptureDate.ofMetadata? text = some date

theorem captureDate_eq_of_hasDate {tags : Tags} {date : CaptureDate} (h : tags.HasDate date) :
    tags.captureDate = date := by
  obtain ⟨text, htext, hdate⟩ := h
  rw [captureDate, htext, Option.bind_some, hdate, Option.getD_some]

theorem captureDate_eq_fallback {tags : Tags} (h : ∀ date, ¬ tags.HasDate date) :
    tags.captureDate = .fallback := by
  have hnone : (tags.text? .captureDate).bind CaptureDate.ofMetadata? = none := by
    refine Option.eq_none_iff_forall_ne_some.2 fun date hdate => h date ?_
    obtain ⟨text, htext, hdate⟩ := Option.bind_eq_some_iff.1 hdate
    exact ⟨text, htext, hdate⟩
  rw [captureDate, hnone, Option.getD_none]

end Tags

/-- A thumbnail depends on the tags for thumbnails. -/
theorem Thumbnail.ofTags_congr {a b : Tags}
    (h : ∀ tag ∈ Loader.thumbnailTags, a.get? tag = b.get? tag) : ofTags a = ofTags b := by
  have himage := Tags.text?_congr (h .thumbnailImage (by decide))
  have htiff := Tags.text?_congr (h .thumbnailTiff (by decide))
  have hsize : size? a = size? b := by
    have hexifWidth := Tags.number?_congr (h .exifWidth (by decide))
    have hexifHeight := Tags.number?_congr (h .exifHeight (by decide))
    have hwidth := Tags.number?_congr (h .imageWidth (by decide))
    have hheight := Tags.number?_congr (h .imageHeight (by decide))
    simp only [size?, List.findSome?_cons, List.findSome?_nil, hexifWidth, hexifHeight, hwidth,
      hheight]
  have hrotation : orientation? a = orientation? b := by
    rw [orientation?, orientation?, h .orientation (by decide)]
  simp only [ofTags, List.findSome?_cons, List.findSome?_nil, himage, htiff, hsize, hrotation]

/-- For each path the reader fails, or what it gives agrees with the tags of the file on the names
that it is asked for. -/
def Reader.Serves (r : Reader σ) (files : Path → Option Tags) : Prop :=
  ∀ s path names, match files path with
    | none => ∃ e, (r.read s path names).1 = .error e
    | some held => ∃ tags, (r.read s path names).1 = .ok tags ∧ tags.Agree names held

/-- A reader of given files, which gives the tags that it is asked for. -/
def Reader.ofFiles (files : Path → Option Tags) : Reader Unit where
  start _ := (.ok (), ())
  read _ path names :=
    (match files path with
      | some held => .ok (held.restrict names)
      | none => .error (.tool .silent), ())
  finish _ := ()

theorem Reader.serves_ofFiles (files : Path → Option Tags) : (ofFiles files).Serves files := by
  intro _ path names
  unfold ofFiles
  dsimp only
  cases files path with
  | none => exact ⟨_, rfl⟩
  | some held => exact ⟨_, rfl, held.agree_restrict names⟩

namespace Loader

variable {r : Reader σ} {files : Path → Option Tags} {a b : Tags}

/-- The answers to a command depend on the tags that it needs. -/
theorem answers_congr (command : Command) (h : ∀ tag ∈ command.wanted, a.get? tag = b.get? tag) :
    command.answers a = command.answers b := by
  have hdate (h : a.get? .captureDate = b.get? .captureDate) : a.captureDate = b.captureDate := by
    rw [Tags.captureDate, Tags.captureDate, Tags.text?_congr h]
  cases command with
  | loadAll key =>
    have hpicture := Thumbnail.ofTags_congr fun tag htag => h tag (List.mem_cons_of_mem _ htag)
    rw [Command.answers, Command.answers, hdate (h _ List.mem_cons_self), hpicture]
  | loadDate key => rw [Command.answers, Command.answers, hdate (h _ List.mem_cons_self)]
  | loadThumbnail key => rw [Command.answers, Command.answers, Thumbnail.ofTags_congr h]

/-- What a loader reads agrees with the tags of the file on those that it needs; where the reader
fails it reads none. -/
theorem readTags_agree (h : r.Serves files) (s : σ) (path : Path) (wanted : List Tag) :
    (readTags r s path wanted).1.Agree (wanted.map Tag.name) ((files path).getD .empty) := by
  have hread := h s path (wanted.map Tag.name)
  unfold readTags
  cases hfile : files path with
  | none =>
    rw [hfile] at hread
    obtain ⟨e, hread⟩ := hread
    split
    · next hok => exact nomatch hread.symm.trans (congrArg Prod.fst hok)
    · exact fun _ _ => rfl
  | some held =>
    rw [hfile] at hread
    obtain ⟨tags, hread, hagree⟩ := hread
    split
    · next hok =>
      obtain rfl := Except.ok.inj (hread.symm.trans (congrArg Prod.fst hok))
      exact hagree
    · next herror => exact nomatch hread.symm.trans (congrArg Prod.fst herror)

/-- The answers to a command are those to all tags of the file, and to none if the reader fails. -/
theorem load_eq (h : r.Serves files) (s : σ) (command : Command) :
    (load r s command).1 = command.answers ((files ⟨command.key⟩).getD .empty) := by
  refine answers_congr command fun tag htag => ?_
  exact readTags_agree h s ⟨command.key⟩ command.wanted tag.name (List.mem_map_of_mem htag)

/-- The command for everything has the answers of the other two, in whatever states the reader is
asked.  These are one event each, about the date and the thumbnail of all tags of the file.  Without
a text that is a date the date is the fallback, and without bytes in the first text of the two tags
for them the thumbnail is absent; so they are where the reader fails. -/
theorem load_all_splits (h : r.Serves files) (key : ImageKey) (s s₁ s₂ : σ) :
    let held := (files ⟨key⟩).getD .empty
    (load r s (.loadAll key)).1 =
      (load r s₁ (.loadDate key)).1 ++ (load r s₂ (.loadThumbnail key)).1 ∧
    (load r s₁ (.loadDate key)).1 = [.captured key held.captureDate] ∧
    (load r s₂ (.loadThumbnail key)).1 = [.thumbnail key (.ofTags held)] ∧
    (∀ date, held.HasDate date → held.captureDate = date) ∧
    ((∀ date, ¬ held.HasDate date) → held.captureDate = .fallback) ∧
    (Thumbnail.ofTags held = .absent ↔ ∀ bytes, ¬ held.Offers .thumbnailImage bytes ∧
      ¬ (held.text? .thumbnailImage = none ∧ held.Offers .thumbnailTiff bytes)) ∧
    (files ⟨key⟩ = none → held.captureDate = .fallback ∧ Thumbnail.ofTags held = .absent) := by
  intro held
  have hall := load_eq h s (.loadAll key)
  have hdate := load_eq h s₁ (.loadDate key)
  have hpicture := load_eq h s₂ (.loadThumbnail key)
  refine ⟨?_, hdate, hpicture, fun _ => Tags.captureDate_eq_of_hasDate,
    Tags.captureDate_eq_fallback, ?_, ?_⟩
  · rw [hall, hdate, hpicture]
    rfl
  · simp only [Thumbnail.ofTags_eq_absent_iff, Option.eq_none_iff_forall_ne_some, ne_eq,
      Thumbnail.data_ofTags_eq_some_iff, not_or]
  · intro hfile
    have hempty : held = .empty := by simp only [held, hfile, Option.getD_none]
    rw [hempty]
    exact ⟨rfl, rfl⟩

/-- A file whose date is no text and whose thumbnail cannot be decoded, and one that is not there. -/
theorem load_all_splits_sample :
    let held : Tags := ⟨[(Tag.captureDate.name, Json.ofNat 2024), (Tag.orientation.name, Json.ofNat 6),
      (Tag.thumbnailImage.name, .text "base64:!")]⟩
    let files : Path → Option Tags := fun path => if path.text = "a.jpg" then some held else none
    (Reader.ofFiles files).Serves files ∧
      (load (Reader.ofFiles files) () (.loadAll "a.jpg")).1 =
        [.captured "a.jpg" .fallback, .thumbnail "a.jpg" .absent] ∧
      (load (Reader.ofFiles files) () (.loadAll "b.jpg")).1 =
        [.captured "b.jpg" .fallback, .thumbnail "b.jpg" .absent] := by
  intro held files
  have hserves := Reader.serves_ofFiles files
  refine ⟨hserves, ?_, ?_⟩
  · obtain ⟨hall, hdate, hpicture, -, hfallback, habsent, -⟩ :=
      load_all_splits hserves "a.jpg" () () ()
    have hheld : (files ⟨"a.jpg"⟩).getD .empty = held := rfl
    have hnoText : held.text? .captureDate = none := by decide +kernel
    have himage : held.text? .thumbnailImage ≠ none := by decide +kernel
    have hnoBytes : (held.text? .thumbnailImage).bind Thumbnail.bytesOf? = none := by
      decide +kernel
    rw [hheld] at hdate hpicture hfallback habsent
    rw [hall, hdate, hpicture, hfallback ?_, habsent.2 ?_]
    · rfl
    · exact fun bytes => ⟨fun h => (nomatch hnoBytes.symm.trans (Tags.offers_iff.1 h)),
        fun h => himage h.1⟩
    · rintro date ⟨text, htext, -⟩
      exact nomatch hnoText.symm.trans htext
  · obtain ⟨hall, hdate, hpicture, -, -, -, hfailed⟩ := load_all_splits hserves "b.jpg" () () ()
    obtain ⟨hfallback, habsent⟩ := hfailed rfl
    rw [hall, hdate, hpicture, hfallback, habsent]
    rfl

end Loader

end PhotoIntake.Metadata
