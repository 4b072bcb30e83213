import PhotoIntake.Proofs.FileTree.ReadBack
import PhotoIntake.Proofs.Json.RoundTrip
import PhotoIntake.Proofs.Sequence.DayText
import PhotoIntake.Sequence.Basic

/-!
# Durable counters are read back

The file of the counters names its day by three numbers between dashes, and such a day is read back
unless its year is below zero.  With it, counters of 32 bits are read back.

* `Durable.ofJson?_fileText`: the text of a file, for the counters that `Fits` describes.
-/

namespace PhotoIntake.Sequence

namespace Durable

/-- The counters are words of 32 bits. -/
def InWords (d : Durable) : Prop :=
  d.daily.count < Decimal.wordBound 32 ∧ d.storedNumber < Decimal.wordBound 32

instance (d : Durable) : Decidable d.InWords :=
  inferInstanceAs (Decidable (_ ∧ _))

/-- The counters are words of 32 bits, and the year of the day is not negative. -/
structure Fits (d : Durable) : Prop where
  year : 0 ≤ d.daily.date.year
  words : d.InWords

theorem ofJson?_toJson {d : Durable} (h : d.Fits) : ofJson? d.toJson = some d := by
  have hdaily := Daily.ofJson?_toJson_eq_some_iff.2 ⟨h.year, h.words.1⟩
  have hstored := Json.natBelow?_ofNat h.words.2
  let r : Json.Record :=
    ⟨false, [("downloadsToday", d.daily.toJson), ("storedNumber", Json.ofNat d.storedNumber)]⟩
  have hrecord : Json.Record.ofJson? ["downloadsToday", "storedNumber"] d.toJson = some r := rfl
  have hfirst : r.required "downloadsToday" Daily.ofJson? = some d.daily := hdaily
  have hsecond : r.required "storedNumber" (Json.natBelow? (Decimal.wordBound 32)) =
      some d.storedNumber := hstored
  rw [ofJson?, hrecord, Option.bind_eq_bind, Option.bind_some, hfirst, Option.bind_eq_bind,
    Option.bind_some, hsecond]
  rfl

/-- Counters that fit are read back from the text of their file. -/
theorem ofJson?_fileText {d : Durable} (h : d.Fits) :
    (Json.read? d.fileText).bind ofJson? = some d := by
  have hproper : d.toJson.isProper = true := rfl
  rw [fileText, Json.read?_writeIndented hproper, Option.bind_some, ofJson?_toJson h]

theorem isEmpty_fileText (d : Durable) : d.fileText.toUTF8.isEmpty = false :=
  Json.isEmpty_writeIndented rfl

theorem write_eq (d : Durable) (path : Path) :
    d.write path = FileAction.putFile path d.fileText.toUTF8 :=
  rfl

/-- Counters that fit are read back from the file that they were written to. -/
theorem read?_write {d : Durable} (h : d.Fits) {path : Path} {t t' : FileTree}
    (hwrite : (d.write path).runOn t = (.ok (), t')) : read? path t' = some d := by
  have htext := FileAction.textOf?_putFile (isEmpty_fileText d) hwrite
  rw [read?, htext, Option.bind_some, ofJson?_fileText h]

/-- What can be read are words of 32 bits. -/
theorem inWords_of_read? {path : Path} {t : FileTree} {d : Durable} (h : read? path t = some d) :
    d.InWords := by
  have hbelow {bound n : Nat} {v : Json} (h : v.natBelow? bound = some n) : n < bound := by
    cases v <;> simp_all [Json.natBelow?, Option.filter_eq_some_iff]
  obtain ⟨v, -, hv⟩ := Option.bind_eq_some_iff.1 h
  obtain ⟨r, -, hfields⟩ := Option.bind_eq_some_iff.1 hv
  obtain ⟨daily, hdaily, hrest⟩ := Option.bind_eq_some_iff.1 hfields
  obtain ⟨storedNumber, hstored, hd⟩ := Option.bind_eq_some_iff.1 hrest
  obtain rfl := Option.some.inj hd
  obtain ⟨w, -, hcount⟩ := Option.bind_eq_some_iff.1 hdaily
  obtain ⟨w', -, hnumber⟩ := Option.bind_eq_some_iff.1 hstored
  refine ⟨?_, hbelow hnumber⟩
  unfold Daily.ofJson? at hcount
  split at hcount
  · obtain ⟨date, -, hcount⟩ := Option.bind_eq_some_iff.1 hcount
    obtain ⟨count, hbound, hdaily⟩ := Option.bind_eq_some_iff.1 hcount
    obtain rfl := Option.some.inj hdaily
    exact hbelow hbound
  · simp at hcount

end Durable

end PhotoIntake.Sequence
