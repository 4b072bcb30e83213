import PhotoIntake.Proofs.FileTree.Following
import PhotoIntake.Download.Transfer
import Mathlib.Data.List.Nodup
import Mathlib.Data.List.Perm.Subperm
import Mathlib.Data.List.TakeWhile

/-!
# Free names

A name that is taken gets the first number whose name is free.  The search for it has a bound; this
module shows that it ends before, in every tree and with links on the way.

* `isCut_numbered`: the number goes to where the file name is cut.
* `exists_location_of_numbered`: all numbered names of a folder lead to one folder of the tree, each
  to an entry of its own, so at most as many are taken as the tree has entries.
* `freeName_cases`: the chosen name is the given one if that is free, and the one with the least
  free number if it is not.  `isThere_freeName` says that nothing is there in either case.
* `isName_numbered`: a number makes one name of any text that ends in a file name.
* `isName_freeName`: choosing makes a name of a name.
* `freeName_first_free`: a search that nothing bounds ends with the same name, and a counter of 32
  bits suffices for it where the tree has fewer entries than the counter has numbers.
-/

namespace PhotoIntake

/-! ## Numbered names -/

namespace Path

/-- How a file name is cut into a stem and a suffix: at its last point, unless that is its first
character. -/
inductive IsCut : String → String → String → Prop where
  | whole {file : String} (hpoint : '.' ∉ file.toList.tail) : IsCut file file ""
  | atPoint {stem extension : String} (hstem : stem ≠ "") (hpoint : '.' ∉ extension.toList) :
      IsCut (stem ++ "." ++ extension) stem ("." ++ extension)

theorem IsCut.append_eq {file stem suffix : String} (h : IsCut file stem suffix) :
    stem ++ suffix = file := by
  cases h with
  | whole => exact String.append_empty
  | atPoint => exact String.append_assoc.symm

/-- A name has a last point behind its first character, or it is not cut. -/
theorem splitName?_cases {name : String} (hdots : name ≠ "..") :
    splitName? name = none ∧ '.' ∉ name.toList.tail ∨
      ∃ stem extension, splitName? name = some (stem, extension) ∧
        name = stem ++ "." ++ extension ∧ stem ≠ "" ∧ '.' ∉ extension.toList := by
  have hback := List.takeWhile_append_dropWhile (p := (· != '.')) (l := name.toList.reverse)
  have hhead := List.head?_dropWhile_not (· != '.') name.toList.reverse
  have hrun : '.' ∉ name.toList.reverse.takeWhile (· != '.') := by
    intro hmem
    have hne := List.mem_takeWhile_imp hmem
    simp at hne
  unfold splitName?
  simp only [if_neg hdots]
  generalize name.toList.reverse.takeWhile (· != '.') = run at hback hrun ⊢
  cases hdrop : name.toList.reverse.dropWhile (· != '.') with
  | nil =>
    rw [hdrop, List.append_nil] at hback
    rw [hback] at hrun
    exact Or.inl ⟨rfl, fun hmem => hrun (List.mem_reverse.2 (List.mem_of_mem_tail hmem))⟩
  | cons c before =>
    obtain rfl : c = '.' := by simpa [hdrop] using hhead
    rw [hdrop] at hback
    have hname : name.toList = before.reverse ++ '.' :: run.reverse := by
      simpa using (congrArg List.reverse hback).symm
    cases before with
    | nil =>
      refine Or.inl ⟨rfl, ?_⟩
      rw [hname]
      simpa using hrun
    | cons d rest =>
      refine Or.inr ⟨_, _, rfl, ?_, by simp, by simpa using hrun⟩
      rw [← String.toList_inj, hname]
      simp

/-- The two sides of the point at which a name is cut. -/
theorem splitName?_eq_some {name stem extension : String}
    (h : splitName? name = some (stem, extension)) :
    name = stem ++ "." ++ extension ∧ stem ≠ "" ∧ '.' ∉ extension.toList := by
  have hdots : name ≠ ".." := by
    rintro rfl
    have hnone : splitName? ".." = none := by decide
    rw [hnone] at h
    cases h
  rcases splitName?_cases hdots with ⟨hnone, -⟩ | ⟨stem', extension', hsome, hcut⟩
  · rw [hnone] at h
    cases h
  · obtain ⟨rfl, rfl⟩ := Prod.mk.inj (Option.some.inj (hsome.symm.trans h))
    exact hcut

/-- The file name of a path is a name. -/
theorem isName_of_fileName? {p : Path} {name : String} (h : p.fileName? = some name) :
    IsName name := by
  obtain ⟨c, hc, hname⟩ := Option.bind_eq_some_iff.1 h
  exact isName_of_mem_names (p := p) (List.mem_filterMap.2 ⟨c, List.mem_of_getLast? hc, hname⟩)

/-- A name is the file name of its path. -/
theorem fileName?_of_isName {s : String} (h : IsName s) : fileName? ⟨s⟩ = some s := by
  rw [fileName?, components_name h]
  rfl

end Path

namespace Transfer

/-- What stands in front of the number. -/
def numberedStart (name : String) : String :=
  (Path.stem? ⟨name⟩).getD name

/-- What stands behind the number. -/
def numberedEnd (name : String) : String :=
  match Path.extension? ⟨name⟩ with
  | some e => "." ++ e
  | none => ""

/-- The number goes to where the file name is cut. -/
theorem isCut_numbered {name file : String} (h : Path.fileName? ⟨name⟩ = some file) :
    Path.IsCut file (numberedStart name) (numberedEnd name) := by
  rw [numberedStart, numberedEnd, Path.stem?, Path.extension?, h, Option.map_some,
    Option.bind_some]
  rcases Path.splitName?_cases (Path.isName_of_fileName? h).ne_dots with
    ⟨hnone, hpoint⟩ | ⟨stem, extension, hsome, hfile, hstem, hpoint⟩
  · rw [hnone]
    exact .whole hpoint
  · rw [hsome, hfile]
    exact .atPoint hstem hpoint

/-- A text that does not end in a file name is not cut. -/
theorem numbered_sides_of_no_file {name : String} (h : Path.fileName? ⟨name⟩ = none) :
    numberedStart name = name ∧ numberedEnd name = "" := by
  rw [numberedStart, numberedEnd, Path.stem?, Path.extension?, h]
  exact ⟨rfl, rfl⟩

/-- The number with what stands around it. -/
def numberMark (name : String) (i : Nat) : String :=
  "-" ++ Decimal.text i ++ numberedEnd name

theorem numbered_eq (name : String) (i : Nat) :
    numbered name i = numberedStart name ++ numberMark name i := by
  rw [numberMark, ← String.append_assoc, ← String.append_assoc]
  rfl

/-- Different numbers make different marks. -/
theorem numberMark_injective (name : String) : Function.Injective (numberMark name) := by
  intro i j h
  have hdigits : Decimal.digits i = Decimal.digits j := by
    have hchars := congrArg String.toList h
    simpa [numberMark, Decimal.text] using hchars
  have hread := congrArg Decimal.readDigits? hdigits
  rw [Decimal.readDigits?_digits, Decimal.readDigits?_digits] at hread
  exact Option.some.inj hread

theorem slash_not_mem_digits (i : Nat) : '/' ∉ Decimal.digits i := by
  intro h
  have hdigit := Nat.isDigit_of_mem_toDigits (by decide) (by decide) h
  simp at hdigit

theorem slash_not_mem_of_file {name file : String} (h : Path.fileName? ⟨name⟩ = some file) :
    '/' ∉ (numberedStart name).toList ∧ '/' ∉ (numberedEnd name).toList := by
  have hslash := (Path.isName_of_fileName? h).no_slash
  rw [← (isCut_numbered h).append_eq, String.toList_append, List.mem_append, not_or] at hslash
  exact hslash

theorem slash_not_mem_numberedEnd (name : String) : '/' ∉ (numberedEnd name).toList := by
  cases hfile : Path.fileName? ⟨name⟩ with
  | none => simp [(numbered_sides_of_no_file hfile).2]
  | some file => exact (slash_not_mem_of_file hfile).2

theorem slash_not_mem_numberMark (name : String) (i : Nat) :
    '/' ∉ (numberMark name i).toList := by
  simp [numberMark, Decimal.text, slash_not_mem_digits, slash_not_mem_numberedEnd]

/-- A text without slashes that ends in a mark is a name. -/
theorem isName_append_numberMark {s : String} (h : '/' ∉ s.toList) (name : String) (i : Nat) :
    Path.IsName (s ++ numberMark name i) := by
  have hdash : '-' ∈ (s ++ numberMark name i).toList := by simp [numberMark]
  refine ⟨?_, ?_, ?_, ?_⟩
  · intro he
    rw [he] at hdash
    simp at hdash
  · intro he
    rw [he] at hdash
    simp at hdash
  · intro he
    rw [he] at hdash
    simp at hdash
  · simp [h, slash_not_mem_numberMark]

/-- A number makes a name of any text that has a file name. -/
theorem isName_numbered {name file : String} (h : Path.fileName? ⟨name⟩ = some file) (i : Nat) :
    Path.IsName (numbered name i) := by
  rw [numbered_eq]
  exact isName_append_numberMark (slash_not_mem_of_file h).1 name i

/-! ## The paths of numbered names -/

/-- The paths of the numbered names of a folder have all in common but their marks. -/
theorem exists_join_numbered (folder : Path) (name : String) :
    ∃ front, ∀ i, folder.join ⟨numbered name i⟩ = ⟨front ++ numberMark name i⟩ := by
  have habsolute (i : Nat) : (⟨numbered name i⟩ : Path).isAbsolute =
      (⟨numberedStart name⟩ : Path).isAbsolute := by
    cases hstart : (numberedStart name).toList with
    | nil => simp [Path.isAbsolute, numbered_eq, hstart, numberMark]
    | cons c rest => simp [Path.isAbsolute, numbered_eq, hstart]
  unfold Path.join
  simp only [habsolute]
  split_ifs
  · exact ⟨numberedStart name, fun i => by rw [numbered_eq]⟩
  · exact ⟨folder.text ++ numberedStart name, fun i => by rw [numbered_eq, String.append_assoc]⟩
  · refine ⟨folder.text ++ "/" ++ numberedStart name, fun i => ?_⟩
    simp only [numbered_eq, String.append_assoc]

/-- A text has no slash, or a last one. -/
theorem slash_not_mem_or_last (s : String) :
    '/' ∉ s.toList ∨ ∃ before last, s = before ++ "/" ++ last ∧ '/' ∉ last.toList := by
  by_cases hslash : '/' ∈ s.toList.reverse
  · obtain ⟨after, before, hback, hafter⟩ := List.eq_append_cons_of_mem hslash
    refine Or.inr ⟨String.ofList before.reverse, String.ofList after.reverse, ?_, by
      simpa using hafter⟩
    rw [← String.toList_inj]
    simpa using congrArg List.reverse hback
  · exact Or.inl (by simpa using hslash)

/-- The components of these paths are the same up to the last one, which is a name that ends in the
mark. -/
theorem exists_components_join_numbered (folder : Path) (name : String) :
    ∃ cs last, ∀ i, (folder.join ⟨numbered name i⟩).components =
      cs ++ [.name (last ++ numberMark name i)] := by
  obtain ⟨front, hfront⟩ := exists_join_numbered folder name
  rcases slash_not_mem_or_last front with hslash | ⟨before, last, rfl, hslash⟩
  · refine ⟨[], front, fun i => ?_⟩
    rw [hfront, Path.components_name (isName_append_numberMark hslash name i), List.nil_append]
  · refine ⟨Path.components ⟨before ++ "/"⟩, last, fun i => ?_⟩
    have hname := isName_append_numberMark hslash name i
    have hjoin : (⟨before ++ "/" ++ last ++ numberMark name i⟩ : Path) =
        Path.join ⟨before ++ "/"⟩ ⟨last ++ numberMark name i⟩ := by
      simp [Path.join, hname.not_isAbsolute, String.append_assoc]
    rw [hfront, hjoin, Path.components_join_name hname]

/-- The numbered names of a folder that are taken lead to one folder of the tree, each to an entry
of its own. -/
theorem exists_location_of_numbered (t : FileTree) (folder : Path) (name : String) :
    ∃ location : Nat → Location, Function.Injective location ∧
      ∀ i, t.isThere (folder.join ⟨numbered name i⟩) = true → location i ∈ t.entries.map (·.1) := by
  obtain ⟨cs, last, hcomponents⟩ := exists_components_join_numbered folder name
  have hplace {i : Nat} (hi : t.isThere (folder.join ⟨numbered name i⟩) = true) :
      ∃ place, FileTree.follow t true FileTree.maxLinks (FileTree.advance t true t.working
        (cs ++ [.name (last ++ numberMark name i)])) = .ok place ∧ place.entry.isSome := by
    obtain ⟨⟨l, e⟩, hentry⟩ := Option.isSome_iff_exists.1 hi
    have hfollow := (FileTree.placeOf_ok (FileTree.entry?_eq_some_iff.1 hentry).1).2
    rw [hcomponents] at hfollow
    exact ⟨_, hfollow, rfl⟩
  have hinjective (outer : Location) :
      Function.Injective fun i => outer ++ [last ++ numberMark name i] := by
    intro i j hij
    have hnames : last ++ numberMark name i = last ++ numberMark name j := by simpa using hij
    refine numberMark_injective name ?_
    rw [← String.toList_inj] at hnames ⊢
    simpa using hnames
  rcases FileTree.follow_snoc t true FileTree.maxLinks t.working cs with ⟨e, h⟩ | ⟨m, outer, h⟩
  · refine ⟨_, hinjective [], fun i hi => ?_⟩
    obtain ⟨place, hfollow, -⟩ := hplace hi
    rw [h] at hfollow
    simp at hfollow
  · refine ⟨_, hinjective outer, fun i hi => ?_⟩
    obtain ⟨place, hfollow, hentry⟩ := hplace hi
    rw [h] at hfollow
    obtain ⟨e, he⟩ :=
      Option.isSome_iff_exists.1 (FileTree.isSome_of_follow_last hfollow hentry)
    exact List.mem_map_of_mem (FileTree.mem_entries_of_get? (by simp) he)

/-! ## The search -/

/-- Among more numbers than the tree has entries there is a free one. -/
theorem exists_free_number (t : FileTree) (folder : Path) (name : String) (i : Nat) :
    ∃ j, i ≤ j ∧ j < i + (t.entries.length + 1) ∧
      t.isThere (folder.join ⟨numbered name j⟩) = false := by
  by_contra hall
  push Not at hall
  obtain ⟨location, hinjective, htaken⟩ := exists_location_of_numbered t folder name
  let numbers := List.range' i (t.entries.length + 1)
  have hnodup : (numbers.map location).Nodup := List.Nodup.map hinjective List.nodup_range'
  have hsubset : numbers.map location ⊆ t.entries.map (·.1) := by
    intro l hl
    obtain ⟨j, hj, rfl⟩ := List.mem_map.1 hl
    obtain ⟨hle, hlt⟩ := List.mem_range'_1.1 hj
    exact htaken j (by simpa using hall j hle hlt)
  have hlength := (List.subperm_of_subset hnodup hsubset).length_le
  simp only [numbers, List.length_map, List.length_range'] at hlength
  omega

/-- The search finds the least free number if there is one within its bound. -/
theorem freeFrom_spec {t : FileTree} {folder : Path} {name : String} {i fuel : Nat}
    (h : ∃ j, i ≤ j ∧ j < i + fuel ∧ t.isThere (folder.join ⟨numbered name j⟩) = false) :
    ∃ j, i ≤ j ∧ freeFrom t folder name i fuel = numbered name j ∧
      t.isThere (folder.join ⟨numbered name j⟩) = false ∧
      ∀ k, i ≤ k → k < j → t.isThere (folder.join ⟨numbered name k⟩) = true := by
  induction fuel generalizing i with
  | zero =>
    obtain ⟨j, hle, hlt, -⟩ := h
    omega
  | succ fuel ih =>
    cases htaken : t.isThere (folder.join ⟨numbered name i⟩) with
    | false =>
      refine ⟨i, Nat.le_refl i, ?_, htaken, fun k hle hlt => absurd hlt (Nat.not_lt.2 hle)⟩
      simp [freeFrom, htaken]
    | true =>
      have hlater : ∃ j, i + 1 ≤ j ∧ j < i + 1 + fuel ∧
          t.isThere (folder.join ⟨numbered name j⟩) = false := by
        obtain ⟨j, hle, hlt, hfree⟩ := h
        have hne : j ≠ i := by
          rintro rfl
          simp [htaken] at hfree
        exact ⟨j, by omega, by omega, hfree⟩
      obtain ⟨j, hle, hfind, hfree, hleast⟩ := ih hlater
      refine ⟨j, by omega, by simpa [freeFrom, htaken] using hfind, hfree, fun k hk hlt => ?_⟩
      by_cases hki : k = i
      · rw [hki, htaken]
      · exact hleast k (by omega) hlt

/-- The chosen name is the given one if that is free, else the one with the least free number. -/
theorem freeName_cases (t : FileTree) (folder : Path) (name : String) :
    t.isThere (folder.join ⟨name⟩) = false ∧ freeName t folder name = name ∨
      t.isThere (folder.join ⟨name⟩) = true ∧ ∃ i, 1 ≤ i ∧
        freeName t folder name = numbered name i ∧
        t.isThere (folder.join ⟨numbered name i⟩) = false ∧
        ∀ k, 1 ≤ k → k < i → t.isThere (folder.join ⟨numbered name k⟩) = true := by
  by_cases htaken : t.isThere (folder.join ⟨name⟩) = true
  · refine Or.inr ⟨htaken, ?_⟩
    rw [freeName, if_pos htaken]
    exact freeFrom_spec (exists_free_number t folder name 1)
  · refine Or.inl ⟨by simpa using htaken, ?_⟩
    rw [freeName, if_neg htaken]

/-- Nothing is there under the chosen name. -/
theorem isThere_freeName (t : FileTree) (folder : Path) (name : String) :
    t.isThere (folder.join ⟨freeName t folder name⟩) = false := by
  rcases freeName_cases t folder name with ⟨hfree, heq⟩ | ⟨-, i, -, heq, hfree, -⟩
  · rw [heq, hfree]
  · rw [heq, hfree]

/-- Choosing makes a name of a name. -/
theorem isName_freeName {name : String} (h : Path.IsName name) (t : FileTree) (folder : Path) :
    Path.IsName (freeName t folder name) := by
  rcases freeName_cases t folder name with ⟨-, heq⟩ | ⟨-, i, -, heq, -⟩
  · rwa [heq]
  · rw [heq]
    exact isName_numbered (Path.fileName?_of_isName h) i

/-! ## The search without a bound -/

/-- The greatest number that a counter of 32 bits with a sign can hold. -/
def lastNumber : Nat :=
  Decimal.wordBound 31 - 1

/-- What the search from a number on ends with where nothing bounds it.  Every name that is taken
raises the counter, which must not hold its last number then. -/
inductive Finds (t : FileTree) (folder : Path) (name : String) : Nat → String → Prop where
  | free {i : Nat} (hfree : t.isThere (folder.join ⟨numbered name i⟩) = false) :
      Finds t folder name i (numbered name i)
  | taken {i : Nat} {chosen : String}
      (htaken : t.isThere (folder.join ⟨numbered name i⟩) = true) (hcounter : i < lastNumber)
      (hlater : Finds t folder name (i + 1) chosen) : Finds t folder name i chosen

/-- What the choice of a name ends with. -/
inductive Chooses (t : FileTree) (folder : Path) (name : String) : String → Prop where
  | given (hfree : t.isThere (folder.join ⟨name⟩) = false) : Chooses t folder name name
  | found {chosen : String} (htaken : t.isThere (folder.join ⟨name⟩) = true)
      (hfinds : Finds t folder name 1 chosen) : Chooses t folder name chosen

/-- The search ends with the first free number, if the counter gets there. -/
theorem finds_of_least {t : FileTree} {folder : Path} {name : String} {i j : Nat} (hle : i ≤ j)
    (hfree : t.isThere (folder.join ⟨numbered name j⟩) = false)
    (htaken : ∀ k, i ≤ k → k < j → t.isThere (folder.join ⟨numbered name k⟩) = true)
    (hcounter : j ≤ lastNumber) : Finds t folder name i (numbered name j) := by
  induction hle using Nat.decreasingInduction with
  | self => exact .free hfree
  | of_succ k hlt ih =>
    refine .taken (htaken k (Nat.le_refl k) hlt) (Nat.lt_of_lt_of_le hlt hcounter) (ih ?_)
    exact fun k' hk' => htaken k' (Nat.le_of_succ_le hk')

/-- The first free number is not greater than the number of entries and one. -/
theorem le_of_least {t : FileTree} {folder : Path} {name : String} {i : Nat}
    (htaken : ∀ k, 1 ≤ k → k < i → t.isThere (folder.join ⟨numbered name k⟩) = true) :
    i ≤ t.entries.length + 1 := by
  obtain ⟨j, hle, hlt, hfree⟩ := exists_free_number t folder name 1
  by_contra hgt
  have hj := htaken j hle (by omega)
  rw [hfree] at hj
  cases hj

/-- In a tree with fewer entries than the counter has numbers the choice of a name comes to its
end. -/
theorem chooses_freeName {t : FileTree} (hentries : t.entries.length < lastNumber)
    (folder : Path) (name : String) : Chooses t folder name (freeName t folder name) := by
  rcases freeName_cases t folder name with ⟨hfree, heq⟩ | ⟨htaken, i, hi, heq, hfree, hleast⟩
  · rw [heq]
    exact .given hfree
  · rw [heq]
    exact .found htaken (finds_of_least hi hfree hleast ((le_of_least hleast).trans hentries))

/-- In a tree with fewer entries than the counter has numbers the choice of a name comes to an end,
in any folder, there or not, and for any text as the name.  Nothing is there under the chosen name.
It is the given one if nothing is there under that.  Else it gets the least number from one on under
which nothing is there, between the sides to which its file name is cut; a text that does not end in
a file name gets the number at its end.  No two numbers make the same name. -/
theorem freeName_first_free {t : FileTree} (hentries : t.entries.length < lastNumber)
    (folder : Path) (name : String) :
    let candidate := fun i => numberedStart name ++ "-" ++ Decimal.text i ++ numberedEnd name
    Chooses t folder name (freeName t folder name) ∧
    t.isThere (folder.join ⟨freeName t folder name⟩) = false ∧
    (t.isThere (folder.join ⟨name⟩) = false → freeName t folder name = name) ∧
    (t.isThere (folder.join ⟨name⟩) = true → ∃ i, 1 ≤ i ∧ freeName t folder name = candidate i ∧
      ∀ k, 1 ≤ k → k < i → t.isThere (folder.join ⟨candidate k⟩) = true) ∧
    (∀ file, Path.fileName? ⟨name⟩ = some file →
      Path.IsCut file (numberedStart name) (numberedEnd name)) ∧
    (Path.fileName? ⟨name⟩ = none → numberedStart name = name ∧ numberedEnd name = "") ∧
    Function.Injective candidate := by
  intro candidate
  have hcandidate (i : Nat) : numbered name i = candidate i := rfl
  have hinjective : Function.Injective candidate := fun i j h =>
    numberMark_injective name (by simpa [← hcandidate, numbered_eq] using h)
  refine ⟨chooses_freeName hentries folder name, isThere_freeName t folder name, fun hfree => ?_,
    fun htaken => ?_, fun _ => isCut_numbered, numbered_sides_of_no_file, hinjective⟩
  · rw [freeName, if_neg (by simp [hfree])]
  · rcases freeName_cases t folder name with ⟨hfree, -⟩ | ⟨-, i, hi, heq, -, hleast⟩
    · rw [htaken] at hfree
      cases hfree
    · exact ⟨i, hi, heq, hleast⟩

/-- A folder with a gap between the numbers that are taken. -/
def sampleGap : FileTree :=
  { FileTree.empty [] with
    entries := [(["out"], .folder), (["out", "a.b.jpg"], .file "A".toUTF8 0),
      (["out", "a.b-1.jpg"], .file "B".toUTF8 0), (["out", "a.b-3.jpg"], .file "C".toUTF8 0)] }

theorem freeName_first_free_sample :
    sampleGap.entries.length < lastNumber ∧ Chooses sampleGap ⟨"out"⟩ "a.b.jpg" "a.b-2.jpg" ∧
      sampleGap.isThere ⟨"out/a.b-2.jpg"⟩ = false := by
  have hentries : sampleGap.entries.length < lastNumber := by decide
  obtain ⟨hchooses, hfree, -⟩ := freeName_first_free hentries ⟨"out"⟩ "a.b.jpg"
  have hname : freeName sampleGap ⟨"out"⟩ "a.b.jpg" = "a.b-2.jpg" := by decide +kernel
  rw [hname] at hchooses hfree
  exact ⟨hentries, hchooses, hfree⟩

end Transfer

end PhotoIntake
