import PhotoIntake.Download.Mover
import PhotoIntake.Proofs.Text.Cutting
import Mathlib.Data.List.Basic
import Mathlib.Tactic.Common

/-!
# The components of joined paths

What a path means is read off its components.  This module says what joining does to them.

* `components_join`: a relative path below a path that is not empty adds its own components, a dot
  at its start apart.
* `components_join_name` and `components_descend`: names are added one component each, whatever the
  path is that they are added to.
* `IsName`: the texts that are one component, a name.  They are what `names` gives, so they are what
  `folderBelow` adds to its root.
* `components_ofComponents`: a path that is put together from components has these components, when
  a root or a single dot stands at most at their start.
-/

namespace PhotoIntake.Path

/-! ## Pieces -/

@[simp] theorem pieces_ne_nil (s : String) : pieces s ≠ [] := by
  simp [pieces, List.splitOn_ne_nil]

/-- A text with a slash in it has the pieces of its two sides. -/
theorem pieces_append_slash (a b : String) : pieces (a ++ "/" ++ b) = pieces a ++ pieces b := by
  have hchars : (a ++ "/" ++ b).toList = a.toList ++ '/' :: b.toList := by simp
  rw [pieces, hchars, List.splitOn_append_cons_self, List.map_append]
  rfl

/-- A text without a slash is its only piece. -/
theorem pieces_of_not_mem {s : String} (h : '/' ∉ s.toList) : pieces s = [s] := by
  rw [pieces, List.splitOn_eq_singleton h]
  simp

/-- No piece holds a slash. -/
theorem slash_not_mem_of_mem_pieces {s piece : String} (h : piece ∈ pieces s) :
    '/' ∉ piece.toList := by
  obtain ⟨run, hrun, rfl⟩ := List.mem_map.1 h
  rw [String.toList_ofList]
  exact Text.not_mem_of_mem_splitOn hrun

/-! ## Names -/

/-- The text is one component, and a name. -/
structure IsName (s : String) : Prop where
  ne_empty : s ≠ ""
  ne_dot : s ≠ "."
  ne_dots : s ≠ ".."
  no_slash : '/' ∉ s.toList

instance (s : String) : Decidable (IsName s) :=
  decidable_of_iff (s ≠ "" ∧ s ≠ "." ∧ s ≠ ".." ∧ '/' ∉ s.toList)
    ⟨fun ⟨h₁, h₂, h₃, h₄⟩ => ⟨h₁, h₂, h₃, h₄⟩, fun ⟨h₁, h₂, h₃, h₄⟩ => ⟨h₁, h₂, h₃, h₄⟩⟩

theorem IsName.ofPiece? {s : String} (h : IsName s) : Component.ofPiece? s = some (.name s) := by
  simp [Component.ofPiece?, h.ne_empty, h.ne_dot, h.ne_dots]

theorem IsName.not_isAbsolute {s : String} (h : IsName s) : (⟨s⟩ : Path).isAbsolute = false := by
  cases hs : s.toList with
  | nil => simp [isAbsolute, hs]
  | cons c rest =>
    have hc : c ≠ '/' := by
      rintro rfl
      exact h.no_slash (by simp [hs])
    simp [isAbsolute, hs, hc]

/-! ## The components behind the start -/

/-- The components that the pieces of a path name: all but a root and a dot at the start. -/
def body (p : Path) : List Component :=
  (pieces p.text).filterMap Component.ofPiece?

theorem components_eq (p : Path) :
    p.components =
      if p.isAbsolute then .root :: p.body
      else if (pieces p.text).head? = some "." then .current :: p.body
      else p.body :=
  rfl

/-- The component of a piece without a slash is a name or the way up. -/
theorem ofPiece?_cases {piece : String} {c : Component} (hslash : '/' ∉ piece.toList)
    (h : Component.ofPiece? piece = some c) : c = .parent ∨ ∃ s, IsName s ∧ c = .name s := by
  unfold Component.ofPiece? at h
  split_ifs at h with hnone hup
  · exact Or.inl (Option.some.inj h).symm
  · rw [not_or] at hnone
    exact Or.inr ⟨piece, ⟨hnone.1, hnone.2, hup, hslash⟩, (Option.some.inj h).symm⟩

theorem mem_body_cases {p : Path} {c : Component} (h : c ∈ p.body) :
    c = .parent ∨ ∃ s, IsName s ∧ c = .name s := by
  obtain ⟨piece, hpiece, hc⟩ := List.mem_filterMap.1 h
  exact ofPiece?_cases (slash_not_mem_of_mem_pieces hpiece) hc

theorem body_of_isName {s : String} (h : IsName s) : body ⟨s⟩ = [.name s] := by
  simp [body, pieces_of_not_mem h.no_slash, h.ofPiece?]

@[simp] theorem components_name {s : String} (h : IsName s) :
    (⟨s⟩ : Path).components = [.name s] := by
  rw [components_eq, if_neg (by simp [h.not_isAbsolute]), if_neg, body_of_isName h]
  simp [pieces_of_not_mem h.no_slash, h.ne_dot]

/-- The names of a path are names. -/
theorem isName_of_mem_names {p : Path} {s : String} (h : s ∈ p.names) : IsName s := by
  obtain ⟨c, hc, hs⟩ := List.mem_filterMap.1 h
  have hbody : c ∈ p.body := by
    rw [components_eq] at hc
    split_ifs at hc
    · rcases List.mem_cons.1 hc with rfl | hc
      · simp [Component.name?] at hs
      · exact hc
    · rcases List.mem_cons.1 hc with rfl | hc
      · simp [Component.name?] at hs
      · exact hc
    · exact hc
  rcases mem_body_cases hbody with rfl | ⟨s', hs', rfl⟩
  · simp [Component.name?] at hs
  · obtain rfl : s' = s := by simpa [Component.name?] using hs
    exact hs'

/-- A root and a dot at the start are no way up. -/
theorem parent_mem_components_iff (p : Path) :
    Component.parent ∈ p.components ↔ Component.parent ∈ p.body := by
  rw [components_eq]
  split_ifs <;> simp

/-- And they are no names. -/
theorem names_eq (p : Path) : p.names = p.body.filterMap Component.name? := by
  rw [names, components_eq]
  split_ifs <;> rfl

/-! ## Joining -/

/-- The text of a path that does not end in a slash is put in front of a slash. -/
theorem join_text {p q : Path} (hp : p.text ≠ "") (hq : q.isAbsolute = false) :
    (p.join q).text = p.text ++ "/" ++ q.text ∨
      ∃ a, p.text = a ++ "/" ∧ (p.join q).text = a ++ "/" ++ q.text := by
  have hempty : p.text.isEmpty = false := by simpa using hp
  unfold join
  rw [if_neg (by simp [hq, hempty])]
  split_ifs with hlast
  · refine Or.inr ⟨String.ofList p.text.toList.dropLast, ?_, ?_⟩
    · rw [← String.toList_inj]
      have hsplit := List.dropLast_append_getLast? '/' hlast
      simpa using hsplit.symm
    · rw [← String.toList_inj]
      have hsplit := List.dropLast_append_getLast? '/' hlast
      simpa using congrArg (· ++ q.text.toList) hsplit.symm
  · exact Or.inl rfl

theorem body_join {p q : Path} (hp : p.text ≠ "") (hq : q.isAbsolute = false) :
    (p.join q).body = p.body ++ q.body := by
  rcases join_text hp hq with htext | ⟨a, ha, htext⟩
  · simp [body, htext, pieces_append_slash]
  · have hpieces : pieces (a ++ "/") = pieces a ++ [""] := by
      simpa [pieces_of_not_mem (s := "") (by simp)] using pieces_append_slash a ""
    simp [body, htext, ha, pieces_append_slash, hpieces, Component.ofPiece?]

theorem head?_pieces_join {p q : Path} (hp : p.text ≠ "") (hq : q.isAbsolute = false) :
    (pieces (p.join q).text).head? = (pieces p.text).head? := by
  rcases join_text hp hq with htext | ⟨a, ha, htext⟩
  · rw [htext, pieces_append_slash, List.head?_append_of_ne_nil _ (pieces_ne_nil _)]
  · have hpieces : pieces (a ++ "/") = pieces a ++ [""] := by
      simpa [pieces_of_not_mem (s := "") (by simp)] using pieces_append_slash a ""
    rw [htext, ha, hpieces, pieces_append_slash, List.head?_append_of_ne_nil _ (pieces_ne_nil _),
      List.head?_append_of_ne_nil _ (pieces_ne_nil _)]

theorem isAbsolute_join {p q : Path} (hp : p.text ≠ "") (hq : q.isAbsolute = false) :
    (p.join q).isAbsolute = p.isAbsolute := by
  have hne : p.text.toList ≠ [] := by simpa using hp
  rcases join_text hp hq with htext | ⟨a, ha, htext⟩
  · simp [isAbsolute, htext, List.head?_append_of_ne_nil _ hne]
  · simp [isAbsolute, htext, ha]

/-- A relative path below a path that is not empty adds its components. -/
theorem components_join {p q : Path} (hp : p.text ≠ "") (hq : q.isAbsolute = false) :
    (p.join q).components = p.components ++ q.body := by
  rw [components_eq, components_eq, isAbsolute_join hp hq, head?_pieces_join hp hq,
    body_join hp hq]
  split_ifs <;> rfl

theorem join_of_text_empty {p q : Path} (hp : p.text = "") : p.join q = q := by
  simp [join, hp]

theorem join_of_isAbsolute {p q : Path} (hq : q.isAbsolute = true) : p.join q = q := by
  simp [join, hq]

theorem components_empty {p : Path} (hp : p.text = "") : p.components = [] := by
  obtain ⟨text⟩ := p
  obtain rfl : text = "" := hp
  decide

/-- A name below any path, the empty one included, is one component more. -/
@[simp] theorem components_join_name {p : Path} {s : String} (h : IsName s) :
    (p.join ⟨s⟩).components = p.components ++ [.name s] := by
  by_cases hp : p.text = ""
  · rw [join_of_text_empty hp, components_empty hp, components_name h, List.nil_append]
  · rw [components_join hp h.not_isAbsolute, body_of_isName h]

theorem components_join_dots (p : Path) :
    (p.join ⟨".."⟩).components = p.components ++ [.parent] := by
  by_cases hp : p.text = ""
  · rw [join_of_text_empty hp, components_empty hp]
    decide
  · rw [components_join hp (by decide)]
    exact congrArg _ (by decide)

/-- Going down adds the names. -/
theorem components_descend {p : Path} {names : List String} (h : ∀ s ∈ names, IsName s) :
    (p.descend names).components = p.components ++ names.map .name := by
  induction names generalizing p with
  | nil => simp [descend]
  | cons s rest ih =>
    have hs : IsName s := h s List.mem_cons_self
    have hrest : ∀ s ∈ rest, IsName s := fun s hs => h s (List.mem_cons_of_mem _ hs)
    show ((p.join ⟨s⟩).descend rest).components = _
    rw [ih hrest, components_join_name hs, List.append_assoc]
    rfl

/-- A path that ends in a name may mean a file. -/
theorem demandsFolder_join_name {p : Path} {s : String} (h : IsName s) :
    (p.join ⟨s⟩).demandsFolder = false := by
  have hlast : (pieces (p.join ⟨s⟩).text).getLast? = some s := by
    by_cases hp : p.text = ""
    · rw [join_of_text_empty hp, pieces_of_not_mem h.no_slash]
      rfl
    · rcases join_text hp h.not_isAbsolute with htext | ⟨a, _, htext⟩
      · rw [htext, pieces_append_slash, pieces_of_not_mem h.no_slash, List.getLast?_concat]
      · rw [htext, pieces_append_slash, pieces_of_not_mem h.no_slash, List.getLast?_concat]
  unfold demandsFolder
  rw [hlast]
  simp [h.ne_empty, h.ne_dot]

/-! ## Paths put together from components -/

/-- The component may stand anywhere: it is a name or the way up. -/
def Component.IsInner : Component → Prop
  | .name s => IsName s
  | .parent => True
  | _ => False

/-- Inner components without a way up are names. -/
theorem exists_names_of_inner {cs : List Component} (h : ∀ c ∈ cs, c.IsInner)
    (hup : Component.parent ∉ cs) : ∃ names : List String, cs = names.map .name := by
  induction cs with
  | nil => exact ⟨[], rfl⟩
  | cons c rest ih =>
    obtain ⟨names, rfl⟩ := ih (fun d hd => h d (List.mem_cons_of_mem _ hd))
      fun hmem => hup (List.mem_cons_of_mem _ hmem)
    cases c with
    | name s => exact ⟨s :: names, rfl⟩
    | parent => simp at hup
    | root => exact absurd (h _ List.mem_cons_self) id
    | current => exact absurd (h _ List.mem_cons_self) id

theorem isInner_of_mem_body {p : Path} {c : Component} (h : c ∈ p.body) : c.IsInner := by
  rcases mem_body_cases h with rfl | ⟨s, hs, rfl⟩
  · trivial
  · exact hs

/-- Only the first component may be a root or a single dot. -/
def Canonical : List Component → Prop
  | [] => True
  | c :: rest => (c = .root ∨ c = .current ∨ c.IsInner) ∧ ∀ d ∈ rest, d.IsInner

theorem canonical_components (p : Path) : Canonical p.components := by
  have hbody : ∀ c ∈ p.body, c.IsInner := fun c hc => isInner_of_mem_body hc
  rw [components_eq]
  split_ifs
  · exact ⟨Or.inl rfl, hbody⟩
  · exact ⟨Or.inr (Or.inl rfl), hbody⟩
  · cases hp : p.body with
    | nil => trivial
    | cons c rest =>
      rw [hp] at hbody
      exact ⟨Or.inr (Or.inr (hbody c List.mem_cons_self)),
        fun d hd => hbody d (List.mem_cons_of_mem _ hd)⟩

theorem Canonical.of_append {cs ds : List Component} (h : Canonical (cs ++ ds)) :
    Canonical cs := by
  cases cs with
  | nil => trivial
  | cons c rest => exact ⟨h.1, fun d hd => h.2 d (List.mem_append_left _ hd)⟩

theorem components_join_inner {p : Path} {c : Component} (h : c.IsInner) :
    (p.join ⟨c.text⟩).components = p.components ++ [c] := by
  cases c with
  | name s => exact components_join_name h
  | parent => exact components_join_dots p
  | root => exact absurd h id
  | current => exact absurd h id

private theorem components_foldl_join {p : Path} {cs : List Component} (h : ∀ c ∈ cs, c.IsInner) :
    (cs.foldl (fun p c => p.join ⟨c.text⟩) p).components = p.components ++ cs := by
  induction cs generalizing p with
  | nil => simp
  | cons c rest ih =>
    rw [List.foldl_cons, ih fun d hd => h d (List.mem_cons_of_mem _ hd),
      components_join_inner (h c List.mem_cons_self), List.append_assoc]
    rfl

/-- The path of canonical components has these components. -/
theorem components_ofComponents {cs : List Component} (h : Canonical cs) :
    (ofComponents cs).components = cs := by
  cases cs with
  | nil => decide
  | cons c rest =>
    have hc : (join ⟨""⟩ ⟨c.text⟩).components = [c] := by
      rcases h.1 with rfl | rfl | hinner
      · decide
      · decide
      · rw [components_join_inner hinner, components_empty rfl, List.nil_append]
    rw [ofComponents, List.foldl_cons, components_foldl_join h.2, hc, List.singleton_append]

/-- The folder around a path whose last component is a name. -/
theorem parentComponents?_of_components {p : Path} {cs : List Component} {s : String}
    (h : p.components = cs ++ [.name s]) : p.parentComponents? = some cs := by
  simp [parentComponents?, h]

/-- The folder around a path has all its components but the last one. -/
theorem exists_components_of_parentComponents? {p : Path} {outer : List Component}
    (h : p.parentComponents? = some outer) : ∃ c, p.components = outer ++ [c] := by
  unfold parentComponents? at h
  split at h
  · simp at h
  · simp at h
  · rename_i c rest _ hreverse
    obtain rfl := Option.some.inj h
    exact ⟨c, by rw [← List.reverse_reverse p.components, hreverse, List.reverse_cons]⟩

theorem canonical_of_parentComponents? {p : Path} {outer : List Component}
    (h : p.parentComponents? = some outer) : Canonical outer := by
  obtain ⟨c, hc⟩ := exists_components_of_parentComponents? h
  exact Canonical.of_append (hc ▸ canonical_components p)

end PhotoIntake.Path
