import PhotoIntake.Proofs.Json.RoundTrip

/-!
# A text that was cut short is not read

The reader goes from left to right and decides by what it has seen, so a value that it has read
stays the same whatever is put behind the text.  Only a number could go on.  A text of an object
reads as the object and leaves nothing; were a part of it from the start readable, the reader would
have stopped there and left the rest.

* `Stays`: a scanner reads the same with more behind the text.
* `value?_append_of_some` and its companions: the reader of values does, if it leaves something.
* `read?_of_cut`: no proper part from the start of the text of an object is read.
-/

namespace PhotoIntake.Json

/-! ## Scanners -/

/-- What has been read is read with more behind the text, and that is left. -/
def Stays {α : Type} (scan : List Char → Option (α × List Char)) (s : List Char) : Prop :=
  ∀ a rest, scan s = some (a, rest) → ∀ more, scan (s ++ more) = some (a, rest ++ more)

theorem stays_pieces? (s : List Char) : Stays pieces? s := by
  intro ps tail h more
  fun_induction pieces? s generalizing ps tail with
  | case2 rest =>
    obtain ⟨rfl, rfl⟩ : [] = ps ∧ rest = tail := by simpa using h
    rw [List.cons_append, pieces?.eq_def]
    rfl
  | case4 h₁ h₂ h₃ h₄ rest n ps' tail' hrest hunit hne ih =>
    obtain ⟨rfl, rfl⟩ : Piece.ofUnit n :: ps' = ps ∧ tail' = tail := by simpa using h
    simp [pieces?, hunit, ih ps' tail' hrest]
  | case7 e rest he c ps' tail' hrest hescaped hne ih =>
    obtain ⟨rfl, rfl⟩ : Piece.char c :: ps' = ps ∧ tail' = tail := by simpa using h
    rw [List.cons_append, List.cons_append, pieces?_letter he hescaped, ih ps' tail' hrest]
    rfl
  | case10 c rest hquote hbackslash hcontrol ps' tail' hrest ih =>
    obtain ⟨rfl, rfl⟩ : Piece.char c :: ps' = ps ∧ tail' = tail := by simpa using h
    rw [List.cons_append, pieces?_plain hquote hbackslash hcontrol, ih ps' tail' hrest]
    rfl
  | _ => cases h

theorem stays_quoted? (s : List Char) : Stays quoted? s := by
  intro v tail h more
  obtain ⟨⟨ps, rest⟩, hpieces, heq⟩ := Option.map_eq_some_iff.1 h
  obtain ⟨rfl, rfl⟩ := Prod.mk.inj heq
  rw [quoted?, stays_pieces? s ps rest hpieces more, Option.map_some]

/-- What has been read is read with more behind the text, unless nothing is left: then it could go
on. -/
def StaysInside {α : Type} (scan : List Char → Option (α × List Char)) (s : List Char) : Prop :=
  ∀ a rest, scan s = some (a, rest) → rest ≠ [] → ∀ more, scan (s ++ more) = some (a, rest ++ more)

/-- A run that is followed by something is the same with more behind it. -/
theorem run_append {p : Char → Bool} {s : List Char} (h : s.dropWhile p ≠ []) (more : List Char) :
    (s ++ more).takeWhile p = s.takeWhile p ∧
      (s ++ more).dropWhile p = s.dropWhile p ++ more := by
  induction s with
  | nil => exact absurd rfl h
  | cons c s ih =>
    by_cases hc : p c = true
    · rw [List.dropWhile_cons_of_pos hc] at h
      obtain ⟨htake, hdrop⟩ := ih h
      rw [List.cons_append, List.takeWhile_cons_of_pos hc, List.takeWhile_cons_of_pos hc,
        List.dropWhile_cons_of_pos hc, List.dropWhile_cons_of_pos hc, htake, hdrop]
      exact ⟨rfl, rfl⟩
    · rw [List.cons_append, List.takeWhile_cons_of_neg hc, List.takeWhile_cons_of_neg hc,
        List.dropWhile_cons_of_neg hc, List.dropWhile_cons_of_neg hc]
      exact ⟨rfl, rfl⟩

/-- A number of digits, at least one, and what follows them. -/
def digitRun? {α : Type} (f : List Char → α) (s : List Char) : Option (α × List Char) :=
  if (s.takeWhile Char.isDigit).isEmpty then none
  else some (f (s.takeWhile Char.isDigit), s.dropWhile Char.isDigit)

theorem stays_digitRun? {α : Type} (f : List Char → α) (s : List Char) :
    StaysInside (digitRun? f) s := by
  intro a tail h hne more
  unfold digitRun? at h
  split_ifs at h with hempty
  obtain ⟨rfl, rfl⟩ := Prod.mk.inj (Option.some.inj h)
  obtain ⟨htake, hdrop⟩ := run_append hne more
  rw [digitRun?, htake, hdrop, if_neg hempty]

theorem stays_power? (s : List Char) : StaysInside power? s := by
  intro n tail h hne more
  let positive (run : List Char) : Int := Nat.ofDigitChars 10 run 0
  cases s with
  | nil => cases h
  | cons c t =>
    by_cases hminus : c = '-'
    · subst hminus
      exact stays_digitRun? (fun run => -positive run) t n tail h hne more
    · by_cases hplus : c = '+'
      · subst hplus
        exact stays_digitRun? positive t n tail h hne more
      · have hplain (t : List Char) : power? (c :: t) = digitRun? positive (c :: t) := by
          unfold power?
          split
          next negative s heq =>
            split at heq
            · next hcons => exact absurd (List.cons.inj hcons).1 hminus
            · next hcons => exact absurd (List.cons.inj hcons).1 hplus
            · cases heq
              rfl
        rw [hplain] at h
        rw [List.cons_append, hplain]
        exact stays_digitRun? positive (c :: t) n tail h hne more

theorem stays_exponent? (s : List Char) : StaysInside exponent? s := by
  intro e tail h hne more
  unfold exponent? at h
  split at h
  · next rest =>
    obtain ⟨⟨n, rest'⟩, hpower, heq⟩ := Option.map_eq_some_iff.1 h
    obtain ⟨rfl, rfl⟩ := Prod.mk.inj heq
    rw [List.cons_append, exponent?, stays_power? rest n rest' hpower hne more]
    rfl
  · next rest =>
    obtain ⟨⟨n, rest'⟩, hpower, heq⟩ := Option.map_eq_some_iff.1 h
    obtain ⟨rfl, rfl⟩ := Prod.mk.inj heq
    rw [List.cons_append, exponent?, stays_power? rest n rest' hpower hne more]
    rfl
  · next hlower hupper =>
    obtain ⟨rfl, rfl⟩ := Prod.mk.inj (Option.some.inj h)
    obtain ⟨c, t, rfl⟩ := List.exists_cons_of_ne_nil hne
    rw [List.cons_append, exponent?]
    · intro rest heq
      exact hlower t (by rw [(List.cons.inj heq).1])
    · intro rest heq
      exact hupper t (by rw [(List.cons.inj heq).1])

theorem stays_places? (s : List Char) : StaysInside places? s := by
  intro places tail h hne more
  unfold places? at h
  split at h
  · next rest =>
    have hrun : places? ('.' :: (rest ++ more)) = digitRun? id (rest ++ more) := rfl
    rw [List.cons_append, hrun]
    exact stays_digitRun? id rest places tail h hne more
  · next hpoint =>
    obtain ⟨rfl, rfl⟩ := Prod.mk.inj (Option.some.inj h)
    obtain ⟨c, t, rfl⟩ := List.exists_cons_of_ne_nil hne
    rw [List.cons_append, places?]
    intro rest heq
    exact hpoint t (by rw [(List.cons.inj heq).1])

theorem stays_unsigned? (negative : Bool) (s : List Char) :
    StaysInside (unsigned? negative) s := by
  intro v tail h hne more
  unfold unsigned? at h
  simp only at h
  split at h
  · cases h
  · cases h
  · next hempty hzero =>
    obtain ⟨⟨places, afterPlaces⟩, hplaces, h⟩ := Option.bind_eq_some_iff.1 h
    obtain ⟨⟨exponent, afterExponent⟩, hexponent, h⟩ := Option.bind_eq_some_iff.1 h
    obtain ⟨rfl, rfl⟩ := Prod.mk.inj (Option.some.inj h)
    -- Something is left at the end, so something was left at each stage before.
    have hafter : afterPlaces ≠ [] := by
      rintro rfl
      exact hne (Prod.mk.inj (Option.some.inj hexponent)).2.symm
    have hdigits : s.dropWhile Char.isDigit ≠ [] := by
      intro hnil
      rw [hnil] at hplaces
      exact hafter (Prod.mk.inj (Option.some.inj hplaces)).2.symm
    obtain ⟨htake, hdrop⟩ := run_append hdigits more
    have hplaces' := stays_places? _ places afterPlaces hplaces hafter more
    have hexponent' := stays_exponent? _ exponent afterExponent hexponent hne more
    unfold unsigned?
    simp only [htake, hdrop, hplaces', Option.bind_eq_bind, Option.bind_some, hexponent']
    rfl

theorem stays_number? (s : List Char) : StaysInside number? s := by
  intro v tail h hne more
  cases s with
  | nil => cases h
  | cons c t =>
    by_cases hminus : c = '-'
    · subst hminus
      exact stays_unsigned? true t v tail h hne more
    · have hplain (t : List Char) : number? (c :: t) = unsigned? false (c :: t) := by
        rw [number?]
        intro rest heq
        exact absurd (List.cons.inj heq).1 hminus
      rw [hplain] at h
      rw [List.cons_append, hplain]
      exact stays_unsigned? false (c :: t) v tail h hne more

/-! ## Values -/

/-- A character that is no spacing still comes first with more behind the text. -/
theorem skipSpacing_append_of_cons {s t : List Char} {c : Char} (h : skipSpacing s = c :: t)
    (more : List Char) : skipSpacing (s ++ more) = c :: (t ++ more) := by
  have hrun := (run_append (p := isSpacing) (s := s) (by rw [← skipSpacing, h]; simp) more).2
  rw [skipSpacing, hrun, ← skipSpacing, h, List.cons_append]

theorem skipSpacing_skipSpacing (s : List Char) : skipSpacing (skipSpacing s) = skipSpacing s := by
  cases h : skipSpacing s with
  | nil => rfl
  | cons c t =>
    have hc : isSpacing c = false := by
      have hhead := List.head?_dropWhile_not isSpacing s
      rw [← skipSpacing, h] at hhead
      simpa using hhead
    exact skipSpacing_cons hc t

/-- A value depends on what follows the leading spacing alone. -/
theorem value?_skipSpacing (fuel : Nat) (s : List Char) :
    value? fuel (skipSpacing s) = value? fuel s := by
  cases fuel with
  | zero => rfl
  | succ fuel => rw [value?, value?, skipSpacing_skipSpacing]

/-- There is no value in spacing. -/
theorem value?_of_spacing {s : List Char} (h : skipSpacing s = []) (fuel : Nat) :
    value? fuel s = none := by
  rw [← value?_skipSpacing, h]
  cases fuel <;> rfl

/-- A number begins with its sign or with a digit. -/
theorem head_of_number? {s rest : List Char} {v : Json} (h : number? s = some (v, rest)) :
    ∃ c t, s = c :: t ∧ (c = '-' ∨ c.isDigit = true) := by
  cases s with
  | nil => cases h
  | cons c t =>
    refine ⟨c, t, rfl, ?_⟩
    by_contra hc
    rw [not_or, Bool.not_eq_true] at hc
    have hplain : number? (c :: t) = unsigned? false (c :: t) := by
      rw [number?]
      intro rest heq
      exact absurd (List.cons.inj heq).1 hc.1
    rw [hplain, unsigned?, List.takeWhile_cons_of_neg (by simp [hc.2])] at h
    cases h

section

variable {fuel : Nat} {s t rest : List Char}

/-- The items of an array begin with something else than the closing bracket. -/
theorem value?_items (h : skipSpacing s = '[' :: t) {c : Char} {t' : List Char}
    (hfirst : skipSpacing t = c :: t') (hc : c ≠ ']') :
    value? (fuel + 1) s =
      (itemsAfter? fuel t).map fun (items, rest) => (.array items, rest) := by
  rw [value?, h]
  simp only [hfirst]
  split
  · next heq => exact absurd (List.cons.inj heq).1 hc
  · rfl

/-- The members of an object begin with something else than the closing brace. -/
theorem value?_members (h : skipSpacing s = '\x7b' :: t) {c : Char} {t' : List Char}
    (hfirst : skipSpacing t = c :: t') (hc : c ≠ '\x7d') :
    value? (fuel + 1) s =
      (membersAfter? fuel t).map fun (members, rest) => (ofMembers members, rest) := by
  rw [value?, h]
  simp only [hfirst]
  split
  · next heq => exact absurd (List.cons.inj heq).1 hc
  · rfl

theorem head_of_itemsAfter? {vs : List Json} (h : itemsAfter? fuel t = some (vs, rest)) :
    ∃ c t', skipSpacing t = c :: t' := by
  refine List.exists_cons_of_ne_nil fun hnil => ?_
  cases fuel with
  | zero => simp [itemsAfter?] at h
  | succ fuel =>
    rw [itemsAfter?, value?_of_spacing hnil] at h
    cases h

theorem head_of_membersAfter? {ms : List (Option String × Json)}
    (h : membersAfter? fuel t = some (ms, rest)) : ∃ c t', skipSpacing t = c :: t' := by
  refine List.exists_cons_of_ne_nil fun hnil => ?_
  cases fuel with
  | zero => simp [membersAfter?] at h
  | succ fuel =>
    rw [membersAfter?, hnil] at h
    cases h

end

/-- What is read with some fuel, a number at the end of the text apart, is read with as much fuel or
more and with more behind the text. -/
structure ReadersStay (fuel : Nat) : Prop where
  value : ∀ fuel' ≥ fuel, ∀ s v rest, value? fuel s = some (v, rest) →
    rest ≠ [] ∨ number? (skipSpacing s) = none →
    ∀ more, value? fuel' (s ++ more) = some (v, rest ++ more)
  items : ∀ fuel' ≥ fuel, ∀ s vs rest, itemsAfter? fuel s = some (vs, rest) →
    ∀ more, itemsAfter? fuel' (s ++ more) = some (vs, rest ++ more)
  members : ∀ fuel' ≥ fuel, ∀ s ms rest, membersAfter? fuel s = some (ms, rest) →
    ∀ more, membersAfter? fuel' (s ++ more) = some (ms, rest ++ more)

theorem readersStay_zero : ReadersStay 0 :=
  ⟨fun _ _ _ _ _ h => by simp [value?] at h, fun _ _ _ _ _ h => by simp [itemsAfter?] at h,
    fun _ _ _ _ _ h => by simp [membersAfter?] at h⟩

namespace ReadersStay

variable {fuel : Nat}

theorem value_array (h : ReadersStay fuel) {fuel' : Nat} (hfuel : fuel' ≥ fuel)
    {s t : List Char} (heq : skipSpacing s = '[' :: t) {v : Json} {rest : List Char}
    (hread : value? (fuel + 1) s = some (v, rest)) (more : List Char) :
    value? (fuel' + 1) (s ++ more) = some (v, rest ++ more) := by
  rw [value?, heq] at hread
  simp only at hread
  split at hread
  · next t' hclose =>
    obtain ⟨rfl, rfl⟩ := Prod.mk.inj (Option.some.inj hread)
    rw [value?, skipSpacing_append_of_cons heq]
    simp only [skipSpacing_append_of_cons hclose]
  · next hopen =>
    obtain ⟨⟨vs, rest'⟩, hitems, hv⟩ := Option.map_eq_some_iff.1 hread
    obtain ⟨rfl, rfl⟩ := Prod.mk.inj hv
    obtain ⟨c, t', hfirst⟩ := head_of_itemsAfter? hitems
    have hc : c ≠ ']' := fun hc => hopen t' (hc ▸ hfirst)
    rw [value?_items (skipSpacing_append_of_cons heq more)
      (skipSpacing_append_of_cons hfirst more) hc, h.items fuel' hfuel t vs rest' hitems more]
    rfl

theorem value_object (h : ReadersStay fuel) {fuel' : Nat} (hfuel : fuel' ≥ fuel)
    {s t : List Char} (heq : skipSpacing s = '\x7b' :: t) {v : Json} {rest : List Char}
    (hread : value? (fuel + 1) s = some (v, rest)) (more : List Char) :
    value? (fuel' + 1) (s ++ more) = some (v, rest ++ more) := by
  rw [value?, heq] at hread
  simp only at hread
  split at hread
  · next t' hclose =>
    obtain ⟨rfl, rfl⟩ := Prod.mk.inj (Option.some.inj hread)
    rw [value?, skipSpacing_append_of_cons heq]
    simp only [skipSpacing_append_of_cons hclose]
  · next hopen =>
    obtain ⟨⟨ms, rest'⟩, hmembers, hv⟩ := Option.map_eq_some_iff.1 hread
    obtain ⟨rfl, rfl⟩ := Prod.mk.inj hv
    obtain ⟨c, t', hfirst⟩ := head_of_membersAfter? hmembers
    have hc : c ≠ '\x7d' := fun hc => hopen t' (hc ▸ hfirst)
    rw [value?_members (skipSpacing_append_of_cons heq more)
      (skipSpacing_append_of_cons hfirst more) hc,
      h.members fuel' hfuel t ms rest' hmembers more]
    rfl

theorem value_succ (h : ReadersStay fuel) {fuel' : Nat} (hfuel : fuel' ≥ fuel) {s : List Char}
    {v : Json} {rest : List Char} (hread : value? (fuel + 1) s = some (v, rest))
    (hend : rest ≠ [] ∨ number? (skipSpacing s) = none) (more : List Char) :
    value? (fuel' + 1) (s ++ more) = some (v, rest ++ more) := by
  have hwhole := hread
  unfold value? at hread
  split at hread
  · next t heq =>
    rw [value?, skipSpacing_append_of_cons heq]
    exact stays_quoted? t v rest hread more
  · next t heq => exact h.value_array hfuel heq hwhole more
  · next t heq => exact h.value_object hfuel heq hwhole more
  · next t heq =>
    obtain ⟨rfl, rfl⟩ := Prod.mk.inj (Option.some.inj hread)
    rw [value?, skipSpacing_append_of_cons heq]
    rfl
  · next t heq =>
    obtain ⟨rfl, rfl⟩ := Prod.mk.inj (Option.some.inj hread)
    rw [value?, skipSpacing_append_of_cons heq]
    rfl
  · next t heq =>
    obtain ⟨rfl, rfl⟩ := Prod.mk.inj (Option.some.inj hread)
    rw [value?, skipSpacing_append_of_cons heq]
    rfl
  · have hne : rest ≠ [] := hend.resolve_right (by simp [hread])
    obtain ⟨c, t, hs, hc⟩ := head_of_number? hread
    rw [← value?_skipSpacing, skipSpacing_append_of_cons hs, value?_of_number hc]
    rw [hs] at hread
    exact stays_number? (c :: t) v rest hread hne more

theorem items_succ (h : ReadersStay fuel) {fuel' : Nat} (hfuel : fuel' ≥ fuel) {s : List Char}
    {vs : List Json} {rest : List Char} (hread : itemsAfter? (fuel + 1) s = some (vs, rest))
    (more : List Char) : itemsAfter? (fuel' + 1) (s ++ more) = some (vs, rest ++ more) := by
  unfold itemsAfter? at hread
  split at hread
  · cases hread
  · next v tail hvalue =>
    have hne : tail ≠ [] := by
      rintro rfl
      cases hread
    have hvalue' := h.value fuel' hfuel s v tail hvalue (Or.inl hne) more
    split at hread
    · next t heq =>
      obtain ⟨rfl, rfl⟩ := Prod.mk.inj (Option.some.inj hread)
      rw [itemsAfter?, hvalue']
      simp only [skipSpacing_append_of_cons heq]
    · next t heq =>
      obtain ⟨⟨vs', rest'⟩, hitems, hv⟩ := Option.map_eq_some_iff.1 hread
      obtain ⟨rfl, rfl⟩ := Prod.mk.inj hv
      rw [itemsAfter?, hvalue']
      simp only [skipSpacing_append_of_cons heq, h.items fuel' hfuel t vs' rest' hitems more]
      rfl
    · cases hread

theorem members_succ (h : ReadersStay fuel) {fuel' : Nat} (hfuel : fuel' ≥ fuel) {s : List Char}
    {ms : List (Option String × Json)} {rest : List Char}
    (hread : membersAfter? (fuel + 1) s = some (ms, rest)) (more : List Char) :
    membersAfter? (fuel' + 1) (s ++ more) = some (ms, rest ++ more) := by
  unfold membersAfter? at hread
  split at hread
  · next afterQuote hquote =>
    split at hread
    · cases hread
    · next key afterKey hkey =>
      have hkey' := stays_quoted? afterQuote key afterKey hkey more
      split at hread
      · next afterColon hcolon =>
        split at hread
        · cases hread
        · next v tail hvalue =>
          have hne : tail ≠ [] := by
            rintro rfl
            cases hread
          have hvalue' := h.value fuel' hfuel afterColon v tail hvalue (Or.inl hne) more
          rw [membersAfter?, skipSpacing_append_of_cons hquote]
          simp only [hkey', skipSpacing_append_of_cons hcolon, hvalue']
          split at hread
          · next t heq =>
            obtain ⟨rfl, rfl⟩ := Prod.mk.inj (Option.some.inj hread)
            simp only [skipSpacing_append_of_cons heq]
          · next t heq =>
            obtain ⟨⟨ms', rest'⟩, hmembers, hv⟩ := Option.map_eq_some_iff.1 hread
            obtain ⟨rfl, rfl⟩ := Prod.mk.inj hv
            simp only [skipSpacing_append_of_cons heq,
              h.members fuel' hfuel t ms' rest' hmembers more]
            rfl
          · cases hread
      · cases hread
  · cases hread

end ReadersStay

theorem readersStay (fuel : Nat) : ReadersStay fuel := by
  induction fuel with
  | zero => exact readersStay_zero
  | succ fuel ih =>
    refine ⟨fun fuel' hfuel s v rest hread hend more => ?_,
      fun fuel' hfuel s vs rest hread more => ?_, fun fuel' hfuel s ms rest hread more => ?_⟩
    all_goals obtain ⟨fuel', rfl⟩ := Nat.exists_eq_add_one_of_ne_zero (by omega : fuel' ≠ 0)
    · exact ih.value_succ (by omega) hread hend more
    · exact ih.items_succ (by omega) hread more
    · exact ih.members_succ (by omega) hread more

/-! ## Texts of objects -/

/-- No proper part from the start of the text of an object is read. -/
theorem readChars?_of_cut (l : Layout) {members : List (String × Json)}
    (hproper : (Json.object members).isProper = true) {part more : List Char}
    (htext : l.laid 0 (.object members) = part ++ more) (hmore : more ≠ []) :
    readChars? part = none := by
  have hbrace : ∃ t, l.laid 0 (.object members) = '\x7b' :: t := by
    cases members with
    | nil => exact ⟨_, rfl⟩
    | cons member rest => exact ⟨_, rfl⟩
  obtain ⟨t, hbrace⟩ := hbrace
  cases part with
  | nil => rfl
  | cons c part =>
    obtain rfl : '\x7b' = c := by
      rw [hbrace, List.cons_append] at htext
      exact (List.cons.inj htext).1
    have hskip : skipSpacing ('\x7b' :: part) = '\x7b' :: part := skipSpacing_cons (by decide) part
    have hnumber : number? (skipSpacing ('\x7b' :: part)) = none := by
      rw [hskip]
      rfl
    unfold readChars?
    cases hread : value? (2 * ('\x7b' :: part).length + 2) ('\x7b' :: part) with
    | none => rfl
    | some result =>
      -- The part would be read the same in front of the rest, but the whole text leaves nothing.
      obtain ⟨v, rest⟩ := result
      let fuel := 2 * (l.laid 0 (.object members)).length + 2
      have hlength : 2 * ('\x7b' :: part).length + 2 ≤ fuel := by
        simp only [fuel, htext, List.length_append]
        omega
      have hpart := (readersStay _).value fuel hlength _ v rest hread (Or.inr hnumber) more
      have hwhole := l.value?_laid 0 (.object members) hproper (s := []) (by rintro c ⟨⟩) fuel
        (by omega)
      rw [List.append_nil, htext, hpart] at hwhole
      have hnil : rest ++ more = [] := (Prod.mk.inj (Option.some.inj hwhole)).2
      exact absurd (List.append_eq_nil_iff.1 hnil).2 hmore

/-- So it is with the indented text. -/
theorem read?_of_cut {members : List (String × Json)}
    (hproper : (Json.object members).isProper = true) {part : String}
    (hpart : part.toList <+: (writeIndented (.object members)).toList)
    (hcut : part ≠ writeIndented (.object members)) : read? part = none := by
  obtain ⟨more, htext⟩ := hpart
  have hmore : more ≠ [] := by
    rintro rfl
    rw [List.append_nil] at htext
    exact hcut (String.toList_inj.1 htext)
  rw [writeIndented, String.toList_ofList, ← Layout.laid_indented] at htext
  exact readChars?_of_cut .indented hproper htext.symm hmore

end PhotoIntake.Json
