import PhotoIntake.Proofs.Naming.Shelves

/-!
# Edits, made or refused

An edit makes its checks and its changes one after the other.  As steps on a collection it could
fail with a change already made.  It never does: every check stands before the first change.

* `CollectionAction`: a collection as the state of steps that may fail, and how to run them.
* `Edit.Refused`: the errors of an edit, in the order of its checks.
* `Edit.Amends`: all that differs between the collections before and after an edit.
* `Shelf.get?_insert`, `erase_insert` and their companions: what a change of a shelf does to the
  template of a key, and to the others.
* `refused_or_isMade`: there is no third way for an edit to end.
* `runOn_perform`: the steps of an edit come to what the edit in one piece comes to.
* `edits_atomic`: an edit is refused for one of its errors and changes nothing, or it amends.
-/

namespace PhotoIntake.Naming

/-! ## Steps on a collection -/

/-- Steps that may change a collection and may fail; what was changed before a failure stays. -/
abbrev CollectionAction (α : Type) := ExceptT IntakeError (StateM Collection) α

namespace CollectionAction

variable {α β : Type}

/-- The result of an action on a collection and the collection after it. -/
def runOn (action : CollectionAction α) (c : Collection) : Except IntakeError α × Collection :=
  StateT.run (ExceptT.run action) c

@[simp] theorem runOn_get (c : Collection) :
    (get : CollectionAction Collection).runOn c = (.ok c, c) := rfl

theorem runOn_bind (action : CollectionAction α) (f : α → CollectionAction β) (c : Collection) :
    (action >>= f).runOn c =
      match action.runOn c with
      | (.ok a, c') => (f a).runOn c'
      | (.error e, c') => (.error e, c') := by
  simp only [runOn, ExceptT.run, bind, ExceptT.bind, ExceptT.mk, StateT.run, StateT.bind,
    ExceptT.bindCont]
  rcases action c with ⟨r | r, c'⟩ <;> rfl

/-- A check that fails with an error of its own and changes nothing. -/
def check : Except IntakeError α → CollectionAction α
  | .ok a => pure a
  | .error e => throw e

@[simp] theorem runOn_check (r : Except IntakeError α) (c : Collection) :
    (check r).runOn c = (r, c) := by
  cases r <;> rfl

/-- Change the shelf of a purpose. -/
def changeShelf (purpose : Purpose) (f : Shelf → Shelf) : CollectionAction Unit :=
  modify fun c => c.withShelf purpose (f (c.shelf purpose))

@[simp] theorem runOn_changeShelf (purpose : Purpose) (f : Shelf → Shelf) (c : Collection) :
    (changeShelf purpose f).runOn c = (.ok (), c.withShelf purpose (f (c.shelf purpose))) := rfl

/-! ### The steps of each edit -/

/-- Fails for a builtin key. -/
def ensureNotBuiltin (purpose : Purpose) (key : String) : CollectionAction Unit :=
  if isBuiltinKey purpose key then throw (.builtinTemplate key) else pure ()

/-- Fails for a key that is not one of the user's templates. -/
def ensureOwn (purpose : Purpose) (key : String) : CollectionAction Unit := do
  ensureNotBuiltin purpose key
  let c ← get
  if ((c.shelf purpose).get? key).isNone then throw (.unknownTemplate key)

/-- Add a template, or replace the one of its key. -/
def add (purpose : Purpose) (t : Template) : CollectionAction Unit := do
  ensureNotBuiltin purpose t.key
  check (t.validate purpose)
  changeShelf purpose fun shelf => shelf.insert { t with isBuiltin := false }

/-- Give a template another name. -/
def rename (purpose : Purpose) (key name : String) : CollectionAction Unit := do
  ensureOwn purpose key
  changeShelf purpose fun shelf => shelf.change key fun t => { t with name }

/-- Give a template other tokens and another case, on a copy that is put back once it is valid. -/
def redefine (purpose : Purpose) (key : String) (tokens : List Token) (extension : Case) :
    CollectionAction Unit := do
  ensureOwn purpose key
  let c ← get
  let t ← check (c.require purpose key)
  let t := { t with tokens, extension }
  check (t.validate purpose)
  changeShelf purpose fun shelf => shelf.insert t

/-- Take a template off its shelf and hand it out. -/
def delete (purpose : Purpose) (key : String) : CollectionAction Template := do
  ensureOwn purpose key
  let c ← get
  let removed := (c.shelf purpose).get? key
  changeShelf purpose fun shelf => shelf.erase key
  match removed with
  | some t => pure t
  | none => throw (.unknownTemplate key)

end CollectionAction

/-! ## What an edit is about -/

namespace Edit

/-- The key whose template an edit changes. -/
def key : Edit → String
  | add _ t => t.key
  | redefine _ key _ _ | rename _ key _ | delete _ key => key

/-- The template of the user that an edit is about, before it. -/
def current? (e : Edit) (c : Collection) : Option Template :=
  (c.shelf e.concerns).get? e.key

/-- Make an edit step by step.  A deletion hands out the template. -/
def perform : Edit → CollectionAction (Option Template)
  | add purpose t => do
    CollectionAction.add purpose t
    return none
  | redefine purpose key tokens extension => do
    CollectionAction.redefine purpose key tokens extension
    return none
  | rename purpose key name => do
    CollectionAction.rename purpose key name
    return none
  | delete purpose key => do
    let t ← CollectionAction.delete purpose key
    return some t

end Edit

/-! ## Refusals -/

/-- The token is the first one of the list that templates of the purpose may not use. -/
def FirstRefused (purpose : Purpose) (tokens : List Token) (token : Token) : Prop :=
  ∃ before after, tokens = before ++ token :: after ∧
    (∀ earlier ∈ before, earlier.isAllowedIn purpose = true) ∧ token.isAllowedIn purpose = false

variable {purpose : Purpose} {shelf : Shelf} {t : Template} {key : String} {c : Collection}

theorem firstRefused_iff {tokens : List Token} {token : Token} :
    FirstRefused purpose tokens token ↔
      tokens.find? (fun token => !token.isAllowedIn purpose) = some token := by
  simp only [FirstRefused, List.find?_eq_some_iff_append, Bool.not_eq_true', Bool.not_not]
  constructor
  · rintro ⟨before, after, htokens, hbefore, htoken⟩
    exact ⟨htoken, before, after, htokens, hbefore⟩
  · rintro ⟨htoken, before, after, htokens, hbefore⟩
    exact ⟨before, after, htokens, hbefore, htoken⟩

/-- The check of a template fails exactly if there is a first token to refuse, and names it. -/
theorem Template.validate_eq_error_iff {err : IntakeError} :
    t.validate purpose = .error err ↔
      ∃ token, FirstRefused purpose t.tokens token ∧ err = .invalidTemplate t.name token.name := by
  simp only [firstRefused_iff, validate]
  cases t.tokens.find? fun token => !token.isAllowedIn purpose with
  | none => simp
  | some token => simp [eq_comm]

namespace Edit

/-- Why an edit of a collection is refused, each cause where the causes before it are absent. -/
inductive Refused (c : Collection) : Edit → IntakeError → Prop where
  | builtin (e : Edit) (hkey : isBuiltinKey e.concerns e.key = true) :
    Refused c e (.builtinTemplate e.key)
  | unknown (e : Edit) (hedit : ∀ purpose t, e ≠ add purpose t)
    (hkey : isBuiltinKey e.concerns e.key = false) (hcurrent : e.current? c = none) :
    Refused c e (.unknownTemplate e.key)
  | tokenAdded (purpose : Purpose) (t : Template) (token : Token)
    (hkey : isBuiltinKey purpose t.key = false) (hfirst : FirstRefused purpose t.tokens token) :
    Refused c (add purpose t) (.invalidTemplate t.name token.name)
  | tokenGiven (purpose : Purpose) (key : String) (tokens : List Token) (extension : Case)
    (t : Template) (token : Token) (hkey : isBuiltinKey purpose key = false)
    (hcurrent : (c.shelf purpose).get? key = some t) (hfirst : FirstRefused purpose tokens token) :
    Refused c (redefine purpose key tokens extension) (.invalidTemplate t.name token.name)

end Edit

/-! ## Amendments -/

namespace Edit

/-- How an edit turns the template of its key into another one, and what it hands out. -/
inductive Turns : Edit → Option Template → Option Template → Option Template → Prop where
  | add (purpose : Purpose) (t : Template) (current : Option Template) :
    Turns (.add purpose t) current (some { t with isBuiltin := false }) none
  | redefine (purpose : Purpose) (key : String) (tokens : List Token) (extension : Case)
    (t : Template) :
    Turns (.redefine purpose key tokens extension) (some t) (some { t with tokens, extension }) none
  | rename (purpose : Purpose) (key name : String) (t : Template) :
    Turns (.rename purpose key name) (some t) (some { t with name }) none
  | delete (purpose : Purpose) (key : String) (t : Template) :
    Turns (.delete purpose key) (some t) none (some t)

/-- The second collection is the first one with the template of the key turned, and nothing else. -/
structure Amends (e : Edit) (c : Collection) (given : Option Template) (c' : Collection) :
    Prop where
  turned : e.Turns (e.current? c) (e.current? c') given
  rest : (c'.shelf e.concerns).erase e.key = (c.shelf e.concerns).erase e.key
  others : ∀ purpose, purpose ≠ e.concerns → c'.shelf purpose = c.shelf purpose
  path : c'.path = c.path
  usable : c.Usable → c'.Usable

end Edit

namespace Shelf

/-! ### The template of a key -/

theorem get?_insert (shelf : Shelf) (t : Template) : (shelf.insert t).get? t.key = some t := by
  unfold get?
  induction shelf with
  | nil => simp [insert]
  | cons first rest ih =>
    unfold insert
    split_ifs with hbefore hsame
    · simp
    · simp
    · rw [List.find?_cons_of_neg (by simpa using Ne.symm hsame), ih]

theorem get?_change (shelf : Shelf) (key : String) {f : Template → Template}
    (hkey : ∀ t, (f t).key = t.key) :
    (shelf.change key f).get? key = (shelf.get? key).map f := by
  unfold get? change
  induction shelf with
  | nil => rfl
  | cons first rest ih =>
    by_cases hsame : first.key = key
    · simp [hsame, hkey]
    · simpa [hsame] using ih

theorem get?_erase (shelf : Shelf) (key : String) : (shelf.erase key).get? key = none := by
  simp [get?, erase, List.find?_eq_none]

theorem key_of_get? (h : shelf.get? key = some t) : t.key = key := by
  simpa using List.find?_some h

/-! ### The templates of other keys -/

theorem erase_insert (shelf : Shelf) (t : Template) :
    (shelf.insert t).erase t.key = shelf.erase t.key := by
  unfold erase
  induction shelf with
  | nil => simp [insert]
  | cons first rest ih =>
    unfold insert
    split_ifs with hbefore hsame
    · simp
    · simp [hsame]
    · rw [List.filter_cons, List.filter_cons, ih]

theorem erase_change (shelf : Shelf) (key : String) {f : Template → Template}
    (hkey : ∀ t, (f t).key = t.key) : (shelf.change key f).erase key = shelf.erase key := by
  unfold erase change
  induction shelf with
  | nil => rfl
  | cons first rest ih =>
    by_cases hsame : first.key = key
    · simpa [hsame, hkey] using ih
    · simpa [hsame] using ih

theorem erase_erase (shelf : Shelf) (key : String) :
    (shelf.erase key).erase key = shelf.erase key := by
  simp [erase, List.filter_filter]

end Shelf

/-! ## The template that has to be there -/

namespace Collection

theorem requireOwn_of_builtin (hkey : isBuiltinKey purpose key = true) :
    c.requireOwn purpose key = .error (.builtinTemplate key) := by
  rw [requireOwn, if_pos hkey]

theorem requireOwn_of_unknown (hkey : isBuiltinKey purpose key = false)
    (hget : (c.shelf purpose).get? key = none) :
    c.requireOwn purpose key = .error (.unknownTemplate key) := by
  rw [requireOwn, if_neg (by simp [hkey]), hget]

theorem requireOwn_eq_ok_iff :
    c.requireOwn purpose key = .ok t ↔
      isBuiltinKey purpose key = false ∧ (c.shelf purpose).get? key = some t := by
  unfold requireOwn
  cases isBuiltinKey purpose key <;> cases (c.shelf purpose).get? key <;> simp

/-- A template of the user is also found among all templates. -/
theorem require_of_requireOwn (h : c.requireOwn purpose key = .ok t) :
    c.require purpose key = .ok t := by
  obtain ⟨hkey, hget⟩ := requireOwn_eq_ok_iff.1 h
  have hnone : (builtins purpose).find? (·.key == key) = none := by
    simpa [isBuiltinKey] using hkey
  rw [require, get?, hnone, Option.none_or, hget]

end Collection

/-! ## What an edit comes to -/

namespace Edit

/-- What an edit hands out and the collection after it, or why it is refused. -/
def outcome (c : Collection) : Edit → Except IntakeError (Option Template × Collection)
  | add purpose t => (c.add purpose t).map (none, ·)
  | redefine purpose key tokens extension => (c.redefine purpose key tokens extension).map (none, ·)
  | rename purpose key name => (c.rename purpose key name).map (none, ·)
  | delete purpose key => (c.delete purpose key).map fun (t, c') => (some t, c')

theorem apply_eq_outcome (c : Collection) (e : Edit) : e.apply c = (e.outcome c).map (·.2) := by
  cases e with
  | add purpose t => rw [apply, outcome]; cases c.add purpose t <;> rfl
  | redefine purpose key tokens extension =>
    rw [apply, outcome]; cases c.redefine purpose key tokens extension <;> rfl
  | rename purpose key name => rw [apply, outcome]; cases c.rename purpose key name <;> rfl
  | delete purpose key => rw [apply, outcome]; cases c.delete purpose key <;> rfl

theorem outcome_add (hkey : isBuiltinKey purpose t.key = false) :
    (add purpose t).outcome c = (t.validate purpose).map fun _ =>
      (none, c.withShelf purpose ((c.shelf purpose).insert { t with isBuiltin := false })) := by
  simp only [outcome, Collection.add, hkey]
  cases t.validate purpose <;> rfl

theorem outcome_redefine {tokens : List Token} {extension : Case}
    (howned : c.requireOwn purpose key = .ok t) :
    (redefine purpose key tokens extension).outcome c =
      (Template.validate { t with tokens, extension } purpose).map fun _ =>
        (none, c.withShelf purpose ((c.shelf purpose).insert { t with tokens, extension })) := by
  simp only [outcome, Collection.redefine, howned, bind, Except.bind]
  cases Template.validate { t with tokens, extension } purpose <;> rfl

theorem outcome_rename {name : String} (howned : c.requireOwn purpose key = .ok t) :
    (rename purpose key name).outcome c =
      .ok (none, c.withShelf purpose ((c.shelf purpose).change key fun t => { t with name })) := by
  simp only [outcome, Collection.rename, howned]
  rfl

theorem outcome_delete (howned : c.requireOwn purpose key = .ok t) :
    (delete purpose key).outcome c =
      .ok (some t, c.withShelf purpose ((c.shelf purpose).erase key)) := by
  simp only [outcome, Collection.delete, howned]
  rfl

/-- An edit of a key that the user has no template of fails as the search for the template. -/
theorem outcome_of_requireOwn {e : Edit} {err : IntakeError}
    (hedit : ∀ purpose t, e ≠ add purpose t)
    (h : c.requireOwn e.concerns e.key = .error err) : e.outcome c = .error err := by
  cases e with
  | add purpose t => exact absurd rfl (hedit purpose t)
  | redefine purpose key tokens extension =>
    simp only [concerns, Edit.key] at h
    simp only [outcome, Collection.redefine, h]
    rfl
  | rename purpose key name =>
    simp only [concerns, Edit.key] at h
    simp only [outcome, Collection.rename, h]
    rfl
  | delete purpose key =>
    simp only [concerns, Edit.key] at h
    simp only [outcome, Collection.delete, h]
    rfl

/-! ### Refused -/

theorem outcome_of_builtin {e : Edit} (hkey : isBuiltinKey e.concerns e.key = true) :
    e.outcome c = .error (.builtinTemplate e.key) := by
  by_cases hedit : ∃ purpose t, e = add purpose t
  · obtain ⟨purpose, t, rfl⟩ := hedit
    simp only [concerns, Edit.key] at hkey
    simp only [outcome, Collection.add, hkey]
    rfl
  · refine outcome_of_requireOwn (fun purpose t heq => hedit ⟨purpose, t, heq⟩) ?_
    exact Collection.requireOwn_of_builtin hkey

/-- Each cause of a refusal is the error that the edit comes to. -/
theorem Refused.outcome {e : Edit} {err : IntakeError} (h : e.Refused c err) :
    e.outcome c = .error err := by
  cases h with
  | builtin e hkey => exact outcome_of_builtin hkey
  | unknown e hedit hkey hcurrent =>
    exact outcome_of_requireOwn hedit (Collection.requireOwn_of_unknown hkey hcurrent)
  | tokenAdded purpose t token hkey hfirst =>
    rw [outcome_add hkey, Template.validate_eq_error_iff.2 ⟨token, hfirst, rfl⟩]
    rfl
  | tokenGiven purpose key tokens extension t token hkey hcurrent hfirst =>
    rw [outcome_redefine (Collection.requireOwn_eq_ok_iff.2 ⟨hkey, hcurrent⟩),
      Template.validate_eq_error_iff.2 ⟨token, hfirst, rfl⟩]
    rfl

/-! ### Made -/

/-- An edit that turns the template of its key and leaves the shelf otherwise as it is amends. -/
theorem amends_withShelf {e : Edit} {current after given : Option Template}
    (houtcome : e.outcome c = .ok (given, c.withShelf e.concerns shelf))
    (hturns : e.Turns current after given) (hcurrent : (c.shelf e.concerns).get? e.key = current)
    (hafter : shelf.get? e.key = after)
    (hrest : shelf.erase e.key = (c.shelf e.concerns).erase e.key) :
    e.Amends c given (c.withShelf e.concerns shelf) where
  turned := by rwa [current?, current?, Collection.shelf_withShelf, hcurrent, hafter]
  rest := by rwa [Collection.shelf_withShelf]
  others purpose hother := Collection.shelf_withShelf_of_ne hother c shelf
  path := Collection.path_withShelf c e.concerns shelf
  usable := Edit.usable (by rw [apply_eq_outcome, houtcome]; rfl)

/-- The edit comes to an amended collection. -/
def IsMade (c : Collection) (e : Edit) : Prop :=
  ∃ given c', e.outcome c = .ok (given, c') ∧ e.Amends c given c'

theorem isMade_add (hkey : isBuiltinKey purpose t.key = false)
    (hvalid : t.validate purpose = .ok ()) : IsMade c (add purpose t) := by
  have houtcome : (add purpose t).outcome c = .ok (none,
      c.withShelf purpose ((c.shelf purpose).insert { t with isBuiltin := false })) := by
    rw [outcome_add hkey, hvalid]
    rfl
  exact ⟨_, _, houtcome, amends_withShelf houtcome (.add purpose t _) rfl
    (Shelf.get?_insert _ { t with isBuiltin := false }) (Shelf.erase_insert _ _)⟩

theorem isMade_redefine {tokens : List Token} {extension : Case}
    (hkey : isBuiltinKey purpose key = false) (hcurrent : (c.shelf purpose).get? key = some t)
    (hvalid : Template.validate { t with tokens, extension } purpose = .ok ()) :
    IsMade c (redefine purpose key tokens extension) := by
  obtain rfl := Shelf.key_of_get? hcurrent
  have houtcome : (redefine purpose t.key tokens extension).outcome c = .ok (none,
      c.withShelf purpose ((c.shelf purpose).insert { t with tokens, extension })) := by
    rw [outcome_redefine (Collection.requireOwn_eq_ok_iff.2 ⟨hkey, hcurrent⟩), hvalid]
    rfl
  exact ⟨_, _, houtcome, amends_withShelf houtcome (.redefine purpose _ tokens extension t) hcurrent
    (Shelf.get?_insert _ { t with tokens, extension }) (Shelf.erase_insert _ _)⟩

theorem isMade_rename {name : String} (hkey : isBuiltinKey purpose key = false)
    (hcurrent : (c.shelf purpose).get? key = some t) : IsMade c (rename purpose key name) := by
  have howned := Collection.requireOwn_eq_ok_iff.2 ⟨hkey, hcurrent⟩
  have hafter : ((c.shelf purpose).change key fun t => { t with name }).get? key =
      some { t with name } := by
    rw [Shelf.get?_change (c.shelf purpose) key (f := fun t => { t with name }) fun _ => rfl,
      hcurrent]
    rfl
  exact ⟨_, _, outcome_rename howned, amends_withShelf (outcome_rename howned)
    (.rename purpose key name t) hcurrent hafter (Shelf.erase_change _ _ fun _ => rfl)⟩

theorem isMade_delete (hkey : isBuiltinKey purpose key = false)
    (hcurrent : (c.shelf purpose).get? key = some t) : IsMade c (delete purpose key) := by
  have howned := Collection.requireOwn_eq_ok_iff.2 ⟨hkey, hcurrent⟩
  exact ⟨_, _, outcome_delete howned, amends_withShelf (outcome_delete howned)
    (.delete purpose key t) hcurrent (Shelf.get?_erase _ key) (Shelf.erase_erase _ key)⟩

/-- An edit is refused, or it is made. -/
theorem refused_or_isMade (c : Collection) (e : Edit) : (∃ err, e.Refused c err) ∨ IsMade c e := by
  by_cases hkey : isBuiltinKey e.concerns e.key = true
  · exact Or.inl ⟨_, .builtin e hkey⟩
  rw [Bool.not_eq_true] at hkey
  -- Only an addition can do without a template of its key.
  by_cases hedit : ∃ purpose t, e = add purpose t
  · obtain ⟨purpose, t, rfl⟩ := hedit
    cases hvalid : t.validate purpose with
    | ok => exact Or.inr (isMade_add hkey hvalid)
    | error err =>
      obtain ⟨token, hfirst, rfl⟩ := Template.validate_eq_error_iff.1 hvalid
      exact Or.inl ⟨_, .tokenAdded purpose t token hkey hfirst⟩
  cases hcurrent : e.current? c with
  | none =>
    have hother (purpose : Purpose) (t : Template) : e ≠ add purpose t :=
      fun heq => hedit ⟨purpose, t, heq⟩
    exact Or.inl ⟨_, .unknown e hother hkey hcurrent⟩
  | some t =>
    cases e with
    | add purpose t => exact absurd ⟨purpose, t, rfl⟩ hedit
    | rename purpose key name => exact Or.inr (isMade_rename hkey hcurrent)
    | delete purpose key => exact Or.inr (isMade_delete hkey hcurrent)
    | redefine purpose key tokens extension =>
      cases hvalid : Template.validate { t with tokens, extension } purpose with
      | ok => exact Or.inr (isMade_redefine hkey hcurrent hvalid)
      | error err =>
        obtain ⟨token, hfirst, rfl⟩ := Template.validate_eq_error_iff.1 hvalid
        exact Or.inl ⟨_, .tokenGiven purpose key tokens extension t token hkey hcurrent hfirst⟩

end Edit

/-! ## Step by step -/

namespace CollectionAction

theorem runOn_ensureNotBuiltin (purpose : Purpose) (key : String) (c : Collection) :
    (ensureNotBuiltin purpose key).runOn c =
      (if isBuiltinKey purpose key then .error (.builtinTemplate key) else .ok (), c) := by
  unfold ensureNotBuiltin
  split <;> rfl

/-- The checks of a key find out whether the user has a template of it. -/
theorem runOn_ensureOwn (purpose : Purpose) (key : String) (c : Collection) :
    (ensureOwn purpose key).runOn c = ((c.requireOwn purpose key).map fun _ => (), c) := by
  rw [ensureOwn, runOn_bind, runOn_ensureNotBuiltin, Collection.requireOwn]
  split_ifs with hkey
  · rfl
  · simp only [runOn_bind, runOn_get]
    cases (c.shelf purpose).get? key with
    | none => rfl
    | some t => rfl

end CollectionAction

namespace Edit

open CollectionAction

/-- The steps of an edit come to what the edit comes to, and leave nothing behind if they fail. -/
theorem runOn_perform (e : Edit) (c : Collection) :
    e.perform.runOn c =
      match e.outcome c with
      | .ok (given, c') => (.ok given, c')
      | .error err => (.error err, c) := by
  cases e with
  | add purpose t =>
    simp only [perform, CollectionAction.add, runOn_bind, runOn_ensureNotBuiltin, runOn_check,
      outcome, Collection.add]
    cases isBuiltinKey purpose t.key <;> cases t.validate purpose <;> rfl
  | redefine purpose key tokens extension =>
    simp only [perform, CollectionAction.redefine, runOn_bind, runOn_ensureOwn, runOn_get,
      runOn_check, outcome, Collection.redefine]
    cases howned : c.requireOwn purpose key with
    | error err => rfl
    | ok t =>
      -- The template is looked up again among all templates, where a builtin one comes first.
      simp only [Except.map, Collection.require_of_requireOwn howned, bind, Except.bind]
      cases Template.validate { t with tokens, extension } purpose <;> rfl
  | rename purpose key name =>
    simp only [perform, CollectionAction.rename, runOn_bind, runOn_ensureOwn, outcome,
      Collection.rename]
    cases c.requireOwn purpose key <;> rfl
  | delete purpose key =>
    simp only [perform, CollectionAction.delete, runOn_bind, runOn_ensureOwn, runOn_get,
      runOn_changeShelf, outcome, Collection.delete]
    cases howned : c.requireOwn purpose key with
    | error err => rfl
    | ok t =>
      -- The last step cannot fail after the shelf has changed: the template was there before.
      obtain ⟨-, hget⟩ := Collection.requireOwn_eq_ok_iff.1 howned
      simp only [Except.map, hget]
      rfl

/-- An edit, made step by step, fails with an error if and only if it is refused for it, and then
both shelves are as they were.  An edit that does not fail amends the collection: it turns the
template of its key, a new name alone by `rename`, new tokens and case alone by `redefine`, and
leaves everything else on both shelves.  The steps come to what the edit in one piece comes to. -/
theorem edits_atomic (c : Collection) (e : Edit) :
    let r := e.perform.runOn c
    (∀ err, r.1 = .error err ↔ e.Refused c err) ∧
    (∀ err, r.1 = .error err → r.2 = c) ∧
    (∀ given, r.1 = .ok given → e.Amends c given r.2) ∧
    e.outcome c = r.1.map (·, r.2) := by
  have hrun := runOn_perform e c
  dsimp only
  rcases refused_or_isMade c e with ⟨err, hrefused⟩ | ⟨given, c', houtcome, hamends⟩
  · have hfailed := hrefused.outcome
    rw [hfailed] at hrun
    rw [hrun, hfailed]
    refine ⟨fun err' => ⟨fun h => ?_, fun h => ?_⟩, fun _ _ => rfl, fun given h => ?_, rfl⟩
    · obtain rfl := Except.error.inj h
      exact hrefused
    · obtain rfl := Except.error.inj (hfailed.symm.trans h.outcome)
      rfl
    · cases h
  · rw [houtcome] at hrun
    rw [hrun, houtcome]
    refine ⟨fun err => ⟨fun h => ?_, fun h => ?_⟩, fun err h => ?_, fun given' h => ?_, rfl⟩
    · cases h
    · cases houtcome.symm.trans h.outcome
    · cases h
    · obtain rfl := Except.ok.inj h
      exact hamends

end Edit

end PhotoIntake.Naming
