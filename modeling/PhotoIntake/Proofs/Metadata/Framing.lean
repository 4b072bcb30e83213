import PhotoIntake.Proofs.Metadata.Recovery
import PhotoIntake.Proofs.Path.Components

/-!
# What a call asks of the program

A call sends one line for each of its arguments and a line that ends the request.  Nothing in the
arguments is escaped: one with line breaks takes up several lines, and one that is the ending line
ends the request before its path.  So the program reads the one request that was meant if and only
if no argument does either.

* `requestsIn`: the requests that some lines hold.
* `Program.listing`: the program with a list of the requests that it has read, and no other change.
* `foldl_listing`: reading lines puts the requests that they hold on the list, up to the first one
  at which the program ends.
* `call_asks`: the lines and the requests of one call.
-/

namespace PhotoIntake.Metadata

/-- The program with a list of the requests that it has read. -/
def Program.listing {ω : Type} (p : Program ω) : Program (ω × List (List String)) where
  launch w := (p.launch w.1).map fun world => (world, w.2)
  reply w request :=
    let (reply, world) := p.reply w.1 request
    (reply, world, w.2 ++ [request])

/-- The program ends at no request. -/
def Program.GoesOn {ω : Type} (p : Program ω) : Prop :=
  ∀ world request, (p.reply world request).1.exits = false

theorem Query.arguments_ne_nil (q : Query) : q.arguments ≠ [] :=
  List.append_ne_nil_of_right_ne_nil _ (List.cons_ne_nil _ _)

/-- A request is plain if no argument of it breaks a line or ends it. -/
theorem Query.isPlain_iff {q : Query} :
    q.IsPlain ↔ ∀ s ∈ q.arguments, '\n' ∉ s.toList ∧ s ≠ Client.executeLine := by
  refine ⟨fun h s hs => ⟨h.argument_line hs, h.argument_ne hs⟩, fun h => ?_⟩
  have hpath := h q.path.text (by simp [arguments, Client.arguments])
  have htag (tag : String) (hmem : tag ∈ q.tags) := h ("-" ++ tag) <| by
    simp [arguments, Client.arguments, hmem]
  refine ⟨hpath.1, hpath.2, fun tag hmem hbreak => ?_, fun hmem => (htag _ hmem).2 rfl⟩
  exact (htag tag hmem).1 (by simp [hbreak])

namespace Client

variable {ω : Type} {p : Program ω}

/-! ## Lines -/

/-- A line has no line break. -/
theorem lineBreak_not_mem_of_mem_linesOf {s text : String} (h : s ∈ linesOf text) :
    '\n' ∉ s.toList := by
  obtain ⟨run, hrun, rfl⟩ := List.mem_map.1 h
  rw [String.toList_ofList]
  exact Text.not_mem_of_mem_splitOn (List.dropLast_subset _ hrun)

/-- The arguments are sent as one line each if and only if none of them breaks a line. -/
theorem linesOf_eq_iff {arguments : List String} (hne : arguments ≠ []) :
    linesOf (requestText arguments) = arguments ++ [executeLine] ↔
      ∀ s ∈ arguments, '\n' ∉ s.toList := by
  refine ⟨fun h s hs => ?_, linesOf_requestText hne⟩
  have hline : s ∈ linesOf (requestText arguments) := h ▸ List.mem_append_left _ hs
  exact lineBreak_not_mem_of_mem_linesOf hline

/-! ## Requests -/

/-- The requests that some lines hold, with the lines of the first one that were read before.  What
stands behind the last ending line is no request yet. -/
def requestsIn (request : List String) : List String → List (List String)
  | [] => []
  | line :: rest =>
    if line = executeLine then request :: requestsIn [] rest
    else requestsIn (request ++ [line]) rest

/-- A request has no ending line. -/
theorem mem_of_mem_requestsIn {request lines r : List String} {s : String}
    (hr : r ∈ requestsIn request lines) (hs : s ∈ r) :
    s ∈ request ∨ s ∈ lines ∧ s ≠ executeLine := by
  induction lines generalizing request with
  | nil => simp [requestsIn] at hr
  | cons line rest ih =>
    rw [requestsIn] at hr
    split at hr
    · rcases List.mem_cons.1 hr with rfl | hr
      · exact Or.inl hs
      · rcases ih hr with hs | ⟨hs, hne⟩
        · simp at hs
        · exact Or.inr ⟨List.mem_cons_of_mem _ hs, hne⟩
    · rename_i hline
      rcases ih hr with hs | ⟨hs, hne⟩
      · rcases List.mem_append.1 hs with hs | hs
        · exact Or.inl hs
        · obtain rfl := List.mem_singleton.1 hs
          exact Or.inr ⟨List.mem_cons_self, hline⟩
      · exact Or.inr ⟨List.mem_cons_of_mem _ hs, hne⟩

theorem requestsIn_concat_ne_nil (request lines : List String) :
    requestsIn request (lines ++ [executeLine]) ≠ [] := by
  induction lines generalizing request with
  | nil => simp [requestsIn]
  | cons line rest ih =>
    rw [List.cons_append, requestsIn]
    split
    · exact List.cons_ne_nil _ _
    · exact ih _

/-- Lines without an ending one are one request when it comes. -/
theorem requestsIn_concat_of_ne {lines : List String} (h : ∀ s ∈ lines, s ≠ executeLine)
    (request : List String) :
    requestsIn request (lines ++ [executeLine]) = [request ++ lines] := by
  induction lines generalizing request with
  | nil => simp [requestsIn]
  | cons line rest ih =>
    rw [List.cons_append, requestsIn, if_neg (h line List.mem_cons_self),
      ih fun s hs => h s (List.mem_cons_of_mem line hs), List.append_assoc, List.singleton_append]

/-! ## Reading -/

theorem foldl_readLine_of_ended {c : Connection} (h : c.ended = true) (world : ω)
    (lines : List String) : lines.foldl (readLine p) (c, world) = (c, world) := by
  induction lines with
  | nil => rfl
  | cons line rest ih =>
    have hline : readLine p (c, world) line = (c, world) := by
      rw [readLine]
      exact if_pos h
    rw [List.foldl_cons, hline, ih]

/-- Reading lines puts requests on the list and does nothing else that it does not do without one.
They are the first of those that the lines hold, at least one if there is one, and all of them if
the program goes on. -/
theorem foldl_listing (lines request : List String) (unread : List (List UInt8)) (world : ω)
    (asked : List (List String)) : ∃ more,
      lines.foldl (readLine p.listing) (⟨request, unread, false⟩, world, asked) =
        ((lines.foldl (readLine p) (⟨request, unread, false⟩, world)).1,
          (lines.foldl (readLine p) (⟨request, unread, false⟩, world)).2, asked ++ more) ∧
      more <+: requestsIn request lines ∧ (more = [] → requestsIn request lines = []) ∧
      (p.GoesOn → more = requestsIn request lines) := by
  induction lines generalizing request unread world asked with
  | nil => exact ⟨[], by simp, List.nil_prefix, fun _ => rfl, fun _ => rfl⟩
  | cons line rest ih =>
    rw [List.foldl_cons, List.foldl_cons, requestsIn]
    by_cases hline : line = executeLine
    · rw [if_pos hline]
      rcases hreply : p.reply world request with ⟨⟨printed, exits⟩, after⟩
      have hread : readLine p (⟨request, unread, false⟩, world) line =
          (⟨[], unread ++ printed, exits⟩, after) := by
        simp [readLine, hline, hreply]
      have hlisted : readLine p.listing (⟨request, unread, false⟩, world, asked) line =
          (⟨[], unread ++ printed, exits⟩, after, asked ++ [request]) := by
        simp [readLine, hline, Program.listing, hreply]
      rw [hread, hlisted]
      cases exits with
      | true =>
        -- The program has ended, so nothing that follows is read.
        rw [foldl_readLine_of_ended rfl, foldl_readLine_of_ended rfl]
        refine ⟨[request], rfl, by simp, by simp, fun hgoes => ?_⟩
        have hexits := hgoes world request
        rw [hreply] at hexits
        cases hexits
      | false =>
        obtain ⟨more, hfold, hfirst, -, hall⟩ :=
          ih [] (unread ++ printed) after (asked ++ [request])
        refine ⟨request :: more, ?_, List.prefix_cons_inj request |>.2 hfirst, by simp, ?_⟩
        · rw [hfold, List.append_assoc, List.singleton_append]
        · exact fun hgoes => congrArg (request :: ·) (hall hgoes)
    · rw [if_neg hline]
      have hread : readLine p (⟨request, unread, false⟩, world) line =
          (⟨request ++ [line], unread, false⟩, world) := by
        simp [readLine, hline]
      have hlisted : readLine p.listing (⟨request, unread, false⟩, world, asked) line =
          (⟨request ++ [line], unread, false⟩, world, asked) := by
        simp [readLine, hline]
      rw [hread, hlisted]
      exact ih (request ++ [line]) unread world asked

/-! ## One call -/

/-- A call between two requests leaves the program where reading the lines of the call leads. -/
theorem world_read_idle (name : Path) (world : ω) (unread : List (List UInt8)) (q : Query) :
    (read name p (idle world unread) q.path q.tags).2.world =
      ((linesOf (requestText q.arguments)).foldl (readLine p) (⟨[], unread, false⟩, world)).2 := by
  have hexecute : execute name p (idle world unread) q.arguments =
      exchange p world ⟨[], unread, false⟩ (requestText q.arguments) := rfl
  rcases hread : (linesOf (requestText q.arguments)).foldl (readLine p)
    (⟨[], unread, false⟩, world) with ⟨after, world'⟩
  rcases hcollect : collect after.ended "" after.unread with ⟨answer, rest⟩
  obtain ⟨kept, hexchange, -⟩ := exchange_of_open rfl hread hcollect
  rw [read_eq, hexecute, hexchange]

/-- The arguments of a query take up the lines of the options, of the tags and of the path. -/
theorem linesOf_query (q : Query) : linesOf (requestText q.arguments) =
    ["-j", "-G", "-n", "-b"] ++ q.tags.flatMap (fun tag => lineParts ("-" ++ tag)) ++
      lineParts q.path.text ++ [executeLine] := by
  have hoptions : ["-j", "-G", "-n", "-b"].flatMap lineParts = ["-j", "-G", "-n", "-b"] := by decide
  rw [linesOf_arguments q.arguments_ne_nil, Query.arguments, arguments, List.flatMap_append,
    List.flatMap_append, hoptions, List.flatMap_map, List.flatMap_singleton]

/-- They are one line each if and only if the path and the tags have no line break. -/
theorem linesOf_query_eq_iff (q : Query) :
    linesOf (requestText q.arguments) = q.arguments ++ [executeLine] ↔
      '\n' ∉ q.path.text.toList ∧ ∀ tag ∈ q.tags, '\n' ∉ tag.toList := by
  have hoptions : ∀ s ∈ ["-j", "-G", "-n", "-b"], '\n' ∉ s.toList := by decide
  have hdash (tag : String) : '\n' ∉ ("-" ++ tag).toList ↔ '\n' ∉ tag.toList := by simp
  rw [linesOf_eq_iff q.arguments_ne_nil, Query.arguments, arguments, List.forall_mem_append,
    List.forall_mem_append, List.forall_mem_map, List.forall_mem_singleton, and_comm]
  simp only [hdash]
  exact and_congr_right' (and_iff_right hoptions)

/-- A call between two requests puts on the list what the lines of the call hold. -/
theorem world_read_listing (name : Path) (world : ω) (unread : List (List UInt8)) (q : Query) :
    ∃ more, (read name p.listing (idle (world, []) unread) q.path q.tags).2.world =
        ((read name p (idle world unread) q.path q.tags).2.world, more) ∧
      more <+: requestsIn [] (linesOf (requestText q.arguments)) ∧ more ≠ [] ∧
      (p.GoesOn → more = requestsIn [] (linesOf (requestText q.arguments))) := by
  obtain ⟨more, hfold, hfirst, hnone, hall⟩ :=
    foldl_listing (p := p) (linesOf (requestText q.arguments)) [] unread world []
  have hsome : requestsIn [] (linesOf (requestText q.arguments)) ≠ [] := by
    rw [linesOf_arguments q.arguments_ne_nil]
    exact requestsIn_concat_ne_nil [] _
  refine ⟨more, ?_, hfirst, mt hnone hsome, hall⟩
  rw [world_read_idle, world_read_idle, hfold, List.nil_append]

/-- The list is the one request that was meant if and only if the query is plain. -/
theorem asked_eq_iff {q : Query} {asked : List (List String)}
    (hfirst : asked <+: requestsIn [] (linesOf (requestText q.arguments))) (hne : asked ≠ []) :
    asked = [q.arguments] ↔ q.IsPlain := by
  constructor
  · rintro rfl
    have hmem : q.arguments ∈ requestsIn [] (linesOf (requestText q.arguments)) :=
      hfirst.subset List.mem_cons_self
    refine Query.isPlain_iff.2 fun s hs => ?_
    rcases mem_of_mem_requestsIn hmem hs with hs | ⟨hs, hne⟩
    · simp at hs
    · exact ⟨lineBreak_not_mem_of_mem_linesOf hs, hne⟩
  · intro hplain
    rw [linesOf_requestText q.arguments_ne_nil fun _ => hplain.argument_line,
      requestsIn_concat_of_ne fun _ => hplain.argument_ne, List.nil_append] at hfirst
    rcases List.prefix_cons_iff.1 hfirst with rfl | ⟨rest, rfl, hrest⟩
    · exact absurd rfl hne
    · rw [List.prefix_nil.1 hrest]

/-- What a call between two requests sends, and what the program reads of it.  Every argument is
sent as the lines that it takes up.  These are the options, one line for each tag and one with the
path if and only if there is no line break in the path and in the tags.  The program reads at least
one request, and all that the lines hold if it does not end before; the list of what it reads
changes nothing for it.  It reads the one request that was meant if and only if no argument breaks a
line or is the line that ends requests. -/
theorem call_asks (p : Program ω) (name : Path) (world : ω) (unread : List (List UInt8))
    (q : Query) :
    let lines := linesOf (requestText q.arguments)
    lines = ["-j", "-G", "-n", "-b"] ++ q.tags.flatMap (fun tag => lineParts ("-" ++ tag)) ++
      lineParts q.path.text ++ [executeLine] ∧
    (lines = ["-j", "-G", "-n", "-b"] ++ q.tags.map ("-" ++ ·) ++ [q.path.text] ++ [executeLine] ↔
      '\n' ∉ q.path.text.toList ∧ ∀ tag ∈ q.tags, '\n' ∉ tag.toList) ∧
    ∃ asked, (read name p.listing (idle (world, []) unread) q.path q.tags).2.world =
        ((read name p (idle world unread) q.path q.tags).2.world, asked) ∧
      asked <+: requestsIn [] lines ∧ asked ≠ [] ∧ (p.GoesOn → asked = requestsIn [] lines) ∧
      (asked = [q.arguments] ↔ q.IsPlain) := by
  intro lines
  obtain ⟨asked, hworld, hfirst, hne, hall⟩ := world_read_listing (p := p) name world unread q
  exact ⟨linesOf_query q, linesOf_query_eq_iff q, asked, hworld, hfirst, hne, hall,
    asked_eq_iff hfirst hne⟩

/-- A request for the capture date of one file. -/
def dateQuery (path : String) : Query :=
  ⟨⟨path⟩, [Tag.captureDate.name]⟩

/-- What a program reads of the first call for the capture date of a file. -/
def firstAsked (path : String) : List (List String) :=
  let q := dateQuery path
  (read ⟨"exiftool"⟩ (photoProgram []).listing (idle ((), []) []) q.path q.tags).2.world.2

/-- A file name with line breaks around the ending line makes two requests, about two other files.
A file that is named as the ending line makes a request without a file, and one without any line. -/
theorem call_asks_twice :
    linesOf (requestText (dateQuery "a.jpg\n-execute\nb.jpg").arguments) ≠
      ["-j", "-G", "-n", "-b", "-EXIF:DateTimeOriginal", "a.jpg\n-execute\nb.jpg", "-execute"] ∧
    firstAsked "a.jpg\n-execute\nb.jpg" =
      [["-j", "-G", "-n", "-b", "-EXIF:DateTimeOriginal", "a.jpg"], ["b.jpg"]] ∧
    firstAsked "-execute" = [["-j", "-G", "-n", "-b", "-EXIF:DateTimeOriginal"], []] := by
  decide +kernel

end Client

end PhotoIntake.Metadata
