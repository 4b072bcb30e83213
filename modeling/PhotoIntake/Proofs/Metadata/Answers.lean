import PhotoIntake.Metadata.Tool
import PhotoIntake.Proofs.Text.Lines
import Mathlib.Data.List.Basic

/-!
# Which answer a request gets

A program that answers every request with some lines and a ready line prints one run of lines.  The
client cuts it where a line is ready or is no text, and every call takes the next piece.  As long as
the answers are texts there is one piece an answer, so every call gets the answer to its own
request, whatever came of the calls before.  An answer with a line that is no text makes two pieces
of one, and from then on the calls get what belongs to earlier ones.

* `Client.read_idle`: one call between two requests.
* `results_from_answers`: what a sequence of calls results in.
-/

namespace PhotoIntake.Metadata

/-- A request for tags of a file. -/
structure Query where
  path : Path
  tags : List String

namespace Query

/-- The arguments of the request. -/
def arguments (q : Query) : List String :=
  Client.arguments q.path q.tags

/-- No argument of the request breaks a line or is the one that ends requests. -/
structure IsPlain (q : Query) : Prop where
  path_line : '\n' ∉ q.path.text.toList
  path_ne : q.path.text ≠ Client.executeLine
  tag_line : ∀ tag ∈ q.tags, '\n' ∉ tag.toList
  tag_ne : "execute" ∉ q.tags

theorem mem_arguments {q : Query} {s : String} (h : s ∈ q.arguments) :
    s ∈ ["-j", "-G", "-n", "-b"] ∨ (∃ tag ∈ q.tags, s = "-" ++ tag) ∨ s = q.path.text := by
  rcases List.mem_append.1 h with h | h
  · rcases List.mem_append.1 h with h | h
    · exact .inl h
    · obtain ⟨tag, htag, rfl⟩ := List.mem_map.1 h
      exact .inr (.inl ⟨tag, htag, rfl⟩)
  · exact .inr (.inr (List.mem_singleton.1 h))

theorem IsPlain.argument_line {q : Query} (h : q.IsPlain) {s : String} (hs : s ∈ q.arguments) :
    '\n' ∉ s.toList := by
  rcases mem_arguments hs with hs | ⟨tag, htag, rfl⟩ | rfl
  · have hfixed : ∀ s ∈ ["-j", "-G", "-n", "-b"], '\n' ∉ s.toList := by decide
    exact hfixed s hs
  · have hdash : "-".toList = ['-'] := rfl
    rw [String.toList_append, hdash, List.singleton_append, List.mem_cons, not_or]
    exact ⟨by decide, h.tag_line tag htag⟩
  · exact h.path_line

theorem IsPlain.argument_ne {q : Query} (h : q.IsPlain) {s : String} (hs : s ∈ q.arguments) :
    s ≠ Client.executeLine := by
  rcases mem_arguments hs with hs | ⟨tag, htag, rfl⟩ | rfl
  · have hfixed : ∀ s ∈ ["-j", "-G", "-n", "-b"], s ≠ Client.executeLine := by decide
    exact hfixed s hs
  · intro heq
    have hexecute : Client.executeLine = "-" ++ "execute" := rfl
    rw [hexecute] at heq
    obtain rfl := (String.append_right_inj _).1 heq
    exact h.tag_ne htag
  · exact h.path_ne

end Query

/-! ## What the program prints -/

/-- The line ends an answer. -/
def isReady (bytes : List UInt8) : Bool :=
  (Text.ofBytes? bytes).any fun line => Text.trimEnd line.toList = Client.readyLine

theorem isReady_of_text {bytes : List UInt8} {line : String}
    (h : Text.ofBytes? bytes = some line) :
    isReady bytes = true ↔ Text.trimEnd line.toList = Client.readyLine := by
  rw [isReady, h, Option.any_some, decide_eq_true_eq]

/-- The program answers every request with lines of which the last alone ends the answer, and goes
on. -/
def Program.Answers {ω : Type} (p : Program ω) : Prop :=
  ∀ world request, ∃ body ready, (p.reply world request).1 = ⟨body ++ [ready], false⟩ ∧
    isReady ready = true ∧ ∀ line ∈ body, isReady line = false

section

variable {ω : Type} (p : Program ω)

/-- The answers to requests that the program reads one after the other, without their last lines. -/
def answers (world : ω) : List Query → List (List (List UInt8))
  | [] => []
  | q :: rest =>
    let (reply, world) := p.reply world q.arguments
    reply.lines.dropLast :: answers world rest

/-- All lines that the program prints for the requests. -/
def printed (world : ω) : List Query → List (List UInt8)
  | [] => []
  | q :: rest =>
    let (reply, world) := p.reply world q.arguments
    reply.lines ++ printed world rest

/-- Read tags of several files one after the other. -/
def readAll (name : Path) (c : Client ω) : List Query → List (Except ToolError Tags) × Client ω
  | [] => ([], c)
  | q :: rest =>
    let (result, c) := c.read name p q.path q.tags
    let (results, c) := readAll name c rest
    (result :: results, c)

end

/-- Printed lines, cut where one is ready or is no text. -/
def pieces (collected : String) : List (List UInt8) → List (Except ToolError String)
  | [] => []
  | bytes :: rest =>
    match Text.ofBytes? bytes with
    | none => .error .cannotRead :: pieces "" rest
    | some line =>
      if Text.trimEnd line.toList = Client.readyLine then .ok collected :: pieces "" rest
      else pieces (collected ++ line ++ "\n") rest

/-- What an answer says on its own: its tags, or that it cannot be read. -/
def verdict (body : List (List UInt8)) : Except ToolError Tags :=
  match body.mapM Text.ofBytes? with
  | none => .error .cannotRead
  | some texts => Client.tagsOf (String.join (texts.map (· ++ "\n")))

/-! ## One call -/

namespace Client

variable {ω : Type} {p : Program ω}

/-- The lines that an argument takes up: one, unless it has line breaks. -/
def lineParts (s : String) : List String :=
  (s.toList.splitOn '\n').map String.ofList

theorem lineParts_of_not_mem {s : String} (h : '\n' ∉ s.toList) : lineParts s = [s] := by
  rw [lineParts, List.splitOn_eq_singleton h]
  simp

theorem linesOf_append_break (s text : String) :
    linesOf (s ++ "\n" ++ text) = lineParts s ++ linesOf text := by
  have hchars : (s ++ "\n" ++ text).toList = s.toList ++ '\n' :: text.toList := by simp
  rw [linesOf, hchars, List.splitOn_append_cons_self,
    List.dropLast_append_of_ne_nil (List.splitOn_ne_nil _ _), List.map_append]
  rfl

/-- The program reads the lines of the arguments and the one that ends the request. -/
theorem linesOf_arguments {arguments : List String} (hne : arguments ≠ []) :
    linesOf (requestText arguments) = arguments.flatMap lineParts ++ [executeLine] := by
  induction arguments with
  | nil => exact absurd rfl hne
  | cons s rest ih =>
    by_cases hrest : rest = []
    · have htext : requestText [s] = s ++ "\n" ++ (executeLine ++ "\n") := by
        rw [requestText, String.intercalate_singleton, String.append_assoc]
      have hend : linesOf (executeLine ++ "\n") = [executeLine] := by decide
      rw [hrest, htext, linesOf_append_break, hend, List.flatMap_singleton]
    · have htext : requestText (s :: rest) = s ++ "\n" ++ requestText rest := by
        rw [requestText, String.intercalate_cons_of_ne_nil hrest]
        simp only [requestText, String.append_assoc]
      rw [htext, linesOf_append_break, ih hrest, List.flatMap_cons, List.append_assoc]

/-- The program reads the arguments of a request line by line, and the line that ends it. -/
theorem linesOf_requestText {arguments : List String} (hne : arguments ≠ [])
    (h : ∀ s ∈ arguments, '\n' ∉ s.toList) :
    linesOf (requestText arguments) = arguments ++ [executeLine] := by
  have hparts : arguments.flatMap lineParts = arguments.flatMap ([·]) :=
    List.flatMap_congr fun s hs => lineParts_of_not_mem (h s hs)
  rw [linesOf_arguments hne, hparts, List.flatMap_singleton']

/-- Lines that do not end a request are kept for it. -/
theorem foldl_readLine {lines : List String} (h : ∀ s ∈ lines, s ≠ executeLine)
    (request : List String) (unread : List (List UInt8)) (world : ω) :
    lines.foldl (readLine p) (⟨request, unread, false⟩, world) =
      (⟨request ++ lines, unread, false⟩, world) := by
  induction lines generalizing request with
  | nil => simp
  | cons s rest ih =>
    have hs : readLine p (⟨request, unread, false⟩, world) s =
        (⟨request ++ [s], unread, false⟩, world) := by
      rw [readLine]
      exact if_neg (h s List.mem_cons_self)
    rw [List.foldl_cons, hs, ih fun t ht => h t (List.mem_cons_of_mem s ht), List.append_assoc,
      List.singleton_append]

/-- Lines with a ready one among them begin with a piece, and the client takes it. -/
theorem collect_of_ready {given : List (List UInt8)} (h : ∃ line ∈ given, isReady line = true)
    (ended : Bool) (collected : String) : ∃ answer rest,
      collect ended collected given = (answer, rest) ∧ answer ≠ .error .exited ∧
      ∀ later, pieces collected (given ++ later) = answer :: pieces "" (rest ++ later) := by
  induction given generalizing collected with
  | nil =>
    obtain ⟨line, hmem, -⟩ := h
    cases hmem
  | cons bytes given ih =>
    cases htext : Text.ofBytes? bytes with
    | none =>
      refine ⟨.error .cannotRead, given, by simp only [collect, htext], by rintro ⟨⟩, fun later => ?_⟩
      simp only [List.cons_append, pieces, htext]
    | some line =>
      by_cases hready : Text.trimEnd line.toList = readyLine
      · refine ⟨.ok collected, given, by simp only [collect, htext, hready, if_true],
          by rintro ⟨⟩, fun later => ?_⟩
        simp only [List.cons_append, pieces, htext, hready, if_true]
      · have hrest : ∃ line ∈ given, isReady line = true := by
          obtain ⟨other, hmem, hother⟩ := h
          rcases List.mem_cons.1 hmem with rfl | hmem
          · exact absurd ((isReady_of_text htext).1 hother) hready
          · exact ⟨other, hmem, hother⟩
        obtain ⟨answer, rest, hcollect, hne, hpieces⟩ := ih hrest (collected ++ line ++ "\n")
        refine ⟨answer, rest, by simp only [collect, htext, hready, if_false, hcollect], hne,
          fun later => ?_⟩
        simp only [List.cons_append, pieces, htext, hready, if_false, hpieces]

/-- Between two requests: nothing of a request was read, and the program goes on. -/
def idle (world : ω) (unread : List (List UInt8)) : Client ω :=
  ⟨world, some ⟨[], unread, false⟩⟩

/-- A call between two requests takes the first piece of what is unread and printed. -/
theorem read_idle (hanswers : p.Answers) {q : Query} (hq : q.IsPlain) (name : Path) (world : ω)
    (unread : List (List UInt8)) : ∃ answer rest,
      read name p (idle world unread) q.path q.tags =
        (answer.bind tagsOf, idle (p.reply world q.arguments).2 rest) ∧
      ∀ later, pieces "" (unread ++ ((p.reply world q.arguments).1.lines ++ later)) =
        answer :: pieces "" (rest ++ later) := by
  obtain ⟨body, ready, hreply, hready, -⟩ := hanswers world q.arguments
  have hgiven : ∃ line ∈ unread ++ (body ++ [ready]), isReady line = true :=
    ⟨ready, by simp, hready⟩
  obtain ⟨answer, rest, hcollect, hne, hpieces⟩ := collect_of_ready hgiven false ""
  have hne' : q.arguments ≠ [] := List.append_ne_nil_of_right_ne_nil _ (by simp)
  have hlines := linesOf_requestText hne' fun _ => hq.argument_line
  have hread : (linesOf (requestText q.arguments)).foldl (readLine p)
      (⟨[], unread, false⟩, world) =
        (⟨[], unread ++ (body ++ [ready]), false⟩, (p.reply world q.arguments).2) := by
    rw [hlines, List.foldl_append, foldl_readLine fun _ => hq.argument_ne]
    simp [readLine, hreply]
  have hexchange : exchange p world ⟨[], unread, false⟩ (requestText q.arguments) =
      (answer, idle (p.reply world q.arguments).2 rest) := by
    simp only [exchange, hread, hcollect]
    cases answer with
    | ok text => rfl
    | error e =>
      cases e with
      | exited => exact absurd rfl hne
      | _ => rfl
  refine ⟨answer, rest, ?_, fun later => ?_⟩
  · have hexecute : execute name p (idle world unread) q.arguments =
        exchange p world ⟨[], unread, false⟩ (requestText q.arguments) := rfl
    have hself : read name p (idle world unread) q.path q.tags =
        ((execute name p (idle world unread) q.arguments).1.bind tagsOf,
          (execute name p (idle world unread) q.arguments).2) := rfl
    rw [hself, hexecute, hexchange]
  · rw [hreply, ← List.append_assoc]
    exact hpieces later

/-- The first call starts the program. -/
theorem read_ofWorld {world started : ω} (hlaunch : p.launch world = .ok started) (name path : Path)
    (tags : List String) :
    read name p (ofWorld world) path tags = read name p (idle started []) path tags := by
  have hstart : start name p (ofWorld world) = (.ok (), idle started []) := by
    simp only [start, isRunning, ofWorld, Option.isSome_none, Bool.false_eq_true, if_false, hlaunch]
    rfl
  have hidle : start name p (idle started []) = (.ok (), idle started []) := rfl
  rw [read, read, execute, execute, hstart, hidle]

end Client

/-! ## Many calls -/

section

variable {ω : Type} {p : Program ω}

theorem readAll_idle (hanswers : p.Answers) (name : Path) {queries : List Query}
    (hplain : ∀ q ∈ queries, q.IsPlain) (world : ω) (unread : List (List UInt8)) :
    (readAll p name (.idle world unread) queries).1 =
      ((pieces "" (unread ++ printed p world queries)).take queries.length).map
        (·.bind Client.tagsOf) := by
  induction queries generalizing world unread with
  | nil => rfl
  | cons q queries ih =>
    obtain ⟨answer, rest, hread, hpieces⟩ :=
      Client.read_idle hanswers (hplain q List.mem_cons_self) name world unread
    have hrest := ih (fun q' hq' => hplain q' (List.mem_cons_of_mem q hq'))
      (p.reply world q.arguments).2 rest
    simp only [readAll, hread, hrest, printed, hpieces, List.length_cons, List.take_succ_cons,
      List.map_cons]

/-- The lines of an answer that is a text are one piece. -/
theorem pieces_of_text {body : List (List UInt8)} {texts : List String}
    (htexts : body.mapM Text.ofBytes? = some texts) (hbody : ∀ line ∈ body, isReady line = false)
    {ready : List UInt8} (hready : isReady ready = true) (collected : String)
    (later : List (List UInt8)) : pieces collected (body ++ ready :: later) =
      .ok (collected ++ String.join (texts.map (· ++ "\n"))) :: pieces "" later := by
  induction body generalizing texts collected with
  | nil =>
    obtain rfl : [] = texts := Option.some.inj htexts
    rw [isReady, Option.any_eq_true] at hready
    obtain ⟨line, htext, hline⟩ := hready
    simp [pieces, htext, of_decide_eq_true hline]
  | cons bytes body ih =>
    rw [List.mapM_cons, Option.bind_eq_bind, Option.bind_eq_some_iff] at htexts
    obtain ⟨line, htext, htexts⟩ := htexts
    rw [Option.bind_eq_bind, Option.bind_eq_some_iff] at htexts
    obtain ⟨rest, hrest, heq⟩ := htexts
    obtain rfl : line :: rest = texts := Option.some.inj heq
    have hline : Text.trimEnd line.toList ≠ Client.readyLine :=
      mt (isReady_of_text htext).2 (by simp [hbody bytes List.mem_cons_self])
    have hnext := ih hrest (fun other hmem => hbody other (List.mem_cons_of_mem bytes hmem))
      (collected ++ line ++ "\n")
    simp only [List.cons_append, pieces, htext, hline, if_false]
    rw [hnext, List.map_cons, String.join_cons]
    simp only [String.append_assoc]

/-- An answer that is no text begins with a piece that cannot be read. -/
theorem head?_pieces_of_broken {body : List (List UInt8)} (hbroken : body.mapM Text.ofBytes? = none)
    (hbody : ∀ line ∈ body, isReady line = false) (collected : String) (later : List (List UInt8)) :
    (pieces collected (body ++ later)).head? = some (.error .cannotRead) := by
  induction body generalizing collected with
  | nil => cases hbroken
  | cons bytes body ih =>
    cases htext : Text.ofBytes? bytes with
    | none => simp only [List.cons_append, pieces, htext, List.head?_cons]
    | some line =>
      have hrest : body.mapM Text.ofBytes? = none := by
        rw [List.mapM_cons, htext] at hbroken
        cases hbody : body.mapM Text.ofBytes? with
        | none => rfl
        | some rest =>
          rw [hbody] at hbroken
          cases hbroken
      have hline : Text.trimEnd line.toList ≠ Client.readyLine :=
        mt (isReady_of_text htext).2 (by simp [hbody bytes List.mem_cons_self])
      simp only [List.cons_append, pieces, htext, hline, if_false]
      exact ih hrest (fun other hmem => hbody other (List.mem_cons_of_mem bytes hmem)) _

theorem length_answers (world : ω) (queries : List Query) :
    (answers p world queries).length = queries.length := by
  induction queries generalizing world with
  | nil => rfl
  | cons q queries ih => rw [answers, List.length_cons, List.length_cons, ih]

/-- As long as the answers before are texts, each answer is the piece of its own request. -/
theorem pieces_printed (hanswers : p.Answers) {queries : List Query} {world : ω} {k : Nat}
    (hk : k < queries.length)
    (htexts : ∀ body ∈ (answers p world queries).take k, body.mapM Text.ofBytes? ≠ none) :
    ((pieces "" (printed p world queries)).map (·.bind Client.tagsOf))[k]? =
      ((answers p world queries)[k]?).map verdict := by
  induction queries generalizing world k with
  | nil => exact absurd hk (Nat.not_lt_zero k)
  | cons q queries ih =>
    obtain ⟨body, ready, hreply, hready, hbody⟩ := hanswers world q.arguments
    have hprinted : printed p world (q :: queries) =
        body ++ ready :: printed p (p.reply world q.arguments).2 queries := by
      simp [printed, hreply]
    have hown : answers p world (q :: queries) =
        body :: answers p (p.reply world q.arguments).2 queries := by
      simp [answers, hreply]
    rw [hprinted, hown]
    cases k with
    | zero =>
      cases hmap : body.mapM Text.ofBytes? with
      | none =>
        have hhead := head?_pieces_of_broken hmap hbody ""
          (ready :: printed p (p.reply world q.arguments).2 queries)
        rw [List.getElem?_map, ← List.head?_eq_getElem?, hhead, List.getElem?_cons_zero,
          Option.map_some, Option.map_some, verdict, hmap]
        rfl
      | some texts =>
        rw [pieces_of_text hmap hbody hready, List.map_cons, List.getElem?_cons_zero,
          List.getElem?_cons_zero, Option.map_some, verdict, hmap, String.empty_append]
        rfl
    | succ k =>
      rw [hown, List.take_succ_cons] at htexts
      obtain ⟨texts, hmap⟩ := Option.ne_none_iff_exists'.1 (htexts body List.mem_cons_self)
      rw [pieces_of_text hmap hbody hready, List.map_cons, List.getElem?_cons_succ,
        List.getElem?_cons_succ]
      exact ih (Nat.lt_of_succ_lt_succ hk) fun other hmem => htexts other (List.mem_cons_of_mem _ hmem)

/-- What a sequence of calls results in.  Each call takes the next piece of what the program has
printed.  As long as the answers before are texts, that is the answer to its own request: the call
results in the tags of that answer or in an error about it, also when calls before have failed. -/
theorem results_from_answers (hanswers : p.Answers) {world started : ω}
    (hlaunch : p.launch world = .ok started) (name : Path) {queries : List Query}
    (hplain : ∀ q ∈ queries, q.IsPlain) :
    (readAll p name (.ofWorld world) queries).1 =
      ((pieces "" (printed p started queries)).take queries.length).map (·.bind Client.tagsOf) ∧
    ∀ k < queries.length,
      (∀ body ∈ (answers p started queries).take k, body.mapM Text.ofBytes? ≠ none) →
      ∃ body, (answers p started queries)[k]? = some body ∧
        (readAll p name (.ofWorld world) queries).1[k]? = some (verdict body) := by
  have hresults : (readAll p name (.ofWorld world) queries).1 =
      ((pieces "" (printed p started queries)).take queries.length).map (·.bind Client.tagsOf) := by
    cases queries with
    | nil => rfl
    | cons q queries =>
      have hstarted : readAll p name (.ofWorld world) (q :: queries) =
          readAll p name (.idle started []) (q :: queries) := by
        rw [readAll, readAll, Client.read_ofWorld hlaunch]
      rw [hstarted, readAll_idle hanswers name hplain, List.nil_append]
  refine ⟨hresults, fun k hk htexts => ?_⟩
  have hpiece := pieces_printed hanswers hk htexts
  have hlength : k < (answers p started queries).length := by rwa [length_answers]
  refine ⟨(answers p started queries)[k], List.getElem?_eq_getElem hlength, ?_⟩
  rw [hresults, List.map_take, List.getElem?_take_of_lt hk, hpiece,
    List.getElem?_eq_getElem hlength, Option.map_some]

end

/-! ## Two photos -/

/-- A program that answers by the last line of a request. -/
def tableProgram (table : List (String × List (List UInt8))) : Program Unit where
  launch _ := .ok ()
  reply _ request :=
    (⟨(table.lookup (request.getLast?.getD "")).getD [] ++ [Text.bytes "\x7bready\x7d"], false⟩, ())

theorem tableProgram_answers {table : List (String × List (List UInt8))}
    (h : ∀ entry ∈ table, ∀ line ∈ entry.2, isReady line = false) :
    (tableProgram table).Answers := by
  intro world request
  refine ⟨_, _, rfl, by decide +kernel, fun line hline => ?_⟩
  cases hlookup : table.lookup (request.getLast?.getD "") with
  | none => simp [hlookup] at hline
  | some body =>
    rw [hlookup] at hline
    obtain ⟨before, after, rfl, -⟩ := List.lookup_eq_some_iff.1 hlookup
    exact h (request.getLast?.getD "", body) (by simp) line hline

/-- An answer with the capture date of a photo. -/
def dateAnswer (date : String) : List UInt8 :=
  Text.bytes ("[\x7b\"EXIF:DateTimeOriginal\":\"" ++ date ++ "\"\x7d]")

/-- A program that knows two photos, the second of 2022. -/
def photoProgram (first : List (List UInt8)) : Program Unit :=
  tableProgram [("a.jpg", first), ("b.jpg", [dateAnswer "2022:02:02 00:00:00"])]

/-- Requests for a tag of the first photo and the capture date of the second. -/
def photos (tag : String) : List Query :=
  [⟨⟨"a.jpg"⟩, [tag]⟩, ⟨⟨"b.jpg"⟩, [Tag.captureDate.name]⟩]

theorem photos_plain : ∀ q ∈ photos Tag.captureDate.name, q.IsPlain := by
  intro q hq
  rcases List.mem_cons.1 hq with rfl | hq
  · exact ⟨by decide, by decide, by decide, by decide⟩
  · obtain rfl := List.mem_singleton.1 hq
    exact ⟨by decide, by decide, by decide, by decide⟩

/-- The capture dates that calls have resulted in. -/
def dates (results : List (Except ToolError Tags)) : List (Option String) :=
  results.map fun result => result.toOption.bind (·.text? .captureDate)

/-- The answer about the first photo is no document, and the second call gets its own answer. -/
theorem results_from_answers_sample :
    (photoProgram [Text.bytes "Warning"]).Answers ∧
    (∀ q ∈ photos Tag.captureDate.name, q.IsPlain) ∧
    ∃ body, (answers (photoProgram [Text.bytes "Warning"]) () (photos Tag.captureDate.name))[1]? =
        some body ∧
      (readAll (photoProgram [Text.bytes "Warning"]) ⟨"exiftool"⟩ (.ofWorld ())
        (photos Tag.captureDate.name)).1[1]? = some (verdict body) := by
  have hanswers : (photoProgram [Text.bytes "Warning"]).Answers :=
    tableProgram_answers (by decide +kernel)
  have htexts : ∀ body ∈
      (answers (photoProgram [Text.bytes "Warning"]) () (photos Tag.captureDate.name)).take 1,
        body.mapM Text.ofBytes? ≠ none := by decide +kernel
  exact ⟨hanswers, photos_plain,
    (results_from_answers hanswers rfl ⟨"exiftool"⟩ photos_plain).2 1 (by decide) htexts⟩

/-- Two ways to get the answer about another photo.  A line of the first answer is no text, or a tag
of the first request ends it early: the second call results in the date of the first photo. -/
theorem results_from_earlier_answers :
    (photoProgram [[255], dateAnswer "2021:01:01 00:00:00"]).Answers ∧
    (photoProgram [dateAnswer "2021:01:01 00:00:00"]).Answers ∧
    dates (readAll (photoProgram [[255], dateAnswer "2021:01:01 00:00:00"]) ⟨"exiftool"⟩
      (.ofWorld ()) (photos Tag.captureDate.name)).1 = [none, some "2021:01:01 00:00:00"] ∧
    dates (readAll (photoProgram [dateAnswer "2021:01:01 00:00:00"]) ⟨"exiftool"⟩
      (.ofWorld ()) (photos "execute")).1 = [none, some "2021:01:01 00:00:00"] :=
  ⟨tableProgram_answers (by decide +kernel), tableProgram_answers (by decide +kernel),
    by decide +kernel, by decide +kernel⟩

end PhotoIntake.Metadata
