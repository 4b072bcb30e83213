import PhotoIntake.Proofs.Metadata.Answers

/-!
# After the end of the program

The program of a client can end at any time, while it answers or between two requests.  A client
that finds out while it reads gives the program up, and the next call launches another one.  A
client that finds out while it sends keeps the connection: no call launches a program again, and
all of them fail in the same way.

* `read_of_ended`, `read_of_open`: one call, by whether the program has ended before it.
* `read_idle_answered`: the first call to a program that answers.
* `recovers_iff_given_up`: what becomes of the client in every run in which launching succeeds.
-/

namespace PhotoIntake.Metadata

namespace Client

variable {ω : Type} {p : Program ω} {name : Path} {c : Client ω}

/-! ## One call -/

/-- The client has a connection to a program that has ended. -/
def programEnded (c : Client ω) : Bool :=
  c.connection.any (·.ended)

theorem read_eq (name : Path) (p : Program ω) (c : Client ω) (q : Query) :
    read name p c q.path q.tags =
      ((execute name p c q.arguments).1.bind tagsOf, (execute name p c q.arguments).2) :=
  rfl

/-- The tags of an answer fail in one way only. -/
theorem tagsOf_error {answer : String} {e : ToolError} (h : tagsOf answer = .error e) :
    e = .invalidAnswer := by
  unfold tagsOf at h
  split at h
  · cases h
  · split at h
    · exact (Except.error.inj h).symm
    · cases h
    · cases h

/-- Any other failure is one of the exchange. -/
theorem bind_tagsOf_eq_error {answer : Except ToolError String} {e : ToolError}
    (he : e ≠ .invalidAnswer) : answer.bind tagsOf = .error e ↔ answer = .error e := by
  cases answer with
  | error e' =>
    show Except.error e' = _ ↔ _
    simp
  | ok text =>
    show tagsOf text = _ ↔ _
    exact ⟨fun h => absurd (tagsOf_error h) he, fun h => by cases h⟩

theorem collect_ne_cannotSend (ended : Bool) (collected : String) (given : List (List UInt8)) :
    (collect ended collected given).1 ≠ .error .cannotSend := by
  induction given generalizing collected with
  | nil =>
    unfold collect
    cases ended <;> simp
  | cons bytes rest ih =>
    unfold collect
    split
    · simp
    · split
      · simp
      · exact ih _

/-- An exchange with a program that has not ended reads an answer, and it gives the connection up if
and only if the program ends before the answer does. -/
theorem exchange_of_open {connection after : Connection} {world world' : ω} {text : String}
    {answer : Except ToolError String} {unread : List (List UInt8)}
    (hopen : connection.ended = false)
    (hread : (linesOf text).foldl (readLine p) (connection, world) = (after, world'))
    (hcollect : collect after.ended "" after.unread = (answer, unread)) :
    ∃ kept, exchange p world connection text = (answer, ⟨world', kept⟩) ∧
      (kept = none ↔ answer = .error .exited) := by
  unfold exchange
  rw [hopen, if_neg Bool.false_ne_true]
  simp only [hread, hcollect]
  cases answer with
  | ok text => exact ⟨_, rfl, by simp⟩
  | error e =>
    cases e with
    | exited => exact ⟨none, rfl, by simp⟩
    | _ => exact ⟨_, rfl, by simp⟩

/-- A client whose program has ended cannot send, and it stays as it is. -/
theorem read_of_ended (hended : c.programEnded = true) (name : Path) (p : Program ω) (q : Query) :
    read name p c q.path q.tags = (.error .cannotSend, c) := by
  obtain ⟨world, connection⟩ := c
  obtain ⟨connection, rfl, hended⟩ := (Option.any_eq_true _ _).1 hended
  have hexecute : execute name p ⟨world, some connection⟩ q.arguments =
      exchange p world connection (requestText q.arguments) := rfl
  have hexchange : exchange p world connection (requestText q.arguments) =
      (.error .cannotSend, ⟨world, some connection⟩) := if_pos hended
  rw [read_eq, hexecute, hexchange]
  rfl

/-- A call of a client that can launch its program is an exchange with a program that has not
ended, unless that of its connection has. -/
theorem exists_exchange (hlaunch : ∀ world, ∃ started, p.launch world = .ok started)
    (hopen : c.programEnded = false) (name : Path) (q : Query) :
    ∃ world connection, connection.ended = false ∧
      execute name p c q.arguments = exchange p world connection (requestText q.arguments) := by
  obtain ⟨world, _ | connection⟩ := c
  · obtain ⟨started, hstarted⟩ := hlaunch world
    refine ⟨started, ⟨[], [], false⟩, rfl, ?_⟩
    unfold execute start
    simp [isRunning, hstarted]
  · exact ⟨world, connection, hopen, rfl⟩

/-- Any other client sends its request, and it gives its program up if and only if the program ends
before the answer does. -/
theorem read_of_open (hlaunch : ∀ world, ∃ started, p.launch world = .ok started)
    (hopen : c.programEnded = false) (name : Path) (q : Query) :
    (read name p c q.path q.tags).1 ≠ .error .cannotSend ∧
      ((read name p c q.path q.tags).1 = .error .exited ↔
        (read name p c q.path q.tags).2.connection = none) := by
  obtain ⟨world, connection, hconnection, hexecute⟩ := exists_exchange hlaunch hopen name q
  rcases hread : (linesOf (requestText q.arguments)).foldl (readLine p) (connection, world)
    with ⟨after, world'⟩
  rcases hcollect : collect after.ended "" after.unread with ⟨answer, unread⟩
  obtain ⟨kept, hexchange, hkept⟩ := exchange_of_open hconnection hread hcollect
  have hsent : answer ≠ .error .cannotSend := by
    have hne := collect_ne_cannotSend after.ended "" after.unread
    rwa [hcollect] at hne
  rw [read_eq, hexecute, hexchange, ne_eq, bind_tagsOf_eq_error (by simp),
    bind_tagsOf_eq_error (by simp)]
  exact ⟨hsent, hkept.symm⟩

/-! ## The first call to a program -/

/-- The first call to a program that answers it gets the tags of this answer, whether or not the
program ends after it. -/
theorem read_idle_answered {q : Query} (hq : q.IsPlain) (name : Path) (started : ω)
    {body : List (List UInt8)} {ready : List UInt8} {exits : Bool}
    (hreply : (p.reply started q.arguments).1 = ⟨body ++ [ready], exits⟩)
    (hready : isReady ready = true) (hbody : ∀ line ∈ body, isReady line = false) :
    (read name p (idle started []) q.path q.tags).1 = verdict body := by
  have hne : q.arguments ≠ [] := List.append_ne_nil_of_right_ne_nil _ (by simp)
  have hread : (linesOf (requestText q.arguments)).foldl (readLine p) (⟨[], [], false⟩, started) =
      (⟨[], body ++ [ready], exits⟩, (p.reply started q.arguments).2) := by
    rw [linesOf_requestText hne fun _ => hq.argument_line, List.foldl_append,
      foldl_readLine fun _ => hq.argument_ne]
    simp [readLine, hreply]
  have hgiven : ∃ line ∈ body ++ [ready], isReady line = true := ⟨ready, by simp, hready⟩
  obtain ⟨answer, rest, hcollect, -, hpieces⟩ := collect_of_ready hgiven exits ""
  obtain ⟨kept, hexchange, -⟩ := exchange_of_open rfl hread hcollect
  have hexecute : execute name p (idle started []) q.arguments =
      exchange p started ⟨[], [], false⟩ (requestText q.arguments) := rfl
  have hpiece := hpieces []
  rw [List.append_nil] at hpiece
  rw [read_eq, hexecute, hexchange, verdict]
  cases htexts : body.mapM Text.ofBytes? with
  | none =>
    have hhead := head?_pieces_of_broken htexts hbody "" [ready]
    rw [hpiece, List.head?_cons] at hhead
    rw [Option.some.inj hhead]
    rfl
  | some texts =>
    rw [pieces_of_text htexts hbody hready, String.empty_append] at hpiece
    rw [← (List.cons.inj hpiece).1]
    rfl

/-- A client without a connection launches its program, and the call is the first one to it. -/
theorem read_of_given_up {started : ω} (hgone : c.connection = none)
    (hstarted : p.launch c.world = .ok started) (name : Path) (q : Query) :
    read name p c q.path q.tags = read name p (idle started []) q.path q.tags := by
  obtain ⟨world, connection⟩ := c
  obtain rfl : connection = none := hgone
  exact read_ofWorld hstarted name q.path q.tags

/-! ## Runs -/

/-- What happens to a client: a call, or the end of its program between two calls. -/
inductive Happening where
  | call (q : Query)
  | ends

/-- The client after something has happened. -/
def happen (name : Path) (p : Program ω) (c : Client ω) : Happening → Client ω
  | .call q => (read name p c q.path q.tags).2
  | .ends => { c with connection := c.connection.map ({ · with ended := true }) }

/-- The client after a run. -/
def after (name : Path) (p : Program ω) (c : Client ω) (run : List Happening) : Client ω :=
  run.foldl (happen name p) c

/-- Nothing happens to a client whose program has ended. -/
theorem after_of_ended (hended : c.programEnded = true) (run : List Happening) :
    c.after name p run = c := by
  induction run with
  | nil => rfl
  | cons h run ih =>
    have hsame : happen name p c h = c := by
      cases h with
      | call q => exact congrArg Prod.snd (read_of_ended hended name p q)
      | ends =>
        obtain ⟨world, connection⟩ := c
        obtain ⟨⟨request, unread, ended⟩, rfl, hended⟩ := (Option.any_eq_true _ _).1 hended
        obtain rfl : ended = true := hended
        rfl
    rw [after, List.foldl_cons, hsame]
    exact ih

end Client

section

open Client (Happening after idle)

variable {ω : Type} {p : Program ω}

/-- What becomes of a client in a run of calls, with the program ending at any time and launching it
always succeeding.  A call that fails since the program ends while it answers, and no other, gives
the program up; the next call launches another one, and gets the answer of this one to its own
request.  A call fails in sending if and only if the program has ended before it; it leaves the
client as it is, and whatever happens later, every call fails in sending. -/
theorem recovers_iff_given_up (hlaunch : ∀ world, ∃ started, p.launch world = .ok started)
    (name : Path) (world : ω) (run : List Happening) (q : Query) :
    let c := (Client.ofWorld world).after name p run
    let result := (c.read name p q.path q.tags).1
    let c' := (c.read name p q.path q.tags).2
    (result = .error .exited ↔ c'.isRunning = false) ∧
    (result = .error .exited → ∀ q' : Query, ∃ started, p.launch c'.world = .ok started ∧
      c'.read name p q'.path q'.tags = (idle started []).read name p q'.path q'.tags ∧
      ∀ body ready exits, q'.IsPlain →
        (p.reply started q'.arguments).1 = ⟨body ++ [ready], exits⟩ →
        isReady ready = true → (∀ line ∈ body, isReady line = false) →
          (c'.read name p q'.path q'.tags).1 = verdict body) ∧
    (result = .error .cannotSend ↔ c.programEnded = true) ∧
    (result = .error .cannotSend → c' = c ∧ ∀ (later : List Happening) (q' : Query),
      (c'.after name p later).read name p q'.path q'.tags = (.error .cannotSend, c)) := by
  intro c result c'
  cases hended : c.programEnded with
  | true =>
    have hread : c.read name p q.path q.tags = (.error .cannotSend, c) :=
      Client.read_of_ended hended name p q
    have hresult : result = .error .cannotSend := congrArg Prod.fst hread
    have hsame : c' = c := congrArg Prod.snd hread
    have hrunning : c.isRunning = true := by
      obtain ⟨connection, hconnection, -⟩ := (Option.any_eq_true _ _).1 hended
      rw [Client.isRunning, hconnection, Option.isSome_some]
    rw [hresult, hsame, hrunning]
    refine ⟨by simp, by simp, by simp, fun _ => ⟨rfl, fun later q' => ?_⟩⟩
    rw [Client.after_of_ended hended]
    exact Client.read_of_ended hended name p q'
  | false =>
    obtain ⟨hsent, hexited⟩ := Client.read_of_open hlaunch hended name q
    have hgone : c'.isRunning = false ↔ c'.connection = none := Option.isSome_eq_false_iff.trans
      Option.isNone_iff_eq_none
    refine ⟨hexited.trans hgone.symm, fun hresult q' => ?_,
      iff_of_false hsent Bool.false_ne_true, fun hresult => absurd hresult hsent⟩
    obtain ⟨started, hstarted⟩ := hlaunch c'.world
    have hnext := Client.read_of_given_up (hexited.1 hresult) hstarted name q'
    refine ⟨started, hstarted, hnext, fun body ready exits hq hreply hready hbody => ?_⟩
    rw [hnext]
    exact Client.read_idle_answered hq name started hreply hready hbody

end

/-! ## A program that ends -/

/-- A program of which the first process prints some lines and ends, and every later one answers
with the capture date of a photo.  Its world counts the processes. -/
def mortalProgram (first : List (List UInt8)) : Program Nat where
  launch n := .ok (n + 1)
  reply n _ :=
    if n = 1 then (⟨first, true⟩, n)
    else (⟨[dateAnswer "2022:02:02 00:00:00", Text.bytes "\x7bready\x7d"], false⟩, n)

/-- A request for the capture date of a photo. -/
def photo : Query :=
  ⟨⟨"b.jpg"⟩, [Tag.captureDate.name]⟩

/-- The first process ends without an answer.  The next call launches another one. -/
theorem recovers_iff_given_up_sample :
    let c := (Client.ofWorld 0).after ⟨"exiftool"⟩ (mortalProgram []) [.call photo]
    c.isRunning = false ∧ ∃ started, (mortalProgram []).launch c.world = .ok started ∧
      (c.read ⟨"exiftool"⟩ (mortalProgram []) photo.path photo.tags).1 =
        verdict [dateAnswer "2022:02:02 00:00:00"] := by
  intro c
  have hlaunch (world : Nat) : ∃ started, (mortalProgram []).launch world = .ok started :=
    ⟨_, rfl⟩
  have hexited : ((Client.ofWorld 0).read ⟨"exiftool"⟩ (mortalProgram [])
      photo.path photo.tags).1 = .error .exited := by rfl
  obtain ⟨hgone, hnext, -⟩ :=
    recovers_iff_given_up hlaunch ⟨"exiftool"⟩ 0 [] photo
  obtain ⟨started, hstarted, -, hanswered⟩ := hnext hexited photo
  obtain rfl : started = 2 := (Except.ok.inj hstarted).symm
  have hplain : photo.IsPlain := photos_plain photo (by simp [photos, photo])
  exact ⟨hgone.1 hexited, 2, hstarted,
    hanswered _ _ false hplain rfl (by decide +kernel) (by decide +kernel)⟩

/-- How calls have failed. -/
def failures (results : List (Except ToolError Tags)) : List (Option ToolError) :=
  results.map fun result =>
    match result with
    | .error e => some e
    | .ok _ => none

/-- The first process answers a call and ends.  The calls that follow fail, though another process
would answer them with the date. -/
theorem no_recovery_in_sending :
    let p := mortalProgram [dateAnswer "2021:01:01 00:00:00", Text.bytes "\x7bready\x7d"]
    (∀ world, ∃ started, p.launch world = .ok started) ∧
    dates (readAll p ⟨"exiftool"⟩ (.ofWorld 0) [photo, photo, photo]).1 =
      [some "2021:01:01 00:00:00", none, none] ∧
    failures (readAll p ⟨"exiftool"⟩ (.ofWorld 0) [photo, photo, photo]).1 =
      [none, some .cannotSend, some .cannotSend] ∧
    dates (readAll p ⟨"exiftool"⟩ (.ofWorld 1) [photo]).1 = [some "2022:02:02 00:00:00"] :=
  ⟨fun world => ⟨world + 1, rfl⟩, by decide +kernel, by decide +kernel, by decide +kernel⟩

end PhotoIntake.Metadata
