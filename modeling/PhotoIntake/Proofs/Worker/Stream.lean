import PhotoIntake.Proofs.Download.Messages
import PhotoIntake.Proofs.Metadata.Messages
import PhotoIntake.Proofs.Source.Messages
import PhotoIntake.Proofs.Text.Lines
import PhotoIntake.Worker.Channel

/-!
# What a stream carries

An outlet writes one line a message as long as the stream takes them, and gives up for good when it
does not.  The other end reads line by line: a text that is no message is skipped, a line that is no
text ends the stream.

* `received_before_broken_line`: what is received from any stream of bytes.
* `stream_carries_accepted`: what is received from a stream that an outlet has written.
-/

namespace PhotoIntake

/-- The bytes are a text. -/
def Text.isText (bytes : List UInt8) : Bool :=
  (ofBytes? bytes).isSome

/-- The message of the bytes of a line. -/
def Message.ofBytes? {M : Type} [Message M] (bytes : List UInt8) : Option M :=
  (Text.ofBytes? bytes).bind ofLine?

namespace Channel

variable {M : Type} [Message M]

/-! ## Receiving -/

section

open Text (lines isText lineFeed)

/-- The messages are those of the lines in front of the first one that is no text. -/
theorem receiveLines_eq (given : List (List UInt8)) :
    (receiveLines given : List M) = (given.takeWhile isText).filterMap Message.ofBytes? := by
  induction given with
  | nil => rfl
  | cons bytes rest ih =>
    rw [receiveLines, List.takeWhile_cons]
    cases htext : Text.ofBytes? bytes with
    | none => simp [isText, htext]
    | some line =>
      have hmessage : (Message.ofBytes? bytes : Option M) = Message.ofLine? line := by
        rw [Message.ofBytes?, htext, Option.bind_some]
      cases hread : (Message.ofLine? line : Option M) <;>
        simp [isText, htext, hread, hmessage, ih]

/-- The bytes end with a line feed, if there are any. -/
def EndsLine (bytes : List UInt8) : Prop :=
  ∀ b ∈ bytes.getLast?, b = lineFeed

/-- Whole lines stay lines whatever follows. -/
theorem lines_append_of_endsLine {first : List UInt8} (h : EndsLine first) (rest : List UInt8) :
    lines (first ++ rest) = lines first ++ lines rest := by
  induction first with
  | nil => rfl
  | cons b first ih =>
    cases first with
    | nil =>
      obtain rfl := h b rfl
      rfl
    | cons c first =>
      have hrest : EndsLine (c :: first) := fun d hd => h d (by rwa [List.getLast?_cons_cons])
      have hne : lines (c :: first) ≠ [] := by
        rw [lines]
        split_ifs
        · simp
        · split <;> simp
      rw [List.cons_append, lines, lines, ih hrest]
      split_ifs
      · rfl
      · cases hfirst : lines (c :: first) with
        | nil => exact absurd hfirst hne
        | cons line others => rfl

/-- What is received from a stream: the messages of the lines before the first one that is no text,
in their order.  The messages behind that line are the ones that are lost.  A line that is a text
but no message could as well be missing. -/
theorem received_before_broken_line (stream : List UInt8) :
    (receive stream : List M) = ((lines stream).takeWhile isText).filterMap Message.ofBytes? ∧
    (lines stream).filterMap Message.ofBytes? = (receive stream : List M) ++
      ((lines stream).dropWhile isText).filterMap Message.ofBytes? ∧
    ∀ first skipped rest, EndsLine first → stream = first ++ (skipped ++ lineFeed :: rest) →
      lineFeed ∉ skipped → isText skipped = true → (Message.ofBytes? skipped : Option M) = none →
      (receive stream : List M) = receive (first ++ rest) := by
  have hreceive (s : List UInt8) :
      (receive s : List M) = ((lines s).takeWhile isText).filterMap Message.ofBytes? :=
    receiveLines_eq _
  refine ⟨hreceive stream, ?_, ?_⟩
  · rw [hreceive, ← List.filterMap_append, List.takeWhile_append_dropWhile]
  · rintro first skipped rest hfirst rfl hfeed htext hmessage
    rw [hreceive, hreceive, lines_append_of_endsLine hfirst, lines_append_of_endsLine hfirst,
      Text.lines_append hfeed, List.takeWhile_append, List.takeWhile_append,
      List.takeWhile_cons_of_pos htext]
    split_ifs
    · rw [List.filterMap_append, List.filterMap_append, List.filterMap_cons_none hmessage]
    · rfl

/-- Two commands with a line between them that is no text. -/
def brokenStream : List UInt8 :=
  Text.bytes "\x7b\"Run\":\"Cancel\"\x7d\n" ++ 255 :: Text.bytes "\n\x7b\"Run\":\"Download\"\x7d\n"

/-- A line that is no text ends the stream, and the command behind it is lost. -/
theorem received_not_behind_broken_line :
    receive brokenStream = [Request.run Mover.Command.cancel] ∧
    (lines brokenStream).filterMap Message.ofBytes? =
      [Request.run Mover.Command.cancel, Request.run Mover.Command.download] := by
  decide +kernel

end

/-! ## Sending -/

namespace Outlet

/-- Send messages one after the other: whether each was delivered, and the outlet behind them. -/
def sendAll (o : Outlet) : List M → List Bool × Outlet
  | [] => ([], o)
  | m :: rest =>
    let (delivered, o) := o.send m
    let (answers, o) := o.sendAll rest
    (delivered :: answers, o)

theorem sendAll_of_isClosed {o : Outlet} (h : o.isClosed = true) (messages : List M) :
    o.sendAll messages = (List.replicate messages.length false, o) := by
  induction messages with
  | nil => rfl
  | cons m rest ih =>
    have hsend : o.send m = (false, o) := if_pos h
    simp only [sendAll, hsend, ih]
    rfl

/-- As many messages are written as the stream takes, each with a line break behind it. -/
theorem sendAll_of_open {o : Outlet} (h : o.isClosed = false) (messages : List M) :
    (o.sendAll messages).1 = List.replicate (min o.capacity messages.length) true ++
      List.replicate (messages.length - o.capacity) false ∧
    (o.sendAll messages).2.written =
      o.written ++ String.join ((messages.take o.capacity).map fun m => Message.line m ++ "\n") := by
  induction messages generalizing o with
  | nil => simp [sendAll]
  | cons m rest ih =>
    obtain ⟨written, capacity, isClosed⟩ := o
    obtain rfl : isClosed = false := h
    cases capacity with
    | zero =>
      have hsend : send ⟨written, 0, false⟩ m = (false, ⟨written, 0, true⟩) := rfl
      have hrest := sendAll_of_isClosed (o := ⟨written, 0, true⟩) rfl rest
      simp [sendAll, hsend, hrest, List.replicate_succ]
    | succ capacity =>
      let next : Outlet := ⟨written ++ Message.line m ++ "\n", capacity, false⟩
      have hcons : sendAll ⟨written, capacity + 1, false⟩ (m :: rest) =
          (true :: (next.sendAll rest).1, (next.sendAll rest).2) := rfl
      obtain ⟨hanswers, hwritten⟩ := ih (o := next) rfl
      rw [hcons]
      refine ⟨?_, ?_⟩
      · simp only [hanswers, next, List.length_cons, Nat.add_min_add_right, Nat.add_sub_add_right,
          List.replicate_succ, List.cons_append]
      · rw [hwritten, List.take_succ_cons, List.map_cons, String.join_cons]
        simp only [next, String.append_assoc]

end Outlet

/-! ## The messages that arrive -/

theorem codes_request {C : Type} [Message C]
    (h : ∀ c : C, Json.Codes Message.ofJson? (Message.toJson c) c) (request : Request C) :
    Json.Codes Message.ofJson? (Message.toJson request) request := by
  change Json.Codes Request.ofJson? request.toJson request
  cases request with
  | stop => exact ⟨rfl, rfl⟩
  | run c =>
    exact ⟨by simp [Request.toJson, (h c).isProper],
      by simp [Request.toJson, Request.ofJson?, (h c).read_eq]⟩

/-- The kinds of messages that go over a stream. -/
inductive Kind where
  | moverRequest
  | moverEvent
  | scannerRequest
  | scannerEvent
  | loaderCommand
  | loaderRequest
  | loaderEvent

namespace Kind

/-- The messages of a kind. -/
def Content : Kind → Type
  | moverRequest => Request Mover.Command
  | moverEvent => Mover.Event
  | scannerRequest => Request Scanner.Command
  | scannerEvent => Scanner.Event
  | loaderCommand => Metadata.Loader.Command
  | loaderRequest => Request Metadata.Loader.Command
  | loaderEvent => Metadata.Loader.Event

instance (k : Kind) : Message k.Content :=
  match k with
  | moverRequest => inferInstanceAs (Message (Request Mover.Command))
  | moverEvent => inferInstanceAs (Message Mover.Event)
  | scannerRequest => inferInstanceAs (Message (Request Scanner.Command))
  | scannerEvent => inferInstanceAs (Message Scanner.Event)
  | loaderCommand => inferInstanceAs (Message Metadata.Loader.Command)
  | loaderRequest => inferInstanceAs (Message (Request Metadata.Loader.Command))
  | loaderEvent => inferInstanceAs (Message Metadata.Loader.Event)

/-- The numbers of a message are those of its fields: counts of 64 bits, a rotation of 32 bits and
a finite aspect ratio. -/
def Fits : (k : Kind) → k.Content → Prop
  | moverEvent, (event : Mover.Event) => event.Fits
  | scannerEvent, (event : Scanner.Event) => event.Fits
  | loaderEvent, (event : Metadata.Loader.Event) => event.Fits
  | _, _ => True

/-- Two messages are the same, the aspect ratio of a thumbnail apart. -/
def Same : (k : Kind) → k.Content → k.Content → Prop
  | loaderEvent, (sent : Metadata.Loader.Event), received => sent.Same received
  | _, sent, received => sent = received

theorem exists_codes (k : Kind) {m : k.Content} (h : k.Fits m) :
    ∃ read, k.Same m read ∧ Json.Codes Message.ofJson? (Message.toJson m) read := by
  cases k with
  | moverRequest => exact ⟨m, rfl, codes_request Mover.Command.codes m⟩
  | moverEvent => exact ⟨m, rfl, Mover.Event.codes h⟩
  | scannerRequest => exact ⟨m, rfl, codes_request Scanner.Command.codes m⟩
  | scannerEvent => exact ⟨m, rfl, Scanner.Event.codes h⟩
  | loaderCommand => exact ⟨m, rfl, Metadata.Loader.Command.codes m⟩
  | loaderRequest => exact ⟨m, rfl, codes_request Metadata.Loader.Command.codes m⟩
  | loaderEvent => exact Metadata.Loader.Event.exists_codes h

end Kind

/-- Lines of messages are read as the messages that they stand for. -/
theorem forall₂_receiveLines {same : M → M → Prop} {messages : List M}
    (h : ∀ m ∈ messages, ∃ read, same m read ∧ Json.Codes Message.ofJson? (Message.toJson m) read) :
    List.Forall₂ same messages (receiveLines (messages.map fun m => Text.bytes (Message.line m))) := by
  induction messages with
  | nil => exact .nil
  | cons m rest ih =>
    obtain ⟨read, hsame, hcodes⟩ := h m List.mem_cons_self
    have hline : Message.ofLine? (Message.line m) = some read := by
      rw [Message.ofLine?, Message.line, Json.read?_write hcodes.isProper, Option.bind_some,
        hcodes.read_eq]
    rw [List.map_cons, receiveLines, Text.ofBytes?_bytes]
    simp only [hline]
    exact .cons hsame (ih fun m' hm' => h m' (List.mem_cons_of_mem m hm'))

/-- A stream carries exactly the messages that were accepted.  An outlet to a stream that takes `n`
messages answers true for the first `n` and false for all later ones; it writes each of the accepted
ones as one line; and the other end receives these messages, in their order, and no other. -/
theorem stream_carries_accepted (k : Kind) (messages : List k.Content)
    (hfits : ∀ m ∈ messages, k.Fits m) (n : Nat) :
    let (answers, o) := (Outlet.ofCapacity n).sendAll messages
    answers = List.replicate (min n messages.length) true ++
      List.replicate (messages.length - n) false ∧
    o.written = String.join ((messages.take n).map fun m => Message.line m ++ "\n") ∧
    (∀ m ∈ messages.take n, '\n' ∉ (Message.line m).toList) ∧
    List.Forall₂ k.Same (messages.take n) (receive (Text.bytes o.written)) := by
  obtain ⟨hanswers, hopened⟩ := Outlet.sendAll_of_open (o := Outlet.ofCapacity n) rfl messages
  have hwritten : ((Outlet.ofCapacity n).sendAll messages).2.written =
      String.join ((messages.take n).map fun m => Message.line m ++ "\n") :=
    hopened.trans String.empty_append
  have hcodes : ∀ m ∈ messages.take n, ∃ read, k.Same m read ∧
      Json.Codes Message.ofJson? (Message.toJson m) read :=
    fun m hm => k.exists_codes (hfits m (List.mem_of_mem_take hm))
  have hline : ∀ m ∈ messages.take n, '\n' ∉ (Message.line m).toList := fun m hm => by
    obtain ⟨read, -, hcodes⟩ := hcodes m hm
    exact Json.lineBreak_not_mem_write hcodes.isProper
  refine ⟨hanswers, hwritten, hline, ?_⟩
  have hlines : Text.lines (Text.bytes (String.join
      ((messages.take n).map fun m => Message.line m ++ "\n"))) =
        (messages.take n).map fun m => Text.bytes (Message.line m) := by
    have htexts : ∀ s ∈ (messages.take n).map Message.line, '\n' ∉ s.toList := fun s hs => by
      obtain ⟨m, hm, rfl⟩ := List.mem_map.1 hs
      exact hline m hm
    have hjoin := Text.lines_bytes_join htexts
    rwa [List.map_map, List.map_map] at hjoin
  have hreceived : (receive (Text.bytes ((Outlet.ofCapacity n).sendAll messages).2.written) :
      List k.Content) = receiveLines ((messages.take n).map fun m => Text.bytes (Message.line m)) := by
    rw [hwritten, receive, hlines]
  rw [hreceived]
  exact forall₂_receiveLines hcodes

/-- A thumbnail goes over a stream that takes one message, and a date behind it is refused. -/
theorem stream_carries_accepted_sample :
    let first : Kind.loaderEvent.Content :=
      Metadata.Loader.Event.thumbnail "a\n.jpg" ⟨some [255, 0], 1.5, -90⟩
    let second : Kind.loaderEvent.Content := Metadata.Loader.Event.captured "b.jpg" .fallback
    let (answers, o) := (Outlet.ofCapacity 1).sendAll [first, second]
    (∀ m ∈ [first, second], Kind.loaderEvent.Fits m) ∧ answers = [true, false] ∧
      List.Forall₂ Kind.loaderEvent.Same [first] (receive (Text.bytes o.written)) := by
  intro first second
  have hfits : ∀ m ∈ [first, second], Kind.loaderEvent.Fits m := by
    intro m hm
    rcases List.mem_cons.1 hm with rfl | hm
    · exact Metadata.Thumbnail.Fits.mk (by decide +kernel) (by decide)
    · obtain rfl := List.mem_singleton.1 hm
      trivial
  obtain ⟨hanswers, -, -, hreceived⟩ :=
    stream_carries_accepted Kind.loaderEvent [first, second] hfits 1
  exact ⟨hfits, hanswers, hreceived⟩

end Channel

end PhotoIntake
