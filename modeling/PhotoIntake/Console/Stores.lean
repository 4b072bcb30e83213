import PhotoIntake.Console.Desk

/-!
# Commands on counters and on the history
-/

namespace PhotoIntake.Console

open CommandAction

variable {ω : Type}

/-- Remove a file that is there. -/
def removeIfThere (p : Path) : FileAction Unit := do
  if (← get).isThere p then FileAction.removeFile p else pure ()

/-- Start the counters again. -/
def resetSequences (file : Path) : CommandAction ω Unit := do
  onFiles (removeIfThere file).runOn fun _ => .cannotRemove file
  print [.success "Sequences reset"]

/-- Show the durable counters. -/
def showSequences (s : Setting ω) (file : Path) : CommandAction ω Unit := do
  let (counters, _) := (Sequences.ofFile file).snapshot (← files) (s.clock.day 0)
  print [.plain ("Sequences file: " ++ file.text),
    .plain ("  Downloads today: " ++ Decimal.text counters.downloadsToday),
    .plain ("  Stored number:   " ++ Decimal.text counters.storedNumber)]

/-- Open the history, which has to be possible. -/
def requireStore (file : Path) : CommandAction ω HistoryStore :=
  onFiles (HistoryStore.openFile file) fun _ => .cannotOpen file

/-- Forget the images that were downloaded. -/
def resetHistory (file : Path) : CommandAction ω Unit := do
  let store ← requireStore file
  onFiles (fun t => let (result, _, t) := store.reset t; (result, t)) .intake
  print [.success "Previously-downloaded images forgotten"]

/-- Show how many images were downloaded. -/
def showHistory (file : Path) : CommandAction ω Unit := do
  let store ← requireStore file
  print [.plain ("Downloaded database: " ++ file.text),
    .plain ("  Images recorded: " ++ Decimal.text store.history.count)]

end PhotoIntake.Console
