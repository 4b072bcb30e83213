import PhotoIntake.Naming.Token

/-!
# Rendering tokens

What a token writes for an image, given the counters and the time of the download.
-/

namespace PhotoIntake

/-- The values of the counters at one moment. -/
structure Counters where
  downloadsToday : Nat
  storedNumber : Nat
  sessionNumber : Nat
  deriving DecidableEq

namespace Counters

/-- The counters before the first image of all. -/
def first : Counters :=
  ⟨0, 1, 1⟩

/-- The letters that stand for the session number. -/
def letters (c : Counters) : String :=
  Sequence.letters c.sessionNumber

/-- The counters some images later. -/
def advance (c : Counters) (images : Nat) : Counters :=
  ⟨c.downloadsToday + images, c.storedNumber + images, c.sessionNumber + images⟩

end Counters

namespace Naming

/-- What a name depends on besides its template. -/
structure Occasion where
  image : Image
  counters : Counters
  time : Calendar.DateTime

namespace Occasion

/-- The date-time that a date field shows.  The calendar's first day stands in for the day before
it. -/
def dateOf (o : Occasion) : DateSource → Calendar.DateTime
  | .capture => o.image.captureTime
  | .today => o.time
  | .yesterday => o.time.dayBefore?.getD o.time
  | .download => o.time

/-- The date-time whose time of day a field shows. -/
def timeOf (o : Occasion) : TimeSource → Calendar.DateTime
  | .capture => o.image.captureTime
  | .download => o.time

/-- The value that a counter shows.  Today's count includes the image that is being named. -/
def countOf (o : Occasion) : Counter → Nat
  | .downloadsToday => o.counters.downloadsToday + 1
  | .storedNumber => o.counters.storedNumber
  | .sessionNumber => o.counters.sessionNumber

end Occasion

namespace Field

/-- What the field writes. -/
def render (o : Occasion) : Field → String
  | date source format => format.pattern.text (o.dateOf source)
  | time source format => format.pattern.text (o.timeOf source)
  | name case => case.apply o.image.stem
  | extension case => case.apply (String.ofList (o.image.extension.toList.dropWhile (· == '.')))
  | imageNumber count =>
    String.ofList (count.choose (Decimal.trailingDigits o.image.stem.toList))
  | counter c width => Decimal.padded (width + 1) (o.countOf c)
  | letters case => case.toCase.apply o.counters.letters
  | session => o.image.session

/-- The field has something to show: only the day before the calendar's first day is missing. -/
def hasMeaning (o : Occasion) : Field → Bool
  | date .yesterday _ => o.time.dayBefore?.isSome
  | _ => true

end Field

namespace Token

/-- What the token writes. -/
def render (o : Occasion) : Token → String
  | text content => content
  | field f => f.render o

/-- The token has something to show. -/
def hasMeaning (o : Occasion) : Token → Bool
  | text _ => true
  | field f => f.hasMeaning o

end Token

end Naming

end PhotoIntake
