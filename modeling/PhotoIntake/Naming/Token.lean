import PhotoIntake.Calendar.Pattern
import PhotoIntake.Image.Basic
import PhotoIntake.Naming.Case
import PhotoIntake.Sequence.Letters

/-!
# Naming tokens

A token is free text or a field.  Fields form a tree: a family holds genera, a genus holds the
fields that differ only in their format.  Every field has a title, the name of its genus with the
name of its format behind it.
-/

namespace PhotoIntake.Naming

/-- What a template renders. -/
inductive Purpose where
  | image
  | destination
  deriving DecidableEq

/-- The date that a date field shows. -/
inductive DateSource where
  | capture
  | today
  | yesterday
  | download
  deriving DecidableEq

/-- The sources whose time of day is known. -/
inductive TimeSource where
  | capture
  | download
  deriving DecidableEq

/-- How a date is written. -/
inductive DateFormat where
  | yearMonthDay
  | yearMonthDayDashed
  | shortYearMonthDay
  | shortYearMonthDayDashed
  | monthDayYear
  | monthDayShortYear
  | monthDay
  | dayMonthYear
  | dayMonthShortYear
  | year
  | shortYear
  | month
  | day
  | monthName
  | monthAbbreviated
  | weekdayName
  | weekdayAbbreviated
  | dayOfYear
  deriving DecidableEq

namespace DateFormat

open Calendar (Field Pattern)

/-- The formats in the order in which they are offered. -/
def all : List DateFormat :=
  [yearMonthDay, yearMonthDayDashed, shortYearMonthDay, shortYearMonthDayDashed, monthDayYear,
    monthDayShortYear, monthDay, dayMonthYear, dayMonthShortYear, year, shortYear, month, day,
    monthName, monthAbbreviated, weekdayName, weekdayAbbreviated, dayOfYear]

/-- The name of the format. -/
def title : DateFormat → String
  | yearMonthDay => "YYYYMMDD"
  | yearMonthDayDashed => "YYYY-MM-DD"
  | shortYearMonthDay => "YYMMDD"
  | shortYearMonthDayDashed => "YY-MM-DD"
  | monthDayYear => "MMDDYYYY"
  | monthDayShortYear => "MMDDYY"
  | monthDay => "MMDD"
  | dayMonthYear => "DDMMYYYY"
  | dayMonthShortYear => "DDMMYY"
  | year => "YYYY"
  | shortYear => "YY"
  | month => "MM"
  | day => "DD"
  | monthName => "Month"
  | monthAbbreviated => "Month abbreviated"
  | weekdayName => "Weekday"
  | weekdayAbbreviated => "Weekday abbreviated"
  | dayOfYear => "Day of year"

/-- The fields of the format. -/
def pattern : DateFormat → Pattern
  | yearMonthDay => [.year, .month, .day]
  | yearMonthDayDashed => [.year, .literal '-', .month, .literal '-', .day]
  | shortYearMonthDay => [.shortYear, .month, .day]
  | shortYearMonthDayDashed => [.shortYear, .literal '-', .month, .literal '-', .day]
  | monthDayYear => [.month, .day, .year]
  | monthDayShortYear => [.month, .day, .shortYear]
  | monthDay => [.month, .day]
  | dayMonthYear => [.day, .month, .year]
  | dayMonthShortYear => [.day, .month, .shortYear]
  | year => [.year]
  | shortYear => [.shortYear]
  | month => [.month]
  | day => [.day]
  | monthName => [.monthName]
  | monthAbbreviated => [.monthAbbreviated]
  | weekdayName => [.weekdayName]
  | weekdayAbbreviated => [.weekdayAbbreviated]
  | dayOfYear => [.dayOfYear]

end DateFormat

/-- How a time of day is written. -/
inductive TimeFormat where
  | hourMinuteSecond
  | hourMinute
  | hourMinuteSecondDashed
  | hourMinuteDashed
  | hour
  | minute
  | second
  deriving DecidableEq

namespace TimeFormat

open Calendar (Field Pattern)

/-- The formats in the order in which they are offered. -/
def all : List TimeFormat :=
  [hourMinuteSecond, hourMinute, hourMinuteSecondDashed, hourMinuteDashed, hour, minute, second]

/-- The name of the format. -/
def title : TimeFormat → String
  | hourMinuteSecond => "HHMMSS"
  | hourMinute => "HHMM"
  | hourMinuteSecondDashed => "HH-MM-SS"
  | hourMinuteDashed => "HH-MM"
  | hour => "HH"
  | minute => "Minutes"
  | second => "Seconds"

/-- The fields of the format. -/
def pattern : TimeFormat → Pattern
  | hourMinuteSecond => [.hour, .minute, .second]
  | hourMinute => [.hour, .minute]
  | hourMinuteSecondDashed => [.hour, .literal '-', .minute, .literal '-', .second]
  | hourMinuteDashed => [.hour, .literal '-', .minute]
  | hour => [.hour]
  | minute => [.minute]
  | second => [.second]

end TimeFormat

/-- How many of the digits that end a file name are shown. -/
inductive DigitCount where
  | all
  | lastOne
  | lastTwo
  | lastThree
  | lastFour
  deriving DecidableEq

namespace DigitCount

/-- The choices in the order in which they are offered. -/
def choices : List DigitCount :=
  [all, lastOne, lastTwo, lastThree, lastFour]

/-- The name of the choice. -/
def title : DigitCount → String
  | all => "All digits"
  | lastOne => "Last digit"
  | lastTwo => "Last 2 digits"
  | lastThree => "Last 3 digits"
  | lastFour => "Last 4 digits"

/-- The number of digits, if it is bounded. -/
def limit? : DigitCount → Option Nat
  | all => none
  | lastOne => some 1
  | lastTwo => some 2
  | lastThree => some 3
  | lastFour => some 4

/-- The last digits of a run, as many as the choice allows. -/
def choose (count : DigitCount) (run : List Char) : List Char :=
  match count.limit? with
  | some n => run.drop (run.length - n)
  | none => run

end DigitCount

/-- The counters of images. -/
inductive Counter where
  | downloadsToday
  | storedNumber
  | sessionNumber
  deriving DecidableEq

/-- The case of sequence letters. -/
inductive LetterCase where
  | upper
  | lower
  deriving DecidableEq

namespace LetterCase

/-- The case policy of the letters. -/
def toCase : LetterCase → Case
  | upper => .upper
  | lower => .lower

end LetterCase

/-- The least number of digits of a counter, less one. -/
abbrev Width := Fin 6

/-- A token that depends on the image, the counters or the day. -/
inductive Field where
  | date (source : DateSource) (format : DateFormat)
  | time (source : TimeSource) (format : TimeFormat)
  | name (case : Case)
  | extension (case : Case)
  | imageNumber (count : DigitCount)
  | counter (counter : Counter) (width : Width)
  | letters (case : LetterCase)
  | session
  deriving DecidableEq

/-- The semantic kind of a field, format apart. -/
inductive Genus where
  | imageDate
  | today
  | yesterday
  | downloadTime
  | name
  | extension
  | imageNumber
  | downloadsToday
  | storedNumber
  | sessionNumber
  | sequenceLetter
  | session
  deriving DecidableEq

/-- A group of genera. -/
inductive Family where
  | dateTime
  | filename
  | sequences
  | session
  deriving DecidableEq

namespace Family

/-- The families in the order in which they are offered. -/
def all : List Family :=
  [dateTime, filename, sequences, session]

/-- The name of the family. -/
def title : Family → String
  | dateTime => "Date time"
  | filename => "Filename"
  | sequences => "Sequences"
  | session => "Session"

/-- The genera of the family. -/
def genera : Family → List Genus
  | dateTime => [.imageDate, .today, .yesterday, .downloadTime]
  | filename => [.name, .extension, .imageNumber]
  | sequences => [.downloadsToday, .storedNumber, .sessionNumber, .sequenceLetter]
  | session => [.session]

/-- Whether templates of the purpose may use the family: numbers do not name folders. -/
def isAllowedIn : Family → Purpose → Bool
  | sequences, .destination => false
  | _, _ => true

end Family

namespace Genus

/-- The genera, family by family. -/
def all : List Genus :=
  Family.all.flatMap Family.genera

/-- The name of the genus. -/
def title : Genus → String
  | imageDate => "Image date"
  | today => "Today"
  | yesterday => "Yesterday"
  | downloadTime => "Download time"
  | name => "Name"
  | extension => "Extension"
  | imageNumber => "Image number"
  | downloadsToday => "Downloads today"
  | storedNumber => "Stored number"
  | sessionNumber => "Session number"
  | sequenceLetter => "Sequence letter"
  | session => "Session"

/-- The family of the genus. -/
def family : Genus → Family
  | imageDate | today | yesterday | downloadTime => .dateTime
  | name | extension | imageNumber => .filename
  | downloadsToday | storedNumber | sessionNumber | sequenceLetter => .sequences
  | session => .session

/-- Whether templates of the purpose may use the genus: neither numbers nor extensions name
folders. -/
def isAllowedIn (genus : Genus) (purpose : Purpose) : Bool :=
  genus.family.isAllowedIn purpose && !(genus == extension && purpose == .destination)

/-- The fields of a date in every format, and of a time of day where it is known. -/
def dateFields (source : DateSource) (time : Option TimeSource) : List Field :=
  DateFormat.all.map (.date source) ++
    match time with
    | some source => TimeFormat.all.map (.time source)
    | none => []

/-- The fields of a counter in every width. -/
def counterFields (counter : Counter) : List Field :=
  (List.finRange 6).map (.counter counter)

/-- The fields of the genus in the order in which they are offered. -/
def fields : Genus → List Field
  | imageDate => dateFields .capture (some .capture)
  | today => dateFields .today none
  | yesterday => dateFields .yesterday none
  | downloadTime => dateFields .download (some .download)
  | name => Case.all.map .name
  | extension => Case.all.map .extension
  | imageNumber => DigitCount.choices.map .imageNumber
  | downloadsToday => counterFields .downloadsToday
  | storedNumber => counterFields .storedNumber
  | sessionNumber => counterFields .sessionNumber
  | sequenceLetter => [.letters .upper, .letters .lower]
  | session => [.session]

end Genus

namespace Field

/-- The fields, genus by genus. -/
def all : List Field :=
  Genus.all.flatMap Genus.fields

/-- The genus of the field. -/
def genus : Field → Genus
  | date .capture _ => .imageDate
  | date .today _ => .today
  | date .yesterday _ => .yesterday
  | date .download _ => .downloadTime
  | time .capture _ => .imageDate
  | time .download _ => .downloadTime
  | name _ => .name
  | extension _ => .extension
  | imageNumber _ => .imageNumber
  | counter .downloadsToday _ => .downloadsToday
  | counter .storedNumber _ => .storedNumber
  | counter .sessionNumber _ => .sessionNumber
  | letters _ => .sequenceLetter
  | session => .session

/-- The name of the format of the field, if it has one. -/
def formatTitle? : Field → Option String
  | date _ format => some format.title
  | time _ format => some format.title
  | name case => some case.title
  | extension case => some case.title
  | imageNumber count => some count.title
  | counter _ width =>
    some (Decimal.text (width + 1) ++ (if width = 0 then " digit" else " digits"))
  | letters case => some case.toCase.title
  | session => none

/-- The title of the field. -/
def title (field : Field) : String :=
  match field.formatTitle? with
  | some format => field.genus.title ++ " (" ++ format ++ ")"
  | none => field.genus.title

/-- The field with the given title. -/
def ofTitle? (title : String) : Option Field :=
  all.find? (·.title == title)

end Field

/-- A unit of a template. -/
inductive Token where
  | text (content : String)
  | field (field : Field)
  deriving DecidableEq

namespace Token

/-- The token of a title: the field of that title, else the title itself as free text. -/
def ofTitle (title : String) : Token :=
  match Field.ofTitle? title with
  | some f => .field f
  | none => .text title

/-- The name of the token: a field's title, free text itself. -/
def name : Token → String
  | text content => content
  | field f => f.title

/-- The token is free text. -/
def isText : Token → Bool
  | text _ => true
  | field _ => false

/-- Whether templates of the purpose may use the token. -/
def isAllowedIn (token : Token) (purpose : Purpose) : Bool :=
  match token with
  | text _ => true
  | field f => f.genus.isAllowedIn purpose

/-- How an editor shows the token: fields between angle brackets. -/
def shown : Token → String
  | text content => content
  | field f => "<" ++ f.title ++ ">"

end Token

end PhotoIntake.Naming
