import PhotoIntake.Naming.Template

/-!
# Builtin templates
-/

namespace PhotoIntake.Naming

/-- The key of the template that names images where none is chosen. -/
def standardImageKey : String := "DATE-TIME"

/-- The key of the template that names folders where none is chosen. -/
def standardDestinationKey : String := "YEAR-MONTH-DAY-SESSION"

/-- Free text and field titles by which the builtin templates are made. -/
def builtin (key name : String) (tokens : List Token) (extension : Case) : Template :=
  { key, name, tokens, extension, isBuiltin := true }

/-- The date of capture in some format. -/
def captured (format : DateFormat) : Token :=
  .field (.date .capture format)

/-- The builtin templates of a purpose, in the order in which they are offered. -/
def builtins : Purpose → List Template
  | .image => [
    builtin standardImageKey "Date and time"
      [captured .yearMonthDay, .text "-", .field (.time .capture .hourMinuteSecond)] .lower,
    builtin "DATE-TIME-NUMBER" "Date, time and image number"
      [captured .yearMonthDay, .text "-", .field (.time .capture .hourMinuteSecond), .text "-",
        .field (.imageNumber .all)] .lower,
    builtin "ORIGINAL" "Original name" [.field (.name .original)] .original]
  | .destination => [
    builtin standardDestinationKey "Year/Year-Month/Year-Month-Day-Session"
      [captured .year, .text "/", captured .year, .text "-", captured .month, .text "/",
        captured .year, .text "-", captured .month, .text "-", captured .day, .text "-",
        .field .session] .lower,
    builtin "YEAR-MONTH" "Year/Year-Month"
      [captured .year, .text "/", captured .year, .text "-", captured .month] .lower]

/-- The key belongs to a builtin template. -/
def isBuiltinKey (purpose : Purpose) (key : String) : Bool :=
  (builtins purpose).any (·.key == key)

end PhotoIntake.Naming
