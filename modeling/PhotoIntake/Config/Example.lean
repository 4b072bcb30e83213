/-!
# The commented configuration

The file that is made for a user who has none: every setting with its standard value and a word on
what it does.
-/

namespace PhotoIntake.Config

/-- The lines of the commented configuration. -/
def exampleLines : List String :=
  [
    "# Photo Download Tool configuration",
    "#",
    "# Copy this file to one of:",
    "#   ./config.toml",
    "#   ./photo_download.toml",
    "#   ~/.config/photo_download_tool/config.toml   (Linux/macOS)",
    "#   %APPDATA%\\photo_download_tool\\config.toml   (Windows)",
    "",
    "[download]",
    "# Root folder the destination template is rendered under.",
    "# Leave empty to pass it with --destination.",
    "destination = \"\"",
    "",
    "# Scan subdirectories of the source folder",
    "include_subdirs = true",
    "",
    "# Naming template keys (see `photo-downloader templates`)",
    "image_template = \"DATE-TIME\"",
    "destination_template = \"YEAR-MONTH-DAY-SESSION\"",
    "",
    "# Session label used by the \"Session\" token",
    "session = \"\"",
    "",
    "# \"copy\" leaves the card untouched, \"move\" removes downloaded files from it",
    "transfer = \"copy\"",
    "",
    "# Deselect images already recorded in the previously-downloaded database",
    "skip_previously_downloaded = true",
    "",
    "[scanner]",
    "# Number of images per batch sent by the scanner",
    "batch_size = 500",
    "",
    "[workers]",
    "# \"process\" runs each worker in its own child process,",
    "# \"thread\" runs them inside the main process",
    "hosting = \"process\"",
    "",
    "# Channel poll interval (milliseconds)",
    "poll_interval_ms = 10",
    "",
    "# Grace period before a stopping worker is killed (milliseconds)",
    "stop_timeout_ms = 250",
    "",
    "# Program launched for worker processes (empty = this executable)",
    "program = \"\"",
    "",
    "[exiftool]",
    "# Path or name of the exiftool executable",
    "program = \"exiftool\"",
    "",
    "[storage]",
    "# Empty paths use the platform data and config directories",
    "sequences_file = \"\"",
    "templates_file = \"\"",
    "downloaded_db = \"\"",
    "",
    "[logging]",
    "# Log level: error, warn, info, debug, trace",
    "level = \"info\"",
    "",
    "# Mirror log output to a file",
    "log_to_file = false",
    "log_file = \"./photo_download.log\""]

/-- The text of the commented configuration. -/
def exampleText : String :=
  String.join (exampleLines.map (· ++ "\n"))

end PhotoIntake.Config
