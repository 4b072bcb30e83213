import PhotoIntake.Config.Basic
import PhotoIntake.FileTree.Locate

/-!
# Locations

Where the configuration is looked for, and where the files stand that outlive a run.  Both have
folders below the home folder of the user, unless the environment names others by absolute paths.
-/

namespace PhotoIntake

/-- What the environment says of folders. -/
structure Environment where
  home : Option Path
  configHome : Option Path
  dataHome : Option Path
  deriving DecidableEq

namespace Environment

/-- The name of the folders of the program. -/
def folderName : String :=
  "photo_download_tool"

/-- The folder of the program below a folder that the environment names, or else below one in the
home folder. -/
def folder? (e : Environment) (named : Option Path) (belowHome : List String) : Option Path :=
  let base := (named.filter Path.isAbsolute).or (e.home.map (·.descend belowHome))
  base.map (·.descend [folderName])

/-- The folder of the configuration. -/
def configFolder? (e : Environment) : Option Path :=
  e.folder? e.configHome [".config"]

/-- The folder of the data. -/
def dataFolder? (e : Environment) : Option Path :=
  e.folder? e.dataHome [".local", "share"]

/-- The name of the configuration file. -/
def configName : String :=
  "config.toml"

/-- The file of the configuration in its folder. -/
def configFile? (e : Environment) : Option Path :=
  e.configFolder?.map (·.descend [configName])

/-- The files of the working folder that are taken for a configuration. -/
def localFiles : List Path :=
  [⟨"./config.toml"⟩, ⟨"./photo_download.toml"⟩]

/-- The configuration file that is there: one of the working folder, or the one in its folder. -/
def found? (e : Environment) (t : FileTree) : Option Path :=
  (localFiles.find? t.isThere).or (e.configFile?.filter t.isThere)

/-- The configuration file that is there or would be made. -/
def active (e : Environment) (t : FileTree) : Path :=
  ((e.found? t).or e.configFile?).getD ⟨"./config.toml"⟩

/-- A chosen file, or the one of a name in a folder. -/
def resolve (chosen : Path) (folder : Option Path) (name : String) : Path :=
  if chosen.text.isEmpty then ((folder.map (·.descend [name])).getD ⟨name⟩) else chosen

/-- The file of the sequences. -/
def sequencesFile (e : Environment) (s : Config.Storage) : Path :=
  resolve s.sequences e.dataFolder? "sequences.json"

/-- The file of the templates. -/
def templatesFile (e : Environment) (s : Config.Storage) : Path :=
  resolve s.templates e.configFolder? "naming-templates.json"

/-- The file of the history. -/
def historyFile (e : Environment) (s : Config.Storage) : Path :=
  resolve s.history e.dataFolder? "downloaded.db"

end Environment

end PhotoIntake
