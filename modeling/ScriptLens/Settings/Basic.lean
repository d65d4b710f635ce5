import ScriptLens.FileTree

/-!
Settings. Each has a key, under which a client sends it; two of them tell where the files of the
game are, and nothing can be loaded before both are set.
-/

namespace ScriptLens

/-- The settings in the order in which they are declared. -/
inductive Setting where
  | unpackedFileLocation
  | extensionsFolder
  | languageNumber
  | limitLanguageOutput
  | exceedinglyVerbose
  deriving DecidableEq, Repr

namespace Setting

def all : List Setting :=
  [.unpackedFileLocation, .extensionsFolder, .languageNumber, .limitLanguageOutput,
    .exceedinglyVerbose]

def byKey : List Setting :=
  [.exceedinglyVerbose, .extensionsFolder, .languageNumber, .limitLanguageOutput,
    .unpackedFileLocation]

def key : Setting → Text
  | .unpackedFileLocation => "unpackedFileLocation".toList
  | .extensionsFolder => "extensionsFolder".toList
  | .languageNumber => "languageNumber".toList
  | .limitLanguageOutput => "limitLanguageOutput".toList
  | .exceedinglyVerbose => "exceedinglyVerbose".toList

end Setting

structure GamePaths where
  unpacked : Text
  extensions : Text
  deriving DecidableEq, Repr

namespace GamePaths

def libraries (paths : GamePaths) : Text :=
  Path.join paths.unpacked "libraries".toList

def schema (paths : GamePaths) : Text :=
  Path.join paths.libraries "scriptproperties.xml".toList

def ui (paths : GamePaths) : Text :=
  Path.join paths.unpacked "ui".toList

end GamePaths

/-- The values of the settings; at first each has its default. -/
structure Settings where
  unpackedFileLocation : Option Text := none
  extensionsFolder : Option Text := none
  languageNumber : Text := "44".toList
  limitLanguageOutput : Bool := false
  exceedinglyVerbose : Bool := false
  deriving DecidableEq, Repr

namespace Settings

def standard : Settings := {}

/-- An empty path is as good as none. -/
def present? (path : Option Text) : Option Text :=
  path.filter fun p => !p.isEmpty

def missing (s : Settings) : List Setting :=
  (if (present? s.unpackedFileLocation).isNone then [.unpackedFileLocation] else []) ++
    (if (present? s.extensionsFolder).isNone then [.extensionsFolder] else [])

/-- The paths of the game, or the first setting that is missing for them. -/
def paths (s : Settings) : Except Setting GamePaths :=
  match present? s.unpackedFileLocation, present? s.extensionsFolder with
  | some unpacked, some extensions => .ok { unpacked, extensions }
  | none, _ => .error .unpackedFileLocation
  | some _, none => .error .extensionsFolder

end Settings

end ScriptLens
