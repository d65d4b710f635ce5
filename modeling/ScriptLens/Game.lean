import ScriptLens.Foreign.Index
import ScriptLens.Localization.Texts
import ScriptLens.Schema.Index
import ScriptLens.Settings.Basic

/-! What is known of the game: its schema, its texts and its foreign functions, read from files. -/

namespace ScriptLens

structure Game where
  schema : SchemaIndex
  texts : LocalizedTexts
  foreign : ForeignIndex
  deriving DecidableEq

namespace Game

/-- A game without a schema to read has an empty one. -/
def load (tree : FileTree) (settings : Settings) (paths : GamePaths) : Game where
  schema := (SchemaIndex.load? tree paths.schema paths.libraries).getD .empty
  texts := .load tree (LocalizedTexts.folders tree paths.unpacked paths.extensions)
    settings.languageNumber settings.limitLanguageOutput
  foreign := .load tree paths.ui

def summary (game : Game) : Text :=
  "Loaded ".toList ++ Text.ofNat game.schema.schema.keywords.length ++
    " keywords, ".toList ++ Text.ofNat game.schema.schema.datatypes.length ++
    " datatypes, ".toList ++ Text.ofNat game.texts.entries.size ++
    " localized texts and ".toList ++ Text.ofNat game.foreign.functions.size ++
    " Lua functions".toList

end Game

end ScriptLens
