import ScriptLens.Unicode.Ranges

/-! Characters that separate words or join them: white space, connectors and joiners. -/

namespace ScriptLens.Unicode

def whiteSpace : Ranges :=
  [(0x9, 0xD), (0x20, 0x20), (0x85, 0x85), (0xA0, 0xA0), (0x1680, 0x1680), (0x2000, 0x200A),
   (0x2028, 0x2029), (0x202F, 0x202F), (0x205F, 0x205F), (0x3000, 0x3000)]

/-- Connector punctuation (Pc), of which the underscore is the usual one. -/
def connector : Ranges :=
  [(0x5F, 0x5F), (0x203F, 0x2040), (0x2054, 0x2054), (0xFE33, 0xFE34), (0xFE4D, 0xFE4F),
   (0xFF3F, 0xFF3F)]

def joinControl : Ranges :=
  [(0x200C, 0x200D)]

end ScriptLens.Unicode
