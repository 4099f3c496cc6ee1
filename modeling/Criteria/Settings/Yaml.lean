import Criteria.Json.Codec
import Criteria.Yaml.Document

/-!
This module contains the reading of settings from YAML. A document of settings is a mapping of names to
booleans. An empty document leaves all settings at their defaults.
-/

namespace Criteria.Settings

def readYaml? (text : String) : Option Settings := do
  let entries ← Yaml.read? text
  let members ← entries.mapM fun (key, value) => do return (key.text, Json.bool (← value.bool?))
  ofJson? (.object members)

end Criteria.Settings
