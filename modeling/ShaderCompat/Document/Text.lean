import ShaderCompat.Document.Options
import ShaderCompat.Json.Format
import ShaderCompat.Json.Reader
import ShaderCompat.Yaml.Format
import ShaderCompat.Yaml.Reader

/-!
# Options from text

Options are read from the text of a JSON or a YAML document. Nothing is checked here but that the
document is one of options; whether they make sense is for `Options.validate`.
-/

namespace ShaderCompat.Options

/-- The options that a document holds, or the complaint that it holds none, as a
`SetupError.unreadable`. -/
def orUnreadable (o : Option Options) (detail : String) : Except SetupError Options :=
  o.elim (.error (.unreadable detail)) .ok

/-- Reads options from a JSON text, by `Json.parse` and `Options.decode`. -/
def ofJson (text : String) : Except SetupError Options :=
  orUnreadable ((Json.parse text).bind (decode Json.format)) "not a JSON document of options"

/-- Reads options from a YAML text, by `Yaml.parse` and `Options.decode`. -/
def ofYaml (text : String) : Except SetupError Options :=
  orUnreadable ((Yaml.parse text).bind (decode Yaml.format)) "not a YAML document of options"

end ShaderCompat.Options
