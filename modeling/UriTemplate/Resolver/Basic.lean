import UriTemplate.Resolver.Pattern
import UriTemplate.Value.Expansion
import UriTemplate.Value.Order

/-! # Resolvers

A resolver holds named templates that were loaded from a configuration: a mapping with the
templates' texts under `templates`.  Loading goes through the configuration in its order,
resolves the references of each text and parses the result; the first failure refuses the
whole configuration. -/

namespace UriTemplate

/-- Loaded templates, with the configuration they come from and their patterns. -/
structure Resolver where
  config : Config
  patterns : Patterns
  templates : Entries Value Template

namespace Resolver

/-- The key of a configuration under which the templates stand. -/
def templatesKey : Text := "templates".toText

/-- Parses the pattern of a template.  A prefix length that is too long to be read is not
    a matter of the configuration, and stays a fault of its own. -/
def parsePattern (name : Value) (pattern : Text) : Except Fault Template :=
  match Template.parse pattern with
  | .ok t => .ok t
  | .error (.oversizedLength digits) => .error (.parse (.oversizedLength digits))
  | .error e => do throw (.config (.invalidTemplate (← name.inspect) e))

/-- Loads the template of one entry of the configuration. -/
def add (r : Resolver) (e : Value × Value) : Except Fault Resolver := do
  -- the pattern is there already if an earlier text referred to this one
  let (pattern, patterns) ← match r.patterns.get? e.1 with
    | some pattern => pure (pattern, r.patterns)
    | none => r.config.resolve [] r.patterns e.1 e.2
  let template ← parsePattern e.1 pattern
  return ⟨r.config, patterns, r.templates.put e.1 template⟩

/-- Loads the configured templates in order. -/
def load (config : Config) : Except Fault Resolver :=
  config.foldlM add ⟨config, [], []⟩

/-- Loads the templates of a configuration. -/
def ofValue : Value → Except Fault Resolver
  | .map entries => match Entries.get? (.text templatesKey) entries with
    | some (.map config) => load config
    | _ => .error (.config .noTemplates)
  | _ => .error (.config .noTemplates)

/-- The template of a name. -/
def getTemplate (r : Resolver) (name : Value) : Except Fault Template := do
  -- a name that cannot be a key is a fault of its own
  discard name.key
  match r.templates.get? name with
  | some t => return t
  | none => throw (.config (.unknownTemplate (← name.inspect)))

/-- The pattern of a name. -/
def pattern (r : Resolver) (name : Value) : Except Fault Text := do
  discard (r.getTemplate name)
  match r.patterns.get? name with
  | some p => return p
  | none => throw (.misuse .missingKey)

/-- Expands the template of a name. -/
def expand (r : Resolver) (name fields : Value) : Except Fault Text := do
  let t ← r.getTemplate name
  Value.expandTemplate t fields

/-- The names of the templates in increasing order. -/
def names (r : Resolver) : Except Fault (List Value) := Value.sort r.templates.keys

/-- The inspection form of a resolver shows its configuration. -/
def inspect (r : Resolver) : Except Fault Text := do
  let config ← (Value.map [(.text templatesKey, .map r.config)]).inspect
  return .application "TemplateResolver" [config]

end Resolver

end UriTemplate
