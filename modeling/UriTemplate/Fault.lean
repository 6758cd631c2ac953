import UriTemplate.Expansion
import UriTemplate.Template.Cursor
import UriTemplate.Text.Placeholder

/-! # Faults

Everything that can go wrong, as one type: the errors of the parts of this library, the
refusal of values of the wrong type, and misuse of a value in a way that its kind does not
support.  Faults are sorted into kinds, and the kinds of the library's own errors form a
hierarchy, so that a caller can ask for any error of a group. -/

namespace UriTemplate

/-- The kinds of faults.  The first one holds them all, and the next eight are the library's
    own. -/
inductive ErrorKind where
  | any
  | uriTemplate
  | parse
  | templateSyntax
  | format
  | expansion
  | config
  | missingTemplate
  | templateValidation
  | type
  | value
  | attribute
  | key
  | index
  | notImplemented
  | unicodeEncode
deriving DecidableEq

namespace ErrorKind

/-- The more general kinds that a kind belongs to, the nearest first. -/
def ancestors : ErrorKind → List ErrorKind
  | any => []
  | parse => [uriTemplate, any]
  | templateSyntax => [parse, uriTemplate, any]
  | format => [uriTemplate, any]
  | expansion => [format, uriTemplate, any]
  | config => [uriTemplate, any]
  | missingTemplate => [config, uriTemplate, any]
  | templateValidation => [config, uriTemplate, any]
  | unicodeEncode => [value, any]
  | _ => [any]

/-- Whether faults of the first kind are faults of the second kind. -/
def isA (k of : ErrorKind) : Bool := k == of || k.ancestors.contains of

end ErrorKind

/-- Why a configuration is refused. -/
inductive ConfigError where
  /-- There is no mapping of templates. -/
  | noTemplates
  /-- The path to the configuration is not set, or leads nowhere. -/
  | noEnvironment (path : Option Text)
  /-- A template is not a text. -/
  | notText (name value : Text)
  /-- The text of a template, after substitution, does not parse. -/
  | invalidTemplate (name : Text) (cause : ParseError)
  /-- There is no template of that name. -/
  | unknownTemplate (name : Text)
deriving DecidableEq

/-- The wording of a refusal. -/
def ConfigError.message : ConfigError → Text
  | noTemplates => "Configuration requires a 'templates' mapping".toText
  | noEnvironment path =>
    "Invalid environment path for uritmpl configuration: URITMPL_CONFIG=".toText ++
      path.getD "None".toText
  | notText name value =>
    "Template ".toText ++ name ++ " must be a string: ".toText ++ value
  | invalidTemplate name cause =>
    "Invalid template ".toText ++ name ++ ": ".toText ++ cause.message
  | unknownTemplate name => "Unknown template: ".toText ++ name

/-- A value of a type that does not serve, as messages show it. -/
inductive TypeMismatch where
  | unparsable (type : Text)
  | atomNotText (value : Text)
  | listNotText (value : Text)
  | assocNotText (key value : Text)
  | unsupported (value : Text)
deriving DecidableEq

/-- The wording of a mismatch. -/
def TypeMismatch.message : TypeMismatch → Text
  | unparsable type => "Cannot parse unsupported datatype: ".toText ++ type
  | atomNotText value => "Atom values must be strings: ".toText ++ value
  | listNotText value => "List values must be strings: ".toText ++ value
  | assocNotText key value =>
    "Assoc keys and values must be strings: ".toText ++ key ++ ": ".toText ++ value
  | unsupported value => "Unsupported variable value: ".toText ++ value

/-- A use that a value does not support.  Only its kind is reported. -/
inductive Misuse where
  /-- The members of a value without members. -/
  | notIterable
  /-- Something else than two members where a pair is needed. -/
  | notAPair
  /-- A key that cannot be a key. -/
  | unhashable
  /-- A key that is not there. -/
  | missingKey
  /-- An order between values that have none. -/
  | unorderable
  /-- A value where only a text can be used. -/
  | notText
  /-- A property that the value does not have. -/
  | missingAttribute
  /-- A property that the abstract kinds leave open. -/
  | abstract
  /-- A text that has to be encoded and holds a surrogate. -/
  | unencodable (cause : Unencodable)
  /-- A text that is no number where a number is read. -/
  | notANumber
  /-- An integer with too many digits to be read or written. -/
  | oversized
  /-- A text with places to fill, where there is nothing to fill them with. -/
  | unfilled (cause : Text.PlaceholderError)
deriving DecidableEq

/-- Anything that can go wrong. -/
inductive Fault where
  | parse (e : ParseError)
  | expansion (e : ExpansionError)
  | invalid (e : ValidationError)
  | config (e : ConfigError)
  | mistyped (e : TypeMismatch)
  | misuse (m : Misuse)
deriving DecidableEq

namespace Fault

/-- The kind of a fault. -/
def kind : Fault → ErrorKind
  | parse (.oversizedLength _) => .value
  | parse _ => .templateSyntax
  | expansion (.foreign _) => .attribute
  | expansion .oversizedLength => .value
  | expansion (.rendering _ .shapeless) => .notImplemented
  | expansion _ => .expansion
  | invalid _ => .templateValidation
  | config (.unknownTemplate _) => .missingTemplate
  | config _ => .config
  | mistyped _ => .type
  | misuse .notIterable => .type
  | misuse .notAPair => .value
  | misuse .unhashable => .type
  | misuse .missingKey => .key
  | misuse .unorderable => .type
  | misuse .notText => .type
  | misuse .missingAttribute => .attribute
  | misuse .abstract => .notImplemented
  | misuse (.unencodable _) => .unicodeEncode
  | misuse .notANumber => .value
  | misuse .oversized => .value
  | misuse (.unfilled .malformed) => .value
  | misuse (.unfilled .numbered) => .index
  | misuse (.unfilled .overflowing) => .value
  | misuse (.unfilled .named) => .key

/-- The message of a fault, where the library words it. -/
def message? (f : Fault) : Option Text :=
  match f with
  | parse e => if f.kind = .templateSyntax then some e.message else none
  | expansion e => if f.kind = .expansion then some e.message else none
  | invalid e => some e.message
  | config e => some e.message
  | mistyped e => some e.message
  | misuse _ => none

end Fault

end UriTemplate
