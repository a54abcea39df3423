/-!
Records of what happened along the way.
-/
namespace ComponentAttrs

inductive Level where
  | debug
  | info
  | warning
deriving DecidableEq

def Level.name : Level → String
  | .debug => "DEBUG"
  | .info => "INFO"
  | .warning => "WARNING"

/-- Parts of the program that keep a log. -/
inductive Channel where
  | walk
  | lookup
  | catalog
  | settings
deriving DecidableEq

def Channel.name : Channel → String
  | .walk => "vueattrs.core.traversal"
  | .lookup => "vueattrs.core.details"
  | .catalog => "vueattrs.catalog.loader"
  | .settings => "vueattrs.utils.config"

/-- What a record says. Where a value cannot be put into words only what leads up to it is known. -/
inductive Wording where
  | whole (text : String)
  | cut (lead : String)
deriving DecidableEq

instance : Coe String Wording := ⟨.whole⟩

structure LogRecord where
  level : Level
  channel : Channel
  message : Wording
deriving DecidableEq

/-- The line of a record that says something. -/
def LogRecord.line? (r : LogRecord) : Option String :=
  match r.message with
  | .whole text => some (r.level.name ++ " " ++ r.channel.name ++ ": " ++ text)
  | .cut _ => none

end ComponentAttrs
