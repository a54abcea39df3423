import ComponentAttrs.Command.Line
import ComponentAttrs.Catalog.Scope
import ComponentAttrs.Graph.Dot
import ComponentAttrs.Yaml.Writing
import ComponentAttrs.Json.Writing

/-!
Commands on the catalog of a project. A session reads its settings when it starts and its catalog
when a command first needs it; a catalog that has been read is kept.
-/
namespace ComponentAttrs.Command

open ComponentAttrs.Files ComponentAttrs.Document ComponentAttrs.Project ComponentAttrs.Attribute

structure Session where
  base : Location
  settings : CatalogSettings
  catalogPath : Path
  format : String
  catalog : Option Catalog

/-- One line of the error output: a log record or a message. -/
inductive Notice where
  | log (r : LogRecord)
  | message (s : String)

/-- What a command prints, and its exit code. -/
structure Report where
  code : Nat
  out : String
  notices : List Notice

abbrev Answer := Except Breakdown Report

def Report.after (log : List LogRecord) (r : Report) : Report :=
  { r with notices := log.map .log ++ r.notices }

/-- Choices on the command line go before the settings; an empty format is no choice. -/
def Session.start (files : Tree) (base : Location) (root catalogPath : Option Path)
    (format : Option String) : Except Breakdown (Logged Session) := do
  let root ← match root with
    | some root => .ok root
    | none => (rootHere files base).mapError .path
  let settings ← loadCatalogSettings files base root
  let output ← match format.filter (· ≠ "") with
    | some format => .ok ⟨format, []⟩
    | none => do
      let output ← loadOutputSettings files base root
      .ok (Logged.mk output.value.format output.log)
  .ok
    { value :=
        { base := base
          settings := settings.value
          catalogPath := catalogPath.getD settings.value.path
          format := output.value
          catalog := none }
      log := settings.log ++ output.log }

namespace Session

/-- The catalog, read now unless it has been read before. -/
def loaded (s : Session) (files : Tree) :
    Except LoadFailure (Catalog × Session × List LogRecord) :=
  match s.catalog with
  | some c => .ok (c, s, [])
  | none => do
    let c ← Catalog.load files s.base s.catalogPath
    .ok (c, { s with catalog := some c }, c.loadLog s.catalogPath)

/-- A value in the session's format. -/
def render (s : Session) (v : Value) : Except Breakdown String :=
  if s.format = yamlFormat then
    (Yaml.render v).mapError .unshown
  else
    match Json.strict.render v with
    | .ok text => .ok (text ++ "\n")
    | .error .circular => .error .circular
    | .error (.unshown obstacle) => .error (.unshown obstacle)
    | .error _ => .error .noJson

def emit (s : Session) (code : Nat) (log : List LogRecord) (v : Value) : Answer := do
  .ok ⟨code, ← s.render v, log.map .log⟩

def refusal (doing message : String) : Report :=
  ⟨1, "", [.message ("Error " ++ doing ++ ": " ++ message)]⟩

/-- Runs a command on a component of the catalog. -/
def onCatalog (s : Session) (files : Tree) (doing : String) (component : Option String)
    (answer : Catalog → Option Component → Answer) : Session × Answer :=
  match s.loaded files with
  | .error (.refused e) => (s, .ok (refusal doing e.message))
  | .error (.broken b) => (s, .error b)
  | .ok (c, s, log) =>
    let root : Except CatalogError (Option Component) := match component with
      | none => .ok none
      | some name => (c.require name).map some
    match root with
    | .error e => (s, .ok ((refusal doing e.message).after log))
    | .ok root => (s, (answer c root).map (Report.after log))

def descriptorValue (d : Descriptor Component) : Value := d.toValue Component.name

/-! ## Commands -/

/-- Lists the attributes that a component accepts. -/
def attrs (s : Session) (files : Tree) (component : String) (publicOnly inTemplate : Option Bool) :
    Session × Answer :=
  let publicOnly := publicOnly.getD s.settings.publicOnly.truthy
  let inTemplate := inTemplate.getD s.settings.inTemplate.truthy
  s.onCatalog files "listing attributes" (some component) fun c root =>
    let found := c.scope.attributes root publicOnly inTemplate
    s.emit 0 (logOf c.index.name found.trace)
      (.record [("component", .text component),
        ("attributes", .items (found.value.map descriptorValue))])

/-- Looks one attribute up; the exit code tells whether it was found. -/
def resolve (s : Session) (files : Tree) (component : String) (written : Option String)
    (publicOnly : Option Bool) : Session × Answer :=
  let publicOnly := publicOnly.getD s.settings.publicOnly.truthy
  s.onCatalog files "resolving attribute" (some component) fun c root => do
    let written ← written.elim (.error .noAttribute) .ok
    let found := c.scope.lookUp root written publicOnly
    let d := found.value.descriptor?
    s.emit (if d.isSome then 0 else 1) (c.scope.lookUpLog written found)
      (.record [("component", .text component), ("attribute", .text written),
        ("resolved", .bool d.isSome), ("descriptor", (d.map descriptorValue).getD .null)])

/-- Lists the local components that are visible from a component. -/
def locals (s : Session) (files : Tree) (component : String) : Session × Answer :=
  s.onCatalog files "listing local components" (some component) fun c root =>
    let w := c.scope.offerLocals root (fun found l => (.proceed, found ++ [l])) []
    s.emit 0 (logOf c.index.name w.trace)
      (.record [("component", .text component), ("local_components", .items (w.memory.map
        fun (name, target) => .record [("name", .text name),
          ("component", .optionalText (target.map Component.name))]))])

/-- Shows the composition below a component; without one, what is registered for all components. The
output is plain text, as all output is here: a drawing that holds a half of a pair in a name is
given, though an output stream that takes only strict UTF-8 fails on it. -/
def graph (s : Session) (files : Tree) (component : Option String) (format : String) :
    Session × Answer :=
  s.onCatalog files "generating graph" (component.filter (· ≠ "")) fun c root =>
    let trace := (walk c.index standardLinks root watch ()).trace
    let log := logOf c.index.name trace
    let g := Graph.ofTrace root trace
    if format = dotFormat then
      .ok ⟨0, g.toDot c.index.name Graph.standardTitle ++ "\n", log.map .log⟩
    else s.emit 0 log (g.toValue c.definition)

/-- How an attribute name is taken apart. -/
def parsedValue (written : String) : Value :=
  let g := Grammar.standard
  let token := g.tokenize written
  .record [("attribute", .text written), ("prefix", .optionalText token.lead),
    ("base", .text token.base), ("modifier", .optionalText token.modifier),
    ("bound_name", .optionalText (g.boundName? written)),
    ("allows_no_value", .bool (g.allowsNoValue written))]

/-- Takes an attribute name apart; needs no catalog. -/
def parse (s : Session) (written : Option String) : Answer := do
  s.emit 0 [] (parsedValue (← written.elim (.error .noAttribute) .ok))

end Session

end ComponentAttrs.Command
