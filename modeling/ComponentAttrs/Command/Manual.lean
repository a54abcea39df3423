/-!
Usage and help texts.
-/
namespace ComponentAttrs.Command

/-- The commands. -/
inductive Verb where
  | attrs
  | resolve
  | locals
  | graph
  | parse
deriving DecidableEq

def Verb.all : List Verb := [.attrs, .resolve, .locals, .graph, .parse]

def Verb.word : Verb → String
  | .attrs => "attrs"
  | .resolve => "resolve"
  | .locals => "locals"
  | .graph => "graph"
  | .parse => "parse"

def Verb.ofWord? (word : String) : Option Verb := Verb.all.find? fun v => v.word = word

/-- The program and each command have a page of their own; none is the program's. -/
abbrev Page := Option Verb

def programName : String := "vueattrs"

def version : String := "0.3.0"

def Page.title : Page → String
  | none => programName
  | some v => programName ++ " " ++ v.word

def lines (ls : List String) : String := String.join (ls.map (· ++ "\n"))

def Page.usageLines : Page → List String
  | none =>
    [ "usage: vueattrs [-h] [--version] [--catalog CATALOG] [--repo REPO]",
      "                [--format \x7bjson,yaml\x7d] [--verbose]",
      "                \x7battrs,resolve,locals,graph,parse\x7d ..." ]
  | some .attrs => ["usage: vueattrs attrs [-h] [--public] [--script] component"]
  | some .resolve => ["usage: vueattrs resolve [-h] [--public] component attribute"]
  | some .locals => ["usage: vueattrs locals [-h] component"]
  | some .graph => ["usage: vueattrs graph [-h] [--format \x7bjson,dot\x7d] [component]"]
  | some .parse => ["usage: vueattrs parse [-h] attribute"]

def operandsHeading : String := "positional arguments:"

def optionsHeading : String := "options:"

def componentLine : String := "  component   Component name in the catalog"

def attributeLine : String := "  attribute   Attribute as written in the template"

def helpLine : String := "  -h, --help  show this help message and exit"

def publicLine : String := "  --public    Only public attributes (props)"

/-- What the help says below the usage. -/
def Page.bodyLines : Page → List String
  | none =>
    [ "vue-attrs - resolve Vue component attributes across mixins and extends",
      "",
      operandsHeading,
      "  \x7battrs,resolve,locals,graph,parse\x7d",
      "                        Commands",
      "    attrs               List attributes a component accepts",
      "    resolve             Resolve one attribute name on a component",
      "    locals              List local sub-components visible from a component",
      "    graph               Export the composition graph",
      "    parse               Show how an attribute name is parsed",
      "",
      optionsHeading,
      "  -h, --help            show this help message and exit",
      "  --version             show program's version number and exit",
      "  --catalog CATALOG     Component catalog YAML (default: catalog.path from",
      "                        config)",
      "  --repo REPO           Project root (default: nearest directory containing",
      "                        .vueattrs/)",
      "  --format \x7bjson,yaml\x7d, -f \x7bjson,yaml\x7d",
      "                        Output format (default: output.format from config,",
      "                        else json)",
      "  --verbose, -v         Enable debug logging",
      "",
      "Examples:",
      "  vueattrs attrs base-input                  List template spellings of all attributes",
      "  vueattrs attrs base-input --script         List script (camelCase) spellings",
      "  vueattrs resolve base-input \":value.sync\"  Resolve one attribute",
      "  vueattrs locals base-input                 Local sub-components, nearest first",
      "  vueattrs graph base-input --format dot     Composition graph for Graphviz",
      "  vueattrs parse \"@click.stop\"               Show prefix, base and modifier",
      "",
      "Configuration is read from .vueattrs/config.yaml in the project root.",
      "        " ]
  | some .attrs =>
    [ operandsHeading, componentLine, "", optionsHeading, helpLine, publicLine,
      "  --script    Script spellings (camelCase) instead of template spellings" ]
  | some .resolve =>
    [operandsHeading, componentLine, attributeLine, "", optionsHeading, helpLine, publicLine]
  | some .locals => [operandsHeading, componentLine, "", optionsHeading, helpLine]
  | some .graph =>
    [ operandsHeading,
      "  component            Root component (omit to show global mixins only)",
      "",
      optionsHeading,
      "  -h, --help           show this help message and exit",
      "  --format \x7bjson,dot\x7d  Graph format (default: json)" ]
  | some .parse => [operandsHeading, attributeLine, "", optionsHeading, helpLine]

def Page.usage (page : Page) : String := lines page.usageLines

def Page.help (page : Page) : String := lines (page.usageLines ++ "" :: page.bodyLines)

def versionLine : String := lines [programName ++ " " ++ version]

/-- The usage and what is wrong, for the error output. -/
def Page.refusal (page : Page) (message : String) : String :=
  page.usage ++ lines [page.title ++ ": error: " ++ message]

end ComponentAttrs.Command
