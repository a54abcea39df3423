import ComponentAttrs.Command.Session

/-!
The program as a function of the files, the current directory and the words of the command line.
-/
namespace ComponentAttrs.Command

open ComponentAttrs.Files

/-- What a run of the program leaves behind. -/
structure Printed where
  code : Nat
  out : String
  err : String
deriving DecidableEq

/-- What is printed for a record that cannot be put into words. -/
abbrev Excuse := LogRecord → String

/-- The text of a notice; records below warnings are left out unless the run is verbose. -/
def Notice.text? (excuse : Excuse) (verbose : Bool) : Notice → Option String
  | .message s => some s
  | .log r => if verbose || r.level = .warning then some (r.line?.getD (excuse r)) else none

def errorText (excuse : Excuse) (verbose : Bool) (notices : List Notice) : String :=
  lines (notices.filterMap (Notice.text? excuse verbose))

def Report.printed (excuse : Excuse) (verbose : Bool) (r : Report) : Printed :=
  ⟨r.code, r.out, errorText excuse verbose r.notices⟩

/-- Help and version are not mistakes. -/
def Stop.printed (s : Stop) : Printed :=
  match s.halt with
  | .help => ⟨0, s.page.help, ""⟩
  | .version => ⟨0, versionLine, ""⟩
  | .misuse m => ⟨2, "", s.page.refusal m.message⟩

/-- Choices on the command line win over settings; a choice that is not made leaves it to them. -/
def Session.perform (s : Session) (files : Tree) (p : Particular) : Verb → Session × Answer
  | .attrs =>
    s.attrs files (p.component.getD "") (if p.publicOnly then some true else none)
      (if p.script then some false else none)
  | .resolve =>
    s.resolve files (p.component.getD "") p.written (if p.publicOnly then some true else none)
  | .locals => s.locals files (p.component.getD "")
  | .graph => s.graph files p.component p.graphFormat
  | .parse => (s, s.parse p.written)

/-- A path on the command line; an empty one counts as none. -/
def givenPath (text : Option String) : Option Path := (text.filter (· ≠ "")).map Path.ofString

/-- Without a command the help is shown. -/
def run (excuse : Excuse) (files : Tree) (base : Location) (args : List String) :
    Except Breakdown Printed :=
  match request args with
  | .error stop => .ok stop.printed
  | .ok ⟨_, none⟩ => .ok ⟨0, Page.help none, ""⟩
  | .ok ⟨general, some (verb, p)⟩ => do
    let session ← Session.start files base (givenPath general.root) (givenPath general.catalog)
      general.format
    let report ← (session.value.perform files p verb).2
    .ok ((report.after session.log).printed excuse general.verbose)

end ComponentAttrs.Command
