import ComponentAttrs.Command.Options
import ComponentAttrs.Command.Manual
import ComponentAttrs.Project.Settings

/-!
The command line of the program: choices for all commands, then a command with choices of its own.
-/
namespace ComponentAttrs.Command

open ComponentAttrs.Project

/-- Choices that hold for all commands. -/
structure General where
  catalog : Option String
  root : Option String
  format : Option String
  verbose : Bool
  /-- The command and the words that belong to it. -/
  command : Option (String × List String)

/-- Choices of a command. An attribute can be left out only by a divider in its place. -/
structure Particular where
  component : Option String
  written : Option String
  publicOnly : Bool
  script : Bool
  graphFormat : String

def helpOption {σ : Type} : OptionRule σ := ⟨["-h", "--help"], .halt .help⟩

def outputFormats : List String := [jsonFormat, yamlFormat]

def dotFormat : String := "dot"

def graphFormats : List String := [jsonFormat, dotFormat]

def generalForm : Form General where
  options :=
    [ helpOption,
      ⟨["--version"], .halt .version⟩,
      ⟨["--catalog"], .take [] fun v g => { g with catalog := v }⟩,
      ⟨["--repo"], .take [] fun v g => { g with root := v }⟩,
      ⟨["--format", "-f"], .take outputFormats fun v g => { g with format := v }⟩,
      ⟨["--verbose", "-v"], .set fun g => { g with verbose := true }⟩ ]
  operands :=
    [⟨"command", .rest (Verb.all.map Verb.word) fun w ws g => { g with command := some (w, ws) }⟩]

def publicOption : OptionRule Particular :=
  ⟨["--public"], .set fun p => { p with publicOnly := true }⟩

def scriptOption : OptionRule Particular :=
  ⟨["--script"], .set fun p => { p with script := true }⟩

def graphFormatOption : OptionRule Particular :=
  ⟨["--format"], .take graphFormats fun v p => { p with graphFormat := v.getD jsonFormat }⟩

def componentOperand : Operand Particular :=
  ⟨"component", .one fun w p => { p with component := w }⟩

def rootOperand : Operand Particular :=
  ⟨"component", .atMostOne fun w p => { p with component := w }⟩

def writtenOperand : Operand Particular :=
  ⟨"attribute", .one fun w p => { p with written := w }⟩

def Verb.form : Verb → Form Particular
  | .attrs => ⟨[helpOption, publicOption, scriptOption], [componentOperand]⟩
  | .resolve => ⟨[helpOption, publicOption], [componentOperand, writtenOperand]⟩
  | .locals => ⟨[helpOption], [componentOperand]⟩
  | .graph => ⟨[helpOption, graphFormatOption], [rootOperand]⟩
  | .parse => ⟨[helpOption], [writtenOperand]⟩

/-- What a command line asks for. -/
structure Request where
  general : General
  command : Option (Verb × Particular)

/-- A command line that is not carried out, and the page that it is about. -/
structure Stop where
  page : Page
  halt : Halt

/-- Words without meaning are reported for the program as a whole, its own before the command's. -/
def request (args : List String) : Except Stop Request := do
  let (general, extra) ←
    (generalForm.parse ⟨none, none, none, false, none⟩ args).mapError (⟨none, ·⟩)
  let (command, more) ← match general.command with
    | none => .ok (none, [])
    | some (word, words) =>
      match Verb.ofWord? word with
      | none => .ok (none, [])
      | some v =>
        match v.form.parse ⟨none, none, false, false, jsonFormat⟩ words with
        | .error h => .error ⟨some v, h⟩
        | .ok (p, more) => .ok (some (v, p), more)
  if (extra ++ more).isEmpty then .ok ⟨general, command⟩
  else .error ⟨none, .misuse (.unrecognized (extra ++ more))⟩

end ComponentAttrs.Command
