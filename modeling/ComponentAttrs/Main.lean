import ComponentAttrs.Command.Run

/-!
The program. It looks at the places that a run may ask for, runs on what it has seen, and prints.
-/
namespace ComponentAttrs.Command

open ComponentAttrs.Files ComponentAttrs.Project

/-- A half of a pair cannot be printed; a question mark stands for it. -/
def shown (text : String) : String :=
  String.ofList ((Text.codes text).map fun n => if Text.isHalf n then '?' else Char.ofNat n)

/-- What is at a place of the file system. -/
def nodeAt (place : Location) : IO (Option Node) := do
  try
    return some (.file (← IO.FS.readBinFile (shown ("/" ++ "/".intercalate place))))
  catch
    | .inappropriateType .. => return some .directory
    | _ => return none

def plainExcuse (r : LogRecord) : String :=
  r.level.name ++ " " ++ r.channel.name ++ ": a value cannot be shown"

/-- Adds what is at a place. -/
def see (files : Tree) (place : Location) : IO Tree := do
  if (files.node? place).isSome then return files
  match ← nodeAt place with
  | some node => return files.put place node
  | none => return files

/-- Adds everything on the way along a path. -/
def seePath (base : Location) (files : Tree) (p : Path) : IO Tree :=
  (List.range (p.parts.length + 1)).foldlM
    (fun files n => see files (resolve base { p with parts := p.parts.take n })) files

/-- Sees the settings of a project and of all directories above. -/
def seeSettings (base : Location) (root : Option Path) : IO Tree :=
  (root.toList ++ (ancestors base).map Path.ofParts).foldlM
    (fun files root => seePath base files (settingsPath root)) .empty

/-- Sees all that a command line may ask for; where the catalog is may depend on the settings. -/
def seeAll (base : Location) (args : List String) : IO Tree := do
  match request args with
  | .error _ => return .empty
  | .ok ⟨general, _⟩ =>
    let root := givenPath general.root
    let files ← seeSettings base root
    match Session.start files base root (givenPath general.catalog) general.format with
    | .ok session => seePath base files session.value.catalogPath
    | .error _ => return files

end ComponentAttrs.Command

open ComponentAttrs ComponentAttrs.Files ComponentAttrs.Command in
def main (words : List String) : IO UInt32 := do
  let args := words.map fun word => Text.ofChars word.toList
  let base := resolve [] (.ofString (Text.ofChars (← IO.currentDir).toString.toList))
  match run plainExcuse (← seeAll base args) base args with
  | .error _ =>
    IO.eprintln "vueattrs: a file or a value cannot be used"
    return 1
  | .ok printed =>
    IO.print (shown printed.out)
    IO.eprint (shown printed.err)
    return UInt32.ofNat printed.code
