import ComponentAttrs.Text.Quoted
import ComponentAttrs.Text.Numerals

/-!
Words of a command line. A form says which options and operands there are. Options start with a
hyphen and may be shortened while the meaning is clear; operands are told apart by their place;
behind a divider `--` every word is an operand.
-/
namespace ComponentAttrs.Command

/-! ## Misuse -/

/-- What can be wrong with a command line. -/
inductive Misuse where
  | ambiguous (word : String) (candidates : List String)
  | noValue (option : String)
  | needlessValue (option value : String)
  | badChoice (argument value : String) (choices : List String)
  | missing (operands : List String)
  | unrecognized (words : List String)
deriving DecidableEq

def commas : List String → String := ", ".intercalate

def Misuse.message : Misuse → String
  | .ambiguous word candidates => "ambiguous option: " ++ word ++ " could match " ++ commas candidates
  | .noValue option => "argument " ++ option ++ ": expected one argument"
  | .needlessValue option value =>
    "argument " ++ option ++ ": ignored explicit argument " ++ Text.quoted value
  | .badChoice argument value choices =>
    "argument " ++ argument ++ ": invalid choice: " ++ Text.quoted value ++ " (choose from "
      ++ commas (choices.map Text.quoted) ++ ")"
  | .missing operands => "the following arguments are required: " ++ commas operands
  | .unrecognized words => "unrecognized arguments: " ++ " ".intercalate words

/-- Why a command line is not carried out. -/
inductive Halt where
  | help
  | version
  | misuse (m : Misuse)
deriving DecidableEq

/-! ## Forms -/

/-- What an option does to the choices made so far. -/
inductive Effect (σ : Type) where
  | halt (h : Halt)
  | set (f : σ → σ)
  /-- Takes a value, which must be one of the choices if there are any. -/
  | take (choices : List String) (f : Option String → σ → σ)

variable {σ : Type}

def Effect.takesValue : Effect σ → Bool
  | .take .. => true
  | _ => false

structure OptionRule (σ : Type) where
  names : List String
  effect : Effect σ

/-- What messages call an option. -/
def OptionRule.title (r : OptionRule σ) : String := "/".intercalate r.names

/-- How many words an operand takes. The last two kinds stand last in a form. -/
inductive Share (σ : Type) where
  /-- One word. A divider in place of the word is dropped, which leaves none. -/
  | one (f : Option String → σ → σ)
  | atMostOne (f : Option String → σ → σ)
  /-- One of the choices and all words behind it, options included. -/
  | rest (choices : List String) (f : String → List String → σ → σ)

structure Operand (σ : Type) where
  title : String
  share : Share σ

def Operand.isRequired (o : Operand σ) : Bool :=
  match o.share with
  | .one _ => true
  | _ => false

structure Form (σ : Type) where
  options : List (OptionRule σ)
  operands : List (Operand σ)

/-- All names of options, in order. -/
def Form.names (form : Form σ) : List (String × OptionRule σ) :=
  form.options.flatMap fun r => r.names.map fun name => (name, r)

def Form.option? (form : Form σ) (name : String) : Option (OptionRule σ) := form.names.lookup name

/-! ## Kinds of words -/

inductive Word (σ : Type) where
  | plain
  | divider
  | unknown
  /-- An option, and the value that its own word holds behind the name. -/
  | option (rule : OptionRule σ) (name : String) (value : Option (List Char))

def Word.isOption : Word σ → Bool
  | .unknown | .option .. => true
  | _ => false

def dividerText : String := "--"

/-- Digits, or digits, a point and at least one digit more; a line end may follow. -/
def isNumber (text : List Char) : Bool :=
  let text := if text.getLast? = some '\n' then text.dropLast else text
  let behind := text.dropWhile Text.isNumeral
  if behind.isEmpty then !text.isEmpty
  else behind.head? = some '.' && 1 < behind.length && behind.tail.all Text.isNumeral

/-- Splits at the first equals sign. -/
def splitValue (text : List Char) : String × Option (List Char) :=
  match text.dropWhile (· ≠ '=') with
  | [] => (String.ofList text, none)
  | _ :: value => (String.ofList (text.takeWhile (· ≠ '=')), some value)

/-- What a word that is no option's full name may mean. -/
def Form.readings (form : Form σ) (text : List Char) : List (String × Word σ) :=
  match text with
  | '-' :: '-' :: _ =>
    let (start, value) := splitValue text
    form.names.filterMap fun (name, rule) =>
      if start.toList.isPrefixOf name.toList then some (name, .option rule name value) else none
  | '-' :: letter :: value =>
    form.names.filterMap fun (name, rule) =>
      if name.toList = ['-', letter] then some (name, .option rule name (some value))
      else if text.isPrefixOf name.toList then some (name, .option rule name none)
      else none
  | _ => []

/-- A word without a reading as an option: negative numbers and texts with blanks are operands. -/
def otherWord : List Char → Word σ
  | '-' :: text => if isNumber text || text.contains ' ' then .plain else .unknown
  | _ => .plain

/-- The kind of a word that is no option's full name. -/
def Form.shortened (form : Form σ) (text : String) : Except Misuse (Word σ) :=
  match form.readings text.toList with
  | [] => .ok (otherWord text.toList)
  | [(_, word)] => .ok word
  | readings => .error (.ambiguous text (readings.map (·.1)))

/-- The kind of a word before the divider. -/
def Form.word (form : Form σ) (text : String) : Except Misuse (Word σ) :=
  match text.toList with
  | '-' :: c :: cs =>
    match form.option? text with
    | some rule => .ok (.option rule text none)
    | none =>
      match splitValue ('-' :: c :: cs) with
      | (name, some value) =>
        match form.option? name with
        | some rule => .ok (.option rule name (some value))
        | none => form.shortened text
      | _ => form.shortened text
  | _ => .ok .plain

abbrev Words (σ : Type) := List (String × Word σ)

def Form.words (form : Form σ) : List String → Except Misuse (Words σ)
  | [] => .ok []
  | text :: rest =>
    if text = dividerText then .ok ((text, .divider) :: rest.map (·, .plain))
    else do
      let word ← form.word text
      .ok ((text, word) :: (← form.words rest))

/-! ## Options -/

/-- Options that one word stands for, each with its value, and the number of words behind that are
used up. -/
structure Bundle (σ : Type) where
  uses : List (OptionRule σ × Option String)
  taken : Nat

/-- The value of an option that is the next word. -/
def nextValue (rule : OptionRule σ) (behind : Words σ) : Except Misuse (Bundle σ) :=
  if rule.effect.takesValue then
    match behind with
    | (value, .plain) :: _ => .ok ⟨[(rule, some value)], 1⟩
    | _ => .error (.noValue rule.title)
  else .ok ⟨[(rule, none)], 0⟩

/-- The value of an option that stands in its own word. -/
def ownValue (rule : OptionRule σ) (value : List Char) : Except Misuse (Bundle σ) :=
  if rule.effect.takesValue then .ok ⟨[(rule, some (String.ofList value))], 0⟩
  else .error (.needlessValue rule.title (String.ofList value))

/-- What is joined to the letter of an option without value are the letters of further options. -/
def Form.letters (form : Form σ) (behind : Words σ) (rule : OptionRule σ) :
    List Char → Except Misuse (Bundle σ)
  | [] => nextValue rule behind
  | c :: cs =>
    match form.option? (String.ofList ['-', c]) with
    | none => ownValue rule (c :: cs)
    | some next =>
      if rule.effect.takesValue then ownValue rule (c :: cs)
      else do
        let more ← form.letters behind next cs
        .ok { more with uses := (rule, none) :: more.uses }

def isLetterName (name : String) : Bool := name.toList[1]? ≠ some '-'

def Form.bundle (form : Form σ) (rule : OptionRule σ) (name : String) (value : Option (List Char))
    (behind : Words σ) : Except Misuse (Bundle σ) :=
  match value with
  | none => nextValue rule behind
  | some [] => ownValue rule []
  | some value =>
    if isLetterName name then form.letters behind rule value else ownValue rule value

/-- A divider in place of the value is dropped, which leaves none. -/
def useOption (chosen : σ) : OptionRule σ × Option String → Except Halt σ
  | (rule, value) =>
    match rule.effect with
    | .halt h => .error h
    | .set f => .ok (f chosen)
    | .take choices f =>
      let value := value.filter (· ≠ dividerText)
      match value.filter fun v => !choices.isEmpty && !choices.contains v with
      | some v => .error (.misuse (.badChoice rule.title v choices))
      | none => .ok (f value chosen)

/-! ## Operands -/

def leadingDividers (words : Words σ) : Nat :=
  (words.takeWhile fun (_, w) => w matches .divider).length

def startsPlain : Words σ → Bool
  | (_, .plain) :: _ => true
  | _ => false

/-- The number of words that an operand takes from the front, dividers around its own included. -/
def Share.extent? (share : Share σ) (words : Words σ) : Option Nat :=
  let before := leadingDividers words
  let own := words.drop before
  match share with
  | .one _ => if startsPlain own then some (before + 1 + leadingDividers own.tail) else none
  | .atMostOne _ =>
    if startsPlain own then some (before + 1 + leadingDividers own.tail) else some before
  | .rest .. => if startsPlain own then some words.length else none

def Operand.use (o : Operand σ) (chosen : σ) (texts : List String) : Except Halt σ :=
  match o.share with
  | .one f | .atMostOne f => .ok (f (texts.erase dividerText).head? chosen)
  | .rest choices f =>
    let first := texts.head?.getD ""
    if choices.contains first then .ok (f first texts.tail chosen)
    else .error (.misuse (.badChoice o.title first choices))

/-! ## Whole command lines -/

structure Progress (σ : Type) where
  chosen : σ
  /-- Operands still to come. -/
  operands : List (Operand σ)
  /-- Words that mean nothing. -/
  extra : List String

/-- Fills as many operands as the words at the front allow. -/
def takeOperands (chosen : σ) :
    List (Operand σ) → Words σ → Except Halt (σ × List (Operand σ) × Words σ)
  | [], words => .ok (chosen, [], words)
  | o :: os, words =>
    match o.share.extent? words with
    | none => .ok (chosen, o :: os, words)
    | some n => do
      let chosen ← o.use chosen ((words.take n).map (·.1))
      takeOperands chosen os (words.drop n)

/-- Options and operands in the order in which they are written. -/
def Form.run (form : Form σ) (p : Progress σ) (words : Words σ) : Except Halt (Progress σ) :=
  if words.any (·.2.isOption) then
    match words with
    | [] => .ok p
    | (text, .unknown) :: behind => form.run { p with extra := p.extra ++ [text] } behind
    | (_, .option rule name value) :: behind =>
      match form.bundle rule name value behind with
      | .error m => .error (.misuse m)
      | .ok b =>
        match b.uses.foldlM useOption p.chosen with
        | .error h => .error h
        | .ok chosen =>
          form.run { p with chosen := chosen } (behind.drop b.taken)
    | word :: behind =>
      match takeOperands p.chosen p.operands (word :: behind) with
      | .error h => .error h
      | .ok (chosen, operands, left) =>
        if left.length ≤ behind.length then form.run ⟨chosen, operands, p.extra⟩ left
        else form.run ⟨chosen, operands, p.extra ++ [word.1]⟩ behind
  else
    match takeOperands p.chosen p.operands words with
    | .error h => .error h
    | .ok (chosen, operands, left) => .ok ⟨chosen, operands, p.extra ++ left.map (·.1)⟩
termination_by words.length
decreasing_by
  · simp
  · simp only [List.length_drop, List.length_cons]; omega
  · simp only [List.length_cons]; omega
  · simp

/-- The choices that a command line makes, and the words that mean nothing. -/
def Form.parse (form : Form σ) (start : σ) (args : List String) :
    Except Halt (σ × List String) := do
  let words ← (form.words args).mapError .misuse
  let p ← form.run ⟨start, form.operands, []⟩ words
  let missing := p.operands.filter Operand.isRequired
  if missing.isEmpty then .ok (p.chosen, p.extra)
  else .error (.misuse (.missing (missing.map Operand.title)))

end ComponentAttrs.Command
