import Mathlib.Algebra.Ring.Parity
import Mathlib.Data.List.Induction
import ComponentAttrs.Graph.Dot

/-!
Quoted texts in drawings, read from the opening quote on. A backslash takes the character behind it
with it, so that it matters how many of them stand in a row. Quotes in names get one more in front,
other characters none, and titles are left as they are.

* `closing?_eq_length_iff`, `closing?_escapeQuotes_iff`: when a text between quotes ends at the
  quote that was written behind it;
* `toList_toDot`: a drawing, divided into pieces;
* `quotes_close_iff`: which pieces of a drawing are closed by their own quote.
-/
namespace ComponentAttrs.Graph

/-! ## Reading -/

/-- How many characters stand in front of the first quote that no backslash takes with it. `taken`
says that the next character is taken. -/
def closing? (taken : Bool) : List Char → Option Nat
  | [] => none
  | c :: rest =>
    if taken then (closing? false rest).map (· + 1)
    else if c = '"' then some 0
    else (closing? (c = '\\') rest).map (· + 1)

/-- Whether the character behind a text is taken. -/
def takesNext (taken : Bool) : List Char → Bool
  | [] => taken
  | c :: rest => takesNext (!taken && c = '\\') rest

/-- How many backslashes stand at the end of a text. -/
def endingBackslashes (cs : List Char) : Nat := (cs.reverse.takeWhile (· = '\\')).length

theorem takesNext_concat (taken : Bool) (cs : List Char) (c : Char) :
    takesNext taken (cs ++ [c]) = (!takesNext taken cs && c = '\\') := by
  induction cs generalizing taken with
  | nil => rfl
  | cons d cs ih => exact ih _

theorem endingBackslashes_concat (cs : List Char) (c : Char) :
    endingBackslashes (cs ++ [c]) = if c = '\\' then endingBackslashes cs + 1 else 0 := by
  by_cases hc : c = '\\' <;> simp [endingBackslashes, hc]

/-- Of backslashes in a row every second one is taken by the one in front of it. -/
theorem takesNext_iff (cs : List Char) :
    takesNext false cs = true ↔ Odd (endingBackslashes cs) := by
  induction cs using List.reverseRecOn with
  | nil => simp [takesNext, endingBackslashes]
  | append_singleton cs c ih =>
    rw [takesNext_concat, endingBackslashes_concat]
    by_cases hc : c = '\\'
    · simp [hc, Nat.odd_add_one, ← ih]
    · simp [hc]

theorem takesNext_eq_false_iff (cs : List Char) :
    takesNext false cs = false ↔ Even (endingBackslashes cs) := by
  rw [← Nat.not_odd_iff_even, ← takesNext_iff, Bool.not_eq_true]

/-! ## Texts between quotes -/

/-- A property of what stands in front of a character, wherever a text has that character. -/
theorem forall_split_cons {P : List Char → Prop} {c d : Char} {cs : List Char} :
    (∀ before after, c :: cs = before ++ d :: after → P before) ↔
      (c = d → P []) ∧ ∀ before after, cs = before ++ d :: after → P (c :: before) := by
  constructor
  · intro h
    refine ⟨?_, fun before after htail => h (c :: before) after (by rw [htail]; rfl)⟩
    rintro rfl
    exact h [] cs rfl
  · rintro ⟨hfirst, hrest⟩ before after heq
    cases before with
    | nil => exact hfirst (List.cons.inj heq).1
    | cons b before =>
      obtain ⟨rfl, htail⟩ := List.cons.inj heq
      exact hrest before after htail

/-- A text that is written as it is: quotes in it have to be taken, the quote behind it must not. -/
theorem closing?_eq_length_iff (taken : Bool) (cs after : List Char) :
    closing? taken (cs ++ '"' :: after) = some cs.length ↔
      (∀ p q, cs = p ++ '"' :: q → takesNext taken p = true) ∧ takesNext taken cs = false := by
  induction cs generalizing taken with
  | nil => cases taken <;> simp [closing?, takesNext]
  | cons c cs ih =>
    rw [forall_split_cons]
    cases taken with
    | true => simp [closing?, takesNext, ih]
    | false => by_cases hc : c = '"' <;> simp [closing?, takesNext, hc, ih]

/-- A text with a backslash in front of each quote: neither that backslash may be taken nor the
quote behind the text. -/
theorem closing?_escapeQuotes_iff (taken : Bool) (cs after : List Char) :
    closing? taken (escapeQuotes cs ++ '"' :: after) = some (escapeQuotes cs).length ↔
      (∀ p q, cs = p ++ '"' :: q → takesNext taken p = false) ∧ takesNext taken cs = false := by
  induction cs generalizing taken with
  | nil => cases taken <;> simp [escapeQuotes, closing?, takesNext]
  | cons c cs ih =>
    have hcons : escapeQuotes (c :: cs) =
        (if c = '"' then ['\\', '"'] else [c]) ++ escapeQuotes cs := rfl
    rw [forall_split_cons, hcons]
    by_cases hc : c = '"'
    · cases taken <;> simp [closing?, takesNext, hc, ih]
    · cases taken <;> simp [closing?, takesNext, hc, ih]

/-! ## Pieces of a drawing -/

/-- A part of a drawing: words of the drawing itself, or what is put between quotes. -/
inductive Piece
  | own (cs : List Char)
  | title (cs : List Char)
  | name (cs : List Char)
  deriving DecidableEq, Repr

namespace Piece

/-- What is written between the quotes of a piece. -/
def quoted? : Piece → Option (List Char)
  | own _ => none
  | title cs => some cs
  | name cs => some (escapeQuotes cs)

def text : Piece → List Char
  | own cs => cs
  | title cs => '"' :: cs ++ ['"']
  | name cs => '"' :: escapeQuotes cs ++ ['"']

/-- The title or name that a piece is made from. -/
def given : Piece → List (List Char)
  | own _ => []
  | title cs => [cs]
  | name cs => [cs]

/-- A piece with the right number of backslashes in front of every quote. -/
def Closes : Piece → Prop
  | own _ => True
  | title cs =>
    (∀ before after, cs = before ++ '"' :: after → Odd (endingBackslashes before)) ∧
      Even (endingBackslashes cs)
  | name cs =>
    (∀ before after, cs = before ++ '"' :: after → Even (endingBackslashes before)) ∧
      Even (endingBackslashes cs)

theorem closing?_iff {p : Piece} {cs : List Char} (h : p.quoted? = some cs) (after : List Char) :
    closing? false (cs ++ '"' :: after) = some cs.length ↔ p.Closes := by
  cases p with
  | own => cases h
  | title =>
    cases h
    simp only [Closes, closing?_eq_length_iff, takesNext_iff, takesNext_eq_false_iff]
  | name =>
    cases h
    simp only [Closes, closing?_escapeQuotes_iff, takesNext_eq_false_iff]

end Piece

/-! ## Drawings -/

def nodePieces (name color : String) : List Piece :=
  [.own "    ".toList, .name name.toList, .own (" [fillcolor=\"" ++ color ++ "\"];").toList]

def edgePieces (source target : String) (kind : LinkKind) : List Piece :=
  [.own "    ".toList, .name source.toList, .own " -> ".toList, .name target.toList,
    .own (" [" ++ edgeStyle kind ++ ", label=\"" ++ kind.name ++ "\"];").toList]

def titlePieces (title : String) : List Piece :=
  [.own "digraph ".toList, .title title.toList, .own " \x7b".toList]

variable {δ : Type} [DecidableEq δ]

/-- The lines of a drawing, each in pieces. -/
def pieceLines (name : δ → String) (title : String) (g : Graph δ) : List (List Piece) :=
  [titlePieces title, [.own "    rankdir=BT;".toList],
      [.own "    node [shape=box, style=filled];".toList], []]
    ++ g.nodes.map (fun d =>
      nodePieces (name d) (if some d = g.root then rootColor else otherColor))
    ++ [[]]
    ++ g.edges.map (fun e =>
      edgePieces ((e.source.map name).getD absentRoot) (name e.target) e.kind)
    ++ [[.own "\x7d".toList]]

def pieces (name : δ → String) (title : String) (g : Graph δ) : List Piece :=
  [Piece.own "\n".toList].intercalate (pieceLines name title g)

theorem flatMap_intercalate {α β : Type} (f : α → List β) (sep : List α) (ls : List (List α)) :
    (sep.intercalate ls).flatMap f = (sep.flatMap f).intercalate (ls.map fun l => l.flatMap f) := by
  induction ls with
  | nil => rfl
  | cons l ls ih =>
    cases ls with
    | nil => simp only [List.intercalate_singleton, List.map_cons, List.map_nil]
    | cons m ls =>
      simp only [List.intercalate_cons_cons, List.flatMap_append, List.map_cons] at ih ⊢
      rw [ih]

theorem nil_intercalate {α : Type} (ls : List (List α)) : [].intercalate ls = ls.flatten := by
  induction ls with
  | nil => rfl
  | cons l ls ih =>
    cases ls with
    | nil => simp only [List.intercalate_singleton, List.flatten_cons, List.flatten_nil,
        List.append_nil]
    | cons m ls =>
      rw [List.intercalate_cons_cons, List.append_nil, ih]
      rfl

theorem toList_titleLine (title : String) :
    (titleLine title).toList = (titlePieces title).flatMap Piece.text := by
  simp [titleLine, titlePieces, Piece.text, String.toList_append]

theorem toList_nodeLine (name color : String) :
    (nodeLine name color).toList = (nodePieces name color).flatMap Piece.text := by
  simp [nodeLine, nodePieces, dotName, Piece.text, String.toList_append]

theorem toList_edgeLine (source target : String) (kind : LinkKind) :
    (edgeLine source target kind).toList = (edgePieces source target kind).flatMap Piece.text := by
  simp [edgeLine, edgePieces, dotName, Piece.text, String.toList_append]

theorem toList_toDot (name : δ → String) (title : String) (g : Graph δ) :
    (toDot name title g).toList = (pieces name title g).flatMap Piece.text := by
  rw [toDot, String.toList_intercalate, pieces, flatMap_intercalate]
  simp [pieceLines, toList_titleLine, toList_nodeLine, toList_edgeLine, Piece.text, Function.comp_def]

theorem flatMap_given_pieces (name : δ → String) (title : String) (g : Graph δ) :
    (pieces name title g).flatMap Piece.given = title.toList ::
      (g.nodes.map name ++ g.edges.flatMap fun e =>
        [(e.source.map name).getD absentRoot, name e.target]).map String.toList := by
  have hown : [Piece.own "\n".toList].flatMap Piece.given = [] := rfl
  rw [pieces, flatMap_intercalate, hown, nil_intercalate]
  simp [pieceLines, titlePieces, nodePieces, edgePieces, Piece.given, Function.comp_def,
    List.map_flatMap, ← List.flatMap_def, ← List.map_eq_flatMap]

/-- **When quotes close.** A drawing is made of pieces, and what stands between quotes is the title,
the names of the nodes and the names at both ends of the edges. Read from the opening quote of such
a piece, the first quote that no backslash takes is the one that was written behind it if and only
if the numbers of backslashes fit: they are even at the end of the text, and in front of each quote
in it even for a name and odd for the title. -/
theorem quotes_close_iff (name : δ → String) (title : String) (g : Graph δ) :
    let ps := pieces name title g
    (toDot name title g).toList = ps.flatMap Piece.text ∧
    ps.flatMap Piece.given = title.toList ::
      (g.nodes.map name ++ g.edges.flatMap fun e =>
        [(e.source.map name).getD absentRoot, name e.target]).map String.toList ∧
    ∀ before p after cs, ps = before ++ p :: after → p.quoted? = some cs →
      (closing? false (cs ++ '"' :: after.flatMap Piece.text) = some cs.length ↔ p.Closes) := by
  intro ps
  refine ⟨toList_toDot name title g, flatMap_given_pieces name title g, ?_⟩
  intro before p after cs _ hquoted
  exact Piece.closing?_iff hquoted (after.flatMap Piece.text)

/-- A node the name of which ends in a backslash, under a title with quotes in it. -/
theorem backslash_takes_closing_quote :
    let ps := pieces id "see \"a\"" (start (some "a\\"))
    (∃ after, ps = .own "digraph ".toList :: .title "see \"a\"".toList :: after ∧
      closing? false ("see \"a\"".toList ++ '"' :: after.flatMap Piece.text) = some 4) ∧
    ∃ before after, ps = before ++ .name "a\\".toList :: after ∧
      closing? false ("a\\".toList ++ '"' :: after.flatMap Piece.text) = some 15 := by
  intro ps
  refine ⟨⟨ps.drop 2, by decide, by decide⟩, ps.take 10, ps.drop 11, by decide, by decide⟩

end ComponentAttrs.Graph
