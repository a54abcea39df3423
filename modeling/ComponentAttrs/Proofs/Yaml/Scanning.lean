import Mathlib
import ComponentAttrs.Yaml.Token

/-!
Reading the pieces of a document fails for bytes that are no text only where the text of the document
ends in such bytes. Every reader is specified in the same way: if nothing else stops the text behind
the cursor, neither the failures of the reader nor the cursor it gives back have to do with bytes. A
proof runs through the reader, with the specifications of the readers it calls; what remains is that
no move of the cursor changes what stops the text.

* `Decodes`: a result that does not fail for bytes;
* `decodes_need`, `decodes_fail`: the two ways in which a reader looks behind the end of the text;
* `decodes_readTag`, `decodes_readDirective`, `decodes_readBlockScalar`, `decodes_readQuotedScalar`,
  `decodes_readPlainText`: the pieces.
-/
namespace ComponentAttrs.Yaml

open Std.Do

set_option mvcgen.warning false

/-- A result that is not broken off by bytes that are no text, and what holds of it. -/
abbrev Decodes {α : Type} (x : Except Failure α) (P : α → Prop) : Prop :=
  ⦃⌜True⌝⦄ x ⦃post⟨fun a => ⌜P a⌝, fun failure => ⌜failure ≠ .undecodable⌝⟩⦄

theorem Decodes.result {α : Type} {P : α → Prop} {a : α} (h : Decodes (.ok a) P) : P a := by
  rw [Decodes, Triple] at h
  exact h trivial

theorem Decodes.failure {α : Type} {P : α → Prop} {failure : Failure}
    (h : Decodes (.error failure) P) : failure ≠ .undecodable := by
  rw [Decodes, Triple] at h
  exact h trivial

@[spec] theorem ok_spec {ε α : Type} (a : α) (Q : PostCond α (.except ε .pure)) :
    ⦃Q.1 a⦄ (Except.ok a : Except ε α) ⦃Q⦄ := by
  rw [Triple]
  exact fun h => h

@[spec] theorem error_spec {ε α : Type} (e : ε) (Q : PostCond α (.except ε .pure)) :
    ⦃Q.2.1 e⦄ (Except.error e : Except ε α) ⦃Q⦄ := by
  rw [Triple]
  exact fun h => h

/-! ## The cursor -/

namespace Cursor

/-- The text behind the cursor does not end in bytes that are no text. -/
abbrev InText (k : Cursor) : Prop := k.stop ≠ some .undecodable

variable (k : Cursor)

@[simp, grind =] theorem stop_advance : k.advance.stop = k.stop := by
  unfold advance
  split
  · rfl
  · dsimp only
    split <;> rfl

@[simp, grind =] theorem stop_skip (n : Nat) : (k.skip n).stop = k.stop := by
  induction n generalizing k with
  | zero => rfl
  | succ n ih => rw [skip, ih, stop_advance]

theorem stop_spanFrom (p : Char → Bool) (taken cs : List Char) :
    (spanFrom p taken cs k).2.stop = k.stop := by
  induction cs generalizing taken k with
  | nil => rfl
  | cons c cs ih =>
    unfold spanFrom
    split
    · rw [ih, stop_advance]
    · rfl

@[simp, grind =] theorem stop_span (p : Char → Bool) : (k.span p).2.stop = k.stop :=
  k.stop_spanFrom p [] k.rest

@[simp, grind =] theorem stop_skipWhile (p : Char → Bool) : (k.skipWhile p).stop = k.stop :=
  k.stop_span p

@[simp, grind =] theorem stop_skipSpaces : k.skipSpaces.stop = k.stop := k.stop_skipWhile _

@[simp, grind =] theorem stop_skipComment : k.skipComment.stop = k.stop := by
  unfold skipComment
  split
  · exact k.stop_skipWhile _
  · rfl

variable {k}

@[grind →] theorem stop_of_lineBreak? {c : Char} {k' : Cursor} (h : k.lineBreak? = some (c, k')) :
    k'.stop = k.stop := by
  unfold lineBreak? at h
  split at h
  · split at h
    · cases h
      exact k.stop_advance
    · cases h
  · cases h

@[spec] theorem decodes_need (h : k.InText) (n : Nat) : Decodes (k.need n) fun _ => True := by
  unfold need
  split
  · mvcgen
    grind
  · mvcgen

@[spec] theorem decodes_fail {α : Type} {P : α → Prop} (h : k.InText) (p : Problem) :
    Decodes (k.fail p : Scan α) P := by
  unfold fail
  mvcgen
  nofun

@[spec] theorem decodes_atMarker (h : k.InText) (words : List (List Char)) :
    Decodes (k.atMarker words) fun _ => True := by
  mvcgen [atMarker]

@[spec] theorem decodes_atSeparator (h : k.InText) : Decodes k.atSeparator fun _ => True := by
  mvcgen [atSeparator]

end Cursor

/-! ## Names, tags and directives -/

variable {k : Cursor}

@[spec] theorem decodes_readAnchorName (h : k.InText) :
    Decodes (readAnchorName k) fun r => r.2.InText := by
  mvcgen [readAnchorName] with grind

@[spec] theorem decodes_readTagHandle (h : k.InText) (p : Problem) :
    Decodes (readTagHandle k p) fun r => r.2.InText := by
  mvcgen [readTagHandle] with grind

@[spec] theorem decodes_readUriBytes (h : k.InText) (p : Problem) (bytes : List UInt8)
    (cs : List Char) : Decodes (readUriBytes p bytes cs k) fun r => r.2.InText := by
  fun_induction readUriBytes p bytes cs k with
  | case1 bytes a b cs k hhex ih =>
    mvcgen [ih]
    grind
  | case2 => mvcgen
  | case3 => mvcgen
  | case4 => mvcgen
  | case5 => mvcgen

@[spec] theorem decodes_readUriText (h : k.InText) (p : Problem) (taken : List Char) (fuel : Nat) :
    Decodes (readUriText p taken fuel k) fun r => r.2.InText := by
  induction fuel generalizing taken k with
  | zero => mvcgen [readUriText]
  | succ fuel ih => mvcgen [readUriText, ih] with grind

@[spec] theorem decodes_readTagUri (h : k.InText) (p : Problem) :
    Decodes (readTagUri k p) fun r => r.2.InText := by
  mvcgen [readTagUri] with grind

@[spec] theorem decodes_hasHandle (h : k.InText) : Decodes (hasHandle k) fun _ => True := by
  mvcgen [hasHandle] with grind

/-- A token other than the one for bytes that are no text. -/
abbrev Token.InText (t : Token) : Prop := t ≠ .broken .undecodable

/-- Tokens of which none has to do with bytes that are no text. -/
abbrev TokensInText (tokens : List Token) : Prop := ∀ t ∈ tokens, t.InText

@[spec] theorem decodes_readTag (h : k.InText) :
    Decodes (readTag k) fun r => r.1.InText ∧ r.2.InText := by
  mvcgen [readTag] with grind

@[spec] theorem decodes_readVersionNumber (h : k.InText) :
    Decodes (readVersionNumber k) fun r => r.2.InText := by
  mvcgen [readVersionNumber, noScan] with grind

@[spec] theorem decodes_readVersion (h : k.InText) :
    Decodes (readVersion k) fun r => r.2.InText := by
  mvcgen [readVersion] with grind

@[spec] theorem decodes_readHandleDirective (h : k.InText) :
    Decodes (readHandleDirective k) fun r => r.2.InText := by
  mvcgen [readHandleDirective] with grind

@[spec] theorem decodes_readLineEnd (h : k.InText) (p : Problem) :
    Decodes (readLineEnd k p) Cursor.InText := by
  mvcgen [readLineEnd] with grind

@[spec] theorem decodes_readDirective (h : k.InText) :
    Decodes (readDirective k) fun r => r.1.InText ∧ r.2.InText := by
  mvcgen [readDirective] with grind

/-! ## Block scalars -/

@[spec] theorem decodes_readIndentWidth (h : k.InText) :
    Decodes (readIndentWidth k) fun _ => True := by
  mvcgen [readIndentWidth]

@[spec] theorem decodes_readBlockHeader (h : k.InText) :
    Decodes (readBlockHeader k) fun r => r.2.InText := by
  mvcgen [readBlockHeader] with grind

@[simp, grind =] theorem stop_skipIndent (column : Nat) (cs : List Char) (k : Cursor) :
    (skipIndent column cs k).stop = k.stop := by
  fun_induction skipIndent column cs k with
  | case1 k cs h ih => rw [ih, Cursor.stop_advance]
  | _ => rfl

@[simp, grind =] theorem stop_readBreaks (column : Nat) (breaks : List Char) (fuel : Nat)
    (k : Cursor) : (readBreaks column breaks fuel k).2.stop = k.stop := by
  induction fuel generalizing breaks k with
  | zero => rfl
  | succ fuel ih =>
    rw [readBreaks]
    grind

@[simp, grind =] theorem stop_readLeadingBreaks (breaks : List Char) (widest : Nat)
    (cs : List Char) (k : Cursor) :
    (readLeadingBreaks breaks widest cs k).2.2.stop = k.stop := by
  induction cs generalizing breaks widest k with
  | nil => rfl
  | cons c cs ih =>
    rw [readLeadingBreaks]
    grind

@[simp, grind =] theorem stop_readBlockLines (folded : Bool) (column : Nat)
    (taken lastBreak breaks : List Char) (fuel : Nat) (k : Cursor) :
    (readBlockLines folded column taken lastBreak breaks fuel k).cursor.stop = k.stop := by
  induction fuel generalizing taken lastBreak breaks k with
  | zero => rfl
  | succ fuel ih =>
    rw [readBlockLines]
    split
    case isFalse => rfl
    case isTrue =>
      cases hbreak : (k.span (!isLineBreak ·)).2.lineBreak? with
      | none =>
        simp only [hbreak]
        split <;> simp [ih]
      | some found =>
        have hstop := Cursor.stop_of_lineBreak? hbreak
        simp only [hbreak]
        split <;> simp [ih, hstop]

@[spec] theorem decodes_readBlockScalar (h : k.InText) (folded : Bool) (indent : Int) :
    Decodes (readBlockScalar folded indent k) fun r => r.1.InText ∧ r.2.InText := by
  mvcgen [readBlockScalar] with grind

/-! ## Quoted scalars -/

@[spec] theorem decodes_readQuotedBreaks (h : k.InText) (breaks : List Char) (fuel : Nat) :
    Decodes (readQuotedBreaks breaks fuel k) fun r => r.2.InText := by
  induction fuel generalizing breaks k with
  | zero => mvcgen [readQuotedBreaks]
  | succ fuel ih => mvcgen [readQuotedBreaks, ih] with grind

@[spec] theorem decodes_readNumericEscape (h : k.InText) (width : Nat) :
    Decodes (readNumericEscape width k) fun r => r.2.InText := by
  mvcgen [readNumericEscape, noScan] with grind

@[spec] theorem decodes_readEscape (h : k.InText) :
    Decodes (readEscape k) fun r => r.2.InText := by
  mvcgen [readEscape] with grind

@[spec] theorem decodes_readQuotedSpace (h : k.InText) :
    Decodes (readQuotedSpace k) fun r => r.2.InText := by
  mvcgen [readQuotedSpace] with grind

@[spec] theorem decodes_readQuotedText (h : k.InText) (double : Bool) (taken : List Nat)
    (fuel : Nat) : Decodes (readQuotedText double taken fuel k) fun r => r.2.InText := by
  induction fuel generalizing taken k with
  | zero => mvcgen [readQuotedText]
  | succ fuel ih => mvcgen [readQuotedText, ih] with grind

@[spec] theorem decodes_readQuotedScalar (h : k.InText) (double : Bool) :
    Decodes (readQuotedScalar double k) fun r => r.1.InText ∧ r.2.InText := by
  mvcgen [readQuotedScalar] with grind

/-! ## Plain scalars -/

@[simp, grind =] theorem stop_readPlainWord (inFlow : Bool) (taken cs : List Char) (k : Cursor) :
    (readPlainWord inFlow taken cs k).2.stop = k.stop := by
  induction cs generalizing taken k with
  | nil => rfl
  | cons c cs ih =>
    rw [readPlainWord]
    grind

@[spec] theorem decodes_readPlainBreaks (h : k.InText) (breaks cs : List Char) :
    Decodes (readPlainBreaks breaks cs k) fun r => r.2.InText := by
  induction cs generalizing breaks k with
  | nil => mvcgen [readPlainBreaks]
  | cons c cs ih => mvcgen [readPlainBreaks, ih] with grind

@[spec] theorem decodes_readPlainSpace (h : k.InText) :
    Decodes (readPlainSpace k) fun r => r.2.2.InText := by
  mvcgen [readPlainSpace] with grind

@[spec] theorem decodes_readPlainText (h : k.InText) (inFlow : Bool) (indent : Int)
    (taken space : List Char) (brokeLine : Bool) (fuel : Nat) :
    Decodes (readPlainText inFlow indent taken space brokeLine fuel k) fun r => r.cursor.InText := by
  induction fuel generalizing taken space brokeLine k with
  | zero => mvcgen [readPlainText]
  | succ fuel ih => mvcgen [readPlainText, ih] with grind

@[spec] theorem decodes_startsPlain (h : k.InText) (inFlow : Bool) :
    Decodes (startsPlain inFlow k) fun _ => True := by
  -- The cases are split by hand: the list of indicators is too long to be unfolded.
  unfold startsPlain
  split
  · mvcgen
  · split
    · mvcgen
    · mvcgen

end ComponentAttrs.Yaml
