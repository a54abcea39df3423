import Mathlib
import ComponentAttrs.Proofs.Yaml.Scanning
import ComponentAttrs.Yaml.Tokens

/-!
The tokens of a text hold no sign of undecodable bytes unless the text ends in such bytes. What has
been read so far is *in text* if neither the cursor nor a token has to do with them; each part of a
step keeps it so, and with them every step.
-/
namespace ComponentAttrs.Yaml

open Std.Do

set_option mvcgen.warning false

namespace Lexing

@[grind =] theorem tokens_push (s : Lexing) (t : Token) : (s.push t).tokens = t :: s.tokens := rfl

@[grind =] theorem cursor_push (s : Lexing) (t : Token) : (s.push t).cursor = s.cursor := rfl

/-- Neither the text to come nor a token read has to do with bytes that are no text. -/
@[grind] structure InText (s : Lexing) : Prop where
  cursor : s.cursor.InText
  tokens : TokensInText s.tokens

namespace InText

variable {s : Lexing}

theorem start {source : Source} (h : source.stop ≠ some .undecodable) : (start source).InText :=
  ⟨h, nofun⟩

/-- Everything but the cursor and the tokens may be different. -/
theorem congr (h : s.InText) {s' : Lexing} (hcursor : s'.cursor.stop = s.cursor.stop)
    (htokens : s'.tokens = s.tokens) : s'.InText := by
  refine ⟨?_, htokens ▸ h.tokens⟩
  rw [Cursor.InText, hcursor]
  exact h.cursor

theorem moveTo (h : s.InText) {k : Cursor} (hk : k.InText) : (s.moveTo k).InText := ⟨hk, h.tokens⟩

theorem push (h : s.InText) {t : Token} (ht : t.InText) : (s.push t).InText :=
  ⟨h.cursor, List.forall_mem_cons.mpr ⟨ht, h.tokens⟩⟩

theorem insertAt (h : s.InText) (place : Nat) {front : List Token} (hfront : TokensInText front) :
    (s.insertAt place front).InText := by
  refine ⟨h.cursor, fun t ht => ?_⟩
  simp only [Lexing.insertAt, List.splitAt_eq, List.mem_append, or_assoc] at ht
  rcases ht with ht | ht | ht
  · exact h.tokens t (List.mem_of_mem_take ht)
  · exact hfront t ht
  · exact h.tokens t (List.mem_of_mem_drop ht)

theorem closeBlocks (h : s.InText) (column : Int) (indents : List Int) :
    (closeBlocks column indents s).InText := by
  induction indents generalizing s with
  | nil => exact h
  | cons outer rest ih =>
    unfold Lexing.closeBlocks
    split
    · have hpushed : (s.push .blockEnd).InText := h.push nofun
      exact ih (hpushed.congr rfl rfl)
    · exact h

@[grind ←] theorem unwind (h : s.InText) (column : Int) : (s.unwind column).InText := by
  unfold Lexing.unwind
  split
  · exact h
  · exact h.closeBlocks column _

@[grind ←] theorem openBlock (h : s.InText) (column : Nat) : (s.openBlock column).2.InText := by
  unfold Lexing.openBlock
  split
  · exact h.congr rfl rfl
  · exact h

theorem blockAt (h : s.InText) (column : Nat) :
    (if s.inFlow then (false, s) else s.openBlock column).2.InText := by
  split
  · exact h
  · exact h.openBlock column

/-- A block collection and the token for its start. -/
theorem startAt (h : s.InText) (column : Nat) {t : Token} (ht : t.InText) :
    (if (if s.inFlow then (false, s) else s.openBlock column).1 then
      (if s.inFlow then (false, s) else s.openBlock column).2.push t
    else (if s.inFlow then (false, s) else s.openBlock column).2).InText := by
  have hblock := h.blockAt column
  generalize (if s.inFlow then (false, s) else s.openBlock column) = opened at hblock ⊢
  split
  · exact hblock.push ht
  · exact hblock

theorem skipGap (h : s.InText) (fuel : Nat) : (s.skipGap fuel).InText := by
  induction fuel generalizing s with
  | zero => exact h
  | succ fuel ih =>
    rw [Lexing.skipGap]
    split
    next found k hbreak =>
      exact ih (h.congr (by simp [Cursor.stop_of_lineBreak? hbreak]) rfl)
    next => exact h.moveTo (by simpa using h.cursor)

end InText

variable {s : Lexing}

/-! ## Keys -/

@[spec] theorem decodes_fail (h : s.InText) (p : Problem) : Decodes (s.fail p) InText :=
  Cursor.decodes_fail h.cursor p

@[spec] theorem decodes_dropStale (h : s.InText) : Decodes s.dropStale InText := by
  mvcgen [dropStale]
  exact h.congr rfl rfl

@[spec] theorem decodes_dropKey (h : s.InText) : Decodes s.dropKey InText := by
  mvcgen [dropKey]
  exact h.congr rfl rfl

@[spec] theorem decodes_saveKey (h : s.InText) : Decodes s.saveKey InText := by
  mvcgen [saveKey]
  next s' h' => exact h'.congr rfl rfl

/-! ## One token -/

@[spec] theorem decodes_readStreamEnd (h : s.InText) : Decodes s.readStreamEnd InText := by
  mvcgen [readStreamEnd] with grind

@[spec] theorem decodes_readDirectiveLine (h : s.InText) : Decodes s.readDirectiveLine InText := by
  mvcgen [readDirectiveLine] with grind

@[spec] theorem decodes_readMarker (h : s.InText) {t : Token} (ht : t.InText) :
    Decodes (s.readMarker t) InText := by
  mvcgen [readMarker] with grind

@[spec] theorem decodes_readOpening (h : s.InText) {t : Token} (ht : t.InText) :
    Decodes (s.readOpening t) InText := by
  mvcgen [readOpening] with grind

@[spec] theorem decodes_readClosing (h : s.InText) {t : Token} (ht : t.InText) :
    Decodes (s.readClosing t) InText := by
  mvcgen [readClosing] with grind

@[spec] theorem decodes_readComma (h : s.InText) : Decodes s.readComma InText := by
  mvcgen [readComma] with grind

@[spec] theorem decodes_readEntry (h : s.InText) : Decodes s.readEntry InText := by
  mvcgen [readEntry]
  case vc2 => exact h.startAt _ nofun
  all_goals grind

@[spec] theorem decodes_readKey (h : s.InText) : Decodes s.readKey InText := by
  mvcgen [readKey]
  case vc2 => exact h.startAt _ nofun
  all_goals grind

@[spec] theorem decodes_readValue (h : s.InText) : Decodes s.readValue InText := by
  mvcgen [readValue]
  -- A pending key gets its token where it began, with the start of a mapping if one opens there.
  case vc1 key rest hpending keyless keyed =>
    have hkeyless : keyless.InText := h.congr rfl rfl
    have hkeyed : keyed.InText := (hkeyless.blockAt key.column).insertAt key.place (by grind)
    grind
  case vc3 => exact h.startAt _ nofun
  all_goals grind

@[spec] theorem decodes_readKeyLike {read : Cursor → Scan (Token × Cursor)}
    (hread : ∀ {k : Cursor}, k.InText → Decodes (read k) fun r => r.1.InText ∧ r.2.InText)
    (h : s.InText) : Decodes (s.readKeyLike read) InText := by
  mvcgen [readKeyLike, hread] with grind

@[spec] theorem decodes_readBlockText (h : s.InText) (folded : Bool) :
    Decodes (s.readBlockText folded) InText := by
  mvcgen [readBlockText] with grind

@[spec] theorem decodes_readPlain (h : s.InText) : Decodes s.readPlain InText := by
  mvcgen [readPlain] with grind

@[spec] theorem decodes_readAlias {k : Cursor} (h : k.InText) :
    Decodes (readAlias k) fun r => r.1.InText ∧ r.2.InText := by
  mvcgen [readAlias] with grind

@[spec] theorem decodes_readAnchor {k : Cursor} (h : k.InText) :
    Decodes (readAnchor k) fun r => r.1.InText ∧ r.2.InText := by
  mvcgen [readAnchor] with grind

@[spec] theorem decodes_marker? {k : Cursor} (h : k.InText) (c : Char) :
    Decodes (marker? k c) fun found => ∀ t ∈ found, t.InText := by
  mvcgen [marker?] with grind

@[spec] theorem decodes_readIndicated (h : s.InText) (c : Char) :
    Decodes (s.readIndicated c) InText := by
  mvcgen [readIndicated] with grind

@[spec] theorem decodes_readToken (h : s.InText) (c : Char) : Decodes (s.readToken c) InText := by
  mvcgen [readToken] with grind

@[spec] theorem decodes_step (h : s.InText) : Decodes s.step InText := by
  have hgap := h.skipGap s.cursor.size.succ
  mvcgen [step] with grind

theorem readAll_inText (h : s.InText) (fuel : Nat) : TokensInText (s.readAll fuel) := by
  induction fuel generalizing s with
  | zero => exact h.tokens
  | succ fuel ih =>
    have hstep := decodes_step h
    rw [readAll]
    cases hnext : s.step with
    | error failure =>
      have hfailure : failure ≠ .undecodable := (hnext ▸ hstep).failure
      intro t ht
      rcases List.mem_cons.mp ht with rfl | ht
      · grind
      · exact h.tokens t (List.mem_of_mem_drop ht)
    | ok next =>
      have hinText : next.InText := (hnext ▸ hstep).result
      dsimp only
      split
      · exact hinText.tokens
      · exact ih hinText

end Lexing

/-- The tokens of a text are in text. -/
theorem tokens_inText {source : Source} (h : source.stop ≠ some .undecodable) :
    TokensInText (tokens source) := by
  intro t ht
  refine Lexing.readAll_inText ?_ _ t (List.mem_reverse.mp ht)
  have hstart := Lexing.InText.start h
  split
  · exact hstart.moveTo (by simpa using hstart.cursor)
  · exact hstart

end ComponentAttrs.Yaml
