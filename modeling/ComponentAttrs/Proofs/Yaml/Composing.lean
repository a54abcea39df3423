import Mathlib
import ComponentAttrs.Proofs.Yaml.Lexing
import ComponentAttrs.Yaml.Node

/-!
The nodes of a document are read off its tokens, and the only token that speaks of undecodable bytes
is one that the tokens of a text do not hold. Nothing puts a token back, so every reader leaves a
composition in text as it found it.
-/
namespace ComponentAttrs.Yaml

open Std.Do

set_option mvcgen.warning false

/-- No token to come has to do with bytes that are no text. -/
abbrev Composition.InText (s : Composition) : Prop := TokensInText s.tokens

/-- Reading on in text stays in text and does not fail for bytes. -/
abbrev Composes {α : Type} (x : Composing α) : Prop :=
  ⦃fun s => ⌜s.InText⌝⦄ x ⦃post⟨fun _ s => ⌜s.InText⌝, fun failure => ⌜failure ≠ .undecodable⌝⟩⦄

theorem Composes.run {α : Type} {x : Composing α} (h : Composes x) {s : Composition}
    (hs : s.InText) : Decodes (x s) fun r => r.2.InText := by
  rw [Composes, Triple] at h
  rw [Decodes, Triple]
  exact fun _ => h s hs

@[spec] theorem failWith_spec {α : Type} (failure : Failure)
    (Q : PostCond α (.arg Composition (.except Failure .pure))) :
    ⦃fun _ => Q.2.1 failure⦄ (failWith failure : Composing α) ⦃Q⦄ := by
  rw [Triple]
  exact fun _ h => h

namespace Composing

@[spec] theorem composes_fail {α : Type} (p : Problem) : Composes (fail p : Composing α) := by
  mvcgen [fail]
  nofun

@[spec] theorem composes_peek : Composes peek := by
  mvcgen [peek] with grind

@[spec] theorem composes_drop : Composes drop := by
  mvcgen [drop]
  next s h _ => exact fun t ht => h t (List.mem_of_mem_tail ht)

@[spec] theorem composes_reserve (anchor : Option String) : Composes (reserve anchor) := by
  cases anchor with
  | none => mvcgen [reserve]
  | some name =>
    mvcgen [reserve]
    split
    · mvcgen
    · mvcgen

@[spec] theorem composes_finish (id : Nat) (node : Node) : Composes (finish id node) := by
  mvcgen [finish]

@[spec] theorem composes_addScalar (anchor : Option String) (tag : Tag) (text : String) :
    Composes (addScalar anchor tag text) := by
  mvcgen [addScalar]

@[spec] theorem composes_addEmpty : Composes addEmpty := composes_addScalar none .null ""

@[spec] theorem composes_resolveAlias (name : String) : Composes (resolveAlias name) := by
  mvcgen [resolveAlias]

@[spec] theorem composes_readProperties : Composes readProperties := by
  mvcgen [readProperties]

@[spec] theorem composes_readBare (anchor tag : Option String) : Composes (readBare anchor tag) := by
  mvcgen [readBare]

@[spec] theorem composes_readComma (first : Bool) : Composes (readComma first) := by
  mvcgen [readComma]

/-- Every reader of a part of a document composes, given this much fuel. -/
structure Readers (fuel : Nat) : Prop where
  part : ∀ room place isEnd, Composes (readPart room place isEnd fuel)
  node : ∀ room place, Composes (readNode room place fuel)
  entries : ∀ room, Composes (readEntries room fuel)
  looseEntries : ∀ room, Composes (readLooseEntries room fuel)
  pairs : ∀ room, Composes (readPairs room fuel)
  valuePart : ∀ room place isEnd, Composes (readValuePart room place isEnd fuel)
  bracketItems : ∀ room first, Composes (readBracketItems room first fuel)
  bracePairs : ∀ room first, Composes (readBracePairs room first fuel)

theorem readers_zero : Readers 0 where
  part _ _ _ := composes_fail _
  node _ _ := composes_fail _
  entries _ := composes_fail _
  looseEntries _ := composes_fail _
  pairs _ := composes_fail _
  valuePart _ _ _ := composes_fail _
  bracketItems _ _ := composes_fail _
  bracePairs _ _ := composes_fail _

section

variable {fuel : Nat} (h : Readers fuel)

include h

theorem Readers.part_succ (room : Nat) (place : Place) (isEnd : Token → Bool) :
    Composes (readPart room place isEnd (fuel + 1)) := by
  have hnode := h.node
  mvcgen [readPart, hnode]

theorem Readers.node_succ (room : Nat) (place : Place) : Composes (readNode room place (fuel + 1)) := by
  obtain ⟨hpart, hnode, hentries, hlooseEntries, hpairs, hvaluePart, hbracketItems, hbracePairs⟩ := h
  mvcgen [readNode, hentries, hlooseEntries, hpairs, hbracketItems, hbracePairs]

theorem Readers.entries_succ (room : Nat) : Composes (readEntries room (fuel + 1)) := by
  have hpart := h.part
  have hentries := h.entries
  mvcgen [readEntries, hpart, hentries]

theorem Readers.looseEntries_succ (room : Nat) : Composes (readLooseEntries room (fuel + 1)) := by
  have hpart := h.part
  have hentries := h.looseEntries
  mvcgen [readLooseEntries, hpart, hentries]

theorem Readers.pairs_succ (room : Nat) : Composes (readPairs room (fuel + 1)) := by
  have hpart := h.part
  have hvalue := h.valuePart
  have hpairs := h.pairs
  mvcgen [readPairs, hpart, hvalue, hpairs]

theorem Readers.valuePart_succ (room : Nat) (place : Place) (isEnd : Token → Bool) :
    Composes (readValuePart room place isEnd (fuel + 1)) := by
  have hpart := h.part
  mvcgen [readValuePart, hpart]

theorem Readers.bracketItems_succ (room : Nat) (first : Bool) :
    Composes (readBracketItems room first (fuel + 1)) := by
  obtain ⟨hpart, hnode, -, -, -, hvalue, hitems, -⟩ := h
  mvcgen [readBracketItems, hpart, hnode, hvalue, hitems]

theorem Readers.bracePairs_succ (room : Nat) (first : Bool) :
    Composes (readBracePairs room first (fuel + 1)) := by
  obtain ⟨hpart, hnode, -, -, -, hvalue, -, hpairs⟩ := h
  mvcgen [readBracePairs, hpart, hnode, hvalue, hpairs]

end

theorem readers (fuel : Nat) : Readers fuel := by
  -- The readers call each other, each time with one less.
  induction fuel with
  | zero => exact readers_zero
  | succ fuel ih =>
    exact ⟨ih.part_succ, ih.node_succ, ih.entries_succ, ih.looseEntries_succ, ih.pairs_succ,
      ih.valuePart_succ, ih.bracketItems_succ, ih.bracePairs_succ⟩

/-! ## Documents -/

@[spec] theorem decodes_malformed {α : Type} {P : α → Prop} (p : Problem) :
    Decodes (malformed p : Except Failure α) P := by
  mvcgen [malformed]
  nofun

@[spec] theorem decodes_readDirectives (versioned : Bool) (handles : List (String × String))
    {tokens : List Token} (h : TokensInText tokens) :
    Decodes (readDirectives versioned handles tokens) fun r => TokensInText r.2 := by
  fun_induction readDirectives versioned handles tokens with
  | case1 => mvcgen
  | case2 versioned handles rest major minor hmajor ih => exact ih (by grind)
  | case3 => mvcgen
  | case4 versioned handles rest name expansion hfresh ih => exact ih (by grind)
  | case5 versioned handles rest ih => exact ih (by grind)
  | case6 => mvcgen

@[spec] theorem decodes_readStart {tokens : List Token} (h : TokensInText tokens) :
    Decodes (readStart tokens) fun r => TokensInText r.2 := by
  mvcgen [readStart] with grind

theorem readStart_failure {tokens : List Token} (h : TokensInText tokens) {failure : Failure}
    (hstart : readStart tokens = .error failure) : failure ≠ .undecodable :=
  (hstart ▸ decodes_readStart h).failure

@[spec] theorem composes_readDocument (bare : Bool) (fuel : Nat) :
    Composes (readDocument bare fuel) := by
  have hnode := (readers fuel).node
  have hpart := (readers fuel).part
  mvcgen [readDocument, hnode, hpart]
  all_goals
    next s hs rest _ hrest failure hstart =>
    subst hrest
    exact readStart_failure (fun t ht => hs t ((List.dropWhile_sublist _).mem ht)) hstart

end Composing

@[spec] theorem decodes_compose {tokens : List Token} (h : TokensInText tokens)
    (handles : List (String × String)) (bare : Bool) :
    Decodes (compose tokens handles bare) fun _ => True := by
  have hread := (Composing.composes_readDocument bare (4 * tokens.length + 8)).run
    (s := ⟨tokens, #[], [], [], handles⟩) h
  mvcgen [compose, hread]

@[spec] theorem decodes_nodes? {source : Source} (h : source.stop ≠ some .undecodable) :
    Decodes (nodes? source) fun _ => True := by
  have htokens := tokens_inText h
  mvcgen [nodes?] with grind

end ComponentAttrs.Yaml
