/-!
What can be wrong with the text of a document.
-/
namespace ComponentAttrs.Yaml

/-- A text that is no document, by what is wrong with it. -/
inductive Problem where
  | unprintable
  | unexpectedEnd
  | badIndicator
  | badDirective
  | badAnchor
  | badTag
  | badEscape
  | badBlockHeader
  | separatorInQuotes
  | unfinishedKey
  | misplacedEntry
  | misplacedKey
  | misplacedValue
  | unbalanced
  | expectedDocument
  | expectedNode
  | expectedBlockEnd
  | expectedSeparator
  | severalDocuments
  | unknownHandle
  | unknownAlias
  | repeatedAnchor
  | unknownTag
  | wrongKind
  | badMerge
  | badKey
  | badBase64
deriving DecidableEq

/-- Why a scalar has no value although its tag promises one. -/
inductive ScalarProblem where
  /-- The text names no value. -/
  | value
  /-- The text is no word of the kind. -/
  | word
  /-- There is no text. -/
  | empty
  /-- The text has not the form that all values of the kind have. -/
  | shape
  /-- The number is too large. -/
  | range
  /-- A collection stands where only a scalar of its own can. -/
  | collection
  /-- The way to the text, or through the collections around it, is too long. -/
  | depth
deriving DecidableEq

/-- Reading a document fails because its text is malformed, because its bytes are no text, or
because a scalar has no value. -/
inductive Failure where
  | malformed (problem : Problem)
  | undecodable
  | scalar (problem : ScalarProblem)
deriving DecidableEq

/-- Messages do not go into what is wrong inside a document. -/
def Problem.message (_ : Problem) : String := "<yaml error>"

end ComponentAttrs.Yaml
