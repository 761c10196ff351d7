/-
Planning problems as they are read from text, not yet checked against any domain,
and the faults that keep a text from being one.

A problem names its objects, lists what is certain and what is contingent in the
initial state, and may set a goal. Which text stands for which problem is the
business of a `Grammar`; `WorldModel.Problem.Reader` holds the one for the usual
parenthesised form, and a world can import problems with any other.
-/
import WorldModel.Domain.Basic
import WorldModel.Formula.Record
import WorldModel.SExpr.Parser

set_option autoImplicit false

namespace WorldModel

/-! ## Problems -/

/-- A problem as read. -/
structure Problem where
  name : String
  objects : List Entity
  /-- Certain facts: literals and fluents. -/
  init : List Formula
  /-- Contingent facts. -/
  contingent : List Formula
  goal : Option Formula
deriving Inhabited

/-! ## Faults -/

/-- What is wrong with a form, given what was expected in its place. -/
inductive FormFault where
  | notObject
  | notForm
  | emptyForm
  | noHead
  | negatesAtoms
  | negatesExpressions
  | wraps
  | compares
  | updates
  | combines
  | notNumber
  | notAssignment
  | amongObjects
deriving DecidableEq

/-- The message of a fault in a form with the given text. -/
def FormFault.message (form : String) : FormFault → String
  | notObject => s!"expected an object name, found {form}"
  | notForm => s!"expected a parenthesized form, found {form}"
  | emptyForm => "empty form `()`"
  | noHead => s!"form {form} must start with a name"
  | negatesAtoms => s!"{form} must negate exactly one atom"
  | negatesExpressions => s!"{form} must negate exactly one expression"
  | wraps => s!"{form} must wrap exactly one atom"
  | compares => s!"{form} must compare exactly two values"
  | updates => s!"{form} takes a function and a value"
  | combines => s!"{form} must combine exactly two values"
  | notNumber => s!"expected a number, found {form}"
  | notAssignment => s!"expected (= (function …) value), found {form}"
  | amongObjects => s!"unexpected form {form} in object list"

/-- Why a text is no problem, or none that a world will take. -/
inductive ProblemError where
  /-- Nothing but blanks. -/
  | blank
  /-- No domain is named. -/
  | missingDomain
  /-- A domain other than the world's is named. -/
  | unknownDomain (name : String)
  /-- The parentheses do not match. -/
  | parens (error : SExpr.ParenError)
  /-- A form is not what its place asks for. -/
  | form (fault : FormFault) (text : String) (offset : Nat)
  /-- A dash at the end of an object list. -/
  | untypedDash
  /-- No `define` form. -/
  | noDefinition
  /-- No `problem` section with one name. -/
  | noHeader
  /-- A section that is none of the known ones. -/
  | unknownSection (text : String)
  /-- A goal section without exactly one expression. -/
  | goalCount
  /-- Not exactly one expression where one was asked for. -/
  | expressionCount (count : Nat)
  /-- Whatever a grammar has to say beyond these. -/
  | reported (message : String)
  /-- A construct that is understood and refused. -/
  | unsupported (construct : String)
deriving DecidableEq

/-- The byte and the message of an error of parentheses. -/
def parenMessage : SExpr.ParenError → String
  | .unexpected offset => s!"syntax error at byte {offset}: unexpected `)`"
  | .unclosed offset => s!"syntax error at byte {offset}: unclosed `(`"

/-- What a malformed problem is told about itself. -/
def malformedMessage (reason : String) : String :=
  "malformed problem: " ++ reason

/-- The message of an error. -/
def ProblemError.message : ProblemError → String
  | blank => "problem text is empty"
  | missingDomain => "problem does not name its domain"
  | unknownDomain name => s!"problem refers to unknown domain \"{name}\""
  | parens e => parenMessage e
  | form fault text offset => malformedMessage s!"{fault.message text} (at byte {offset})"
  | untypedDash => malformedMessage "`-` must be followed by a type name"
  | noDefinition => malformedMessage "no (define …) form"
  | noHeader => malformedMessage "missing (problem <name>) header"
  | unknownSection text => malformedMessage s!"unknown section {text}"
  | goalCount => malformedMessage "(:goal …) takes exactly one expression"
  | expressionCount 0 => malformedMessage "expected one expression, found none"
  | expressionCount n => malformedMessage s!"expected one expression, found {n}"
  | reported message => malformedMessage message
  | unsupported construct => s!"unsupported construct \"{construct}\""

/-! ## Grammars -/

/-- **A way to read problems**: how a text names its domain, and what it says. A
world hands over lower-cased text without comments. -/
structure Grammar where
  domainName : String → Option String
  read : String → Domain → Except ProblemError Problem

end WorldModel
