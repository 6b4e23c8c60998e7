import Manifest.Diagnostic
import Manifest.Fault

/-!
# Failures

A `Failure` is what a failed load reports: the category of the fault, its message, and, when the
fault has a place in the text, the place with an excerpt. A `Loaded` document is a value or a
failure.
-/

namespace Manifest

/-- The categories of failures. -/
inductive Failure.Kind
  | lex
  | parse
  | unknownFunction
  | host
  | settings
deriving DecidableEq, Repr

namespace Failure.Kind

/-- The name of a category. -/
def name : Kind → String
  | lex => "LexError"
  | parse => "ParseError"
  | unknownFunction => "InvalidFunction"
  | host => "HostError"
  | settings => "ConfigError"

/-- The label of a category in a full description. -/
def label : Kind → String
  | lex => "LEX_ERROR"
  | parse => "PARSE_ERROR"
  | unknownFunction => "INVALID_FUNCTION"
  | host => "HOST_ERROR"
  | settings => "CONFIG_ERROR"

/-- The category of a fault; a fault that a host raised in words of its own has none. -/
def ofFault? : Fault → Option Kind
  | .document (.lex _) => some lex
  | .document (.parse _) => some parse
  | .unknownFunction _ _ => some unknownFunction
  | .hostFailed _ _ => some host
  | .settings _ => some settings
  | _ => none

end Failure.Kind

/-- Where a failure is, in a text that is at hand. -/
structure Failure.Place where
  line : Nat
  column : Nat
  excerpt : String
deriving DecidableEq, Repr

/-- A failed load. -/
structure Failure where
  kind : Failure.Kind
  message : String
  span : Option Span
  place : Option Failure.Place
deriving DecidableEq, Repr

namespace Failure

/-- The reason and the span of a fault that has a place. -/
def placed? : Fault → Option (String × Span)
  | .document fault => fault.placed?
  | _ => none

/-- Report a fault, with an excerpt of the text if there is one and the fault has a place. A fault
without a category cannot be reported. -/
def ofFault (fault : Fault) (source : Option String) : Except Fault Failure :=
  match Kind.ofFault? fault with
  | none => .error .uncategorized
  | some kind =>
    match placed? fault with
    | none => .ok ⟨kind, fault.message, none, none⟩
    | some (reason, span) =>
      .ok ⟨kind, reason, some span, source.map fun text ↦
        let located := Text.locate text.toList span.start
        ⟨located.line, located.column, Diagnostic.render (some text) span (some reason)⟩⟩

/-- A failure in words: its category and message, its place, and the excerpt. -/
def text (failure : Failure) : String :=
  let headline := "❌ " ++ failure.kind.name ++ ": " ++ failure.message
  match failure.place with
  | none => headline
  | some place => headline ++ s!" (line {place.line}, column {place.column})" ++
      (if place.excerpt.isEmpty then "" else "\n" ++ place.excerpt)

/-- A failure with all that is known of it. -/
def describe (failure : Failure) : String :=
  let position := match failure.span with
    | none => "None"
    | some span => s!"({span.start}, {span.stop})"
  let line := (failure.place.map fun place ↦ toString place.line).getD "None"
  let column := (failure.place.map fun place ↦ toString place.column).getD "None"
  let context := (failure.place.map fun place ↦ Text.quote place.excerpt).getD "None"
  "LoadError(kind=<ErrorKind." ++ failure.kind.label ++ ": '" ++ failure.kind.name ++
    "'>, message=" ++ Text.quote failure.message ++ ", position=" ++ position ++
    ", line=" ++ line ++ ", column=" ++ column ++ ", context=" ++ context ++ ")"

end Failure

/-- The result of a load. -/
abbrev Loaded := Except Failure Value

namespace Loaded

/-- A result with all that is known of it. -/
def describe : Loaded → String
  | .ok v => "Ok(" ++ v.describe ++ ")"
  | .error failure => "Err(" ++ failure.describe ++ ")"

/-- The value of a result; taking a failure for one is a fault. -/
def unwrap : Loaded → Except Fault Value
  | .ok v => .ok v
  | .error failure => .error (.unwrapped failure.message)

end Loaded
end Manifest
