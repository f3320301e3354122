import Calculator.Parser.Grammar

/-!
# Parser programs

A parser can be driven by a program: a list of instructions, some of which run
programs of their own on a copy, with a way back, or inside parentheses. Each
instruction is answered, and an observation keeps the answer with the tokens on
both sides of the place reached.
-/

set_option autoImplicit false

namespace Calculator

/-- An instruction to a parser. -/
inductive Instruction where
  | peek
  | next
  | span
  | endSpan
  /-- Gives the error that the source ends here. -/
  | errorHere
  /-- Gives the error that the next token is none of the expected ones. -/
  | unexpected (expected : List TokenKind)
  /-- Reads a phrase and goes back where that fails. -/
  | read (production : Production)
  /-- Reads a phrase that must use up the source. -/
  | readWhole (production : Production)
  /-- Runs a program on a copy of the parser. -/
  | fork (program : List Instruction)
  /-- Runs a program and goes back if it is made to fail at its end. -/
  | attempt (program : List Instruction) (fails : Bool)
  /-- Runs a program inside a number of parentheses, and may make it fail at its
  end. -/
  | nested (program : List Instruction) (fails : Bool) (levels : Nat)
deriving Inhabited, Repr

abbrev ParserProgram := List Instruction

mutual

/-- The answer to an instruction. -/
inductive Answer (α : Type) where
  | kind (kind : Option TokenKind)
  | token (token : Token)
  | span (span : Span)
  | error (error : ParseError)
  | phrase (phrase : Phrase α)
  /-- What a program observed on its copy. -/
  | forked (inner : List (Observation α))
  /-- What a program observed, unless it was not run, and the failure that it
  ended with. -/
  | scoped (inner : Option (List (Observation α))) (failure : Option ParseError)

/-- An answer and the tokens before and after the place reached. -/
inductive Observation (α : Type) where
  | mk (answer : Answer α) (previous current : Option Token)

end

/-- The failure of a program inside a scope, and what it observed before; nothing
if it was not run. -/
structure ScopeFailure (α : Type) where
  error : ParseError
  inner : Option (List (Observation α))

namespace Parser

variable {α : Type}

/-- Runs an action inside a number of parentheses, all of which open at the first
byte of the source. -/
def nestedTimes {ε β : Type} (refusal : ParseError → ε) :
    Nat → ParseAction ε β → ParseAction ε β
  | 0, action => action
  | levels + 1, action => nestedOr refusal ⟨0, 1⟩ (nestedTimes refusal levels action)

/-- Ends a scope with what was observed in it: as a success, or as the failure
that the source should end here. -/
def concludeScope (fails : Bool) (inner : List (Observation α)) :
    ParseAction (ScopeFailure α) (List (Observation α)) := fun parser =>
  if fails then .error ⟨parser.errorHere .expectedEnd, some inner⟩ parser
  else .ok inner parser

/-- The answer of a scope, from how it ended. -/
def scopeAnswer :
    EStateM.Result (ScopeFailure α) Parser (List (Observation α)) → Answer α × Parser
  | .ok inner parser => (.scoped (some inner) none, parser)
  | .error failure parser => (.scoped failure.inner (some failure.error), parser)

/-- The answer of an action, from how it ended. -/
def answerOf {β : Type} (answer : β → Answer α) :
    EStateM.Result ParseError Parser β → Answer α × Parser
  | .ok value parser => (answer value, parser)
  | .error error parser => (.error error, parser)

variable [Numeral α] [Neg α]

mutual

/-- Follows one instruction. -/
def follow : Instruction → Parser → Answer α × Parser
  | .peek, parser => answerOf .kind (peek parser)
  | .next, parser => answerOf .token (next parser)
  | .span, parser => (.span parser.span, parser)
  | .endSpan, parser => (.span parser.endSpan, parser)
  | .errorHere, parser => (.error (parser.errorHere .unexpectedEnd), parser)
  | .unexpected expected, parser => answerOf .error (unexpected expected parser)
  | .read production, parser => answerOf .phrase (attempt production.read parser)
  | .readWhole production, parser => answerOf .phrase (whole production.read parser)
  | .fork program, parser => (.forked (run program parser).1, parser)
  | .attempt program fails, parser =>
      scopeAnswer
        (attempt
          (fun start =>
            let (inner, parser) := run program start
            concludeScope fails inner parser)
          parser)
  | .nested program fails levels, parser =>
      scopeAnswer
        (nestedTimes (⟨·, none⟩) levels
          (fun start =>
            let (inner, parser) := run program start
            concludeScope fails inner parser)
          parser)

/-- Runs a program and observes the parser after each instruction. -/
def run : List Instruction → Parser → List (Observation α) × Parser
  | [], parser => ([], parser)
  | instruction :: rest, parser =>
      let (answer, parser) := follow instruction parser
      let (observations, last) := run rest parser
      (.mk answer parser.previous? parser.current? :: observations, last)

end

end Parser

end Calculator
