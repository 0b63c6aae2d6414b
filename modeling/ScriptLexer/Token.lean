import ScriptLexer.Number.Binary64
import ScriptLexer.Token.Kind

/-!
Tokens: a kind, the text it was read from, the value of a literal, and where it
stands. A token is sound if it carries a literal exactly when its kind asks for
one; a listing takes any token, and building one with care reports a misfit.
-/

namespace ScriptLexer

inductive Literal where
  | text (value : String)
  | integer (value : Int)
  | float (value : Number.Binary64)
  deriving DecidableEq

/-- A stretch of a script, in bytes. -/
structure Span where
  offset : Nat
  length : Nat
  deriving DecidableEq

def Span.stop (span : Span) : Nat :=
  span.offset + span.length

structure Token where
  kind : Kind
  lexeme : String
  literal : Option Literal
  line : Nat
  span : Span
  deriving DecidableEq

namespace Token

inductive Misfit where
  | missingLiteral (kind : Kind)
  | strayLiteral (kind : Kind)
  deriving DecidableEq

def Misfit.message : Misfit → String
  | missingLiteral kind => kind.name ++ " requires a literal"
  | strayLiteral kind => kind.name ++ " cannot carry a literal"

/-- Builds a token and refuses one whose literal does not fit its kind. -/
def build (kind : Kind) (lexeme : String) (literal : Option Literal) (line : Nat)
    (span : Span) : Except Misfit Token :=
  match literal, kind.isLiteral with
  | none, true => .error (.missingLiteral kind)
  | some _, false => .error (.strayLiteral kind)
  | _, _ => .ok ⟨kind, lexeme, literal, line, span⟩

theorem build_eq_ok_iff {kind : Kind} {lexeme : String} {literal : Option Literal}
    {line : Nat} {span : Span} {token : Token} :
    build kind lexeme literal line span = .ok token ↔
      literal.isSome = kind.isLiteral ∧ token = ⟨kind, lexeme, literal, line, span⟩ := by
  cases literal <;> cases h : kind.isLiteral <;> simp [build, h, eq_comm]

def endOfText (line offset : Nat) : Token :=
  ⟨.endOfText, "", none, line, ⟨offset, 0⟩⟩

end Token

end ScriptLexer
