import ByteSearch.Regex.Matching
import ByteSearch.Regex.Meaning
import ByteSearch.Regex.Scratch
import ByteSearch.Regex.Token.Lexer

/-!
# Compiled expressions

A source text is cut into tokens, the tokens form a tree, and the tree has a meaning as an
expression. `compile` does all of this and builds the automaton. Each stage may refuse its input.
Word boundaries between characters beyond ASCII are refused last: no automaton decides them.
-/

namespace ByteSearch.Regex

/-- An expression with its automaton. -/
structure Compiled where
  expr : Expr
  program : Program

namespace Compiled

/-- Compiles an expression. -/
def ofExpr (e : Expr) : Compiled :=
  ⟨e, .ofExpr e⟩

/-- The least capacity with which the automaton can be searched. -/
def minimumCapacity (c : Compiled) : Nat :=
  Scratch.minimumCapacity c.program

end Compiled

/-- The expression of a source text. -/
def Expr.ofSource (source : List Char) : Except Refusal Expr := do
  let tree ← Tree.ofTokens (← Lexer.tokens source)
  let (e, _) ← tree.meaning {}
  if e.looks.contains .unicodeWord then throw .unicodeWordBoundary
  return e

/-- Compiles a source text. -/
def compile (source : List Char) : Except Refusal Compiled :=
  (Expr.ofSource source).map .ofExpr

end ByteSearch.Regex
