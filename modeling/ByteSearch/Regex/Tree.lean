import ByteSearch.Regex.Refusal
import ByteSearch.Regex.Token

/-!
# The tree of an expression

`Tree.ofTokens` arranges tokens into groups, alternatives and repetitions. It keeps a stack of what
is open, so it is one pass over the tokens. `Tree.depth` counts how deep the tree is nested, and
trees deeper than `nestLimit` are refused.
-/

namespace ByteSearch.Regex

/-- An expression as it is written. -/
inductive Tree where
  | empty
  | atom (a : Atom)
  | flags (d : Directive)
  | repetition (min : Nat) (max : Option Nat) (greedy : Bool) (body : Tree)
  | group (kind : GroupKind) (body : Tree)
  | sequence (items : List Tree)
  | alternatives (branches : List Tree)
  deriving Repr

namespace Tree

/-- The greatest depth of a tree. -/
def nestLimit : Nat := 250

/-! ## Depth -/

mutual

/-- The depth of the contents of a class: brackets, unions and operations count. -/
def classDepth : ClassSet → Nat
  | .bracketed _ set => classDepth set + 1
  | .union items => classDepths items + 1
  | .operation _ left right => max (classDepth left) (classDepth right) + 1
  | _ => 0

/-- The greatest depth of some sets. -/
def classDepths : List ClassSet → Nat
  | [] => 0
  | set :: sets => max (classDepth set) (classDepths sets)

end

mutual

/-- The depth of a tree: everything but an item without parts counts. -/
def depth : Tree → Nat
  | .atom (.bracketed _ set) => classDepth set + 1
  | .repetition _ _ _ body => depth body + 1
  | .group _ body => depth body + 1
  | .sequence items => depths items + 1
  | .alternatives branches => depths branches + 1
  | _ => 0

/-- The greatest depth of some trees. -/
def depths : List Tree → Nat
  | [] => 0
  | t :: ts => max (depth t) (depths ts)

end

/-! ## From tokens -/

/-- The sequence of some items, which are in reverse. -/
def ofItems : List Tree → Tree
  | [] => .empty
  | [item] => item
  | items => .sequence items.reverse

/-- What is open: a group with the items before it, or alternatives, in reverse. -/
inductive Frame where
  | group (items : List Tree) (kind : GroupKind)
  | alternatives (branches : List Tree)

/-- The state of the arrangement: what is open, the items since then, in reverse, and the names of
the groups. -/
structure State where
  frames : List Frame := []
  items : List Tree := []
  names : List String := []

/-- The tree of what was read since the innermost group opened, and what is still open. -/
def State.body (s : State) : Tree × List Frame :=
  match s.frames with
  | .alternatives branches :: frames =>
    (.alternatives (ofItems s.items :: branches).reverse, frames)
  | frames => (ofItems s.items, frames)

/-- Repeats the last item. Nothing and a change of flags cannot be repeated. -/
def State.repeated (s : State) (min : Nat) (max : Option Nat) (greedy : Bool) :
    Except Refusal State :=
  match s.items with
  | [] => .error .operandMissing
  | .empty :: _ => .error .operandMissing
  | .flags _ :: _ => .error .operandMissing
  | item :: items => .ok { s with items := .repetition min max greedy item :: items }

/-- Opens a group. A name must be new. -/
def State.opened (s : State) (kind : GroupKind) : Except Refusal State :=
  let frames := .group s.items kind :: s.frames
  match kind with
  | .capture (some name) =>
    if s.names.contains name then .error .groupNameRepeated
    else .ok { s with frames, items := [], names := name :: s.names }
  | _ => .ok { s with frames, items := [] }

/-- Closes the innermost group. -/
def State.closed (s : State) : Except Refusal State :=
  match s.body with
  | (body, .group items kind :: frames) =>
    .ok { s with frames, items := .group kind body :: items }
  | _ => .error .groupUnopened

/-- Ends an alternative. -/
def State.separated (s : State) : State :=
  match s.frames with
  | .alternatives branches :: frames =>
    { s with frames := .alternatives (ofItems s.items :: branches) :: frames, items := [] }
  | frames => { s with frames := .alternatives [ofItems s.items] :: frames, items := [] }

/-- The state after one more token. -/
def State.step (s : State) : Token → Except Refusal State
  | .atom a => .ok { s with items := .atom a :: s.items }
  | .flags d => .ok { s with items := .flags d :: s.items }
  | .opening kind => s.opened kind
  | .closing => s.closed
  | .bar => .ok s.separated
  | .repetition min max greedy => s.repeated min max greedy

/-- The tree of a list of tokens. -/
def ofTokens (tokens : List Token) : Except Refusal Tree := do
  let s ← tokens.foldlM State.step {}
  match s.body with
  | (t, []) => if t.depth ≤ nestLimit then .ok t else .error .nestingTooDeep
  | _ => .error .groupUnclosed

end Tree

end ByteSearch.Regex
