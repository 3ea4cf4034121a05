import Stencil.Directive
import Stencil.Node.Basic
import Stencil.Span
import Stencil.Token.Basic

namespace Stencil

/-- The part of a block that is being read. -/
inductive Arm where
  | root
  | thenArm
  | elseArm
  | body
  | separator
  deriving DecidableEq, Repr

/-- The directives that end an arm. All others are look-ups there, keywords too. -/
def Arm.stops : Arm → Directive → Bool
  | thenArm, .elseIf _ => true
  | thenArm, .otherwise => true
  | thenArm, .endIf => true
  | elseArm, .endIf => true
  | body, .sep => true
  | body, .endFor => true
  | separator, .endFor => true
  | _, _ => false

namespace Node

/-- Tokens that are left when at least one has been read. -/
structure Rest (ts : List (Spanned Token)) where
  tokens : List (Spanned Token)
  shorter : tokens.length < ts.length

/-- The nodes of an arm: up to the directive that ends it, or up to the last token. -/
inductive Stretch (ts : List (Spanned Token)) where
  | closed (nodes : List Node) (stop : Directive) (marker : Spanned String) (rest : Rest ts)
  | unclosed (nodes : List Node)

namespace Stretch

def nodes {ts : List (Spanned Token)} : Stretch ts → List Node
  | closed nodes _ _ _ => nodes
  | unclosed nodes => nodes

/-- Puts nodes in front that were read from a longer list. -/
def prepend {ts us : List (Spanned Token)} (front : List Node) (h : us.length ≤ ts.length) :
    Stretch us → Stretch ts
  | closed nodes stop marker rest =>
    closed (front ++ nodes) stop marker ⟨rest.tokens, Nat.lt_of_lt_of_le rest.shorter h⟩
  | unclosed nodes => unclosed (front ++ nodes)

end Stretch

def unterminated (opener : Spanned String) (expected : String) : Spanned ParseError :=
  ⟨.unterminatedBlock opener.value expected, opener.span⟩

mutual

/-- Reads the nodes of an arm. -/
def readArm (arm : Arm) (ts : List (Spanned Token)) : Except (Spanned ParseError) (Stretch ts) :=
  match ts with
  | [] => .ok (.unclosed [])
  | ⟨.plain content, _⟩ :: rest => do
    let more ← readArm arm rest
    return more.prepend (if content.isEmpty then [] else [text content]) (Nat.le_succ _)
  | ⟨.directive content, span⟩ :: rest =>
    match Directive.classify content with
    | .error e => .error ⟨e, span⟩
    | .ok directive =>
      if arm.stops directive then
        .ok (.closed [] directive ⟨content, span⟩ ⟨rest, Nat.lt_succ_self _⟩)
      else match directive with
        | .ifBlock condition => do
          let (node, left) ← readConditional condition ⟨content, span⟩ rest
          let more ← readArm arm left.tokens
          return more.prepend [node] (Nat.le_succ_of_le (Nat.le_of_lt left.shorter))
        | .forBlock source => do
          let (node, left) ← readIteration source ⟨content, span⟩ rest
          let more ← readArm arm left.tokens
          return more.prepend [node] (Nat.le_succ_of_le (Nat.le_of_lt left.shorter))
        | _ => do
          let more ← readArm arm rest
          return more.prepend [lookup content] (Nat.le_succ _)
termination_by 2 * ts.length
decreasing_by
  all_goals try have := left.shorter
  all_goals
    simp only [List.length_cons]
    omega

/-- Reads what follows `if(condition)`. A chained `elseif` takes the `endif` for itself. -/
def readConditional (condition : String) (opener : Spanned String) (ts : List (Spanned Token)) :
    Except (Spanned ParseError) (Node × Rest ts) := do
  match ← readArm .thenArm ts with
  | .closed nodes (.elseIf next) marker rest =>
    let (node, left) ← readConditional next marker rest.tokens
    return (conditional condition (sequence nodes) node,
      ⟨left.tokens, Nat.lt_trans left.shorter rest.shorter⟩)
  | .closed nodes .otherwise _ rest =>
    match ← readArm .elseArm rest.tokens with
    | .closed others _ _ left =>
      return (conditional condition (sequence nodes) (sequence others),
        ⟨left.tokens, Nat.lt_trans left.shorter rest.shorter⟩)
    | .unclosed _ => .error (unterminated opener "'endif'")
  | .closed nodes _ _ rest => return (conditional condition (sequence nodes) (text ""), rest)
  | .unclosed _ => .error (unterminated opener "'elseif(...)', 'else' or 'endif'")
termination_by 2 * ts.length + 1
decreasing_by
  all_goals try have := rest.shorter
  all_goals omega

/-- Reads what follows `for(source)`. -/
def readIteration (source : String) (opener : Spanned String) (ts : List (Spanned Token)) :
    Except (Spanned ParseError) (Node × Rest ts) := do
  match ← readArm .body ts with
  | .closed nodes .sep _ rest =>
    match ← readArm .separator rest.tokens with
    | .closed between _ _ left =>
      return (iteration source (sequence nodes) (some (sequence between)),
        ⟨left.tokens, Nat.lt_trans left.shorter rest.shorter⟩)
    | .unclosed _ => .error (unterminated opener "'endfor'")
  | .closed nodes _ _ rest => return (iteration source (sequence nodes) none, rest)
  | .unclosed _ => .error (unterminated opener "'sep' or 'endfor'")
termination_by 2 * ts.length + 1
decreasing_by
  all_goals try have := rest.shorter
  all_goals omega

end

/-- The tree of a list of tokens, or the first block that is wrong. -/
def parse (ts : List (Spanned Token)) : Except (Spanned ParseError) Node := do
  let stretch ← readArm .root ts
  return sequence stretch.nodes

end Node
end Stencil
