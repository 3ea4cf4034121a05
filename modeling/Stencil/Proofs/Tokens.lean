import Stencil.Node.Basic
import Stencil.Token.Basic

namespace Stencil

namespace Node

def loopTokens (source : String) (body between : List Token) : List Token :=
  .directive ("for(" ++ source ++ ")") :: (body ++ between ++ [.directive "endfor"])

def otherwiseTokens (arm : List Token) : List Token :=
  .directive "else" :: (arm ++ [.directive "endif"])

mutual

/-- The tokens that a tree is written with. -/
def tokens : Node → List Token
  | text content => [.plain content]
  | lookup path => [.directive path]
  | conditional condition thenArm elseArm =>
    .directive ("if(" ++ condition ++ ")") :: (tokens thenArm ++ elseTokens elseArm)
  | iteration source body separator => loopTokens source (tokens body) (separatorTokens separator)
  | sequence nodes => tokensAll nodes

/-- What follows a then-arm. A conditional is chained; an empty text stands for no else-arm. -/
def elseTokens : Node → List Token
  | text content =>
    if content = "" then [.directive "endif"] else otherwiseTokens [.plain content]
  | lookup path => otherwiseTokens [.directive path]
  | conditional condition thenArm elseArm =>
    .directive ("elseif(" ++ condition ++ ")") :: (tokens thenArm ++ elseTokens elseArm)
  | iteration source body separator =>
    otherwiseTokens (loopTokens source (tokens body) (separatorTokens separator))
  | sequence nodes => otherwiseTokens (tokensAll nodes)

def separatorTokens : Option Node → List Token
  | none => []
  | some between => .directive "sep" :: tokens between

def tokensAll : List Node → List Token
  | [] => []
  | node :: rest => tokens node ++ tokensAll rest

end

def IsSequence : Node → Prop
  | sequence _ => True
  | _ => False

def IsElseArm : Node → Prop
  | text content => content = ""
  | conditional _ _ _ => True
  | sequence _ => True
  | _ => False

mutual

/-- Arms are sequences, or stand for a missing or a chained else-arm, and sequences hold no empty
    texts. -/
def WellShaped : Node → Prop
  | text _ => True
  | lookup _ => True
  | conditional _ thenArm elseArm =>
    (thenArm.IsSequence ∧ WellShaped thenArm) ∧ elseArm.IsElseArm ∧ WellShaped elseArm
  | iteration _ body separator => (body.IsSequence ∧ WellShaped body) ∧ SeparatorShaped separator
  | sequence nodes => AllShaped nodes

def SeparatorShaped : Option Node → Prop
  | none => True
  | some between => between.IsSequence ∧ WellShaped between

def AllShaped : List Node → Prop
  | [] => True
  | node :: rest => (node ≠ text "" ∧ WellShaped node) ∧ AllShaped rest

end

theorem tokensAll_append (xs ys : List Node) : tokensAll (xs ++ ys) = tokensAll xs ++ tokensAll ys := by
  induction xs with
  | nil => rfl
  | cons x xs ih => rw [List.cons_append, tokensAll, tokensAll, ih, List.append_assoc]

theorem allShaped_append {xs ys : List Node} :
    AllShaped (xs ++ ys) ↔ AllShaped xs ∧ AllShaped ys := by
  induction xs with
  | nil => simp [AllShaped]
  | cons x xs ih => simp only [List.cons_append, AllShaped, ih, and_assoc]

end Node
end Stencil
