namespace Stencil

/-- A template as a tree. -/
inductive Node where
  | text (content : String)
  /-- What a path leads to. -/
  | lookup (path : String)
  | conditional (condition : String) (thenArm elseArm : Node)
  | iteration (source : String) (body : Node) (separator : Option Node)
  /-- One after another. -/
  | sequence (nodes : List Node)
  deriving Inhabited

end Stencil
