namespace Stencil

/-- Settings for reading templates. -/
structure Options where
  /-- Opens and closes directives. -/
  sigil : Char := '$'
  deriving DecidableEq, Repr

end Stencil
