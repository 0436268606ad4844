/-!
# How a task ends

A task that moves bytes ends in one of three ways: it gets through, it fails
with an error it can name, or it is torn down in the middle of a call to its
caller's stream and names nothing.
-/

namespace ContainerAttach

/-- The three ways in which a task ends. -/
inductive Ending (ε α : Type) where
  | done (value : α)
  | failed (error : ε)
  | crashed
  deriving DecidableEq, Repr

end ContainerAttach
