import Phrasebook.Failure

/-!
# Key stacks

The position of a walk through a tree, for phases that walk by hand. Entering a key runs a
walk one level deeper and leaves the key again; a walk that did not leave what it entered
is found out, also when its own failure was swallowed inside.
-/

namespace Phrasebook

/-- The keys entered and not left yet, outermost first. -/
structure KeyStack where
  keys : List String := []
deriving DecidableEq, Repr

namespace KeyStack

/-- A step of a walk: it may fail, and leaves a position in either case. -/
abbrev Walk (α : Type) := KeyStack → Except Failure α × KeyStack

def depth (stack : KeyStack) : Nat := stack.keys.length

def child (key : String) (stack : KeyStack) : KeyPath := stack.keys ++ [key]

/-- The innermost key, or the empty text at the root. -/
def innermost (stack : KeyStack) : String := stack.keys.getLast?.getD ""

/-- Runs a walk below a key. A failure of the walk leaves the position where the walk left
it; after a success the key must be the innermost one again. -/
def within {α : Type} (key : String) (walk : Walk α) : Walk α := fun stack =>
  match walk ⟨stack.child key⟩ with
  | (.error failure, after) => (.error failure, after)
  | (.ok value, after) =>
      if after.depth ≠ stack.depth + 1 then (.error (.pathMismatch key after.innermost), after)
      else if after.innermost = key then (.ok value, ⟨after.keys.dropLast⟩)
      else (.error (.pathMismatch key after.innermost), ⟨after.keys.dropLast⟩)

/-- Ends a walk, which must be back at the root. -/
def finish (stack : KeyStack) : Except Failure Unit :=
  if stack.keys.isEmpty then .ok () else .error (.pathMismatch "" stack.innermost)

end KeyStack

end Phrasebook
