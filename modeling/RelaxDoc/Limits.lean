import RelaxDoc.Error

/-! Bounds on the inputs that are read. -/
namespace RelaxDoc

/-- The largest size in bytes, the deepest nesting and the greatest number of nodes. -/
structure Limits where
  maxSize : Nat
  maxDepth : Nat
  maxNodes : Nat
  deriving DecidableEq, Repr

namespace Limits

/-- The usual limits. -/
def standard : Limits := ⟨100 * 1024 * 1024, 1000, 1000000⟩

/-- Limits for inputs that are not trusted. -/
def strict : Limits := ⟨10 * 1024 * 1024, 100, 100000⟩

/-- Limits for very large schemas. -/
def permissive : Limits := ⟨1024 * 1024 * 1024, 10000, 100000000⟩

/-- Refuses too large a size. -/
def checkSize (limits : Limits) (bytes : Nat) : Except Error Unit :=
  if bytes > limits.maxSize then .error (.limitExceeded (.size bytes limits.maxSize)) else .ok ()

/-- Refuses too deep a nesting. -/
def checkDepth (limits : Limits) (depth : Nat) : Except Error Unit :=
  if depth > limits.maxDepth then .error (.limitExceeded (.depth depth limits.maxDepth))
  else .ok ()

/-- Refuses too many nodes. -/
def checkNodes (limits : Limits) (count : Nat) : Except Error Unit :=
  if count > limits.maxNodes then .error (.limitExceeded (.nodes count limits.maxNodes))
  else .ok ()

end Limits

end RelaxDoc
