import GraphRecords.Method
import GraphRecords.Time.Instant

/-!
# Call contexts

What is captured when a model call is made. It travels with the call and is attached to the
errors that the call settles with.
-/

namespace GraphRecords

structure CallContext where
  requestId : Nat
  method : Method
  identity : String
  datastore : String
  madeAt : Instant
  deriving Repr, DecidableEq

namespace CallContext

/-- The lowest `width` hexadecimal digits of a number. -/
def hexDigits : Nat → Nat → List Char
  | 0, _ => []
  | width + 1, n => hexDigits width (n / 16) ++ [Nat.digitChar (n % 16)]

/-- The 32 digits of a request id in groups of 8, 4, 4, 4 and 12. -/
def idText (id : Nat) : String :=
  let group (start length : Nat) := String.ofList (((hexDigits 32 id).drop start).take length)
  "-".intercalate [group 0 8, group 8 4, group 12 4, group 16 4, group 20 12]

def render (context : CallContext) : String :=
  s!"{context.identity}.{context.method.name}() [request {idText context.requestId}]"

end CallContext

end GraphRecords
