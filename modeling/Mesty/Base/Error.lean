import Mathlib.Init

namespace Mesty.Base.Error

@[simp] theorem ok_bind {ε α β : Type} (a : α) (f : α → Except ε β) :
    ((Except.ok a : Except ε α) >>= f) = f a := rfl

inductive DomainError where
  | validation (msg : String)
  | notFound (msg : String)
  | alreadyExists (msg : String)
  | internal (msg : String)
  | unauthorized (msg : String)
  | badRequest (msg : String)
  | conflict (msg : String)
  deriving DecidableEq

namespace DomainError

/-- The text of `Display`. -/
def toString : DomainError → String
  | validation msg => "Validation error: " ++ msg
  | notFound msg => "Not found: " ++ msg
  | alreadyExists msg => "Already exists: " ++ msg
  | internal msg => "Internal error: " ++ msg
  | unauthorized msg => "Unauthorized: " ++ msg
  | badRequest msg => "Bad request: " ++ msg
  | conflict msg => "Conflict: " ++ msg

end DomainError

/-- What `DomainError::from_sqlx` distinguishes in a database error. -/
inductive SqlError where
  | rowNotFound
  | uniqueViolation
  | foreignKeyViolation
  | checkViolation
  | other
  | poolTimedOut
  | unexpected
  deriving DecidableEq

def DomainError.fromSqlx : SqlError → DomainError
  | .rowNotFound => .notFound "Resource not found"
  | .uniqueViolation => .alreadyExists "Resource already exists"
  | .foreignKeyViolation => .validation "Referenced resource not found"
  | .checkViolation => .validation "Validation constraint failed"
  | .other => .internal "Database operation failed"
  | .poolTimedOut => .internal "Service temporarily unavailable"
  | .unexpected => .internal "An unexpected error occurred"

/-- The error of a handler. -/
abbrev ApiError := DomainError

/-- The status and the `error` text of the response. -/
def ApiError.intoResponse : ApiError → Nat × String
  | .validation msg => (400, msg)
  | .notFound msg => (404, msg)
  | .alreadyExists msg => (409, msg)
  | .unauthorized msg => (401, msg)
  | .internal msg => (500, msg)
  | .badRequest msg => (400, msg)
  | .conflict msg => (409, msg)

end Mesty.Base.Error
