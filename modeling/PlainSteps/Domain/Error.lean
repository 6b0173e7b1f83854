import PlainSteps.Template.Error

/-!
# Faults of domains

* `DomainError`: why a domain cannot be registered, is missing, or does not read a text.
* `DomainError.message`: the message for it.
-/

namespace PlainSteps

/-- What goes wrong with domains and the values they read. -/
inductive DomainError where
  /-- Two domains have one name. -/
  | duplicate (name : String)
  /-- A stepper requires a domain that is not registered. -/
  | missingRequired (stepper domain : String)
  /-- A stored value has another domain than the placeholder declares. -/
  | mismatch (label declared stored : String)
  /-- No domain is registered under the declared name. -/
  | noCoercer (label domain : String)
  /-- No domain is registered for a union, and none of its members could be chosen. -/
  | noUnionCoercer (label key : String)
  /-- The domain refuses a text. -/
  | coercionFailed (label domain raw reason : String)
  /-- A text is not a finite number. -/
  | notANumber (label raw : String)
  deriving DecidableEq, Repr

/-- The message for a fault. -/
def DomainError.message : DomainError → String
  | .duplicate name => "domain " ++ backquoted name ++ " is already registered"
  | .missingRequired stepper domain =>
    "stepper " ++ backquoted stepper ++ " requires domain " ++ backquoted domain
      ++ ", which is not registered"
  | .mismatch label declared stored =>
    backquoted label ++ " is declared as " ++ backquoted declared ++ " but holds a "
      ++ backquoted stored ++ " value"
  | .noCoercer label domain =>
    "no coercer for domain " ++ backquoted domain ++ " of " ++ backquoted label
  | .noUnionCoercer label key =>
    "no coercer for union " ++ backquoted key ++ " of " ++ backquoted label
  | .coercionFailed label domain raw reason =>
    "cannot coerce " ++ backquoted raw ++ " to " ++ backquoted domain ++ " for "
      ++ backquoted label ++ ": " ++ reason
  | .notANumber label raw => backquoted label ++ " expects a number, got " ++ backquoted raw

end PlainSteps
