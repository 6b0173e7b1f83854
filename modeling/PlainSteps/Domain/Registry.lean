import PlainSteps.Domain.Error
import PlainSteps.Domain.Name
import PlainSteps.Number.Reader
import PlainSteps.Table
import PlainSteps.Value

/-!
# The registry of domains

A domain reads texts as values. A run starts with the domains of texts, numbers and statements, and
each further one is registered once.

* `DomainRegistry.register`: adds a domain; a union is kept under the one spelling of its members.
* `DomainRegistry.require`: checks that domains are registered.
* `DomainRegistry.coerce`: reads a text by the domain that a placeholder declares.
-/

namespace PlainSteps

/-- A named way to read texts as values. -/
structure DomainDefinition where
  name : String
  /-- Reads a text, or says why it cannot be read. -/
  read : String → Except String Value
  /-- Whether a term without a value is a fault. -/
  rejectsUndefined : Bool

/-- The domains of a run. -/
structure DomainRegistry where
  domains : Table DomainDefinition

/-- A text that a placeholder is to read. -/
structure CoerceRequest where
  label : String
  origin : Origin
  raw : String
  /-- The domain that the placeholder declares. -/
  declared : String
  /-- The domain of the stored value that the text comes from, if it has one. -/
  stored : Option String

/-- A value that a domain has read. -/
structure Coerced where
  /-- The name of the domain. -/
  domain : String
  value : Value

namespace DomainDefinition

/-- The domain of texts that are taken as they are. -/
def plainText (name : String) : DomainDefinition := ⟨name, fun raw => .ok (.text raw), false⟩

/-- The domain of finite numbers. -/
def finiteNumber : DomainDefinition where
  name := Domain.number
  read raw :=
    match Number.readFinite? raw with
    | some x => .ok (.number x)
    | none => .error (backquoted raw ++ " is not a finite number")
  rejectsUndefined := true

/-- The domains that every run starts with. -/
def builtin : List DomainDefinition :=
  [plainText Domain.string, finiteNumber, plainText Domain.statement]

end DomainDefinition

namespace DomainRegistry

/-- The registry that a run starts with. -/
def initial : DomainRegistry :=
  ⟨.ofList (DomainDefinition.builtin.map fun d => (d.name, d))⟩

/-- The domain of a name or of a union's one spelling. -/
def lookup (r : DomainRegistry) (name : String) : Option DomainDefinition := r.domains.get? name

/-- The names of the domains, sorted. -/
def names (r : DomainRegistry) : List String := r.domains.names

/-- Adds a domain; its name becomes that under which it is kept. -/
def register (r : DomainRegistry) (d : DomainDefinition) : Except DomainError DomainRegistry :=
  let key := Domain.key d.name
  if r.domains.contains key then .error (.duplicate key)
  else .ok ⟨r.domains.insert key { d with name := key }⟩

/-- Adds several domains, up to the first that cannot be added. -/
def registerAll (r : DomainRegistry) (ds : List DomainDefinition) :
    Except DomainError DomainRegistry :=
  ds.foldlM register r

/-- Checks that the domains that a stepper requires are registered under the names given. -/
def require (r : DomainRegistry) (stepper : String) (required : List String) :
    Except DomainError Unit :=
  match required.find? fun name => (r.lookup name).isNone with
  | some missing => .error (.missingRequired stepper missing)
  | none => .ok ()

/-- Whether a term without a value is a fault for a declared domain. -/
def rejectsUndefined (r : DomainRegistry) (declared : String) : Bool :=
  (r.lookup (Domain.key declared)).any (·.rejectsUndefined)

/-- The domain that reads the text of a request. A union leaves quoted text to its member `string`,
and a stored value to its own domain where that is a member. -/
def select (r : DomainRegistry) (request : CoerceRequest) : Except DomainError DomainDefinition :=
  let declared := request.declared
  if Domain.isUnion declared then
    let members := Domain.members declared
    let forQuoted :=
      if request.origin = .quoted && members.contains Domain.string then r.lookup Domain.string
      else none
    let forStored := (request.stored.filter members.contains).bind r.lookup
    let key := Domain.unionKey declared
    match (forQuoted.or forStored).or (r.lookup key) with
    | some d => .ok d
    | none => .error (.noUnionCoercer request.label key)
  else
    match request.stored.filter (· != declared) with
    | some stored => .error (.mismatch request.label declared stored)
    | none =>
      match r.lookup declared with
      | some d => .ok d
      | none => .error (.noCoercer request.label declared)

end DomainRegistry

/-- Reads a text by a domain. -/
def DomainDefinition.run (d : DomainDefinition) (label raw : String) :
    Except DomainError Coerced :=
  if d.name = Domain.number && (Number.readFinite? raw).isNone then .error (.notANumber label raw)
  else
    match d.read raw with
    | .ok value => .ok ⟨d.name, value⟩
    | .error reason => .error (.coercionFailed label d.name raw reason)

namespace DomainRegistry

/-- Reads a text by the domain that a placeholder declares. -/
def coerce (r : DomainRegistry) (request : CoerceRequest) : Except DomainError Coerced :=
  (r.select request).bind fun d => d.run request.label request.raw

/-- Reads a text by the domain registered for a union. -/
def coerceUnion (r : DomainRegistry) (union label raw : String) : Except DomainError Coerced :=
  let key := Domain.unionKey union
  match r.lookup key with
  | some d => d.run label raw
  | none => .error (.noUnionCoercer label key)

end DomainRegistry

end PlainSteps
