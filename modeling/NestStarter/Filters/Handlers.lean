import NestStarter.Shared.Values
import NestStarter.Storage.Keys

/-! # Error handlers

What the handlers of `core/filters` make of a thrown value. The first that claims it builds the
response; the fallback claims everything.
-/

namespace NestStarter.Filters

open NestStarter.Shared (Value)
open NestStarter.Storage (objectPrototype)

structure DriverError where
  code : Option String := none
  errno : Option Nat := none
  deriving DecidableEq, Repr

inductive I18nValidationError where
  | node (constraints : Option (List (String × Value)))
      (children : Option (List I18nValidationError))

/-- The classes that a handler asks for with `instanceof`. A validation exception is an
`HttpException` whose handler comes before that of its parent. -/
inductive ErrorClass where
  | error
  | queryFailed (driverError : Option DriverError)
  | http (status : Nat) (response : Value)
  | i18nValidation (status : Nat) (errors : Option (List I18nValidationError))

/-- An `Error`, with the `code` that some classes give it. -/
structure JsError where
  name : String
  message : String
  stack : Option String := none
  code : Option String := none
  kind : ErrorClass := .error

inductive Thrown where
  | error (e : JsError)
  | other (v : Value)

structure ErrorContext where
  timestamp : Instant
  path : Option String := none
  method : Option String := none
  details : Value := .undefined
  stack : Option String := none

/-- The status `none` is `undefined`. -/
structure ErrorResponse where
  statusCode : Option Nat
  error : Value
  message : Value
  context : Option ErrorContext

def buildResponse (now : Instant) (statusCode : Option Nat) (error message : Value)
    (details : Value := .undefined) : ErrorResponse :=
  { statusCode, error, message, context := some { timestamp := now, details } }

/-- `table[code]`: an entry, what every object inherits, or `undefined`. -/
inductive Entry (α : Type) where
  | own (a : α)
  | inherited
  | missing

def entry {α : Type} (table : List (String × α)) (code : String) : Entry α :=
  match table.lookup code with
  | some a => .own a
  | none => if code ∈ objectPrototype then .inherited else .missing

/-- What a member of `Object.prototype` is in a body, where functions are left out. -/
def inheritedValue (name : String) : Value :=
  if name = "__proto__" then .object none [] else .undefined

namespace MulterErrorHandler

def codeMessages : List (String × String) :=
  [("LIMIT_PART_COUNT", "Too many parts in upload"),
    ("LIMIT_FILE_SIZE", "File is too large"),
    ("LIMIT_FILE_COUNT", "Too many files uploaded"),
    ("LIMIT_FIELD_KEY", "Field name is too long"),
    ("LIMIT_FIELD_VALUE", "Field value is too long"),
    ("LIMIT_FIELD_COUNT", "Too many fields in upload"),
    ("LIMIT_UNEXPECTED_FILE", "Unexpected field")]

def canHandle (e : JsError) : Bool := e.name == "MulterError"

def ownMessage (e : JsError) : Value :=
  .string (if e.message = "" then "File upload error" else e.message)

def message (e : JsError) : Value :=
  match e.code with
  | none => ownMessage e
  | some code =>
      match entry codeMessages code with
      | .own text => .string text
      | .inherited => inheritedValue code
      | .missing => ownMessage e

def handle (now : Instant) (e : JsError) : ErrorResponse :=
  buildResponse now (some 400) (.string (e.code.getD "UPLOAD_ERROR")) (message e)

end MulterErrorHandler

namespace JwtErrorHandler

def jwtErrorNames : List String := ["JsonWebTokenError", "TokenExpiredError", "NotBeforeError"]

def canHandle (e : JsError) : Bool := decide (e.name ∈ jwtErrorNames)

def handle (now : Instant) (e : JsError) : ErrorResponse :=
  let isExpired := e.name = "TokenExpiredError"
  let code := if isExpired then "TOKEN_EXPIRED" else "TOKEN_INVALID"
  buildResponse now (some 401) (.string code)
    (.string (if isExpired then "Token has expired" else "Invalid token signature")) (.string code)

end JwtErrorHandler

namespace TypeOrmErrorHandler

structure DbErrorMapping where
  statusCode : Nat
  error : String
  message : String
  deriving DecidableEq, Repr

def errorCodeMap : List (String × DbErrorMapping) :=
  [("23502", ⟨400, "REQUIRED_FIELD_MISSING", "Required field cannot be empty"⟩),
    ("23503", ⟨400, "INVALID_REFERENCE", "Invalid reference provided"⟩),
    ("23505", ⟨409, "DUPLICATE_RECORD", "This record already exists"⟩),
    ("23514", ⟨400, "INVALID_VALUE", "Invalid value provided"⟩),
    ("23001", ⟨400, "RESTRICT_VIOLATION",
      "Restrict violation: this record is linked to an existing relation and cannot be " ++
        "modified or removed."⟩),
    ("42703", ⟨400, "INVALID_DATA", "Invalid data provided"⟩),
    ("42P01", ⟨500, "SERVICE_ERROR", "Service temporarily unavailable"⟩),
    ("42804", ⟨400, "INVALID_FORMAT", "Invalid data format"⟩),
    ("22001", ⟨400, "TEXT_TOO_LONG", "Text value is too long"⟩),
    ("22003", ⟨400, "NUMBER_OUT_OF_RANGE", "Number value is out of range"⟩),
    ("08001", ⟨503, "SERVICE_UNAVAILABLE", "Service temporarily unavailable"⟩),
    ("08006", ⟨503, "CONNECTION_LOST", "Service connection lost"⟩),
    ("1062", ⟨409, "DUPLICATE_RECORD", "This record already exists"⟩),
    ("1452", ⟨400, "INVALID_REFERENCE", "Invalid reference provided"⟩),
    ("1451", ⟨400, "RECORD_IN_USE", "Cannot delete record as it is being used"⟩),
    ("1406", ⟨400, "DATA_TOO_LONG", "Data value is too long"⟩),
    ("1048", ⟨400, "REQUIRED_FIELD_MISSING", "Required field cannot be empty"⟩),
    ("1264", ⟨400, "VALUE_OUT_OF_RANGE", "Value is out of acceptable range"⟩)]

def defaultMapping : DbErrorMapping :=
  ⟨500, "DATABASE_ERROR", "An error occurred while processing your request"⟩

def codeOf (driverError : Option DriverError) : Option String :=
  driverError.bind fun d => d.code <|> d.errno.map fun n => toString n

/-- The mapping of a code, `none` where it is a member of `Object.prototype`. The empty code is
falsy. -/
def mapping : Option String → Option DbErrorMapping
  | none => some defaultMapping
  | some code =>
      if code = "" then some defaultMapping
      else
        match entry errorCodeMap code with
        | .own m => some m
        | .inherited => none
        | .missing => some defaultMapping

/-- The code sent to the client: a 5xx is not told apart. -/
def DbErrorMapping.publicError (m : DbErrorMapping) : String :=
  if m.statusCode ≥ 500 then "DATABASE_ERROR" else m.error

def handle (now : Instant) (driverError : Option DriverError) : ErrorResponse :=
  let code := codeOf driverError
  let details : Value := .object none [("code", code.elim .undefined .string)]
  match mapping code with
  | some m => buildResponse now (some m.statusCode) (.string m.publicError) (.string m.message)
      details
  -- a member of `Object.prototype` has none of the three properties
  | none => buildResponse now none .undefined .undefined details

end TypeOrmErrorHandler

namespace HttpExceptionHandler

/-- `payload[name]`. What is not an object is taken for a message; an array or a date has none
of the properties that are asked for. -/
def property (raw : Value) (name : String) : Value :=
  match raw with
  | .object .. | .array _ | .date _ => raw.get name
  | v => if name = "message" then v else .undefined

def extractMessage (raw : Value) (e : JsError) : Value :=
  match (property raw "message").orElse (.string e.message) with
  | .array [item] => item
  | v => v

def handle (now : Instant) (e : JsError) (status : Nat) (raw : Value) : ErrorResponse :=
  buildResponse now (some status) ((property raw "error").orElse (.string e.name))
    (extractMessage raw e) ((property raw "data").orElse (property raw "code"))

end HttpExceptionHandler

namespace I18nValidationErrorHandler

def pushMessages (out : List String) : List (String × Value) → List String
  | [] => out
  | (_, .string msg) :: rest => pushMessages (out ++ [msg]) rest
  | _ :: rest => pushMessages out rest

mutual

/-- `walk`, on what was collected so far. -/
def walk (out : List String) : List I18nValidationError → List String
  | [] => out
  | e :: rest => walk (walkNode out e) rest

def walkNode (out : List String) : I18nValidationError → List String
  | .node constraints (some children) => walk (pushMessages out (constraints.getD [])) children
  | .node constraints none => pushMessages out (constraints.getD [])

end

def flattenMessages (errors : List I18nValidationError) : List String := walk [] errors

def handle (now : Instant) (status : Nat) (errors : Option (List I18nValidationError)) :
    ErrorResponse :=
  let messages := flattenMessages (errors.getD [])
  buildResponse now (some status) (.string "BAD_REQUEST")
    (match messages with
      | [message] => .string message
      | _ => .array (messages.map .string))

end I18nValidationErrorHandler

/-- `String(error)` of a thrown object may throw itself. -/
def FallbackErrorHandler.handle (convert : Value → Option String) (now : Instant) :
    Thrown → Option ErrorResponse
  | .error e => some (buildResponse now (some 500) (.string "INTERNAL_SERVER_ERROR")
      (.string "An unexpected error occurred") (.string e.message))
  | .other v => (v.text convert).map fun details =>
      buildResponse now (some 500) (.string "INTERNAL_SERVER_ERROR")
        (.string "An unexpected error occurred") (.string details)

/-! ## Validation messages -/

namespace I18nValidationErrorHandler

def ownMessages : I18nValidationError → List String
  | .node constraints _ => (constraints.getD []).filterMap fun
    | (_, .string msg) => some msg
    | _ => none

mutual

/-- The nodes of a forest, each before the ones under it. -/
def nodes : List I18nValidationError → List I18nValidationError
  | [] => []
  | e :: rest => nodesOf e ++ nodes rest

def nodesOf : I18nValidationError → List I18nValidationError
  | .node constraints (some children) => .node constraints (some children) :: nodes children
  | .node constraints none => [.node constraints none]

end

theorem pushMessages_eq (out : List String) (constraints : List (String × Value))
    (children : Option (List I18nValidationError)) :
    pushMessages out constraints = out ++ ownMessages (.node (some constraints) children) := by
  induction constraints generalizing out with
  | nil => simp [pushMessages, ownMessages]
  | cons c rest ih =>
    obtain ⟨key, value⟩ := c
    cases value with
    | string msg => simp [pushMessages, ih, ownMessages]
    | _ => simpa [pushMessages, ownMessages] using ih out

theorem pushMessages_getD (out : List String) (constraints : Option (List (String × Value)))
    (children : Option (List I18nValidationError)) :
    pushMessages out (constraints.getD []) = out ++ ownMessages (.node constraints children) := by
  cases constraints with
  | none => simp [pushMessages, ownMessages]
  | some cs => exact pushMessages_eq out cs children

mutual

theorem walk_eq : (out : List String) → (errors : List I18nValidationError) →
    walk out errors = out ++ (nodes errors).flatMap ownMessages
  | out, [] => by simp [walk, nodes]
  | out, e :: rest => by
    rw [walk, walk_eq (walkNode out e) rest, walkNode_eq out e, nodes, List.flatMap_append,
      List.append_assoc]

theorem walkNode_eq : (out : List String) → (e : I18nValidationError) →
    walkNode out e = out ++ (nodesOf e).flatMap ownMessages
  | out, .node constraints (some children) => by
    rw [walkNode, walk_eq _ children, pushMessages_getD out constraints (some children), nodesOf,
      List.flatMap_cons, List.append_assoc]
  | out, .node constraints none => by
    rw [walkNode, pushMessages_getD out constraints none, nodesOf, List.flatMap_singleton]

end

/-- The walk collects what a traversal of the forest lists. -/
theorem flattenMessages_eq (errors : List I18nValidationError) :
    flattenMessages errors = (nodes errors).flatMap ownMessages := by
  rw [flattenMessages, walk_eq, List.nil_append]

/-- The node is in the forest, at some depth. -/
inductive Below : I18nValidationError → List I18nValidationError → Prop
  | here {e : I18nValidationError} {errors : List I18nValidationError} (h : e ∈ errors) :
      Below e errors
  | under {e : I18nValidationError} {errors children : List I18nValidationError}
      {constraints : Option (List (String × Value))}
      (h : .node constraints (some children) ∈ errors) (hbelow : Below e children) :
      Below e errors

theorem Below.cons {e first : I18nValidationError} {rest : List I18nValidationError}
    (h : Below e rest) : Below e (first :: rest) := by
  cases h with
  | here h => exact .here (List.mem_cons_of_mem _ h)
  | under h hbelow => exact .under (List.mem_cons_of_mem _ h) hbelow

mutual

theorem below_of_mem_nodes {e : I18nValidationError} : {errors : List I18nValidationError} →
    e ∈ nodes errors → Below e errors
  | [], h => by simp [nodes] at h
  | first :: rest, h => by
    rw [nodes, List.mem_append] at h
    cases h with
    | inl h => exact below_of_mem_nodesOf h List.mem_cons_self
    | inr h => exact (below_of_mem_nodes h).cons

theorem below_of_mem_nodesOf {e : I18nValidationError} {errors : List I18nValidationError} :
    {first : I18nValidationError} → e ∈ nodesOf first → first ∈ errors → Below e errors
  | .node constraints (some children), h, hmem => by
    rw [nodesOf, List.mem_cons] at h
    cases h with
    | inl h => exact .here (h ▸ hmem)
    | inr h => exact .under hmem (below_of_mem_nodes h)
  | .node constraints none, h, hmem => by
    rw [nodesOf, List.mem_singleton] at h
    exact .here (h ▸ hmem)

end

theorem mem_nodes_of_mem_nodesOf {e first : I18nValidationError}
    {errors : List I18nValidationError} (h : e ∈ nodesOf first) (hmem : first ∈ errors) :
    e ∈ nodes errors := by
  induction errors with
  | nil => cases hmem
  | cons head rest ih =>
    rw [nodes, List.mem_append]
    rcases List.mem_cons.1 hmem with rfl | hmem
    · exact Or.inl h
    · exact Or.inr (ih hmem)

theorem mem_nodesOf_self (e : I18nValidationError) : e ∈ nodesOf e := by
  cases e with
  | node constraints children => cases children <;> simp [nodesOf]

theorem mem_nodes_iff {e : I18nValidationError} {errors : List I18nValidationError} :
    e ∈ nodes errors ↔ Below e errors := by
  constructor
  · exact below_of_mem_nodes
  · intro h
    induction h with
    | here h => exact mem_nodes_of_mem_nodesOf (mem_nodesOf_self _) h
    | under h _ ih =>
      refine mem_nodes_of_mem_nodesOf ?_ h
      rw [nodesOf]
      exact List.mem_cons_of_mem _ ih

end I18nValidationErrorHandler

end NestStarter.Filters
