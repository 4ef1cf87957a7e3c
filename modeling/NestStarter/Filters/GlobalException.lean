import Mathlib.Data.List.TakeWhile
import NestStarter.Filters.Handlers

/-! # The exception filter

`GlobalExceptionFilter.catch` sends what the handler of the exception built, without its context
outside developer mode.
-/

namespace NestStarter.Filters

open NestStarter.Shared (Value)

structure Request where
  url : String
  method : String
  /-- `x-developer-mode`. -/
  developerMode : Option String := none
  deriving DecidableEq, Repr

def stripQuery (url : String) : String := String.ofList (url.toList.takeWhile (· ≠ '?'))

theorem stripQuery_spec (url : String) :
    '?' ∉ (stripQuery url).toList ∧ (stripQuery url).toList <+: url.toList := by
  rw [stripQuery, String.toList_ofList]
  constructor
  · intro h
    simpa using List.mem_takeWhile_imp h
  · exact List.takeWhile_prefix _

section Filter

variable (convert : Value → Option String)

/-- `ErrorHandlerFactory.getHandler(exception).handle(exception)`, the handlers in the order of
their registration. `none`: the handler throws. -/
def handleError (now : Instant) (exception : Thrown) : Option ErrorResponse :=
  match exception with
  | .other v => FallbackErrorHandler.handle convert now (.other v)
  | .error e =>
      if MulterErrorHandler.canHandle e then some (MulterErrorHandler.handle now e)
      else if JwtErrorHandler.canHandle e then some (JwtErrorHandler.handle now e)
      else
        match e.kind with
        | .queryFailed driverError => some (TypeOrmErrorHandler.handle now driverError)
        | .i18nValidation status errors =>
            some (I18nValidationErrorHandler.handle now status errors)
        | .http status response => some (HttpExceptionHandler.handle now e status response)
        | .error => FallbackErrorHandler.handle convert now (.error e)

/-- `details` is what the error of a handler says. -/
def resolveResponse (thrownByHandler : String) (now : Instant) (exception : Thrown) :
    ErrorResponse :=
  (handleError convert now exception).getD
    { statusCode := some 500
      error := .string "INTERNAL_SERVER_ERROR"
      message := .string "An unexpected error occurred"
      context := some { timestamp := now, details := .string thrownByHandler } }

def Thrown.stack : Thrown → Option String
  | .error e => e.stack.filter fun s => s ≠ ""
  | .other _ => none

def enrichContext (res : ErrorResponse) (req : Request) (now : Instant) (exception : Thrown) :
    ErrorResponse :=
  let context := res.context.getD { timestamp := now }
  { res with context := some { context with
      path := some (stripQuery req.url)
      method := some req.method
      stack := exception.stack <|> context.stack } }

def isDeveloperMode (nodeEnv : Option String) (request : Request) : Bool :=
  nodeEnv == some "development" && request.developerMode != some "false"

/-- `response.status(code)` throws for what is not a status. -/
def send (res : ErrorResponse) : Option ErrorResponse :=
  if res.statusCode.any fun code => 100 ≤ code && code ≤ 999 then some res else none

/-- The body that is sent, `none` where the filter itself throws. -/
def GlobalExceptionFilter.catch (nodeEnv : Option String) (thrownByHandler : String)
    (now : Instant) (request : Request) (exception : Thrown) : Option ErrorResponse :=
  let res := enrichContext (resolveResponse convert thrownByHandler now exception) request now
    exception
  send (if isDeveloperMode nodeEnv request then res else { res with context := none })

end Filter

/-! ## What a client can tell -/

def ErrorResponse.body (res : ErrorResponse) : ErrorResponse := { res with context := none }

/-- What of an exception a client is told of: a JWT error by its being expired, a failed query by
its code, an exception that words its response by the words, anything else not at all. -/
inductive Origin where
  | token (expired : Bool)
  | query (code : Option String)
  | worded (statusCode : Nat) (error message : Value)
  | unexpected

/-- One text is sent as it is. -/
def messageOf (texts : List String) : Value :=
  match texts with
  | [text] => .string text
  | _ => .array (texts.map .string)

def Thrown.origin : Thrown → Origin
  | .other _ => .unexpected
  | .error e =>
      if e.name = "MulterError" then
        .worded 400 (.string (e.code.getD "UPLOAD_ERROR")) (MulterErrorHandler.message e)
      else if e.name ∈ JwtErrorHandler.jwtErrorNames then
        .token (decide (e.name = "TokenExpiredError"))
      else
        match e.kind with
        | .queryFailed driverError => .query (TypeOrmErrorHandler.codeOf driverError)
        | .i18nValidation status errors => .worded status (.string "BAD_REQUEST")
            (messageOf (I18nValidationErrorHandler.flattenMessages (errors.getD [])))
        | .http status response => .worded status
            ((HttpExceptionHandler.property response "error").orElse (.string e.name))
            (HttpExceptionHandler.extractMessage response e)
        | .error => .unexpected

def plainBody (statusCode : Nat) (error message : String) : ErrorResponse :=
  { statusCode := some statusCode
    error := .string error
    message := .string message
    context := none }

/-- The body for an origin; `none` where the status is `undefined`. -/
def Origin.body : Origin → Option ErrorResponse
  | .token true => some (plainBody 401 "TOKEN_EXPIRED" "Token has expired")
  | .token false => some (plainBody 401 "TOKEN_INVALID" "Invalid token signature")
  | .query code => (TypeOrmErrorHandler.mapping code).map fun m =>
      plainBody m.statusCode m.publicError m.message
  | .worded statusCode error message =>
      some { statusCode := some statusCode, error, message, context := none }
  | .unexpected => some (plainBody 500 "INTERNAL_SERVER_ERROR" "An unexpected error occurred")

variable {convert : Value → Option String} {now : Instant} {thrownByHandler : String}
  {nodeEnv : Option String} {request : Request}

theorem body_enrichContext (res : ErrorResponse) (exception : Thrown) :
    (enrichContext res request now exception).body = res.body := rfl

/-- The status, error and message of a response are those of the handler. -/
theorem catch_of_not_developer (hmode : isDeveloperMode nodeEnv request = false)
    (exception : Thrown) :
    GlobalExceptionFilter.catch convert nodeEnv thrownByHandler now request exception =
      send (resolveResponse convert thrownByHandler now exception).body := by
  rw [GlobalExceptionFilter.catch, hmode]
  rfl

theorem body_resolveResponse_other (v : Value) :
    (resolveResponse convert thrownByHandler now (.other v)).body =
      plainBody 500 "INTERNAL_SERVER_ERROR" "An unexpected error occurred" := by
  simp only [resolveResponse, handleError, FallbackErrorHandler.handle]
  cases v.text convert <;> rfl

theorem fields_of_body {res res' : ErrorResponse} (h : res.body = res'.body) :
    res.statusCode = res'.statusCode ∧ res.error = res'.error ∧ res.message = res'.message := by
  cases res
  cases res'
  simpa [ErrorResponse.body] using h

/-- A response with a status is sent, in either mode. -/
theorem catch_of_status (convert : Value → Option String) (nodeEnv : Option String)
    (thrownByHandler : String) (now : Instant) (request : Request) {exception : Thrown}
    {status : Nat}
    (hres : (resolveResponse convert thrownByHandler now exception).statusCode = some status)
    (hstatus : 100 ≤ status ∧ status ≤ 999) :
    ∃ res, GlobalExceptionFilter.catch convert nodeEnv thrownByHandler now request exception =
        some res ∧
      res.body = (resolveResponse convert thrownByHandler now exception).body := by
  have hsend : ∀ res : ErrorResponse,
      res.body = (resolveResponse convert thrownByHandler now exception).body →
      send res = some res := by
    intro res hbody
    have hcode : res.statusCode = some status := (fields_of_body hbody).1.trans hres
    simp [send, hcode, hstatus]
  unfold GlobalExceptionFilter.catch
  cases isDeveloperMode nodeEnv request with
  | true => exact ⟨_, hsend _ rfl, rfl⟩
  | false => exact ⟨_, hsend _ rfl, rfl⟩

theorem catch_of_origin (hmode : isDeveloperMode nodeEnv request = false) (exception : Thrown) :
    GlobalExceptionFilter.catch convert nodeEnv thrownByHandler now request exception =
      exception.origin.body.bind send := by
  rw [catch_of_not_developer hmode]
  cases exception with
  | other v =>
    rw [body_resolveResponse_other]
    rfl
  | error e =>
    by_cases hmulter : e.name = "MulterError"
    · simp only [Thrown.origin, resolveResponse, handleError, MulterErrorHandler.canHandle,
        hmulter, beq_self_eq_true, if_true]
      rfl
    by_cases hjwt : e.name ∈ JwtErrorHandler.jwtErrorNames
    · simp only [Thrown.origin, resolveResponse, handleError, MulterErrorHandler.canHandle,
        JwtErrorHandler.canHandle, hjwt, beq_iff_eq, hmulter, if_false, decide_true, if_true]
      by_cases hexpired : e.name = "TokenExpiredError" <;>
        simp only [JwtErrorHandler.handle, hexpired, decide_true, decide_false, if_true,
          if_false] <;> rfl
    · simp only [Thrown.origin, resolveResponse, handleError, MulterErrorHandler.canHandle,
        JwtErrorHandler.canHandle, hjwt, beq_iff_eq, hmulter, if_false, decide_false,
        Bool.false_eq_true]
      cases e.kind with
      | error => rfl
      | queryFailed driverError =>
        simp only [TypeOrmErrorHandler.handle, Origin.body, Option.getD_some]
        cases TypeOrmErrorHandler.mapping (TypeOrmErrorHandler.codeOf driverError) <;> rfl
      | http status response => rfl
      | i18nValidation status errors => rfl

/-! ## The bodies -/

namespace TypeOrmErrorHandler

theorem mem_of_entry {code : String} {m : DbErrorMapping}
    (h : entry errorCodeMap code = .own m) : m ∈ errorCodeMap.map Prod.snd := by
  unfold entry at h
  split at h
  · next a hlookup =>
    cases h
    obtain ⟨l₁, l₂, hsplit, -⟩ := List.lookup_eq_some_iff.1 hlookup
    exact List.mem_map_of_mem (by rw [hsplit]; simp : (code, m) ∈ errorCodeMap)
  · split at h <;> cases h

/-- A code is mapped to an entry of the table or to the default. -/
theorem mem_of_mapping {code : Option String} {m : DbErrorMapping} (h : mapping code = some m) :
    m ∈ defaultMapping :: errorCodeMap.map Prod.snd := by
  unfold mapping at h
  cases code with
  | none =>
    cases h
    exact List.mem_cons_self
  | some code =>
    dsimp only at h
    split at h
    · cases h
      exact List.mem_cons_self
    · cases hentry : entry errorCodeMap code with
      | own a =>
        rw [hentry] at h
        cases h
        exact List.mem_cons_of_mem _ (mem_of_entry hentry)
      | inherited =>
        rw [hentry] at h
        cases h
      | missing =>
        rw [hentry] at h
        cases h
        exact List.mem_cons_self

theorem lookup_of_inherited :
    ∀ code ∈ Storage.objectPrototype, code ≠ "" ∧ errorCodeMap.lookup code = none := by decide

/-- Only a member of `Object.prototype` is mapped to nothing. -/
theorem mapping_eq_none_iff (code : Option String) :
    mapping code = none ↔ ∃ name ∈ Storage.objectPrototype, code = some name := by
  cases code with
  | none => simp [mapping]
  | some code =>
    by_cases hmem : code ∈ Storage.objectPrototype
    · obtain ⟨hne, hlookup⟩ := lookup_of_inherited code hmem
      simp [mapping, entry, hne, hlookup, hmem]
    · by_cases hempty : code = ""
      · simpa [mapping, hempty] using hempty ▸ hmem
      · cases hlookup : errorCodeMap.lookup code <;>
          simp [mapping, entry, hempty, hlookup, hmem]

theorem status_of_mem : ∀ m ∈ defaultMapping :: errorCodeMap.map Prod.snd,
    m.statusCode ∈ [400, 409, 500, 503] := by decide

/-- The codes whose 5xx has a status or a text of its own. -/
def toldCodes : List String := ["42P01", "08001", "08006"]

/-- A mapping to a 5xx that differs from the default one. -/
def DbErrorMapping.Tells (m : DbErrorMapping) : Prop :=
  500 ≤ m.statusCode ∧ ¬ (m.statusCode = 500 ∧ m.message = defaultMapping.message)

instance (m : DbErrorMapping) : Decidable m.Tells := inferInstanceAs (Decidable (_ ∧ _))

theorem tells_of_lookup : ∀ p ∈ errorCodeMap, p.2.Tells ↔ p.1 ∈ toldCodes := by decide

theorem lookup_toldCodes : ∀ code ∈ toldCodes, code ≠ "" ∧ (errorCodeMap.lookup code).isSome := by
  decide

/-- Of the mapped codes, a 5xx tells of three. -/
theorem tells_iff {code : Option String} {m : DbErrorMapping} (h : mapping code = some m) :
    m.Tells ↔ ∃ told ∈ toldCodes, code = some told := by
  have hdefault : ¬ defaultMapping.Tells := by decide
  unfold mapping at h
  cases code with
  | none =>
    cases h
    simpa using hdefault
  | some code =>
    dsimp only at h
    split at h
    · next hempty =>
      cases h
      refine iff_of_false hdefault ?_
      rintro ⟨told, htold, heq⟩
      exact (lookup_toldCodes told htold).1 (Option.some.inj heq ▸ hempty)
    · unfold entry at h
      cases hlookup : errorCodeMap.lookup code with
      | some a =>
        rw [hlookup] at h
        cases h
        obtain ⟨l₁, l₂, hsplit, -⟩ := List.lookup_eq_some_iff.1 hlookup
        have hmem : (code, m) ∈ errorCodeMap := by rw [hsplit]; simp
        simpa using tells_of_lookup _ hmem
      | none =>
        rw [hlookup] at h
        by_cases hproto : code ∈ Storage.objectPrototype
        · simp [hproto] at h
        · simp only [hproto, if_false, Option.some.injEq] at h
          subst h
          refine iff_of_false hdefault ?_
          rintro ⟨told, htold, heq⟩
          have hsome := (lookup_toldCodes told htold).2
          rw [← Option.some.inj heq, hlookup] at hsome
          cases hsome

end TypeOrmErrorHandler

/-- The bodies of the exceptions that word no response. -/
def publicBodies : List ErrorResponse :=
  [plainBody 401 "TOKEN_EXPIRED" "Token has expired",
    plainBody 401 "TOKEN_INVALID" "Invalid token signature",
    plainBody 500 "INTERNAL_SERVER_ERROR" "An unexpected error occurred"] ++
  (TypeOrmErrorHandler.defaultMapping :: TypeOrmErrorHandler.errorCodeMap.map Prod.snd).map fun m =>
    plainBody m.statusCode m.publicError m.message

def Origin.Worded (o : Origin) : Prop :=
  ∃ statusCode error message, o = .worded statusCode error message

theorem Origin.mem_publicBodies {o : Origin} (hworded : ¬ o.Worded) {res : ErrorResponse}
    (h : o.body = some res) : res ∈ publicBodies := by
  cases o with
  | token expired =>
    cases expired <;> · cases h; simp [publicBodies]
  | unexpected =>
    cases h
    simp [publicBodies]
  | worded statusCode error message => exact (hworded ⟨_, _, _, rfl⟩).elim
  | query code =>
    obtain ⟨m, hm, rfl⟩ := Option.map_eq_some_iff.1 h
    exact List.mem_append_right _ (List.mem_map_of_mem (TypeOrmErrorHandler.mem_of_mapping hm))

theorem Origin.body_eq_none_iff (o : Origin) :
    o.body = none ↔ ∃ name ∈ Storage.objectPrototype, o = .query (some name) := by
  cases o with
  | token expired => cases expired <;> simp [Origin.body]
  | unexpected => simp [Origin.body]
  | worded statusCode error message => simp [Origin.body]
  | query code => simpa [Origin.body] using TypeOrmErrorHandler.mapping_eq_none_iff code

/-- The two answers that say no more than that something failed. -/
def quietBodies : List ErrorResponse :=
  [plainBody 500 "INTERNAL_SERVER_ERROR" "An unexpected error occurred",
    plainBody 500 "DATABASE_ERROR" "An error occurred while processing your request"]

/-- A body tells of the fault behind a 5xx. -/
def ErrorResponse.Reveals (res : ErrorResponse) : Prop :=
  (∃ code ∈ res.statusCode, 500 ≤ code) ∧ res ∉ quietBodies

theorem reveals_plainBody (m : TypeOrmErrorHandler.DbErrorMapping) :
    (plainBody m.statusCode m.publicError m.message).Reveals ↔ m.Tells := by
  by_cases hstatus : 500 ≤ m.statusCode
  · have herror : m.publicError = "DATABASE_ERROR" := if_pos hstatus
    simp [ErrorResponse.Reveals, quietBodies, plainBody, TypeOrmErrorHandler.DbErrorMapping.Tells,
      hstatus, herror, TypeOrmErrorHandler.defaultMapping]
  · simp [ErrorResponse.Reveals, plainBody, TypeOrmErrorHandler.DbErrorMapping.Tells, hstatus]

/-- A 5xx tells of three faults of the database, and of no others. -/
theorem Origin.reveals_iff {o : Origin} (hworded : ¬ o.Worded) {res : ErrorResponse}
    (h : o.body = some res) :
    res.Reveals ↔ ∃ code ∈ TypeOrmErrorHandler.toldCodes, o = .query (some code) := by
  cases o with
  | token expired =>
    cases expired <;> · cases h; simp [ErrorResponse.Reveals, plainBody]
  | unexpected =>
    cases h
    simp [ErrorResponse.Reveals, quietBodies]
  | worded statusCode error message => exact (hworded ⟨_, _, _, rfl⟩).elim
  | query code =>
    obtain ⟨m, hm, rfl⟩ := Option.map_eq_some_iff.1 h
    rw [reveals_plainBody, TypeOrmErrorHandler.tells_iff hm]
    simp

theorem send_of_publicBodies {res : ErrorResponse} (h : res ∈ publicBodies) :
    send res = some res := by
  have hsend : ∀ code : Nat, code ∈ [400, 401, 409, 500, 503] → res.statusCode = some code →
      send res = some res := by
    intro code hcode hstatus
    have hrange : 100 ≤ code ∧ code ≤ 999 := by
      simp only [List.mem_cons, List.not_mem_nil, or_false] at hcode
      omega
    simp [send, hstatus, hrange]
  unfold publicBodies at h
  rcases List.mem_append.1 h with hfixed | hmapped
  · simp only [List.mem_cons, List.not_mem_nil, or_false] at hfixed
    rcases hfixed with rfl | rfl | rfl
    · exact hsend 401 (by simp) rfl
    · exact hsend 401 (by simp) rfl
    · exact hsend 500 (by simp) rfl
  · obtain ⟨m, hm, rfl⟩ := List.mem_map.1 hmapped
    refine hsend _ ?_ rfl
    have hstatus := TypeOrmErrorHandler.status_of_mem m hm
    simp only [List.mem_cons, List.not_mem_nil, or_false] at hstatus ⊢
    omega

/-- What is sent for an exception that words no response. -/
theorem Origin.answer_cases {o : Origin} (hworded : ¬ o.Worded) :
    (∃ res ∈ publicBodies, o.body.bind send = some res ∧
      (res.Reveals ↔ ∃ code ∈ TypeOrmErrorHandler.toldCodes, o = .query (some code))) ∨
      (o.body.bind send = none ∧ ∃ name ∈ Storage.objectPrototype, o = .query (some name)) := by
  cases hbody : o.body with
  | none => exact Or.inr ⟨rfl, o.body_eq_none_iff.1 hbody⟩
  | some res =>
    have hmem := Origin.mem_publicBodies hworded hbody
    exact Or.inl ⟨res, hmem, send_of_publicBodies hmem, Origin.reveals_iff hworded hbody⟩

def duplicateSample : JsError where
  name := "QueryFailedError"
  message := "duplicate key value violates unique constraint \"uq_users_phone\""
  stack := some "QueryFailedError: duplicate key at PostgresQueryRunner.query"
  kind := .queryFailed (some { code := some "23505" })

def duplicateElsewhere : JsError :=
  { duplicateSample with message := "duplicate key", stack := none }

def texts : Value → List Value
  | .array items => items
  | v => [v]

theorem texts_handle (now : Instant) (status : Nat)
    (errors : Option (List I18nValidationError)) :
    texts (I18nValidationErrorHandler.handle now status errors).message =
      (I18nValidationErrorHandler.flattenMessages (errors.getD [])).map .string := by
  simp only [I18nValidationErrorHandler.handle, buildResponse]
  split
  · next message h => rw [h]; rfl
  · rfl

theorem handleError_of_validation {e : JsError} {status : Nat}
    {errors : Option (List I18nValidationError)} (hmulter : e.name ≠ "MulterError")
    (hjwt : e.name ∉ JwtErrorHandler.jwtErrorNames)
    (hkind : e.kind = .i18nValidation status errors) :
    handleError convert now (.error e) =
      some (I18nValidationErrorHandler.handle now status errors) := by
  simp [handleError, MulterErrorHandler.canHandle, JwtErrorHandler.canHandle, hmulter, hjwt, hkind]

/-- A failed validation is answered with its status and every text that a constraint anywhere in
its tree carries, in the order of the tree, and with no other text. -/
theorem catch_validation (convert : Value → Option String) (nodeEnv : Option String)
    (thrownByHandler : String) (now : Instant) (request : Request) {e : JsError} {status : Nat}
    {errors : Option (List I18nValidationError)} (hmulter : e.name ≠ "MulterError")
    (hjwt : e.name ∉ JwtErrorHandler.jwtErrorNames) (hkind : e.kind = .i18nValidation status errors)
    (hstatus : 100 ≤ status ∧ status ≤ 999) :
    ∃ res, GlobalExceptionFilter.catch convert nodeEnv thrownByHandler now request (.error e) =
        some res ∧
      res.statusCode = some status ∧ res.error = .string "BAD_REQUEST" ∧
      texts res.message = ((I18nValidationErrorHandler.nodes (errors.getD [])).flatMap
        I18nValidationErrorHandler.ownMessages).map .string ∧
      ∀ text, text ∈ texts res.message ↔
        ∃ node, I18nValidationErrorHandler.Below node (errors.getD []) ∧
          ∃ msg ∈ I18nValidationErrorHandler.ownMessages node, text = .string msg := by
  have hresolve : resolveResponse convert thrownByHandler now (.error e) =
      I18nValidationErrorHandler.handle now status errors := by
    rw [resolveResponse, handleError_of_validation hmulter hjwt hkind, Option.getD_some]
  have htexts := texts_handle now status errors
  rw [I18nValidationErrorHandler.flattenMessages_eq] at htexts
  obtain ⟨res, hcatch, hbody⟩ := catch_of_status convert nodeEnv thrownByHandler now request
    (by rw [hresolve]; rfl) hstatus
  rw [hresolve] at hbody
  obtain ⟨hcode, herror, hmessage⟩ := fields_of_body hbody
  refine ⟨res, hcatch, hcode, herror, hmessage ▸ htexts, fun text => ?_⟩
  rw [hmessage, htexts]
  simp only [List.mem_map, List.mem_flatMap, I18nValidationErrorHandler.mem_nodes_iff]
  constructor
  · rintro ⟨msg, ⟨node, hnode, hmsg⟩, rfl⟩
    exact ⟨node, hnode, msg, hmsg, rfl⟩
  · rintro ⟨node, hnode, msg, hmsg, rfl⟩
    exact ⟨msg, ⟨node, hnode, hmsg⟩, rfl⟩

def invalidSample : JsError where
  name := "I18nValidationException"
  message := "Bad Request"
  kind := .i18nValidation 422 (some
    [.node (some [("isString", .string "name must be a string")]) none,
      .node none (some [.node none (some
        [.node (some [("isInt", .string "id must be an integer"), ("context", .null)]) none])])])

theorem catch_validation_sample :
    ∃ res, GlobalExceptionFilter.catch (fun _ => none) none "" 0 ⟨"/areas", "POST", none⟩
        (.error invalidSample) = some res ∧
      texts res.message =
        [.string "name must be a string", .string "id must be an integer"] := by
  obtain ⟨res, hcatch, -, -, htexts, -⟩ := catch_validation (fun _ => none) none "" 0
    ⟨"/areas", "POST", none⟩ (e := invalidSample) (by decide) (by decide) rfl (by decide)
  exact ⟨res, hcatch, htexts⟩

end NestStarter.Filters
