import Mathlib.Data.PNat.Basic
import Mathlib.Data.List.Perm.Basic
import NestStarter.Core.Machine
import NestStarter.Domain

/-! # Multicast over Firebase

`FirebaseNotificationProvider.sendToTokens` cuts the tokens into batches, sends all of them at
once and adds up what each batch reports when its answer arrives. The answers arrive in any
order, and each callback runs to its end before the next one.
-/

namespace NestStarter.Notifications

open NestStarter.Core

inductive Priority where
  | high
  | normal
  deriving DecidableEq, Repr

structure BaseNotificationOptions where
  title : String
  body : String
  data : Option (List (String × String)) := none
  ttlInSeconds : Option Int := none
  priority : Option Priority := none
  sound : Option String := none
  clickAction : Option String := none
  deriving DecidableEq, Repr

structure TokensNotificationOptions extends BaseNotificationOptions where
  tokens : List String
  deriving DecidableEq, Repr

structure Notification where
  title : String
  body : String
  deriving DecidableEq, Repr

structure AndroidNotification where
  sound : String
  clickAction : Option String
  deriving DecidableEq, Repr

/-- The time to live is in milliseconds. -/
structure AndroidConfig where
  ttl : Option Int
  priority : Priority
  notification : AndroidNotification
  deriving DecidableEq, Repr

structure ApnsConfig where
  sound : String
  deriving DecidableEq, Repr

structure FirebaseMessagePayload where
  notification : Notification
  data : Option (List (String × String))
  android : AndroidConfig
  apns : ApnsConfig
  deriving DecidableEq, Repr

def validateBaseOptions (options : BaseNotificationOptions) : Except HttpException Unit :=
  if options.title = "" then
    throw { status := .badRequest, message := "notification.errors.title_required" }
  else if options.body = "" then
    throw { status := .badRequest, message := "notification.errors.body_required" }
  else pure ()

def validateTokensOptions (options : TokensNotificationOptions) : Except HttpException Unit := do
  validateBaseOptions options.toBaseNotificationOptions
  if options.tokens.length = 0 then
    throw { status := .badRequest, message := "notification.errors.tokens_required" }

def buildPayload (options : BaseNotificationOptions) : FirebaseMessagePayload :=
  let sound := options.sound.getD "default"
  { notification := { title := options.title, body := options.body }
    data := options.data
    android :=
      { ttl := (options.ttlInSeconds.filter (· ≠ 0)).map (· * 1000)
        priority := options.priority.getD .normal
        notification := { sound, clickAction := options.clickAction } }
    apns := { sound } }

theorem validateTokensOptions_ok {options : TokensNotificationOptions} (htitle : options.title ≠ "")
    (hbody : options.body ≠ "") (htokens : options.tokens ≠ []) :
    validateTokensOptions options = .ok () := by
  simp [validateTokensOptions, validateBaseOptions, htitle, hbody, htokens]

def MULTICAST_BATCH_SIZE : ℕ+ := 500

section Chunk

variable {α β : Type}

/-- The loop of `chunk`, from the offset it has reached. -/
def chunkFrom (items : List α) (size : ℕ+) (i : Nat) : List (List α) :=
  if i < items.length then (items.drop i).take size :: chunkFrom items size (i + size) else []
termination_by items.length - i
decreasing_by
  have hsize := size.pos
  omega

def chunk (items : List α) (size : ℕ+) : List (List α) := chunkFrom items size 0

theorem chunkFrom_of_lt {items : List α} {size : ℕ+} {i : Nat} (h : i < items.length) :
    chunkFrom items size i = (items.drop i).take size :: chunkFrom items size (i + size) := by
  rw [chunkFrom, if_pos h]

theorem chunkFrom_of_le {items : List α} {size : ℕ+} {i : Nat} (h : items.length ≤ i) :
    chunkFrom items size i = [] := by
  rw [chunkFrom, if_neg (Nat.not_lt.2 h)]

theorem flatten_chunkFrom (items : List α) (size : ℕ+) (i : Nat) :
    (chunkFrom items size i).flatten = items.drop i := by
  induction i using chunkFrom.induct items size with
  | case1 i hi ih =>
      rw [chunkFrom_of_lt hi, List.flatten_cons, ih, ← List.drop_drop, List.take_append_drop]
  | case2 i hi =>
      have hle := Nat.not_lt.1 hi
      rw [chunkFrom_of_le hle, List.drop_of_length_le hle]
      rfl

/-- The batches, one after the other, are the tokens. -/
theorem flatten_chunk (items : List α) (size : ℕ+) : (chunk items size).flatten = items :=
  flatten_chunkFrom items size 0

theorem length_of_mem_chunkFrom {items batch : List α} {size : ℕ+} {i : Nat}
    (h : batch ∈ chunkFrom items size i) : 0 < batch.length ∧ batch.length ≤ size := by
  have hsize := size.pos
  induction i using chunkFrom.induct items size with
  | case1 i hi ih =>
      rw [chunkFrom_of_lt hi] at h
      rcases List.mem_cons.1 h with rfl | h
      · rw [List.length_take, List.length_drop]
        omega
      · exact ih h
  | case2 i hi =>
      rw [chunkFrom_of_le (Nat.not_lt.1 hi)] at h
      cases h

/-- How many batches there are depends on the number of items only. -/
theorem length_chunkFrom_congr {items : List α} {items' : List β} (size : ℕ+)
    (h : items.length = items'.length) (i : Nat) :
    (chunkFrom items size i).length = (chunkFrom items' size i).length := by
  induction i using chunkFrom.induct items size with
  | case1 i hi ih =>
      have hi' : i < items'.length := by omega
      rw [chunkFrom_of_lt hi, chunkFrom_of_lt hi', List.length_cons, List.length_cons, ih]
  | case2 i hi =>
      have hle := Nat.not_lt.1 hi
      have hle' : items'.length ≤ i := by omega
      rw [chunkFrom_of_le hle, chunkFrom_of_le hle']
      rfl

theorem getElem?_chunkFrom {items batch : List α} {size : ℕ+} {i b : Nat}
    (h : (chunkFrom items size i)[b]? = some batch) :
    batch = (items.drop (i + b * size)).take size := by
  induction i using chunkFrom.induct items size generalizing b with
  | case1 i hi ih =>
      rw [chunkFrom_of_lt hi] at h
      cases b with
      | zero => simpa using h.symm
      | succ b =>
          rw [ih h, Nat.succ_mul]
          congr 2
          omega
  | case2 i hi =>
      rw [chunkFrom_of_le (Nat.not_lt.1 hi)] at h
      cases h

theorem getElem?_chunk {items batch : List α} {size : ℕ+} {b : Nat}
    (h : (chunk items size)[b]? = some batch) : batch = (items.drop (b * size)).take size := by
  rw [getElem?_chunkFrom h, Nat.zero_add]

theorem chunk_eq_map (items : List α) (size : ℕ+) :
    chunk items size =
      (List.range (chunk items size).length).map fun b => (items.drop (b * size)).take size := by
  refine List.ext_getElem (by simp) fun b hb _ => ?_
  simpa using getElem?_chunk (List.getElem?_eq_getElem hb)

end Chunk

/-! ## Sending -/

/-- `admin.messaging.SendResponse`'s error. -/
structure FirebaseError where
  code : String
  message : String
  deriving DecidableEq, Repr

structure SendResponse where
  success : Bool
  error : Option FirebaseError := none
  deriving DecidableEq, Repr

/-- `admin.messaging.BatchResponse`: what one multicast resolves with. -/
structure MulticastResponse where
  responses : List SendResponse
  successCount : Nat
  failureCount : Nat
  deriving DecidableEq, Repr

structure MulticastMessage where
  tokens : List String
  payload : FirebaseMessagePayload
  deriving DecidableEq, Repr

structure JsError where
  name : String
  message : String
  deriving DecidableEq, Repr

def toError (source : FirebaseError) : JsError := { name := source.code, message := source.message }

structure NotificationFailure where
  index : Nat
  error : JsError
  deriving DecidableEq, Repr

structure BatchResponse where
  successCount : Nat
  failureCount : Nat
  failures : List NotificationFailure
  deriving DecidableEq, Repr

/-- The entry for a response, if it has one. -/
def failureOf (index : Nat) (resp : SendResponse) : Option NotificationFailure :=
  if resp.success then none else resp.error.map fun error => { index, error := toError error }

def batchFailures (batchIndex : Nat) (responses : List SendResponse) : List NotificationFailure :=
  responses.zipIdx.filterMap fun r => failureOf (batchIndex * MULTICAST_BATCH_SIZE + r.2) r.1

structure Sending where
  requests : List MulticastMessage
  inFlight : List Nat
  successCount : Nat
  failureCount : Nat
  failures : List NotificationFailure
  /-- What `Promise.all` was rejected with. -/
  rejected : Option FirebaseError
  deriving DecidableEq, Repr

/-- A batch index and how its send ends. -/
abbrev Completion := Nat × Except FirebaseError MulticastResponse

namespace Sending

/-- The callback of a batch, from where it awaited. -/
def collect (s : Sending) (batchIndex : Nat) (response : MulticastResponse) : Sending :=
  { s with
    inFlight := s.inFlight.erase batchIndex
    successCount := s.successCount + response.successCount
    failureCount := s.failureCount + response.failureCount
    failures := s.failures ++ batchFailures batchIndex response.responses }

/-- Only the first rejection counts. -/
def reject (s : Sending) (batchIndex : Nat) (error : FirebaseError) : Sending :=
  { s with
    inFlight := s.inFlight.erase batchIndex
    rejected := s.rejected.orElse fun _ => some error }

def step (s : Sending) (c : Completion) : Option Sending :=
  if c.1 ∈ s.inFlight then
    some (match c.2 with
      | .ok response => s.collect c.1 response
      | .error error => s.reject c.1 error)
  else none

def settled (s : Sending) : Option (Except FirebaseError BatchResponse) :=
  match s.rejected with
  | some error => some (.error error)
  | none =>
      if s.inFlight = [] then
        some (.ok
          { successCount := s.successCount, failureCount := s.failureCount
            failures := s.failures })
      else none

/-- A promise that is settled stays as it is, also when sends are still under way. -/
theorem settled_step {s t : Sending} {c : Completion}
    {result : Except FirebaseError BatchResponse} (h : s.settled = some result)
    (hstep : step s c = some t) : t.settled = some result := by
  unfold step at hstep
  split at hstep
  · rename_i hmem
    cases hrejected : s.rejected with
    | some error =>
        rw [settled, hrejected] at h
        cases hstep
        cases c.2 <;> simpa [settled, collect, reject, hrejected] using h
    | none =>
        rw [settled, hrejected] at h
        simp [List.ne_nil_of_mem hmem] at h
  · cases hstep

theorem settled_run {s t : Sending} {cs : List Completion}
    {result : Except FirebaseError BatchResponse} (h : s.settled = some result)
    (hrun : run step s cs = some t) : t.settled = some result := by
  have hstep : ∀ u c u', u.settled = some result → True → step u c = some u' →
      u'.settled = some result := fun _ _ _ hu _ hstep => settled_step hu hstep
  exact run_inv hstep h (along_true step s cs) hrun

end Sending

/-- All batches are sent before the first answer is awaited. -/
def startSending (options : TokensNotificationOptions) : Sending :=
  let batches := chunk options.tokens MULTICAST_BATCH_SIZE
  let payload := buildPayload options.toBaseNotificationOptions
  { requests := batches.map fun tokens => { tokens, payload }
    inFlight := List.range batches.length
    successCount := 0
    failureCount := 0
    failures := []
    rejected := none }

/-- `sendToTokens`, up to `await Promise.all`. -/
def sendToTokens (options : TokensNotificationOptions) : Except HttpException Sending := do
  validateTokensOptions options
  return startSending options

theorem sendToTokens_ok {options : TokensNotificationOptions} (htitle : options.title ≠ "")
    (hbody : options.body ≠ "") (htokens : options.tokens ≠ []) :
    sendToTokens options = .ok (startSending options) := by
  simp [sendToTokens, validateTokensOptions_ok htitle hbody htokens]

/-- The requests hold every token once, in its place, and none is too large. -/
structure Sends (tokens : List String) (requests : List MulticastMessage) : Prop where
  tokens : requests.flatMap (·.tokens) = tokens
  size : ∀ request ∈ requests,
    0 < request.tokens.length ∧ request.tokens.length ≤ MULTICAST_BATCH_SIZE

theorem sends_startSending (options : TokensNotificationOptions) :
    Sends options.tokens (startSending options).requests where
  tokens := by
    rw [startSending, List.flatMap_map, List.flatMap_id']
    exact flatten_chunk options.tokens _
  size := by
    intro request hrequest
    obtain ⟨batch, hbatch, rfl⟩ := List.mem_map.1 hrequest
    exact length_of_mem_chunkFrom hbatch

/-! ## Outcomes

One outcome for each position of the input, in whatever batch it is sent.
-/

section Outcomes

variable {outcome : Nat → SendResponse} {respond : Nat → MulticastResponse}

/-- What a batch resolves with: a response for each of its tokens, and the counts of both kinds. -/
structure Answers (outcome : Nat → SendResponse) (batchIndex : Nat) (batch : List String)
    (response : MulticastResponse) : Prop where
  responses : response.responses =
    (List.range batch.length).map fun i => outcome (batchIndex * MULTICAST_BATCH_SIZE + i)
  successCount : response.successCount = response.responses.countP (·.success)
  failureCount : response.failureCount = response.responses.countP (!·.success)

/-- What the caller learns of the outcomes. -/
structure Reports (outcome : Nat → SendResponse) (n : Nat) (report : BatchResponse) : Prop where
  total : report.successCount + report.failureCount = n
  successCount : report.successCount = (List.range n).countP fun i => (outcome i).success
  index : (report.failures.map (·.index)).Perm
    ((List.range n).filter fun i => !(outcome i).success)
  error : ∀ failure ∈ report.failures, failure.index < n ∧
    ∃ error, (outcome failure.index).error = some error ∧ failure.error = toError error

def positions (n batchIndex : Nat) : List Nat :=
  ((List.range n).drop (batchIndex * MULTICAST_BATCH_SIZE)).take MULTICAST_BATCH_SIZE

theorem map_range_eq_positions {tokens batch : List String} {b : Nat}
    (h : (chunk tokens MULTICAST_BATCH_SIZE)[b]? = some batch) :
    ((List.range batch.length).map fun i => b * (MULTICAST_BATCH_SIZE : Nat) + i) =
      positions tokens.length b := by
  rw [getElem?_chunk h]
  refine List.ext_getElem (by simp [positions]) fun i hi _ => ?_
  simp [positions]

/-- In any order of the batches, every position is visited once. -/
theorem flatMap_positions {tokens : List String} {order : List Nat}
    (h : order.Perm (List.range (chunk tokens MULTICAST_BATCH_SIZE).length)) :
    (order.flatMap (positions tokens.length)).Perm (List.range tokens.length) := by
  have hlength : (chunk tokens MULTICAST_BATCH_SIZE).length =
      (chunk (List.range tokens.length) MULTICAST_BATCH_SIZE).length :=
    length_chunkFrom_congr _ (by simp) 0
  have hflatten := flatten_chunk (List.range tokens.length) MULTICAST_BATCH_SIZE
  rw [chunk_eq_map, ← hlength] at hflatten
  calc order.flatMap (positions tokens.length)
      |>.Perm ((List.range (chunk tokens MULTICAST_BATCH_SIZE).length).flatMap
          (positions tokens.length)) := h.flatMap_right _
    _ = List.range tokens.length := hflatten

def failureAt (outcome : Nat → SendResponse) (i : Nat) : Option NotificationFailure :=
  failureOf i (outcome i)

theorem zipIdx_map_range {α : Type} (f : Nat → α) (n : Nat) :
    ((List.range n).map f).zipIdx = (List.range n).map fun i => (f i, i) := by
  induction n with
  | zero => rfl
  | succ n ih => simp [List.range_succ, List.zipIdx_append, ih]

namespace Answers

variable {tokens batch : List String} {b : Nat} {response : MulticastResponse}

theorem responses_eq (h : Answers outcome b batch response)
    (hbatch : (chunk tokens MULTICAST_BATCH_SIZE)[b]? = some batch) :
    response.responses = (positions tokens.length b).map outcome := by
  rw [h.responses, ← map_range_eq_positions hbatch, List.map_map]
  rfl

/-- A callback pushes the failures of its batch's positions. -/
theorem batchFailures_eq (h : Answers outcome b batch response)
    (hbatch : (chunk tokens MULTICAST_BATCH_SIZE)[b]? = some batch) :
    batchFailures b response.responses =
      (positions tokens.length b).filterMap (failureAt outcome) := by
  rw [batchFailures, h.responses, zipIdx_map_range, ← map_range_eq_positions hbatch,
    List.filterMap_map, List.filterMap_map]
  rfl

end Answers

/-- The state when the outcomes at these positions have been added up. -/
def Sending.gather (s : Sending) (outcome : Nat → SendResponse) (ps : List Nat) : Sending :=
  { s with
    successCount := s.successCount + ps.countP fun i => (outcome i).success
    failureCount := s.failureCount + ps.countP fun i => !(outcome i).success
    failures := s.failures ++ ps.filterMap (failureAt outcome) }

theorem step_answers {tokens batch : List String} {b : Nat} {s : Sending}
    (hbatch : (chunk tokens MULTICAST_BATCH_SIZE)[b]? = some batch)
    (h : Answers outcome b batch (respond b)) (hmem : b ∈ s.inFlight) :
    Sending.step s (b, .ok (respond b)) =
      some ({ s with inFlight := s.inFlight.erase b }.gather outcome
        (positions tokens.length b)) := by
  have hfailures := h.batchFailures_eq hbatch
  rw [h.responses_eq hbatch] at hfailures
  simp only [Sending.step, hmem, if_true, Sending.collect, Sending.gather, h.successCount,
    h.failureCount, h.responses_eq hbatch, hfailures, List.countP_map]
  rfl

/-- The answers of all sends in flight, in any order. -/
theorem run_answers {tokens : List String} {s : Sending} {order : List Nat}
    (hlt : ∀ b ∈ order, b < (chunk tokens MULTICAST_BATCH_SIZE).length)
    (h : ∀ b batch, (chunk tokens MULTICAST_BATCH_SIZE)[b]? = some batch →
      Answers outcome b batch (respond b))
    (horder : order.Perm s.inFlight) :
    run Sending.step s (order.map fun b => (b, .ok (respond b))) =
      some ({ s with inFlight := [] }.gather outcome
        (order.flatMap (positions tokens.length))) := by
  induction order generalizing s with
  | nil =>
      rw [List.nil_perm] at horder
      cases s
      cases horder
      simp [Sending.gather]
  | cons b order ih =>
      obtain ⟨hmem, hrest⟩ := List.cons_perm_iff_perm_erase.1 horder
      have hb := List.getElem?_eq_getElem (hlt b List.mem_cons_self)
      refine run_cons_eq_some.2 ⟨_, step_answers hb (h b _ hb) hmem, ?_⟩
      rw [ih (fun c hc => hlt c (List.mem_cons_of_mem b hc)) hrest]
      simp [Sending.gather, Nat.add_assoc]

theorem failureOf_index {i : Nat} {resp : SendResponse} {failure : NotificationFailure}
    (h : failureOf i resp = some failure) :
    failure.index = i ∧ ∃ error, resp.error = some error ∧ failure.error = toError error := by
  unfold failureOf at h
  split at h
  · cases h
  · obtain ⟨error, herror, rfl⟩ := Option.map_eq_some_iff.1 h
    exact ⟨rfl, error, herror, rfl⟩

/-- Where failures carry errors, the entries are for the failed positions. -/
theorem map_index_filterMap {ps : List Nat}
    (herror : ∀ i ∈ ps, (outcome i).success = false → (outcome i).error ≠ none) :
    (ps.filterMap (failureAt outcome)).map (·.index) =
      ps.filter fun i => !(outcome i).success := by
  induction ps with
  | nil => rfl
  | cons i ps ih =>
      have hrest := ih fun j hj => herror j (List.mem_cons_of_mem i hj)
      cases hsuccess : (outcome i).success with
      | true => simpa [failureAt, failureOf, hsuccess] using hrest
      | false =>
          obtain ⟨error, he⟩ := Option.ne_none_iff_exists'.1
            (herror i List.mem_cons_self hsuccess)
          simpa [failureAt, failureOf, hsuccess, he] using hrest

/-- The sums over every position, visited in some order. -/
theorem reports_of_perm {n : Nat} {ps : List Nat} (hps : ps.Perm (List.range n))
    (herror : ∀ i < n, (outcome i).success = false → (outcome i).error ≠ none) :
    Reports outcome n
      { successCount := ps.countP fun i => (outcome i).success
        failureCount := ps.countP fun i => !(outcome i).success
        failures := ps.filterMap (failureAt outcome) } where
  total := by
    have hsum := List.length_eq_countP_add_countP (fun i => (outcome i).success) (l := ps)
    rw [hps.length_eq, List.length_range] at hsum
    simpa using hsum.symm
  successCount := hps.countP_eq _
  index := by
    rw [map_index_filterMap fun i hi => herror i (List.mem_range.1 (hps.mem_iff.1 hi))]
    exact hps.filter _
  error := by
    intro failure hfailure
    obtain ⟨i, hi, hat⟩ := List.mem_filterMap.1 hfailure
    obtain ⟨hindex, hcarried⟩ := failureOf_index hat
    rw [hindex]
    exact ⟨List.mem_range.1 (hps.mem_iff.1 hi), hcarried⟩

/-- Whatever the order in which the batches are answered, the call resolves, and its report is
that of the tokens one by one. -/
theorem sendToTokens_reports {options : TokensNotificationOptions} (htitle : options.title ≠ "")
    (hbody : options.body ≠ "") (htokens : options.tokens ≠ []) :
    ∃ s, sendToTokens options = .ok s ∧ Sends options.tokens s.requests ∧
      ∀ (outcome : Nat → SendResponse) (respond : Nat → MulticastResponse) (order : List Nat),
        (∀ i < options.tokens.length, (outcome i).success = false → (outcome i).error ≠ none) →
        (∀ b request, s.requests[b]? = some request →
          Answers outcome b request.tokens (respond b)) →
        order.Perm (List.range s.requests.length) →
        ∃ t report, run Sending.step s (order.map fun b => (b, .ok (respond b))) = some t ∧
          t.requests = s.requests ∧ t.settled = some (.ok report) ∧
          Reports outcome options.tokens.length report := by
  refine ⟨startSending options, sendToTokens_ok htitle hbody htokens,
    sends_startSending options, ?_⟩
  intro outcome respond order herror hanswers horder
  have hall : order.Perm (startSending options).inFlight := by
    simpa [startSending] using horder
  have hlt : ∀ b ∈ order, b < (chunk options.tokens MULTICAST_BATCH_SIZE).length :=
    fun b hb => List.mem_range.1 (hall.mem_iff.1 hb)
  have hbatches : ∀ b batch, (chunk options.tokens MULTICAST_BATCH_SIZE)[b]? = some batch →
      Answers outcome b batch (respond b) := by
    intro b batch hbatch
    exact hanswers b ⟨batch, buildPayload options.toBaseNotificationOptions⟩
      (by simp [startSending, hbatch])
  refine ⟨_, _, run_answers hlt hbatches hall, rfl, rfl, ?_⟩
  simpa [startSending, Sending.gather] using reports_of_perm (flatMap_positions hall) herror

end Outcomes

def TokensNotificationOptions.sample : TokensNotificationOptions where
  title := "Welcome"
  body := "Your account is ready."
  tokens := List.replicate 501 "token"

def SendResponse.sample (i : Nat) : SendResponse :=
  if i = 500 then
    { success := false
      error := some ⟨"messaging/registration-token-not-registered", "not registered"⟩ }
  else { success := true }

def MulticastResponse.sample (b : Nat) : MulticastResponse :=
  let responses := (List.range (if b = 0 then 500 else 1)).map fun i =>
    SendResponse.sample (b * 500 + i)
  { responses
    successCount := responses.countP (·.success)
    failureCount := responses.countP (!·.success) }

theorem length_tokens_sample : TokensNotificationOptions.sample.tokens.length = 501 :=
  List.length_replicate

theorem chunk_sample {items : List String} (h : items.length = 501) :
    chunk items MULTICAST_BATCH_SIZE = [items.take 500, items.drop 500] := by
  have hsize : (MULTICAST_BATCH_SIZE : Nat) = 500 := rfl
  rw [chunk, chunkFrom_of_lt (by omega), chunkFrom_of_lt (by omega), chunkFrom_of_le (by omega)]
  have htail : (items.drop 500).take 500 = items.drop 500 :=
    List.take_of_length_le (by rw [List.length_drop]; omega)
  rw [hsize, Nat.zero_add, List.drop_zero, htail]

theorem answers_sample (b : Nat) (request : MulticastMessage)
    (h : (startSending .sample).requests[b]? = some request) :
    Answers SendResponse.sample b request.tokens (MulticastResponse.sample b) := by
  rw [startSending, chunk_sample length_tokens_sample] at h
  have hlength : request.tokens.length = if b = 0 then 500 else 1 := by
    rcases b with _ | _ | b
    · simp only [List.map_cons, List.getElem?_cons_zero, Option.some.injEq] at h
      rw [← h, List.length_take, length_tokens_sample]
      rfl
    · simp only [List.map_cons, List.getElem?_cons_succ, List.getElem?_cons_zero,
        Option.some.injEq] at h
      rw [← h, List.length_drop, length_tokens_sample]
      rfl
    · simp at h
  exact ⟨by rw [hlength]; rfl, rfl, rfl⟩

/-- 501 tokens in two batches, the second of which is answered first. -/
theorem sendToTokens_reports_sample :
    ∃ s t report, sendToTokens .sample = .ok s ∧
      run Sending.step s ([1, 0].map fun b => (b, .ok (MulticastResponse.sample b))) = some t ∧
      t.settled = some (.ok report) ∧ Reports SendResponse.sample 501 report := by
  have htokens : TokensNotificationOptions.sample.tokens ≠ [] :=
    List.ne_nil_of_length_pos (by rw [length_tokens_sample]; decide)
  have htitle : TokensNotificationOptions.sample.title ≠ "" := by decide
  have hbody : TokensNotificationOptions.sample.body ≠ "" := by decide
  obtain ⟨s, hs, -, hreports⟩ := sendToTokens_reports htitle hbody htokens
  have hstart : s = startSending .sample := by
    rw [sendToTokens_ok htitle hbody htokens] at hs
    exact (Except.ok.inj hs).symm
  subst hstart
  have herror : ∀ i < TokensNotificationOptions.sample.tokens.length,
      (SendResponse.sample i).success = false → (SendResponse.sample i).error ≠ none := by
    intro i _ h
    unfold SendResponse.sample at h ⊢
    split
    · exact Option.some_ne_none _
    · simp_all
  have horder : [1, 0].Perm (List.range (startSending .sample).requests.length) := by
    rw [startSending, chunk_sample length_tokens_sample]
    decide
  obtain ⟨t, report, hrun, -, hsettled, hreport⟩ :=
    hreports SendResponse.sample MulticastResponse.sample [1, 0] herror answers_sample horder
  rw [length_tokens_sample] at hreport
  exact ⟨_, t, report, hs, hrun, hsettled, hreport⟩

end NestStarter.Notifications
