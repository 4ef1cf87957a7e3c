import NestStarter.Whatsapp.Queue

/-! # Delays of the outbound queue

`randomDelay` and `sleep` over what `whatsappSchema` accepts: any two delays, in any order.
`crypto.randomInt` throws where it has nothing to draw from, and then `processLoop` ends with the
job it has taken; a timer that is set for more than `TIMEOUT_MAX` fires after a millisecond.
-/

namespace NestStarter.Whatsapp.Pacing

open NestStarter.Core
open NestStarter.Whatsapp.Queue (QueueConfig WhatsappQueueJob WhatsappEnqueueResult
  ServiceUnavailableException Send Shared Action Spaced Clear Paused finishHead newJob
  clear_of_settled)

structure RangeError where
  value : String
  deriving DecidableEq, Repr

/-- `crypto.randomInt(0, max)`; `seed` is the source of the draw. -/
def randomInt (max : Int) (seed : Nat) : Except RangeError Nat :=
  if max ≤ 0 then .error ⟨"max"⟩
  else if 281474976710655 < max then .error ⟨"max - min"⟩
  else .ok (seed % max.toNat)

def timeoutMax : Int := 2147483647

/-- After how long the timer of `setTimeout(f, ms)` fires. -/
def timerDelay (ms : Int) : Int := if 1 ≤ ms ∧ ms ≤ timeoutMax then ms else 1

theorem randomInt_eq_ok {max : Int} {seed r : Nat} :
    randomInt max seed = .ok r ↔
      0 < max ∧ max ≤ 281474976710655 ∧ r = seed % max.toNat := by
  unfold randomInt
  split
  · have hmax : ¬ 0 < max := by omega
    simp [hmax]
  · split
    · have hmax : ¬ max ≤ 281474976710655 := by omega
      simp [hmax]
    · have hpos : 0 < max := by omega
      have hmax : max ≤ 281474976710655 := by omega
      simp [hpos, hmax, eq_comm]

theorem le_timerDelay {ms : Int} (hpos : 0 < ms) : ms ≤ timerDelay ms ↔ ms ≤ timeoutMax := by
  unfold timerDelay timeoutMax
  split <;> omega

inductive Pc where
  | idle
  /-- In `sleep`: the next send is due at `due`, and the timer fires from `until_` on. -/
  | sleeping (job : WhatsappQueueJob) (due until_ : Instant)
  | sending (job : WhatsappQueueJob)
  | sent (job : WhatsappQueueJob)
  /-- The loop has thrown with a job in its hands. -/
  | died (job : WhatsappQueueJob) (error : RangeError)
  deriving DecidableEq, Repr

abbrev State := Pool Shared Pc

variable (cfg : QueueConfig)

def randomDelay (seed : Nat) : Except RangeError Int :=
  let span : Int := cfg.maxDelayMs - cfg.minDelayMs
  (randomInt (span + 1) seed).map fun r => cfg.minDelayMs + r

def processLoop (seed : Nat) (sh : Shared) : Shared × Pc :=
  if sh.shuttingDown then ({ sh with isProcessing := false }, .idle)
  else
    match sh.queue with
    | [] => ({ sh with isProcessing := false }, .idle)
    | job :: queue =>
        let sh := { sh with queue := queue }
        match sh.lastSentAt with
        | none => (sh.sendText job, .sending job)
        | some lastSentAt =>
            match randomDelay cfg seed with
            | .error e => ({ sh with isProcessing := false }, .died job e)
            | .ok delay =>
                let elapsed := sh.now - lastSentAt
                let remaining := delay - elapsed
                if 0 < remaining then
                  (sh, .sleeping job (lastSentAt + delay) (sh.now + timerDelay remaining))
                else (sh.sendText job, .sending job)

def afterSleep (job : WhatsappQueueJob) (sh : Shared) : Shared × Pc :=
  if sh.shuttingDown then ({ sh with isProcessing := false }, .idle)
  else (sh.sendText job, .sending job)

def startWorker (seed : Nat) (sh : Shared) : Shared × Pc :=
  if sh.isProcessing then (sh, .idle) else processLoop cfg seed { sh with isProcessing := true }

def enqueueText (phone text hex : String) (seed : Nat) (sh : Shared) :
    Except ServiceUnavailableException WhatsappEnqueueResult × Shared × Pc :=
  if !sh.connected then (.error ⟨"WhatsApp is not connected."⟩, sh, .idle)
  else if cfg.maxQueueSize ≤ sh.queue.length then
    (.error ⟨"WhatsApp queue is full. Try again later."⟩, sh, .idle)
  else
    let job := newJob sh.now phone text hex
    let sh := { sh with queue := sh.queue ++ [job], accepted := sh.accepted ++ [job] }
    let r := startWorker cfg seed sh
    (.ok ⟨job.id, r.1.queue.length, job.enqueuedAt⟩, r)

def move (_ : Nat) (sh : Shared) (pc : Pc) : Action → Option (Shared × Pc)
  | .tick d => some ({ sh with now := sh.now + d }, pc)
  | .connection up => some ({ sh with connected := up }, pc)
  | .onModuleDestroy => some ({ sh with shuttingDown := true }, pc)
  | .enqueueText phone text hex seed =>
      match pc with
      | .idle => some (enqueueText cfg phone text hex seed sh).2
      | _ => none
  | .wake =>
      match pc with
      | .sleeping job _ until_ => if until_ ≤ sh.now then some (afterSleep job sh) else none
      | _ => none
  | .settle _ =>
      match pc with
      | .sending job => some ({ sh with sends := finishHead sh.now sh.sends }, .sent job)
      | _ => none
  | .resume seed =>
      match pc with
      | .sent _ => some (processLoop cfg seed { sh with lastSentAt := some sh.now })
      | _ => none

def init (t : Instant) : State := ⟨{ now := t }, fun _ => .idle⟩

/-- Every delay is drawn from between the configured ones; no wait is shorter than the delay, no
loop dies, and the sends are the minimal delay apart. -/
structure Paced (cfg : QueueConfig) : Prop where
  defined : ∀ seed, ∃ delay : Int, randomDelay cfg seed = .ok delay ∧
    cfg.minDelayMs ≤ delay ∧ delay ≤ cfg.maxDelayMs
  waits : ∀ t p, Reachable (Pool.step (move cfg)) (init t) p → ∀ c job due until_,
    p.client c = .sleeping job due until_ → due ≤ until_
  alive : ∀ t p, Reachable (Pool.step (move cfg)) (init t) p → ∀ c job e,
    p.client c ≠ .died job e
  spaced : ∀ t p, Reachable (Pool.step (move cfg)) (init t) p →
    Spaced cfg.minDelayMs p.shared.sends

/-- The delays are in order and no longer than a timer can wait. -/
def InRange (cfg : QueueConfig) : Prop :=
  cfg.minDelayMs ≤ cfg.maxDelayMs ∧ (cfg.maxDelayMs : Int) ≤ timeoutMax

instance (cfg : QueueConfig) : Decidable (InRange cfg) := inferInstanceAs (Decidable (_ ∧ _))

variable {cfg}

theorem randomDelay_eq_ok {seed : Nat} {delay : Int} (h : randomDelay cfg seed = .ok delay) :
    cfg.minDelayMs ≤ delay ∧ delay ≤ cfg.maxDelayMs ∧ cfg.minDelayMs ≤ cfg.maxDelayMs := by
  unfold randomDelay at h
  cases hdraw : randomInt ((cfg.maxDelayMs : Int) - cfg.minDelayMs + 1) seed with
  | error e => simp [hdraw, Except.map] at h
  | ok r =>
      obtain ⟨hpos, _, hr⟩ := randomInt_eq_ok.1 hdraw
      have hlt : r < ((cfg.maxDelayMs : Int) - cfg.minDelayMs + 1).toNat := by
        rw [hr]
        exact Nat.mod_lt _ (by omega)
      have hdelay : (cfg.minDelayMs : Int) + r = delay := by simpa [hdraw, Except.map] using h
      omega

theorem InRange.randomDelay (h : InRange cfg) (seed : Nat) :
    ∃ delay : Int, randomDelay cfg seed = .ok delay ∧ cfg.minDelayMs ≤ delay ∧
      delay ≤ cfg.maxDelayMs := by
  obtain ⟨hle, hmax⟩ := h
  unfold timeoutMax at hmax
  have hdraw : randomInt ((cfg.maxDelayMs : Int) - cfg.minDelayMs + 1) seed =
      .ok (seed % ((cfg.maxDelayMs : Int) - cfg.minDelayMs + 1).toNat) :=
    randomInt_eq_ok.2 ⟨by omega, by omega, rfl⟩
  have hok : Pacing.randomDelay cfg seed = .ok (cfg.minDelayMs +
      (seed % ((cfg.maxDelayMs : Int) - cfg.minDelayMs + 1).toNat : Nat)) := by
    simp only [Pacing.randomDelay, hdraw]
    rfl
  obtain ⟨hmin, hle, _⟩ := randomDelay_eq_ok hok
  exact ⟨_, hok, hmin, hle⟩

/-- A wait of at most `TIMEOUT_MAX` ends when the next send is due. -/
theorem due_le_timer {delay l now : Int} (hpast : l ≤ now) (hmax : delay ≤ timeoutMax)
    (hremaining : 0 < delay - (now - l)) : l + delay ≤ now + timerDelay (delay - (now - l)) := by
  have hle : delay - (now - l) ≤ timerDelay (delay - (now - l)) :=
    (le_timerDelay hremaining).2 (by omega)
  omega

theorem elapsed_of_not_remaining {delay m l now : Int} (hmin : m ≤ delay)
    (h : ¬ 0 < delay - (now - l)) : l + m ≤ now := by omega

/-! ## Delays in range -/

variable (cfg) in
def Rest (sh : Shared) : Pc → Prop
  | .idle => Paused cfg.minDelayMs sh
  | .sleeping _ due until_ => Paused cfg.minDelayMs sh ∧ Clear cfg.minDelayMs sh.sends due ∧
      due ≤ until_
  | .sending job => ∃ t sends, sh.sends = ⟨job, t, none⟩ :: sends
  | .sent job => ∃ t f sends, sh.sends = ⟨job, t, some f⟩ :: sends ∧ f ≤ sh.now
  | .died _ _ => False

variable (cfg) in
structure Stage (sh : Shared) (pc : Pc) : Prop where
  running : sh.isProcessing = false ↔ pc = .idle
  past : ∀ l ∈ sh.lastSentAt, l ≤ sh.now
  spaced : Spaced cfg.minDelayMs sh.sends
  rest : Rest cfg sh pc

theorem Stage.isProcessing {sh : Shared} {pc : Pc} (h : Stage cfg sh pc) (hpc : pc ≠ .idle) :
    sh.isProcessing = true := by
  have hrunning := mt h.running.1 hpc
  simpa using hrunning

variable (cfg) in
structure Between (sh : Shared) : Prop where
  running : sh.isProcessing = true
  past : ∀ l ∈ sh.lastSentAt, l ≤ sh.now
  spaced : Spaced cfg.minDelayMs sh.sends
  rest : Paused cfg.minDelayMs sh

theorem Between.leave {sh : Shared} (h : Between cfg sh) :
    Stage cfg { sh with isProcessing := false } .idle :=
  ⟨by simp, h.past, h.spaced, h.rest⟩

/-- A send that starts when the spacing allows it. -/
theorem stage_sendText (sh : Shared) (job : WhatsappQueueJob) (hrunning : sh.isProcessing = true)
    (hpast : ∀ l ∈ sh.lastSentAt, l ≤ sh.now) (hspaced : Spaced cfg.minDelayMs sh.sends)
    (hclear : Clear cfg.minDelayMs sh.sends sh.now) :
    Stage cfg (sh.sendText job) (.sending job) := by
  have hrunning' : (sh.sendText job).isProcessing = true := hrunning
  exact ⟨by simp [hrunning'], hpast, hspaced.sendText hclear job, ⟨_, _, rfl⟩⟩

theorem Between.processLoop (hrange : InRange cfg) {sh : Shared} (h : Between cfg sh)
    (seed : Nat) : Stage cfg (processLoop cfg seed sh).1 (processLoop cfg seed sh).2 := by
  unfold Pacing.processLoop
  split
  · exact h.leave
  · split
    · exact h.leave
    · next job queue _ =>
      have hrest := h.rest
      have hsend : Clear cfg.minDelayMs sh.sends sh.now →
          Stage cfg (Shared.sendText { sh with queue := queue } job) (.sending job) := fun hclear =>
        stage_sendText { sh with queue := queue } job h.running h.past h.spaced hclear
      simp only
      split
      · next hlast =>
        rw [Paused, hlast] at hrest
        refine hsend fun s hs => ?_
        simp [show sh.sends = [] from hrest] at hs
      · next lastSentAt hlast =>
        rw [Paused, hlast] at hrest
        have hclear : Clear cfg.minDelayMs sh.sends (lastSentAt + cfg.minDelayMs) := hrest
        obtain ⟨delay, hdelay, hmin, hmax⟩ := hrange.randomDelay seed
        simp only [hdelay]
        split
        · next hremaining =>
          have hdue := due_le_timer (h.past lastSentAt hlast) (Int.le_trans hmax hrange.2)
            hremaining
          exact ⟨by simp [h.running], h.past, h.spaced,
            by simpa [Paused, hlast] using hclear, hclear.mono (Int.add_le_add_left hmin _), hdue⟩
        · next hlate => exact hsend (hclear.mono (elapsed_of_not_remaining hmin hlate))

/-- What does not touch the loop: time, the socket, the queue and the shutdown flag. -/
theorem Stage.frame {sh sh' : Shared} {pc : Pc} (h : Stage cfg sh pc)
    (hprocessing : sh'.isProcessing = sh.isProcessing) (hlast : sh'.lastSentAt = sh.lastSentAt)
    (hsends : sh'.sends = sh.sends) (hnow : sh.now ≤ sh'.now) : Stage cfg sh' pc := by
  have hpaused : Paused cfg.minDelayMs sh → Paused cfg.minDelayMs sh' := by
    intro hpaused
    unfold Paused at *
    rwa [hlast, hsends]
  refine ⟨by rw [hprocessing]; exact h.running, fun l hl => ?_, by rw [hsends]; exact h.spaced, ?_⟩
  · exact Int.le_trans (h.past l (hlast ▸ hl)) hnow
  · have hrest := h.rest
    cases pc with
    | idle => exact hpaused hrest
    | sleeping job due until_ =>
        obtain ⟨hold, hclear, hdue⟩ := hrest
        exact ⟨hpaused hold, by rwa [hsends], hdue⟩
    | sending job => simpa [Rest, hsends] using hrest
    | sent job =>
        obtain ⟨t, f, sends, heq, hle⟩ := hrest
        exact ⟨t, f, sends, hsends.trans heq, Int.le_trans hle hnow⟩
    | died job e => exact hrest.elim

theorem startWorker_of_running {sh : Shared} (h : sh.isProcessing = true) (seed : Nat) :
    startWorker cfg seed sh = (sh, .idle) := if_pos h

theorem startWorker_of_idle {sh : Shared} (h : sh.isProcessing = false) (seed : Nat) :
    startWorker cfg seed sh = processLoop cfg seed { sh with isProcessing := true } :=
  if_neg (by simp [h])

/-- A call from a client without a worker, against the client that has one, if any. -/
theorem Stage.enqueueText (hrange : InRange cfg) {sh : Shared} {pc : Pc} (h : Stage cfg sh pc)
    (phone text hex : String) (seed : Nat) :
    (pc ≠ .idle → (enqueueText cfg phone text hex seed sh).2.2 = .idle ∧
      Stage cfg (enqueueText cfg phone text hex seed sh).2.1 pc) ∧
    (pc = .idle → Stage cfg (enqueueText cfg phone text hex seed sh).2.1
      (enqueueText cfg phone text hex seed sh).2.2) := by
  unfold Pacing.enqueueText
  split
  · exact ⟨fun _ => ⟨rfl, h⟩, fun hpc => hpc ▸ h⟩
  · split
    · exact ⟨fun _ => ⟨rfl, h⟩, fun hpc => hpc ▸ h⟩
    · simp only
      constructor
      · intro hpc
        rw [startWorker_of_running (by exact h.isProcessing hpc)]
        exact ⟨rfl, h.frame rfl rfl rfl (Int.le_refl _)⟩
      · intro hpc
        subst hpc
        have hbetween : Between cfg { sh with
            queue := sh.queue ++ [newJob sh.now phone text hex]
            accepted := sh.accepted ++ [newJob sh.now phone text hex]
            isProcessing := true } := ⟨rfl, h.past, h.spaced, h.rest⟩
        rw [startWorker_of_idle (by exact h.running.2 rfl)]
        exact hbetween.processLoop hrange seed

/-- One client's worker may be running; the service's state fits where it stands. -/
def Inv (cfg : QueueConfig) (p : State) : Prop :=
  ∃ c, (∀ d, d ≠ c → p.client d = .idle) ∧ Stage cfg p.shared (p.client c)

theorem Stage.afterSleep {sh : Shared} {job : WhatsappQueueJob} {due until_ : Instant}
    (h : Stage cfg sh (.sleeping job due until_)) (hle : until_ ≤ sh.now) :
    Stage cfg (afterSleep job sh).1 (afterSleep job sh).2 := by
  have hrunning := h.isProcessing (by simp)
  obtain ⟨hpaused, hclear, hdue⟩ := h.rest
  unfold Pacing.afterSleep
  split
  · exact Between.leave ⟨hrunning, h.past, h.spaced, hpaused⟩
  · exact stage_sendText sh job hrunning h.past h.spaced (hclear.mono (Int.le_trans hdue hle))

theorem Stage.settle {sh : Shared} {job : WhatsappQueueJob} (h : Stage cfg sh (.sending job)) :
    Stage cfg { sh with sends := finishHead sh.now sh.sends } (.sent job) := by
  have hrunning := h.isProcessing (by simp)
  obtain ⟨t, sends, hsends⟩ := h.rest
  exact ⟨by simp [hrunning], h.past, h.spaced.finishHead sh.now, t, sh.now, sends,
    by simp [hsends, finishHead], Int.le_refl _⟩

theorem Stage.resume (hrange : InRange cfg) {sh : Shared} {job : WhatsappQueueJob}
    (h : Stage cfg sh (.sent job)) (seed : Nat) :
    Stage cfg (processLoop cfg seed { sh with lastSentAt := some sh.now }).1
      (processLoop cfg seed { sh with lastSentAt := some sh.now }).2 := by
  have hrunning := h.isProcessing (by simp)
  obtain ⟨t, f, sends, hsends, hle⟩ := h.rest
  have hclear : Clear cfg.minDelayMs sh.sends (sh.now + cfg.minDelayMs) :=
    clear_of_settled hsends hle
  have hpast : ∀ l ∈ some sh.now, l ≤ sh.now := by
    intro l hl
    obtain rfl := Option.some.inj hl
    exact Int.le_refl _
  have hbetween : Between cfg { sh with lastSentAt := some sh.now } :=
    ⟨hrunning, hpast, h.spaced, hclear⟩
  exact hbetween.processLoop hrange seed

/-- A step of the client whose worker is running, or of any client when none is. -/
theorem Stage.move (hrange : InRange cfg) {c : Nat} {sh sh' : Shared} {pc pc' : Pc}
    (h : Stage cfg sh pc) {a : Action} (hmove : move cfg c sh pc a = some (sh', pc')) :
    Stage cfg sh' pc' := by
  cases a with
  | tick n =>
      cases hmove
      exact h.frame rfl rfl rfl (Int.le_add_of_nonneg_right (Int.natCast_nonneg n))
  | connection up =>
      cases hmove
      exact h.frame rfl rfl rfl (Int.le_refl _)
  | onModuleDestroy =>
      cases hmove
      exact h.frame rfl rfl rfl (Int.le_refl _)
  | enqueueText phone text hex seed =>
      cases pc with
      | idle =>
          have hstage := (h.enqueueText hrange phone text hex seed).2 rfl
          rw [Option.some.inj hmove] at hstage
          exact hstage
      | _ => cases hmove
  | wake =>
      cases pc with
      | sleeping job due until_ =>
          obtain ⟨hle, heq⟩ := Option.ite_none_right_eq_some.1 hmove
          have hstage := h.afterSleep hle
          rw [Option.some.inj heq] at hstage
          exact hstage
      | _ => cases hmove
  | settle dispatched =>
      cases pc with
      | sending job =>
          cases hmove
          exact h.settle
      | _ => cases hmove
  | resume seed =>
      cases pc with
      | sent job =>
          have hstage := h.resume hrange seed
          rw [Option.some.inj hmove] at hstage
          exact hstage
      | _ => cases hmove

/-- A step of a client without a worker, while another's is running. -/
theorem Stage.move_other (hrange : InRange cfg) {d : Nat} {sh sh' : Shared} {pc pc' : Pc}
    (h : Stage cfg sh pc) (hpc : pc ≠ .idle) {a : Action}
    (hmove : Pacing.move cfg d sh .idle a = some (sh', pc')) : Stage cfg sh' pc ∧ pc' = .idle := by
  cases a with
  | tick n =>
      cases hmove
      exact ⟨h.frame rfl rfl rfl (Int.le_add_of_nonneg_right (Int.natCast_nonneg n)), rfl⟩
  | connection up =>
      cases hmove
      exact ⟨h.frame rfl rfl rfl (Int.le_refl _), rfl⟩
  | onModuleDestroy =>
      cases hmove
      exact ⟨h.frame rfl rfl rfl (Int.le_refl _), rfl⟩
  | enqueueText phone text hex seed =>
      obtain ⟨hidle, hstage⟩ := (h.enqueueText hrange phone text hex seed).1 hpc
      rw [Option.some.inj hmove] at hidle hstage
      exact ⟨hstage, hidle⟩
  | wake => cases hmove
  | settle dispatched => cases hmove
  | resume seed => cases hmove

theorem Inv.step (hrange : InRange cfg) {p p' : State} {a : Nat × Action} (h : Inv cfg p)
    (hstep : Pool.step (move cfg) p a = some p') : Inv cfg p' := by
  have halone : Pool.Alone .idle (Stage cfg) p := h
  exact halone.step (fun hstage hmove => hstage.move hrange hmove)
    (fun hstage hpc hmove => hstage.move_other hrange hpc hmove) hstep

theorem inv_of_reachable (hrange : InRange cfg) {t : Instant} {p : State}
    (h : Reachable (Pool.step (move cfg)) (init t) p) : Inv cfg p :=
  h.inv ⟨0, fun _ _ => rfl, ⟨by simp [init], by simp [init], List.isChain_nil, rfl⟩⟩
    fun _ _ _ hs hstep => hs.step hrange hstep

theorem InRange.paced (hrange : InRange cfg) : Paced cfg := by
  have hclient : ∀ {p : State}, Inv cfg p → ∀ c, p.client c ≠ .idle →
      Stage cfg p.shared (p.client c) := by
    intro p ⟨c, hidle, hstage⟩ d hd
    obtain rfl : d = c := Classical.byContradiction fun hne => hd (hidle d hne)
    exact hstage
  refine ⟨hrange.randomDelay, fun t p hp c job due until_ hc => ?_, fun t p hp c job e hc => ?_,
    fun t p hp => ?_⟩
  · have hstage := hclient (inv_of_reachable hrange hp) c (by simp [hc])
    rw [hc] at hstage
    exact hstage.rest.2.2
  · have hstage := hclient (inv_of_reachable hrange hp) c (by simp [hc])
    rw [hc] at hstage
    exact hstage.rest
  · obtain ⟨c, _, hstage⟩ := inv_of_reachable hrange hp
    exact hstage.spaced

/-! ## Delays out of range -/

/-- Two messages: the second is due the longest delay after the first. -/
def secondMessage (cfg : QueueConfig) : List (Nat × Action) :=
  [(0, .connection true), (0, .enqueueText "+9647700000001" "first" "00000000" 0),
    (1, .enqueueText "+9647700000002" "second" "00000001" 0), (0, .settle true),
    (0, .resume (cfg.maxDelayMs - cfg.minDelayMs))]

theorem reachable_sleeping (hsize : 0 < cfg.maxQueueSize) {delay : Int}
    (hdelay : randomDelay cfg (cfg.maxDelayMs - cfg.minDelayMs) = .ok delay) (hpos : 0 < delay) :
    ∃ p job, Reachable (Pool.step (move cfg)) (init 0) p ∧
      p.client 0 = .sleeping job delay (timerDelay delay) := by
  have hfits : ¬ cfg.maxQueueSize ≤ 0 := by omega
  have hclient : (run (Pool.step (move cfg)) (init 0) (secondMessage cfg)).map (·.client 0) =
      some (.sleeping (newJob 0 "+9647700000002" "second" "00000001") delay
        (timerDelay delay)) := by
    simp [secondMessage, run, Pool.step, move, init, enqueueText, startWorker, processLoop,
      Shared.sendText, hfits, hdelay, hpos]
  obtain ⟨p, hrun, hp⟩ := Option.map_eq_some_iff.1 hclient
  exact ⟨p, _, ⟨_, hrun⟩, hp⟩

theorem randomDelay_longest {delay : Int}
    (h : randomDelay cfg (cfg.maxDelayMs - cfg.minDelayMs) = .ok delay) :
    delay = cfg.maxDelayMs := by
  have hle := (randomDelay_eq_ok h).2.2
  have hspan : ((cfg.maxDelayMs : Int) - cfg.minDelayMs + 1).toNat =
      cfg.maxDelayMs - cfg.minDelayMs + 1 := by omega
  unfold randomDelay at h
  cases hdraw : randomInt ((cfg.maxDelayMs : Int) - cfg.minDelayMs + 1)
      (cfg.maxDelayMs - cfg.minDelayMs) with
  | error e => simp [hdraw, Except.map] at h
  | ok r =>
      have hr := (randomInt_eq_ok.1 hdraw).2.2
      rw [hspan, Nat.mod_eq_of_lt (Nat.lt_succ_self _)] at hr
      have hdelay : (cfg.minDelayMs : Int) + r = delay := by simpa [hdraw, Except.map] using h
      omega

/-- The queue keeps its pace exactly for delays in order that a timer can wait. -/
theorem paced_iff (hsize : 0 < cfg.maxQueueSize) : Paced cfg ↔ InRange cfg := by
  constructor
  · intro h
    obtain ⟨delay, hdelay, _, _⟩ := h.defined (cfg.maxDelayMs - cfg.minDelayMs)
    refine ⟨(randomDelay_eq_ok hdelay).2.2, ?_⟩
    rw [← randomDelay_longest hdelay]
    by_cases hpos : 0 < delay
    · obtain ⟨p, job, hp, hclient⟩ := reachable_sleeping hsize hdelay hpos
      exact (le_timerDelay hpos).1 (h.waits 0 p hp 0 job delay _ hclient)
    · unfold timeoutMax
      omega
  · exact InRange.paced

theorem paced_defaults : Paced {} := (paced_iff (by decide)).2 (by decide)

/-- With the delays the wrong way round the loop dies with the second message. -/
theorem not_paced_reversed : ¬ Paced { minDelayMs := 8000, maxDelayMs := 3000 } := by
  intro h
  have hdied : ((run (Pool.step (move { minDelayMs := 8000, maxDelayMs := 3000 })) (init 0)
      (secondMessage { minDelayMs := 8000, maxDelayMs := 3000 })).any fun p =>
      decide (p.client 0 = .died (newJob 0 "+9647700000002" "second" "00000001") ⟨"max"⟩)) =
      true := by
    decide +kernel
  simp only [Option.any_eq_true, decide_eq_true_eq] at hdied
  obtain ⟨p, hrun, hclient⟩ := hdied
  exact h.alive 0 p ⟨_, hrun⟩ 0 _ _ hclient

end NestStarter.Whatsapp.Pacing
