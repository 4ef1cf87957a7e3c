import Mathlib.Data.List.Chain
import NestStarter.Core.Machine
import NestStarter.Domain

/-! # The outbound WhatsApp queue

`WhatsappQueueService` under any interleaving of its callers and its worker.
JavaScript code runs to its next `await` without yielding, so one step is one
such section: a call of `enqueueText` together with the part of `processLoop` it
starts, or a resumption of the loop. The loop a call has started is run by the
client that made the call; other clients go on calling.

Two fields are history that no step reads: the jobs accepted, and the calls of
`sendText` with the times they started and settled, newest first.
-/

namespace NestStarter.Whatsapp.Queue

open NestStarter.Core

structure WhatsappQueueJob where
  id : String
  phone : String
  text : String
  enqueuedAt : Instant
  deriving DecidableEq, Repr

structure WhatsappEnqueueResult where
  queueId : String
  position : Nat
  enqueuedAt : Instant
  deriving DecidableEq, Repr

structure ServiceUnavailableException where
  message : String
  deriving DecidableEq, Repr

/-- `whatsappSchema`, with its defaults. -/
structure QueueConfig where
  minDelayMs : Nat := 3000
  maxDelayMs : Nat := 8000
  maxQueueSize : Nat := 1000

structure Send where
  job : WhatsappQueueJob
  startedAt : Instant
  finishedAt : Option Instant := none
  deriving DecidableEq, Repr

structure Shared where
  queue : List WhatsappQueueJob := []
  isProcessing : Bool := false
  shuttingDown : Bool := false
  lastSentAt : Option Instant := none
  now : Instant := 0
  connected : Bool := false
  accepted : List WhatsappQueueJob := []
  sends : List Send := []

inductive Pc where
  | idle
  /-- In `sleep`, whose timer may fire from `until_` on. -/
  | sleeping (job : WhatsappQueueJob) (until_ : Instant)
  /-- `sendText` has been called. -/
  | sending (job : WhatsappQueueJob)
  /-- `sendText` has settled, and the loop has not resumed. -/
  | sent (job : WhatsappQueueJob)
  deriving DecidableEq, Repr

abbrev State := Pool Shared Pc

inductive Action where
  | tick (d : Nat)
  /-- The socket opens or closes. -/
  | connection (up : Bool)
  | enqueueText (phone text hex : String) (draw : Nat)
  /-- The timer of `sleep` fires. -/
  | wake
  /-- `sendText` resolves or rejects. -/
  | settle (dispatched : Bool)
  | resume (draw : Nat)
  | onModuleDestroy
  deriving DecidableEq, Repr

variable (cfg : QueueConfig)

/-- `crypto.randomInt(0, span + 1)` draws from `[0, span]`. -/
def Drawn (draw : Nat) : Prop := cfg.minDelayMs + draw ≤ cfg.maxDelayMs

instance (draw : Nat) : Decidable (Drawn cfg draw) := by unfold Drawn; infer_instance

def randomDelay (draw : Nat) : Int := cfg.minDelayMs + draw

theorem randomDelay_remaining (draw : Nat) (l now : Int) :
    l + cfg.minDelayMs ≤ now + (randomDelay cfg draw - (now - l)) := by
  unfold randomDelay
  omega

theorem randomDelay_elapsed (draw : Nat) {l now : Int}
    (h : ¬ 0 < randomDelay cfg draw - (now - l)) : l + cfg.minDelayMs ≤ now := by
  unfold randomDelay at h
  omega

def Shared.sendText (sh : Shared) (job : WhatsappQueueJob) : Shared :=
  { sh with sends := ⟨job, sh.now, none⟩ :: sh.sends }

def Shared.leave (sh : Shared) : Shared × Pc := ({ sh with isProcessing := false }, .idle)

/-- `processLoop` from its `while` to its next `await` or its end. -/
def processLoop (draw : Nat) (sh : Shared) : Shared × Pc :=
  if sh.shuttingDown then sh.leave
  else
    match sh.queue with
    | [] => sh.leave
    | job :: queue =>
        let sh := { sh with queue := queue }
        match sh.lastSentAt with
        | none => (sh.sendText job, .sending job)
        | some lastSentAt =>
            let delay := randomDelay cfg draw
            let elapsed := sh.now - lastSentAt
            let remaining := delay - elapsed
            if 0 < remaining then (sh, .sleeping job (sh.now + remaining))
            else (sh.sendText job, .sending job)

/-- `processLoop` from the end of its `sleep` to its next `await` or its end. -/
def afterSleep (job : WhatsappQueueJob) (sh : Shared) : Shared × Pc :=
  if sh.shuttingDown then sh.leave else (sh.sendText job, .sending job)

def startWorker (draw : Nat) (sh : Shared) : Shared × Pc :=
  if sh.isProcessing then (sh, .idle) else processLoop cfg draw { sh with isProcessing := true }

/-- The job `enqueueText` builds; `hex` is what `randomBytes(4)` came to. -/
def newJob (now : Instant) (phone text hex : String) : WhatsappQueueJob :=
  ⟨"wa-" ++ toString now ++ "-" ++ hex, phone, text, now⟩

def enqueueText (phone text hex : String) (draw : Nat) (sh : Shared) :
    Except ServiceUnavailableException WhatsappEnqueueResult × Shared × Pc :=
  if !sh.connected then (.error ⟨"WhatsApp is not connected."⟩, sh, .idle)
  else if cfg.maxQueueSize ≤ sh.queue.length then
    (.error ⟨"WhatsApp queue is full. Try again later."⟩, sh, .idle)
  else
    let job := newJob sh.now phone text hex
    let sh := { sh with queue := sh.queue ++ [job], accepted := sh.accepted ++ [job] }
    let r := startWorker cfg draw sh
    (.ok ⟨job.id, r.1.queue.length, job.enqueuedAt⟩, r)

/-- Note when the latest send settled. -/
def finishHead (now : Instant) : List Send → List Send
  | [] => []
  | s :: sends => { s with finishedAt := some now } :: sends

def move (_ : Nat) (sh : Shared) (pc : Pc) : Action → Option (Shared × Pc)
  | .tick d => some ({ sh with now := sh.now + d }, pc)
  | .connection up => some ({ sh with connected := up }, pc)
  | .onModuleDestroy => some ({ sh with shuttingDown := true }, pc)
  | .enqueueText phone text hex draw =>
      match pc with
      | .idle =>
          if Drawn cfg draw then some (enqueueText cfg phone text hex draw sh).2 else none
      | _ => none
  | .wake =>
      match pc with
      | .sleeping job until_ => if until_ ≤ sh.now then some (afterSleep job sh) else none
      | _ => none
  | .settle _ =>
      match pc with
      | .sending job => some ({ sh with sends := finishHead sh.now sh.sends }, .sent job)
      | _ => none
  | .resume draw =>
      match pc with
      | .sent _ =>
          if Drawn cfg draw then
            some (processLoop cfg draw { sh with lastSentAt := some sh.now })
          else none
      | _ => none

def init (t : Instant) : State := ⟨{ now := t }, fun _ => .idle⟩

/-! ## The discipline -/

/-- The job a worker has taken from the queue and not yet passed to `sendText`. -/
def Pc.held : Pc → List WhatsappQueueJob
  | .sleeping job _ => [job]
  | _ => []

/-- Newest first: each send starts the minimal delay after the one before it settled. -/
def Spaced (minDelayMs : Nat) (sends : List Send) : Prop :=
  sends.IsChain fun s earlier =>
    ∃ f : Instant, earlier.finishedAt = some f ∧ f + minDelayMs ≤ s.startedAt

/-- The latest send has settled, the minimal delay before `t`. -/
def Clear (minDelayMs : Nat) (sends : List Send) (t : Instant) : Prop :=
  ∀ s ∈ sends.head?, ∃ f : Instant, s.finishedAt = some f ∧ f + minDelayMs ≤ t

theorem Clear.mono {m : Nat} {sends : List Send} {t u : Instant} (h : Clear m sends t)
    (htu : t ≤ u) : Clear m sends u := by
  intro s hs
  obtain ⟨f, hf, hle⟩ := h s hs
  exact ⟨f, hf, Int.le_trans hle htu⟩

/-- A send may start when the latest one is clear. -/
theorem Spaced.sendText {m : Nat} {sh : Shared} (h : Spaced m sh.sends)
    (hclear : Clear m sh.sends sh.now) (job : WhatsappQueueJob) :
    Spaced m (sh.sendText job).sends := by
  show Spaced m (⟨job, sh.now, none⟩ :: sh.sends)
  cases hsends : sh.sends with
  | nil => exact List.isChain_singleton _
  | cons s sends =>
      have hs : s ∈ sh.sends.head? := by simp [hsends]
      rw [hsends] at h
      exact List.IsChain.cons_cons (hclear s hs) h

/-- The spacing reads only when the newest send started. -/
theorem Spaced.finishHead {m : Nat} {sends : List Send} (h : Spaced m sends) (now : Instant) :
    Spaced m (finishHead now sends) := by
  cases sends with
  | nil => exact h
  | cons s sends =>
      cases sends with
      | nil => exact List.isChain_singleton _
      | cons s' sends =>
          obtain ⟨hs, hrest⟩ := List.isChain_cons_cons.1 h
          exact List.IsChain.cons_cons hs hrest

theorem clear_of_settled {m : Nat} {sends rest : List Send} {job : WhatsappQueueJob}
    {t f now : Instant} (hsends : sends = ⟨job, t, some f⟩ :: rest) (hle : f ≤ now) :
    Clear m sends (now + m) := by
  intro s hs
  simp only [hsends, List.head?_cons, Option.mem_some_iff] at hs
  subst hs
  exact ⟨f, rfl, Int.add_le_add_right hle _⟩

/-- What a send may count on: none before it, or the minimal delay since `lastSentAt`. -/
def Paused (minDelayMs : Nat) (sh : Shared) : Prop :=
  match sh.lastSentAt with
  | none => sh.sends = []
  | some l => Clear minDelayMs sh.sends (l + minDelayMs)

/-- What the sends made so far look like from where the worker stands. -/
def Rest (minDelayMs : Nat) (sh : Shared) : Pc → Prop
  | .idle => Paused minDelayMs sh
  | .sleeping _ until_ => Clear minDelayMs sh.sends until_
  | .sending job => ∃ t sends, sh.sends = ⟨job, t, none⟩ :: sends
  | .sent job => ∃ t f sends, sh.sends = ⟨job, t, some f⟩ :: sends ∧ f ≤ sh.now

structure Stage (sh : Shared) (pc : Pc) : Prop where
  up : sh.shuttingDown = false
  running : sh.isProcessing = false ↔ pc = .idle
  drained : pc = .idle → sh.queue = []
  order : sh.accepted = sh.sends.reverse.map Send.job ++ pc.held ++ sh.queue
  bounded : sh.queue.length ≤ cfg.maxQueueSize
  spaced : Spaced cfg.minDelayMs sh.sends
  rest : Rest cfg.minDelayMs sh pc

variable {cfg}

theorem Stage.isProcessing {sh : Shared} {pc : Pc} (h : Stage cfg sh pc) (hpc : pc ≠ .idle) :
    sh.isProcessing = true := by
  have hrunning := mt h.running.1 hpc
  simpa using hrunning

variable (cfg) in
/-- Between two jobs: the worker holds none, and what it sent is `lastSentAt` old. -/
structure Between (sh : Shared) : Prop where
  up : sh.shuttingDown = false
  running : sh.isProcessing = true
  order : sh.accepted = sh.sends.reverse.map Send.job ++ sh.queue
  bounded : sh.queue.length ≤ cfg.maxQueueSize
  spaced : Spaced cfg.minDelayMs sh.sends
  rest : Paused cfg.minDelayMs sh

/-- A send that starts when the spacing allows it. -/
theorem stage_sendText {sh : Shared} {job : WhatsappQueueJob} (hup : sh.shuttingDown = false)
    (hrunning : sh.isProcessing = true)
    (horder : sh.accepted = sh.sends.reverse.map Send.job ++ [job] ++ sh.queue)
    (hbounded : sh.queue.length ≤ cfg.maxQueueSize)
    (hspaced : Spaced cfg.minDelayMs sh.sends) (hclear : Clear cfg.minDelayMs sh.sends sh.now) :
    Stage cfg (sh.sendText job) (.sending job) := by
  refine ⟨hup, by simp [Shared.sendText, hrunning], by simp, ?_, hbounded,
    hspaced.sendText hclear job, ⟨_, _, rfl⟩⟩
  simp [Shared.sendText, Pc.held, horder]

theorem Between.leave {sh : Shared} (h : Between cfg sh) (hqueue : sh.queue = []) :
    Stage cfg sh.leave.1 sh.leave.2 := by
  refine ⟨h.up, by simp [Shared.leave], fun _ => hqueue, ?_, h.bounded, h.spaced, h.rest⟩
  simpa [Shared.leave, Pc.held] using h.order

theorem Between.processLoop {sh : Shared} (h : Between cfg sh) (draw : Nat) :
    Stage cfg (processLoop cfg draw sh).1 (processLoop cfg draw sh).2 := by
  rw [Queue.processLoop, if_neg (by simp [h.up])]
  cases hqueue : sh.queue with
  | nil => exact h.leave hqueue
  | cons job queue =>
      have horder : sh.accepted = sh.sends.reverse.map Send.job ++ [job] ++ queue := by
        simpa [hqueue] using h.order
      have hlen : queue.length ≤ cfg.maxQueueSize := by
        have hb := h.bounded
        rw [hqueue, List.length_cons] at hb
        omega
      have hrest := h.rest
      cases hlast : sh.lastSentAt with
      | none =>
          rw [Paused, hlast] at hrest
          have hclear : Clear cfg.minDelayMs sh.sends sh.now := by
            intro s hs
            simp [show sh.sends = [] from hrest] at hs
          show Stage cfg (Shared.sendText _ job) (.sending job)
          exact stage_sendText h.up h.running horder hlen h.spaced hclear
      | some l =>
          rw [Paused, hlast] at hrest
          have hrest : Clear cfg.minDelayMs sh.sends (l + cfg.minDelayMs) := hrest
          simp only
          split
          · exact ⟨h.up, by simp [h.running], by simp, horder, hlen, h.spaced,
              Clear.mono hrest (randomDelay_remaining cfg draw l sh.now)⟩
          · next hlate =>
            show Stage cfg (Shared.sendText _ job) (.sending job)
            exact stage_sendText h.up h.running horder hlen h.spaced
              (Clear.mono hrest (randomDelay_elapsed cfg draw hlate))

/-- A call from a client without a worker, against the client that has one, if any. -/
theorem Stage.enqueueText {sh : Shared} {pc : Pc} (h : Stage cfg sh pc)
    (phone text hex : String) (draw : Nat) :
    (pc ≠ .idle → (enqueueText cfg phone text hex draw sh).2.2 = .idle ∧
      Stage cfg (enqueueText cfg phone text hex draw sh).2.1 pc) ∧
    (pc = .idle → Stage cfg (enqueueText cfg phone text hex draw sh).2.1
      (enqueueText cfg phone text hex draw sh).2.2) := by
  rw [Queue.enqueueText]
  by_cases hconn : sh.connected = true
  · rw [if_neg (by simp [hconn])]
    by_cases hfull : cfg.maxQueueSize ≤ sh.queue.length
    · rw [if_pos hfull]
      exact ⟨fun _ => ⟨rfl, h⟩, fun hpc => hpc ▸ h⟩
    · rw [if_neg hfull]
      have hlen : (sh.queue ++ [newJob sh.now phone text hex]).length ≤ cfg.maxQueueSize := by
        rw [List.length_append, List.length_singleton]
        omega
      constructor
      · intro hpc
        have hrunning := h.isProcessing hpc
        simp only [startWorker, hrunning, if_true]
        refine ⟨trivial, ⟨h.up, ?_, fun hidle => absurd hidle hpc, ?_, hlen, h.spaced, ?_⟩⟩
        · simpa [hrunning] using hpc
        · simp [h.order]
        · simpa [Rest, Paused] using h.rest
      · intro hpc
        subst hpc
        have hrunning := h.running.2 rfl
        simp only [startWorker, hrunning, if_false, Bool.false_eq_true]
        have hbetween : Between cfg { sh with
            queue := sh.queue ++ [newJob sh.now phone text hex]
            accepted := sh.accepted ++ [newJob sh.now phone text hex]
            isProcessing := true } :=
          ⟨h.up, rfl, by simp [h.order, Pc.held], hlen, h.spaced, h.rest⟩
        exact hbetween.processLoop draw
  · rw [if_pos (by simp [hconn])]
    exact ⟨fun _ => ⟨rfl, h⟩, fun hpc => hpc ▸ h⟩

/-! ## Steps -/

/-- One client's worker may be running; the service's state fits where it stands. -/
def Inv (cfg : QueueConfig) (p : State) : Prop :=
  ∃ c, (∀ d, d ≠ c → p.client d = .idle) ∧ Stage cfg p.shared (p.client c)

theorem Stage.tick {sh : Shared} {pc : Pc} (h : Stage cfg sh pc) (n : Nat) :
    Stage cfg { sh with now := sh.now + n } pc := by
  refine ⟨h.up, h.running, h.drained, h.order, h.bounded, h.spaced, ?_⟩
  cases pc with
  | sent job =>
      obtain ⟨t, f, sends, hsends, hle⟩ := h.rest
      have hn : sh.now ≤ sh.now + n := Int.le_add_of_nonneg_right (Int.natCast_nonneg n)
      exact ⟨t, f, sends, hsends, Int.le_trans hle hn⟩
  | _ => exact h.rest

theorem Stage.connection {sh : Shared} {pc : Pc} (h : Stage cfg sh pc) (up : Bool) :
    Stage cfg { sh with connected := up } pc :=
  ⟨h.up, h.running, h.drained, h.order, h.bounded, h.spaced, by cases pc <;> exact h.rest⟩

theorem Stage.afterSleep {sh : Shared} {job : WhatsappQueueJob} {until_ : Instant}
    (h : Stage cfg sh (.sleeping job until_)) (hle : until_ ≤ sh.now) :
    Stage cfg (afterSleep job sh).1 (afterSleep job sh).2 := by
  have hrunning := h.isProcessing (by simp)
  rw [Queue.afterSleep, if_neg (by simp [h.up])]
  exact stage_sendText h.up hrunning h.order h.bounded h.spaced (Clear.mono h.rest hle)

theorem Stage.settle {sh : Shared} {job : WhatsappQueueJob} (h : Stage cfg sh (.sending job)) :
    Stage cfg { sh with sends := finishHead sh.now sh.sends } (.sent job) := by
  have hrunning := h.isProcessing (by simp)
  obtain ⟨t, sends, hsends⟩ := h.rest
  refine ⟨h.up, by simp [hrunning], by simp, ?_, h.bounded, h.spaced.finishHead sh.now, ?_⟩
  · simpa [hsends, finishHead, Pc.held] using h.order
  · exact ⟨t, sh.now, sends, by simp [hsends, finishHead], Int.le_refl _⟩

theorem Stage.resume {sh : Shared} {job : WhatsappQueueJob} (h : Stage cfg sh (.sent job))
    (draw : Nat) :
    Stage cfg (processLoop cfg draw { sh with lastSentAt := some sh.now }).1
      (processLoop cfg draw { sh with lastSentAt := some sh.now }).2 := by
  have hrunning := h.isProcessing (by simp)
  obtain ⟨t, f, sends, hsends, hle⟩ := h.rest
  have hclear : Clear cfg.minDelayMs sh.sends (sh.now + cfg.minDelayMs) :=
    clear_of_settled hsends hle
  have hbetween : Between cfg { sh with lastSentAt := some sh.now } :=
    ⟨h.up, hrunning, by simpa [Pc.held] using h.order, h.bounded, h.spaced, hclear⟩
  exact hbetween.processLoop draw

/-- A step of the client whose worker is running, or of any client when none is. -/
theorem Stage.move {c : Nat} {sh sh' : Shared} {pc pc' : Pc} (h : Stage cfg sh pc) {a : Action}
    (hup : a ≠ .onModuleDestroy) (hmove : move cfg c sh pc a = some (sh', pc')) :
    Stage cfg sh' pc' := by
  cases a with
  | tick n =>
      cases hmove
      exact h.tick n
  | connection up =>
      cases hmove
      exact h.connection up
  | onModuleDestroy => exact absurd rfl hup
  | enqueueText phone text hex draw =>
      cases pc with
      | idle =>
          obtain ⟨_, heq⟩ := Option.ite_none_right_eq_some.1 hmove
          have hstage := (h.enqueueText phone text hex draw).2 rfl
          rw [Option.some.inj heq] at hstage
          exact hstage
      | _ => cases hmove
  | wake =>
      cases pc with
      | sleeping job until_ =>
          obtain ⟨hle, heq⟩ := Option.ite_none_right_eq_some.1 hmove
          have hstage := h.afterSleep hle
          rw [Option.some.inj heq] at hstage
          exact hstage
      | _ => cases hmove
  | settle dispatched =>
      cases pc with
      | sending job =>
          cases hmove
          exact h.settle
      | _ => cases hmove
  | resume draw =>
      cases pc with
      | sent job =>
          obtain ⟨_, heq⟩ := Option.ite_none_right_eq_some.1 hmove
          have hstage := h.resume draw
          rw [Option.some.inj heq] at hstage
          exact hstage
      | _ => cases hmove

/-- A step of a client without a worker, while another's is running. -/
theorem Stage.move_other {d : Nat} {sh sh' : Shared} {pc pc' : Pc} (h : Stage cfg sh pc)
    (hpc : pc ≠ .idle) {a : Action} (hup : a ≠ .onModuleDestroy)
    (hmove : Queue.move cfg d sh .idle a = some (sh', pc')) : Stage cfg sh' pc ∧ pc' = .idle := by
  cases a with
  | tick n =>
      cases hmove
      exact ⟨h.tick n, rfl⟩
  | connection up =>
      cases hmove
      exact ⟨h.connection up, rfl⟩
  | onModuleDestroy => exact absurd rfl hup
  | enqueueText phone text hex draw =>
      obtain ⟨_, heq⟩ := Option.ite_none_right_eq_some.1 hmove
      obtain ⟨hidle, hstage⟩ := (h.enqueueText phone text hex draw).1 hpc
      rw [Option.some.inj heq] at hidle hstage
      exact ⟨hstage, hidle⟩
  | wake => cases hmove
  | settle dispatched => cases hmove
  | resume draw => cases hmove

theorem Inv.step {p p' : State} {a : Nat × Action} (h : Inv cfg p)
    (hup : a.2 ≠ .onModuleDestroy) (hstep : Pool.step (move cfg) p a = some p') : Inv cfg p' := by
  have halone : Pool.Alone .idle (Stage cfg) p := h
  exact halone.step (fun hstage hmove => hstage.move hup hmove)
    (fun hstage hpc hmove => hstage.move_other hpc hup hmove) hstep

theorem inv_init (t : Instant) : Inv cfg (init t) :=
  ⟨0, fun _ _ => rfl,
    ⟨rfl, by simp [init], fun _ => rfl, rfl, Nat.zero_le _, List.isChain_nil, rfl⟩⟩

/-- What the queue promises in every state. -/
structure Discipline (cfg : QueueConfig) (p : State) : Prop where
  /-- At most one `processLoop` runs. -/
  single : ∀ c d, p.client c ≠ .idle → p.client d ≠ .idle → c = d
  /-- The flag tells whether one does. -/
  isProcessing : p.shared.isProcessing = true ↔ ∃ c, p.client c ≠ .idle
  /-- What was accepted is what was sent, once each and in order, then the job the
  worker holds, then the queue. -/
  inOrder : ∀ c, p.client c ≠ .idle → p.shared.accepted =
    p.shared.sends.reverse.map Send.job ++ (p.client c).held ++ p.shared.queue
  sentAll : p.shared.isProcessing = false →
    p.shared.accepted = p.shared.sends.reverse.map Send.job
  spaced : Spaced cfg.minDelayMs p.shared.sends
  bounded : p.shared.queue.length ≤ cfg.maxQueueSize
  drained : p.shared.isProcessing = false → p.shared.queue = []

theorem Inv.discipline {p : State} (h : Inv cfg p) : Discipline cfg p := by
  obtain ⟨c, hidle, hstage⟩ := h
  have hcur : ∀ d, p.client d ≠ .idle → d = c := fun d hd =>
    Classical.byContradiction fun hne => hd (hidle d hne)
  refine ⟨fun d e hd he => (hcur d hd).trans (hcur e he).symm, ⟨fun hp => ⟨c, fun hc => ?_⟩, ?_⟩,
    fun d hd => ?_, fun hp => ?_, hstage.spaced, hstage.bounded, fun hp => ?_⟩
  · rw [hstage.running.2 hc] at hp
    cases hp
  · intro ⟨d, hd⟩
    exact hstage.isProcessing (hcur d hd ▸ hd)
  · rw [hcur d hd]
    exact hstage.order
  · have hc := hstage.running.1 hp
    simpa [hc, Pc.held, hstage.drained hc] using hstage.order
  · exact hstage.drained (hstage.running.1 hp)

/-- Without a shutdown, the queue keeps its discipline in every state of every run. -/
theorem discipline_of_run {as : List (Nat × Action)} {t : Instant} {p : State}
    (hup : ∀ a ∈ as, a.2 ≠ .onModuleDestroy)
    (hrun : run (Pool.step (move cfg)) (init t) as = some p) : Discipline cfg p :=
  (run_inv (C := fun _ a => a.2 ≠ .onModuleDestroy) (fun _ _ _ hs hC he => Inv.step hs hC he)
    (inv_init t) (along_of_forall_mem hup _) hrun).discipline

/-- Two messages a millisecond apart: the second waits out its delay. -/
def twoMessages : List (Nat × Action) :=
  [(0, .connection true), (0, .enqueueText "+9647700000001" "first" "00000000" 0), (1, .tick 1),
    (1, .enqueueText "+9647700000002" "second" "00000001" 0), (0, .settle true), (0, .resume 500),
    (1, .tick 3500), (0, .wake), (0, .settle false), (0, .resume 0)]

theorem discipline_of_twoMessages :
    (run (Pool.step (move {})) (init 0) twoMessages).isSome = true ∧
      ∀ p, run (Pool.step (move {})) (init 0) twoMessages = some p → Discipline {} p :=
  ⟨by decide, fun _ hrun => discipline_of_run (by decide) hrun⟩

end NestStarter.Whatsapp.Queue
