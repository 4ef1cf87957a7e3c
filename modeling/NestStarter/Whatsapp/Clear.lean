import NestStarter.Whatsapp.Auth

/-! # What `clear` leaves behind

`clear` empties the fields first and deletes the object last. Nothing stops an
upload that was requested before from landing after the delete, or a read that
was answered before from filling the fields again.
-/

namespace NestStarter.Whatsapp.Auth

open NestStarter.Core

structure NoSession (sh : Shared) : Prop where
  stored : sh.stored = none
  hydrated : sh.hydrated = true
  cached : sh.cached = none

theorem NoSession.load {sh : Shared} (h : NoSession sh) : load sh = (some none, .idle) := by
  rw [Auth.load, if_pos h.hydrated, h.cached]

theorem NoSession.exists_ {sh : Shared} (h : NoSession sh) :
    exists_ sh = (some false, .idle) := by
  rw [Auth.exists_, if_pos h.hydrated, h.cached]
  rfl

/-- What holds of the fields from the call of `clear` on, and of the object from its
delete on. -/
structure Wiped (sh : Shared) : Prop where
  fields : sh.wipe ≠ .none →
    sh.cached = none ∧ sh.hydrated = true ∧ sh.pending = none ∧ sh.flushTimer = false
  stored : sh.wipe = .done → sh.stored = none

/-- The steps that bring a session back: an upload that lands after the delete, and
a `load` that resumes with a session it read before. -/
def NoRevival (p : State) (a : Nat × Action) : Prop :=
  match a.2, p.client a.1 with
  | .apply, .uploading _ _ _ _ => p.shared.wipe ≠ .done
  | .resume, .read (.found _) => p.shared.wipe = .none
  | _, _ => True

instance (p : State) (a : Nat × Action) : Decidable (NoRevival p a) := by
  unfold NoRevival; split <;> infer_instance

theorem Wiped.uploadPending {sh : Shared} (h : Wiped sh) (n : Nat) :
    Wiped (uploadPending sh n).1 := by
  unfold Auth.uploadPending
  cases hpending : sh.pending with
  | none => exact ⟨h.fields, h.stored⟩
  | some payload =>
      refine ⟨fun hw => ?_, h.stored⟩
      obtain ⟨_, _, hp, _⟩ := h.fields hw
      rw [hpending] at hp
      cases hp

theorem Wiped.flush {sh : Shared} (h : Wiped sh) : Wiped (flush sh).1 := by
  have htimer : Wiped { sh with flushTimer := false } :=
    ⟨fun hw => ⟨(h.fields hw).1, (h.fields hw).2.1, (h.fields hw).2.2.1, rfl⟩, h.stored⟩
  cases hslot : sh.flushInFlight with
  | none =>
      rw [flush_of_none hslot]
      exact htimer.uploadPending _
  | some upload =>
      rw [flush_of_some hslot]
      exact htimer

theorem Wiped.delete {sh : Shared} (h : Wiped sh) : Wiped sh.delete := by
  refine ⟨fun hw => h.fields fun hnone => hw ?_, fun _ => rfl⟩
  simp [Shared.delete, hnone]

theorem Wiped.step {p p' : State} {a : Nat × Action} (h : Wiped p.shared) (hC : NoRevival p a)
    (hstep : Pool.step move p a = some p') : Wiped p'.shared := by
  obtain ⟨sh, pc, hmove, rfl⟩ := Pool.step_spec hstep
  have hmoves := moves_of_move hmove
  unfold NoRevival at hC
  generalize p.client a.1 = pc₀, a.2 = b at hmoves hC
  cases hmoves with
  | save serialized => exact ⟨fun hw => absurd rfl hw, fun hw => by cases hw⟩
  | flush => exact h.flush
  | fire _ => exact h.flush
  | clear => exact ⟨fun _ => ⟨rfl, rfl, rfl, rfl⟩, fun hw => by cases hw⟩
  | upload u payload seq n => exact ⟨h.fields, fun hw => absurd hw hC⟩
  | delete => exact h.delete
  | proceed u found n _ _ => exact h.uploadPending n
  | hydrate blob => exact ⟨fun hw => absurd hC hw, h.stored⟩
  | hydrateNull =>
      exact ⟨fun hw => ⟨rfl, rfl, (h.fields hw).2.2.1, (h.fields hw).2.2.2⟩, h.stored⟩
  | resolve n => exact ⟨h.fields, h.stored⟩
  | settle u ok seq n => exact ⟨h.fields, h.stored⟩
  | load | exists_ | readFound _ _ | readNotFound _ | check | uploadFails _ _ _ _
  | responseFails _ _ _ | readFails | deleteFails | checkFails | reject _ _ _ _ | rejectOwn _
  | loadThrows | cleared _ | checked _ => exact h

theorem Wiped.noSession {sh : Shared} (h : Wiped sh) (hdone : sh.wipe = .done) : NoSession sh := by
  obtain ⟨hcached, hhydrated, _, _⟩ := h.fields (by simp [hdone])
  exact ⟨h.stored hdone, hhydrated, hcached⟩

/-! ## From the call of `clear` to its return -/

/-- The latest `clear` has deleted the object, or is still to. -/
def Clearing (p : State) : Prop :=
  p.shared.wipe = .done ∨ p.shared.wipe = .begun ∧ ∃ c, p.client c = .deleting

theorem clear_spec {c : Nat} {p p' : State} (hstep : Pool.step move p (c, .clear) = some p') :
    Wiped p'.shared ∧ Clearing p' := by
  obtain ⟨sh, pc, hmove, rfl⟩ := Pool.step_spec hstep
  have hmoves := moves_of_move hmove
  generalize p.client c = pc₀ at hmoves
  cases hmoves with
  | clear =>
      refine ⟨⟨fun _ => ⟨rfl, rfl, rfl, rfl⟩, fun hw => by cases hw⟩, .inr ⟨rfl, c, ?_⟩⟩
      simp [clear]

def DeletesSucceed (p : State) (a : Nat × Action) : Prop :=
  ¬(a.2 = .fail ∧ p.client a.1 = .deleting)

instance (p : State) (a : Nat × Action) : Decidable (DeletesSucceed p a) := by
  unfold DeletesSucceed; infer_instance

theorem Moves.clearing {sh sh' : Shared} {pc pc' : Pc} {a : Action} (h : Moves sh pc a sh' pc')
    (hsave : ∀ s, a ≠ .save s) (hfail : ¬(a = .fail ∧ pc = .deleting)) :
    (sh.wipe = .done → sh'.wipe = .done ∨ sh'.wipe = .begun ∧ pc' = .deleting) ∧
    (sh.wipe = .begun → sh'.wipe = .done ∨
      sh'.wipe = .begun ∧ (pc = .deleting → pc' = .deleting)) := by
  cases h with
  | save serialized => exact absurd rfl (hsave serialized)
  | clear => exact ⟨fun _ => .inr ⟨rfl, rfl⟩, fun _ => .inr ⟨rfl, fun _ => rfl⟩⟩
  | delete => exact ⟨fun hw => .inl (by simp [Shared.delete, hw]),
      fun hw => .inl (by simp [Shared.delete, hw])⟩
  | deleteFails => exact absurd ⟨rfl, rfl⟩ hfail
  | flush => exact ⟨fun hw => .inl (by simpa using hw), fun hw => .inr (by simpa using hw)⟩
  | fire _ => exact ⟨fun hw => .inl (by simpa using hw), fun hw => .inr (by simpa using hw)⟩
  | proceed u found n _ _ =>
      exact ⟨fun hw => .inl (by simpa using hw), fun hw => .inr (by simpa using hw)⟩
  | _ => exact ⟨fun hw => .inl hw, fun hw => .inr ⟨hw, by simp⟩⟩

theorem Clearing.step {p p' : State} {a : Nat × Action} (h : Clearing p)
    (hsave : ∀ s, a.2 ≠ .save s) (hfail : DeletesSucceed p a)
    (hstep : Pool.step move p a = some p') : Clearing p' := by
  obtain ⟨sh, pc, hmove, rfl⟩ := Pool.step_spec hstep
  obtain ⟨hdone, hbegun⟩ := (moves_of_move hmove).clearing hsave hfail
  obtain hw | ⟨hw, c, hc⟩ := h
  · obtain hw' | ⟨hw', hpc⟩ := hdone hw
    · exact .inl hw'
    · exact .inr ⟨hw', a.1, by simp [hpc]⟩
  · obtain hw' | ⟨hw', hpc⟩ := hbegun hw
    · exact .inl hw'
    · refine .inr ⟨hw', c, ?_⟩
      by_cases hac : c = a.1
      · rw [hac] at hc
        simp [hac, hpc hc]
      · exact (Function.update_of_ne hac _ _).trans hc

/-- In a run from a call of `clear` on, without a later `save`, in which no upload lands
after the delete and no `load` resumes with a session it read before: once every call
has returned, no session is stored, `load` returns `null` and `exists` is `false`. -/
theorem noSession_of_clear {c : Nat} {p p' q : State} {as : List (Nat × Action)}
    (hclear : Pool.step move p (c, .clear) = some p')
    (hrun : run (Pool.step move) p' as = some q) (hsave : ∀ a ∈ as, ∀ s, a.2 ≠ .save s)
    (hfail : Along (Pool.step move) DeletesSucceed p' as) (hidle : ∀ d, q.client d = .idle)
    (hC : Along (Pool.step move) NoRevival p' as) :
    q.shared.stored = none ∧ load q.shared = (some none, .idle) ∧
      exists_ q.shared = (some false, .idle) := by
  obtain ⟨hwiped, hclearing⟩ := clear_spec hclear
  let Inv (p : State) : Prop := Wiped p.shared
  have hwiped : Inv q := run_inv (fun _ _ _ hs hC he => Wiped.step hs hC he) hwiped hC hrun
  have hclearing : Clearing q :=
    run_inv (C := fun p a => (∀ s, a.2 ≠ .save s) ∧ DeletesSucceed p a)
      (fun _ _ _ hs hC he => hs.step hC.1 hC.2 he) hclearing
      ((along_of_forall_mem hsave p').and hfail) hrun
  have hdone : q.shared.wipe = .done := by
    obtain hdone | ⟨_, d, hd⟩ := hclearing
    · exact hdone
    · rw [hidle d] at hd
      cases hd
  have hnone := hwiped.noSession hdone
  exact ⟨hnone.stored, hnone.load, hnone.exists_⟩

/-- A debounced upload has been requested, or a `load` has read a session. -/
def uploadRequested : List (Nat × Action) := [(0, .save "session"), (0, .fire)]

def sessionRead : List (Nat × Action) := [(0, .load), (0, .apply)]

def uploadLands : List (Nat × Action) :=
  [(1, .apply), (1, .resume), (0, .apply), (0, .settle), (0, .resume)]

def loadResumes : List (Nat × Action) := [(1, .apply), (1, .resume), (0, .resume)]

/-- `clear` has returned, and so has everything else, with a session in the storage; or
with one in the snapshot. -/
theorem session_after_clear :
    (∃ p p' q, run (Pool.step move) (init none) uploadRequested = some p ∧
      Pool.step move p (1, .clear) = some p' ∧
      run (Pool.step move) p' uploadLands = some q ∧ (∀ d, q.client d = .idle) ∧
      q.shared.stored = some "session") ∧
    ∃ p p' q, run (Pool.step move) (init (some "session")) sessionRead = some p ∧
      Pool.step move p (1, .clear) = some p' ∧
      run (Pool.step move) p' loadResumes = some q ∧ (∀ d, q.client d = .idle) ∧
      load q.shared = (some (some "session"), .idle) := by
  constructor
  · have hrun : run (Pool.step move) (init none)
        (uploadRequested ++ (1, .clear) :: uploadLands) = some _ := rfl
    refine ⟨_, _, _, rfl, rfl, rfl, ?_, rfl⟩
    exact Pool.forall_client hrun (· = .idle) 2 (fun _ => rfl) (by decide) (by decide)
  · have hrun : run (Pool.step move) (init (some "session"))
        (sessionRead ++ (1, .clear) :: loadResumes) = some _ := rfl
    refine ⟨_, _, _, rfl, rfl, rfl, ?_, rfl⟩
    exact Pool.forall_client hrun (· = .idle) 2 (fun _ => rfl) (by decide) (by decide)

def uploadLandsFirst : List (Nat × Action) :=
  [(0, .apply), (1, .apply), (0, .settle), (1, .resume), (0, .resume)]

theorem noSession_after_uploadLandsFirst :
    ∃ p p' q, run (Pool.step move) (init none) uploadRequested = some p ∧
      Pool.step move p (1, .clear) = some p' ∧
      run (Pool.step move) p' uploadLandsFirst = some q ∧ q.shared.stored = none ∧
      load q.shared = (some none, .idle) ∧ exists_ q.shared = (some false, .idle) := by
  have hrun : (run (Pool.step move) (init none) uploadRequested).any (fun p =>
      (Pool.step move p (1, .clear)).any fun p' =>
        decide (Along (Pool.step move) DeletesSucceed p' uploadLandsFirst ∧
          Along (Pool.step move) NoRevival p' uploadLandsFirst) &&
        (run (Pool.step move) p' uploadLandsFirst).any fun q =>
          decide (∀ d : Nat, d < 2 → q.client d = .idle)) = true := by
    decide
  simp only [Option.any_eq_true, Bool.and_eq_true, decide_eq_true_eq] at hrun
  obtain ⟨p, hp, p', hp', ⟨hfail, hC⟩, q, hq, hidle⟩ := hrun
  have hwhole : run (Pool.step move) (init none)
      (uploadRequested ++ (1, .clear) :: uploadLandsFirst) = some q := by
    rw [run_append_of_eq hp]
    exact run_cons_eq_some.2 ⟨p', hp', hq⟩
  have hreturned : ∀ d, q.client d = .idle :=
    Pool.forall_client hwhole (· = .idle) 2 (fun _ => rfl) (by decide) hidle
  have hsave : ∀ a ∈ uploadLandsFirst, ∀ s, a.2 ≠ .save s := by simp [uploadLandsFirst]
  exact ⟨p, p', q, hp, hp', hq, noSession_of_clear hp' hq hsave hfail hreturned hC⟩

end NestStarter.Whatsapp.Auth
