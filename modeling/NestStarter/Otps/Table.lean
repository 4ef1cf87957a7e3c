import Mathlib.Algebra.Order.BigOperators.Group.List
import Mathlib.Algebra.Order.Ring.Nat
import Mathlib.Data.List.Nodup
import NestStarter.Otps.Service

/-! # The `otps` table

What every statement keeps: rows stand in the order of their ids, which stay
below the sequence.
-/

namespace NestStarter.Otps

open OtpTable (Matches)

theorem argmax_id_eq_getLast? {rows : List OtpEntity}
    (h : rows.Pairwise fun r s => r.id < s.id) : rows.argmax OtpEntity.id = rows.getLast? := by
  induction rows using List.reverseRecOn with
  | nil => rfl
  | append_singleton rows r ih =>
      obtain ⟨hrows, _, hlt⟩ := List.pairwise_append.1 h
      rw [List.argmax_concat, ih hrows, List.getLast?_append]
      cases hl : rows.getLast? with
      | none => rfl
      | some s =>
          have hs : s ∈ rows := List.mem_of_getLast? hl
          simp [hlt s hs r (List.mem_singleton_self r)]

namespace OtpTable

/-- Ids grow along the table and stay below the sequence. -/
structure Ok (t : OtpTable) : Prop where
  sorted : t.rows.Pairwise fun r s => r.id < s.id
  bound : ∀ r ∈ t.rows, r.id < t.nextId

variable {t : OtpTable} {phone : String} {purpose : OtpPurpose}

theorem Ok.eq_of_id (h : t.Ok) {r s : OtpEntity} (hr : r ∈ t.rows) (hs : s ∈ t.rows)
    (hid : r.id = s.id) : r = s := by
  have hnodup : (t.rows.map OtpEntity.id).Nodup :=
    List.pairwise_map.2 (h.sorted.imp Nat.ne_of_lt)
  exact List.inj_on_of_nodup_map hnodup hr hs hid

/-- An update that keeps a row's identity. -/
def Keeps (f : OtpEntity → OtpEntity) : Prop :=
  ∀ r, (f r).id = r.id ∧ (f r).phone = r.phone ∧ (f r).purpose = r.purpose

theorem Ok.update (h : t.Ok) {p : OtpEntity → Prop} [DecidablePred p] {f : OtpEntity → OtpEntity}
    (hf : Keeps f) : (t.update p f).Ok := by
  have hid : ∀ r, (if p r then f r else r).id = r.id := by
    intro r
    split
    · exact (hf r).1
    · rfl
  refine ⟨?_, ?_⟩
  · simpa only [OtpTable.update, List.pairwise_map, hid] using h.sorted
  · intro r hr
    obtain ⟨r', hr', rfl⟩ := List.mem_map.1 hr
    rw [hid]
    exact h.bound r' hr'

theorem Ok.save (h : t.Ok) (n : NewOtp) (now : Instant) : (t.save n now).Ok where
  sorted := by
    refine List.pairwise_append.2 ⟨h.sorted, List.pairwise_singleton .., fun r hr s hs => ?_⟩
    rw [List.mem_singleton.1 hs]
    exact h.bound r hr
  bound := by
    intro r hr
    show r.id < t.nextId + 1
    rcases List.mem_append.1 hr with hr | hr
    · have hlt := h.bound r hr
      omega
    · rw [List.mem_singleton.1 hr]
      show t.nextId < t.nextId + 1
      omega

theorem Ok.deleteCreatedBefore (h : t.Ok) (cutoff : Instant) : (t.deleteCreatedBefore cutoff).Ok :=
  ⟨h.sorted.filter _, fun r hr => h.bound r (List.mem_filter.1 hr).1⟩

/-- The active row is an unconsumed, unexpired row of the table. -/
theorem findActive_mem {now : Instant} {otp : OtpEntity}
    (h : t.findActiveByPhoneAndPurpose phone purpose now = some otp) :
    otp ∈ t.rows ∧ Matches phone purpose otp ∧ otp.consumedAt = none ∧ now < otp.expiresAt := by
  have hmem := List.argmax_mem (Option.mem_def.2 h)
  obtain ⟨hrow, hp⟩ := List.mem_filter.1 hmem
  exact ⟨hrow, by simpa only [decide_eq_true_eq] using hp⟩

/-! ## Failed attempts in a window -/

theorem sumFailedAttemptsSince_cons (r : OtpEntity) (rows : List OtpEntity) (nextId : Nat)
    (phone : String) (purpose : OtpPurpose) (since : Instant) :
    sumFailedAttemptsSince ⟨r :: rows, nextId⟩ phone purpose since =
      (if Matches phone purpose r ∧ since ≤ r.createdAt then r.attempts else 0) +
        sumFailedAttemptsSince ⟨rows, nextId⟩ phone purpose since := by
  simp only [sumFailedAttemptsSince]
  by_cases h : Matches phone purpose r ∧ since ≤ r.createdAt <;> simp [h]

/-- Rows that stand for each other in a window sum, the second with at least as many attempts. -/
structure Counts (r r' : OtpEntity) : Prop where
  phone : r.phone = r'.phone
  purpose : r.purpose = r'.purpose
  createdAt : r.createdAt = r'.createdAt
  attempts : r.attempts ≤ r'.attempts

theorem sumFailedAttemptsSince_le_of_map (rows : List OtpEntity) {f g : OtpEntity → OtpEntity}
    (h : ∀ r ∈ rows, Counts (f r) (g r)) (n n' : Nat) (phone : String) (purpose : OtpPurpose)
    (since : Instant) :
    sumFailedAttemptsSince ⟨rows.map f, n⟩ phone purpose since ≤
      sumFailedAttemptsSince ⟨rows.map g, n'⟩ phone purpose since := by
  induction rows with
  | nil => exact Nat.le_refl 0
  | cons r rows ih =>
      have hrest := ih fun s hs => h s (List.mem_cons_of_mem r hs)
      obtain ⟨hphone, hpurpose, hcreated, hattempts⟩ := h r (List.mem_cons_self ..)
      rw [List.map_cons, List.map_cons, sumFailedAttemptsSince_cons, sumFailedAttemptsSince_cons]
      simp only [Matches, hphone, hpurpose, hcreated]
      refine Nat.add_le_add ?_ hrest
      split
      · exact hattempts
      · exact Nat.le_refl 0

theorem sumFailedAttemptsSince_deleteCreatedBefore_le (t : OtpTable) (cutoff : Instant)
    (phone : String) (purpose : OtpPurpose) (since : Instant) :
    (t.deleteCreatedBefore cutoff).sumFailedAttemptsSince phone purpose since ≤
      t.sumFailedAttemptsSince phone purpose since :=
  ((List.filter_sublist.filter _).map _).sum_le_sum fun _ _ => Nat.zero_le _

theorem sumFailedAttemptsSince_anti (t : OtpTable) (phone : String) (purpose : OtpPurpose)
    {since since' : Instant} (h : since ≤ since') :
    t.sumFailedAttemptsSince phone purpose since' ≤
      t.sumFailedAttemptsSince phone purpose since := by
  have hsub : (t.rows.filter fun r => Matches phone purpose r ∧ since' ≤ r.createdAt).Sublist
      (t.rows.filter fun r => Matches phone purpose r ∧ since ≤ r.createdAt) := by
    refine List.monotone_filter_right t.rows fun r hr => ?_
    simp only [decide_eq_true_eq] at hr ⊢
    exact ⟨hr.1, Int.le_trans h hr.2⟩
  exact (hsub.map _).sum_le_sum fun _ _ => Nat.zero_le _

theorem sumFailedAttemptsSince_save (t : OtpTable) {n : NewOtp} (hn : n.attempts = 0)
    (now : Instant) (phone : String) (purpose : OtpPurpose) (since : Instant) :
    (t.save n now).sumFailedAttemptsSince phone purpose since =
      t.sumFailedAttemptsSince phone purpose since := by
  have hrow := sumFailedAttemptsSince_cons (n.row t.nextId now) [] t.nextId phone purpose since
  simp only [NewOtp.row, hn, ite_self, Nat.zero_add] at hrow
  simp only [sumFailedAttemptsSince, save, List.filter_append, List.map_append,
    List.sum_append] at hrow ⊢
  simpa [NewOtp.row, hn] using hrow

/-- An increment shows up once for each row of the window that has the id. -/
theorem sumFailedAttemptsSince_incrementAttempts (rows : List OtpEntity) (nextId id : Nat)
    (phone : String) (purpose : OtpPurpose) (since : Instant) :
    (incrementAttempts ⟨rows, nextId⟩ id).sumFailedAttemptsSince phone purpose since =
      sumFailedAttemptsSince ⟨rows, nextId⟩ phone purpose since +
        rows.countP fun r => r.id = id ∧ Matches phone purpose r ∧ since ≤ r.createdAt := by
  simp only [incrementAttempts, update] at *
  induction rows with
  | nil => rfl
  | cons r rows ih =>
      rw [List.map_cons, sumFailedAttemptsSince_cons, sumFailedAttemptsSince_cons, ih,
        List.countP_cons]
      simp only [Matches, decide_eq_true_eq]
      split <;> split <;> simp_all <;> omega

theorem Ok.countP_id_le_one (h : t.Ok) (id : Nat) : t.rows.countP (fun r => r.id = id) ≤ 1 := by
  have hnodup : (t.rows.map OtpEntity.id).Nodup :=
    List.pairwise_map.2 (h.sorted.imp Nat.ne_of_lt)
  have hcount := List.nodup_iff_count_le_one.1 hnodup id
  rw [List.count, List.countP_map] at hcount
  exact hcount

end OtpTable

end NestStarter.Otps
