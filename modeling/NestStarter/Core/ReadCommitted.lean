import Mathlib.Data.List.Nodup
import Mathlib.Logic.Function.Basic

/-! # READ COMMITTED tables

One table under PostgreSQL's default isolation level, as far as single-table
transactions need it: a transaction runs any number of `INSERT`s and then at
most one `UPDATE` or `DELETE`.

A statement takes its candidates from the rows committed when it starts, plus
the rows its own transaction inserted. It then visits the candidates one by one.
A candidate that another open transaction has written makes it wait; otherwise
the `WHERE` clause is checked again on the latest committed version, and the row
is locked with its new version pending. Rows committed after the start are never
visited. Pending versions become visible together, when the transaction commits.

A row that a transaction has inserted or locked is owned by that transaction
until it ends. Ownership is what the proofs run on: nobody else changes the
committed version of an owned row.
-/

namespace NestStarter.Core

/-- A row type with its primary key. -/
class Keyed (ρ : Type) where
  key : ρ → Nat

export Keyed (key)

/-- An `UPDATE` or `DELETE`: its `WHERE` clause and the new version of a selected
row, `none` for a deletion. No statement changes a primary key. -/
structure Stmt (ρ : Type) [Keyed ρ] where
  selects : ρ → Bool
  write : ρ → Option ρ
  key_write : ∀ r r', write r = some r' → key r' = key r

/-- The uncommitted work of one transaction: the rows it inserted, and the
pending version of each row it has locked. -/
structure Txn (ρ : Type) where
  inserted : List ρ := []
  writes : List (Nat × Option ρ) := []

/-- The committed rows, the primary-key sequence, and the open transaction (named
by its client) that owns each key. -/
structure Db (ρ : Type) where
  rows : List ρ := []
  nextId : Nat := 1
  owner : Nat → Option Nat := fun _ => none

variable {ρ : Type} [Keyed ρ]

/-- The whole statement at once, with nobody else at work. -/
def Stmt.apply (q : Stmt ρ) (rows : List ρ) : List ρ :=
  rows.filterMap fun r => if q.selects r then q.write r else some r

def Stmt.affected (q : Stmt ρ) (rows : List ρ) : Nat := rows.countP q.selects

/-- The statement on the rows whose keys are listed, as a transaction that locked
exactly these rows commits it. -/
def Stmt.applyTo (q : Stmt ρ) (keys : List Nat) (rows : List ρ) : List ρ :=
  rows.filterMap fun r => if key r ∈ keys then q.write r else some r

theorem Stmt.mem_applyTo {q : Stmt ρ} {keys : List Nat} {rows : List ρ} {r' : ρ} :
    r' ∈ q.applyTo keys rows ↔
      (r' ∈ rows ∧ key r' ∉ keys) ∨ ∃ r ∈ rows, key r ∈ keys ∧ q.write r = some r' := by
  simp only [Stmt.applyTo, List.mem_filterMap]
  constructor
  · rintro ⟨r, hr, h⟩
    split at h
    · exact Or.inr ⟨r, hr, ‹_›, h⟩
    · cases h
      exact Or.inl ⟨hr, ‹_›⟩
  · rintro (⟨hr, hk⟩ | ⟨r, hr, hk, h⟩)
    · exact ⟨r', hr, if_neg hk⟩
    · exact ⟨r, hr, by rw [if_pos hk, h]⟩

theorem Stmt.key_mem_of_mem_applyTo {q : Stmt ρ} {keys : List Nat} {rows : List ρ} {r' : ρ}
    (h : r' ∈ q.applyTo keys rows) : ∃ r ∈ rows, key r' = key r := by
  rcases Stmt.mem_applyTo.1 h with ⟨hr, _⟩ | ⟨r, hr, _, hw⟩
  · exact ⟨r', hr, rfl⟩
  · exact ⟨r, hr, q.key_write r r' hw⟩

theorem Stmt.map_key_applyTo_sublist (q : Stmt ρ) (keys : List Nat) (rows : List ρ) :
    ((q.applyTo keys rows).map key).Sublist (rows.map key) := by
  induction rows with
  | nil => simp [Stmt.applyTo]
  | cons r rows ih =>
      simp only [Stmt.applyTo, List.filterMap_cons] at ih ⊢
      split
      · exact ih.trans (List.sublist_cons_self ..)
      · rename_i r' h
        have hkey : key r' = key r := by
          split at h
          · exact q.key_write r r' h
          · cases h
            rfl
        simpa [hkey] using ih

/-- Locking exactly the selected rows is the whole statement. -/
theorem Stmt.applyTo_eq_apply {q : Stmt ρ} {keys : List Nat} {rows : List ρ}
    (h : ∀ r ∈ rows, key r ∈ keys ↔ q.selects r = true) : q.applyTo keys rows = q.apply rows := by
  unfold Stmt.applyTo Stmt.apply
  refine List.filterMap_congr fun r hr => ?_
  by_cases hs : q.selects r = true
  · rw [if_pos ((h r hr).2 hs), if_pos hs]
  · rw [if_neg (fun hk => hs ((h r hr).1 hk)), if_neg hs]

theorem Stmt.apply_eq_map {q : Stmt ρ} {f : ρ → ρ} (hq : ∀ r, q.write r = some (f r))
    (rows : List ρ) : q.apply rows = rows.map fun r => if q.selects r then f r else r := by
  rw [← List.filterMap_eq_map]
  refine List.filterMap_congr fun r _ => ?_
  simp only [Function.comp_apply, hq]
  split <;> rfl

theorem Stmt.apply_of_affected_eq_zero {q : Stmt ρ} {rows : List ρ} (h : q.affected rows = 0) :
    q.apply rows = rows := by
  have hnone := List.countP_eq_zero.1 h
  rw [Stmt.apply, List.filterMap_congr (g := some), List.filterMap_some]
  intro r hr
  rw [if_neg (hnone r hr)]

theorem Stmt.apply_of_affected_eq_one {q : Stmt ρ} {before after : List ρ} {r r' : ρ}
    (hone : q.affected (before ++ r :: after) = 1) (hs : q.selects r = true)
    (hw : q.write r = some r') : q.apply (before ++ r :: after) = before ++ r' :: after := by
  have hcount : q.affected before + (q.affected after + 1) = 1 := by
    simpa [Stmt.affected, List.countP_append, List.countP_cons, hs] using hone
  have hbefore : q.apply before = before := Stmt.apply_of_affected_eq_zero (by omega)
  have hafter : q.apply after = after := Stmt.apply_of_affected_eq_zero (by omega)
  have hsplit : q.apply (before ++ r :: after) = q.apply before ++ r' :: q.apply after := by
    simp [Stmt.apply, List.filterMap_append, hs, hw]
  rw [hsplit, hbefore, hafter]

/-- `INSERT`: the sequence hands out the key, and the row stays invisible to the
others until the transaction ends. -/
def Db.insert (db : Db ρ) (c : Nat) (t : Txn ρ) (mk : Nat → ρ) : Db ρ × Txn ρ :=
  (⟨db.rows, db.nextId + 1, Function.update db.owner db.nextId (some c)⟩,
    { t with inserted := t.inserted ++ [mk db.nextId] })

/-- An `INSERT` in a transaction of its own. -/
def Db.append (db : Db ρ) (mk : Nat → ρ) : Db ρ :=
  { db with rows := db.rows ++ [mk db.nextId], nextId := db.nextId + 1 }

/-- The keys a statement will visit, fixed when it starts. -/
def Db.candidates (db : Db ρ) (t : Txn ρ) (q : Stmt ρ) : List Nat :=
  ((db.rows ++ t.inserted).filter q.selects).map key

/-- Visit one candidate: `none` while another transaction owns it, otherwise check
the clause again on the version that is committed now. -/
def Db.visit (db : Db ρ) (c : Nat) (t : Txn ρ) (q : Stmt ρ) (k : Nat) : Option (Db ρ × Txn ρ) :=
  if db.owner k = none ∨ db.owner k = some c then
    match (db.rows ++ t.inserted).find? fun r => key r == k && q.selects r with
    | none => some (db, t)
    | some r =>
        some ({ db with owner := Function.update db.owner k (some c) },
          { t with writes := (k, q.write r) :: t.writes })
  else none

def Db.release (db : Db ρ) (c : Nat) : Nat → Option Nat :=
  fun k => if db.owner k = some c then none else db.owner k

/-- What the pending versions leave of a row. -/
def overlay (writes : List (Nat × Option ρ)) (r : ρ) : Option ρ :=
  (writes.lookup (key r)).getD (some r)

def Db.commit (db : Db ρ) (c : Nat) (t : Txn ρ) : Db ρ :=
  { db with
    rows := (db.rows ++ t.inserted).filterMap (overlay t.writes)
    owner := db.release c }

def Db.rollback (db : Db ρ) (c : Nat) : Db ρ := { db with owner := db.release c }

/-- Keys are unique and below the sequence, and only keys handed out are owned. -/
structure DbOk (db : Db ρ) : Prop where
  nodup : (db.rows.map key).Nodup
  bound : ∀ r ∈ db.rows, key r < db.nextId
  owned : ∀ k c, db.owner k = some c → k < db.nextId

/-- Client `c`'s transaction against the table: it owns exactly the keys it
inserted or locked, each pending version was computed from the version that is
still committed, and its own inserts are new keys its statement does not select. -/
structure TxnOk (c : Nat) (db : Db ρ) (t : Txn ρ) (q : Stmt ρ) : Prop where
  owner : ∀ k, db.owner k = some c ↔ k ∈ t.writes.map Prod.fst ∨ k ∈ t.inserted.map key
  write : ∀ k v, (k, v) ∈ t.writes → ∃ r ∈ db.rows, key r = k ∧ q.selects r = true ∧ v = q.write r
  inserted : ∀ r ∈ t.inserted, q.selects r = false ∧ key r ∉ db.rows.map key
  nodup : (t.inserted.map key).Nodup

theorem DbOk.eq_of_key {db : Db ρ} (h : DbOk db) {r r' : ρ} (hr : r ∈ db.rows)
    (hr' : r' ∈ db.rows) (hk : key r = key r') : r = r' :=
  List.inj_on_of_nodup_map h.nodup hr hr' hk

theorem TxnOk.empty_iff {c : Nat} {db : Db ρ} {q : Stmt ρ} :
    TxnOk c db {} q ↔ ∀ k, db.owner k ≠ some c := by
  constructor
  · intro h k hk
    simpa using (h.owner k).1 hk
  · intro h
    exact ⟨fun k => by simp [h k], by simp, by simp, by simp⟩

theorem TxnOk.ne_of_owned {c d : Nat} {db : Db ρ} {t u : Txn ρ} {q p : Stmt ρ}
    (ht : TxnOk c db t q) (hu : TxnOk d db u p) (hd : d ≠ c) {k : Nat}
    (hk : k ∈ t.writes.map Prod.fst ∨ k ∈ t.inserted.map key) :
    ¬ (k ∈ u.writes.map Prod.fst ∨ k ∈ u.inserted.map key) := by
  intro hk'
  have hc := (ht.owner k).2 hk
  rw [(hu.owner k).2 hk'] at hc
  exact hd (Option.some.inj hc)

/-! ## Inserting -/

theorem DbOk.append {db : Db ρ} (h : DbOk db) {mk : Nat → ρ} (hmk : ∀ n, key (mk n) = n) :
    DbOk (db.append mk) where
  nodup := by
    have hfresh : db.nextId ∉ db.rows.map key := by
      intro hk
      obtain ⟨r, hr, hrk⟩ := List.mem_map.1 hk
      have := h.bound r hr
      omega
    simpa [Db.append, List.nodup_append, hmk] using ⟨h.nodup, fun r hr hrk =>
      hfresh (List.mem_map.2 ⟨r, hr, hrk⟩)⟩
  bound := by
    intro r hr
    show key r < db.nextId + 1
    rcases List.mem_append.1 hr with hr | hr
    · have hlt := h.bound r hr
      omega
    · rw [List.mem_singleton.1 hr, hmk]
      omega
  owned := by
    intro k c hk
    have hlt := h.owned k c hk
    show k < db.nextId + 1
    omega

theorem TxnOk.append {c : Nat} {db : Db ρ} {t : Txn ρ} {q : Stmt ρ} (hdb : DbOk db)
    (h : TxnOk c db t q) {mk : Nat → ρ} (hmk : ∀ n, key (mk n) = n) :
    TxnOk c (db.append mk) t q where
  owner := h.owner
  write := fun k v hv => by
    obtain ⟨r, hr, hrest⟩ := h.write k v hv
    exact ⟨r, List.mem_append_left _ hr, hrest⟩
  inserted := fun r hr => by
    obtain ⟨hs, hk⟩ := h.inserted r hr
    refine ⟨hs, ?_⟩
    have hlt := hdb.owned (key r) c ((h.owner (key r)).2 (Or.inr (List.mem_map.2 ⟨r, hr, rfl⟩)))
    simp only [Db.append, List.map_append, List.map_cons, List.map_nil, List.mem_append,
      List.mem_singleton, hmk, not_or]
    exact ⟨hk, by omega⟩
  nodup := h.nodup

theorem DbOk.insert {db : Db ρ} (h : DbOk db) (c : Nat) (t : Txn ρ) (mk : Nat → ρ) :
    DbOk (db.insert c t mk).1 where
  nodup := h.nodup
  bound := by
    intro r hr
    have hlt := h.bound r hr
    show key r < db.nextId + 1
    omega
  owned := by
    intro k d hk
    show k < db.nextId + 1
    by_cases hkn : k = db.nextId
    · omega
    · have hlt := h.owned k d (by simpa [Db.insert, hkn] using hk)
      omega

/-- The inserting transaction, before it has run a statement. -/
theorem TxnOk.insert {c : Nat} {db : Db ρ} {q p : Stmt ρ} (hdb : DbOk db)
    (h : TxnOk c db {} q) {mk : Nat → ρ} (hmk : ∀ n, key (mk n) = n)
    (hp : p.selects (mk db.nextId) = false) :
    TxnOk c (db.insert c {} mk).1 (db.insert c {} mk).2 p where
  owner := fun k => by
    by_cases hk : k = db.nextId
    · simp [Db.insert, hk, hmk]
    · simp [Db.insert, hk, hmk, TxnOk.empty_iff.1 h k]
  write := by simp [Db.insert]
  inserted := fun r hr => by
    have hr' : r = mk db.nextId := by simpa [Db.insert] using hr
    subst hr'
    refine ⟨hp, fun hk => ?_⟩
    obtain ⟨r', hr', hkey⟩ := List.mem_map.1 hk
    have := hdb.bound r' hr'
    rw [hmk] at hkey
    omega
  nodup := by simp [Db.insert]

theorem TxnOk.other_insert {c d : Nat} {db : Db ρ} {u : Txn ρ} {p : Stmt ρ} (hdb : DbOk db)
    (hd : d ≠ c) (h : TxnOk d db u p) (t : Txn ρ) (mk : Nat → ρ) :
    TxnOk d (db.insert c t mk).1 u p where
  owner := fun k => by
    by_cases hk : k = db.nextId
    · subst hk
      have hfree : db.owner db.nextId ≠ some d := fun ho => by
        have := hdb.owned _ _ ho
        omega
      simpa [Db.insert, hd.symm, hfree] using (h.owner db.nextId).not.1 hfree
    · simpa [Db.insert, hk] using h.owner k
  write := h.write
  inserted := h.inserted
  nodup := h.nodup

/-! ## Visiting a candidate -/

theorem Db.visit_spec {db db' : Db ρ} {c : Nat} {t t' : Txn ρ} {q : Stmt ρ} {k : Nat}
    (h : db.visit c t q k = some (db', t')) :
    (db.owner k = none ∨ db.owner k = some c) ∧
      ((db' = db ∧ t' = t ∧ ∀ r ∈ db.rows, key r = k → q.selects r = false) ∨
        ∃ r, (r ∈ db.rows ∨ r ∈ t.inserted) ∧ key r = k ∧ q.selects r = true ∧
          db' = { db with owner := Function.update db.owner k (some c) } ∧
          t' = { t with writes := (k, q.write r) :: t.writes }) := by
  unfold Db.visit at h
  split at h
  · rename_i hfree
    refine ⟨hfree, ?_⟩
    cases hf : (db.rows ++ t.inserted).find? fun r => key r == k && q.selects r with
    | none =>
        simp only [hf, Option.some.injEq, Prod.mk.injEq] at h
        refine Or.inl ⟨h.1.symm, h.2.symm, fun r hr hrk => ?_⟩
        have := List.find?_eq_none.1 hf r (List.mem_append_left _ hr)
        simpa [hrk] using this
    | some r =>
        simp only [hf, Option.some.injEq, Prod.mk.injEq] at h
        have hp := List.find?_some hf
        simp only [Bool.and_eq_true, beq_iff_eq] at hp
        exact Or.inr ⟨r, List.mem_append.1 (List.mem_of_find?_eq_some hf), hp.1, hp.2,
          h.1.symm, h.2.symm⟩
  · cases h

theorem Db.visit_rows {db db' : Db ρ} {c : Nat} {t t' : Txn ρ} {q : Stmt ρ} {k : Nat}
    (h : db.visit c t q k = some (db', t')) : db'.rows = db.rows ∧ db'.nextId = db.nextId := by
  obtain ⟨_, ⟨rfl, _, _⟩ | ⟨_, _, _, _, rfl, _⟩⟩ := Db.visit_spec h <;> exact ⟨rfl, rfl⟩

/-- A committed row that the statement selects is a candidate. -/
theorem Db.mem_candidates {db : Db ρ} (t : Txn ρ) {q : Stmt ρ} {r : ρ} (hr : r ∈ db.rows)
    (hs : q.selects r = true) : key r ∈ db.candidates t q :=
  List.mem_map.2 ⟨r, List.mem_filter.2 ⟨List.mem_append_left _ hr, hs⟩, rfl⟩

/-- As long as it is selected, it leaves the candidates only when it is locked. -/
theorem Db.visit_pending {db db' : Db ρ} {c : Nat} {t t' : Txn ρ} {q : Stmt ρ} {k : Nat}
    (h : db.visit c t q k = some (db', t')) {r : ρ} (hr : r ∈ db.rows) (hs : q.selects r = true)
    {todo : List Nat} (hpending : key r ∈ todo ∨ key r ∈ t.writes.map Prod.fst) :
    key r ∈ todo.erase k ∨ key r ∈ t'.writes.map Prod.fst := by
  by_cases hk : key r = k
  · obtain ⟨_, ⟨rfl, rfl, hno⟩ | ⟨_, _, _, _, rfl, rfl⟩⟩ := Db.visit_spec h
    · rw [hno r hr hk] at hs
      cases hs
    · exact Or.inr (by simp [hk])
  · rcases hpending with htodo | hwrites
    · exact Or.inl ((List.mem_erase_of_ne hk).2 htodo)
    · obtain ⟨_, ⟨rfl, rfl, _⟩ | ⟨_, _, _, _, rfl, rfl⟩⟩ := Db.visit_spec h
      · exact Or.inr hwrites
      · exact Or.inr (List.mem_cons_of_mem _ hwrites)

theorem DbOk.visit {db db' : Db ρ} {c : Nat} {t t' : Txn ρ} {q : Stmt ρ} {k : Nat}
    (hdb : DbOk db) (ht : TxnOk c db t q) (h : db.visit c t q k = some (db', t')) : DbOk db' := by
  obtain ⟨_, ⟨rfl, _, _⟩ | ⟨r, hr, hrk, _, rfl, _⟩⟩ := Db.visit_spec h
  · exact hdb
  · have hk : k < db.nextId := by
      rcases hr with hr | hr
      · exact hrk ▸ hdb.bound r hr
      · exact hrk ▸ hdb.owned (key r) c ((ht.owner _).2 (Or.inr (List.mem_map.2 ⟨r, hr, rfl⟩)))
    refine ⟨hdb.nodup, hdb.bound, fun k' d hk' => ?_⟩
    by_cases hkk : k' = k
    · exact hkk ▸ hk
    · exact hdb.owned k' d (by simpa [Function.update_of_ne hkk] using hk')

theorem TxnOk.visit {c : Nat} {db db' : Db ρ} {t t' : Txn ρ} {q : Stmt ρ} {k : Nat}
    (ht : TxnOk c db t q) (h : db.visit c t q k = some (db', t')) : TxnOk c db' t' q := by
  obtain ⟨_, ⟨rfl, rfl, _⟩ | ⟨r, hr, hrk, hs, rfl, rfl⟩⟩ := Db.visit_spec h
  · exact ht
  · have hrow : r ∈ db.rows := by
      rcases hr with hr | hr
      · exact hr
      · rw [(ht.inserted r hr).1] at hs
        cases hs
    refine ⟨fun k' => ?_, fun k' v hv => ?_, ht.inserted, ht.nodup⟩
    · by_cases hk : k' = k
      · simp [hk]
      · simpa [hk] using ht.owner k'
    · rcases List.mem_cons.1 hv with he | hv
      · cases he
        exact ⟨r, hrow, hrk, hs, rfl⟩
      · exact ht.write k' v hv

theorem TxnOk.other_visit {c d : Nat} {db db' : Db ρ} {t t' u : Txn ρ} {q p : Stmt ρ} {k : Nat}
    (hd : d ≠ c) (hu : TxnOk d db u p) (h : db.visit c t q k = some (db', t')) :
    TxnOk d db' u p := by
  obtain ⟨hfree, ⟨rfl, _, _⟩ | ⟨r, _, _, _, rfl, _⟩⟩ := Db.visit_spec h
  · exact hu
  · refine ⟨fun k' => ?_, hu.write, hu.inserted, hu.nodup⟩
    by_cases hk : k' = k
    · subst hk
      have hno : db.owner k' ≠ some d := by
        rcases hfree with h | h <;> simp [h, hd.symm]
      simpa [hd.symm] using (hu.owner k').not.1 hno
    · simpa [hk] using hu.owner k'

/-! ## Ending a transaction -/

omit [Keyed ρ] in
theorem Db.release_ne (db : Db ρ) (c k : Nat) : db.release c k ≠ some c := by
  unfold Db.release
  split <;> simp_all

omit [Keyed ρ] in
theorem Db.release_of_ne {db : Db ρ} {c d k : Nat} (hd : d ≠ c) :
    db.release c k = some d ↔ db.owner k = some d := by
  unfold Db.release
  split
  · rename_i h
    simp [h, hd.symm]
  · rfl

theorem overlay_of_notMem {writes : List (Nat × Option ρ)} {r : ρ}
    (h : key r ∉ writes.map Prod.fst) : overlay writes r = some r := by
  have hnone : writes.lookup (key r) = none := by
    rw [List.lookup_eq_none_iff]
    intro p hp
    have : key r ≠ p.1 := fun he => h (List.mem_map.2 ⟨p, hp, he.symm⟩)
    simpa using this
  simp [overlay, hnone]

theorem overlay_of_mem {writes : List (Nat × Option ρ)} {r : ρ} {v : Option ρ}
    (hmem : key r ∈ writes.map Prod.fst) (hv : ∀ w, (key r, w) ∈ writes → w = v) :
    overlay writes r = v := by
  cases hl : writes.lookup (key r) with
  | none =>
      obtain ⟨p, hp, hpk⟩ := List.mem_map.1 hmem
      have := List.lookup_eq_none_iff.1 hl p hp
      simp [hpk] at this
  | some w =>
      obtain ⟨l₁, l₂, hsplit, _⟩ := List.lookup_eq_some_iff.1 hl
      have hw : w = v := hv w (by simp [hsplit])
      simp [overlay, hl, hw]

theorem Db.commit_rows {c : Nat} {db : Db ρ} {t : Txn ρ} {q : Stmt ρ} (hdb : DbOk db)
    (ht : TxnOk c db t q) :
    (db.commit c t).rows = q.applyTo (t.writes.map Prod.fst) db.rows ++ t.inserted := by
  have hrows : db.rows.filterMap (overlay t.writes) =
      q.applyTo (t.writes.map Prod.fst) db.rows := by
    refine List.filterMap_congr fun r hr => ?_
    by_cases hk : key r ∈ t.writes.map Prod.fst
    · rw [if_pos hk]
      refine overlay_of_mem hk fun w hw => ?_
      obtain ⟨r', hr', hkey, _, rfl⟩ := ht.write _ _ hw
      rw [hdb.eq_of_key hr' hr hkey]
    · rw [if_neg hk, overlay_of_notMem hk]
  have hins : t.inserted.filterMap (overlay t.writes) = t.inserted := by
    rw [List.filterMap_congr (g := some), List.filterMap_some]
    intro r hr
    refine overlay_of_notMem fun hk => ?_
    obtain ⟨p, hp, hpk⟩ := List.mem_map.1 hk
    obtain ⟨r', hr', hkey, _, _⟩ := ht.write p.1 p.2 hp
    exact (ht.inserted r hr).2 (List.mem_map.2 ⟨r', hr', hkey.trans hpk⟩)
  simp only [Db.commit, List.filterMap_append, hrows, hins]

/-- What becomes of a committed row when a transaction commits. -/
theorem TxnOk.mem_commit_of_mem {c : Nat} {db : Db ρ} {t : Txn ρ} {q : Stmt ρ} (hdb : DbOk db)
    (ht : TxnOk c db t q) {r : ρ} (hr : r ∈ db.rows) :
    r ∈ (db.commit c t).rows ∨
      (q.selects r = true ∧ ∀ r', q.write r = some r' → r' ∈ (db.commit c t).rows) := by
  rw [Db.commit_rows hdb ht]
  by_cases hk : key r ∈ t.writes.map Prod.fst
  · obtain ⟨p, hp, hpk⟩ := List.mem_map.1 hk
    obtain ⟨r₀, hr₀, hkey, hsel, _⟩ := ht.write p.1 p.2 hp
    have he : r₀ = r := hdb.eq_of_key hr₀ hr (hkey.trans hpk)
    subst he
    exact Or.inr ⟨hsel, fun r' hw =>
      List.mem_append_left _ (Stmt.mem_applyTo.2 (Or.inr ⟨r₀, hr, hk, hw⟩))⟩
  · exact Or.inl (List.mem_append_left _ (Stmt.mem_applyTo.2 (Or.inl ⟨hr, hk⟩)))

theorem TxnOk.of_mem_commit {c : Nat} {db : Db ρ} {t : Txn ρ} {q : Stmt ρ} (hdb : DbOk db)
    (ht : TxnOk c db t q) {r' : ρ} (hr' : r' ∈ (db.commit c t).rows) :
    r' ∈ db.rows ∨ r' ∈ t.inserted ∨
      ∃ r ∈ db.rows, q.selects r = true ∧ q.write r = some r' := by
  rw [Db.commit_rows hdb ht] at hr'
  rcases List.mem_append.1 hr' with h | h
  · rcases Stmt.mem_applyTo.1 h with ⟨hr, _⟩ | ⟨r, hr, hk, hw⟩
    · exact Or.inl hr
    · obtain ⟨p, hp, hpk⟩ := List.mem_map.1 hk
      obtain ⟨r₀, hr₀, hkey, hsel, _⟩ := ht.write p.1 p.2 hp
      have he : r₀ = r := hdb.eq_of_key hr₀ hr (hkey.trans hpk)
      subst he
      exact Or.inr (Or.inr ⟨r₀, hr, hsel, hw⟩)
  · exact Or.inr (Or.inl h)

theorem DbOk.commit {c : Nat} {db : Db ρ} {t : Txn ρ} {q : Stmt ρ} (hdb : DbOk db)
    (ht : TxnOk c db t q) : DbOk (db.commit c t) where
  nodup := by
    rw [Db.commit_rows hdb ht, List.map_append]
    refine List.Nodup.append (hdb.nodup.sublist (q.map_key_applyTo_sublist _ _)) ht.nodup ?_
    intro k hk hk'
    obtain ⟨r, hr, rfl⟩ := List.mem_map.1 hk'
    exact (ht.inserted r hr).2 ((q.map_key_applyTo_sublist _ _).subset hk)
  bound := by
    intro r hr
    rw [Db.commit_rows hdb ht] at hr
    rcases List.mem_append.1 hr with hr | hr
    · obtain ⟨r', hr', hkey⟩ := Stmt.key_mem_of_mem_applyTo hr
      exact hkey ▸ hdb.bound r' hr'
    · exact hdb.owned (key r) c ((ht.owner _).2 (Or.inr (List.mem_map.2 ⟨r, hr, rfl⟩)))
  owned := fun k d hk => by
    by_cases hd : d = c
    · exact absurd (hd ▸ hk) (db.release_ne c k)
    · exact hdb.owned k d ((Db.release_of_ne hd).1 hk)

theorem DbOk.rollback {db : Db ρ} (hdb : DbOk db) (c : Nat) : DbOk (db.rollback c) where
  nodup := hdb.nodup
  bound := hdb.bound
  owned := fun k d hk => by
    by_cases hd : d = c
    · exact absurd (hd ▸ hk) (db.release_ne c k)
    · exact hdb.owned k d ((Db.release_of_ne hd).1 hk)

theorem TxnOk.commit (db : Db ρ) (c : Nat) (t : Txn ρ) (p : Stmt ρ) :
    TxnOk c (db.commit c t) {} p :=
  TxnOk.empty_iff.2 fun k => db.release_ne c k

theorem TxnOk.rollback (db : Db ρ) (c : Nat) (p : Stmt ρ) : TxnOk c (db.rollback c) {} p :=
  TxnOk.empty_iff.2 fun k => db.release_ne c k

theorem TxnOk.other_commit {c d : Nat} {db : Db ρ} {t u : Txn ρ} {q p : Stmt ρ} (hdb : DbOk db)
    (ht : TxnOk c db t q) (hd : d ≠ c) (hu : TxnOk d db u p) : TxnOk d (db.commit c t) u p where
  owner := fun k => (Db.release_of_ne hd).trans (hu.owner k)
  write := fun k v hv => by
    obtain ⟨r, hr, rfl, hrest⟩ := hu.write k v hv
    refine ⟨r, ?_, rfl, hrest⟩
    have hfree : key r ∉ t.writes.map Prod.fst := fun hk =>
      TxnOk.ne_of_owned ht hu hd (Or.inl hk) (Or.inl (List.mem_map.2 ⟨_, hv, rfl⟩))
    rw [Db.commit_rows hdb ht]
    exact List.mem_append_left _ (Stmt.mem_applyTo.2 (Or.inl ⟨hr, hfree⟩))
  inserted := fun r hr => by
    obtain ⟨hs, hk⟩ := hu.inserted r hr
    refine ⟨hs, fun hk' => ?_⟩
    rw [Db.commit_rows hdb ht, List.map_append] at hk'
    rcases List.mem_append.1 hk' with hk' | hk'
    · exact hk ((q.map_key_applyTo_sublist _ _).subset hk')
    · exact TxnOk.ne_of_owned ht hu hd (Or.inr hk') (Or.inr (List.mem_map.2 ⟨r, hr, rfl⟩))
  nodup := hu.nodup

theorem TxnOk.other_rollback {c d : Nat} {db : Db ρ} {u : Txn ρ} {p : Stmt ρ} (hd : d ≠ c)
    (hu : TxnOk d db u p) : TxnOk d (db.rollback c) u p where
  owner := fun k => (Db.release_of_ne hd).trans (hu.owner k)
  write := hu.write
  inserted := hu.inserted
  nodup := hu.nodup

/-! ## Nobody else at work -/

/-- No transaction but `c`'s owns a row. -/
def Db.OnlyOwner (db : Db ρ) (c : Nat) : Prop := ∀ k d, db.owner k = some d → d = c

omit [Keyed ρ] in
theorem Db.OnlyOwner.free {db : Db ρ} {c : Nat} (h : db.OnlyOwner c) (k : Nat) :
    db.owner k = none ∨ db.owner k = some c := by
  cases ho : db.owner k with
  | none => exact Or.inl rfl
  | some d => exact Or.inr (by rw [h k d ho])

omit [Keyed ρ] in
theorem Db.OnlyOwner.release {db : Db ρ} {c : Nat} (h : db.OnlyOwner c) :
    db.release c = fun _ => none := by
  funext k
  rcases h.free k with ho | ho <;> simp [Db.release, ho]

/-- The visits of a statement, one candidate after another. -/
def Db.visits (c : Nat) (q : Stmt ρ) : Db ρ → Txn ρ → List Nat → Option (Db ρ × Txn ρ)
  | db, t, [] => some (db, t)
  | db, t, k :: ks => (db.visit c t q k).bind fun r => Db.visits c q r.1 r.2 ks

/-- A free candidate that is still selected gets locked. -/
theorem Db.visit_of_selected {db : Db ρ} {c : Nat} {t : Txn ρ} {q : Stmt ρ} {r : ρ}
    (hfree : db.owner (key r) = none ∨ db.owner (key r) = some c) (hr : r ∈ db.rows)
    (hs : q.selects r = true) :
    ∃ v, db.visit c t q (key r) =
      some ({ db with owner := Function.update db.owner (key r) (some c) },
        { t with writes := (key r, v) :: t.writes }) := by
  unfold Db.visit
  rw [if_pos hfree]
  cases hf : (db.rows ++ t.inserted).find? fun r' => key r' == key r && q.selects r' with
  | none =>
      have := List.find?_eq_none.1 hf r (List.mem_append_left _ hr)
      simp [hs] at this
  | some r' => exact ⟨q.write r', rfl⟩

/-- With nobody else at work, every visited row that is selected ends up locked. -/
theorem Db.visits_of_selected {c : Nat} {q : Stmt ρ} {ks : List Nat} {db : Db ρ} {t : Txn ρ}
    (hdb : DbOk db) (ht : TxnOk c db t q) (honly : db.OnlyOwner c)
    (hks : ∀ k ∈ ks, ∃ r ∈ db.rows, key r = k ∧ q.selects r = true) :
    ∃ db' t', Db.visits c q db t ks = some (db', t') ∧ DbOk db' ∧ TxnOk c db' t' q ∧
      db'.OnlyOwner c ∧ db'.rows = db.rows ∧ db'.nextId = db.nextId ∧
      t'.inserted = t.inserted ∧ t'.writes.map Prod.fst = ks.reverse ++ t.writes.map Prod.fst := by
  induction ks generalizing db t with
  | nil => exact ⟨db, t, rfl, hdb, ht, honly, rfl, rfl, rfl, rfl⟩
  | cons k ks ih =>
      obtain ⟨r, hr, rfl, hs⟩ := hks k List.mem_cons_self
      obtain ⟨v, hv⟩ := Db.visit_of_selected (t := t) (honly.free (key r)) hr hs
      have honly' :
          Db.OnlyOwner { db with owner := Function.update db.owner (key r) (some c) } c := by
        intro k d hk
        by_cases hkr : k = key r
        · subst hkr
          simpa using hk.symm
        · exact honly k d (by simpa [Function.update_of_ne hkr] using hk)
      obtain ⟨db', t', hvs, hdb', ht', hown, hrows, hnext, hins, hkeys⟩ :=
        ih (hdb.visit ht hv) (ht.visit hv) honly' fun k hk => hks k (List.mem_cons_of_mem _ hk)
      refine ⟨db', t', ?_, hdb', ht', hown, hrows, hnext, hins, ?_⟩
      · simp only [Db.visits, hv, Option.bind_some, hvs]
      · simp [hkeys]

/-- What the statement reads as it runs: the committed rows and its own. -/
theorem TxnOk.apply {c : Nat} {db : Db ρ} {t : Txn ρ} {q : Stmt ρ} (ht : TxnOk c db t q) :
    q.apply (db.rows ++ t.inserted) = q.apply db.rows ++ t.inserted ∧
      q.affected (db.rows ++ t.inserted) = q.affected db.rows := by
  constructor
  · have hins : t.inserted.filterMap (fun r => if q.selects r then q.write r else some r) =
        t.inserted := by
      rw [List.filterMap_congr (g := some), List.filterMap_some]
      intro r hr
      simp [(ht.inserted r hr).1]
    simp only [Stmt.apply, List.filterMap_append, hins]
  · have hzero : t.inserted.countP q.selects = 0 :=
      List.countP_eq_zero.2 fun r hr => by simp [(ht.inserted r hr).1]
    simp [Stmt.affected, List.countP_append, hzero]

/-- An `UPDATE` or `DELETE` that nobody interrupts affects what it selects, and is the whole
statement once its transaction commits. -/
theorem Db.visits_candidates {c : Nat} {db : Db ρ} {t : Txn ρ} {q : Stmt ρ} (hdb : DbOk db)
    (ht : TxnOk c db t q) (hw : t.writes = []) (honly : db.OnlyOwner c) :
    ∃ db' t', Db.visits c q db t (db.candidates t q) = some (db', t') ∧
      t'.writes.length = q.affected (db.rows ++ t.inserted) ∧
      db'.commit c t' = ⟨q.apply (db.rows ++ t.inserted), db.nextId, fun _ => none⟩ ∧
      DbOk (db'.commit c t') ∧
      db'.rollback c = ⟨db.rows, db.nextId, fun _ => none⟩ := by
  have hcand : db.candidates t q = (db.rows.filter q.selects).map key := by
    have hnone : t.inserted.filter q.selects = [] :=
      List.filter_eq_nil_iff.2 fun r hr => by simp [(ht.inserted r hr).1]
    simp [Db.candidates, List.filter_append, hnone]
  have hmem : ∀ k, k ∈ db.candidates t q ↔ ∃ r ∈ db.rows, key r = k ∧ q.selects r = true := by
    intro k
    rw [hcand]
    simp only [List.mem_map, List.mem_filter]
    exact ⟨fun ⟨r, ⟨hr, hs⟩, hk⟩ => ⟨r, hr, hk, hs⟩, fun ⟨r, hr, hk, hs⟩ => ⟨r, ⟨hr, hs⟩, hk⟩⟩
  obtain ⟨db', t', hvs, hdb', ht', hown, hrows, hnext, hins, hkeys⟩ :=
    Db.visits_of_selected hdb ht honly fun k hk => (hmem k).1 hk
  rw [hw, List.map_nil, List.append_nil] at hkeys
  have hlocked : ∀ r ∈ db.rows, key r ∈ t'.writes.map Prod.fst ↔ q.selects r = true := by
    intro r hr
    rw [hkeys, List.mem_reverse, hmem]
    constructor
    · rintro ⟨r', hr', hk, hs⟩
      rwa [hdb.eq_of_key hr hr' hk.symm]
    · exact fun hs => ⟨r, hr, rfl, hs⟩
  refine ⟨db', t', hvs, ?_, ?_, hdb'.commit ht', ?_⟩
  · have hlen := congrArg List.length hkeys
    rw [List.length_map, List.length_reverse, hcand, List.length_map] at hlen
    rw [hlen, ht.apply.2, Stmt.affected, List.countP_eq_length_filter]
  · have hrows' := Db.commit_rows hdb' ht'
    rw [hrows, hins, Stmt.applyTo_eq_apply hlocked, ← ht.apply.1] at hrows'
    rw [← hrows', ← hnext, ← hown.release]
    rfl
  · rw [← hrows, ← hnext, ← hown.release]
    rfl

end NestStarter.Core
