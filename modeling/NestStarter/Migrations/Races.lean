import NestStarter.Migrations.Stages

/-! # Replicas that migrate at once

Any number of replicas of any number of applications start on one database, and read the
`migrations` table before others have committed. In every interleaving each schema stays at a
stage, each transaction goes through or changes nothing, and it is known which of the two.
-/

namespace NestStarter.Migrations

open NestStarter.Core
open NestStarter.Core.Ddl

/-- The schema is as the first `k` migrations left it, and its `migrations` table names them. -/
structure Staged (σ : System) (name : String) (k : Nat) : Prop where
  le : k ≤ 4
  executed : Executed (σ.executed name) k
  schema : σ.db.schemas name = some (stage k) ∨ k = 0 ∧ σ.db.schemas name = none
  phones : ∀ table ∈ ["users", "admins"], σ.db.longest name table "phone" ≤ phoneLimit k

structure Spares (σ σ' : System) (name : String) : Prop where
  schemas : ∀ other, other ≠ name → σ'.db.schemas other = σ.db.schemas other
  longest : ∀ other, other ≠ name → σ'.db.longest other = σ.db.longest other
  executed : ∀ other, other ≠ name → σ'.executed other = σ.executed other
  replica : σ'.replica = σ.replica

section Specs

variable {σ σ' : System} {name : String} {options : ConnectionOptions} {loaded : List String}
  {i k : Nat} {mayCreate : Bool}

theorem Staged.here (h : Staged σ name k) (hsome : (σ.db.schemas name).isSome) :
    At σ.db name k := by
  rcases h.schema with hschema | ⟨-, hnone⟩
  · exact ⟨hschema, h.phones⟩
  · rw [hnone] at hsome
    cases hsome

theorem Staged.isSome (h : Staged σ name k) (hk : k ≠ 0) : (σ.db.schemas name).isSome := by
  rcases h.schema with hschema | ⟨hzero, -⟩
  · rw [hschema]
    rfl
  · exact absurd hzero hk

theorem Staged.congr (h : Staged σ name k) (hschema : σ'.db.schemas name = σ.db.schemas name)
    (hlongest : σ'.db.longest name = σ.db.longest name)
    (hexecuted : σ'.executed name = σ.executed name) : Staged σ' name k where
  le := h.le
  executed := hexecuted ▸ h.executed
  schema := hschema ▸ h.schema
  phones := hlongest ▸ h.phones

/-- The transaction of a replica that has read the names of `i` migrations. -/
theorem executePendingMigrations_spec (mayCreate : Bool)
    (h : Staged σ (getConnectionSchema options) k)
    (hsome : (σ.db.schemas (getConnectionSchema options)).isSome) (hloaded : Executed loaded i)
    (hik : i ≤ k) :
    (¬ Blocked mayCreate σ.db (getConnectionSchema options) i k →
      ∃ σ', σ.executePendingMigrations options mayCreate loaded = (.ok (), σ') ∧
        Staged σ' (getConnectionSchema options) 4 ∧ Spares σ σ' (getConnectionSchema options)) ∧
    (Blocked mayCreate σ.db (getConnectionSchema options) i k →
      ∃ e, σ.executePendingMigrations options mayCreate loaded = (.error e, σ)) := by
  have hpending :
      (¬ Blocked mayCreate σ.db (getConnectionSchema options) i k →
        Runs mayCreate (pendingFrom options i) σ.db (getConnectionSchema options) 4) ∧
      (Blocked mayCreate σ.db (getConnectionSchema options) i k →
        Fails mayCreate (pendingFrom options i) σ.db) :=
    pendingFrom_spec hik h.le (h.here hsome)
  unfold System.executePendingMigrations
  simp only [hloaded.pending]
  constructor
  · intro hfree
    obtain ⟨path, db, hexec, hreaches⟩ := hpending.1 hfree defaultPath
    rw [pendingFrom] at hexec
    rw [hexec]
    refine ⟨_, rfl, ⟨le_rfl, ?_, Or.inl hreaches.here.schema, hreaches.here.phones⟩,
      ⟨hreaches.schemas, hreaches.longest, fun other hne => ?_, rfl⟩⟩
    · have happend := h.executed.append hloaded hik
      rw [hloaded.pending] at happend
      simp only [Function.update_self]
      exact happend
    · exact Function.update_of_ne hne _ _
  · intro hblocked
    obtain ⟨e, hexec⟩ := hpending.2 hblocked defaultPath
    rw [pendingFrom] at hexec
    rw [hexec]
    exact ⟨e, rfl⟩

/-- The phones do not fit what the last migration is to be undone to. -/
def Stuck (db : Database) (name : String) (k : Nat) : Prop := k = 4 ∧ LongPhone db name

theorem runs_down {m : Migration} (hm : migrations[k]? = some m)
    (hat : At σ.db (getConnectionSchema options) (k + 1))
    (hfree : ¬ Stuck σ.db (getConnectionSchema options) (k + 1)) :
    Runs mayCreate (m.down options) σ.db (getConnectionSchema options) k := by
  match k, hm, hat, hfree with
  | 0, hm, hat, _ =>
    cases hm
    exact runs_undo (by decide) (by omega) hat init_down
  | 1, hm, hat, _ =>
    cases hm
    exact runs_undo (by decide) (by omega) hat cleanup_down
  | 2, hm, hat, _ =>
    cases hm
    exact runs_undo (by decide) (by omega) hat isActive_down
  | 3, hm, hat, hfree =>
    cases hm
    exact runs_search_down hat fun hlong => hfree ⟨rfl, hlong⟩

theorem undoLastMigration_spec (mayCreate : Bool)
    (h : Staged σ (getConnectionSchema options) k) :
    (¬ Stuck σ.db (getConnectionSchema options) k →
      ∃ σ', σ.undoLastMigration options mayCreate = (.ok (), σ') ∧
        Staged σ' (getConnectionSchema options) (k - 1) ∧
          Spares σ σ' (getConnectionSchema options)) ∧
    (Stuck σ.db (getConnectionSchema options) k →
      ∃ e, σ.undoLastMigration options mayCreate = (.error e, σ)) := by
  unfold System.undoLastMigration
  simp only [h.executed.last]
  cases k with
  | zero =>
    refine ⟨fun _ => ⟨σ, rfl, h, ⟨fun _ _ => rfl, fun _ _ => rfl, fun _ _ => rfl, rfl⟩⟩,
      fun hstuck => ?_⟩
    have hfour := hstuck.1
    omega
  | succ k =>
    have hk : k < migrations.length := h.le
    have hm : migrations[k]? = some migrations[k] := List.getElem?_eq_getElem hk
    have hlast : (migrations.take (k + 1)).getLast? = some migrations[k] := by
      rw [List.take_add_one, hm]
      exact List.getLast?_concat
    have hat := h.here (h.isSome (by omega))
    rw [hlast]
    constructor
    · intro hfree
      have hruns : Runs mayCreate (migrations[k].down options) σ.db
          (getConnectionSchema options) k := runs_down hm hat hfree
      obtain ⟨path, db, hexec, hreaches⟩ := hruns defaultPath
      simp only [hexec]
      refine ⟨_, rfl, ⟨Nat.le_of_succ_le h.le, ?_, Or.inl hreaches.here.schema,
        hreaches.here.phones⟩, ⟨hreaches.schemas, hreaches.longest, fun other hne => ?_, rfl⟩⟩
      · simp only [Function.update_self]
        exact h.executed.erase hm
      · exact Function.update_of_ne hne _ _
    · intro hstuck
      obtain ⟨hfour, hlong⟩ := hstuck
      obtain rfl : k = 3 := by omega
      have hfails : Fails mayCreate (AddUserSearchIndexesAndUnifyPhoneLength.down options) σ.db :=
        fails_search_down hat hlong
      obtain ⟨e, hexec⟩ := hfails defaultPath
      refine ⟨e, ?_⟩
      have hdown : migrations[3] = AddUserSearchIndexesAndUnifyPhoneLength := rfl
      simp only [hdown, hexec]

end Specs

/-! ## Runs -/

/-- `T` are the schemas of the applications; `σ₀` is where the run began. -/
structure Stages (T : String → Prop) (σ₀ σ : System) : Prop where
  tenants : ∀ name, T name → ∃ k, Staged σ name k ∧
    ∀ c options loaded, σ.replica c = some (options, loaded) →
      getConnectionSchema options = name →
        (σ.db.schemas name).isSome ∧ ∃ i, i ≤ k ∧ Executed loaded i
  replicas : ∀ c options loaded, σ.replica c = some (options, loaded) →
    T (getConnectionSchema options)
  others : ∀ name, ¬ T name → σ.db.schemas name = σ₀.db.schemas name

/-- The applications act on their schemas, and a revert waits for replicas that are starting. -/
def Action.Proper (T : String → Prop) (σ : System) : Action → Prop
  | .ensureSchema options _ | .load _ options => T (getConnectionSchema options)
  | .revert options _ => T (getConnectionSchema options) ∧
      ∀ c other loaded, σ.replica c = some (other, loaded) →
        getConnectionSchema other ≠ getConnectionSchema options
  | .write schema .. => T schema
  | .migrate .. | .abort _ => True

/-- What becomes of the transactions. -/
def Action.Outcome (σ : System) : Action → Prop
  | .migrate c mayCreate => ∀ options loaded, σ.replica c = some (options, loaded) →
      ∃ i k, i ≤ k ∧ Executed loaded i ∧ Staged σ (getConnectionSchema options) k ∧
        ((¬ Blocked mayCreate σ.db (getConnectionSchema options) i k ∧
            ∃ σ', σ.executePendingMigrations options mayCreate loaded = (.ok (), σ') ∧
              Staged σ' (getConnectionSchema options) 4 ∧
                Spares σ σ' (getConnectionSchema options)) ∨
          Blocked mayCreate σ.db (getConnectionSchema options) i k ∧
            ∃ e, σ.executePendingMigrations options mayCreate loaded = (.error e, σ))
  | .revert options mayCreate => ∃ k, Staged σ (getConnectionSchema options) k ∧
      ((¬ Stuck σ.db (getConnectionSchema options) k ∧
          ∃ σ', σ.undoLastMigration options mayCreate = (.ok (), σ') ∧
            Staged σ' (getConnectionSchema options) (k - 1) ∧
              Spares σ σ' (getConnectionSchema options)) ∨
        Stuck σ.db (getConnectionSchema options) k ∧
          ∃ e, σ.undoLastMigration options mayCreate = (.error e, σ))
  | _ => True

section Runs

variable {T : String → Prop} {σ₀ σ σ' : System}

theorem Stages.outcome (h : Stages T σ₀ σ) {a : Action} (ha : a.Proper T σ) : a.Outcome σ := by
  cases a with
  | migrate c mayCreate =>
    intro options loaded hreplica
    obtain ⟨k, hstaged, hloaded⟩ := h.tenants _ (h.replicas c options loaded hreplica)
    obtain ⟨hsome, i, hik, hi⟩ := hloaded c options loaded hreplica rfl
    have hspec := executePendingMigrations_spec mayCreate hstaged hsome hi hik
    refine ⟨i, k, hik, hi, hstaged, ?_⟩
    by_cases hblocked : Blocked mayCreate σ.db (getConnectionSchema options) i k
    · exact Or.inr ⟨hblocked, hspec.2 hblocked⟩
    · exact Or.inl ⟨hblocked, hspec.1 hblocked⟩
  | revert options mayCreate =>
    obtain ⟨k, hstaged, -⟩ := h.tenants _ ha.1
    have hspec := undoLastMigration_spec mayCreate hstaged
    refine ⟨k, hstaged, ?_⟩
    by_cases hstuck : Stuck σ.db (getConnectionSchema options) k
    · exact Or.inr ⟨hstuck, hspec.2 hstuck⟩
    · exact Or.inl ⟨hstuck, hspec.1 hstuck⟩
  | _ => trivial

theorem Stages.leave (h : Stages T σ₀ σ) (c : Nat) :
    Stages T σ₀ { σ with replica := Function.update σ.replica c none } := by
  have hkept : ∀ {d options loaded},
      Function.update σ.replica c none d = some (options, loaded) →
        σ.replica d = some (options, loaded) := by
    intro d options loaded hd
    by_cases hdc : d = c
    · rw [hdc, Function.update_self] at hd
      cases hd
    · rwa [Function.update_of_ne hdc] at hd
  refine ⟨fun name hname => ?_, fun d options loaded hd => h.replicas d options loaded (hkept hd),
    h.others⟩
  obtain ⟨k, hstaged, hloaded⟩ := h.tenants name hname
  exact ⟨k, hstaged.congr rfl rfl rfl,
    fun d options loaded hd => hloaded d options loaded (hkept hd)⟩

/-- A transaction on one schema, which the replicas that are starting on it bear. -/
theorem Stages.spares {name : String} {k : Nat} (h : Stages T σ₀ σ) (hname : T name)
    (hstaged : Staged σ' name k) (hspares : Spares σ σ' name)
    (hloaded : ∀ c options loaded, σ.replica c = some (options, loaded) →
      getConnectionSchema options = name →
        (σ'.db.schemas name).isSome ∧ ∃ i, i ≤ k ∧ Executed loaded i) :
    Stages T σ₀ σ' := by
  refine ⟨fun other hother => ?_, fun c options loaded hc => ?_, fun other hother => ?_⟩
  · by_cases hsame : other = name
    · subst hsame
      exact ⟨k, hstaged, fun c options loaded hc =>
        hloaded c options loaded (hspares.replica ▸ hc)⟩
    · obtain ⟨j, hj, hold⟩ := h.tenants other hother
      refine ⟨j, hj.congr (hspares.schemas other hsame) (hspares.longest other hsame)
        (hspares.executed other hsame), fun c options loaded hc hat => ?_⟩
      rw [hspares.schemas other hsame]
      exact hold c options loaded (hspares.replica ▸ hc) hat
  · exact h.replicas c options loaded (hspares.replica ▸ hc)
  · have hne : other ≠ name := fun heq => hother (heq ▸ hname)
    exact (hspares.schemas other hne).trans (h.others other hother)

theorem stage_zero : stage 0 = {} := rfl

theorem Stages.ensureSchema (h : Stages T σ₀ σ) {options : ConnectionOptions}
    (hname : T (getConnectionSchema options)) (mayCreate : Bool) :
    Stages T σ₀ { σ with db := (ensureSchemaExists options mayCreate σ.db).2 } := by
  cases mayCreate with
  | false => exact h
  | true =>
    obtain ⟨k, hstaged, hloaded⟩ := h.tenants _ hname
    have hhere : (σ.db.schemas (getConnectionSchema options)).getD {} = stage k := by
      rcases hstaged.schema with hschema | ⟨hzero, hnone⟩
      · rw [hschema, Option.getD_some]
      · rw [hnone, Option.getD_none, hzero, stage_zero]
    refine h.spares hname ⟨hstaged.le, hstaged.executed, Or.inl ?_, hstaged.phones⟩
      ⟨fun other hne => Function.update_of_ne hne _ _, fun _ _ => rfl, fun _ _ => rfl, rfl⟩
      fun c other loaded hc hat => ⟨?_, (hloaded c other loaded hc hat).2⟩
    · simp only [ensureSchemaExists, createSchemaIfNotExists, Statement.exec, if_true,
        Function.update_self, hhere]
    · simp only [ensureSchemaExists, createSchemaIfNotExists, Statement.exec, if_true,
        Function.update_self, Option.isSome_some]

theorem Stages.load (h : Stages T σ₀ σ) {options : ConnectionOptions} {c : Nat}
    (hname : T (getConnectionSchema options))
    (hsome : (σ.db.schemas (getConnectionSchema options)).isSome) :
    Stages T σ₀ { σ with
      replica := Function.update σ.replica c
        (some (options, σ.executed (getConnectionSchema options))) } := by
  refine ⟨fun name htenant => ?_, fun d other loaded hd => ?_, h.others⟩
  · obtain ⟨k, hstaged, hloaded⟩ := h.tenants name htenant
    refine ⟨k, hstaged.congr rfl rfl rfl, fun d other loaded hd hat => ?_⟩
    by_cases hdc : d = c
    · simp only [hdc, Function.update_self, Option.some.injEq, Prod.mk.injEq] at hd
      obtain ⟨rfl, rfl⟩ := hd
      subst hat
      exact ⟨hsome, k, le_rfl, hstaged.executed⟩
    · simp only [Function.update_of_ne hdc] at hd
      exact hloaded d other loaded hd hat
  · by_cases hdc : d = c
    · simp only [hdc, Function.update_self, Option.some.injEq, Prod.mk.injEq] at hd
      exact hd.1 ▸ hname
    · simp only [Function.update_of_ne hdc] at hd
      exact h.replicas d other loaded hd

theorem phone_types : ∀ k ∈ [0, 1, 2, 3, 4], ∀ table ∈ ["users", "admins"],
    ∀ t ∈ (stage k).table? table, ∀ c ∈ t.columns, c.name = "phone" →
      c.type = .varchar (some (phoneLimit k)) := by decide +kernel

theorem le_phoneLimit {k n : Nat} (hk : k ≤ 4) {table : String}
    (htable : table ∈ ["users", "admins"])
    (h : holdsText (stage k) table "phone" n = true) : n ≤ phoneLimit k := by
  have hmem : k ∈ [0, 1, 2, 3, 4] := by
    simp only [List.mem_cons, List.not_mem_nil, or_false]
    omega
  rw [holdsText, Option.any_eq_true] at h
  obtain ⟨t, ht, h⟩ := h
  obtain ⟨c, hc, h⟩ := List.any_eq_true.1 h
  rw [Bool.and_eq_true, decide_eq_true_eq] at h
  obtain ⟨hname, h⟩ := h
  rw [phone_types k hmem table htable t ht c hc hname] at h
  simpa using h

theorem Stages.write (h : Stages T σ₀ σ) {schema table column : String} {n : Nat} {s : Schema}
    (hname : T schema) (hschema : σ.db.schemas schema = some s)
    (hholds : holdsText s table column n = true) :
    Stages T σ₀ { σ with db := { σ.db with
      longest := fun s' t c =>
        if s' = schema ∧ t = table ∧ c = column then n else σ.db.longest s' t c } } := by
  obtain ⟨k, hstaged, hloaded⟩ := h.tenants schema hname
  refine h.spares hname ⟨hstaged.le, hstaged.executed, hstaged.schema, fun t ht => ?_⟩
    ⟨fun _ _ => rfl, fun other hne => ?_, fun _ _ => rfl, rfl⟩ hloaded
  · show (if schema = schema ∧ t = table ∧ "phone" = column then n else _) ≤ _
    split
    · next hhere =>
      obtain ⟨-, rfl, rfl⟩ := hhere
      rw [(hstaged.here (by rw [hschema]; rfl)).schema, Option.some.injEq] at hschema
      exact le_phoneLimit hstaged.le ht (hschema ▸ hholds)
    · exact hstaged.phones t ht
  · funext t c
    exact if_neg fun hhere => hne hhere.1

theorem Stages.step (h : Stages T σ₀ σ) {a : Action} (ha : a.Proper T σ)
    (hstep : System.step σ a = some σ') : Stages T σ₀ σ' := by
  have houtcome := h.outcome ha
  cases a with
  | ensureSchema options mayCreate =>
    cases hstep
    exact h.ensureSchema ha mayCreate
  | load c options =>
    simp only [System.step] at hstep
    split at hstep
    · next hfree =>
      cases hstep
      exact h.load ha hfree.2
    · cases hstep
  | migrate c mayCreate =>
    cases hreplica : σ.replica c with
    | none => simp [System.step, hreplica] at hstep
    | some r =>
      obtain ⟨options, loaded⟩ := r
      simp only [System.step, hreplica, Option.some.injEq] at hstep
      subst hstep
      obtain ⟨i, k, -, -, -, hcase⟩ := houtcome options loaded hreplica
      rcases hcase with ⟨-, σ₁, hexec, hstaged, hspares⟩ | ⟨-, e, hexec⟩
      · rw [hexec]
        refine (h.spares (h.replicas c options loaded hreplica) hstaged hspares ?_).leave c
        intro d other names hd hat
        obtain ⟨j, hj, hold⟩ := h.tenants _ (h.replicas d other names hd)
        obtain ⟨-, i', hi', hnames⟩ := hold d other names hd rfl
        exact ⟨hstaged.isSome (by omega), i', hi'.trans hj.le, hnames⟩
      · rw [hexec]
        exact h.leave c
  | abort c =>
    cases hstep
    exact h.leave c
  | revert options mayCreate =>
    cases hstep
    obtain ⟨k, -, hcase⟩ := houtcome
    rcases hcase with ⟨-, σ₁, hexec, hstaged, hspares⟩ | ⟨-, e, hexec⟩
    · rw [hexec]
      refine h.spares ha.1 hstaged hspares fun c other loaded hc hat => ?_
      exact absurd hat (ha.2 c other loaded hc)
    · rw [hexec]
      exact h
  | write schema table column n =>
    simp only [System.step] at hstep
    cases hschema : σ.db.schemas schema with
    | none => simp [hschema] at hstep
    | some s =>
      simp only [hschema] at hstep
      split at hstep
      · next hholds =>
        cases hstep
        exact h.write ha hschema hholds
      · cases hstep

end Runs

def sampleSystem : System where
  db := { schemas := fun _ => none, trgm := none, longest := fun _ _ _ => 0 }
  executed _ := []
  replica _ := none

/-- Both read an empty table, and the second one cannot create what the first one has. -/
def racingReplicas : List Action := [
  .revert ⟨none⟩ false, .ensureSchema ⟨none⟩ true, .load 0 ⟨none⟩, .load 1 ⟨none⟩, .migrate 0 true,
  .migrate 1 true, .write "public" "users" "phone" 24]

end NestStarter.Migrations
