import Mathlib.Data.List.Nodup
import NestStarter.Migrations.Runner

/-! # The stages of a schema

However replicas start and however often the last migration is reverted, a schema is as the first
`k` migrations left it, and the `migrations` table names those. A transaction that cannot go
through changes nothing: one that starts with `Init` where another replica has run it or without the
right to create a schema, one that needs trigram operators which are in another application's schema
or cannot be made, and a revert with phones that are too long for the column as it was.
-/

namespace NestStarter.Migrations

open NestStarter.Core
open NestStarter.Core.Ddl

section Names

variable {α β : Type} {l : List α} {f : α → β}

theorem not_mem_take_of_mem_drop (h : (l.map f).Nodup) (i : Nat) :
    ∀ a ∈ l.drop i, f a ∉ (l.take i).map f := by
  rw [← List.take_append_drop i l, List.map_append, List.nodup_append] at h
  intro a ha hmem
  exact h.2.2 _ hmem _ (List.mem_map_of_mem ha) rfl

variable [DecidableEq β]

theorem filter_mem_take (h : (l.map f).Nodup) (i : Nat) :
    (l.filter fun a => f a ∈ (l.take i).map f) = l.take i := by
  calc (l.filter fun a => f a ∈ (l.take i).map f)
      = ((l.take i ++ l.drop i).filter fun a => f a ∈ (l.take i).map f) := by
        rw [List.take_append_drop]
    _ = l.take i ++ [] := by
        rw [List.filter_append, List.filter_eq_self.2, List.filter_eq_nil_iff.2]
        · intro a ha
          simpa using not_mem_take_of_mem_drop h i a ha
        · intro a ha
          simpa using List.mem_map_of_mem ha
    _ = l.take i := List.append_nil _

theorem filter_not_mem_take (h : (l.map f).Nodup) (i : Nat) :
    (l.filter fun a => f a ∉ (l.take i).map f) = l.drop i := by
  calc (l.filter fun a => f a ∉ (l.take i).map f)
      = ((l.take i ++ l.drop i).filter fun a => f a ∉ (l.take i).map f) := by
        rw [List.take_append_drop]
    _ = [] ++ l.drop i := by
        rw [List.filter_append, List.filter_eq_nil_iff.2, List.filter_eq_self.2]
        · intro a ha
          simpa using not_mem_take_of_mem_drop h i a ha
        · intro a ha
          simpa using List.mem_map_of_mem ha
    _ = l.drop i := List.nil_append _

end Names

/-- `names` are those of the first `k` migrations, some of them more than once. -/
def Executed (names : List String) (k : Nat) : Prop :=
  ∀ name, name ∈ names ↔ name ∈ (migrations.take k).map Migration.name

theorem nodup_names : (migrations.map Migration.name).Nodup := by decide

theorem Executed.pending {names : List String} {k : Nat} (h : Executed names k) :
    pendingMigrations names = migrations.drop k := by
  rw [← filter_not_mem_take nodup_names k]
  exact List.filter_congr fun m _ => by simp only [h m.name]

theorem Executed.last {names : List String} {k : Nat} (h : Executed names k) :
    lastExecuted names = (migrations.take k).getLast? := by
  rw [lastExecuted, ← filter_mem_take nodup_names k]
  congr 1
  exact List.filter_congr fun m _ => by simp only [h m.name]

theorem Executed.append {names loaded : List String} {i k : Nat} (h : Executed names k)
    (hloaded : Executed loaded i) (hik : i ≤ k) :
    Executed (names ++ (pendingMigrations loaded).map Migration.name) migrations.length := by
  intro name
  rw [hloaded.pending, List.mem_append, h name, List.take_length]
  constructor
  · intro hname
    rcases hname with hname | hname
    · exact List.map_subset _ (List.take_subset _ _) hname
    · exact List.map_subset _ (List.drop_subset _ _) hname
  · intro hname
    rw [← List.take_append_drop i migrations, List.map_append, List.mem_append] at hname
    rcases hname with hname | hname
    · have hsub : migrations.take i ⊆ migrations.take k :=
        (List.take_prefix_take_left hik).subset
      exact Or.inl (List.map_subset _ hsub hname)
    · exact Or.inr hname

theorem Executed.erase {names : List String} {k : Nat} {m : Migration}
    (h : Executed names (k + 1)) (hm : migrations[k]? = some m) :
    Executed (names.filter fun name => name ≠ m.name) k := by
  have htake : migrations.take (k + 1) = migrations.take k ++ [m] := by
    rw [List.take_add_one, hm]
    rfl
  have hnodup : ((migrations.take (k + 1)).map Migration.name).Nodup :=
    nodup_names.sublist ((List.take_sublist _ _).map _)
  rw [htake, List.map_append, List.nodup_append] at hnodup
  intro name
  rw [List.mem_filter, h name, htake, List.map_append, List.mem_append]
  constructor
  · intro hname
    have hne : name ≠ m.name := by simpa using hname.2
    exact hname.1.resolve_right (by simpa using hne)
  · intro hname
    refine ⟨Or.inl hname, ?_⟩
    have hne : name ≠ m.name := hnodup.2.2 name hname m.name (by simp)
    simpa using hne

def ups : List (List Change) := [
  Init.changes,
  AddCleanupIndexes.changes,
  AddIsActiveToAccounts.changes,
  AddUserSearchIndexesAndUnifyPhoneLength.widen ++ AddUserSearchIndexesAndUnifyPhoneLength.indexes]

/-- The schema after the first `k` migrations. -/
def stage (k : Nat) : Schema := (Change.execAll (ups.take k).flatten {}).getD {}

section Stage

open AddUserSearchIndexesAndUnifyPhoneLength (widen indexes dropIndexes narrowAdmins narrowUsers)

/-- Where each migration leads from the stages that it can meet, and where it leads back to. -/
theorem stages_sound :
    (Change.execAll Init.changes (stage 0) = some (stage 1) ∧
      (∀ k ∈ [1, 2, 3, 4], (Change.createType "gender_enum" ["male", "female"]).exec (stage k) =
        .error .duplicateObject) ∧
      ∀ k ∈ [1, 2, 3, 4],
        Change.execAll AddCleanupIndexes.changes (stage k) = some (stage (max k 2))) ∧
    ((∀ k ∈ [2, 3, 4],
        Change.execAll AddIsActiveToAccounts.changes (stage k) = some (stage (max k 3))) ∧
      (∀ k ∈ [3, 4], (Change.execAll widen (stage k)).isSome = true ∧
        Change.execAll (widen ++ indexes) (stage k) = some (stage 4))) ∧
    Change.execAll Init.undo (stage 1) = some (stage 0) ∧
      Change.execAll AddCleanupIndexes.undo (stage 2) = some (stage 1) ∧
        Change.execAll AddIsActiveToAccounts.undo (stage 3) = some (stage 2) ∧
          Change.execAll (dropIndexes ++ [narrowAdmins, narrowUsers]) (stage 4) =
            some (stage 3) := by decide +kernel

theorem init_up : Change.execAll Init.changes (stage 0) = some (stage 1) := stages_sound.1.1

theorem init_again : ∀ k ∈ [1, 2, 3, 4],
    (Change.createType "gender_enum" ["male", "female"]).exec (stage k) =
      .error .duplicateObject := stages_sound.1.2.1

theorem cleanup_up : ∀ k ∈ [1, 2, 3, 4],
    Change.execAll AddCleanupIndexes.changes (stage k) = some (stage (max k 2)) :=
  stages_sound.1.2.2

theorem isActive_up : ∀ k ∈ [2, 3, 4],
    Change.execAll AddIsActiveToAccounts.changes (stage k) = some (stage (max k 3)) :=
  stages_sound.2.1.1

theorem widen_up : ∀ k ∈ [3, 4], (Change.execAll widen (stage k)).isSome = true :=
  fun k hk => (stages_sound.2.1.2 k hk).1

theorem search_up : ∀ k ∈ [3, 4], Change.execAll (widen ++ indexes) (stage k) = some (stage 4) :=
  fun k hk => (stages_sound.2.1.2 k hk).2

theorem init_down : Change.execAll Init.undo (stage 1) = some (stage 0) := stages_sound.2.2.1

theorem cleanup_down : Change.execAll AddCleanupIndexes.undo (stage 2) = some (stage 1) :=
  stages_sound.2.2.2.1

theorem isActive_down : Change.execAll AddIsActiveToAccounts.undo (stage 3) = some (stage 2) :=
  stages_sound.2.2.2.2.1

theorem search_down :
    Change.execAll (dropIndexes ++ [narrowAdmins, narrowUsers]) (stage 4) = some (stage 3) :=
  stages_sound.2.2.2.2.2

end Stage

/-! ## Transactions -/

def phoneLimit (k : Nat) : Nat := if k ≤ 3 then 20 else 32

/-- The schema is at stage `k`, with phones that fit. -/
structure At (db : Database) (name : String) (k : Nat) : Prop where
  schema : db.schemas name = some (stage k)
  phones : ∀ table ∈ ["users", "admins"], db.longest name table "phone" ≤ phoneLimit k

/-- The trigram operators are in a schema off the path, or nowhere and not to be made. -/
def OutOfReach (mayCreate : Bool) (db : Database) (name : String) : Prop :=
  (∃ s ∈ db.trgm, s ≠ name ∧ s ≠ "public") ∨ (db.trgm = none ∧ mayCreate = false)

/-- `db'` is `db` with the schema at stage `k`, and maybe the trigram operators in it. -/
structure Reaches (mayCreate : Bool) (db db' : Database) (name : String) (k : Nat) : Prop where
  here : At db' name k
  schemas : ∀ other, other ≠ name → db'.schemas other = db.schemas other
  longest : ∀ other, other ≠ name → db'.longest other = db.longest other
  trgm : db'.trgm = db.trgm ∨ (db.trgm = none ∧ mayCreate = true) ∧ db'.trgm = some name

section Transactions

variable {mayCreate : Bool} {db db' db'' : Database} {name : String} {k k' : Nat}

theorem Reaches.refl (h : At db name k) : Reaches mayCreate db db name k :=
  ⟨h, fun _ _ => rfl, fun _ _ => rfl, Or.inl rfl⟩

theorem Reaches.trans (h : Reaches mayCreate db db' name k)
    (h' : Reaches mayCreate db' db'' name k') : Reaches mayCreate db db'' name k' where
  here := h'.here
  schemas other hne := (h'.schemas other hne).trans (h.schemas other hne)
  longest other hne := (h'.longest other hne).trans (h.longest other hne)
  trgm := by
    rcases h'.trgm with heq' | ⟨hnone', hsome'⟩
    · rw [heq']
      exact h.trgm
    · rcases h.trgm with heq | ⟨-, hsome⟩
      · exact Or.inr ⟨heq ▸ hnone', hsome'⟩
      · rw [hsome] at hnone'
        cases hnone'.1

theorem Reaches.outOfReach (h : Reaches mayCreate db db' name k) :
    OutOfReach mayCreate db' name ↔ OutOfReach mayCreate db name := by
  rcases h.trgm with heq | ⟨⟨hnone, hright⟩, hsome⟩
  · rw [OutOfReach, heq]
    rfl
  · simp [OutOfReach, hnone, hright, hsome]

/-- The transaction goes through, and brings the schema to stage `k`. -/
def Runs (mayCreate : Bool) (sts : List Statement) (db : Database) (name : String) (k : Nat) :
    Prop :=
  ∀ path, ∃ path' db', Statement.execAll mayCreate sts path db = .ok (path', db') ∧
    Reaches mayCreate db db' name k

def Fails (mayCreate : Bool) (sts : List Statement) (db : Database) : Prop :=
  ∀ path, ∃ e, Statement.execAll mayCreate sts path db = .error e

variable {sts sts' : List Statement}

theorem Runs.append (h : Runs mayCreate sts db name k)
    (h' : ∀ db', Reaches mayCreate db db' name k → Runs mayCreate sts' db' name k') :
    Runs mayCreate (sts ++ sts') db name k' := by
  intro path
  obtain ⟨path', db', hexec, hreaches⟩ := h path
  obtain ⟨path'', db'', hexec', hreaches'⟩ := h' db' hreaches path'
  exact ⟨path'', db'', by rw [execAll_append_ok hexec, hexec'], hreaches.trans hreaches'⟩

theorem Runs.append_fails (h : Runs mayCreate sts db name k)
    (h' : ∀ db', Reaches mayCreate db db' name k → Fails mayCreate sts' db') :
    Fails mayCreate (sts ++ sts') db := by
  intro path
  obtain ⟨path', db', hexec, hreaches⟩ := h path
  obtain ⟨e, hexec'⟩ := h' db' hreaches path'
  exact ⟨e, by rw [execAll_append_ok hexec, hexec']⟩

theorem Fails.append (h : Fails mayCreate sts db) (sts' : List Statement) :
    Fails mayCreate (sts ++ sts') db := by
  intro path
  obtain ⟨e, hexec⟩ := h path
  exact ⟨e, execAll_append_error hexec⟩

/-- Changes of the first schema of the path that the transaction sets. -/
theorem runs_changes {rest : List String} {cs : List Change} (hat : At db name k)
    (hexec : Change.execAll cs (stage k) = some (stage k'))
    (hallows : ∀ c ∈ cs, db.Allows (name :: rest) name c)
    (hphones : ∀ table ∈ ["users", "admins"], db.longest name table "phone" ≤ phoneLimit k') :
    Runs mayCreate (.setSearchPath (name :: rest) :: cs.map .change) db name k' := by
  intro path
  obtain ⟨db', hrun, hbecomes⟩ := execAll_changes hat.schema hallows hexec
  refine ⟨name :: rest, db', hrun, ⟨?_, ?_⟩, ?_, hbecomes.others, Or.inl hbecomes.trgm⟩
  · rw [hbecomes.schemas, Function.update_self]
  · exact fun table htable => (hbecomes.longest table "phone").trans (hphones table htable)
  · intro other hne
    rw [hbecomes.schemas, Function.update_of_ne hne]

theorem fails_changes (cs : List Change) {rest : List String} {cs' : List Change} {c : Change}
    {schema : Schema} (hat : At db name k)
    (hexec : Change.execAll (cs ++ c :: cs') (stage k) = some schema)
    (hallows : ∀ d ∈ cs, db.Allows (name :: rest) name d)
    (hcs : ∀ d ∈ cs, d.makesTable = false) (hrefused : ¬ db.Allows (name :: rest) name c) :
    Fails mayCreate (.setSearchPath (name :: rest) :: (cs ++ c :: cs').map .change) db := by
  intro path
  obtain ⟨e, herror⟩ := execAll_refused hat.schema hexec hallows hcs hrefused
  have hscope : Statement.exec mayCreate path db (.setSearchPath (name :: rest)) =
      .ok (name :: rest, db) := rfl
  exact ⟨e, (execAll_cons_ok hscope).trans herror⟩

end Transactions

/-! ## The migrations -/

theorem phoneLimit_mono {k k' : Nat} (h : k ≤ k') : phoneLimit k ≤ phoneLimit k' := by
  unfold phoneLimit
  split <;> split <;> omega

theorem At.phones_le {db : Database} {name : String} {k k' : Nat} (h : At db name k) (hk : k ≤ k') :
    ∀ table ∈ ["users", "admins"], db.longest name table "phone" ≤ phoneLimit k' :=
  fun table htable => (h.phones table htable).trans (phoneLimit_mono hk)

section Migrations

open AddUserSearchIndexesAndUnifyPhoneLength (widen indexes dropIndexes narrowAdmins narrowUsers)

variable {mayCreate : Bool} {options : ConnectionOptions} {db : Database} {k : Nat}

/-- The schema is there, so that it is left alone. -/
theorem execAll_init (hat : At db (getConnectionSchema options) k) (path : List String) :
    Statement.execAll true (Init.up options) path db = Statement.execAll true
      (scopeToConnectionSchema options :: Init.changes.map .change) path db := by
  have hschemas : Function.update db.schemas (getConnectionSchema options)
      (some ((db.schemas (getConnectionSchema options)).getD {})) = db.schemas := by
    rw [hat.schema, Option.getD_some, ← hat.schema, Function.update_eq_self]
  have hfirst : Statement.exec true path db (createSchemaIfNotExists options) =
      .ok (path, db) := by
    rw [createSchemaIfNotExists, Statement.exec, if_pos rfl, hschemas]
  exact execAll_cons_ok hfirst

theorem runs_init (hat : At db (getConnectionSchema options) 0) :
    Runs true (Init.up options) db (getConnectionSchema options) 1 := by
  have hplain : ∀ c ∈ Init.changes, c.plain = true := by decide
  intro path
  rw [execAll_init hat]
  exact runs_changes hat init_up (fun c hc => db.allows_of_plain _ _ (hplain c hc))
    (hat.phones_le (by omega)) path

theorem fails_init (hk : k ∈ [1, 2, 3, 4]) (hat : At db (getConnectionSchema options) k) :
    Fails true (Init.up options) db := by
  intro path
  rw [execAll_init hat]
  have hfirst : Statement.exec true [getConnectionSchema options] db
      (.change (.createType "gender_enum" ["male", "female"])) = .error .duplicateObject :=
    exec_change_error hat.schema rfl (db.allows_of_plain _ _ rfl) (init_again k hk)
  have hscope : Statement.exec true path db (scopeToConnectionSchema options) =
      .ok ([getConnectionSchema options], db) := rfl
  exact ⟨_, (execAll_cons_ok hscope).trans (execAll_cons_error hfirst)⟩

/-- Without the right, `CREATE SCHEMA` fails whether the schema is there or not. -/
theorem fails_init_of_denied (options : ConnectionOptions) (db : Database) :
    Fails false (Init.up options) db := by
  intro path
  have hfirst : Statement.exec false path db (createSchemaIfNotExists options) =
      .error .insufficientPrivilege := rfl
  exact ⟨_, execAll_cons_error hfirst⟩

theorem runs_cleanup (hk : k ∈ [1, 2, 3, 4]) (hat : At db (getConnectionSchema options) k) :
    Runs mayCreate (AddCleanupIndexes.up options) db (getConnectionSchema options) (max k 2) := by
  have hplain : ∀ c ∈ AddCleanupIndexes.changes, c.plain = true := by decide
  exact runs_changes hat (cleanup_up k hk) (fun c hc => db.allows_of_plain _ _ (hplain c hc))
    (hat.phones_le (le_max_left k 2))

theorem runs_isActive (hk : k ∈ [2, 3, 4]) (hat : At db (getConnectionSchema options) k) :
    Runs mayCreate (AddIsActiveToAccounts.up options) db (getConnectionSchema options)
      (max k 3) := by
  have hplain : ∀ c ∈ AddIsActiveToAccounts.changes, c.plain = true := by decide
  exact runs_changes hat (isActive_up k hk) (fun c hc => db.allows_of_plain _ _ (hplain c hc))
    (hat.phones_le (le_max_left k 3))

/-- The phone columns are widened, so that the indexes can be made. -/
theorem exec_widen (mayCreate : Bool) (hk : k ∈ [3, 4])
    (hat : At db (getConnectionSchema options) k) (path : List String) :
    ∃ schema db', Change.execAll indexes schema = some (stage 4) ∧
      Statement.execAll mayCreate (AddUserSearchIndexesAndUnifyPhoneLength.scope options ::
        widen.map .change) path db = .ok ([getConnectionSchema options, "public"], db') ∧
      db.Becomes db' (getConnectionSchema options) schema := by
  obtain ⟨schema, hschema⟩ := Option.isSome_iff_exists.1 (widen_up k hk)
  have hlimit : phoneLimit k ≤ 32 := by unfold phoneLimit; split <;> omega
  have hallows : ∀ c ∈ widen, db.Allows [getConnectionSchema options, "public"]
      (getConnectionSchema options) c := by
    intro c hc
    rcases List.mem_pair.1 hc with rfl | rfl
    · exact (hat.phones "users" (by simp)).trans hlimit
    · exact (hat.phones "admins" (by simp)).trans hlimit
  obtain ⟨db', hexec, hbecomes⟩ := execAll_changes hat.schema hallows hschema
  have hboth := search_up k hk
  rw [Change.execAll_append, hschema] at hboth
  exact ⟨schema, db', hboth, hexec, hbecomes⟩

theorem runs_search (hk : k ∈ [3, 4]) (hat : At db (getConnectionSchema options) k)
    (htrgm : ¬ OutOfReach mayCreate db (getConnectionSchema options)) :
    Runs mayCreate (AddUserSearchIndexesAndUnifyPhoneLength.up options) db
      (getConnectionSchema options) 4 := by
  have hright : db.trgm = none → mayCreate = true := by
    intro hnone
    by_contra hdenied
    exact htrgm (Or.inr ⟨hnone, by simpa using hdenied⟩)
  intro path
  obtain ⟨schema, db₁, hrest, hwiden, hbecomes⟩ := exec_widen mayCreate hk hat path
  have hhere₁ : db₁.schemas (getConnectionSchema options) = some schema := by
    rw [hbecomes.schemas, Function.update_self]
  obtain ⟨db₂, hexec₂, hschemas₂, hlongest₂, htrgm₂⟩ :=
    exec_createTrgm ["public"] hhere₁ (hbecomes.trgm.symm ▸ hright)
  rw [hbecomes.trgm] at htrgm₂
  have hhere₂ : db₂.schemas (getConnectionSchema options) = some schema := by
    rw [hschemas₂, hhere₁]
  have hpath : db.trgm.getD (getConnectionSchema options) ∈
      [getConnectionSchema options, "public"] := by
    cases hwhere : db.trgm with
    | none => exact List.mem_cons_self
    | some s =>
      by_contra hnot
      simp only [List.mem_pair, not_or, Option.getD_some] at hnot
      exact htrgm (Or.inl ⟨s, hwhere, hnot⟩)
  have hallows : ∀ c ∈ indexes, db₂.Allows [getConnectionSchema options, "public"]
      (getConnectionSchema options) c := by
    intro c hc
    simp only [indexes, List.mem_cons, List.not_mem_nil, or_false] at hc
    rcases hc with rfl | rfl | rfl <;> exact fun _ => ⟨_, htrgm₂, hpath⟩
  obtain ⟨db₃, hexec₃, hbecomes₃⟩ := execAll_changes hhere₂ hallows hrest
  refine ⟨[getConnectionSchema options, "public"], db₃, ?_, ⟨?_, ?_⟩, ?_, ?_, ?_⟩
  · exact (execAll_append_ok hwiden).trans ((execAll_cons_ok hexec₂).trans hexec₃)
  · rw [hbecomes₃.schemas, Function.update_self]
  · intro table htable
    have hlast : k ≤ 4 := by
      simp only [List.mem_cons, List.not_mem_nil, or_false] at hk
      omega
    have hphone := hat.phones_le hlast table htable
    have hlonger := (hbecomes₃.longest table "phone").trans
      (hlongest₂ ▸ hbecomes.longest table "phone")
    exact hlonger.trans hphone
  · intro other hne
    rw [hbecomes₃.schemas, Function.update_of_ne hne, hschemas₂, hbecomes.schemas,
      Function.update_of_ne hne]
  · intro other hne
    rw [hbecomes₃.others other hne, hlongest₂, hbecomes.others other hne]
  · rw [hbecomes₃.trgm, htrgm₂]
    cases hwhere : db.trgm with
    | none => exact Or.inr ⟨⟨rfl, hright hwhere⟩, rfl⟩
    | some s => exact Or.inl rfl

theorem fails_search (hk : k ∈ [3, 4]) (hat : At db (getConnectionSchema options) k)
    (htrgm : OutOfReach mayCreate db (getConnectionSchema options)) :
    Fails mayCreate (AddUserSearchIndexesAndUnifyPhoneLength.up options) db := by
  intro path
  obtain ⟨schema, db₁, hrest, hwiden, hbecomes⟩ := exec_widen mayCreate hk hat path
  have hhere₁ : db₁.schemas (getConnectionSchema options) = some schema := by
    rw [hbecomes.schemas, Function.update_self]
  rcases htrgm with ⟨s, hs, hname, hpublic⟩ | ⟨hnone, rfl⟩
  · have hright : db₁.trgm = none → mayCreate = true := by
      intro hnone
      rw [hbecomes.trgm, Option.mem_def.1 hs] at hnone
      cases hnone
    obtain ⟨db₂, hexec₂, hschemas₂, -, htrgm₂⟩ := exec_createTrgm ["public"] hhere₁ hright
    have hhere₂ : db₂.schemas (getConnectionSchema options) = some schema := by
      rw [hschemas₂, hhere₁]
    have hrefused : ¬ db₂.Allows [getConnectionSchema options, "public"]
        (getConnectionSchema options)
        (AddUserSearchIndexesAndUnifyPhoneLength.trigramIndex "IDX_users_first_name_trgm"
          "first_name") := by
      intro hallows
      obtain ⟨s', hs', hpath⟩ := hallows rfl
      have hsame : s' = s := by
        rw [htrgm₂, hbecomes.trgm, Option.mem_def.1 hs] at hs'
        exact (Option.some.inj hs').symm
      rw [hsame, List.mem_pair] at hpath
      exact hpath.elim hname hpublic
    obtain ⟨e, herror⟩ := exec_change_refused hhere₂ (Change.finds_of_execAll hrest) hrefused
    exact ⟨e, (execAll_append_ok hwiden).trans
      ((execAll_cons_ok hexec₂).trans (execAll_cons_error herror))⟩
  · have hdenied := exec_createTrgm_refused ["public"] hhere₁ (hbecomes.trgm.trans hnone)
    exact ⟨_, (execAll_append_ok hwiden).trans (execAll_cons_error hdenied)⟩

def pendingFrom (options : ConnectionOptions) (i : Nat) : List Statement :=
  (migrations.drop i).flatMap fun m => m.up options

/-- The statements bring the schema to the last stage, unless the operators are out of reach. -/
def Completes (mayCreate : Bool) (sts : List Statement) (db : Database) (name : String) : Prop :=
  (¬ OutOfReach mayCreate db name → Runs mayCreate sts db name 4) ∧
    (OutOfReach mayCreate db name → Fails mayCreate sts db)

theorem Runs.completes {sts sts' : List Statement} {name : String}
    (h : Runs mayCreate sts db name k)
    (h' : ∀ db', Reaches mayCreate db db' name k → Completes mayCreate sts' db' name) :
    Completes mayCreate (sts ++ sts') db name := by
  constructor
  · intro htrgm
    exact h.append fun db' hreaches => (h' db' hreaches).1 (mt hreaches.outOfReach.1 htrgm)
  · intro htrgm
    exact h.append_fails fun db' hreaches => (h' db' hreaches).2 (hreaches.outOfReach.2 htrgm)

theorem completes_search (hk : k ∈ [3, 4]) (hat : At db (getConnectionSchema options) k) :
    Completes mayCreate (pendingFrom options 3) db (getConnectionSchema options) := by
  have hone : pendingFrom options 3 = AddUserSearchIndexesAndUnifyPhoneLength.up options :=
    List.append_nil _
  rw [hone]
  exact ⟨runs_search hk hat, fails_search hk hat⟩

theorem completes_isActive (hk : k ∈ [2, 3, 4]) (hat : At db (getConnectionSchema options) k) :
    Completes mayCreate (pendingFrom options 2) db (getConnectionSchema options) := by
  have hnext : max k 3 ∈ [3, 4] := by
    simp only [List.mem_cons, List.not_mem_nil, or_false] at hk ⊢
    omega
  exact (runs_isActive hk hat).completes fun _ hreaches => completes_search hnext hreaches.here

theorem completes_cleanup (hk : k ∈ [1, 2, 3, 4]) (hat : At db (getConnectionSchema options) k) :
    Completes mayCreate (pendingFrom options 1) db (getConnectionSchema options) := by
  have hnext : max k 2 ∈ [2, 3, 4] := by
    simp only [List.mem_cons, List.not_mem_nil, or_false] at hk ⊢
    omega
  exact (runs_cleanup hk hat).completes fun _ hreaches => completes_isActive hnext hreaches.here

theorem completes_init (hat : At db (getConnectionSchema options) 0) :
    Completes true (pendingFrom options 0) db (getConnectionSchema options) :=
  (runs_init hat).completes fun _ hreaches => completes_cleanup (by simp) hreaches.here

/-- A transaction that starts after `i` migrations, at stage `k`, cannot go through. -/
def Blocked (mayCreate : Bool) (db : Database) (name : String) (i k : Nat) : Prop :=
  (i = 0 ∧ (0 < k ∨ mayCreate = false)) ∨ (i < migrations.length ∧ OutOfReach mayCreate db name)

theorem pendingFrom_zero (hk : k ≤ 4) (hat : At db (getConnectionSchema options) k) :
    (¬ Blocked mayCreate db (getConnectionSchema options) 0 k →
      Runs mayCreate (pendingFrom options 0) db (getConnectionSchema options) 4) ∧
    (Blocked mayCreate db (getConnectionSchema options) 0 k →
      Fails mayCreate (pendingFrom options 0) db) := by
  cases mayCreate with
  | false =>
    have hblocked : Blocked false db (getConnectionSchema options) 0 k :=
      Or.inl ⟨rfl, Or.inr rfl⟩
    exact ⟨fun hnot => absurd hblocked hnot,
      fun _ => Fails.append (fails_init_of_denied options db) _⟩
  | true =>
    rcases Nat.eq_zero_or_pos k with rfl | hpos
    · have hsame : Blocked true db (getConnectionSchema options) 0 0 ↔
          OutOfReach true db (getConnectionSchema options) := by
        simp [Blocked, migrations]
      rw [hsame]
      exact completes_init hat
    · have hblocked : Blocked true db (getConnectionSchema options) 0 k :=
        Or.inl ⟨rfl, Or.inl hpos⟩
      refine ⟨fun hnot => absurd hblocked hnot, fun _ => Fails.append (fails_init ?_ hat) _⟩
      simp only [List.mem_cons, List.not_mem_nil, or_false]
      omega

theorem pendingFrom_spec {i : Nat} (hik : i ≤ k) (hk : k ≤ 4)
    (hat : At db (getConnectionSchema options) k) :
    (¬ Blocked mayCreate db (getConnectionSchema options) i k →
      Runs mayCreate (pendingFrom options i) db (getConnectionSchema options) 4) ∧
    (Blocked mayCreate db (getConnectionSchema options) i k →
      Fails mayCreate (pendingFrom options i) db) := by
  have hlater : i ≠ 0 → i < migrations.length →
      (Blocked mayCreate db (getConnectionSchema options) i k ↔
        OutOfReach mayCreate db (getConnectionSchema options)) := by
    intro hzero hlast
    simp only [Blocked, hzero, hlast, false_and, true_and, false_or]
  have hi : i = 0 ∨ i = 1 ∨ i = 2 ∨ i = 3 ∨ i = 4 := by omega
  rcases hi with rfl | rfl | rfl | rfl | rfl
  · exact pendingFrom_zero hk hat
  · rw [hlater (by omega) (by decide)]
    exact completes_cleanup (by simp only [List.mem_cons, List.not_mem_nil, or_false]; omega) hat
  · rw [hlater (by omega) (by decide)]
    exact completes_isActive (by simp only [List.mem_cons, List.not_mem_nil, or_false]; omega) hat
  · rw [hlater (by omega) (by decide)]
    exact completes_search (by simp only [List.mem_cons, List.not_mem_nil, or_false]; omega) hat
  · have hnone : ¬ Blocked mayCreate db (getConnectionSchema options) 4 k := by
      intro hblocked
      rcases hblocked with ⟨hzero, -⟩ | ⟨hlast, -⟩
      · omega
      · exact absurd hlast (by decide)
    obtain rfl : k = 4 := by omega
    exact ⟨fun _ path => ⟨path, db, rfl, Reaches.refl hat⟩, fun hblocked => absurd hblocked hnone⟩

def LongPhone (db : Database) (name : String) : Prop :=
  ∃ table ∈ ["users", "admins"], 20 < db.longest name table "phone"

theorem runs_undo {cs : List Change} (hplain : ∀ c ∈ cs, c.plain = true) (hk : k + 1 ≤ 3)
    (hat : At db (getConnectionSchema options) (k + 1))
    (hexec : Change.execAll cs (stage (k + 1)) = some (stage k)) :
    Runs mayCreate (scopeToConnectionSchema options :: cs.map .change) db
      (getConnectionSchema options) k := by
  have hsame : phoneLimit (k + 1) = phoneLimit k := by
    unfold phoneLimit
    rw [if_pos hk, if_pos (by omega)]
  exact runs_changes hat hexec (fun c hc => db.allows_of_plain _ _ (hplain c hc))
    (hsame ▸ hat.phones)

theorem runs_search_down (hat : At db (getConnectionSchema options) 4)
    (hphones : ¬ LongPhone db (getConnectionSchema options)) :
    Runs mayCreate (AddUserSearchIndexesAndUnifyPhoneLength.down options) db
      (getConnectionSchema options) 3 := by
  have hshort : ∀ table ∈ ["users", "admins"],
      db.longest (getConnectionSchema options) table "phone" ≤ 20 :=
    fun table htable => Nat.le_of_not_lt fun hlong => hphones ⟨table, htable, hlong⟩
  refine runs_changes hat search_down (fun c hc => ?_) hshort
  rcases List.mem_append.1 hc with hc | hc
  · have hplain : ∀ c ∈ dropIndexes, c.plain = true := by decide
    exact db.allows_of_plain _ _ (hplain c hc)
  · rcases List.mem_pair.1 hc with rfl | rfl
    · exact hshort "admins" (by simp)
    · exact hshort "users" (by simp)

theorem fails_search_down (hat : At db (getConnectionSchema options) 4)
    (hphones : LongPhone db (getConnectionSchema options)) :
    Fails mayCreate (AddUserSearchIndexesAndUnifyPhoneLength.down options) db := by
  have hplain : ∀ c ∈ dropIndexes, c.plain = true := by decide
  have hdrop : ∀ c ∈ dropIndexes, c.makesTable = false := by decide
  have hdropAllowed : ∀ c ∈ dropIndexes, db.Allows [getConnectionSchema options, "public"]
      (getConnectionSchema options) c := fun c hc => db.allows_of_plain _ _ (hplain c hc)
  by_cases hadmins : db.longest (getConnectionSchema options) "admins" "phone" ≤ 20
  · have husers : ¬ db.longest (getConnectionSchema options) "users" "phone" ≤ 20 := by
      obtain ⟨table, htable, hlong⟩ := hphones
      rcases List.mem_pair.1 htable with rfl | rfl
      · omega
      · omega
    refine fails_changes (dropIndexes ++ [narrowAdmins]) hat search_down (fun c hc => ?_)
      (fun c hc => ?_) husers
    · rcases List.mem_append.1 hc with hc | hc
      · exact hdropAllowed c hc
      · exact List.mem_singleton.1 hc ▸ hadmins
    · rcases List.mem_append.1 hc with hc | hc
      · exact hdrop c hc
      · exact List.mem_singleton.1 hc ▸ rfl
  · exact fails_changes dropIndexes hat search_down hdropAllowed hdrop hadmins

end Migrations

end NestStarter.Migrations
