import NestStarter.Seeds.Pipeline

/-! # Seeding again

In production a run deletes nothing, fails or not, and the run after a completed one changes no
row. Elsewhere a run leaves the same areas, users and admin whatever stood there, and sequences that
the services can draw from.
-/

namespace NestStarter.Seeds

open NestStarter.Core
open NestStarter.Accounts (NewUser UserEntity AdminEntity)
open NestStarter.Accounts.Provisioning (Failure uniqueViolation)
open NestStarter.Areas (AreaEntity)
open NestStarter.Catalog (CityEntity Rows UserRow tooLong varchar)

section Put

variable {db : Database} {tables : Tables}

theorem Database.put_cases (db : Database) (tables : Tables) :
    ((db.put tables).1 = .ok () ∧ (db.put tables).2.tables = tables) ∨
      (∃ e, (db.put tables).1 = .error e) ∧ (db.put tables).2 = db := by
  unfold put
  split
  · split
    · split
      · split
        · exact Or.inl ⟨rfl, rfl⟩
        · exact Or.inr ⟨⟨_, rfl⟩, rfl⟩
      · exact Or.inr ⟨⟨_, rfl⟩, rfl⟩
    · exact Or.inr ⟨⟨_, rfl⟩, rfl⟩
  · exact Or.inr ⟨⟨_, rfl⟩, rfl⟩

theorem Database.put_ok (db : Database) (tables : Tables) (hconsistent : tables.rows.Consistent)
    (hadmins : AdminsUnique tables.admins) (hids : ∀ c ∈ tables.cities, c.id ≤ 2147483647) :
    db.put tables = (.ok (), { db with
      tables, consistent := hconsistent, adminsUnique := hadmins, cityIds := hids }) := by
  unfold put
  rw [dif_pos hconsistent.clean, dif_pos ⟨hids, hconsistent.ranges⟩,
    dif_pos ⟨hconsistent.unique, hadmins⟩, dif_pos hconsistent.references]

theorem Database.put_tables (db : Database) : db.put db.tables = (.ok (), db) :=
  db.put_ok db.tables db.consistent db.adminsUnique db.cityIds

end Put

/-- No row is deleted, and no row changes but for the columns that a seed sets. -/
structure Persists (t t' : Tables) : Prop where
  cities : t.cities.map CityEntity.id <+: t'.cities.map CityEntity.id
  otherCities : ∀ c ∈ t.cities, c.id ∉ citySeeds.map CityEntity.id → c ∈ t'.cities
  areas : (t.areas.map fun a => (a.id, a.keyEn)) <+: t'.areas.map fun a => (a.id, a.keyEn)
  otherAreas : ∀ a ∈ t.areas, a.keyEn ∉ areaSeeds.map areaUpsert.key → a ∈ t'.areas
  users : t'.users = t.users
  admins : t.admins <+: t'.admins

theorem Persists.refl (t : Tables) : Persists t t :=
  ⟨List.prefix_rfl, fun _ hc _ => hc, List.prefix_rfl, fun _ ha _ => ha, rfl, List.prefix_rfl⟩

theorem Persists.trans {t t' t'' : Tables} (h : Persists t t') (h' : Persists t' t'') :
    Persists t t'' where
  cities := h.cities.trans h'.cities
  otherCities c hc hnot := h'.otherCities c (h.otherCities c hc hnot) hnot
  areas := h.areas.trans h'.areas
  otherAreas a ha hnot := h'.otherAreas a (h.otherAreas a ha hnot) hnot
  users := h'.users.trans h.users
  admins := h.admins.trans h'.admins

/-- A step that deletes nothing, fails or not. -/
def Keeps (m : SeedM Unit) : Prop := ∀ db, Persists db.tables (Procedure.exec m db).2.tables

theorem Keeps.bind {m : SeedM Unit} {f : Unit → SeedM Unit} (h : Keeps m) (hf : Keeps (f ())) :
    Keeps (m >>= f) := by
  intro db
  have hm := h db
  rw [Procedure.exec_bind]
  cases hexec : Procedure.exec m db with
  | mk r db' =>
    rw [hexec] at hm
    cases r with
    | ok u => exact hm.trans (hf db')
    | error e => exact hm

theorem keeps_put (db : Database) {tables : Tables} (h : Persists db.tables tables) :
    Persists db.tables (db.put tables).2.tables := by
  rcases db.put_cases tables with ⟨-, htables⟩ | ⟨-, hdb⟩
  · rw [htables]
    exact h
  · rw [hdb]
    exact Persists.refl _

theorem keeps_upsertCities : Keeps upsertCities := by
  intro db
  rw [upsertCities, Procedure.exec_operation]
  cases hexec : cityUpsert.exec CitiesUnique [] db.tables.cities db.nextCity citySeeds with
  | mk r n =>
    cases r with
    | error e => exact Persists.refl _
    | ok cities =>
      refine keeps_put db { Persists.refl db.tables with
        cities := Keyed.Upsert.prefix_exec (fun _ _ => rfl) hexec
        otherCities := fun c hc hnot =>
          Keyed.Upsert.mem_exec_of_not hc (fun p hp hkey => ?_) hexec }
      exact hnot (List.mem_map.2 ⟨p, hp, hkey.symm⟩)

theorem keeps_setval : Keeps setval := by
  intro db
  rw [setval, Procedure.exec_operation]
  cases (db.tables.cities.map CityEntity.id).max? <;> exact Persists.refl _

theorem keeps_seedAreas : Keeps seedAreas := by
  intro db
  rw [seedAreas, Procedure.exec_operation]
  cases hexec : areaUpsert.exec AreasUnique [] db.tables.areas db.nextArea areaSeeds with
  | mk r n =>
    cases r with
    | error e => exact Persists.refl _
    | ok areas =>
      refine keeps_put { db with nextArea := n } { Persists.refl db.tables with
        areas := Keyed.Upsert.prefix_exec (fun _ _ => rfl) hexec
        otherAreas := fun a ha hnot => Keyed.Upsert.mem_exec_of_not ha (fun p hp hkey => ?_) hexec }
      exact hnot (List.mem_map.2 ⟨p, hp, hkey.symm⟩)

theorem keeps_seedAdmin (run : Run) : Keeps (seedAdmin run) := by
  intro db
  rw [seedAdmin, Procedure.exec_bind, findByUsername, Procedure.exec_operation]
  cases db.tables.admins.find? fun a => a.username = run.username with
  | some a => exact Persists.refl _
  | none =>
    change Persists db.tables (Procedure.exec (insertAdmin run) db).2.tables
    rw [insertAdmin, Procedure.exec_operation]
    cases run.stored db.nextAdmin with
    | none => exact Persists.refl _
    | some admin =>
      exact keeps_put { db with nextAdmin := db.nextAdmin + 1 }
        { Persists.refl db.tables with admins := List.prefix_append _ _ }

/-! ## Production -/

theorem bootstrap_production (run : Run) :
    bootstrap (some "production") run = (do
      clear .production
      seedCities
      seedAreas
      seedAdmin run
      pure ()) := rfl

theorem keeps_production (run : Run) : Keeps (bootstrap (some "production") run) := by
  have hclear : Keeps (clear .production) := fun db => Persists.refl db.tables
  have hpure : Keeps (pure ()) := fun db => Persists.refl db.tables
  rw [bootstrap_production]
  refine hclear.bind (Keeps.bind ?_ (keeps_seedAreas.bind ((keeps_seedAdmin run).bind hpure)))
  exact keeps_upsertCities.bind keeps_setval

/-- What a completed run has left. -/
structure Seeded (username : String) (t : Tables) : Prop where
  cities : ∀ c ∈ citySeeds, cityUpsert.Holds t.cities c
  areas : ∀ s ∈ areaSeeds, areaUpsert.Holds t.areas s
  admin : ∃ a ∈ t.admins, a.username = username

theorem lawful_cityUpsert : cityUpsert.Lawful :=
  ⟨fun _ _ => rfl, fun _ _ h => h, fun _ _ => rfl, fun _ _ => rfl⟩

theorem lawful_areaUpsert : areaUpsert.Lawful :=
  ⟨fun _ _ => rfl, fun _ _ h => h, fun _ _ => rfl, fun _ _ => rfl⟩

theorem lawful_userUpsert (now : Instant) : (userUpsert now).Lawful :=
  ⟨fun _ _ => rfl, fun _ _ _ => rfl, fun _ _ => rfl, fun _ _ => rfl⟩

section Completed

variable {m : SeedM Unit} {f : Unit → SeedM Unit} {db db' : Database}

theorem exec_bind_eq_ok (h : Procedure.exec (m >>= f) db = (.ok (), db')) :
    ∃ db₁, Procedure.exec m db = (.ok (), db₁) ∧ Procedure.exec (f ()) db₁ = (.ok (), db') := by
  rw [Procedure.exec_bind] at h
  cases hexec : Procedure.exec m db with
  | mk r db₁ =>
    rw [hexec] at h
    cases r with
    | ok u => exact ⟨db₁, rfl, h⟩
    | error e => simp at h

theorem tables_of_put {tables : Tables} (h : db.put tables = (.ok (), db')) :
    db'.tables = tables := by
  rcases db.put_cases tables with ⟨-, htables⟩ | ⟨⟨e, he⟩, -⟩
  · rw [h] at htables
    exact htables
  · rw [h] at he
    cases he

theorem upsertCities_eq_ok (h : Procedure.exec upsertCities db = (.ok (), db')) :
    (∀ c ∈ citySeeds, cityUpsert.Holds db'.tables.cities c) ∧
      db'.tables = { db.tables with cities := db'.tables.cities } := by
  rw [upsertCities, Procedure.exec_operation] at h
  cases hexec : cityUpsert.exec CitiesUnique [] db.tables.cities db.nextCity citySeeds with
  | mk r n =>
    rw [hexec] at h
    cases r with
    | error e => simp at h
    | ok cities =>
      have htables := tables_of_put h
      rw [htables]
      exact ⟨(lawful_cityUpsert.holds_of_exec db.consistent.unique.1 hexec).2.1, rfl⟩

theorem setval_eq_ok (h : Procedure.exec setval db = (.ok (), db')) : db'.tables = db.tables := by
  rw [setval, Procedure.exec_operation] at h
  cases hmax : (db.tables.cities.map CityEntity.id).max? with
  | none =>
    rw [hmax] at h
    cases h
    rfl
  | some id =>
    rw [hmax] at h
    cases h
    rfl

theorem seedAreas_eq_ok (h : Procedure.exec seedAreas db = (.ok (), db')) :
    (∀ s ∈ areaSeeds, areaUpsert.Holds db'.tables.areas s) ∧
      db'.tables = { db.tables with areas := db'.tables.areas } := by
  rw [seedAreas, Procedure.exec_operation] at h
  cases hexec : areaUpsert.exec AreasUnique [] db.tables.areas db.nextArea areaSeeds with
  | mk r n =>
    rw [hexec] at h
    cases r with
    | error e => simp at h
    | ok areas =>
      have htables := tables_of_put h
      rw [htables]
      exact ⟨(lawful_areaUpsert.holds_of_exec db.consistent.unique.2.1 hexec).2.1, rfl⟩

theorem username_of_stored {run : Run} (hlength : run.username.length ≤ 64) {id : Nat}
    {admin : AdminEntity} (h : run.stored id = some admin) : admin.username = run.username := by
  have hvarchar : varchar 64 run.username = some run.username := if_pos hlength
  simp only [Run.stored, hvarchar, Option.bind_eq_bind, Option.bind_some,
    Option.bind_eq_some_iff] at h
  obtain ⟨firstName, -, lastName, -, h⟩ := h
  cases h
  rfl

theorem seedAdmin_eq_ok {run : Run} (h : Procedure.exec (seedAdmin run) db = (.ok (), db')) :
    (run.username.length ≤ 64 → ∃ a ∈ db'.tables.admins, a.username = run.username) ∧
      db'.tables = { db.tables with admins := db'.tables.admins } := by
  rw [seedAdmin, Procedure.exec_bind, findByUsername, Procedure.exec_operation] at h
  cases hfind : db.tables.admins.find? fun a => a.username = run.username with
  | some a =>
    rw [hfind] at h
    cases h
    exact ⟨fun _ => ⟨a, List.mem_of_find?_eq_some hfind, by simpa using List.find?_some hfind⟩,
      rfl⟩
  | none =>
    rw [hfind] at h
    change Procedure.exec (insertAdmin run) db = (.ok (), db') at h
    rw [insertAdmin, Procedure.exec_operation] at h
    cases hstored : run.stored db.nextAdmin with
    | none =>
      rw [hstored] at h
      cases h
    | some admin =>
      rw [hstored] at h
      have htables := tables_of_put h
      rw [htables]
      exact ⟨fun hlength => ⟨admin, by simp, username_of_stored hlength hstored⟩, rfl⟩

/-- A completed run leaves everything that it seeds. -/
theorem seeded_of_production {run : Run} (hlength : run.username.length ≤ 64)
    (h : Procedure.exec (bootstrap (some "production") run) db = (.ok (), db')) :
    Seeded run.username db'.tables := by
  rw [bootstrap_production] at h
  obtain ⟨db₀, hclear, h⟩ := exec_bind_eq_ok h
  obtain ⟨db₂, hcities, h⟩ := exec_bind_eq_ok h
  obtain ⟨db₃, hareas, h⟩ := exec_bind_eq_ok h
  obtain ⟨db₄, hadmin, h⟩ := exec_bind_eq_ok h
  obtain ⟨db₁, hupsert, hset⟩ := exec_bind_eq_ok (m := upsertCities) (f := fun _ => setval) hcities
  cases h
  have hcities₂ := (upsertCities_eq_ok hupsert).1
  rw [← setval_eq_ok hset] at hcities₂
  obtain ⟨hareas₃, hframe₃⟩ := seedAreas_eq_ok hareas
  obtain ⟨hadmin₄, hframe₄⟩ := seedAdmin_eq_ok hadmin
  rw [hframe₄]
  refine ⟨?_, hareas₃, hadmin₄ hlength⟩
  rw [hframe₃]
  exact hcities₂

end Completed

theorem citySeeds_sound :
    (citySeeds.map cityUpsert.key).Nodup ∧
      (∀ c ∈ citySeeds, Catalog.CleanText c.nameEn ∧ Catalog.CleanText c.nameAr) ∧
        ∀ s ∈ citySeeds, ∀ s' ∈ citySeeds, s.id ≠ s'.id →
          s.nameEn ≠ s'.nameEn ∧ s.nameAr ≠ s'.nameAr := by decide +kernel

-- names are compared within a city, and texts searched by bytes
theorem areaSeeds_sound :
    areaSeeds.length = 210 ∧ (∀ s ∈ areaSeeds, s.cityId ∈ citySeeds.map CityEntity.id) ∧
      (∀ id ∈ citySeeds.map CityEntity.id,
        ((areaSeeds.filter fun s => s.cityId = id).map AreaSeed.nameEn).Nodup ∧
          ((areaSeeds.filter fun s => s.cityId = id).map AreaSeed.nameAr).Nodup) ∧
        ∀ s ∈ areaSeeds, s.nameEn.toByteArray.data.toList.all (· != 0) = true ∧
          s.nameAr.toByteArray.data.toList.all (· != 0) = true := by decide +kernel

theorem userSeeds_sound :
    (userSeeds.map fun s => s.phone).Nodup ∧ (∀ s ∈ userSeeds, Catalog.CleanText s.phone) ∧
      ∀ s ∈ userSeeds, ∃ c ∈ citySeeds, s.cityId = some c.id := by decide +kernel

theorem nodup_areaSeeds : (areaSeeds.map areaUpsert.key).Nodup :=
  Keyed.nodup_map_pair _ areaSeeds_sound.2.1 fun id hid => (areaSeeds_sound.2.2.1 id hid).1

theorem nodup_areaSeeds_ar : (areaSeeds.map fun s => (s.cityId, s.nameAr)).Nodup :=
  Keyed.nodup_map_pair _ areaSeeds_sound.2.1 fun id hid => (areaSeeds_sound.2.2.1 id hid).2

section Again

variable {db : Database} {username : String}

theorem exec_upsertCities_of_seeded (h : Seeded username db.tables) :
    Procedure.exec upsertCities db = (.ok (), db) := by
  rw [upsertCities, Procedure.exec_operation,
    Keyed.Upsert.exec_of_holds db.consistent.unique.1 h.cities citySeeds_sound.1 (by simp)]
  exact db.put_tables

theorem exec_seedAreas_of_seeded (h : Seeded username db.tables) :
    ∃ db', Procedure.exec seedAreas db = (.ok (), db') ∧ db'.tables = db.tables := by
  rw [seedAreas, Procedure.exec_operation,
    Keyed.Upsert.exec_of_holds db.consistent.unique.2.1 h.areas nodup_areaSeeds (by simp)]
  exact ⟨_, Database.put_tables { db with nextArea := _ }, rfl⟩

theorem exec_seedAdmin_of_seeded {run : Run} (h : Seeded run.username db.tables) :
    Procedure.exec (seedAdmin run) db = (.ok (), db) := by
  obtain ⟨a, ha, hname⟩ := h.admin
  have hfind : (db.tables.admins.find? fun a => a.username = run.username).isSome := by
    rw [List.find?_isSome]
    exact ⟨a, ha, by simpa using hname⟩
  rw [seedAdmin, Procedure.exec_bind, findByUsername, Procedure.exec_operation]
  simp only [hfind, if_true]
  rfl

theorem exec_production_of_seeded {run : Run} (h : Seeded run.username db.tables) :
    ∃ db', Procedure.exec (bootstrap (some "production") run) db = (.ok (), db') ∧
      db'.tables = db.tables := by
  obtain ⟨db₁, hset, htables₁⟩ :
      ∃ db₁, Procedure.exec setval db = (.ok (), db₁) ∧ db₁.tables = db.tables := by
    rw [setval, Procedure.exec_operation]
    cases (db.tables.cities.map CityEntity.id).max? with
    | none => exact ⟨_, rfl, rfl⟩
    | some id => exact ⟨_, rfl, rfl⟩
  have h₁ : Seeded run.username db₁.tables := htables₁ ▸ h
  obtain ⟨db₂, hareas, htables₂⟩ := exec_seedAreas_of_seeded h₁
  have h₂ : Seeded run.username db₂.tables := htables₂ ▸ h₁
  have hcities : Procedure.exec seedCities db = (.ok (), db₁) := by
    rw [seedCities, Procedure.exec_bind, exec_upsertCities_of_seeded h]
    exact hset
  refine ⟨db₂, ?_, htables₂.trans htables₁⟩
  have hclear : Procedure.exec (clear .production) db = (.ok (), db) := rfl
  rw [bootstrap_production]
  simp only [Procedure.exec_bind, hclear, hcities, hareas, exec_seedAdmin_of_seeded h₂]
  rfl

end Again

/-- In production a run deletes nothing, and the run after a completed one changes no row. -/
theorem production_again (run : Run) (db : Database) :
    Persists db.tables (Procedure.exec (bootstrap (some "production") run) db).2.tables ∧
      ((Procedure.exec (bootstrap (some "production") run) db).1 = .ok () →
        run.username.length ≤ 64 → ∀ later : Run, later.username = run.username →
          ∃ db', Procedure.exec (bootstrap (some "production") later)
              (Procedure.exec (bootstrap (some "production") run) db).2 = (.ok (), db') ∧
            db'.tables = (Procedure.exec (bootstrap (some "production") run) db).2.tables) := by
  refine ⟨keeps_production run db, fun hok hlength later hname => ?_⟩
  refine exec_production_of_seeded ?_
  rw [hname]
  exact seeded_of_production hlength (Prod.ext hok rfl)

/-! ## Elsewhere -/

def numberedAreas : List AreaEntity := areaUpsert.number 1 areaSeeds

def numberedUsers (now : Instant) : List UserEntity := (userUpsert now).number 1 userSeeds

theorem areaIds_numberedAreas : numberedAreas.map AreaEntity.id = List.range' 1 areaSeeds.length :=
  Keyed.Upsert.map_number_id (fun _ _ => rfl) rfl 1 areaSeeds

theorem id_lt_of_mem_numberedAreas : ∀ a ∈ numberedAreas, a.id < 211 := by
  intro a ha
  have hid := List.mem_map_of_mem (f := AreaEntity.id) ha
  rw [areaIds_numberedAreas, areaSeeds_sound.1, List.mem_range'_1] at hid
  omega

theorem areasUnique_numberedAreas : AreasUnique numberedAreas := by
  refine ⟨?_, ?_, ?_⟩
  · show (numberedAreas.map AreaEntity.id).Nodup
    rw [areaIds_numberedAreas]
    exact List.nodup_range'
  · show (numberedAreas.map AreaEntity.keyEn).Nodup
    rw [numberedAreas, Keyed.Upsert.map_number (f := areaUpsert.key) fun _ _ => rfl]
    exact nodup_areaSeeds
  · show (numberedAreas.map AreaEntity.keyAr).Nodup
    rw [numberedAreas, Keyed.Upsert.map_number (f := fun s => (s.cityId, s.nameAr)) fun _ _ => rfl]
    exact nodup_areaSeeds_ar

theorem AreasUnique.mono {areas areas' : List AreaEntity} (h : AreasUnique areas')
    (hpre : areas <+: areas') : AreasUnique areas :=
  ⟨h.1.sublist (hpre.sublist.map _), h.2.1.sublist (hpre.sublist.map _),
    h.2.2.sublist (hpre.sublist.map _)⟩

theorem userIds_numberedUsers (now : Instant) :
    ((numberedUsers now).map shortRow).map UserRow.id = List.range' 1 5 := rfl

theorem id_lt_of_mem_numberedUsers (now : Instant) :
    ∀ u ∈ (numberedUsers now).map shortRow, u.id < 6 := by
  intro u hu
  have hid := List.mem_map_of_mem (f := UserRow.id) hu
  rw [userIds_numberedUsers, List.mem_range'_1] at hid
  omega

theorem usersUnique_numberedUsers (now : Instant) : UsersUnique (numberedUsers now) := by
  have hphones : ((numberedUsers now).map shortRow).map UserRow.phone =
      userSeeds.map fun s => s.phone := rfl
  refine ⟨?_, ?_⟩
  · show (((numberedUsers now).map shortRow).map UserRow.id).Nodup
    rw [userIds_numberedUsers]
    exact List.nodup_range'
  · show (((numberedUsers now).map shortRow).map UserRow.phone).Nodup
    rw [hphones]
    exact userSeeds_sound.1

theorem UsersUnique.mono {users users' : List UserEntity} (h : UsersUnique users')
    (hpre : users <+: users') : UsersUnique users :=
  ⟨h.1.sublist ((hpre.sublist.map _).map _), h.2.sublist ((hpre.sublist.map _).map _)⟩

theorem cleanText_of_bytes {s : String} (h : s.toByteArray.data.toList.all (· != 0) = true) :
    Catalog.CleanText s := by
  intro hmem
  have hzero : (0 : UInt8) ∈ s.toByteArray.data.toList := by
    rw [← String.utf8Encode_toList, List.utf8Encode, List.data_toByteArray, List.toList_toArray]
    exact List.mem_flatMap.2 ⟨Char.ofNat 0, hmem, by decide⟩
  have hne := List.all_eq_true.1 h 0 hzero
  simp at hne

section Reset

variable {db : Database}

theorem exec_clear {environment : AppEnvironment} (henv : environment ≠ .production)
    (db : Database) :
    ∃ db', Procedure.exec (clear environment) db = (.ok (), db') ∧
      db'.tables = { cities := db.tables.cities } ∧
      db'.nextCity = db.nextCity ∧ db'.nextArea = 1 ∧ db'.nextUser = 1 ∧ db'.nextAdmin = 1 := by
  let tables : Tables := { cities := db.tables.cities }
  have hconsistent : tables.rows.Consistent :=
    ⟨⟨db.consistent.clean.1, by simp [tables, Tables.rows], by simp [tables, Tables.rows]⟩,
      ⟨by simp [tables, Tables.rows], by simp [tables, Tables.rows]⟩,
      ⟨db.consistent.unique.1, ⟨List.nodup_nil, List.nodup_nil, List.nodup_nil⟩,
        List.nodup_nil, List.nodup_nil⟩,
      by simp [tables, Tables.rows], by simp [tables, Tables.rows]⟩
  rw [clear, if_neg henv, Procedure.exec_operation,
    Database.put_ok _ _ hconsistent ⟨List.nodup_nil, List.nodup_nil⟩ db.cityIds]
  exact ⟨_, rfl, rfl, rfl, rfl, rfl, rfl⟩

theorem mem_of_holds {cities : List CityEntity} {c : CityEntity} (h : cityUpsert.Holds cities c) :
    c ∈ cities := by
  obtain ⟨⟨a, ha, hkey⟩, hset⟩ := h
  have hid : a.id = c.id := hkey
  have hnames : { a with nameEn := c.nameEn, nameAr := c.nameAr } = a := hset a ha hkey
  have heq : c = a := by rw [← hnames, hid]
  exact heq ▸ ha

/-- What the upsert of the cities leaves can be written. -/
theorem consistent_upsertCities {cities : List CityEntity} {n : Nat}
    (hexec : cityUpsert.exec CitiesUnique [] db.tables.cities db.nextCity citySeeds =
      (.ok cities, n)) :
    ({ db.tables with cities } : Tables).rows.Consistent ∧ ∀ c ∈ cities, c.id ≤ 2147483647 := by
  have hclean := citySeeds_sound.2.1
  have hids : ∀ c ∈ citySeeds, c.id ≤ 2147483647 := by decide
  have hpre : db.tables.cities.map CityEntity.id <+: cities.map CityEntity.id :=
    Keyed.Upsert.prefix_exec (fun _ _ => rfl) hexec
  have hhas : ∀ {cityId : Nat}, db.tables.rows.HasCity cityId →
      ({ db.tables with cities } : Tables).rows.HasCity cityId :=
    fun h => h.of_ids fun id hid => hpre.subset hid
  refine ⟨⟨⟨?_, db.consistent.clean.2⟩, db.consistent.ranges, ⟨?_, db.consistent.unique.2⟩, ?_, ?_⟩,
    ?_⟩
  · exact Keyed.Upsert.forall_exec (P := fun c => Catalog.CleanText c.nameEn ∧
      Catalog.CleanText c.nameAr) (fun _ c hc => hclean c hc) (fun _ c hc _ => hclean c hc)
      db.consistent.clean.1 hexec
  · exact (lawful_cityUpsert.holds_of_exec db.consistent.unique.1 hexec).1
  · exact fun a ha => hhas (db.consistent.references.1 a ha)
  · exact fun u hu cityId hcity => hhas (db.consistent.references.2 u hu cityId hcity)
  · refine Keyed.Upsert.forall_exec (P := fun c => c.id ≤ 2147483647) (fun _ c hc => hids c hc)
      (fun a c hc hkey => ?_) db.cityIds hexec
    have hid : a.id = c.id := hkey
    exact hid ▸ hids c hc

theorem exec_setval (db : Database) {c : CityEntity} (hc : c ∈ db.tables.cities) :
    ∃ db', Procedure.exec setval db = (.ok (), db') ∧ db'.tables = db.tables ∧
      (∀ c ∈ db.tables.cities, c.id < db'.nextCity) ∧ db'.nextCity ≤ 2147483648 ∧
      db'.nextArea = db.nextArea ∧ db'.nextUser = db.nextUser ∧ db'.nextAdmin = db.nextAdmin := by
  rw [setval, Procedure.exec_operation]
  cases hmax : (db.tables.cities.map CityEntity.id).max? with
  | none =>
    rw [List.max?_eq_none_iff] at hmax
    exact absurd (List.mem_map_of_mem hc) (hmax ▸ List.not_mem_nil)
  | some id =>
    rw [List.max?_eq_some_iff] at hmax
    obtain ⟨d, hd, hid⟩ := List.mem_map.1 hmax.1
    have hbound := db.cityIds d hd
    refine ⟨_, rfl, rfl, fun c hc => ?_, ?_, rfl, rfl, rfl⟩
    · have hle := hmax.2 c.id (List.mem_map_of_mem hc)
      show c.id < id + 1
      omega
    · show id + 1 ≤ 2147483648
      omega

/-- The seeds are there, and beside them each city that was, as it was under an id of no seed. -/
structure CitiesSeeded (cities cities' : List CityEntity) : Prop where
  ids : cities.map CityEntity.id <+: cities'.map CityEntity.id
  others : ∀ c ∈ cities, c.id ∉ citySeeds.map CityEntity.id → c ∈ cities'
  seeds : ∀ c ∈ citySeeds, c ∈ cities'

/-- `seedCities` ends with the upsert, if it goes through, and the sequence past every id. -/
theorem exec_seedCities (db : Database) :
    (∃ db', Procedure.exec seedCities db = (.ok (), db') ∧
      db'.tables = { db.tables with cities := db'.tables.cities } ∧
      CitiesSeeded db.tables.cities db'.tables.cities ∧
      (∀ c ∈ db'.tables.cities, c.id < db'.nextCity) ∧ db'.nextCity ≤ 2147483648 ∧
      db'.nextArea = db.nextArea ∧ db'.nextUser = db.nextUser ∧ db'.nextAdmin = db.nextAdmin) ∨
    ∃ e, (cityUpsert.exec CitiesUnique [] db.tables.cities db.nextCity citySeeds).1 = .error e ∧
      Procedure.exec seedCities db = (.error (refusal e), db) := by
  cases hexec : cityUpsert.exec CitiesUnique [] db.tables.cities db.nextCity citySeeds with
  | mk r n =>
    cases r with
    | error e =>
      refine Or.inr ⟨e, rfl, ?_⟩
      rw [seedCities, Procedure.exec_bind, upsertCities, Procedure.exec_operation, hexec]
    | ok cities =>
      obtain ⟨hconsistent, hids⟩ := consistent_upsertCities hexec
      have hput := db.put_ok { db.tables with cities } hconsistent db.adminsUnique hids
      have hholds := (lawful_cityUpsert.holds_of_exec db.consistent.unique.1 hexec).2.1
      have hseeded : CitiesSeeded db.tables.cities cities :=
        { ids := Keyed.Upsert.prefix_exec (fun _ _ => rfl) hexec
          others := fun c hc hnot => Keyed.Upsert.mem_exec_of_not hc
            (fun p hp hkey => hnot (List.mem_map.2 ⟨p, hp, hkey.symm⟩)) hexec
          seeds := fun c hc => mem_of_holds (hholds c hc) }
      have hfirst : (⟨1, "Damascus", "دمشق"⟩ : CityEntity) ∈ cities :=
        hseeded.seeds _ List.mem_cons_self
      obtain ⟨db', hset, htables, hlast, hbound, hsequences⟩ := exec_setval
        { db with
          tables := { db.tables with cities }
          consistent := hconsistent
          adminsUnique := db.adminsUnique
          cityIds := hids } hfirst
      refine Or.inl ⟨db', ?_, ?_, ?_, ?_, hbound, hsequences⟩
      · rw [seedCities, Procedure.exec_bind, upsertCities, Procedure.exec_operation, hexec]
        simp only [hput]
        exact hset
      · rw [htables]
      · rw [htables]
        exact hseeded
      · rw [htables]
        exact hlast

theorem exec_seedAreas_of_empty (hareas : db.tables.areas = []) (hnext : db.nextArea = 1)
    (hcities : ∀ c ∈ citySeeds, c ∈ db.tables.cities) :
    ∃ db', Procedure.exec seedAreas db = (.ok (), db') ∧
      db'.tables = { db.tables with areas := numberedAreas } ∧ db'.nextArea = 211 ∧
      db'.nextCity = db.nextCity ∧ db'.nextUser = db.nextUser ∧ db'.nextAdmin = db.nextAdmin := by
  have hbytes := areaSeeds_sound.2.2.2
  have hclean : ∀ s ∈ areaSeeds, Catalog.CleanText s.nameEn ∧ Catalog.CleanText s.nameAr :=
    fun s hs => ⟨cleanText_of_bytes (hbytes s hs).1, cleanText_of_bytes (hbytes s hs).2⟩
  have hexec : areaUpsert.exec AreasUnique [] [] 1 areaSeeds = (.ok numberedAreas, 211) := by
    have hlast : areaUpsert.next^[areaSeeds.length] 1 = 211 := by
      rw [Keyed.Upsert.iterate_next rfl, areaSeeds_sound.1]
    rw [← hlast]
    refine lawful_areaUpsert.exec_append (fun ss hss => ?_) nodup_areaSeeds (by simp) (by simp)
    exact areasUnique_numberedAreas.mono (Keyed.Upsert.number_mono hss 1)
  have hconsistent : ({ db.tables with areas := numberedAreas } : Tables).rows.Consistent := by
    refine ⟨⟨db.consistent.clean.1, fun a ha => ?_, db.consistent.clean.2.2⟩,
      ⟨fun a ha => ?_, db.consistent.ranges.2⟩,
      ⟨db.consistent.unique.1, areasUnique_numberedAreas, db.consistent.unique.2.2⟩,
      fun a ha => ?_, db.consistent.references.2⟩
    · obtain ⟨n, s, hs, rfl⟩ := Keyed.Upsert.mem_number ha
      exact hclean s hs
    · obtain ⟨n, s, hs, rfl⟩ := Keyed.Upsert.mem_number ha
      obtain ⟨c, hc, hid⟩ := List.mem_map.1 (areaSeeds_sound.2.1 s hs)
      exact le_of_eq_of_le hid.symm (db.cityIds c (hcities c hc))
    · obtain ⟨n, s, hs, rfl⟩ := Keyed.Upsert.mem_number ha
      obtain ⟨c, hc, hid⟩ := List.mem_map.1 (areaSeeds_sound.2.1 s hs)
      exact ⟨c, hcities c hc, hid⟩
  rw [seedAreas, Procedure.exec_operation, hareas, hnext, hexec]
  exact ⟨_, Database.put_ok _ _ hconsistent db.adminsUnique db.cityIds, rfl, rfl, rfl, rfl, rfl⟩

theorem exec_seedAdmin_of_empty (run : Run) (hadmins : db.tables.admins = []) :
    Procedure.exec (seedAdmin run) db = Procedure.exec (insertAdmin run) db := by
  have hfind : Procedure.exec (findByUsername run.username) db = (.ok none, db) := by
    rw [findByUsername, Procedure.exec_operation, hadmins]
    rfl
  rw [seedAdmin, Procedure.exec_bind, hfind]
  rfl

theorem exec_insertAdmin_of_stored {run : Run} {admin : AdminEntity}
    (hadmins : db.tables.admins = []) (hstored : run.stored db.nextAdmin = some admin) :
    ∃ db', Procedure.exec (insertAdmin run) db = (.ok (), db') ∧
      db'.tables = { db.tables with admins := [admin] } ∧ db'.nextArea = db.nextArea ∧
      db'.nextCity = db.nextCity ∧ db'.nextUser = db.nextUser ∧
      db'.nextAdmin = db.nextAdmin + 1 := by
  have hunique : AdminsUnique [admin] := ⟨List.nodup_singleton _, List.nodup_singleton _⟩
  have hput := Database.put_ok { db with nextAdmin := db.nextAdmin + 1 }
    { db.tables with admins := [admin] } db.consistent hunique db.cityIds
  rw [insertAdmin, Procedure.exec_operation, hstored, hadmins]
  exact ⟨_, hput, rfl, rfl, rfl, rfl, rfl⟩

theorem exec_insertAdmin_of_tooLong {run : Run} (hstored : run.stored db.nextAdmin = none) :
    Procedure.exec (insertAdmin run) db = (.error tooLong, db) := by
  rw [insertAdmin, Procedure.exec_operation, hstored]

theorem exec_seedUsers_of_empty (run : Run) (husers : db.tables.users = [])
    (hnext : db.nextUser = 1) (hcities : ∀ c ∈ citySeeds, c ∈ db.tables.cities) :
    ∃ db', Procedure.exec (seedUsers run) db = (.ok (), db') ∧
      db'.tables = { db.tables with users := numberedUsers run.now } ∧ db'.nextUser = 6 ∧
      db'.nextCity = db.nextCity ∧ db'.nextArea = db.nextArea ∧ db'.nextAdmin = db.nextAdmin := by
  obtain ⟨hphones, hclean, hseeded⟩ := userSeeds_sound
  have hkeys : (userSeeds.map (userUpsert run.now).key).Nodup := hphones
  have hexec : (userUpsert run.now).exec UsersUnique [] [] 1 userSeeds =
      (.ok (numberedUsers run.now), 6) := by
    refine (lawful_userUpsert run.now).exec_append (fun ss hss => ?_) hkeys (by simp) (by simp)
    exact (usersUnique_numberedUsers run.now).mono (Keyed.Upsert.number_mono hss 1)
  have hconsistent :
      ({ db.tables with users := numberedUsers run.now } : Tables).rows.Consistent := by
    refine ⟨⟨db.consistent.clean.1, db.consistent.clean.2.1, fun u hu => ?_⟩,
      ⟨db.consistent.ranges.1, fun u hu city hcity => ?_⟩,
      ⟨db.consistent.unique.1, db.consistent.unique.2.1, usersUnique_numberedUsers run.now⟩,
      db.consistent.references.1, fun u hu city hcity => ?_⟩
    · obtain ⟨v, hv, rfl⟩ := List.mem_map.1 hu
      obtain ⟨n, s, hs, rfl⟩ := Keyed.Upsert.mem_number hv
      exact hclean s hs
    · obtain ⟨v, hv, rfl⟩ := List.mem_map.1 hu
      obtain ⟨n, s, hs, rfl⟩ := Keyed.Upsert.mem_number hv
      obtain ⟨c, hc, hid⟩ := hseeded s hs
      exact Option.some.inj (hid.symm.trans hcity) ▸ db.cityIds c (hcities c hc)
    · obtain ⟨v, hv, rfl⟩ := List.mem_map.1 hu
      obtain ⟨n, s, hs, rfl⟩ := Keyed.Upsert.mem_number hv
      obtain ⟨c, hc, hid⟩ := hseeded s hs
      exact ⟨c, hcities c hc, Option.some.inj (hid.symm.trans hcity)⟩
  rw [seedUsers, Procedure.exec_operation, husers, hnext, hexec]
  exact ⟨_, Database.put_ok _ _ hconsistent db.adminsUnique db.cityIds, rfl, rfl, rfl, rfl, rfl⟩

end Reset

/-- A stored city has a name of a seed, under another id. -/
def Clash (cities : List CityEntity) : Prop :=
  ∃ c ∈ cities, ∃ s ∈ citySeeds, c.id ≠ s.id ∧ (c.nameEn = s.nameEn ∨ c.nameAr = s.nameAr)

instance : DecidablePred Clash := fun cities => List.decidableBEx _ cities

/-- One seed among cities that are not in the way. -/
theorem citiesUnique_put {cities : List CityEntity} (hunique : CitiesUnique cities)
    (hclash : ¬ Clash cities) {s : CityEntity} (hs : s ∈ citySeeds) (n : Nat) :
    CitiesUnique (cityUpsert.put cities n s) ∧ ¬ Clash (cityUpsert.put cities n s) := by
  obtain ⟨hids, hEn, hAr⟩ := hunique
  have hsEn : ∀ c ∈ cities, c.id ≠ s.id → c.nameEn ≠ s.nameEn :=
    fun c hc hne heq => hclash ⟨c, hc, s, hs, hne, Or.inl heq⟩
  have hsAr : ∀ c ∈ cities, c.id ≠ s.id → c.nameAr ≠ s.nameAr :=
    fun c hc hne heq => hclash ⟨c, hc, s, hs, hne, Or.inr heq⟩
  -- a row with the id and the names of the seed is in no other seed's way
  have hself : ∀ s' ∈ citySeeds, s.id ≠ s'.id → ¬ (s.nameEn = s'.nameEn ∨ s.nameAr = s'.nameAr) :=
    fun s' hs' hne heq => heq.elim (citySeeds_sound.2.2 s hs s' hs' hne).1
      (citySeeds_sound.2.2 s hs s' hs' hne).2
  unfold Keyed.Upsert.put
  split
  · have hmap : (Keyed.alter CityEntity.id s.id (cityUpsert.set · s) cities).map CityEntity.id =
        cities.map CityEntity.id := Keyed.map_alter fun _ _ _ => rfl
    refine ⟨⟨?_, ?_, ?_⟩, fun hnew => ?_⟩
    · exact hmap.symm ▸ hids
    · exact Keyed.nodup_map_alter hids hEn fun _ _ _ b hb hbk => hsEn b hb hbk
    · exact Keyed.nodup_map_alter hids hAr fun _ _ _ b hb hbk => hsAr b hb hbk
    · obtain ⟨c, hc, s', hs', hne, hname⟩ := hnew
      rcases Keyed.mem_alter.1 hc with ⟨b, -, hb, rfl⟩ | ⟨hc, -⟩
      · have hid : b.id = s.id := hb
        exact hself s' hs' (fun h => hne (hid.trans h)) hname
      · exact hclash ⟨c, hc, s', hs', hne, hname⟩
  · next hnone =>
    have hnew : ∀ c ∈ cities, c.id ≠ s.id := fun c hc hid => hnone ⟨c, hc, hid⟩
    refine ⟨⟨?_, ?_, ?_⟩, fun hnew => ?_⟩
    · exact Keyed.nodup_map_concat hids hnew
    · exact Keyed.nodup_map_concat hEn fun c hc => hsEn c hc (hnew c hc)
    · exact Keyed.nodup_map_concat hAr fun c hc => hsAr c hc (hnew c hc)
    · obtain ⟨c, hc, s', hs', hne, hname⟩ := hnew
      rcases List.mem_append.1 hc with hc | hc
      · exact hclash ⟨c, hc, s', hs', hne, hname⟩
      · rw [List.mem_singleton.1 hc] at hne hname
        exact hself s' hs' hne hname

/-- The upsert of the cities fails only where a city is in the way. -/
theorem clash_of_exec_cities {db : Database} {e : Keyed.Refusal}
    (h : (cityUpsert.exec CitiesUnique [] db.tables.cities db.nextCity citySeeds).1 = .error e) :
    e = .unique ∧ Clash db.tables.cities := by
  constructor
  · exact Keyed.Upsert.exec_eq_error citySeeds_sound.1 (by simp) (Prod.ext h rfl)
  · by_contra hclash
    have hunique : CitiesUnique db.tables.cities := db.consistent.unique.1
    obtain ⟨cities, hok⟩ : ∃ cities, cityUpsert.exec CitiesUnique [] db.tables.cities db.nextCity
        citySeeds = (.ok cities, cityUpsert.next^[citySeeds.length] db.nextCity) :=
      Keyed.Upsert.exec_of_invariant (I := fun cities => CitiesUnique cities ∧ ¬ Clash cities)
        (fun _ hI => hI.1) (fun _ n s hs hI => citiesUnique_put hI.1 hI.2 hs n)
        ⟨hunique, hclash⟩ citySeeds_sound.1 (by simp)
    rw [hok] at h
    cases h

/-- What a run outside production leaves when it completes. -/
structure Reset (run : Run) (t : Tables) (db' : Database) : Prop where
  cities : CitiesSeeded t.cities db'.tables.cities
  areas : db'.tables.areas = numberedAreas
  admin : ∃ admin, run.stored 1 = some admin ∧ db'.tables.admins = [admin]
  users : db'.tables.users = numberedUsers run.now
  ahead : db'.catalog.Ahead
  adminsAhead : ∀ a ∈ db'.tables.admins, a.id < db'.nextAdmin

theorem id_of_stored {run : Run} {id : Nat} {admin : AdminEntity}
    (h : run.stored id = some admin) : admin.id = id := by
  simp only [Run.stored, Option.bind_eq_bind, Option.bind_eq_some_iff, Option.pure_def,
    Option.some.injEq] at h
  obtain ⟨username, -, firstName, -, lastName, -, rfl⟩ := h
  exact AdminEntity.id_hashPasswordOnSave ..

theorem bootstrap_development {nodeEnv : Option String} (h : nodeEnv ≠ some "production")
    (run : Run) :
    ∃ environment : AppEnvironment, environment ≠ .production ∧ bootstrap nodeEnv run = (do
      clear environment
      seedCities
      seedAreas
      seedAdmin run
      seedUsers run
      pure ()) := by
  unfold bootstrap resolveEnvironment
  split
  · exact absurd rfl h
  · exact ⟨.test, by decide, rfl⟩
  · exact ⟨.development, by decide, rfl⟩

/-- Outside production a run leaves the same areas, users and admin whatever stood there, and
sequences past all ids. A city in the way of a seed fails it once the tables are empty, and an
admin whose texts are too long once there are areas. -/
theorem development_run {nodeEnv : Option String} (h : nodeEnv ≠ some "production") (run : Run)
    (db : Database) :
    (∃ db', Procedure.exec (bootstrap nodeEnv run) db = (.ok (), db') ∧ Reset run db.tables db') ∨
      (Clash db.tables.cities ∧ ∃ db',
        Procedure.exec (bootstrap nodeEnv run) db = (.error uniqueViolation, db') ∧
          db'.tables = { cities := db.tables.cities }) ∨
      run.stored 1 = none ∧ ∃ db',
        Procedure.exec (bootstrap nodeEnv run) db = (.error tooLong, db') ∧
          db'.tables = { cities := db'.tables.cities, areas := numberedAreas } ∧
          CitiesSeeded db.tables.cities db'.tables.cities := by
  obtain ⟨environment, henv, hbootstrap⟩ := bootstrap_development h run
  obtain ⟨db₁, hclear, htables₁, hcity₁, harea₁, huser₁, hadmin₁⟩ := exec_clear henv db
  rw [hbootstrap, Procedure.exec_bind, hclear]
  rcases exec_seedCities db₁ with
    ⟨db₂, hcities, htables₂, hseeded, hlast, hbound, harea₂, huser₂, hadmin₂⟩ | ⟨e, he, herror⟩
  · rw [htables₁] at hseeded
    obtain ⟨db₃, hareas, htables₃, harea₃, hcity₃, huser₃, hadmin₃⟩ := exec_seedAreas_of_empty
      (by rw [htables₂, htables₁]) (harea₂.trans harea₁) hseeded.seeds
    have hadmins₃ : db₃.tables.admins = [] := by rw [htables₃, htables₂, htables₁]
    have hinsert := exec_seedAdmin_of_empty run hadmins₃
    have hnextAdmin : db₃.nextAdmin = 1 := hadmin₃.trans (hadmin₂.trans hadmin₁)
    cases hstored : run.stored 1 with
    | none =>
      right
      right
      have htooLong := exec_insertAdmin_of_tooLong (hnextAdmin.symm ▸ hstored)
      refine ⟨rfl, db₃, ?_, ?_, ?_⟩
      · simp only [Procedure.exec_bind, hcities, hareas, hinsert, htooLong]
      · rw [htables₃, htables₂, htables₁]
      · rw [htables₃]
        exact hseeded
    | some admin =>
      left
      obtain ⟨db₄, hadmin, htables₄, harea₄, hcity₄, huser₄, hadmin₄⟩ :=
        exec_insertAdmin_of_stored hadmins₃ (hnextAdmin.symm ▸ hstored)
      have hcities₄ : db₄.tables.cities = db₂.tables.cities := by rw [htables₄, htables₃]
      obtain ⟨db₅, husers, htables₅, huser₅, hcity₅, harea₅, hadmin₅⟩ := exec_seedUsers_of_empty run
        (by rw [htables₄, htables₃, htables₂, htables₁])
        (huser₄.trans (huser₃.trans (huser₂.trans huser₁))) (hcities₄ ▸ hseeded.seeds)
      have hcities₅ : db₅.tables.cities = db₂.tables.cities := by rw [htables₅]; exact hcities₄
      have hareas₅ : db₅.tables.areas = numberedAreas := by rw [htables₅, htables₄, htables₃]
      have husers₅ : db₅.tables.users = numberedUsers run.now := by rw [htables₅]
      have hnext : db₅.nextCity = db₂.nextCity := hcity₅.trans (hcity₄.trans hcity₃)
      have hadmins₅ : db₅.tables.admins = [admin] := by rw [htables₅, htables₄]
      refine ⟨db₅, ?_, hcities₅ ▸ hseeded, hareas₅, ⟨admin, hstored, hadmins₅⟩, husers₅, ?_, ?_⟩
      · simp only [Procedure.exec_bind, hcities, hareas, hinsert, hadmin, husers]
        rfl
      · refine ⟨?_, ?_, ?_, ?_⟩
        · show db₅.nextCity ≤ 2147483648
          omega
        · show ∀ c ∈ db₅.tables.cities, c.id < db₅.nextCity
          rw [hcities₅, hnext]
          exact hlast
        · show ∀ a ∈ db₅.tables.areas, a.id < db₅.nextArea
          rw [hareas₅, harea₅, harea₄, harea₃]
          exact id_lt_of_mem_numberedAreas
        · show ∀ u ∈ db₅.tables.users.map shortRow, u.id < db₅.nextUser
          rw [husers₅, huser₅]
          exact id_lt_of_mem_numberedUsers run.now
      · intro a ha
        rw [hadmins₅] at ha
        rw [List.mem_singleton.1 ha, id_of_stored hstored, hadmin₅, hadmin₄, hnextAdmin]
        exact Nat.lt_succ_self 1
  · right
    left
    obtain ⟨rfl, hclash⟩ := clash_of_exec_cities he
    rw [htables₁] at hclash
    refine ⟨hclash, db₁, ?_, htables₁⟩
    simp only [Procedure.exec_bind, herror]
    rfl

/-- A production run completes on a new database, unless a city is in the way. -/
theorem production_of_empty {run : Run} {db : Database} (hareas : db.tables.areas = [])
    (hnextArea : db.nextArea = 1) (hadmins : db.tables.admins = []) {admin : AdminEntity}
    (hstored : run.stored db.nextAdmin = some admin) (hclash : ¬ Clash db.tables.cities) :
    (Procedure.exec (bootstrap (some "production") run) db).1 = .ok () := by
  rcases exec_seedCities db with
    ⟨db₂, hcities, htables₂, hseeded, -, -, harea₂, -, hadmin₂⟩ | ⟨e, he, -⟩
  · obtain ⟨db₃, hexec₃, htables₃, -, -, -, hadmin₃⟩ := exec_seedAreas_of_empty
      (by rw [htables₂, hareas]) (harea₂.trans hnextArea) hseeded.seeds
    have hadmins₃ : db₃.tables.admins = [] := by rw [htables₃, htables₂, hadmins]
    have hnextAdmin : db₃.nextAdmin = db.nextAdmin := hadmin₃.trans hadmin₂
    obtain ⟨db₄, hexec₄, -⟩ := exec_insertAdmin_of_stored hadmins₃ (hnextAdmin.symm ▸ hstored)
    have hclear : Procedure.exec (clear .production) db = (.ok (), db) := rfl
    rw [bootstrap_production]
    simp only [Procedure.exec_bind, hclear, hcities, hexec₃,
      exec_seedAdmin_of_empty run hadmins₃, hexec₄]
    rfl
  · exact absurd (clash_of_exec_cities he).2 hclash

def sampleRun : Run where
  now := 0
  salt := "salt"
  hashPassword salt password := salt ++ password
  username := "admin"
  password := "password"
  firstName := "Super"
  lastName := "Admin"

def sampleTables : Tables where
  cities := [⟨3, "Halab", "حلب"⟩, ⟨40, "Palmyra", "تدمر"⟩]

theorem sampleTables_sound :
    (sampleTables.rows.Clean ∧ sampleTables.rows.Ranges ∧ sampleTables.rows.Unique ∧
        sampleTables.rows.References) ∧
      ¬ Clash sampleTables.cities := by decide +kernel

def sampleDatabase : Database where
  tables := sampleTables
  consistent :=
    ⟨sampleTables_sound.1.1, sampleTables_sound.1.2.1, sampleTables_sound.1.2.2.1,
      sampleTables_sound.1.2.2.2⟩
  adminsUnique := ⟨List.nodup_nil, List.nodup_nil⟩
  cityIds := by decide
  nextCity := 41
  nextArea := 1
  nextUser := 1
  nextAdmin := 1

theorem stored_sampleRun : sampleRun.stored 1 = some (sampleRun.admin 1) := by
  unfold Run.stored
  rfl

theorem production_again_sample :
    ∃ db', Procedure.exec (bootstrap (some "production") sampleRun)
        (Procedure.exec (bootstrap (some "production") sampleRun) sampleDatabase).2 =
          (.ok (), db') ∧
      db'.tables =
        (Procedure.exec (bootstrap (some "production") sampleRun) sampleDatabase).2.tables :=
  (production_again sampleRun sampleDatabase).2
    (production_of_empty rfl rfl rfl stored_sampleRun sampleTables_sound.2) (by decide) sampleRun
    rfl

theorem development_run_sample :
    ∃ db', Procedure.exec (bootstrap none sampleRun) sampleDatabase = (.ok (), db') ∧
      Reset sampleRun sampleDatabase.tables db' :=
  (development_run (by decide) sampleRun sampleDatabase).resolve_right fun h =>
    h.elim (fun hclash => sampleTables_sound.2 hclash.1)
      fun hnone => by simp [stored_sampleRun] at hnone

end NestStarter.Seeds
