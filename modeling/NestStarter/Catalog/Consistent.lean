import NestStarter.Catalog.Calls
import NestStarter.Core.Keyed

/-! # Rows that keep the constraints

One lemma for each kind of write, of rows that the constraints hold of again.
-/

namespace NestStarter.Catalog

open NestStarter.Core
open NestStarter.Areas (AreaEntity UpdateAreaDto)

variable {t : Tables}

def CleanArea (a : AreaEntity) : Prop := CleanText a.nameEn ∧ CleanText a.nameAr

def CleanChanges (dto : UpdateAreaDto) : Prop :=
  (∀ s ∈ dto.nameEn, CleanText s) ∧ ∀ s ∈ dto.nameAr, CleanText s

theorem CleanArea.merge {a : AreaEntity} (ha : CleanArea a) {dto : UpdateAreaDto}
    (hdto : CleanChanges dto) : CleanArea (a.merge dto) := by
  constructor
  · cases hEn : dto.nameEn with
    | none => simpa [AreaEntity.merge, hEn] using ha.1
    | some name => simpa [AreaEntity.merge, hEn] using hdto.1 name hEn
  · cases hAr : dto.nameAr with
    | none => simpa [AreaEntity.merge, hAr] using ha.2
    | some name => simpa [AreaEntity.merge, hAr] using hdto.2 name hAr

theorem Rows.HasCity.of_ids {r r' : Rows} {cityId : Nat} (h : r.HasCity cityId)
    (hids : ∀ id ∈ r.cities.map CityEntity.id, id ∈ r'.cities.map CityEntity.id) :
    r'.HasCity cityId := by
  obtain ⟨c, hc, rfl⟩ := h
  exact List.mem_map.1 (hids c.id (List.mem_map_of_mem hc))

theorem Rows.References.of_cities {r : Rows} (h : r.References) {cities : List CityEntity}
    (hids : ∀ id ∈ r.cities.map CityEntity.id, id ∈ cities.map CityEntity.id) :
    Rows.References { r with cities } :=
  ⟨fun a ha => (h.1 a ha).of_ids hids, fun u hu city hcity => (h.2 u hu city hcity).of_ids hids⟩

/-- The constraints hold of the rows. -/
structure Rows.Consistent (r : Rows) : Prop where
  clean : r.Clean
  ranges : r.Ranges
  unique : r.Unique
  references : r.References

/-- A write of rows that keep the constraints goes through. -/
theorem Tables.write_ok (t : Tables) {rows : Rows} (h : rows.Consistent) :
    ∃ t', t.write rows = (.ok (), t') ∧ t'.rows = rows ∧
      t'.nextCity = t.nextCity ∧ t'.nextArea = t.nextArea ∧ t'.nextUser = t.nextUser :=
  ⟨_, Tables.write_of_consistent h.clean h.ranges h.unique h.references, rfl, rfl, rfl, rfl⟩

theorem mem_ids_addCity {cities : List CityEntity} (c : CityEntity) :
    ∀ id ∈ cities.map CityEntity.id, id ∈ (cities ++ [c]).map CityEntity.id := by
  intro id hid
  rw [List.map_append]
  exact List.mem_append_left _ hid

theorem consistent_addCity {c : CityEntity} (hclean : CleanText c.nameEn ∧ CleanText c.nameAr)
    (hid : ∀ d ∈ t.rows.cities, d.id ≠ c.id) (hEn : ∀ d ∈ t.rows.cities, d.nameEn ≠ c.nameEn)
    (hAr : ∀ d ∈ t.rows.cities, d.nameAr ≠ c.nameAr) :
    Rows.Consistent { t.rows with cities := t.rows.cities ++ [c] } := by
  refine Rows.Consistent.mk ⟨fun d hd => ?_, t.clean.2⟩ t.ranges ⟨⟨?_, ?_, ?_⟩, t.unique.2⟩ ?_
  · rcases List.mem_append.1 hd with hd | hd
    · exact t.clean.1 d hd
    · rw [List.mem_singleton.1 hd]
      exact hclean
  · exact Keyed.nodup_map_concat t.unique.1.1 hid
  · exact Keyed.nodup_map_concat t.unique.1.2.1 hEn
  · exact Keyed.nodup_map_concat t.unique.1.2.2 hAr
  · exact t.references.of_cities (mem_ids_addCity c)

theorem consistent_alterCity (id : Nat) {f : CityEntity → CityEntity}
    (hid : ∀ c ∈ t.rows.cities, c.id = id → (f c).id = c.id)
    (hclean : ∀ c ∈ t.rows.cities, c.id = id → CleanText (f c).nameEn ∧ CleanText (f c).nameAr)
    (hEn : ∀ c ∈ t.rows.cities, c.id = id → ∀ d ∈ t.rows.cities, d.id ≠ id →
      d.nameEn ≠ (f c).nameEn)
    (hAr : ∀ c ∈ t.rows.cities, c.id = id → ∀ d ∈ t.rows.cities, d.id ≠ id →
      d.nameAr ≠ (f c).nameAr) :
    Rows.Consistent { t.rows with cities := Keyed.alter CityEntity.id id f t.rows.cities } := by
  have hids : (Keyed.alter CityEntity.id id f t.rows.cities).map CityEntity.id =
      t.rows.cities.map CityEntity.id := Keyed.map_alter hid
  refine Rows.Consistent.mk ⟨fun d hd => ?_, t.clean.2⟩ t.ranges ⟨⟨?_, ?_, ?_⟩, t.unique.2⟩ ?_
  · rcases Keyed.mem_alter.1 hd with ⟨c, hc, hcid, rfl⟩ | ⟨hd, -⟩
    · exact hclean c hc hcid
    · exact t.clean.1 d hd
  · exact hids ▸ t.unique.1.1
  · exact Keyed.nodup_map_alter t.unique.1.1 t.unique.1.2.1 hEn
  · exact Keyed.nodup_map_alter t.unique.1.1 t.unique.1.2.2 hAr
  · exact t.references.of_cities fun city hcity => hids ▸ hcity

theorem consistent_removeCity (id : Nat) (hfree : ∀ u ∈ t.rows.users, u.cityId ≠ some id) :
    Rows.Consistent { t.rows with
      cities := t.rows.cities.filter fun c => c.id ≠ id
      areas := t.rows.areas.filter fun a => a.cityId ≠ id } := by
  have hcities : ∀ {β : Type} {g : CityEntity → β}, (t.rows.cities.map g).Nodup →
      ((t.rows.cities.filter fun c => c.id ≠ id).map g).Nodup :=
    fun h => h.sublist (List.filter_sublist.map _)
  have hareas : ∀ {β : Type} {g : AreaEntity → β}, (t.rows.areas.map g).Nodup →
      ((t.rows.areas.filter fun a => a.cityId ≠ id).map g).Nodup :=
    fun h => h.sublist (List.filter_sublist.map _)
  have hcity : ∀ {city : Nat}, t.rows.HasCity city → city ≠ id →
      ∃ c ∈ t.rows.cities.filter fun c => c.id ≠ id, c.id = city := by
    rintro city ⟨c, hc, rfl⟩ hne
    exact ⟨c, List.mem_filter.2 ⟨hc, by simpa using hne⟩, rfl⟩
  refine Rows.Consistent.mk ⟨fun c hc => ?_, fun a ha => ?_, t.clean.2.2⟩
    ⟨fun a ha => t.ranges.1 a (List.mem_of_mem_filter ha), t.ranges.2⟩
    ⟨⟨hcities t.unique.1.1, hcities t.unique.1.2.1, hcities t.unique.1.2.2⟩,
      ⟨hareas t.unique.2.1.1, hareas t.unique.2.1.2.1, hareas t.unique.2.1.2.2⟩, t.unique.2.2⟩
    ⟨fun a ha => ?_, fun u hu city hu' => ?_⟩
  · exact t.clean.1 c (List.mem_of_mem_filter hc)
  · exact t.clean.2.1 a (List.mem_of_mem_filter ha)
  · obtain ⟨ha, hne⟩ := List.mem_filter.1 ha
    exact hcity (t.references.1 a ha) (by simpa using hne)
  · refine hcity (t.references.2 u hu city hu') fun heq => hfree u hu ?_
    rw [← heq]
    exact hu'

theorem consistent_addArea {a : AreaEntity} (hclean : CleanArea a)
    (hrange : a.cityId ≤ 2147483647) (hcity : t.rows.HasCity a.cityId)
    (hid : ∀ b ∈ t.rows.areas, b.id ≠ a.id) (hEn : ∀ b ∈ t.rows.areas, b.keyEn ≠ a.keyEn)
    (hAr : ∀ b ∈ t.rows.areas, b.keyAr ≠ a.keyAr) :
    Rows.Consistent { t.rows with areas := t.rows.areas ++ [a] } := by
  refine Rows.Consistent.mk ⟨t.clean.1, fun b hb => ?_, t.clean.2.2⟩
    ⟨fun b hb => ?_, t.ranges.2⟩ ⟨t.unique.1, ⟨?_, ?_, ?_⟩, t.unique.2.2⟩
    ⟨fun b hb => ?_, t.references.2⟩
  · rcases List.mem_append.1 hb with hb | hb
    · exact t.clean.2.1 b hb
    · rw [List.mem_singleton.1 hb]
      exact hclean
  · rcases List.mem_append.1 hb with hb | hb
    · exact t.ranges.1 b hb
    · rw [List.mem_singleton.1 hb]
      exact hrange
  · exact Keyed.nodup_map_concat t.unique.2.1.1 hid
  · exact Keyed.nodup_map_concat t.unique.2.1.2.1 hEn
  · exact Keyed.nodup_map_concat t.unique.2.1.2.2 hAr
  · rcases List.mem_append.1 hb with hb | hb
    · exact t.references.1 b hb
    · rw [List.mem_singleton.1 hb]
      exact hcity

theorem consistent_alterArea (id : Nat) {f : AreaEntity → AreaEntity}
    (hid : ∀ a ∈ t.rows.areas, a.id = id → (f a).id = a.id)
    (hclean : ∀ a ∈ t.rows.areas, a.id = id → CleanArea (f a))
    (hrange : ∀ a ∈ t.rows.areas, a.id = id → (f a).cityId ≤ 2147483647)
    (hcity : ∀ a ∈ t.rows.areas, a.id = id → t.rows.HasCity (f a).cityId)
    (hEn : ∀ a ∈ t.rows.areas, a.id = id → ∀ b ∈ t.rows.areas, b.id ≠ id → b.keyEn ≠ (f a).keyEn)
    (hAr : ∀ a ∈ t.rows.areas, a.id = id → ∀ b ∈ t.rows.areas, b.id ≠ id →
      b.keyAr ≠ (f a).keyAr) :
    Rows.Consistent { t.rows with areas := Keyed.alter AreaEntity.id id f t.rows.areas } := by
  have hids : (Keyed.alter AreaEntity.id id f t.rows.areas).map AreaEntity.id =
      t.rows.areas.map AreaEntity.id := Keyed.map_alter hid
  refine Rows.Consistent.mk ⟨t.clean.1, fun b hb => ?_, t.clean.2.2⟩
    ⟨fun b hb => ?_, t.ranges.2⟩ ⟨t.unique.1, ⟨?_, ?_, ?_⟩, t.unique.2.2⟩
    ⟨fun b hb => ?_, t.references.2⟩
  · rcases Keyed.mem_alter.1 hb with ⟨a, ha, haid, rfl⟩ | ⟨hb, -⟩
    · exact hclean a ha haid
    · exact t.clean.2.1 b hb
  · rcases Keyed.mem_alter.1 hb with ⟨a, ha, haid, rfl⟩ | ⟨hb, -⟩
    · exact hrange a ha haid
    · exact t.ranges.1 b hb
  · exact hids ▸ t.unique.2.1.1
  · exact Keyed.nodup_map_alter t.unique.2.1.1 t.unique.2.1.2.1 hEn
  · exact Keyed.nodup_map_alter t.unique.2.1.1 t.unique.2.1.2.2 hAr
  · rcases Keyed.mem_alter.1 hb with ⟨a, ha, haid, rfl⟩ | ⟨hb, -⟩
    · exact hcity a ha haid
    · exact t.references.1 b hb

theorem consistent_removeArea (id : Nat) :
    Rows.Consistent { t.rows with areas := t.rows.areas.filter fun a => a.id ≠ id } := by
  have hareas : ∀ {β : Type} {g : AreaEntity → β}, (t.rows.areas.map g).Nodup →
      ((t.rows.areas.filter fun a => a.id ≠ id).map g).Nodup :=
    fun h => h.sublist (List.filter_sublist.map _)
  exact Rows.Consistent.mk
    ⟨t.clean.1, fun a ha => t.clean.2.1 a (List.mem_of_mem_filter ha), t.clean.2.2⟩
    ⟨fun a ha => t.ranges.1 a (List.mem_of_mem_filter ha), t.ranges.2⟩
    ⟨t.unique.1, ⟨hareas t.unique.2.1.1, hareas t.unique.2.1.2.1, hareas t.unique.2.1.2.2⟩,
      t.unique.2.2⟩
    ⟨fun a ha => t.references.1 a (List.mem_of_mem_filter ha), t.references.2⟩

theorem consistent_addUser {u : UserRow} (hclean : CleanText u.phone)
    (hrange : ∀ city ∈ u.cityId, city ≤ 2147483647)
    (hcity : ∀ city ∈ u.cityId, t.rows.HasCity city) (hid : ∀ v ∈ t.rows.users, v.id ≠ u.id)
    (hphone : ∀ v ∈ t.rows.users, v.phone ≠ u.phone) :
    Rows.Consistent { t.rows with users := t.rows.users ++ [u] } := by
  refine Rows.Consistent.mk ⟨t.clean.1, t.clean.2.1, fun v hv => ?_⟩
    ⟨t.ranges.1, fun v hv => ?_⟩
    ⟨t.unique.1, t.unique.2.1, Keyed.nodup_map_concat t.unique.2.2.1 hid,
      Keyed.nodup_map_concat t.unique.2.2.2 hphone⟩
    ⟨t.references.1, fun v hv => ?_⟩
  · rcases List.mem_append.1 hv with hv | hv
    · exact t.clean.2.2 v hv
    · rw [List.mem_singleton.1 hv]
      exact hclean
  · rcases List.mem_append.1 hv with hv | hv
    · exact t.ranges.2 v hv
    · rw [List.mem_singleton.1 hv]
      exact hrange
  · rcases List.mem_append.1 hv with hv | hv
    · exact t.references.2 v hv
    · rw [List.mem_singleton.1 hv]
      exact hcity

theorem consistent_alterUser (id : Nat) {f : UserRow → UserRow} (hid : ∀ u, (f u).id = u.id)
    (hphone : ∀ u, (f u).phone = u.phone)
    (hrange : ∀ u ∈ t.rows.users, u.id = id → ∀ city ∈ (f u).cityId, city ≤ 2147483647)
    (hcity : ∀ u ∈ t.rows.users, u.id = id → ∀ city ∈ (f u).cityId, t.rows.HasCity city) :
    Rows.Consistent { t.rows with users := Keyed.alter UserRow.id id f t.rows.users } := by
  have hids : (Keyed.alter UserRow.id id f t.rows.users).map UserRow.id =
      t.rows.users.map UserRow.id := Keyed.map_alter fun u _ _ => hid u
  have hphones : (Keyed.alter UserRow.id id f t.rows.users).map UserRow.phone =
      t.rows.users.map UserRow.phone := Keyed.map_alter fun u _ _ => hphone u
  refine Rows.Consistent.mk ⟨t.clean.1, t.clean.2.1, fun v hv => ?_⟩
    ⟨t.ranges.1, fun v hv => ?_⟩ ⟨t.unique.1, t.unique.2.1, ?_, ?_⟩
    ⟨t.references.1, fun v hv => ?_⟩
  · rcases Keyed.mem_alter.1 hv with ⟨u, hu, -, rfl⟩ | ⟨hv, -⟩
    · exact (hphone u).symm ▸ t.clean.2.2 u hu
    · exact t.clean.2.2 v hv
  · rcases Keyed.mem_alter.1 hv with ⟨u, hu, huid, rfl⟩ | ⟨hv, -⟩
    · exact hrange u hu huid
    · exact t.ranges.2 v hv
  · exact hids ▸ t.unique.2.2.1
  · exact hphones ▸ t.unique.2.2.2
  · rcases Keyed.mem_alter.1 hv with ⟨u, hu, huid, rfl⟩ | ⟨hv, -⟩
    · exact hcity u hu huid
    · exact t.references.2 v hv

end NestStarter.Catalog
