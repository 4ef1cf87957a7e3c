import NestStarter.Domain

/-! # Areas

The rows of `areas`, the body that changes one, and the exceptions of the calls on them.
-/

namespace NestStarter.Areas

@[ext] structure AreaEntity where
  id : Nat
  cityId : Nat
  nameEn : String
  nameAr : String
  deriving DecidableEq, Repr

/-- The columns of `uq_areas_city_id_name_en`. -/
def AreaEntity.keyEn (a : AreaEntity) : Nat × String := (a.cityId, a.nameEn)

/-- The columns of `uq_areas_city_id_name_ar`. -/
def AreaEntity.keyAr (a : AreaEntity) : Nat × String := (a.cityId, a.nameAr)

/-- `none` is a field left out. -/
structure UpdateAreaDto where
  cityId : Option Nat := none
  nameEn : Option String := none
  nameAr : Option String := none
  deriving DecidableEq, Repr

/-- `repo.merge`: a field left out is not copied. -/
def AreaEntity.merge (area : AreaEntity) (dto : UpdateAreaDto) : AreaEntity :=
  { area with
    cityId := dto.cityId.getD area.cityId
    nameEn := dto.nameEn.getD area.nameEn
    nameAr := dto.nameAr.getD area.nameAr }

def areaNotFound : HttpException := ⟨.notFound, "area.errors.not_found", []⟩

def cityNotFound : HttpException := ⟨.notFound, "city.errors.not_found", []⟩

def nameEnTaken : HttpException := ⟨.conflict, "area.errors.name_en_taken", []⟩

def nameArTaken : HttpException := ⟨.conflict, "area.errors.name_ar_taken", []⟩

end NestStarter.Areas
