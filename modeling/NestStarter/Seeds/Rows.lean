import NestStarter.Accounts.Entities
import NestStarter.Catalog.Tables

/-! # What is seeded

The governorates with their fixed ids, fifteen areas of each, and the users of a development
database.
-/

namespace NestStarter.Seeds

open NestStarter.Catalog (CityEntity)
open NestStarter.Accounts (NewUser)

def citySeeds : List CityEntity := [
  ⟨1, "Damascus", "دمشق"⟩,
  ⟨2, "Rural Damascus", "ريف دمشق"⟩,
  ⟨3, "Aleppo", "حلب"⟩,
  ⟨4, "Homs", "حمص"⟩,
  ⟨5, "Hama", "حماة"⟩,
  ⟨6, "Latakia", "اللاذقية"⟩,
  ⟨7, "Tartus", "طرطوس"⟩,
  ⟨8, "Idlib", "إدلب"⟩,
  ⟨9, "Daraa", "درعا"⟩,
  ⟨10, "As-Suwayda", "السويداء"⟩,
  ⟨11, "Quneitra", "القنيطرة"⟩,
  ⟨12, "Ar-Raqqah", "الرقة"⟩,
  ⟨13, "Deir ez-Zor", "دير الزور"⟩,
  ⟨14, "Al-Hasakah", "الحسكة"⟩]

structure AreaSeed where
  cityId : Nat
  nameEn : String
  nameAr : String
  deriving DecidableEq, Repr

def areaSeeds : List AreaSeed := [
  -- Damascus
  ⟨1, "Old Damascus", "دمشق القديمة"⟩,
  ⟨1, "Mezzeh", "المزة"⟩,
  ⟨1, "Malki", "المالكي"⟩,
  ⟨1, "Kafr Sousa", "كفرسوسة"⟩,
  ⟨1, "Bab Touma", "باب توما"⟩,
  ⟨1, "Al-Midan", "الميدان"⟩,
  ⟨1, "Al-Qanawat", "القنوات"⟩,
  ⟨1, "Sarouja", "ساروجة"⟩,
  ⟨1, "Muhajirin", "المهاجرين"⟩,
  ⟨1, "Rukn al-Din", "ركن الدين"⟩,
  ⟨1, "Al-Shaghour", "الشاغور"⟩,
  ⟨1, "Barzeh", "برزة"⟩,
  ⟨1, "Jobar", "جوبر"⟩,
  ⟨1, "Qaboun", "القابون"⟩,
  ⟨1, "Yarmouk", "اليرموك"⟩,
  -- Rural Damascus
  ⟨2, "Douma", "دوما"⟩,
  ⟨2, "Harasta", "حرستا"⟩,
  ⟨2, "Zabadani", "الزبداني"⟩,
  ⟨2, "Qudsaya", "قدسيا"⟩,
  ⟨2, "Jaramana", "جرمانا"⟩,
  ⟨2, "Sayyida Zeinab", "السيدة زينب"⟩,
  ⟨2, "Al-Tall", "التل"⟩,
  ⟨2, "Al-Nabk", "النبك"⟩,
  ⟨2, "Yabroud", "يبرود"⟩,
  ⟨2, "Qatana", "قطنا"⟩,
  ⟨2, "Darayya", "داريا"⟩,
  ⟨2, "Moadamiyat al-Sham", "معضمية الشام"⟩,
  ⟨2, "Al-Kiswah", "الكسوة"⟩,
  ⟨2, "Sahnaya", "صحنايا"⟩,
  ⟨2, "Ashrafiyat Sahnaya", "أشرفية صحنايا"⟩,
  -- Aleppo
  ⟨3, "Old Aleppo", "حلب القديمة"⟩,
  ⟨3, "Aziziyeh", "العزيزية"⟩,
  ⟨3, "Sulaymaniyah", "السليمانية"⟩,
  ⟨3, "Hamdaniyah", "الحمدانية"⟩,
  ⟨3, "Khalidiyah", "الخالدية"⟩,
  ⟨3, "Al-Jamilia", "الجميلية"⟩,
  ⟨3, "Al-Mogambo", "الموكامبو"⟩,
  ⟨3, "Al-Shahbaa", "الشهباء"⟩,
  ⟨3, "Al-Furqan", "الفرقان"⟩,
  ⟨3, "Al-Ansari", "الأنصاري"⟩,
  ⟨3, "Al-Sakhour", "الصاخور"⟩,
  ⟨3, "Al-Shaar", "الشعار"⟩,
  ⟨3, "Hanano", "هنانو"⟩,
  ⟨3, "Al-Nayrab", "النيرب"⟩,
  ⟨3, "Saif al-Dawla", "سيف الدولة"⟩,
  -- Homs
  ⟨4, "Old Homs", "حمص القديمة"⟩,
  ⟨4, "Inshaat", "الإنشاءات"⟩,
  ⟨4, "Khaldiyeh", "الخالدية"⟩,
  ⟨4, "Bab Amr", "باب عمرو"⟩,
  ⟨4, "Al-Waer", "الوعر"⟩,
  ⟨4, "Al-Ghouta", "الغوطة"⟩,
  ⟨4, "Al-Hamra", "الحمراء"⟩,
  ⟨4, "Al-Qusour", "القصور"⟩,
  ⟨4, "Al-Bayada", "البياضة"⟩,
  ⟨4, "Al-Zahra", "الزهراء"⟩,
  ⟨4, "Akrama", "عكرمة"⟩,
  ⟨4, "Al-Nuzha", "النزهة"⟩,
  ⟨4, "Wadi al-Dahab", "وادي الذهب"⟩,
  ⟨4, "Al-Midan", "الميدان"⟩,
  ⟨4, "Al-Arman", "الأرمن"⟩,
  -- Hama
  ⟨5, "Old Hama", "حماة القديمة"⟩,
  ⟨5, "Aziziyeh", "العزيزية"⟩,
  ⟨5, "Jarajemeh", "الجراجمة"⟩,
  ⟨5, "Al-Hader", "الحاضر"⟩,
  ⟨5, "Al-Sabounia", "الصابونية"⟩,
  ⟨5, "Al-Qusour", "القصور"⟩,
  ⟨5, "Al-Andalus", "الأندلس"⟩,
  ⟨5, "Al-Sharia", "الشريعة"⟩,
  ⟨5, "Al-Fayhaa", "الفيحاء"⟩,
  ⟨5, "Al-Baath", "البعث"⟩,
  ⟨5, "Al-Karama", "الكرامة"⟩,
  ⟨5, "Al-Nasr", "النصر"⟩,
  ⟨5, "Al-Jalaa", "الجلاء"⟩,
  ⟨5, "Al-Mahatta", "المحطة"⟩,
  ⟨5, "Al-Baroudia", "البارودية"⟩,
  -- Latakia
  ⟨6, "Corniche", "الكورنيش"⟩,
  ⟨6, "Ramel", "الرمل"⟩,
  ⟨6, "Slibeh", "الصليبة"⟩,
  ⟨6, "Ziraa", "الزراعة"⟩,
  ⟨6, "Al-Mashrou' al-Sabe'", "المشروع السابع"⟩,
  ⟨6, "Al-Awqaf", "الأوقاف"⟩,
  ⟨6, "Al-Sheikh Daher", "الشيخ ضاهر"⟩,
  ⟨6, "Al-Tabiyat", "الطابيات"⟩,
  ⟨6, "Al-Qalaa", "القلعة"⟩,
  ⟨6, "Al-Shati' al-Azraq", "الشاطئ الأزرق"⟩,
  ⟨6, "Jableh", "جبلة"⟩,
  ⟨6, "Al-Haffah", "الحفة"⟩,
  ⟨6, "Al-Qardaha", "القرداحة"⟩,
  ⟨6, "Qastal Ma'af", "قسطل معاف"⟩,
  ⟨6, "Salma", "سلمى"⟩,
  -- Tartus
  ⟨7, "Baniyas", "بانياس"⟩,
  ⟨7, "Safita", "صافيتا"⟩,
  ⟨7, "Dreikish", "دريكيش"⟩,
  ⟨7, "Al-Ghamqa", "الغمقة"⟩,
  ⟨7, "Al-Inshaat", "الإنشاءات"⟩,
  ⟨7, "Al-Karama", "الكرامة"⟩,
  ⟨7, "Al-Rimal", "الرمال"⟩,
  ⟨7, "Al-Mina", "المينا"⟩,
  ⟨7, "Al-Sheikh Saad", "الشيخ سعد"⟩,
  ⟨7, "Al-Qadmus", "القدموس"⟩,
  ⟨7, "Al-Shaykh Badr", "الشيخ بدر"⟩,
  ⟨7, "Masyaf road", "طريق مصياف"⟩,
  ⟨7, "Al-Hamidiyah", "الحميدية"⟩,
  ⟨7, "Amrit", "عمريت"⟩,
  ⟨7, "Arwad", "أرواد"⟩,
  -- Idlib
  ⟨8, "Old Idlib", "إدلب القديمة"⟩,
  ⟨8, "Binnish", "بنش"⟩,
  ⟨8, "Maarat", "معرة النعمان"⟩,
  ⟨8, "Al-Thawra", "الثورة"⟩,
  ⟨8, "Al-Qusour", "القصور"⟩,
  ⟨8, "Al-Dabit", "الضبيط"⟩,
  ⟨8, "Al-Jalaa", "الجلاء"⟩,
  ⟨8, "Jisr al-Shughur", "جسر الشغور"⟩,
  ⟨8, "Ariha", "أريحا"⟩,
  ⟨8, "Harem", "حارم"⟩,
  ⟨8, "Salqin", "سلقين"⟩,
  ⟨8, "Kafr Nabl", "كفر نبل"⟩,
  ⟨8, "Khan Shaykhun", "خان شيخون"⟩,
  ⟨8, "Sarmada", "سرمدا"⟩,
  ⟨8, "Dana", "الدانا"⟩,
  -- Daraa
  ⟨9, "Daraa al-Balad", "درعا البلد"⟩,
  ⟨9, "Daraa al-Mahatta", "درعا المحطة"⟩,
  ⟨9, "Bosra", "بصرى"⟩,
  ⟨9, "Al-Sabil", "السبيل"⟩,
  ⟨9, "Al-Matar", "المطار"⟩,
  ⟨9, "Al-Kashif", "الكاشف"⟩,
  ⟨9, "Al-Sahari", "الصحاري"⟩,
  ⟨9, "Nawa", "نوى"⟩,
  ⟨9, "Izra", "إزرع"⟩,
  ⟨9, "Jasim", "جاسم"⟩,
  ⟨9, "Inkhil", "إنخل"⟩,
  ⟨9, "Al-Sanamayn", "الصنمين"⟩,
  ⟨9, "Busra al-Sham", "بصرى الشام"⟩,
  ⟨9, "Tafas", "طفس"⟩,
  ⟨9, "Da'el", "داعل"⟩,
  -- As-Suwayda
  ⟨10, "Salkhad", "صلخد"⟩,
  ⟨10, "Shahba", "شهبا"⟩,
  ⟨10, "Qanawat", "قنوات"⟩,
  ⟨10, "Al-Nahda", "النهضة"⟩,
  ⟨10, "Al-Jalaa", "الجلاء"⟩,
  ⟨10, "Al-Iskan", "الإسكان"⟩,
  ⟨10, "Al-Qalaa", "القلعة"⟩,
  ⟨10, "Al-Mazraa", "المزرعة"⟩,
  ⟨10, "Al-Qurayya", "القريا"⟩,
  ⟨10, "Al-Ghariya", "الغارية"⟩,
  ⟨10, "Al-Kafr", "الكفر"⟩,
  ⟨10, "Al-Suwayda al-Gharbiya", "السويداء الغربية"⟩,
  ⟨10, "Al-Mashnaqa", "المشنقة"⟩,
  ⟨10, "Al-Thala", "الثعلة"⟩,
  ⟨10, "Al-Musaifra", "المسيفرة"⟩,
  -- Quneitra
  ⟨11, "Khan Arnabeh", "خان أرنبة"⟩,
  ⟨11, "Baath City", "مدينة البعث"⟩,
  ⟨11, "Fiq", "فيق"⟩,
  ⟨11, "Jaba", "جبا"⟩,
  ⟨11, "Al-Rafid", "الرفيد"⟩,
  ⟨11, "Beer Ajam", "بئر عجم"⟩,
  ⟨11, "Bariqa", "بريقة"⟩,
  ⟨11, "Hader", "حضر"⟩,
  ⟨11, "Majdal Shams", "مجيدل شمس"⟩,
  ⟨11, "Al-Qusaybah", "القصيبة"⟩,
  ⟨11, "Ghadir al-Bustan", "غدير البستان"⟩,
  ⟨11, "Al-Khashniyah", "الخشنية"⟩,
  ⟨11, "Nab' al-Sakhr", "نبع الصخر"⟩,
  ⟨11, "Kodana", "كودنة"⟩,
  ⟨11, "Al-Hurriyah", "الحرية"⟩,
  -- Ar-Raqqah
  ⟨12, "Old Raqqa", "الرقة القديمة"⟩,
  ⟨12, "Meshlab", "المشلب"⟩,
  ⟨12, "Romaniyeh", "الرومانية"⟩,
  ⟨12, "Al-Thawra", "الثورة"⟩,
  ⟨12, "Al-Mansour", "المنصور"⟩,
  ⟨12, "Al-Rashid", "الرشيد"⟩,
  ⟨12, "Al-Firdaws", "الفردوس"⟩,
  ⟨12, "Al-Dar'iya", "الدرعية"⟩,
  ⟨12, "Al-Intifada", "الانتفاضة"⟩,
  ⟨12, "Al-Rumeila", "الرميلة"⟩,
  ⟨12, "Al-Tabqa", "الطبقة"⟩,
  ⟨12, "Tell Abyad", "تل أبيض"⟩,
  ⟨12, "Ma'adan", "معدان"⟩,
  ⟨12, "Ein Issa", "عين عيسى"⟩,
  ⟨12, "Al-Sabkha", "السبخة"⟩,
  -- Deir ez-Zor
  ⟨13, "Qusour", "القصور"⟩,
  ⟨13, "Hamidiyeh", "الحميدية"⟩,
  ⟨13, "Jubeileh", "الجبيلة"⟩,
  ⟨13, "Al-Rushdiya", "الرشدية"⟩,
  ⟨13, "Al-Muwazafin", "الموظفين"⟩,
  ⟨13, "Al-Jura", "الجورة"⟩,
  ⟨13, "Al-Sheikh Yassin", "الشيخ ياسين"⟩,
  ⟨13, "Al-Ardi", "العرضي"⟩,
  ⟨13, "Al-Sina'a", "الصناعة"⟩,
  ⟨13, "Al-Matar al-Qadim", "المطار القديم"⟩,
  ⟨13, "Mayadin", "الميادين"⟩,
  ⟨13, "Abu Kamal", "البوكمال"⟩,
  ⟨13, "Al-Asharah", "العشارة"⟩,
  ⟨13, "Al-Basira", "البصيرة"⟩,
  ⟨13, "Al-Kishkiya", "الكشكية"⟩,
  -- Al-Hasakah
  ⟨14, "Malikiyah", "المالكية"⟩,
  ⟨14, "Ras al-Ayn", "رأس العين"⟩,
  ⟨14, "Tel Tamr", "تل تمر"⟩,
  ⟨14, "Al-Aziziya", "العزيزية"⟩,
  ⟨14, "Al-Salhiya", "الصلحية"⟩,
  ⟨14, "Al-Mufti", "المفتي"⟩,
  ⟨14, "Al-Nashwa", "النشوة"⟩,
  ⟨14, "Ghuwayran", "غويران"⟩,
  ⟨14, "Qamishli", "القامشلي"⟩,
  ⟨14, "Amuda", "عامودا"⟩,
  ⟨14, "Al-Darbasiyah", "الدرباسية"⟩,
  ⟨14, "Al-Shaddadi", "الشدادي"⟩,
  ⟨14, "Al-Yaarubiyah", "اليعربية"⟩,
  ⟨14, "Al-Jawadiyah", "الجوادية"⟩,
  ⟨14, "Al-Qahtaniyah", "القحطانية"⟩]

/-- `cityId` goes by the order of `citySeeds`. -/
def userSeeds : List NewUser := [
  { phone := "+963936000001", firstName := some "Ali", lastName := some "Hassan",
    gender := some .male, birthDate := some "1995-02-14", cityId := some 1,
    address := some "Mazzeh", isProfileCompleted := true },
  { phone := "+963936000002", firstName := some "Nour", lastName := some "Hamdan",
    gender := some .female, birthDate := some "1998-07-09", cityId := some 2,
    address := some "Kafr Souseh", isProfileCompleted := true },
  { phone := "+963936000003", firstName := some "Mahmoud", lastName := some "Qassem",
    gender := some .male, birthDate := some "1989-11-23", cityId := some 3,
    address := some "New Aleppo", isProfileCompleted := true },
  { phone := "+963936000004", firstName := some "Rama", lastName := some "Najjar",
    gender := some .female, birthDate := some "2000-04-17", cityId := some 4,
    address := some "Al Waer", isProfileCompleted := true },
  { phone := "+963936000005", firstName := some "Samer", lastName := some "Khoury",
    gender := some .male, birthDate := some "1992-01-30", cityId := some 5,
    address := some "Al Ziraa", isProfileCompleted := true }]

end NestStarter.Seeds
