import NestStarter.Accounts.Dto
import NestStarter.Shared.Values

/-! # Phone numbers

`@SyriaPhone()` rewrites a number before it is checked. The international form is the key
by which users, codes and messages are found.
-/

namespace NestStarter.Accounts

open NestStarter.Shared

structure SyriaPhoneOptions where
  formatToLocal : Bool := false
  formatToInternational : Bool := false
  deriving DecidableEq, Repr

/-- `if (phone.startsWith(head)) phone = replacement + phone.substring(head.length)`. -/
def replaceHead (head replacement phone : List Char) : List Char :=
  if head.isPrefixOf phone then replacement ++ phone.drop head.length else phone

/-- The three steps of `transformSyriaPhone` on the text of the number. -/
def SyriaPhoneOptions.format (options : SyriaPhoneOptions) (phone : List Char) : List Char :=
  let formatted := replaceHead ['0', '0', '9', '6', '3'] ['+', '9', '6', '3'] phone
  let formatted :=
    if options.formatToLocal then replaceHead ['+', '9', '6', '3'] ['0'] formatted else formatted
  if options.formatToInternational then replaceHead ['0'] ['+', '9', '6', '3'] formatted
  else formatted

/-- `none` where `String(value)` throws. -/
def transformSyriaPhone (options : SyriaPhoneOptions) (convert : Value → Option String) :
    Value → Option Value
  | .undefined | .null | .string "" => some .undefined
  | v => (v.text convert).map fun phoneNumber =>
      .string (String.ofList (options.format phoneNumber.toList))

def validateSyriaPhone : Value → Bool
  | .undefined | .null | .string "" => true
  | .string s => isValidSyriaPhone s
  | _ => false

/-! ## Accepted numbers -/

/-- The code of a provider and seven digits. -/
structure Subscriber (cs : List Char) : Prop where
  provider : ∃ p ∈ ['3', '4', '5', '6', '8', '9'], cs.head? = some p
  length : cs.length = 8
  digits : ∀ c ∈ cs.tail, c.isDigit = true

def dialingHeads : List (List Char) :=
  [['0', '9'], ['+', '9', '6', '3', '9'], ['0', '0', '9', '6', '3', '9']]

def isSubscriber : List Char → Bool
  | provider :: digits =>
      ['3', '4', '5', '6', '8', '9'].contains provider && digits.length == 7 &&
        digits.all Char.isDigit
  | [] => false

theorem isSubscriber_iff (cs : List Char) : isSubscriber cs = true ↔ Subscriber cs := by
  cases cs with
  | nil =>
    constructor
    · intro h
      cases h
    · intro h
      simpa using h.length
  | cons provider digits =>
    simp only [isSubscriber, Bool.and_eq_true, List.contains_iff_mem, beq_iff_eq,
      List.all_eq_true]
    constructor
    · rintro ⟨⟨hp, hl⟩, hd⟩
      exact ⟨⟨provider, hp, rfl⟩, by simp [hl], hd⟩
    · rintro ⟨⟨p, hp, hhead⟩, hl, hd⟩
      cases hhead
      exact ⟨⟨hp, by simpa using hl⟩, hd⟩

/-- What the pattern matches: a dialing head and a subscriber number. -/
theorem isValidSyriaPhone_iff (phone : String) :
    isValidSyriaPhone phone = true ↔
      ∃ head ∈ dialingHeads, ∃ number, Subscriber number ∧ phone.toList = head ++ number := by
  have hheads : dialingHeads = ["09", "+9639", "009639"].map String.toList := rfl
  simp only [hheads, List.mem_map, exists_exists_and_eq_and]
  rw [isValidSyriaPhone, List.any_eq_true]
  refine exists_congr fun head => and_congr_right fun _ => ?_
  change (head.toList.isPrefixOf phone.toList &&
    isSubscriber (phone.toList.drop head.length)) = true ↔ _
  rw [Bool.and_eq_true, isSubscriber_iff, List.isPrefixOf_iff_prefix, ← String.length_toList]
  constructor
  · rintro ⟨⟨number, hphone⟩, hnumber⟩
    rw [← hphone, List.drop_left] at hnumber
    exact ⟨number, hnumber, hphone.symm⟩
  · rintro ⟨number, hnumber, hphone⟩
    rw [hphone, List.drop_left]
    exact ⟨List.prefix_append _ _, hnumber⟩

theorem replaceHead_append (head replacement rest : List Char) :
    replaceHead head replacement (head ++ rest) = replacement ++ rest := by
  simp [replaceHead, List.isPrefixOf_iff_prefix]

theorem replaceHead_of_not {head replacement phone : List Char} (h : ¬ head <+: phone) :
    replaceHead head replacement phone = phone := by
  simp [replaceHead, List.isPrefixOf_iff_prefix, h]

def international : SyriaPhoneOptions := { formatToInternational := true }

theorem format_international (phone : List Char) :
    international.format phone = replaceHead ['0'] ['+', '9', '6', '3']
      (replaceHead ['0', '0', '9', '6', '3'] ['+', '9', '6', '3'] phone) := rfl

/-- The three ways a number comes out: by its dialing prefix, by its leading zero, or as it
went in. -/
theorem format_cases (phone : List Char) :
    (∃ rest, phone = ['0', '0', '9', '6', '3'] ++ rest ∧
        international.format phone = ['+', '9', '6', '3'] ++ rest) ∨
      (∃ rest, phone = '0' :: rest ∧
        international.format phone = ['+', '9', '6', '3'] ++ rest) ∨
      (¬ ['0'] <+: phone ∧ international.format phone = phone) := by
  rw [format_international]
  by_cases hdial : ['0', '0', '9', '6', '3'] <+: phone
  · obtain ⟨rest, rfl⟩ := hdial
    rw [replaceHead_append, replaceHead_of_not (by simp)]
    exact Or.inl ⟨rest, rfl, rfl⟩
  · rw [replaceHead_of_not hdial]
    by_cases hzero : ['0'] <+: phone
    · obtain ⟨rest, rfl⟩ := hzero
      rw [replaceHead_append]
      exact Or.inr (Or.inl ⟨rest, rfl, rfl⟩)
    · exact Or.inr (Or.inr ⟨hzero, replaceHead_of_not hzero⟩)

/-! ## The normal form -/

def normalForm (number : List Char) : List Char := ['+', '9', '6', '3', '9'] ++ number

theorem format_dialed {head number : List Char} (h : head ∈ dialingHeads) :
    international.format (head ++ number) = normalForm number := by
  simp only [dialingHeads, List.mem_cons, List.not_mem_nil, or_false] at h
  rcases h with rfl | rfl | rfl <;>
    simp [format_international, replaceHead, normalForm, List.isPrefixOf]

/-- Only the international spelling begins with a plus and passes. -/
theorem eq_normalForm_of_plus {cs head number : List Char} (hhead : head ∈ dialingHeads)
    (hcs : cs = head ++ number) (hplus : ¬ ['0'] <+: cs) : cs = normalForm number := by
  simp only [dialingHeads, List.mem_cons, List.not_mem_nil, or_false] at hhead
  rcases hhead with rfl | rfl | rfl
  · exact absurd ⟨'9' :: number, hcs.symm⟩ hplus
  · exact hcs
  · exact absurd ⟨['0', '9', '6', '3', '9'] ++ number, hcs.symm⟩ hplus

/-- What passes after the rewriting was dialed in one of the three ways before it. -/
theorem dialed_of_format {phone head number : List Char} (hhead : head ∈ dialingHeads)
    (h : international.format phone = head ++ number) :
    ∃ head' ∈ dialingHeads, phone = head' ++ number := by
  have hplus : ∀ rest, ['+', '9', '6', '3'] ++ rest = head ++ number → rest = '9' :: number := by
    intro rest heq
    have hnormal := eq_normalForm_of_plus hhead heq (by simp)
    simpa [normalForm] using hnormal
  rcases format_cases phone with ⟨rest, rfl, hf⟩ | ⟨rest, rfl, hf⟩ | ⟨hzero, hf⟩
  · rw [hplus rest (hf ▸ h)]
    exact ⟨['0', '0', '9', '6', '3', '9'], by simp [dialingHeads], rfl⟩
  · rw [hplus rest (hf ▸ h)]
    exact ⟨['0', '9'], by simp [dialingHeads], rfl⟩
  · exact ⟨head, hhead, hf ▸ h⟩

def norm (a : String) : String := String.ofList (international.format a.toList)

theorem transform_string (convert : Value → Option String) {a : String} (ha : a ≠ "") :
    transformSyriaPhone international convert (.string a) = some (.string (norm a)) := by
  unfold transformSyriaPhone
  split
  · simp_all
  · simp_all
  · simp_all
  · rfl

theorem norm_ne_empty {a : String} (ha : a ≠ "") : norm a ≠ "" := by
  intro h
  have hnil : international.format a.toList = [] := by
    rw [← String.toList_ofList (l := international.format a.toList), ← norm, h]
    rfl
  rcases format_cases a.toList with ⟨rest, -, hf⟩ | ⟨rest, -, hf⟩ | ⟨-, hf⟩
  · simp [hf] at hnil
  · simp [hf] at hnil
  · rw [hf] at hnil
    exact ha (String.toList_eq_nil_iff.1 hnil)

theorem validate_string {s : String} (hs : s ≠ "") :
    validateSyriaPhone (.string s) = isValidSyriaPhone s := by
  unfold validateSyriaPhone
  split <;> simp_all

/-- A number dialed in one of the three ways. -/
def Dialed (a : String) (number : List Char) : Prop :=
  Subscriber number ∧ ∃ head ∈ dialingHeads, a.toList = head ++ number

theorem isValid_norm_iff (a : String) :
    isValidSyriaPhone (norm a) = true ↔ ∃ number, Dialed a number := by
  rw [isValidSyriaPhone_iff, norm, String.toList_ofList]
  constructor
  · rintro ⟨head, hhead, number, hnumber, hf⟩
    obtain ⟨head', hhead', hphone⟩ := dialed_of_format hhead hf
    exact ⟨number, hnumber, head', hhead', hphone⟩
  · rintro ⟨number, hnumber, head, hhead, hphone⟩
    refine ⟨['+', '9', '6', '3', '9'], by simp [dialingHeads], number, hnumber, ?_⟩
    rw [hphone, format_dialed hhead]
    rfl

theorem Dialed.norm {a : String} {number : List Char} (h : Dialed a number) :
    norm a = String.ofList (normalForm number) := by
  obtain ⟨-, head, hhead, hphone⟩ := h
  rw [Accounts.norm, hphone, format_dialed hhead]

/-- The nine digits a number ends in. -/
def lastNine (a : String) : List Char := a.toList.drop (a.toList.length - 9)

theorem Dialed.lastNine {a : String} {number : List Char} (h : Dialed a number) :
    lastNine a = '9' :: number := by
  obtain ⟨hnumber, head, hhead, hphone⟩ := h
  have hlength := hnumber.length
  simp only [dialingHeads, List.mem_cons, List.not_mem_nil, or_false] at hhead
  rw [Accounts.lastNine, hphone]
  rcases hhead with rfl | rfl | rfl <;> simp [hlength]

theorem Dialed.norm_norm {a : String} {number : List Char} (h : Dialed a number) :
    Accounts.norm (Accounts.norm a) = Accounts.norm a := by
  have hnorm : Dialed (Accounts.norm a) number := by
    refine ⟨h.1, ['+', '9', '6', '3', '9'], by simp [dialingHeads], ?_⟩
    rw [h.norm, String.toList_ofList]
    rfl
  rw [hnorm.norm, h.norm]

theorem norm_eq_norm_iff {a b : String} {number number' : List Char} (ha : Dialed a number)
    (hb : Dialed b number') : norm a = norm b ↔ lastNine a = lastNine b := by
  rw [ha.norm, hb.norm, ha.lastNine, hb.lastNine]
  constructor
  · intro h
    have hforms := congrArg String.toList h
    rw [String.toList_ofList, String.toList_ofList] at hforms
    rw [List.append_cancel_left hforms]
  · intro h
    rw [(List.cons.inj h).2]

/-- The text that is sent for a phone passes exactly when it is dialed in one of the three
ways. It is then stored in one form, which the transform keeps, and two texts share it
exactly when they end in the same nine digits. -/
theorem syriaPhone_normal_form (convert : Value → Option String) (a : String) (ha : a ≠ "") :
    ∃ n, transformSyriaPhone international convert (.string a) = some (.string n) ∧
      (validateSyriaPhone (.string n) = true ↔ ∃ number, Dialed a number) ∧
      (∀ number, Dialed a number → n.toList = ['+', '9', '6', '3', '9'] ++ number ∧
        transformSyriaPhone international convert (.string n) = some (.string n)) ∧
      ∀ b m, b ≠ "" →
        transformSyriaPhone international convert (.string b) = some (.string m) →
        validateSyriaPhone (.string n) = true → validateSyriaPhone (.string m) = true →
        (n = m ↔ lastNine a = lastNine b) := by
  have hvalid : ∀ c, c ≠ "" →
      (validateSyriaPhone (.string (norm c)) = true ↔ ∃ number, Dialed c number) := by
    intro c hc
    rw [validate_string (norm_ne_empty hc), isValid_norm_iff]
  refine ⟨norm a, transform_string convert ha, hvalid a ha, ?_, ?_⟩
  · intro number hdialed
    refine ⟨by rw [hdialed.norm, String.toList_ofList]; rfl, ?_⟩
    rw [transform_string convert (norm_ne_empty ha), hdialed.norm_norm]
  · intro b m hb hm hna hmb
    rw [transform_string convert hb] at hm
    cases hm
    obtain ⟨number, hnumber⟩ := (hvalid a ha).1 hna
    obtain ⟨number', hnumber'⟩ := (hvalid b hb).1 hmb
    exact norm_eq_norm_iff hnumber hnumber'

theorem syriaPhone_normal_form_sample :
    transformSyriaPhone international (fun _ => none) (.string "00963944123456") =
      some (.string "+963944123456") := by
  obtain ⟨n, hn, -, hform, -⟩ :=
    syriaPhone_normal_form (fun _ => none) "00963944123456" (by decide)
  have hdialed : Dialed "00963944123456" ['4', '4', '1', '2', '3', '4', '5', '6'] :=
    ⟨(isSubscriber_iff _).1 (by decide), ['0', '0', '9', '6', '3', '9'], by decide, by decide⟩
  have hlist := (hform _ hdialed).1
  rw [hn, ← String.ofList_toList (s := n), hlist]
  rfl

end NestStarter.Accounts
