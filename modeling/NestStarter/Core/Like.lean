import Mathlib.Data.List.Infix
import Mathlib.Data.List.Count

/-! # Patterns with wildcards

`LIKE`: a pattern is literals, single wildcards and wildcards for any sequence, matched
against a whole text. Patterns are written with `%` and `_`, and a backslash in front of a
character takes it literally.
-/

namespace NestStarter.Core.Like

inductive Token (α : Type) where
  | literal (a : α)
  | one
  | any
  deriving DecidableEq, Repr

variable {α β : Type}

section Matching

variable [DecidableEq α]

def matchesText : List (Token α) → List α → Bool
  | [], text => text.isEmpty
  | .literal a :: p, text =>
      match text with
      | x :: rest => a == x && matchesText p rest
      | [] => false
  | .one :: p, text =>
      match text with
      | _ :: rest => matchesText p rest
      | [] => false
  | .any :: p, text => text.tails.any fun rest => matchesText p rest

theorem matchesText_any_cons {p : List (Token α)} {text : List α} :
    matchesText (.any :: p) text = true ↔ ∃ rest, rest <:+ text ∧ matchesText p rest = true := by
  simp [matchesText, List.any_eq_true]

@[simp] theorem matchesText_any (text : List α) : matchesText [.any] text = true :=
  matchesText_any_cons.2 ⟨[], List.nil_suffix, rfl⟩

theorem matchesText_literals {p : List (Token α)} (s text : List α) :
    matchesText (s.map .literal ++ p) text = true ↔
      ∃ rest, text = s ++ rest ∧ matchesText p rest = true := by
  induction s generalizing text with
  | nil => simp
  | cons a s ih =>
    cases text with
    | nil => simp [matchesText]
    | cons x rest =>
      simp only [List.map_cons, List.cons_append, matchesText, Bool.and_eq_true, beq_iff_eq, ih,
        List.cons.injEq]
      constructor
      · rintro ⟨rfl, rest', rfl, hp⟩
        exact ⟨rest', ⟨rfl, rfl⟩, hp⟩
      · rintro ⟨rest', ⟨rfl, rfl⟩, hp⟩
        exact ⟨rfl, rest', rfl, hp⟩

/-- Literals between two wildcards are looked for anywhere. -/
theorem matchesText_infix (s text : List α) :
    matchesText (.any :: (s.map .literal ++ [.any])) text = true ↔ s <:+: text := by
  rw [matchesText_any_cons]
  constructor
  · rintro ⟨rest, ⟨before, rfl⟩, h⟩
    obtain ⟨after, rfl, -⟩ := (matchesText_literals s rest).1 h
    exact ⟨before, after, List.append_assoc _ _ _⟩
  · rintro ⟨before, after, rfl⟩
    refine ⟨s ++ after, ⟨before, (List.append_assoc _ _ _).symm⟩, ?_⟩
    exact (matchesText_literals s _).2 ⟨after, rfl, matchesText_any after⟩

end Matching

def Token.map (f : α → β) : Token α → Token β
  | .literal a => .literal (f a)
  | .one => .one
  | .any => .any

/-- The pattern with `filler` for every single wildcard and nothing for the others. -/
def fill (filler : α) : List (Token α) → List α
  | [] => []
  | .literal a :: p => a :: fill filler p
  | .one :: p => filler :: fill filler p
  | .any :: p => fill filler p

theorem matchesText_fill [DecidableEq α] (filler : α) (p : List (Token α)) :
    matchesText p (fill filler p) = true := by
  induction p with
  | nil => rfl
  | cons token p ih =>
    cases token with
    | literal a => simpa [fill, matchesText] using ih
    | one => simpa [fill, matchesText] using ih
    | any => exact matchesText_any_cons.2 ⟨fill filler p, List.suffix_rfl, ih⟩

theorem fill_map (f : α → β) (filler : α) (p : List (Token α)) :
    fill (f filler) (p.map (Token.map f)) = (fill filler p).map f := by
  induction p with
  | nil => rfl
  | cons token p ih => cases token <;> simp [fill, Token.map, ih]

/-! ## Written patterns -/

/-- The tokens of a pattern; one that ends in a lone backslash is refused. -/
def tokens : List Char → Option (List (Token Char))
  | [] => some []
  | '%' :: cs => (tokens cs).map (.any :: ·)
  | '_' :: cs => (tokens cs).map (.one :: ·)
  | '\\' :: [] => none
  | '\\' :: c :: cs => (tokens cs).map (.literal c :: ·)
  | c :: cs => (tokens cs).map (.literal c :: ·)

def isMeta (c : Char) : Bool := c == '%' || c == '_' || c == '\\'

def like (pattern text : List Char) : Bool :=
  (tokens pattern).any fun p => matchesText p text

theorem isMeta_iff {c : Char} : isMeta c = true ↔ c = '%' ∨ c = '_' ∨ c = '\\' := by
  simp [isMeta, or_assoc]

def tokenOf (c : Char) : Token Char :=
  if c = '%' then .any else if c = '_' then .one else .literal c

theorem tokens_cons {c : Char} (h : c ≠ '\\') (cs : List Char) :
    tokens (c :: cs) = (tokens cs).map (tokenOf c :: ·) := by
  by_cases hp : c = '%'
  · subst hp
    rfl
  · by_cases hu : c = '_'
    · subst hu
      rfl
    · rw [tokens, tokenOf, if_neg hp, if_neg hu]
      all_goals simp_all

theorem tokens_escape (c : Char) (cs : List Char) :
    tokens ('\\' :: c :: cs) = (tokens cs).map (.literal c :: ·) := rfl

theorem tokens_append {s : List Char} (h : '\\' ∉ s) (r : List Char) :
    tokens (s ++ r) = (tokens r).map (s.map tokenOf ++ ·) := by
  induction s with
  | nil => simp
  | cons c s ih =>
    simp only [List.mem_cons, not_or] at h
    rw [List.cons_append, tokens_cons (Ne.symm h.1), ih h.2, Option.map_map]
    rfl

theorem map_tokenOf {s : List Char} (h : ∀ c ∈ s, isMeta c = false) :
    s.map tokenOf = s.map .literal := by
  refine List.map_congr_left fun c hc => ?_
  have hmeta := h c hc
  simp only [isMeta, Bool.or_eq_false_iff, beq_eq_false_iff_ne] at hmeta
  rw [tokenOf, if_neg hmeta.1.1, if_neg hmeta.1.2]

/-- A text without special characters, between two wildcards, is looked for anywhere. -/
theorem like_infix {s : List Char} (h : ∀ c ∈ s, isMeta c = false) (text : List Char) :
    like ('%' :: (s ++ ['%'])) text = true ↔ s <:+: text := by
  have hback : '\\' ∉ s := fun hmem => absurd (h _ hmem) (by decide)
  rw [like, tokens_cons (by decide), tokens_append hback, map_tokenOf h]
  exact matchesText_infix s text

/-- A function on characters that keeps the special ones apart commutes with reading a
pattern. -/
theorem tokens_map {f : Char → Char} (hf : ∀ m, isMeta m = true → ∀ c, f c = m ↔ c = m)
    (cs : List Char) : tokens (cs.map f) = (tokens cs).map (List.map (Token.map f)) := by
  have hpercent := hf '%' (by decide)
  have hunderscore := hf '_' (by decide)
  have hback := hf '\\' (by decide)
  have hof : ∀ c, c ≠ '\\' → tokenOf (f c) = Token.map f (tokenOf c) := by
    intro c hc
    by_cases hp : c = '%'
    · rw [hp, (hpercent '%').2 rfl]
      rfl
    · by_cases hu : c = '_'
      · rw [hu, (hunderscore '_').2 rfl]
        rfl
      · simp [tokenOf, hp, hu, hpercent c, hunderscore c, Token.map]
  have hplain : ∀ c cs, c ≠ '\\' → tokens (cs.map f) = (tokens cs).map (List.map (Token.map f)) →
      tokens ((c :: cs).map f) = (tokens (c :: cs)).map (List.map (Token.map f)) := by
    intro c cs hc ih
    rw [List.map_cons, tokens_cons (fun h => hc ((hback c).1 h)), tokens_cons hc, ih, hof c hc,
      Option.map_map, Option.map_map]
    rfl
  induction cs using tokens.induct with
  | case1 => rfl
  | case2 cs ih => exact hplain '%' cs (by decide) ih
  | case3 cs ih => exact hplain '_' cs (by decide) ih
  | case4 =>
    rw [List.map_cons, (hback '\\').2 rfl]
    rfl
  | case5 c cs ih =>
    rw [List.map_cons, List.map_cons, (hback '\\').2 rfl, tokens_escape, tokens_escape, ih,
      Option.map_map, Option.map_map]
    rfl
  | case6 c cs hp hu hb hbc ih =>
    by_cases hc : c = '\\'
    · cases cs with
      | nil => exact absurd rfl (hb hc)
      | cons d ds => exact absurd rfl (hbc d ds hc)
    · exact hplain c cs hc ih

/-! ## Special characters are lost

A filled pattern has fewer of some special character than the text it was written with.
-/

section Lost

variable {filler : Char}

/-- The escapes lose a backslash each; a lone one at the end takes the last wildcard as a
literal. -/
theorem count_backslash_fill (hfiller : filler ≠ '\\') (s : List Char) :
    ∃ p, tokens (s ++ ['%']) = some p ∧
      (fill filler p).count '\\' ≤ s.count '\\' ∧
      ('\\' ∈ s → (fill filler p).count '\\' < s.count '\\') := by
  have hplain : ∀ c cs, c ≠ '\\' →
      (∃ p, tokens (cs ++ ['%']) = some p ∧ (fill filler p).count '\\' ≤ cs.count '\\' ∧
        ('\\' ∈ cs → (fill filler p).count '\\' < cs.count '\\')) →
      ∃ p, tokens (c :: cs ++ ['%']) = some p ∧
        (fill filler p).count '\\' ≤ (c :: cs).count '\\' ∧
        ('\\' ∈ c :: cs → (fill filler p).count '\\' < (c :: cs).count '\\') := by
    rintro c cs hc ⟨p, hp, hle, hlt⟩
    refine ⟨tokenOf c :: p, by rw [List.cons_append, tokens_cons hc, hp]; rfl, ?_⟩
    have hcount : (fill filler (tokenOf c :: p)).count '\\' = (fill filler p).count '\\' := by
      unfold tokenOf
      split
      · rfl
      · split
        · exact List.count_cons_of_ne hfiller
        · exact List.count_cons_of_ne hc
    rw [hcount, List.count_cons_of_ne hc, List.mem_cons]
    exact ⟨hle, fun h => hlt (h.resolve_left (Ne.symm hc))⟩
  induction s using tokens.induct with
  | case1 => exact ⟨[.any], rfl, Nat.zero_le _, fun h => absurd h List.not_mem_nil⟩
  | case2 cs ih => exact hplain '%' cs (by decide) ih
  | case3 cs ih => exact hplain '_' cs (by decide) ih
  | case4 => exact ⟨[.literal '%'], rfl, by simp [fill], by simp [fill]⟩
  | case5 c cs ih =>
    obtain ⟨p, hp, hle, -⟩ := ih
    refine ⟨.literal c :: p, by
      rw [List.cons_append, List.cons_append, tokens_escape, hp]; rfl, ?_⟩
    simp only [fill, List.count_cons, beq_self_eq_true, if_true]
    omega
  | case6 c cs hp hu hb hbc ih =>
    by_cases hc : c = '\\'
    · cases cs with
      | nil => exact absurd rfl (hb hc)
      | cons d ds => exact absurd rfl (hbc d ds hc)
    · exact hplain c cs hc ih

theorem count_wildcard_fill {m : Char} (hm : m = '%' ∨ m = '_') (hfiller : filler ≠ m)
    (s : List Char) : (fill filler (s.map tokenOf ++ [.any])).count m = 0 := by
  induction s with
  | nil => rfl
  | cons c s ih =>
    rw [List.map_cons, List.cons_append]
    unfold tokenOf
    split
    · exact ih
    · split
      · exact (List.count_cons_of_ne hfiller).trans ih
      · refine (List.count_cons_of_ne ?_).trans ih
        rintro rfl
        rcases hm with rfl | rfl
        · exact absurd rfl ‹¬ '%' = '%'›
        · exact absurd rfl ‹¬ '_' = '_'›

/-- A written text with a special character matches, as a pattern between wildcards, some
text with fewer of that character. -/
theorem exists_match_of_isMeta (hfiller : isMeta filler = false) {s : List Char} {c : Char}
    (hc : c ∈ s) (hmeta : isMeta c = true) :
    ∃ p, tokens (s ++ ['%']) = some p ∧
      ∃ m, isMeta m = true ∧ (fill filler p).count m < s.count m := by
  simp only [isMeta, Bool.or_eq_false_iff, beq_eq_false_iff_ne] at hfiller
  by_cases hback : '\\' ∈ s
  · obtain ⟨p, hp, -, hlt⟩ := count_backslash_fill hfiller.2 s
    exact ⟨p, hp, '\\', by decide, hlt hback⟩
  · refine ⟨s.map tokenOf ++ [.any], by rw [tokens_append hback]; rfl, c, hmeta, ?_⟩
    have hpos : 0 < s.count c := List.count_pos_iff.2 hc
    rcases isMeta_iff.1 hmeta with rfl | rfl | rfl
    · rwa [count_wildcard_fill (Or.inl rfl) hfiller.1.1]
    · rwa [count_wildcard_fill (Or.inr rfl) hfiller.1.2]
    · exact absurd hc hback

end Lost

end NestStarter.Core.Like
