import Mathlib.Data.List.Infix

/-! # Glob patterns

A pattern is a list of single places, each with the letters it takes, and of wildcards for any
sequence; it is matched against a whole text. Over bytes, patterns are written with `*`, `?`,
classes in brackets, and a backslash in front of a byte that is taken literally.
-/

namespace NestStarter.Core.Glob

inductive Token (α : Type) where
  | place (takes : α → Bool)
  | any

section Matching

variable {α : Type}

def matchesText : List (Token α) → List α → Bool
  | [], text => text.isEmpty
  | .place takes :: p, text =>
      match text with
      | x :: rest => takes x && matchesText p rest
      | [] => false
  | .any :: p, text => text.tails.any fun rest => matchesText p rest

theorem matchesText_any_cons {p : List (Token α)} {text : List α} :
    matchesText (.any :: p) text = true ↔ ∃ rest, rest <:+ text ∧ matchesText p rest = true := by
  simp [matchesText, List.any_eq_true]

@[simp] theorem matchesText_any (text : List α) : matchesText [.any] text = true :=
  matchesText_any_cons.2 ⟨[], List.nil_suffix, rfl⟩

def Token.literal [DecidableEq α] (a : α) : Token α := .place fun x => x == a

theorem matchesText_literals [DecidableEq α] {p : List (Token α)} (s text : List α) :
    matchesText (s.map .literal ++ p) text = true ↔
      ∃ rest, text = s ++ rest ∧ matchesText p rest = true := by
  induction s generalizing text with
  | nil => simp
  | cons a s ih =>
      cases text with
      | nil => simp [matchesText, Token.literal]
      | cons x rest =>
          simp only [List.map_cons, List.cons_append, Token.literal, matchesText,
            Bool.and_eq_true, beq_iff_eq, List.cons.injEq]
          rw [ih]
          simp only [exists_and_left, and_assoc]

end Matching

/-! ## Written patterns -/

def star : UInt8 := '*'.toUInt8
def question : UInt8 := '?'.toUInt8
def openBracket : UInt8 := '['.toUInt8
def closeBracket : UInt8 := ']'.toUInt8
def caret : UInt8 := '^'.toUInt8
def dash : UInt8 := '-'.toUInt8
def backslash : UInt8 := '\\'.toUInt8

inductive Item where
  | byte (b : UInt8)
  | range (first last : UInt8)
  deriving DecidableEq, Repr

/-- The items of a class, and what follows it. A class that is not closed ends with the
pattern. -/
def items : List UInt8 → List Item × List UInt8
  | [] => ([], [])
  | [b] => if b = closeBracket then ([], []) else ([.byte b], [])
  | b :: c :: bs =>
      if b = backslash then (items bs).map (.byte c :: ·) id
      else if b = closeBracket then ([], c :: bs)
      else
        match bs with
        | d :: ds =>
            if c = dash then (items ds).map (.range b d :: ·) id
            else (items (c :: d :: ds)).map (.byte b :: ·) id
        | [] => (items [c]).map (.byte b :: ·) id

theorem length_items_le (bs : List UInt8) : (items bs).2.length ≤ bs.length := by
  fun_induction items bs <;> simp only [Prod.map_snd, id_eq, List.length_cons] at * <;> omega

section Bytes

-- What a byte counts as where a range compares it: whether it has a sign depends on the platform.
variable (rank : UInt8 → Int)

def Item.takes (x : UInt8) : Item → Bool
  | .byte b => x == b
  | .range first last =>
      decide (min (rank first) (rank last) ≤ rank x ∧ rank x ≤ max (rank first) (rank last))

/-- A class from behind its opening bracket, and what follows it. -/
def readClass (bs : List UInt8) : Token UInt8 × List UInt8 :=
  let negated := bs.head? == some caret
  let body := items (if negated then bs.tail else bs)
  (.place fun x => negated != body.1.any (Item.takes rank x), body.2)

theorem length_readClass_le (bs : List UInt8) : (readClass rank bs).2.length ≤ bs.length := by
  refine (length_items_le _).trans ?_
  split <;> simp

def tokens : List UInt8 → List (Token UInt8)
  | [] => []
  | b :: bs =>
      if b = star then .any :: tokens bs
      else if b = question then (.place fun _ => true) :: tokens bs
      else if b = openBracket then (readClass rank bs).1 :: tokens (readClass rank bs).2
      else if b = backslash then
        match bs with
        | [] => [.literal backslash]
        | c :: cs => .literal c :: tokens cs
      else .literal b :: tokens bs
termination_by bs => bs.length
decreasing_by
  · simp
  · simp
  · exact Nat.lt_succ_of_le (length_readClass_le _ _)
  · simp only [List.length_cons]
    omega
  · simp

def glob (pattern text : List UInt8) : Bool := matchesText (tokens rank pattern) text

def isMeta (b : UInt8) : Bool := b == star || b == question || b == openBracket || b == backslash

def isPlain (s : List UInt8) : Bool := s.all fun b => !isMeta b

variable {rank}

theorem tokens_cons {b : UInt8} (h : isMeta b = false) (bs : List UInt8) :
    tokens rank (b :: bs) = .literal b :: tokens rank bs := by
  simp only [isMeta, Bool.or_eq_false_iff, beq_eq_false_iff_ne] at h
  rw [tokens.eq_def]
  simp [h.1.1.1, h.1.1.2, h.1.2, h.2]

theorem tokens_append {s : List UInt8} (h : isPlain s = true) (bs : List UInt8) :
    tokens rank (s ++ bs) = s.map .literal ++ tokens rank bs := by
  induction s with
  | nil => rfl
  | cons b s ih =>
      simp only [isPlain, List.all_cons, Bool.and_eq_true, Bool.not_eq_true'] at h
      rw [List.cons_append, tokens_cons h.1, ih h.2]
      rfl

/-- A text in front of a pattern is looked for where the pattern is matched. -/
theorem glob_append {s : List UInt8} (h : isPlain s = true) (pattern text : List UInt8) :
    glob rank (s ++ pattern) text = true ↔
      ∃ rest, text = s ++ rest ∧ glob rank pattern rest = true := by
  rw [glob, tokens_append h]
  exact matchesText_literals s text

theorem glob_star_cons (pattern text : List UInt8) :
    glob rank (star :: pattern) text = true ↔
      ∃ rest, rest <:+ text ∧ glob rank pattern rest = true := by
  rw [glob, tokens.eq_def]
  exact matchesText_any_cons

theorem glob_star (text : List UInt8) : glob rank [star] text = true := by
  rw [glob_star_cons]
  exact ⟨[], List.nil_suffix, by simp [glob, tokens, matchesText]⟩

end Bytes

end NestStarter.Core.Glob
