import Mathlib.Data.List.Basic

/-! # POSIX paths

`normalize`, `join` and `resolve` of Node's `path.posix`, on lists of characters. What a path
names is the stack of segments that is left when `..` pops and `.` and empty segments are
skipped, from the working directory for a relative path. Links are not followed.
-/

namespace NestStarter.Core.PosixPath

abbrev Segment := List Char

abbrev Path := List Char

/-- The segments from the root down to a file. -/
abbrev FilePath := List Segment

def dot : Segment := ['.']

def dotdot : Segment := ['.', '.']

/-- A segment that stands for itself. -/
def Proper (s : Segment) : Prop := s ≠ [] ∧ s ≠ dot ∧ s ≠ dotdot

instance (s : Segment) : Decidable (Proper s) := inferInstanceAs (Decidable (_ ∧ _))

def segments (p : Path) : List Segment := p.splitOn '/'

def ofSegments (l : List Segment) : Path := ['/'].intercalate l

def isAbsolute (p : Path) : Bool := p.head? = some '/'

/-- One segment, on the stack of those before it; `allowAboveRoot` keeps a `..` that has
nothing to pop. -/
def push (allowAboveRoot : Bool) (stack : List Segment) (s : Segment) : List Segment :=
  if s = [] ∨ s = dot then stack
  else if s = dotdot then
    match stack with
    | [] => if allowAboveRoot then [dotdot] else []
    | top :: rest =>
        if top = dotdot then (if allowAboveRoot then dotdot :: top :: rest else top :: rest)
        else rest
  else s :: stack

/-- `normalizeString`, segment by segment. -/
def normalizeSegments (allowAboveRoot : Bool) (l : List Segment) : List Segment :=
  (l.foldl (push allowAboveRoot) []).reverse

def normalize (p : Path) : Path :=
  if p = [] then ['.']
  else
    let trailing := p.getLast? = some '/'
    let l := normalizeSegments (!isAbsolute p) (segments p)
    if l = [] then (if isAbsolute p then ['/'] else if trailing then ['.', '/'] else ['.'])
    else
      let body := ofSegments l ++ if trailing then ['/'] else []
      if isAbsolute p then '/' :: body else body

def join (paths : List Path) : Path :=
  let paths := paths.filter (· ≠ [])
  if paths = [] then ['.'] else normalize (['/'].intercalate paths)

/-- The last segment, without the suffix unless it is the suffix. -/
def basename (p : Path) (suffix : Segment) : Segment :=
  let base := ((segments p).filter (· ≠ [])).getLast?.getD []
  if p = suffix then []
  else if base ≠ suffix ∧ suffix <:+ base then base.take (base.length - suffix.length)
  else base

/-- The loop of `resolve`, over its arguments from the last on. -/
def resolveFrom (cwd : Path) : List Path → Path → Path
  | [], resolved => cwd ++ '/' :: resolved
  | p :: rest, resolved =>
      if p = [] then resolveFrom cwd rest resolved
      else if isAbsolute p then p ++ '/' :: resolved
      else resolveFrom cwd rest (p ++ '/' :: resolved)

def resolveFile (cwd : Path) (paths : List Path) : FilePath :=
  normalizeSegments false (segments (resolveFrom cwd paths.reverse []))

/-- The working directory is absolute, so the result is. -/
def resolve (cwd : Path) (paths : List Path) : Path := '/' :: ofSegments (resolveFile cwd paths)

/-- The file a path names. -/
def fileOf (cwd p : Path) : FilePath :=
  normalizeSegments false (segments (if isAbsolute p then p else cwd ++ '/' :: p))

example : String.ofList (join ["./uploads".toList, "public/a.png".toList]) =
    "uploads/public/a.png" := by decide +kernel
example : String.ofList (resolve "/srv".toList ["./uploads".toList, "public".toList]) =
    "/srv/uploads/public" := by decide +kernel

theorem slash_notMem_segments (p : Path) : ∀ s ∈ segments p, '/' ∉ s := by
  induction p with
  | nil => simp [segments]
  | cons c p ih =>
      intro s hs
      rw [segments, List.splitOn_cons_eq_if_modifyHead] at hs
      by_cases hc : (c == '/') = true
      · rw [if_pos hc] at hs
        rcases List.mem_cons.1 hs with rfl | hs
        · simp
        · exact ih s hs
      · rw [if_neg hc] at hs
        have hsplit : p.splitOn '/' ≠ [] := List.splitOn_ne_nil _ _
        obtain ⟨head, tail, htail⟩ := List.exists_cons_of_ne_nil hsplit
        rw [htail, List.modifyHead_cons] at hs
        rcases List.mem_cons.1 hs with rfl | hs
        · have hhead := ih head (by rw [segments, htail]; exact List.mem_cons_self)
          simp only [List.mem_cons, not_or]
          exact ⟨fun h => hc (beq_iff_eq.2 h.symm), hhead⟩
        · exact ih s (by rw [segments, htail]; exact List.mem_cons_of_mem _ hs)

theorem segments_append_slash (p q : Path) : segments (p ++ '/' :: q) = segments p ++ segments q :=
  List.splitOn_append_cons_self p q

theorem segments_slash_cons (p : Path) : segments ('/' :: p) = [] :: segments p :=
  segments_append_slash [] p

theorem segments_ofSegments {l : List Segment} (hne : l ≠ []) (hslash : ∀ s ∈ l, '/' ∉ s) :
    segments (ofSegments l) = l := List.splitOn_intercalate '/' hslash hne

theorem ofSegments_segments (p : Path) : ofSegments (segments p) = p := List.intercalate_splitOn '/'

/-! ## What a list of segments names -/

/-- Walk down `l` from a place, as `normalizeString` does below the root. -/
def walk (stack : List Segment) (l : List Segment) : List Segment := l.foldl (push false) stack

@[simp] theorem walk_nil (stack : List Segment) : walk stack [] = stack := rfl

theorem walk_append (stack l m : List Segment) :
    walk stack (l ++ m) = walk (walk stack l) m := List.foldl_append

theorem walk_concat (stack l : List Segment) (s : Segment) :
    walk stack (l ++ [s]) = push false (walk stack l) s := walk_append stack l [s]

theorem push_of_proper {allow : Bool} {stack : List Segment} {s : Segment} (h : Proper s) :
    push allow stack s = s :: stack := by
  obtain ⟨hnil, hdot, hdotdot⟩ := h
  simp [push, hnil, hdot, hdotdot]

theorem push_of_skipped {allow : Bool} {stack : List Segment} {s : Segment}
    (h : s = [] ∨ s = dot) : push allow stack s = stack := if_pos h

theorem walk_of_proper {stack l : List Segment} (h : ∀ s ∈ l, Proper s) :
    walk stack l = l.reverse ++ stack := by
  induction l generalizing stack with
  | nil => rfl
  | cons s l ih =>
      rw [walk, List.foldl_cons, push_of_proper (h s List.mem_cons_self)]
      have hl : walk (s :: stack) l = l.reverse ++ s :: stack :=
        ih fun t ht => h t (List.mem_cons_of_mem s ht)
      rw [walk] at hl
      simp [hl]

theorem proper_of_mem_push {stack : List Segment} {s : Segment}
    (h : ∀ t ∈ stack, Proper t) : ∀ t ∈ push false stack s, Proper t := by
  by_cases hs : Proper s
  · rw [push_of_proper hs]
    exact List.forall_mem_cons.2 ⟨hs, h⟩
  · unfold push
    split
    · exact h
    · split
      · cases stack with
        | nil => simp
        | cons top rest =>
            have hrest : ∀ t ∈ rest, Proper t := fun t ht => h t (List.mem_cons_of_mem top ht)
            have htop : top ≠ dotdot := (h top List.mem_cons_self).2.2
            simpa [htop] using hrest
      · exact absurd ⟨fun hnil => by tauto, fun hdot => by tauto, ‹_›⟩ hs

theorem proper_of_mem_walk {stack l : List Segment} (h : ∀ t ∈ stack, Proper t) :
    ∀ t ∈ walk stack l, Proper t := by
  induction l generalizing stack with
  | nil => exact h
  | cons s l ih => exact ih (proper_of_mem_push h)

/-- A name that `push` leaves on the stack was there, is the one pushed, or is `..`. -/
theorem mem_push {allow : Bool} {stack : List Segment} {s t : Segment}
    (h : t ∈ push allow stack s) : t ∈ stack ∨ t = s ∨ t = dotdot := by
  unfold push at h
  split at h
  · exact Or.inl h
  · split at h
    · cases stack with
      | nil => cases allow <;> simp at h; exact Or.inr (Or.inr h)
      | cons top rest =>
          by_cases htop : top = dotdot
          · cases allow <;> simp [htop] at h ⊢ <;> tauto
          · simp only [if_neg htop] at h
            exact Or.inl (List.mem_cons_of_mem top h)
    · rcases List.mem_cons.1 h with rfl | h
      · exact Or.inr (Or.inl rfl)
      · exact Or.inl h

theorem slash_notMem_foldl_push {allow : Bool} {stack l : List Segment}
    (hstack : ∀ s ∈ stack, '/' ∉ s) (hl : ∀ s ∈ l, '/' ∉ s) :
    ∀ s ∈ l.foldl (push allow) stack, '/' ∉ s := by
  induction l generalizing stack with
  | nil => exact hstack
  | cons s l ih =>
      refine ih (fun t ht => ?_) fun t ht => hl t (List.mem_cons_of_mem s ht)
      rcases mem_push ht with ht | rfl | rfl
      · exact hstack t ht
      · exact hl _ List.mem_cons_self
      · decide

theorem slash_notMem_normalizeSegments {allow : Bool} {l : List Segment}
    (hl : ∀ s ∈ l, '/' ∉ s) : ∀ s ∈ normalizeSegments allow l, '/' ∉ s := by
  intro s hs
  exact slash_notMem_foldl_push (by simp) hl s (List.mem_reverse.1 hs)

/-- What `push` keeps is proper, or a `..` that had nothing to pop. -/
theorem proper_or_dotdot_of_mem_push {allow : Bool} {stack : List Segment} {s : Segment}
    (h : ∀ t ∈ stack, Proper t ∨ t = dotdot) :
    ∀ t ∈ push allow stack s, Proper t ∨ t = dotdot := by
  intro t ht
  by_cases hs : s = [] ∨ s = dot
  · rw [push_of_skipped hs] at ht
    exact h t ht
  · rcases mem_push ht with ht | rfl | rfl
    · exact h t ht
    · by_cases hdotdot : t = dotdot
      · exact Or.inr hdotdot
      · exact Or.inl ⟨fun hnil => hs (Or.inl hnil), fun hdot => hs (Or.inr hdot), hdotdot⟩
    · exact Or.inr rfl

theorem walk_push {stack kept : List Segment} (h : ∀ t ∈ kept, Proper t ∨ t = dotdot)
    (s : Segment) :
    walk stack (push true kept s).reverse = push false (walk stack kept.reverse) s := by
  by_cases hskip : s = [] ∨ s = dot
  · rw [push_of_skipped hskip, push_of_skipped hskip]
  · by_cases hs : s = dotdot
    · subst hs
      cases kept with
      | nil => rfl
      | cons top rest =>
          by_cases htop : top = dotdot
          · have hpush : push true (top :: rest) dotdot = dotdot :: top :: rest := by
              simp [push, hskip, htop]
            rw [hpush, List.reverse_cons, walk_concat]
          · have hproper : Proper top := (h top List.mem_cons_self).resolve_right htop
            rw [List.reverse_cons, walk_concat, push_of_proper hproper]
            simp [push, hskip, htop]
    · rw [push_of_proper ⟨by tauto, by tauto, hs⟩, List.reverse_cons, walk_concat]

/-- Normalising a relative path does not change where it leads, wherever it starts. -/
theorem walk_normalizeSegments (stack l : List Segment) :
    walk stack (normalizeSegments true l) = walk stack l := by
  have hkept : ∀ kept, (∀ t ∈ kept, Proper t ∨ t = dotdot) →
      walk stack (l.foldl (push true) kept).reverse = walk (walk stack kept.reverse) l := by
    induction l with
    | nil => exact fun kept _ => rfl
    | cons s l ih =>
        intro kept hk
        rw [List.foldl_cons, ih _ (proper_or_dotdot_of_mem_push hk), walk_push hk]
        rfl
  exact hkept [] (by simp)

/-- Normalising below the root does not change where it leads from the root. -/
theorem walk_normalizeSegments_root (l : List Segment) :
    walk [] (normalizeSegments false l) = walk [] l := by
  have hproper : ∀ s ∈ normalizeSegments false l, Proper s := by
    intro s hs
    exact proper_of_mem_walk (l := l) (by simp) s (List.mem_reverse.1 hs)
  rw [walk_of_proper hproper, normalizeSegments, List.reverse_reverse, List.append_nil]
  rfl

/-! ## The three functions -/

theorem isAbsolute_of_proper {p : Path} (h : ∀ s ∈ segments p, Proper s) :
    isAbsolute p = false := by
  cases p with
  | nil => rfl
  | cons c p =>
      have hc : c ≠ '/' := by
        rintro rfl
        exact (h [] (by rw [segments_slash_cons]; exact List.mem_cons_self)).1 rfl
      simp [isAbsolute, hc]

theorem fileOf_eq (cwd p : Path) :
    fileOf cwd p =
      (walk (if isAbsolute p then [] else walk [] (segments cwd)) (segments p)).reverse := by
  unfold fileOf
  cases habs : isAbsolute p with
  | true => rfl
  | false =>
      rw [if_neg (by simp), if_neg (by simp), segments_append_slash, normalizeSegments]
      exact congrArg List.reverse (walk_append [] (segments cwd) (segments p))

theorem proper_of_mem_fileOf {cwd p : Path} : ∀ s ∈ fileOf cwd p, Proper s := by
  intro s hs
  exact proper_of_mem_walk (by simp) s (List.mem_reverse.1 hs)

theorem slash_notMem_fileOf {cwd p : Path} : ∀ s ∈ fileOf cwd p, '/' ∉ s :=
  slash_notMem_normalizeSegments (slash_notMem_segments _)

@[simp] theorem walk_segments_nil (stack : List Segment) : walk stack (segments []) = stack := by
  show push false stack [] = stack
  exact push_of_skipped (Or.inl rfl)

theorem walk_segments_slash_cons (stack : List Segment) (p : Path) :
    walk stack (segments ('/' :: p)) = walk stack (segments p) := by
  rw [segments_slash_cons]
  show walk (push false stack []) (segments p) = walk stack (segments p)
  rw [push_of_skipped (Or.inl rfl)]

theorem walk_segments_concat_slash (stack : List Segment) (p : Path) :
    walk stack (segments (p ++ ['/'])) = walk stack (segments p) := by
  rw [segments_append_slash, walk_append, walk_segments_nil]

/-- An absolute path made of proper segments names them. -/
theorem fileOf_ofSegments {cwd : Path} {l : FilePath} (hproper : ∀ s ∈ l, Proper s)
    (hslash : ∀ s ∈ l, '/' ∉ s) : fileOf cwd ('/' :: ofSegments l) = l := by
  have habs : isAbsolute ('/' :: ofSegments l) = true := rfl
  rw [fileOf_eq, if_pos habs, walk_segments_slash_cons]
  cases l with
  | nil => rfl
  | cons s rest =>
      rw [segments_ofSegments (List.cons_ne_nil s rest) hslash, walk_of_proper hproper]
      simp

theorem isAbsolute_ofSegments_append {l : List Segment} (hne : l ≠ []) (hnil : ∀ s ∈ l, s ≠ [])
    (hslash : ∀ s ∈ l, '/' ∉ s) (t : Path) : isAbsolute (ofSegments l ++ t) = false := by
  obtain ⟨s, rest, rfl⟩ := List.exists_cons_of_ne_nil hne
  obtain ⟨c, s, rfl⟩ := List.exists_cons_of_ne_nil (hnil s List.mem_cons_self)
  have hc : c ≠ '/' := by
    rintro rfl
    exact hslash _ List.mem_cons_self List.mem_cons_self
  have hhead : (ofSegments ((c :: s) :: rest)).head? = some c := by
    cases rest with
    | nil => rfl
    | cons t rest => rfl
  have hhead : (ofSegments ((c :: s) :: rest) ++ t).head? = some c := by
    rw [List.head?_append, hhead]
    rfl
  simp [isAbsolute, hhead, hc]

theorem proper_or_dotdot_of_mem_foldl_push {allow : Bool} {kept l : List Segment}
    (h : ∀ t ∈ kept, Proper t ∨ t = dotdot) :
    ∀ t ∈ l.foldl (push allow) kept, Proper t ∨ t = dotdot := by
  induction l generalizing kept with
  | nil => exact h
  | cons s l ih => exact ih (proper_or_dotdot_of_mem_push h)

theorem ne_nil_of_mem_normalizeSegments {allow : Bool} {l : List Segment} :
    ∀ s ∈ normalizeSegments allow l, s ≠ [] := by
  intro s hs
  rcases proper_or_dotdot_of_mem_foldl_push (l := l) (by simp) s (List.mem_reverse.1 hs) with
    hproper | rfl
  · exact hproper.1
  · decide

theorem fileOf_normalize (cwd p : Path) : fileOf cwd (normalize p) = fileOf cwd p := by
  by_cases hempty : p = []
  · subst hempty
    rw [fileOf_eq, fileOf_eq]
    rfl
  · have hwalk : ∀ l t, (t = [] ∨ t = ['/']) → l ≠ [] → (∀ s ∈ l, '/' ∉ s) → ∀ stack,
        walk stack (segments (ofSegments l ++ t)) = walk stack l := by
      intro l t ht hne hslash stack
      rcases ht with rfl | rfl
      · rw [List.append_nil, segments_ofSegments hne hslash]
      · rw [walk_segments_concat_slash, segments_ofSegments hne hslash]
    have ht : (if p.getLast? = some '/' then ['/'] else []) = [] ∨
        (if p.getLast? = some '/' then ['/'] else []) = ['/'] := by
      split
      · exact Or.inr rfl
      · exact Or.inl rfl
    have hslash : ∀ allow, ∀ s ∈ normalizeSegments allow (segments p), '/' ∉ s := fun allow =>
      slash_notMem_normalizeSegments (slash_notMem_segments p)
    cases habs : isAbsolute p with
    | true =>
        have hroot := walk_normalizeSegments_root (segments p)
        rw [fileOf_eq cwd p, if_pos habs, ← hroot]
        by_cases hl : normalizeSegments false (segments p) = []
        · have hn : normalize p = ['/'] := by simp [normalize, hempty, habs, hl]
          rw [hn, hl]
          rfl
        · have hn : normalize p = '/' :: (ofSegments (normalizeSegments false (segments p)) ++
              if p.getLast? = some '/' then ['/'] else []) := by
            simp [normalize, hempty, habs, hl]
          have habs' : isAbsolute (normalize p) = true := by rw [hn]; rfl
          rw [fileOf_eq, if_pos habs', hn, walk_segments_slash_cons, hwalk _ _ ht hl (hslash false)]
    | false =>
        have hrel := walk_normalizeSegments (walk [] (segments cwd)) (segments p)
        rw [fileOf_eq cwd p, if_neg (by simp [habs]), ← hrel]
        by_cases hl : normalizeSegments true (segments p) = []
        · have hn : normalize p = ['.'] ∨ normalize p = ['.', '/'] := by
            by_cases hlast : p.getLast? = some '/' <;> simp [normalize, hempty, habs, hl, hlast]
          rw [hl]
          rcases hn with hn | hn <;> rw [hn, fileOf_eq] <;> rfl
        · have hn : normalize p = ofSegments (normalizeSegments true (segments p)) ++
              if p.getLast? = some '/' then ['/'] else [] := by
            simp [normalize, hempty, habs, hl]
          have habs' : isAbsolute (normalize p) = false := by
            rw [hn]
            exact isAbsolute_ofSegments_append hl ne_nil_of_mem_normalizeSegments (hslash true) _
          rw [fileOf_eq, if_neg (by simp [habs']), hn, hwalk _ _ ht hl (hslash true)]

theorem fileOf_append_slash {base : Path} (cwd p : Path) (hbase : base ≠ []) :
    fileOf cwd (base ++ '/' :: p) = (walk (fileOf cwd base).reverse (segments p)).reverse := by
  have habs : isAbsolute (base ++ '/' :: p) = isAbsolute base := by
    obtain ⟨c, rest, rfl⟩ := List.exists_cons_of_ne_nil hbase
    rfl
  rw [fileOf_eq, fileOf_eq, habs, segments_append_slash, walk_append, List.reverse_reverse]

theorem fileOf_join {p : Path} (cwd base : Path) (hne : p ≠ []) (hrel : isAbsolute p = false) :
    fileOf cwd (join [base, p]) = (walk (fileOf cwd base).reverse (segments p)).reverse := by
  by_cases hbase : base = []
  · have hjoin : join [base, p] = normalize p := by simp [join, hbase, hne]
    rw [hjoin, fileOf_normalize, hbase, fileOf_eq cwd [], fileOf_eq cwd p, hrel]
    simp [isAbsolute]
  · have hjoin : join [base, p] = normalize (base ++ '/' :: p) := by simp [join, hbase, hne]
    rw [hjoin, fileOf_normalize, fileOf_append_slash cwd p hbase]

theorem normalizeSegments_resolveFrom (cwd a resolved : Path) :
    normalizeSegments false (segments (resolveFrom cwd [a] resolved)) =
      (walk (fileOf cwd a).reverse (segments resolved)).reverse := by
  rw [fileOf_eq, List.reverse_reverse]
  by_cases hempty : a = []
  · have hfrom : resolveFrom cwd [a] resolved = cwd ++ '/' :: resolved := by
      simp [resolveFrom, hempty]
    rw [hfrom, hempty, walk_segments_nil, segments_append_slash, normalizeSegments]
    exact congrArg List.reverse (walk_append [] (segments cwd) (segments resolved))
  · cases habs : isAbsolute a with
    | true =>
        have hfrom : resolveFrom cwd [a] resolved = a ++ '/' :: resolved := by
          simp [resolveFrom, hempty, habs]
        rw [hfrom, segments_append_slash, if_pos rfl, normalizeSegments]
        exact congrArg List.reverse (walk_append [] (segments a) (segments resolved))
    | false =>
        have hfrom : resolveFrom cwd [a] resolved = cwd ++ '/' :: (a ++ '/' :: resolved) := by
          simp [resolveFrom, hempty, habs]
        rw [hfrom, segments_append_slash, segments_append_slash, if_neg (by simp),
          ← walk_append, ← walk_append, normalizeSegments]
        rfl

theorem resolveFile_pair (cwd a b : Path) :
    resolveFile cwd [a, b] =
      if isAbsolute b then fileOf cwd b
      else (walk (fileOf cwd a).reverse (segments b)).reverse := by
  have hlast : ∀ p resolved, resolveFrom cwd [p, a] resolved =
      if p = [] then resolveFrom cwd [a] resolved
      else if isAbsolute p then p ++ '/' :: resolved
      else resolveFrom cwd [a] (p ++ '/' :: resolved) := fun p resolved => rfl
  rw [resolveFile]
  show normalizeSegments false (segments (resolveFrom cwd [b, a] [])) = _
  rw [hlast]
  by_cases hempty : b = []
  · rw [if_pos hempty, normalizeSegments_resolveFrom, hempty]
    rfl
  · rw [if_neg hempty]
    cases habs : isAbsolute b with
    | true =>
        rw [if_pos rfl, if_pos rfl, fileOf_eq, if_pos habs, normalizeSegments]
        exact congrArg List.reverse (walk_segments_concat_slash [] b)
    | false =>
        rw [if_neg (by simp), if_neg (by simp), normalizeSegments_resolveFrom,
          walk_segments_concat_slash]

/-- What is above the separator in the text of a path is above it in the file. -/
theorem below_of_isPrefix {root file : FilePath} (hne : root ≠ [])
    (hroot : ∀ s ∈ root, '/' ∉ s) (hfile : ∀ s ∈ file, '/' ∉ s)
    (h : ('/' :: ofSegments root ++ ['/']) <+: '/' :: ofSegments file) :
    ∃ rest, rest ≠ [] ∧ file = root ++ rest := by
  obtain ⟨t, ht⟩ := h
  have htext : ofSegments root ++ '/' :: t = ofSegments file := by
    simpa using ht
  have hnefile : file ≠ [] := by
    rintro rfl
    simp [ofSegments] at htext
  refine ⟨segments t, List.splitOn_ne_nil _ _, ?_⟩
  rw [← segments_ofSegments hnefile hfile, ← htext, segments_append_slash,
    segments_ofSegments hne hroot]

def textLength : List Segment → Nat
  | [] => 0
  | s :: l => s.length + 1 + textLength l

theorem textLength_append (l m : List Segment) :
    textLength (l ++ m) = textLength l + textLength m := by
  induction l with
  | nil => simp [textLength]
  | cons s l ih =>
      rw [List.cons_append, textLength, textLength, ih]
      omega

theorem textLength_reverse (l : List Segment) : textLength l.reverse = textLength l := by
  induction l with
  | nil => rfl
  | cons s l ih =>
      rw [List.reverse_cons, textLength_append, ih]
      simp only [textLength]
      omega

theorem textLength_push (stack : List Segment) (s : Segment) :
    textLength (push false stack s) ≤ textLength stack + (s.length + 1) := by
  by_cases hs : Proper s
  · rw [push_of_proper hs]
    simp [textLength]
    omega
  · unfold push
    split
    · omega
    · split
      · cases stack with
        | nil => simp [textLength]
        | cons top rest =>
            by_cases htop : top = dotdot
            · simp [htop]
            · simp only [if_neg htop]
              simp [textLength]
              omega
      · exact absurd ⟨by tauto, by tauto, ‹_›⟩ hs

theorem textLength_walk (stack l : List Segment) :
    textLength (walk stack l) ≤ textLength stack + textLength l := by
  induction l generalizing stack with
  | nil => simp [textLength]
  | cons s l ih =>
      have hpush := textLength_push stack s
      have hrest := ih (push false stack s)
      show textLength (walk (push false stack s) l) ≤ _
      rw [textLength]
      omega

theorem textLength_of_ne_nil {l : List Segment} (h : l ≠ []) :
    textLength l = (ofSegments l).length + 1 := by
  induction l with
  | nil => exact absurd rfl h
  | cons s l ih =>
      cases l with
      | nil => simp [textLength, ofSegments]
      | cons t l =>
          have hrest := ih (List.cons_ne_nil t l)
          have htext : ofSegments (s :: t :: l) = s ++ '/' :: ofSegments (t :: l) := by
            simp [ofSegments]
          rw [textLength, htext, List.length_append, List.length_cons, hrest]
          omega

theorem textLength_segments (p : Path) : textLength (segments p) = p.length + 1 := by
  have hne : segments p ≠ [] := List.splitOn_ne_nil '/' p
  rw [textLength_of_ne_nil hne, ofSegments_segments]

end NestStarter.Core.PosixPath
