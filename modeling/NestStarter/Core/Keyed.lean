import Mathlib.Data.List.Nodup
import Mathlib.Data.Nat.SuccPred

/-! # Tables as lists of keyed rows

What an `INSERT`, an `UPDATE` by key and an `INSERT ... ON CONFLICT DO UPDATE` make of the rows of
a table, and of the keys that have to stay apart in it. An upsert that went through has left its
rows behind, so that the same upsert finds nothing to change.
-/

namespace NestStarter.Core.Keyed

variable {α β κ : Type} {rows : List α}

theorem nodup_map_concat {f : α → β} {a : α} (h : (rows.map f).Nodup)
    (hnew : ∀ b ∈ rows, f b ≠ f a) : ((rows ++ [a]).map f).Nodup := by
  rw [List.map_append, List.map_singleton, List.nodup_append]
  refine ⟨h, List.nodup_singleton _, fun x hx y hy => ?_⟩
  obtain ⟨b, hb, rfl⟩ := List.mem_map.1 hx
  rw [List.mem_singleton.1 hy]
  exact hnew b hb

/-- Pairs differ when the second parts do, among those of one first part. -/
theorem nodup_map_pair [DecidableEq κ] {f : α → κ} {g : α → β} (ks : List κ)
    (hks : ∀ a ∈ rows, f a ∈ ks)
    (h : ∀ k ∈ ks, ((rows.filter fun a => f a = k).map g).Nodup) :
    (rows.map fun a => (f a, g a)).Nodup := by
  induction rows with
  | nil => exact List.nodup_nil
  | cons a rows ih =>
    rw [List.map_cons, List.nodup_cons]
    constructor
    · intro hmem
      obtain ⟨b, hb, hpair⟩ := List.mem_map.1 hmem
      have hgroup := h (f a) (hks a List.mem_cons_self)
      rw [List.filter_cons_of_pos (by simp), List.map_cons, List.nodup_cons] at hgroup
      refine hgroup.1 (List.mem_map.2 ⟨b, ?_, (Prod.ext_iff.1 hpair).2⟩)
      exact List.mem_filter.2 ⟨hb, by simpa using (Prod.ext_iff.1 hpair).1⟩
    · refine ih (fun b hb => hks b (List.mem_cons_of_mem _ hb)) fun k hk => ?_
      exact (h k hk).sublist (((List.sublist_cons_self a rows).filter _).map g)

section Alter

variable [DecidableEq κ] {key : α → κ} {k : κ} {f : α → α}

/-- `UPDATE ... WHERE key = k`. -/
def alter (key : α → κ) (k : κ) (f : α → α) (rows : List α) : List α :=
  rows.map fun a => if key a = k then f a else a

theorem mem_alter {b : α} :
    b ∈ alter key k f rows ↔ (∃ a ∈ rows, key a = k ∧ b = f a) ∨ b ∈ rows ∧ key b ≠ k := by
  constructor
  · intro hb
    obtain ⟨a, ha, rfl⟩ := List.mem_map.1 hb
    by_cases hkey : key a = k
    · exact Or.inl ⟨a, ha, hkey, if_pos hkey⟩
    · rw [if_neg hkey]
      exact Or.inr ⟨ha, hkey⟩
  · intro hb
    rcases hb with ⟨a, ha, hkey, rfl⟩ | ⟨hb, hkey⟩
    · exact List.mem_map.2 ⟨a, ha, if_pos hkey⟩
    · exact List.mem_map.2 ⟨b, hb, if_neg hkey⟩

theorem alter_congr {g : α → α} (h : ∀ a ∈ rows, key a = k → f a = g a) :
    alter key k f rows = alter key k g rows := by
  refine List.map_congr_left fun a ha => ?_
  by_cases hkey : key a = k
  · rw [if_pos hkey, if_pos hkey, h a ha hkey]
  · rw [if_neg hkey, if_neg hkey]

theorem map_alter {g : α → β} (h : ∀ a ∈ rows, key a = k → g (f a) = g a) :
    (alter key k f rows).map g = rows.map g := by
  rw [alter, List.map_map]
  refine List.map_congr_left fun a ha => ?_
  by_cases hkey : key a = k
  · simp only [Function.comp_apply, if_pos hkey, h a ha hkey]
  · simp only [Function.comp_apply, if_neg hkey]

theorem alter_eq_self (h : ∀ a ∈ rows, key a = k → f a = a) : alter key k f rows = rows := by
  have hmap := map_alter (g := id) h
  simpa using hmap

/-- A column stays unique when the new value is no other row's. -/
theorem nodup_map_alter {g : α → β} (hkey : (rows.map key).Nodup) (hg : (rows.map g).Nodup)
    (h : ∀ a ∈ rows, key a = k → ∀ b ∈ rows, key b ≠ k → g b ≠ g (f a)) :
    ((alter key k f rows).map g).Nodup := by
  rw [alter, List.map_map]
  refine List.Nodup.map_on (fun a ha b hb hab => ?_) (List.Nodup.of_map _ hkey)
  simp only [Function.comp_apply] at hab
  by_cases hak : key a = k
  · by_cases hbk : key b = k
    · exact List.inj_on_of_nodup_map hkey ha hb (hak.trans hbk.symm)
    · rw [if_pos hak, if_neg hbk] at hab
      exact absurd hab.symm (h a ha hak b hb hbk)
  · by_cases hbk : key b = k
    · rw [if_neg hak, if_pos hbk] at hab
      exact absurd hab (h b hb hbk a ha hak)
    · rw [if_neg hak, if_neg hbk] at hab
      exact List.inj_on_of_nodup_map hg ha hb hab

theorem find?_eq_some_iff (h : (rows.map key).Nodup) {a : α} :
    rows.find? (fun a => key a = k) = some a ↔ a ∈ rows ∧ key a = k := by
  constructor
  · intro hfind
    exact ⟨List.mem_of_find?_eq_some hfind, by simpa using List.find?_some hfind⟩
  · intro ha
    cases hfind : rows.find? fun a => key a = k with
    | none => exact absurd ha.2 (by simpa using List.find?_eq_none.1 hfind a ha.1)
    | some b =>
      have hb : key b = k := by simpa using List.find?_some hfind
      exact congrArg some
        (List.inj_on_of_nodup_map h (List.mem_of_find?_eq_some hfind) ha.1 (hb.trans ha.2.symm))

end Alter

/-! ## Insert or update -/

/-- An `INSERT ... ON CONFLICT (key) DO UPDATE` of proposals `π`, for which the sequence has the
next id. -/
structure Upsert (π α κ : Type) where
  key : π → κ
  keyOf : α → κ
  /-- The new row, with the next value of the sequence. -/
  row : Nat → π → α
  /-- What is left of the sequence. -/
  next : Nat → Nat
  /-- The row in the way, with the columns that are set. -/
  set : α → π → α

/-- The row in the way keeps its key, and the columns that are set are then those of the
proposal. -/
structure Upsert.Lawful {π α κ : Type} (u : Upsert π α κ) : Prop where
  keyOf_row : ∀ n p, u.keyOf (u.row n p) = u.key p
  keyOf_set : ∀ a p, u.keyOf a = u.key p → u.keyOf (u.set a p) = u.key p
  set_row : ∀ n p, u.set (u.row n p) p = u.row n p
  set_set : ∀ a p, u.set (u.set a p) p = u.set a p

/-- Why an upsert fails: it comes to a row of its own again, or breaks a unique index. -/
inductive Refusal where
  | twice
  | unique
  deriving DecidableEq, Repr

namespace Upsert

variable {π : Type} [DecidableEq κ] (u : Upsert π α κ) (Consistent : List α → Prop)
  [DecidablePred Consistent]

def put (rows : List α) (n : Nat) (p : π) : List α :=
  if ∃ a ∈ rows, u.keyOf a = u.key p then alter u.keyOf (u.key p) (u.set · p) rows
  else rows ++ [u.row n p]

def exec : List κ → List α → Nat → List π → Except Refusal (List α) × Nat
  | _, rows, n, [] => (.ok rows, n)
  | touched, rows, n, p :: ps =>
    if u.key p ∈ touched then (.error .twice, u.next n)
    else if Consistent (u.put rows n p) then
      exec (u.key p :: touched) (u.put rows n p) (u.next n) ps
    else (.error .unique, u.next n)

/-- There is a row of the proposal's key, and it has the columns that the proposal sets. -/
def Holds (rows : List α) (p : π) : Prop :=
  (∃ a ∈ rows, u.keyOf a = u.key p) ∧ ∀ a ∈ rows, u.keyOf a = u.key p → u.set a p = a

variable {u Consistent} {n : Nat} {p q : π} {touched : List κ} {ps : List π}

theorem Lawful.holds_put (h : u.Lawful) (rows : List α) (n : Nat) (p : π) :
    u.Holds (u.put rows n p) p := by
  unfold put
  split
  · next hex =>
    obtain ⟨a, ha, hkey⟩ := hex
    refine ⟨⟨u.set a p, mem_alter.2 (Or.inl ⟨a, ha, hkey, rfl⟩), h.keyOf_set a p hkey⟩,
      fun b hb hbkey => ?_⟩
    rcases mem_alter.1 hb with ⟨a, -, -, rfl⟩ | ⟨-, hne⟩
    · exact h.set_set a p
    · exact absurd hbkey hne
  · next hnone =>
    refine ⟨⟨u.row n p, by simp, h.keyOf_row n p⟩, fun b hb hbkey => ?_⟩
    rcases List.mem_append.1 hb with hb | hb
    · exact absurd ⟨b, hb, hbkey⟩ hnone
    · rw [List.mem_singleton.1 hb]
      exact h.set_row n p

/-- A proposal of another key leaves alone what is there. -/
theorem Lawful.holds_put_of_ne (h : u.Lawful) (hq : u.Holds rows q) (hne : u.key q ≠ u.key p) :
    u.Holds (u.put rows n p) q := by
  obtain ⟨⟨a, ha, hkey⟩, hset⟩ := hq
  unfold put
  split
  · refine ⟨⟨a, mem_alter.2 (Or.inr ⟨ha, fun hp => hne (hkey.symm.trans hp)⟩), hkey⟩,
      fun b hb hbkey => ?_⟩
    rcases mem_alter.1 hb with ⟨c, -, hc, rfl⟩ | ⟨hb, -⟩
    · exact absurd (hbkey.symm.trans (h.keyOf_set c p hc)) hne
    · exact hset b hb hbkey
  · refine ⟨⟨a, List.mem_append_left _ ha, hkey⟩, fun b hb hbkey => ?_⟩
    rcases List.mem_append.1 hb with hb | hb
    · exact hset b hb hbkey
    · rw [List.mem_singleton.1 hb, h.keyOf_row] at hbkey
      exact absurd hbkey.symm hne

theorem put_of_holds (h : u.Holds rows p) : u.put rows n p = rows := by
  rw [put, if_pos h.1]
  exact alter_eq_self h.2

theorem exec_cons_eq_ok {rows' : List α} {m : Nat}
    (h : exec u Consistent touched rows n (p :: ps) = (.ok rows', m)) :
    u.key p ∉ touched ∧ Consistent (u.put rows n p) ∧
      exec u Consistent (u.key p :: touched) (u.put rows n p) (u.next n) ps = (.ok rows', m) := by
  unfold exec at h
  split at h
  · simp at h
  · split at h
    · exact ⟨‹_›, ‹_›, h⟩
    · simp at h

/-- What an upsert that went through has left: consistent rows that hold its proposals, and those
it had come to before. -/
theorem Lawful.holds_of_exec (h : u.Lawful) {rows' : List α} {m : Nat}
    (hrows : Consistent rows) (hexec : exec u Consistent touched rows n ps = (.ok rows', m)) :
    Consistent rows' ∧ (∀ p ∈ ps, u.Holds rows' p) ∧ (ps.map u.key).Nodup ∧
      (∀ p ∈ ps, u.key p ∉ touched) ∧
        ∀ q, u.key q ∈ touched → u.Holds rows q → u.Holds rows' q := by
  induction ps generalizing touched rows n with
  | nil =>
    cases hexec
    exact ⟨hrows, by simp, List.nodup_nil, by simp, fun _ _ hq => hq⟩
  | cons p ps ih =>
    obtain ⟨hnew, hput, hrest⟩ := exec_cons_eq_ok hexec
    obtain ⟨hrows', hps, hnodup, hfresh, hkept⟩ := ih hput hrest
    refine ⟨hrows', fun q hq => ?_, ?_, fun q hq => ?_, fun q hq hholds => ?_⟩
    · rcases List.mem_cons.1 hq with rfl | hq
      · exact hkept q List.mem_cons_self (h.holds_put rows n q)
      · exact hps q hq
    · rw [List.map_cons, List.nodup_cons]
      refine ⟨fun hmem => ?_, hnodup⟩
      obtain ⟨q, hq, hkey⟩ := List.mem_map.1 hmem
      exact hfresh q hq (hkey ▸ List.mem_cons_self)
    · rcases List.mem_cons.1 hq with rfl | hq
      · exact hnew
      · exact fun hmem => hfresh q hq (List.mem_cons_of_mem _ hmem)
    · refine hkept q (List.mem_cons_of_mem _ hq) (h.holds_put_of_ne hholds fun hkey => ?_)
      exact hnew (hkey ▸ hq)

omit [DecidableEq κ] in
theorem fresh_cons (hnodup : ((p :: ps).map u.key).Nodup)
    (hfresh : ∀ q ∈ p :: ps, u.key q ∉ touched) :
    (ps.map u.key).Nodup ∧ ∀ q ∈ ps, u.key q ∉ u.key p :: touched := by
  rw [List.map_cons, List.nodup_cons] at hnodup
  refine ⟨hnodup.2, fun q hq hmem => ?_⟩
  rcases List.mem_cons.1 hmem with hkey | hmem
  · exact hnodup.1 (hkey ▸ List.mem_map_of_mem hq)
  · exact hfresh q (List.mem_cons_of_mem _ hq) hmem

/-- Where everything proposed is there, nothing is changed. -/
theorem exec_of_holds (hrows : Consistent rows) (hps : ∀ p ∈ ps, u.Holds rows p)
    (hnodup : (ps.map u.key).Nodup) (hfresh : ∀ p ∈ ps, u.key p ∉ touched) :
    exec u Consistent touched rows n ps = (.ok rows, u.next^[ps.length] n) := by
  induction ps generalizing touched n with
  | nil => rfl
  | cons p ps ih =>
    obtain ⟨hrest, hfresh'⟩ := fresh_cons hnodup hfresh
    have hput : u.put rows n p = rows := put_of_holds (hps p List.mem_cons_self)
    rw [exec, if_neg (hfresh p List.mem_cons_self), hput, if_pos hrows]
    exact ih (fun q hq => hps q (List.mem_cons_of_mem _ hq)) hrest hfresh'

/-- An upsert goes through where each proposal keeps what makes the rows consistent. -/
theorem exec_of_invariant {I : List α → Prop} (hI : ∀ rows, I rows → Consistent rows)
    (hput : ∀ rows n, ∀ p ∈ ps, I rows → I (u.put rows n p)) (hrows : I rows)
    (hnodup : (ps.map u.key).Nodup) (hfresh : ∀ p ∈ ps, u.key p ∉ touched) :
    ∃ rows', exec u Consistent touched rows n ps = (.ok rows', u.next^[ps.length] n) := by
  induction ps generalizing touched rows n with
  | nil => exact ⟨rows, rfl⟩
  | cons p ps ih =>
    obtain ⟨hrest, hfresh'⟩ := fresh_cons hnodup hfresh
    have hone : I (u.put rows n p) := hput rows n p List.mem_cons_self hrows
    rw [exec, if_neg (hfresh p List.mem_cons_self), if_pos (hI _ hone)]
    exact ih (fun rows n q hq => hput rows n q (List.mem_cons_of_mem _ hq)) hone hrest hfresh'

/-- Proposals of different keys fail only at a unique index. -/
theorem exec_eq_error {e : Refusal} {m : Nat} (hnodup : (ps.map u.key).Nodup)
    (hfresh : ∀ p ∈ ps, u.key p ∉ touched)
    (hexec : exec u Consistent touched rows n ps = (.error e, m)) : e = .unique := by
  induction ps generalizing touched rows n with
  | nil => simp [exec] at hexec
  | cons p ps ih =>
    obtain ⟨hrest, hfresh'⟩ := fresh_cons hnodup hfresh
    rw [exec, if_neg (hfresh p List.mem_cons_self)] at hexec
    split at hexec
    · exact ih hrest hfresh' hexec
    · simp only [Prod.mk.injEq, Except.error.injEq] at hexec
      exact hexec.1.symm

/-- The stored rows stay in their places, but for the columns that are set. -/
theorem prefix_put {g : α → β} (hg : ∀ a p, g (u.set a p) = g a) (rows : List α) (n : Nat) (p : π) :
    rows.map g <+: (u.put rows n p).map g := by
  unfold put
  split
  · exact ⟨[], by rw [List.append_nil, map_alter fun a _ _ => hg a p]⟩
  · rw [List.map_append]
    exact List.prefix_append _ _

theorem prefix_exec {g : α → β} (hg : ∀ a p, g (u.set a p) = g a) {rows' : List α} {m : Nat}
    (hexec : exec u Consistent touched rows n ps = (.ok rows', m)) :
    rows.map g <+: rows'.map g := by
  induction ps generalizing touched rows n with
  | nil =>
    cases hexec
    exact List.prefix_rfl
  | cons p ps ih =>
    exact (prefix_put hg rows n p).trans (ih (exec_cons_eq_ok hexec).2.2)

theorem mem_exec_of_not {a : α} (ha : a ∈ rows) (hnot : ∀ p ∈ ps, u.keyOf a ≠ u.key p)
    {rows' : List α} {m : Nat} (hexec : exec u Consistent touched rows n ps = (.ok rows', m)) :
    a ∈ rows' := by
  induction ps generalizing touched rows n with
  | nil =>
    cases hexec
    exact ha
  | cons p ps ih =>
    refine ih ?_ (fun q hq => hnot q (List.mem_cons_of_mem _ hq)) (exec_cons_eq_ok hexec).2.2
    unfold put
    split
    · exact mem_alter.2 (Or.inr ⟨ha, hnot p List.mem_cons_self⟩)
    · exact List.mem_append_left _ ha

/-- What holds of the rows, of new rows and of rows that are set holds of what is left. -/
theorem forall_exec {P : α → Prop} (hrow : ∀ n, ∀ p ∈ ps, P (u.row n p))
    (hset : ∀ a, ∀ p ∈ ps, u.keyOf a = u.key p → P (u.set a p)) (hrows : ∀ a ∈ rows, P a)
    {rows' : List α} {m : Nat} (hexec : exec u Consistent touched rows n ps = (.ok rows', m)) :
    ∀ a ∈ rows', P a := by
  induction ps generalizing touched rows n with
  | nil =>
    cases hexec
    exact hrows
  | cons p ps ih =>
    refine ih (fun n q hq => hrow n q (List.mem_cons_of_mem _ hq))
      (fun a q hq => hset a q (List.mem_cons_of_mem _ hq)) (fun a ha => ?_)
      (exec_cons_eq_ok hexec).2.2
    unfold put at ha
    split at ha
    · rcases mem_alter.1 ha with ⟨b, -, hkey, rfl⟩ | ⟨ha, -⟩
      · exact hset b p List.mem_cons_self hkey
      · exact hrows a ha
    · rcases List.mem_append.1 ha with ha | ha
      · exact hrows a ha
      · rw [List.mem_singleton.1 ha]
        exact hrow n p List.mem_cons_self

/-- The rows that the proposals make, numbered from `n`. -/
def number (u : Upsert π α κ) : Nat → List π → List α
  | _, [] => []
  | n, p :: ps => u.row n p :: number u (u.next n) ps

omit [DecidableEq κ] in
theorem number_mono {qs : List π} (h : qs <+: ps) (n : Nat) : u.number n qs <+: u.number n ps := by
  induction qs generalizing n ps with
  | nil => exact List.nil_prefix
  | cons q qs ih =>
    obtain ⟨rest, rfl⟩ := h
    exact List.cons_prefix_cons.2 ⟨rfl, ih ⟨rest, rfl⟩ (u.next n)⟩

omit [DecidableEq κ] in
theorem mem_number {a : α} (h : a ∈ u.number n ps) : ∃ m, ∃ p ∈ ps, a = u.row m p := by
  induction ps generalizing n with
  | nil => cases h
  | cons p ps ih =>
    rcases List.mem_cons.1 h with rfl | h
    · exact ⟨n, p, List.mem_cons_self, rfl⟩
    · obtain ⟨m, q, hq, ha⟩ := ih h
      exact ⟨m, q, List.mem_cons_of_mem _ hq, ha⟩

omit [DecidableEq κ] in
theorem map_number {f : π → β} {g : α → β} (h : ∀ n p, g (u.row n p) = f p) (n : Nat)
    (ps : List π) : (u.number n ps).map g = ps.map f := by
  induction ps generalizing n with
  | nil => rfl
  | cons p ps ih => rw [number, List.map_cons, List.map_cons, h, ih]

omit [DecidableEq κ] in
/-- The ids of new rows are the values of the sequence. -/
theorem map_number_id {f : α → Nat} (hf : ∀ n p, f (u.row n p) = n) (hnext : u.next = Nat.succ)
    (n : Nat) (ps : List π) : (u.number n ps).map f = List.range' n ps.length := by
  induction ps generalizing n with
  | nil => rfl
  | cons p ps ih => rw [number, List.map_cons, hf, ih, hnext, List.length_cons, List.range'_succ]

omit [DecidableEq κ] in
theorem iterate_next (hnext : u.next = Nat.succ) (n k : Nat) : u.next^[k] n = n + k := by
  rw [hnext, Nat.succ_iterate]

theorem Lawful.exec_append (h : u.Lawful)
    (hconsistent : ∀ qs, qs <+: ps → Consistent (rows ++ u.number n qs))
    (hnodup : (ps.map u.key).Nodup) (hfresh : ∀ p ∈ ps, u.key p ∉ touched)
    (hnew : ∀ p ∈ ps, ∀ a ∈ rows, u.keyOf a ≠ u.key p) :
    exec u Consistent touched rows n ps = (.ok (rows ++ u.number n ps), u.next^[ps.length] n) := by
  induction ps generalizing touched rows n with
  | nil =>
    rw [number, List.append_nil]
    rfl
  | cons p ps ih =>
    obtain ⟨hrest, hfresh'⟩ := fresh_cons hnodup hfresh
    have hnone : ¬ ∃ a ∈ rows, u.keyOf a = u.key p := by
      rintro ⟨a, ha, hkey⟩
      exact hnew p List.mem_cons_self a ha hkey
    have hput : u.put rows n p = rows ++ [u.row n p] := by rw [put, if_neg hnone]
    have hone : Consistent (rows ++ [u.row n p]) := hconsistent [p] ⟨ps, rfl⟩
    rw [exec, if_neg (hfresh p List.mem_cons_self), hput, if_pos hone,
      ih]
    · rw [number, List.append_assoc, List.singleton_append]
      rfl
    · intro qs hqs
      have hcons := hconsistent (p :: qs) (List.cons_prefix_cons.2 ⟨rfl, hqs⟩)
      rwa [number, ← List.singleton_append, ← List.append_assoc] at hcons
    · exact hrest
    · exact hfresh'
    · intro q hq a ha
      rcases List.mem_append.1 ha with ha | ha
      · exact hnew q (List.mem_cons_of_mem _ hq) a ha
      · rw [List.mem_singleton.1 ha, h.keyOf_row]
        exact fun hkey => hfresh' q hq (hkey ▸ List.mem_cons_self)

end Upsert

end NestStarter.Core.Keyed
