import NestStarter.Core.Script
import NestStarter.Shared.Pagination

/-! # Walks among writers

`getManyAndCount` is two statements and a walk along `nextPage` many, and the rows may change
between any two of them. A walk finds every row that was there when it began as long as rows are
only inserted, wherever in the order they come in: a row that moves can only move on to a later
window.
-/

namespace NestStarter.Shared

open NestStarter.Core

variable {σ α : Type}

section Positions

variable [DecidableEq α]

theorem idxOf_le_of_sublist {l l' : List α} (h : l.Sublist l') (hnodup : l'.Nodup) {x : α}
    (hx : x ∈ l) : l.idxOf x ≤ l'.idxOf x := by
  induction h with
  | slnil => cases hx
  | cons a hsub ih =>
    obtain ⟨ha, hnodup⟩ := List.nodup_cons.1 hnodup
    have hne : a ≠ x := fun heq => ha (heq ▸ hsub.subset hx)
    have hle := ih hnodup hx
    rw [List.idxOf_cons_ne _ hne]
    omega
  | cons_cons a hsub ih =>
    by_cases heq : a = x
    · simp [heq]
    · have hle := ih (List.nodup_cons.1 hnodup).2
        ((List.mem_cons.1 hx).resolve_left fun h => heq h.symm)
      rw [List.idxOf_cons_ne _ heq, List.idxOf_cons_ne _ heq]
      omega

theorem mem_window {l : List α} {x : α} (hx : x ∈ l) {skip take : Nat}
    (hle : skip ≤ l.idxOf x) (hlt : l.idxOf x < skip + take) : x ∈ (l.drop skip).take take := by
  have hget : l[l.idxOf x]? = some x := List.getElem?_idxOf hx
  have hskip : skip + (l.idxOf x - skip) = l.idxOf x := by omega
  have htake : l.idxOf x - skip < take := by omega
  refine List.mem_of_getElem? (i := l.idxOf x - skip) ?_
  rw [List.getElem?_take_of_lt htake, List.getElem?_drop, hskip, hget]

end Positions

/-! ## The walk -/

section Walk

variable (rows : σ → List α) (limit : Option Int)

/-- `paginate`, on the rows of a store: the window is read first, then the total. -/
def readPage (options : IPaginationOptions) : Script σ (IPaginatedResponse α) := do
  let data ← Script.statement fun s => ((pageQuery (rows s) options).getManyAndCount.1, s)
  let total ← Script.statement fun s => ((pageQuery (rows s) options).getManyAndCount.2, s)
  return { data, pagination := buildPaginationMeta total options.clamp.page options.clamp.limit }

/-- Follow `nextPage` from a page on; `none` where the requests run out before the pages. -/
def walk : Nat → Int → Script σ (Option (List (IPaginatedResponse α)))
  | 0, _ => return none
  | requests + 1, page => do
      let response ← readPage rows ⟨some page, limit⟩
      match response.pagination.nextPage with
      | none => return some [response]
      | some next => do
          let rest ← walk requests next
          return rest.map fun responses => response :: responses

theorem exec_readPage (options : IPaginationOptions) (s : σ) :
    (readPage rows options).exec s = (paginate (rows s) options, s) := rfl

theorem exec_walk (requests : Nat) (page : Int) (s : σ)
    (h : (follow (rows s) limit page).length ≤ requests) :
    (walk rows limit requests page).exec s = (some (follow (rows s) limit page), s) := by
  induction requests generalizing page with
  | zero =>
    rw [follow] at h
    split at h <;> simp at h
  | succ requests ih =>
    rw [walk, Script.exec_bind, exec_readPage]
    rw [follow] at h ⊢
    split at h
    · next hnone =>
      dsimp only
      simp only [hnone]
      rfl
    · next next hsome =>
      dsimp only
      simp only [hsome, Script.exec_bind, ih next (by simpa using h)]
      rfl

variable [DecidableEq α]

/-- Among writers that only insert, a walk that ends has read the rows it began with. -/
theorem safe_walk {Keeps : σ → σ → Prop} (hrefl : ∀ s, Keeps s s)
    (hgrow : ∀ {s s'}, Keeps s s' → (rows s).Sublist (rows s')) (hnodup : ∀ s, (rows s).Nodup)
    (requests : Nat) (page : Int) (hpage : 1 ≤ page) (s : σ) (wanted : α → Prop)
    (hwanted : ∀ x, wanted x → x ∈ rows s ∧
      (IPaginationOptions.clamp ⟨some page, limit⟩).skip.toNat ≤ (rows s).idxOf x) :
    Script.Safe Keeps (fun r _ => ∀ responses ∈ r, ∀ x, wanted x →
      x ∈ responses.flatMap IPaginatedResponse.data) (walk rows limit requests page) s := by
  induction requests generalizing page s wanted with
  | zero => exact fun _ _ responses h => by cases h
  | succ requests ih =>
    -- the window is read at `s₁` and the total at `s₂`
    intro s₁ h₁
    refine ⟨hrefl _, fun s₂ (h₂ : Keeps s₁ s₂) => ⟨hrefl _, ?_⟩⟩
    have hskip := (IPaginationOptions.clamp ⟨some page, limit⟩).skip_nonneg
    have hlimit := (IPaginationOptions.clamp ⟨some page, limit⟩).one_le_limit
    -- a wanted row is in the window, or it lies behind it from now on
    have hrow : ∀ x, wanted x → x ∉ (paginate (rows s₁) ⟨some page, limit⟩).data →
        x ∈ rows s₂ ∧ ((IPaginationOptions.clamp ⟨some page, limit⟩).skip +
          (IPaginationOptions.clamp ⟨some page, limit⟩).limit).toNat ≤ (rows s₂).idxOf x := by
      intro x hx hnot
      obtain ⟨hmem, hle⟩ := hwanted x hx
      have hmem₁ := (hgrow h₁).subset hmem
      have hle₁ := idxOf_le_of_sublist (hgrow h₁) (hnodup _) hmem
      have hle₂ := idxOf_le_of_sublist (hgrow h₂) (hnodup _) hmem₁
      refine ⟨(hgrow h₂).subset hmem₁, ?_⟩
      by_contra hlt
      refine hnot (mem_window hmem₁ (hle.trans hle₁) ?_)
      simp only [pageQuery]
      omega
    dsimp only [pure]
    show Script.Safe Keeps _ (match (paginate (rows s₂) ⟨some page, limit⟩).pagination.nextPage with
      | none => _
      | some next => _) s₂
    cases hnext : (paginate (rows s₂) ⟨some page, limit⟩).pagination.nextPage with
    | none =>
      have hlen := length_le_of_nextPage_eq_none hnext
      intro s' _ responses hresponses x hx
      cases hresponses
      rw [List.flatMap_singleton]
      by_contra hnot
      obtain ⟨hmem, hle⟩ := hrow x hx hnot
      have hlt := List.idxOf_lt_length_of_mem hmem
      omega
    | some next =>
      have hskipNext := skip_nextPage hnext rfl
      have hbounds := nextPage_bounds hnext
      have hfirst := (IPaginationOptions.clamp ⟨some page, limit⟩).one_le_page
      refine Script.Safe.bind hrefl (ih next (by omega) s₂
        (fun x => wanted x ∧ x ∉ (paginate (rows s₁) ⟨some page, limit⟩).data) ?_) ?_
      · rintro x ⟨hx, hnot⟩
        obtain ⟨hmem, hle⟩ := hrow x hx hnot
        refine ⟨hmem, ?_⟩
        simp only [pageQuery] at hskipNext
        rw [hskipNext]
        exact hle
      · intro r s₃ hr s' _ responses hresponses x hx
        obtain ⟨rest, hrest, rfl⟩ := Option.map_eq_some_iff.1 hresponses
        rw [List.flatMap_cons, List.mem_append]
        by_cases hnow : x ∈ (paginate (rows s₁) ⟨some page, limit⟩).data
        · exact Or.inl hnow
        · exact Or.inr (hr rest hrest x ⟨hx, hnow⟩)

end Walk

end NestStarter.Shared
