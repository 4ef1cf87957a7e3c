import Mathlib.Logic.Relation
import NestStarter.RefreshTokens.Chain

/-! # A refresh token is exchanged at most once

What the chain invariant says about every reachable table, whatever the
interleaving: replaced rows are revoked and point to newer rows of the same
principal, and a session never has two live tokens.
-/

namespace NestStarter.RefreshTokens

open NestStarter.Core

/-- One successful exchange leads from row `a` to row `b`. -/
def Succeeds (sh : Shared) (a b : Nat) : Prop := ∃ e ∈ sh.exchanges, e.oldId = a ∧ e.newId = b

/-- The rows that descend from row `root` by successful exchanges. -/
def Descends (sh : Shared) : Nat → Nat → Prop := Relation.ReflTransGen (Succeeds sh)

variable {sha256 : String → String} {ttlSeconds : Nat}

/-- On stored rows the exchanges are the links `replacedById` records. -/
theorem ChainOk.succeeds_iff {sh : Shared} (h : ChainOk sha256 sh) {r : RefreshTokenEntity}
    (hr : r ∈ sh.db.rows) (k : Nat) : Succeeds sh r.id k ↔ r.replacedById = some k := by
  constructor
  · rintro ⟨e, he, hold, rfl⟩
    exact (h.spent e he r hr hold.symm).2
  · intro hk
    obtain ⟨_, e, he, hold, hnew⟩ := h.replaced r hr k hk
    exact ⟨e, he, hold, hnew⟩

theorem ChainOk.succeeds_unique {sh : Shared} (h : ChainOk sha256 sh) :
    Relator.RightUnique (Succeeds sh) := by
  rintro a b b' ⟨e, he, rfl, rfl⟩ ⟨e', he', hold, rfl⟩
  rw [List.inj_on_of_nodup_map h.oldId he' he hold]

/-- An unrevoked row has no successor, so nothing else descends from it. -/
theorem ChainOk.eq_of_descends {sh : Shared} (h : ChainOk sha256 sh) {r : RefreshTokenEntity}
    (hr : r ∈ sh.db.rows) (hlive : r.revokedAt = none) {k : Nat} (hk : Descends sh r.id k) :
    r.id = k := by
  rcases Relation.ReflTransGen.cases_head hk with heq | ⟨b, ⟨e, he, hold, _⟩, _⟩
  · exact heq
  · exact absurd hlive (h.spent e he r hr hold.symm).1

theorem ChainOk.live_unique {sh : Shared} (h : ChainOk sha256 sh) {root : Nat}
    {r s : RefreshTokenEntity} (hr : r ∈ sh.db.rows) (hs : s ∈ sh.db.rows)
    (hrr : Descends sh root r.id) (hrs : Descends sh root s.id)
    (hlr : r.revokedAt = none) (hls : s.revokedAt = none) : r = s := by
  refine h.db.eq_of_key hr hs ?_
  rcases Relation.ReflTransGen.total_of_right_unique h.succeeds_unique hrr hrs with hd | hd
  · exact h.eq_of_descends hr hlr hd
  · exact (h.eq_of_descends hs hls hd).symm

/-- The link of a replaced row goes up, within one principal. -/
theorem ChainOk.link {sh : Shared} (h : ChainOk sha256 sh) {r : RefreshTokenEntity}
    (hr : r ∈ sh.db.rows) {k : Nat} (hk : r.replacedById = some k) :
    r.id < k ∧ ∀ s ∈ sh.db.rows, s.id = k → s.userId = r.userId ∧ s.role = r.role := by
  obtain ⟨e, he, hold, hnew⟩ := (h.succeeds_iff hr k).2 hk
  obtain ⟨m, hm, m', hm', hmid, hmid', hlt, huser, hrole, _⟩ := h.exchange e he
  refine ⟨by omega, fun s hs hsk => ?_⟩
  have hmr : m = r.minted := h.minted_eq hm (h.recorded r hr) (hmid.trans hold)
  have hms : m' = s.minted := h.minted_eq hm' (h.recorded s hs) (hmid'.trans (hnew.trans hsk.symm))
  subst hmr hms
  exact ⟨huser, hrole⟩

theorem ChainOk.unshared {sh : Shared} (h : ChainOk sha256 sh) {r s : RefreshTokenEntity}
    (hr : r ∈ sh.db.rows) (hs : s ∈ sh.db.rows) {k : Nat} (hk : r.replacedById = some k)
    (hk' : s.replacedById = some k) : r = s := by
  obtain ⟨e, he, hold, hnew⟩ := (h.succeeds_iff hr k).2 hk
  obtain ⟨e', he', hold', hnew'⟩ := (h.succeeds_iff hs k).2 hk'
  have hee : e = e' := List.inj_on_of_nodup_map h.newId he he' (hnew.trans hnew'.symm)
  subst hee
  exact h.db.eq_of_key hr hs (hold.symm.trans hold')

theorem ChainOk.exchange_eq {sh : Shared} (h : ChainOk sha256 sh) {e e' : Exchange}
    (he : e ∈ sh.exchanges) (he' : e' ∈ sh.exchanges)
    (htok : e.presentedToken = e'.presentedToken) : e = e' := by
  obtain ⟨m, hm, _, _, hmid, _, _, _, _, hhash⟩ := h.exchange e he
  obtain ⟨m', hm', _, _, hmid', _, _, _, _, hhash'⟩ := h.exchange e' he'
  have hmm : m = m' :=
    List.inj_on_of_nodup_map h.mintedHash hm hm' (by rw [hhash, hhash', htok])
  subst hmm
  exact List.inj_on_of_nodup_map h.oldId he he' (hmid.symm.trans hmid')

/-- What callers of the service rely on. -/
structure SingleUse (sh : Shared) : Prop where
  revoked : ∀ r ∈ sh.db.rows, r.replacedById ≠ none → r.revokedAt ≠ none
  successor : ∀ r ∈ sh.db.rows, ∀ k, r.replacedById = some k →
    r.id < k ∧ ∀ s ∈ sh.db.rows, s.id = k → s.userId = r.userId ∧ s.role = r.role
  unshared : ∀ r ∈ sh.db.rows, ∀ s ∈ sh.db.rows, ∀ k,
    r.replacedById = some k → s.replacedById = some k → r = s
  once : ∀ tok, (sh.exchanges.map Exchange.presentedToken).count tok ≤ 1
  oneLive : ∀ root ∈ sh.issued, ∀ r ∈ sh.db.rows, ∀ s ∈ sh.db.rows,
    Descends sh root r.id → Descends sh root s.id →
      r.revokedAt = none → s.revokedAt = none → r = s

theorem singleUse_of_reachable (sha256 : String → String) (ttlSeconds : Nat) (now : Instant)
    (s : State) (h : Reachable (step sha256 ttlSeconds) (initial now) s) : SingleUse s.shared := by
  have hc := (chainInv_of_reachable h).shared
  refine ⟨fun r hr hk => ?_, fun r hr k hk => hc.link hr hk,
    fun r hr s hs k hk hk' => hc.unshared hr hs hk hk', fun tok => ?_,
    fun root _ r hr s hs hrr hrs hlr hls => hc.live_unique hr hs hrr hrs hlr hls⟩
  · obtain ⟨k, hk⟩ := Option.ne_none_iff_exists'.1 hk
    exact (hc.replaced r hr k hk).1
  · have hnodup : (s.shared.exchanges.map Exchange.presentedToken).Nodup :=
      hc.oldId.of_map.map_on fun e he e' he' htok => hc.exchange_eq he he' htok
    exact List.nodup_iff_count_le_one.1 hnodup tok

/-- Two clients present one token; the second waits for the first and rolls back. -/
def doubleRotation : List (Nat × Action) :=
  [(0, .call (.issue 7 .user "a")), (0, .exec),
    (1, .call (.rotate "a")), (2, .call (.rotate "a")), (1, .exec), (2, .exec),
    (1, .resume "b"), (2, .resume "c"), (1, .exec), (2, .exec), (1, .start), (2, .start),
    (1, .visit 1), (1, .finish), (2, .visit 1), (2, .finish)]

theorem singleUse_doubleRotation :
    ∃ s, run (step sha256Sample 60) (initial 0) doubleRotation = some s ∧
      s.shared.exchanges = [⟨"a", 1, 2⟩] ∧ SingleUse s.shared := by
  have hex : (run (step sha256Sample 60) (initial 0) doubleRotation).map
      (fun s => s.shared.exchanges) = some [⟨"a", 1, 2⟩] := by decide
  obtain ⟨s, hs, hex⟩ := Option.map_eq_some_iff.1 hex
  exact ⟨s, hs, hex, singleUse_of_reachable _ 60 0 s ⟨doubleRotation, hs⟩⟩

end NestStarter.RefreshTokens
