import FieldQuery.Reference
import Mathlib.Data.List.Forall2

/-!
# Tokens of one reference

While a reference is built, each column name is given one token, which it keeps.  Names that a
relation brings along share theirs with the row that the reference hangs off; every other name gets
a token that nothing else has.

Main definitions:

- `RefBuilder.token?`: the token issued under a name.
- `RefBuilder.Grows`: what issuing tokens keeps and adds.
- `Handle.Follows`: a handle that goes by the tokens issued.

Main statement: `RefBuilder.grows_handles`.
-/

namespace FieldQuery

/-- What two steps with a state come to. -/
theorem run_bind_eq {σ α β : Type} {first : StateM σ α} {rest : α → StateM σ β} {s s' : σ} {a : α}
    {result : β × σ} (hfirst : first.run s = (a, s')) (hrest : (rest a).run s' = result) :
    (first >>= rest).run s = result := by
  rw [StateT.run_bind, hfirst]
  exact hrest

namespace RefBuilder

/-- The token issued under a name. -/
def token? (builder : RefBuilder) (name : String) : Option Token :=
  (builder.issued.find? (·.1 == name)).map (·.2)

/-- Tokens are issued, and the supply goes from `n` to `m`. -/
structure Grows (builder : RefBuilder) (n : TokenSupply) (next : RefBuilder) (m : TokenSupply) :
    Prop where
  own : next.own = builder.own
  supply : n ≤ m
  kept : ∀ {name token}, builder.token? name = some token → next.token? name = some token
  fresh : ∀ {name token}, builder.token? name = none → next.token? name = some token →
    n ≤ token.number ∧ token.number < m
  apart : ∀ {name other token}, builder.token? name = none → builder.token? other = none →
    next.token? name = some token → next.token? other = some token → name = other

variable {builder next last : RefBuilder} {n m k : TokenSupply}

theorem Grows.refl (builder : RefBuilder) (n : TokenSupply) : builder.Grows n builder n where
  own := rfl
  supply := Nat.le_refl n
  kept := id
  fresh := by
    intro name token hnone hsome
    rw [hnone] at hsome
    cases hsome
  apart := by
    intro name other token hnone _ hsome _
    rw [hnone] at hsome
    cases hsome

theorem Grows.trans (h : builder.Grows n next m) (h' : next.Grows m last k) :
    builder.Grows n last k where
  own := h'.own.trans h.own
  supply := Nat.le_trans h.supply h'.supply
  kept := fun htoken => h'.kept (h.kept htoken)
  fresh := by
    intro name token hnone htoken
    -- the name is new in the first part or in the second
    cases hmiddle : next.token? name with
    | some earlier =>
        have hsame : earlier = token := by simpa [htoken] using (h'.kept hmiddle).symm
        have hfresh := h.fresh hnone hmiddle
        rw [hsame] at hfresh
        exact ⟨hfresh.1, Nat.lt_of_lt_of_le hfresh.2 h'.supply⟩
    | none =>
        have hfresh := h'.fresh hmiddle htoken
        exact ⟨Nat.le_trans h.supply hfresh.1, hfresh.2⟩
  apart := by
    intro name other token hname hother htoken htoken'
    cases hmiddle : next.token? name with
    | some earlier =>
        have hsame : earlier = token := by simpa [htoken] using (h'.kept hmiddle).symm
        rw [hsame] at hmiddle
        have hearly := h.fresh hname hmiddle
        cases hmiddle' : next.token? other with
        | some second =>
            have hsecond : second = token := by simpa [htoken'] using (h'.kept hmiddle').symm
            rw [hsecond] at hmiddle'
            exact h.apart hname hother hmiddle hmiddle'
        | none =>
            have hlate := h'.fresh hmiddle' htoken'
            exact absurd hearly.2 (Nat.not_lt.2 hlate.1)
    | none =>
        have hlate := h'.fresh hmiddle htoken
        cases hmiddle' : next.token? other with
        | some second =>
            have hsecond : second = token := by simpa [htoken'] using (h'.kept hmiddle').symm
            rw [hsecond] at hmiddle'
            have hearly := h.fresh hother hmiddle'
            exact absurd hearly.2 (Nat.not_lt.2 hlate.1)
        | none => exact h'.apart hmiddle hmiddle' htoken htoken'

/-! ## Issuing -/

/-- The builder behind a name that has been issued. -/
theorem token?_issue (builder : RefBuilder) (column name : String) (token : Token) :
    ({ builder with issued := builder.issued ++ [(column, token)] } : RefBuilder).token? name =
      (builder.token? name).or (if column = name then some token else none) := by
  unfold token?
  dsimp only
  rw [List.find?_append]
  cases builder.issued.find? (·.1 == name) with
  | some pair => rfl
  | none =>
      by_cases hname : column = name
      · simp [hname]
      · simp [hname]

/-- A name is given a token, the one it has or the next one. -/
theorem grows_tokenFor {column : String} {token : Token}
    (h : (builder.tokenFor column).run n = ((token, next), m)) :
    builder.Grows n next m ∧ next.token? column = some token := by
  cases hissued : builder.issued.find? (·.1 == column) with
  | some pair =>
      have hrun : (builder.tokenFor column).run n = ((pair.2, builder), n) := by
        unfold tokenFor
        rw [hissued]
        rfl
      rw [hrun] at h
      cases h
      exact ⟨.refl builder n, by simp [token?, hissued]⟩
  | none =>
      have hrun : (builder.tokenFor column).run n =
          ((⟨n⟩, { builder with issued := builder.issued ++ [(column, ⟨n⟩)] }), n + 1) := by
        unfold tokenFor
        rw [hissued]
        rfl
      rw [hrun] at h
      cases h
      have hnone : builder.token? column = none := by simp [token?, hissued]
      have htoken : ∀ {name : String} {token : Token}, builder.token? name = none →
          ({ builder with issued := builder.issued ++ [(column, ⟨n⟩)] } : RefBuilder).token? name =
            some token → column = name ∧ (⟨n⟩ : Token) = token := by
        intro name token hname hsome
        rw [token?_issue, hname] at hsome
        by_cases hcolumn : column = name
        · simpa [hcolumn] using hsome
        · simp [hcolumn] at hsome
      refine ⟨⟨rfl, Nat.le_succ n, ?_, ?_, ?_⟩, ?_⟩
      · intro name token hsome
        rw [token?_issue, hsome]
        rfl
      · intro name token hname hsome
        rcases htoken hname hsome with ⟨-, rfl⟩
        exact ⟨Nat.le_refl n, Nat.lt_succ_self n⟩
      · intro name other token hname hother hsome hsome'
        exact (htoken hname hsome).1.symm.trans (htoken hother hsome').1
      · rw [token?_issue, hnone]
        simp

/-- A linked column of a related table, by its name, has the token of the local column. -/
def Shares (builder : RefBuilder) (link : String × String) (pair : String × Token) : Prop :=
  pair.1 = link.1 ∧ builder.token? link.2 = some pair.2

theorem Shares.grows {link : String × String} {pair : String × Token} (h : builder.Shares link pair)
    (hgrows : builder.Grows n next m) : next.Shares link pair :=
  ⟨h.1, hgrows.kept h.2⟩

theorem grows_sharedTokens {links : List (String × String)} {shared : List (String × Token)}
    (h : (builder.sharedTokens links).run n = ((shared, next), m)) :
    builder.Grows n next m ∧ List.Forall₂ next.Shares links shared := by
  induction links generalizing builder n shared with
  | nil =>
      cases h
      exact ⟨.refl _ _, .nil⟩
  | cons link rest ih =>
      rcases hfirst : (builder.tokenFor link.2).run n with ⟨⟨token, second⟩, n'⟩
      rcases hrest : (second.sharedTokens rest).run n' with ⟨⟨others, third⟩, m'⟩
      have hrun : (builder.sharedTokens (link :: rest)).run n =
          (((link.1, token) :: others, third), m') :=
        run_bind_eq hfirst (run_bind_eq hrest rfl)
      rw [hrun] at h
      cases h
      rcases grows_tokenFor hfirst with ⟨hissued, htoken⟩
      rcases ih hrest with ⟨hgrows, hshared⟩
      exact ⟨hissued.trans hgrows, .cons ⟨rfl, hgrows.kept htoken⟩ hshared⟩

end RefBuilder

/-- A handle that goes by the tokens issued. -/
inductive Handle.Follows (builder : RefBuilder) (column : Column) : Handle → Prop
  | field {token : Token} (hplain : column.relation = none)
      (htoken : builder.token? column.name = some token) : Follows builder column (.field token)
  | relation {relation : Relation} {token : Token} {shared : List (String × Token)}
      (hrelation : column.relation = some relation)
      (htoken : builder.token? column.name = some token)
      (hshared : List.Forall₂ builder.Shares relation.links shared) :
      Follows builder column (.relation token shared relation.target)

namespace Handle.Follows

variable {builder next : RefBuilder} {n m : TokenSupply} {column : Column} {handle : Handle}

theorem token (h : handle.Follows builder column) :
    builder.token? column.name = some handle.token := by
  cases h with
  | field hplain htoken => exact htoken
  | relation hrelation htoken hshared => exact htoken

theorem relation_eq {token : Token} {shared : List (String × Token)} {target : Nat}
    (h : (Handle.relation token shared target).Follows builder column) :
    ∃ relation, column.relation = some relation ∧ relation.target = target ∧
      builder.token? column.name = some token ∧
      List.Forall₂ builder.Shares relation.links shared := by
  cases h with
  | @relation relation _ _ hrelation htoken hshared =>
      exact ⟨relation, hrelation, rfl, htoken, hshared⟩

theorem eq_relation (h : handle.Follows builder column) {relation : Relation}
    (hrelation : column.relation = some relation) :
    ∃ token shared, handle = .relation token shared relation.target ∧
      List.Forall₂ builder.Shares relation.links shared := by
  cases h with
  | field hplain htoken =>
      rw [hrelation] at hplain
      cases hplain
  | @relation found token shared hfound htoken hshared =>
      have hsame : found = relation := by simpa [hrelation] using hfound.symm
      subst hsame
      exact ⟨token, shared, rfl, hshared⟩

theorem grows (h : handle.Follows builder column) (hgrows : builder.Grows n next m) :
    handle.Follows next column := by
  cases h with
  | field hplain htoken => exact .field hplain (hgrows.kept htoken)
  | relation hrelation htoken hshared =>
      exact .relation hrelation (hgrows.kept htoken) (hshared.imp fun _ _ h => h.grows hgrows)

end Handle.Follows

namespace RefBuilder

variable {builder next : RefBuilder} {n m : TokenSupply}

theorem grows_handle {column : Column} {handle : Handle}
    (h : (builder.handle column).run n = ((handle, next), m)) :
    builder.Grows n next m ∧ handle.Follows next column := by
  rcases hfirst : (builder.tokenFor column.name).run n with ⟨⟨token, second⟩, n'⟩
  rcases grows_tokenFor hfirst with ⟨hissued, htoken⟩
  cases hrelation : column.relation with
  | none =>
      have hrun : (builder.handle column).run n = ((.field token, second), n') := by
        refine run_bind_eq hfirst ?_
        rw [hrelation]
        rfl
      rw [hrun] at h
      cases h
      exact ⟨hissued, .field hrelation htoken⟩
  | some relation =>
      rcases hshared : (second.sharedTokens relation.links).run n' with ⟨⟨shared, third⟩, m'⟩
      have hrun : (builder.handle column).run n =
          ((.relation token shared relation.target, third), m') := by
        refine run_bind_eq hfirst ?_
        rw [hrelation]
        exact run_bind_eq hshared rfl
      rw [hrun] at h
      cases h
      rcases grows_sharedTokens hshared with ⟨hgrows, hshares⟩
      exact ⟨hissued.trans hgrows, .relation hrelation (hgrows.kept htoken) hshares⟩

/-- The handles of a reference go by the tokens of its last builder. -/
theorem grows_handles {columns : List Column} {handles : List Handle}
    (h : (builder.handles columns).run n = (handles, m)) :
    ∃ next, builder.Grows n next m ∧
      List.Forall₂ (fun column handle => handle.Follows next column) columns handles := by
  induction columns generalizing builder n handles with
  | nil =>
      cases h
      exact ⟨builder, .refl _ _, .nil⟩
  | cons column rest ih =>
      rcases hfirst : (builder.handle column).run n with ⟨⟨handle, second⟩, n'⟩
      rcases hrest : (second.handles rest).run n' with ⟨others, m'⟩
      have hrun : (builder.handles (column :: rest)).run n = (handle :: others, m') :=
        run_bind_eq hfirst (run_bind_eq hrest rfl)
      rw [hrun] at h
      cases h
      rcases grows_handle hfirst with ⟨hissued, hfollows⟩
      rcases ih hrest with ⟨next, hgrows, hothers⟩
      exact ⟨next, hissued.trans hgrows, .cons (hfollows.grows hgrows) hothers⟩

/-- Of a link's columns, the related one is known by the token of the local one. -/
theorem find?_shared {links : List (String × String)} {shared : List (String × Token)}
    (h : List.Forall₂ builder.Shares links shared) {remote near : String}
    (hlink : links.find? (·.1 == remote) = some (remote, near)) :
    ∃ token, builder.token? near = some token ∧
      shared.find? (·.1 == remote) = some (remote, token) := by
  induction h with
  | nil => cases hlink
  | @cons link pair links shared hshares hrest ih =>
      rcases hshares with ⟨hname, htoken⟩
      by_cases hfirst : link.1 = remote
      · have hnear : link = (remote, near) := by simpa [hfirst] using hlink
        subst hnear
        exact ⟨pair.2, htoken, by simp [hname, Prod.ext_iff]⟩
      · have hlater : links.find? (·.1 == remote) = some (remote, near) := by
          simpa [hfirst] using hlink
        rcases ih hlater with ⟨token, hnear, hshared⟩
        exact ⟨token, hnear, by simpa [hname, hfirst] using hshared⟩

/-- A column that no link leads to is not known. -/
theorem find?_shared_none {links : List (String × String)} {shared : List (String × Token)}
    (h : List.Forall₂ builder.Shares links shared) {name : String}
    (hunlinked : ∀ link ∈ links, link.1 ≠ name) : shared.find? (·.1 == name) = none := by
  induction h with
  | nil => rfl
  | @cons link pair links shared hshares hrest ih =>
      have hfirst : pair.1 ≠ name := by
        rw [hshares.1]
        exact hunlinked link List.mem_cons_self
      have hlater := ih fun other hmem => hunlinked other (List.mem_cons_of_mem _ hmem)
      simpa [hfirst] using hlater

end RefBuilder

end FieldQuery
