import FieldQuery.Proofs.Reference.Forest
import Mathlib.Algebra.Order.BigOperators.Group.List
import Mathlib.Algebra.Order.Group.Nat
import Mathlib.Data.List.Nodup
import Mathlib.Logic.Embedding.Basic

/-!
# References under other tokens

A reference takes its tokens in turn, one for each column that shares none.  So the same columns get
the same handles but for the tokens, wherever the supply of tokens stands.

Main definitions:

- `Naming`: names for tokens and for root references; `Naming.Follows`: those that were drawn.
- `Reference.rename`: a reference under other names.

Main statements: `Naming.exists_follows` and `RefBuilder.handles_rename`.
-/

namespace FieldQuery

/-! ## Names -/

/-- Numbers that stand for those of tokens and of root references. -/
structure Naming where
  number : Nat ↪ Nat
  tree : Nat ↪ Nat

namespace Naming

/-- The token that stands for another one. -/
def token (ν : Naming) : Token ↪ Token where
  toFun token := ⟨ν.number token.number⟩
  inj' := by
    rintro ⟨number⟩ ⟨other⟩ h
    exact congrArg Token.mk (ν.number.injective (congrArg Token.number h))

/-- The tokens and the trees that were drawn, in their order, stand for the first ones. -/
structure Follows (drawn trees : List Nat) (ν : Naming) : Prop where
  number : ∀ {k n : Nat}, drawn[k]? = some n → ν.number k = n
  tree : ∀ {k n : Nat}, trees[k]? = some n → ν.tree k = n

theorem getElem?_later {names later : List Nat} (h : names <+: later) {k n : Nat}
    (hk : names[k]? = some n) : later[k]? = some n := by
  rcases h with ⟨more, rfl⟩
  rw [List.getElem?_append_left (List.getElem?_eq_some_iff.1 hk).1, hk]

/-- What is drawn later leaves the first names as they are. -/
theorem Follows.of_later {drawn drawn' trees trees' : List Nat} {ν : Naming}
    (h : ν.Follows drawn' trees') (hdrawn : drawn <+: drawn') (htrees : trees <+: trees') :
    ν.Follows drawn trees where
  number hk := h.number (getElem?_later hdrawn hk)
  tree hk := h.tree (getElem?_later htrees hk)

/-- A list without duplicates goes on to name all numbers. -/
theorem exists_embedding {names : List Nat} (h : names.Nodup) :
    ∃ name : Nat ↪ Nat, ∀ {k n : Nat}, names[k]? = some n → name k = n := by
  let bound := names.sum + 1
  have hbound : ∀ n ∈ names, n < bound := fun n hn =>
    Nat.lt_succ_of_le (List.le_sum_of_mem hn)
  let name (k : Nat) : Nat := (names[k]?).getD (bound + k)
  have hinj : Function.Injective name := by
    intro k k' hsame
    have hsome {i : Nat} (hi : i < names.length) : name i = names[i] := by
      simp [name, hi]
    have hnone {i : Nat} (hi : ¬ i < names.length) : name i = bound + i := by
      simp [name, Nat.not_lt.1 hi]
    by_cases hk : k < names.length
    · by_cases hk' : k' < names.length
      · rw [hsome hk, hsome hk'] at hsame
        exact h.getElem_inj_iff.1 hsame
      · rw [hsome hk, hnone hk'] at hsame
        have := hbound _ (List.getElem_mem hk)
        omega
    · by_cases hk' : k' < names.length
      · rw [hnone hk, hsome hk'] at hsame
        have := hbound _ (List.getElem_mem hk')
        omega
      · rw [hnone hk, hnone hk'] at hsame
        omega
  refine ⟨⟨name, hinj⟩, fun {k n} hk => ?_⟩
  show (names[k]?).getD (bound + k) = n
  rw [hk]
  rfl

theorem exists_follows {drawn trees : List Nat} (hdrawn : drawn.Nodup) (htrees : trees.Nodup) :
    ∃ ν : Naming, ν.Follows drawn trees := by
  rcases exists_embedding hdrawn with ⟨number, hnumber⟩
  rcases exists_embedding htrees with ⟨tree, htree⟩
  exact ⟨⟨number, tree⟩, hnumber, htree⟩

end Naming

/-! ## References -/

/-- The handle with other tokens. -/
def Handle.rename (ρ : Token ↪ Token) : Handle → Handle
  | .field token => .field (ρ token)
  | .relation token shared target => .relation (ρ token) (shared.map (Prod.map id ρ)) target

theorem Handle.token_rename (ρ : Token ↪ Token) (handle : Handle) :
    (handle.rename ρ).token = ρ handle.token := by
  cases handle <;> rfl

def RefBuilder.rename (ρ : Token ↪ Token) (builder : RefBuilder) : RefBuilder :=
  ⟨ρ builder.own, builder.issued.map (Prod.map id ρ)⟩

def Place.rename (ν : Naming) (place : Place) : Place :=
  ⟨ν.tree place.root, place.steps⟩

/-- The reference under other names. -/
def Reference.rename (ν : Naming) (reference : Reference) : Reference :=
  ⟨reference.place.rename ν, reference.table, ν.token reference.own,
    reference.handles.map (·.rename ν.token)⟩

theorem Place.rename_inj {ν : Naming} {place other : Place} :
    place.rename ν = other.rename ν ↔ place = other := by
  rcases place with ⟨root, steps⟩
  rcases other with ⟨root', steps'⟩
  simp [rename, ν.tree.injective.eq_iff]

theorem Reference.columnTokens_rename (ν : Naming) (reference : Reference) :
    (reference.rename ν).columnTokens = reference.columnTokens.map ν.token := by
  show (reference.handles.map (·.rename ν.token)).map _ = _
  rw [columnTokens, List.map_map, List.map_map]
  exact List.map_congr_left fun handle _ => handle.token_rename ν.token

/-! ## Building -/

/-- The tokens from `m` up to `m'` have for their names the ones from `n` on. -/
def Token.Shifts (ρ : Token ↪ Token) (m m' n : Nat) : Prop :=
  ∀ k, m ≤ k → k < m' → ρ ⟨k⟩ = ⟨n + (k - m)⟩

theorem Token.shift_trans {m m' m'' : Nat} (n : Nat) (hle : m ≤ m') (hle' : m' ≤ m'') :
    n + (m' - m) + (m'' - m') = n + (m'' - m) := by
  omega

theorem Token.Shifts.left {ρ : Token ↪ Token} {m m' m'' n : Nat}
    (h : Shifts ρ m m'' n) (hle : m' ≤ m'') : Shifts ρ m m' n :=
  fun k hk hk' => h k hk (Nat.lt_of_lt_of_le hk' hle)

theorem Token.Shifts.right {ρ : Token ↪ Token} {m m' m'' n : Nat}
    (h : Shifts ρ m m'' n) (hle : m ≤ m') : Shifts ρ m' m'' (n + (m' - m)) := by
  intro k hk hk'
  rw [h k (Nat.le_trans hle hk) hk']
  exact congrArg Token.mk (by omega)

namespace RefBuilder

variable {builder next : RefBuilder} {m m' n : Nat} {ρ : Token ↪ Token}

theorem find?_issued (builder : RefBuilder) (name : String) :
    (builder.rename ρ).issued.find? (·.1 == name) =
      (builder.issued.find? (·.1 == name)).map (Prod.map id ρ) := by
  show (builder.issued.map (Prod.map id ρ)).find? _ = _
  rw [List.find?_map]
  rfl

theorem tokenFor_rename {column : String} {token : Token}
    (h : (builder.tokenFor column).run m = ((token, next), m')) (hρ : Token.Shifts ρ m m' n) :
    ((builder.rename ρ).tokenFor column).run n = ((ρ token, next.rename ρ), n + (m' - m)) := by
  have hissued := builder.find?_issued (ρ := ρ) column
  unfold tokenFor at h ⊢
  rw [hissued]
  cases hfound : builder.issued.find? (·.1 == column) with
  | some pair =>
      rw [hfound] at h
      cases h
      show ((ρ pair.2, _), n) = (_, n + (m - m))
      rw [Nat.sub_self]
      rfl
  | none =>
      rw [hfound] at h
      cases h
      have hnext : ρ ⟨m⟩ = ⟨n⟩ := by
        have hshift := hρ m (Nat.le_refl m) (Nat.lt_succ_self m)
        rwa [Nat.sub_self] at hshift
      have hissue : (builder.issued ++ [(column, Token.mk m)]).map (Prod.map id ρ) =
          builder.issued.map (Prod.map id ρ) ++ [(column, Token.mk n)] := by
        rw [List.map_append, ← hnext]
        rfl
      show ((Token.mk n, RefBuilder.mk (ρ builder.own) (_ ++ [(column, Token.mk n)])), n + 1) =
        ((ρ ⟨m⟩, RefBuilder.mk (ρ builder.own) ((builder.issued ++ [(column, Token.mk m)]).map _)),
          n + (m + 1 - m))
      rw [hissue, hnext, Nat.add_sub_cancel_left]
      rfl

theorem sharedTokens_rename {links : List (String × String)} {shared : List (String × Token)}
    (h : (builder.sharedTokens links).run m = ((shared, next), m')) (hρ : Token.Shifts ρ m m' n) :
    ((builder.rename ρ).sharedTokens links).run n =
      ((shared.map (Prod.map id ρ), next.rename ρ), n + (m' - m)) := by
  induction links generalizing builder m n shared with
  | nil =>
      cases h
      show ((([] : List (String × Token)), _), n) = (_, n + (m' - m'))
      rw [Nat.sub_self]
      rfl
  | cons link rest ih =>
      rcases hfirst : (builder.tokenFor link.2).run m with ⟨⟨token, second⟩, middle⟩
      rcases hrest : (second.sharedTokens rest).run middle with ⟨⟨others, third⟩, last⟩
      have hrun : (builder.sharedTokens (link :: rest)).run m =
          (((link.1, token) :: others, third), last) :=
        run_bind_eq hfirst (run_bind_eq hrest rfl)
      rw [hrun] at h
      cases h
      have hle := (grows_tokenFor hfirst).1.supply
      have hle' := (grows_sharedTokens hrest).1.supply
      have hlater := ih hrest (hρ.right hle)
      have hsum := Token.shift_trans n hle hle'
      rw [hsum] at hlater
      exact run_bind_eq (tokenFor_rename hfirst (hρ.left hle')) (run_bind_eq hlater rfl)

theorem handle_rename {column : Column} {handle : Handle}
    (h : (builder.handle column).run m = ((handle, next), m')) (hρ : Token.Shifts ρ m m' n) :
    ((builder.rename ρ).handle column).run n =
      ((handle.rename ρ, next.rename ρ), n + (m' - m)) := by
  rcases hfirst : (builder.tokenFor column.name).run m with ⟨⟨token, second⟩, middle⟩
  have hle : m ≤ middle := (grows_tokenFor hfirst).1.supply
  cases hrelation : column.relation with
  | none =>
      have hrun : (builder.handle column).run m = ((.field token, second), middle) := by
        refine run_bind_eq hfirst ?_
        rw [hrelation]
        rfl
      rw [hrun] at h
      cases h
      refine run_bind_eq (tokenFor_rename hfirst hρ) ?_
      rw [hrelation]
      rfl
  | some relation =>
      rcases hshared : (second.sharedTokens relation.links).run middle with
        ⟨⟨shared, third⟩, last⟩
      have hrun : (builder.handle column).run m =
          ((.relation token shared relation.target, third), last) := by
        refine run_bind_eq hfirst ?_
        rw [hrelation]
        exact run_bind_eq hshared rfl
      rw [hrun] at h
      cases h
      have hle' : middle ≤ m' := (grows_sharedTokens hshared).1.supply
      have hlater := sharedTokens_rename hshared (hρ.right hle)
      have hsum := Token.shift_trans n hle hle'
      rw [hsum] at hlater
      refine run_bind_eq (tokenFor_rename hfirst (hρ.left hle')) ?_
      rw [hrelation]
      exact run_bind_eq hlater rfl

/-- The same columns take the same tokens but for their names. -/
theorem handles_rename {columns : List Column} {handles : List Handle}
    (h : (builder.handles columns).run m = (handles, m')) (hρ : Token.Shifts ρ m m' n) :
    ((builder.rename ρ).handles columns).run n =
      (handles.map (·.rename ρ), n + (m' - m)) := by
  induction columns generalizing builder m n handles with
  | nil =>
      cases h
      show (([] : List Handle), n) = (_, n + (m' - m'))
      rw [Nat.sub_self]
      rfl
  | cons column rest ih =>
      rcases hfirst : (builder.handle column).run m with ⟨⟨handle, second⟩, middle⟩
      rcases hrest : (second.handles rest).run middle with ⟨others, last⟩
      have hrun : (builder.handles (column :: rest)).run m = (handle :: others, last) :=
        run_bind_eq hfirst (run_bind_eq hrest rfl)
      rw [hrun] at h
      cases h
      have hle := (grows_handle hfirst).1.supply
      have hle' := (grows_handles hrest).choose_spec.1.supply
      have hlater := ih hrest (hρ.right hle)
      have hsum := Token.shift_trans n hle hle'
      rw [hsum] at hlater
      exact run_bind_eq (handle_rename hfirst (hρ.left hle')) (run_bind_eq hlater rfl)

end RefBuilder

end FieldQuery
