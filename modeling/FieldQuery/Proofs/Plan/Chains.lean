import FieldQuery.Proofs.Plan.Notes

/-!
# Chains of relations

A related reference hangs off a chain of relations.  The chain begins at the primary target, or at
one that no relation leads to, and the prefixes along it make the stem that the reference is aliased
by.  With the prefixes that relations are declared with by default, the alias spells the fields of
the chain with underscores between them.

Main definitions:

- `Chain`: the fields of the relations, and where they begin; `Chain.spelled`: the alias.
- `Entry.chain`: the chain that ends with a relation.
- `ColumnMap.Spelled`: the stems of relations are made of their chains.

Main statements: `Query.Noted.spelled` and `Chain.spelled_inj`.
-/

namespace FieldQuery

/-- The relations that lead to a reference, by their fields. -/
structure Chain where
  /-- The chain begins at a joined target that no relation leads to. -/
  detached : Bool
  fields : List String
  deriving DecidableEq

namespace Chain

variable {chain other : Chain}

def start (chain : Chain) : String :=
  if chain.detached then detachedStem else ""

/-- What the aliases of the related columns start with. -/
def stem (chain : Chain) : String :=
  chain.start ++ String.join (chain.fields.map (· ++ "_"))

/-- The alias of the reference that the chain leads to. -/
def spelled (chain : Chain) : String :=
  chain.start ++ "_".intercalate chain.fields

/-- The chain with one more relation. -/
def behind (chain : Chain) (field : String) : Chain :=
  ⟨chain.detached, chain.fields ++ [field]⟩

theorem stem_behind (chain : Chain) (field : String) :
    (chain.behind field).stem = chain.stem ++ (field ++ "_") := by
  have hjoin : ∀ fields : List String, String.join ((fields ++ [field]).map (· ++ "_")) =
      String.join (fields.map (· ++ "_")) ++ (field ++ "_") := by
    intro fields
    induction fields with
    | nil => simp [String.join_cons]
    | cons first rest ih => simp only [List.cons_append, List.map_cons, String.join_cons, ih,
        String.append_assoc]
  show chain.start ++ String.join ((chain.fields ++ [field]).map (· ++ "_")) = _
  rw [hjoin, ← String.append_assoc]
  rfl

theorem join_eq_intercalate : ∀ {fields : List String}, fields ≠ [] →
    String.join (fields.map (· ++ "_")) = "_".intercalate fields ++ "_"
  | [], hfields => absurd rfl hfields
  | [only], _ => by simp [String.join_cons]
  | first :: second :: rest, _ => by
      have hrest := join_eq_intercalate (List.cons_ne_nil second rest)
      rw [List.map_cons, String.join_cons, hrest, String.intercalate_cons_cons]
      simp only [String.append_assoc]

/-- The alias is the stem without the underscore that ends it. -/
theorem trimStem_stem (h : chain.fields ≠ []) : trimStem chain.stem = chain.spelled := by
  rw [stem, join_eq_intercalate h, ← String.append_assoc, trimStem_underscore]
  rfl

/-! ## Aliases that tell chains apart -/

/-- Its fields can be told apart in the alias, and from the mark of a detached target. -/
def Plain (chain : Chain) : Prop :=
  ∀ field ∈ chain.fields, '_' ∉ field.toList ∧ '-' ∉ field.toList

/-- Only what hangs off a detached target has the mark in its alias. -/
theorem Plain.mem_spelled (h : chain.Plain) :
    '-' ∈ chain.spelled.toList ↔ chain.detached = true := by
  -- neither the fields nor the underscores between them have the mark
  have hfields : '-' ∉ ['_'].intercalate (chain.fields.map String.toList) := by
    intro hmem
    rcases Condition.mem_intercalate hmem with hmark | ⟨_, hpart, hmem⟩
    · exact absurd hmark (by decide)
    · rcases List.mem_map.1 hpart with ⟨field, hfield, rfl⟩
      exact (h field hfield).2 hmem
  cases hdetached : chain.detached with
  | true => simp [spelled, start, hdetached, detachedStem]
  | false => simpa [spelled, start, hdetached] using hfields

/-- The fields are what stands between the underscores. -/
theorem fields_of_intercalate {fields others : List String} (hne : fields ≠ [])
    (hne' : others ≠ []) (hfields : ∀ field ∈ fields, '_' ∉ field.toList)
    (hothers : ∀ field ∈ others, '_' ∉ field.toList)
    (h : "_".intercalate fields = "_".intercalate others) : fields = others := by
  -- splitting at the underscores gives the fields back
  have hsplit : ∀ parts : List String, parts ≠ [] → (∀ part ∈ parts, '_' ∉ part.toList) →
      List.splitOn '_' ("_".intercalate parts).toList = parts.map String.toList := by
    intro parts hparts hplain
    rw [String.toList_intercalate]
    refine List.splitOn_intercalate '_' ?_ (by simpa using hparts)
    simpa using hplain
  have hlists : fields.map String.toList = others.map String.toList := by
    rw [← hsplit fields hne hfields, h, hsplit others hne' hothers]
  exact List.map_injective_iff.2 (fun _ _ => String.toList_inj.1) hlists

/-- Plain chains are told apart by their aliases. -/
theorem spelled_inj (hchain : chain.Plain) (hother : other.Plain) (hne : chain.fields ≠ [])
    (hne' : other.fields ≠ []) (h : chain.spelled = other.spelled) : chain = other := by
  -- the mark tells where the chains begin, and without it only the fields are left
  have hdetached : chain.detached = other.detached := by
    rw [Bool.eq_iff_iff, ← hchain.mem_spelled, ← hother.mem_spelled, h]
  have hstart : chain.start = other.start := by
    rw [start, start, hdetached]
  have hfields : "_".intercalate chain.fields = "_".intercalate other.fields := by
    rw [spelled, spelled, hstart] at h
    exact String.append_right_inj _ |>.1 h
  have hsame := fields_of_intercalate hne hne' (fun field hfield => (hchain field hfield).1)
    (fun field hfield => (hother field hfield).1) hfields
  cases chain
  cases other
  cases hdetached
  cases hsame
  rfl

end Chain

/-! ## Stems that are made of chains -/

/-- The stem of a relation is made of the chain along its path. -/
def Entry.Spelled (entry : Entry) : Prop :=
  entry.column.relation.isSome → ∃ chain : Chain,
    chain.fields = entry.path.map (·.field) ∧ chain.fields ≠ [] ∧ entry.stem = chain.stem

/-- The chain that ends with a relation.  It begins at a detached target if there is more in the
stem than the fields. -/
def Entry.chain (entry : Entry) : Chain :=
  let fields := entry.path.map (·.field)
  ⟨entry.stem != (Chain.mk false fields).stem, fields⟩

def ColumnMap.Spelled (columns : ColumnMap) : Prop :=
  ∀ entry ∈ columns.entries, entry.Spelled

namespace Entry

variable {entry known : Entry}

theorem Spelled.of_fixed (h : known.Spelled) (hfixed : entry.fixed = known.fixed) :
    entry.Spelled := by
  have hcolumn : entry.column = known.column := (congrArg Entry.column hfixed :)
  have hstem : entry.stem = known.stem := (congrArg Entry.stem hfixed :)
  have hpath : entry.path = known.path := (congrArg Entry.path hfixed :)
  intro hrelation
  rw [hcolumn] at hrelation
  rw [hstem, hpath]
  exact h hrelation

theorem Spelled.chain_eq (h : entry.Spelled) (hrelation : entry.column.relation.isSome) :
    entry.chain.fields ≠ [] ∧ entry.stem = entry.chain.stem := by
  rcases h hrelation with ⟨⟨detached, fields⟩, hfields, hne, hstem⟩
  have hsame : entry.chain = ⟨detached, fields⟩ := by
    rw [chain, hstem, ← hfields]
    cases detached with
    | false => simp
    | true =>
        -- the mark makes the stem longer than its fields
        have hlonger : (Chain.mk true fields).stem ≠ (Chain.mk false fields).stem := by
          intro heq
          have hlength := congrArg String.length heq
          simp [Chain.stem, Chain.start, detachedStem] at hlength
        simpa using hlonger
  rw [hsame]
  exact ⟨hne, hstem⟩

end Entry

/-- The columns of a reference go on with the chain that they are mapped under. -/
theorem Table.Standard.spelled_entry {table : Table} (h : table.Standard) {scope : MappingScope}
    {chain : Chain} (hfields : chain.fields = scope.basePath.map (·.field))
    (hstem : scope.stem = chain.stem) {column : Column} (hcolumn : column ∈ table.columns)
    (token : Token) : (scope.entry column token).Spelled := by
  intro hsome
  rcases Option.isSome_iff_exists.1 hsome with ⟨relation, hrelation⟩
  have hdeclared : column.relation = some relation := hrelation
  have hprefix := (h column hcolumn relation hdeclared).1
  -- the relation's prefix is its field with an underscore
  refine ⟨chain.behind column.field, ?_, by simp [Chain.behind], ?_⟩
  · simp [Chain.behind, MappingScope.entry, hdeclared, hfields]
  · rw [Chain.stem_behind, ← hstem, ← hprefix]
    simp [MappingScope.entry, hdeclared]

namespace Plan

variable {plan next : Plan}

/-- What a reference is mapped under is made of a chain. -/
theorem chain_scopeOf (h : plan.columns.Spelled) (reference : ModelTarget) : ∃ chain : Chain,
    chain.fields = (plan.scopeOf reference).basePath.map (·.field) ∧
      (plan.scopeOf reference).stem = chain.stem := by
  cases hparent : plan.parentOf reference with
  | some parent =>
      rcases relation_of_parentOf hparent with ⟨hmem, hrelation⟩
      rcases h parent hmem hrelation with ⟨chain, hfields, -, hstem⟩
      exact ⟨chain, by simpa [scopeOf, MappingScope.basePath, hparent] using hfields,
        by simpa [scopeOf, hparent] using hstem⟩
  -- here a chain begins
  | none =>
      refine ⟨⟨!plan.isBare, []⟩, ?_, ?_⟩
      · simp [scopeOf, MappingScope.basePath, hparent]
      · cases hbare : plan.isBare <;>
          simp [scopeOf, hparent, hbare, Chain.stem, Chain.start]

/-- A target brings in relations with stems of that kind.  A plan must have done so itself. -/
theorem spelled_mapTarget {target : Target} {mapped : MappedTarget} (h : plan.columns.Spelled)
    (htarget : target.Standard)
    (hsub : ∀ sub, target = .plan sub → sub.errors = [] → sub.columns.Spelled)
    (hmap : plan.mapTarget target = (next, .ok mapped)) (herrors : next.errors = []) :
    next.columns.Spelled := by
  have hmaps := maps_mapTarget hmap herrors
  intro entry hentry
  cases htarget with
  | @model reference hstandard =>
      rw [(mapModel_eq hmap).1] at hentry
      rcases MappingScope.fixed_mapColumns hentry with
        ⟨known, hknown, hfixed⟩ | ⟨⟨column, token⟩, hpair, hfixed⟩
      · exact (h known hknown).of_fixed hfixed
      · rcases chain_scopeOf h reference with ⟨chain, hfields, hstem⟩
        have hcolumn : column ∈ reference.table.columns := (List.of_mem_zip hpair).1
        exact (hstandard.spelled_entry hfields hstem hcolumn token).of_fixed hfixed
  | @raw reference query hstandard =>
      rcases mem_mapRaw hmap hentry with hold | ⟨⟨column, token⟩, hpair, hstored, rfl⟩
      · exact h entry hold
      · -- a relation is not stored, so no query returns it
        intro hsome
        have hplain := hstandard.relation_eq_none (List.of_mem_zip hpair).1 hstored
        have hrelation : column.relation.isSome := hsome
        rw [hplain] at hrelation
        cases hrelation
  | @plan query notes hnoted =>
      have hnext : (plan.mapPlan query.plan).1 = next := congrArg Prod.fst hmap
      rw [← hnext, columns_mapPlan] at hentry
      rcases ColumnMap.mem_pushAll hentry with hold | himported
      · exact h entry hold
      · -- a relation keeps its stem and its path when it is taken over
        rcases List.mem_map.1 himported with ⟨inner, hinner, rfl⟩
        exact hsub query.plan rfl hmaps.written.1 inner hinner

end Plan

mutual

/-- The stems of relations are made of their chains, however the query was made. -/
theorem Query.Noted.spelled : ∀ {query : Query} {notes : Notes}, query.Noted notes →
    query.plan.errors = [] → query.plan.columns.Spelled
  | _, _, .start htarget, herrors => by
      rcases Plan.mapTarget_of_mapRoot herrors with ⟨next, mapped, hmap, hclean⟩
      have hcolumns := congrArg Plan.columns (Plan.mapRoot_of_ok hmap)
      have hmapped := Plan.spelled_mapTarget (fun entry hentry => by cases hentry) htarget
        htarget.spelled hmap hclean
      intro entry hentry
      exact hmapped entry (hcolumns ▸ hentry)
  | _, _, @Query.Noted.call query next notes call h htarget hnext, herrors => by
      have hspelled := h.spelled ((Query.continues_call? hnext).errors_nil herrors)
      have hsub := fun target heq => (htarget target heq).spelled
      have hplan := (Query.call?_eq_some.1 hnext).2
      rw [hplan] at herrors ⊢
      -- only a join has a target
      cases hcall : call.target? with
      | none =>
          intro entry hentry
          rcases Plan.known_apply hcall hentry with ⟨known, hknown, hfixed⟩
          exact (hspelled known hknown).of_fixed hfixed
      | some target =>
          cases call with
          | join kind joined =>
              cases hcall
              rcases Plan.mapTarget_of_openJoinOn herrors with ⟨behind, mapped, hmap, hclean⟩
              have hclosed : query.plan.closeJoin.columns.Spelled := hspelled
              show (query.plan.openJoinOn kind target).columns.Spelled
              rw [Plan.columns_openJoinOn hmap]
              exact Plan.spelled_mapTarget hclosed (htarget target rfl) (hsub target rfl) hmap hclean
          | _ => cases hcall

theorem Target.Standard.spelled : ∀ {target : Target}, target.Standard →
    ∀ sub, target = .plan sub → sub.errors = [] → sub.columns.Spelled
  | _, .plan h, _, heq, herrors => by
      cases heq
      exact h.spelled herrors
  | _, .model _, _, heq, _ => by cases heq
  | _, .raw _, _, heq, _ => by cases heq

end

end FieldQuery
