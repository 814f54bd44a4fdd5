import FieldQuery.Proofs.Plan.Notes
import FieldQuery.Proofs.Plan.Stages

/-!
# What a field's name resolves to

A field's token is resolved when the field is assigned to or grouped by, and again whenever a
condition or an order that it stands in is written.  In between entries are added, imported,
narrowed and given expressions, but none of this touches the names that a token stands for.  So a
clause that could be written once is written the same ever after, and what was resolved early is
what would be resolved late.  A condition that is written by hand is shown the whole column map; of
such a condition this holds if it resolves tokens and does not look at the map otherwise.

Main definitions:

- `Persists`: what succeeds goes on succeeding, with the same result.
- `Inquiry`, `Filter.ResolvesOnly`: conditions written by hand that resolve tokens only.
- `Call.assigned?`, `Call.grouped?`: the fields that calls resolve at once.

Main statement: `Plan.names_kept`.
-/

namespace FieldQuery

/-- What succeeds goes on succeeding, with the same result. -/
def Persists {ε α : Type} (first later : Except ε α) : Prop :=
  ∀ result, first = .ok result → later = .ok result

namespace Persists

variable {ε α β : Type} {first later : Except ε α}

theorem refl (first : Except ε α) : Persists first first :=
  fun _ h => h

theorem map (h : Persists first later) (change : α → β) :
    Persists (first.map change) (later.map change) := by
  intro result hresult
  rcases map_eq_ok.1 hresult with ⟨value, hvalue, hchange⟩
  exact map_eq_ok.2 ⟨value, h value hvalue, hchange⟩

theorem bind {next next' : α → Except ε β} (h : Persists first later)
    (hnext : ∀ value, Persists (next value) (next' value)) :
    Persists (first >>= next) (later >>= next') := by
  intro result hresult
  rcases bind_eq_ok.1 hresult with ⟨value, hvalue, hrest⟩
  exact bind_eq_ok.2 ⟨value, h value hvalue, hnext value result hrest⟩

end Persists

/-! ## Fields -/

namespace ColumnMap.Extends

variable {columns next : ColumnMap}

theorem persists_qualifiedColumn (h : columns.Extends next) (token : Token) :
    Persists (columns.qualifiedColumn token) (next.qualifiedColumn token) := by
  intro text htext
  rcases map_eq_ok.1 htext with ⟨entry, hentry, rfl⟩
  rcases h.queryable hentry with ⟨later, hlater, hfixed⟩
  have hqualified : later.qualified = entry.qualified := (congrArg Entry.qualified hfixed :)
  exact map_eq_ok.2 ⟨later, hlater, hqualified⟩

theorem persists_bareColumn (h : columns.Extends next) (token : Token) :
    Persists (columns.bareColumn token) (next.bareColumn token) := by
  intro text htext
  rcases map_eq_ok.1 htext with ⟨entry, hentry, rfl⟩
  rcases h.queryable hentry with ⟨later, hlater, hfixed⟩
  have hcolumn : later.quotedColumn = entry.quotedColumn := (congrArg Entry.quotedColumn hfixed :)
  exact map_eq_ok.2 ⟨later, hlater, hcolumn⟩

end ColumnMap.Extends

/-! ## Conditions -/

section Conditions

variable {columns next : ColumnMap}

namespace Operand

mutual

-- along the recursion of the writer, which looks up one field after the other
theorem persists_render (h : columns.Extends next) :
    ∀ operand : Operand, Persists (operand.render columns) (operand.render next)
  | .field token => by
      rw [render, render]
      exact (h.persists_qualifiedColumn token).map _
  | .value v => by
      rw [render, render]
      exact .refl _
  | .wrapped template operands => by
      rw [render, render]
      exact (persists_renderMarks h operands _).bind fun _ => .refl _

theorem persists_renderMarks (h : columns.Extends next) :
    ∀ (operands : List Operand) (parts : List String),
      Persists (renderMarks columns operands parts) (renderMarks next operands parts)
  | operands, [] => by
      rw [renderMarks, renderMarks]
      exact .refl _
  | [], part :: parts => by
      rw [renderMarks, renderMarks]
      · exact .refl _
      · exact List.cons_ne_nil _ _
      · exact List.cons_ne_nil _ _
  | operand :: operands, part :: parts => by
      rw [renderMarks, renderMarks]
      refine (persists_render h operand).bind fun written => ?_
      exact (persists_renderMarks h operands parts).bind fun _ => .refl _

end

end Operand

namespace Fragment

theorem persists_render (h : columns.Extends next) (fragment : Fragment) :
    Persists (fragment.render columns) (fragment.render next) := by
  cases fragment with
  | qualifiedColumn token => exact (h.persists_qualifiedColumn token).map _
  | bareColumn token => exact (h.persists_bareColumn token).map _
  | sql text => exact .refl _
  | value v => exact .refl _
  | fail error => exact .refl _

theorem persists_renderAll (h : columns.Extends next) (fragments : List Fragment) :
    Persists (renderAll columns fragments) (renderAll next fragments) := by
  induction fragments with
  | nil => exact .refl _
  | cons fragment rest ih =>
      exact (persists_render h fragment).bind fun _ => ih.bind fun _ => .refl _

end Fragment

/-! ### Conditions written by hand -/

/-- The step that writes a piece. -/
def Piece.fragment : Piece → Fragment
  | .text sql => .sql sql
  | .bind value => .value value

/-- Steps that write what has been written, or fail as it has failed. -/
def Fragment.replay : Except PlanError Statement → List Fragment
  | .ok written => written.pieces.map Piece.fragment
  | .error error => [.fail error]

theorem Fragment.renderAll_pieces (columns : ColumnMap) (pieces : List Piece) :
    renderAll columns (pieces.map Piece.fragment) = .ok (.ofPieces pieces) := by
  induction pieces with
  | nil => rfl
  | cons piece rest ih =>
      cases piece <;> simp [renderAll, ih, Piece.fragment] <;> rfl

theorem Fragment.renderAll_replay (columns : ColumnMap) (outcome : Except PlanError Statement) :
    renderAll columns (replay outcome) = outcome := by
  cases outcome with
  | ok written =>
      rw [replay, renderAll_pieces, written.ofPieces_pieces]
  | error error => rfl

/-- Whatever a condition written by hand makes of the column map, it can make in steps. -/
theorem Filter.exists_custom (write : ColumnMap → Except PlanError Statement) :
    ∃ steps, ∀ columns, (Filter.custom steps).render columns = write columns :=
  ⟨fun columns => Fragment.replay (write columns),
    fun columns => Fragment.renderAll_replay columns (write columns)⟩

/-- How a condition written by hand may come to its steps: it resolves one field after the other,
goes on with the names of the source and of the column, and fails where there are none. -/
inductive Inquiry
  | write (steps : List Fragment)
  | resolve (token : Token) (next : String → String → Inquiry)

namespace Inquiry

/-- The steps that are come to in a column map. -/
def steps (columns : ColumnMap) : Inquiry → List Fragment
  | .write found => found
  | .resolve token next =>
    match columns.queryable token with
    | .ok entry => (next entry.quotedTable entry.quotedColumn).steps columns
    | .error error => [.fail error]

theorem persists_steps (h : columns.Extends next) (inquiry : Inquiry) :
    Persists (Fragment.renderAll columns (inquiry.steps columns))
      (Fragment.renderAll next (inquiry.steps next)) := by
  induction inquiry with
  | write found => exact Fragment.persists_renderAll h found
  | resolve token behind ih =>
      rw [steps, steps]
      cases hentry : columns.queryable token with
      | error error =>
          intro result hresult
          cases hresult
      | ok entry =>
          -- the names that it goes on with stay the same
          rcases h.queryable hentry with ⟨later, hlater, hfixed⟩
          have htable : later.quotedTable = entry.quotedTable :=
            (congrArg Entry.quotedTable hfixed :)
          have hcolumn : later.quotedColumn = entry.quotedColumn :=
            (congrArg Entry.quotedColumn hfixed :)
          rw [hlater]
          dsimp only
          rw [htable, hcolumn]
          exact ih entry.quotedTable entry.quotedColumn

end Inquiry

namespace Filter

/-- All that a condition written by hand does with the column map is to resolve tokens. -/
def ResolvesOnly (steps : ColumnMap → List Fragment) : Prop :=
  ∃ inquiry : Inquiry, ∀ columns, steps columns = inquiry.steps columns

/-- What is written by hand in a condition resolves tokens only. -/
def Resolving (filter : Filter) : Prop :=
  ∀ steps, .custom steps ∈ filter.leaves → ResolvesOnly steps

theorem resolving_of_mem {filters : List Filter}
    (h : ∀ steps, .custom steps ∈ leavesOf filters → ResolvesOnly steps) :
    ∀ filter ∈ filters, filter.Resolving := by
  intro filter hfilter steps hsteps
  rw [leavesOf_eq] at h
  exact h steps (List.mem_flatMap_of_mem hfilter hsteps)

theorem resolving_and {filters : List Filter} (h : ∀ filter ∈ filters, filter.Resolving) :
    (Filter.and filters).Resolving := by
  intro steps hsteps
  rw [leaves, leavesOf_eq] at hsteps
  rcases List.mem_flatMap.1 hsteps with ⟨filter, hfilter, hleaf⟩
  exact h filter hfilter steps hleaf

theorem persists_renderEach {filters : List Filter}
    (h : ∀ filter ∈ filters, Persists (filter.render columns) (filter.render next)) :
    Persists (renderEach columns filters) (renderEach next filters) := by
  induction filters with
  | nil =>
      rw [renderEach, renderEach]
      exact .refl _
  | cons filter rest ih =>
      have hrest := ih fun other hother => h other (List.mem_cons_of_mem filter hother)
      rw [renderEach, renderEach]
      exact (h filter List.mem_cons_self).bind fun _ => hrest.bind fun _ => .refl _

theorem persists_group {group : List Filter → Filter} {separator : String} {empty : Statement}
    (hwrites : ∀ columns, WritesGroup columns group separator empty) {filters : List Filter}
    (h : ∀ filter ∈ filters, Persists (filter.render columns) (filter.render next)) :
    Persists ((group filters).render columns) ((group filters).render next) := by
  match filters, h with
  | [], _ =>
      rw [(hwrites columns).none, (hwrites next).none]
      exact .refl _
  | [only], h =>
      rw [(hwrites columns).one, (hwrites next).one]
      exact h only List.mem_cons_self
  | first :: second :: rest, h =>
      rw [(hwrites columns).many, (hwrites next).many]
      exact (persists_renderEach h).map _

theorem persists_render (h : columns.Extends next) (filter : Filter) :
    filter.Resolving → Persists (filter.render columns) (filter.render next) := by
  induction filter using Filter.induction with
  | and filters ih =>
      intro hresolving
      rw [Resolving, leaves] at hresolving
      exact persists_group writesGroup_and fun filter hfilter =>
        ih filter hfilter (resolving_of_mem hresolving filter hfilter)
  | or filters ih =>
      intro hresolving
      rw [Resolving, leaves] at hresolving
      exact persists_group writesGroup_or fun filter hfilter =>
        ih filter hfilter (resolving_of_mem hresolving filter hfilter)
  | not filter ih =>
      intro hresolving
      rw [Resolving, leaves] at hresolving
      rw [render, render]
      exact (ih hresolving).bind fun _ => .refl _
  | truth operand negated =>
      intro _
      rw [render, render]
      exact (operand.persists_render h).bind fun _ => .refl _
  | never operand =>
      intro _
      rw [render, render]
      exact .refl _
  | leaf filter hleaf =>
      intro hresolving
      cases hleaf with
      | compare left comparison right =>
          rw [render, render]
          exact (left.persists_render h).bind fun _ =>
            (right.persists_render h).bind fun _ => .refl _
      | null operand negated =>
          rw [render, render]
          exact (operand.persists_render h).bind fun _ => .refl _
      | inList operand first rest =>
          rw [render, render]
          · exact (operand.persists_render h).bind fun _ => .refl _
          all_goals simp
      | inQuery operand query =>
          rw [render, render]
          exact (operand.persists_render h).bind fun _ => .refl _
      | verbatim condition =>
          rw [render, render]
          exact .refl _
      | invalid error =>
          rw [render, render]
          exact .refl _
      | custom steps =>
          rcases hresolving steps (by simp [leaves]) with ⟨inquiry, hinquiry⟩
          rw [render, render, hinquiry, hinquiry]
          exact inquiry.persists_steps h

end Filter

/-! ## Clauses -/

theorem JoinClause.persists_render (h : columns.Extends next) {join : JoinClause}
    (hon : ∀ filter ∈ join.on, filter.Resolving) :
    Persists (join.render columns) (join.render next) :=
  ((Filter.and join.on).persists_render h (Filter.resolving_and hon)).bind fun _ => .refl _

namespace Plan

theorem persists_joinClauses (h : columns.Extends next) {joins : List JoinClause}
    (hon : ∀ join ∈ joins, ∀ filter ∈ join.on, filter.Resolving) :
    Persists (joinClauses columns joins) (joinClauses next joins) := by
  induction joins with
  | nil => exact .refl _
  | cons join rest ih =>
      have hfirst := JoinClause.persists_render h (hon join List.mem_cons_self)
      have hrest := ih fun other hother => hon other (List.mem_cons_of_mem join hother)
      exact hfirst.bind fun _ => hrest.bind fun _ => .refl _

theorem persists_whereClause (h : columns.Extends next) {filters : List Filter}
    (hfilters : ∀ filter ∈ filters, filter.Resolving) :
    Persists (whereClause columns filters) (whereClause next filters) := by
  cases filters with
  | nil => exact .refl _
  | cons first rest =>
      exact ((Filter.and (first :: rest)).persists_render h (Filter.resolving_and hfilters)).map _

theorem persists_orderTerms (h : columns.Extends next) (terms : List OrderTerm) :
    Persists (orderTerms columns terms) (orderTerms next terms) := by
  induction terms with
  | nil => exact .refl _
  | cons term rest ih =>
      exact (term.operand.persists_render h).bind fun _ => ih.bind fun _ => .refl _

end Plan

end Conditions

/-! ## What calls resolve at once -/

/-- The field that a call assigns to, with its value. -/
def Call.assigned? : Call → Option (Token × BindValue)
  | .assign token value => some (token, value)
  | _ => none

/-- The field that a call groups by. -/
def Call.grouped? : Call → Option Token
  | .groupBy token => some token
  | _ => none

namespace Plan

variable {plan : Plan}

/-- An assignment notes the column that its field stands for. -/
theorem assigned_of_apply {call : Call} (herrors : (plan.apply call).errors = []) :
    ∃ added, (plan.apply call).assignments = plan.assignments ++ added ∧
      List.Forall₂ (fun pair noted => plan.columns.bareColumn pair.1 = .ok noted.1 ∧
        pair.2 = noted.2) call.assigned?.toList added := by
  by_cases hkind : call.kind = .assign
  · cases call with
    | assign token value =>
        rcases @assign_eq plan token value herrors with ⟨column, hcolumn, hnext⟩
        refine ⟨[(column, value)], ?_, .cons ⟨hcolumn, rfl⟩ .nil⟩
        show (plan.assign token value).assignments = plan.assignments ++ [(column, value)]
        rw [hnext]
    | _ => cases hkind
  · have hnone : call.assigned? = none := by
      cases call with
      | assign token value => exact absurd rfl hkind
      | _ => rfl
    refine ⟨[], ?_, ?_⟩
    · rw [List.append_nil]
      exact assignments_apply herrors hkind
    · rw [hnone]
      exact .nil

/-- Only grouping adds to what is grouped by. -/
theorem grouping_apply {call : Call} (herrors : (plan.apply call).errors = [])
    (hgroup : call.grouped? = none) : (plan.apply call).grouping = plan.grouping := by
  cases htarget : call.target? with
  | none =>
      refine (keeps_apply htarget ?_).grouping
      rintro token rfl
      cases hgroup
  | some taken =>
      cases call with
      | join kind target =>
          rcases mapTarget_of_openJoinOn herrors with ⟨mappedPlan, mapped, hmap, -⟩
          have hmapped : mappedPlan.grouping = plan.closeJoin.grouping := (links_mapTarget hmap).1
          show (plan.openJoinOn kind target).grouping = plan.grouping
          rw [openJoinOn_of_ok hmap]
          exact hmapped
      | _ => cases htarget

/-- Grouping notes the column that its field stands for. -/
theorem grouped_of_apply {call : Call} (herrors : (plan.apply call).errors = []) :
    ∃ added, (plan.apply call).grouping = plan.grouping ++ added ∧
      List.Forall₂ (fun token noted => plan.columns.qualifiedColumn token = .ok noted)
        call.grouped?.toList added := by
  cases hgroup : call.grouped? with
  | none =>
      refine ⟨[], ?_, .nil⟩
      rw [List.append_nil]
      exact grouping_apply herrors hgroup
  | some grouped =>
      cases call with
      | groupBy token =>
          cases hgroup
          rcases @groupBy_eq plan grouped herrors with ⟨entry, hentry, hnext⟩
          have hcolumn : plan.columns.qualifiedColumn grouped = .ok entry.qualified :=
            map_eq_ok.2 ⟨entry, hentry, rfl⟩
          refine ⟨[entry.qualified], ?_, .cons hcolumn .nil⟩
          show (plan.groupBy grouped).grouping = plan.grouping ++ [entry.qualified]
          rw [hnext]
      | _ => cases hgroup

/-- What a run of calls notes, each note in agreement with the fields known at the time, agrees with
those known at the end. -/
theorem noted_of_calls {α β : Type} (asked? : Call → Option α) (noted : Plan → List β)
    (agrees : ColumnMap → α → β → Prop)
    (hstays : ∀ {columns next : ColumnMap}, columns.Extends next →
      ∀ field note, agrees columns field note → agrees next field note)
    (hstep : ∀ {plan : Plan} {call : Call}, (plan.apply call).errors = [] →
      ∃ added, noted (plan.apply call) = noted plan ++ added ∧
        List.Forall₂ (agrees plan.columns) (asked? call).toList added)
    {calls : List Call} {plan : Plan} (herrors : (calls.foldl apply plan).errors = []) :
    ∃ added, noted (calls.foldl apply plan) = noted plan ++ added ∧
      List.Forall₂ (agrees (calls.foldl apply plan).columns)
        (calls.flatMap fun call => (asked? call).toList) added := by
  induction calls generalizing plan with
  | nil => exact ⟨[], (List.append_nil _).symm, .nil⟩
  | cons call rest ih =>
      rcases ih herrors with ⟨later, hlater, hagrees⟩
      rcases hstep ((continues_calls rest _).errors_nil herrors) with ⟨first, hfirst, hfound⟩
      -- what the first call found is still found when all calls are made
      have hextends := (continues_calls (call :: rest) plan).columns
      have hstill := hfound.imp (hstays hextends)
      refine ⟨first ++ later, ?_, List.rel_append hstill hagrees⟩
      rw [List.foldl_cons, hlater, hfirst, List.append_assoc]

/-- Later calls leave what a field stands for alone: its table and its column keep their names, and
conditions and clauses that could be written are written the same, as long as what is written by hand
in them resolves tokens only.  So a field that was assigned to or grouped by as soon as it was named
is the one that is found by the end. -/
theorem names_kept (plan : Plan) (calls : List Call) :
    let next := calls.foldl apply plan
    (∀ token entry, plan.columns.find? token = some entry →
        ∃ later, next.columns.find? token = some later ∧
          later.quotedTable = entry.quotedTable ∧ later.quotedColumn = entry.quotedColumn) ∧
      (∀ token, Persists (plan.columns.qualifiedColumn token) (next.columns.qualifiedColumn token) ∧
        Persists (plan.columns.bareColumn token) (next.columns.bareColumn token)) ∧
      (∀ filter : Filter, filter.Resolving →
        Persists (filter.render plan.columns) (filter.render next.columns)) ∧
      (∀ joins : List JoinClause, (∀ join ∈ joins, ∀ filter ∈ join.on, filter.Resolving) →
        Persists (joinClauses plan.columns joins) (joinClauses next.columns joins)) ∧
      (∀ filters : List Filter, (∀ filter ∈ filters, filter.Resolving) →
        Persists (whereClause plan.columns filters) (whereClause next.columns filters)) ∧
      (∀ terms, Persists (orderTerms plan.columns terms) (orderTerms next.columns terms)) ∧
      (next.errors = [] → ∃ assigned grouped,
        next.assignments = plan.assignments ++ assigned ∧ next.grouping = plan.grouping ++ grouped ∧
          List.Forall₂ (fun pair noted =>
            next.columns.bareColumn pair.1 = .ok noted.1 ∧ pair.2 = noted.2)
            (calls.flatMap fun call => call.assigned?.toList) assigned ∧
          List.Forall₂ (fun token noted => next.columns.qualifiedColumn token = .ok noted)
            (calls.flatMap fun call => call.grouped?.toList) grouped) := by
  intro next
  have hextends : plan.columns.Extends next.columns := (continues_calls calls plan).columns
  refine ⟨?_, fun token => ?_, fun filter => filter.persists_render hextends,
    fun _ => persists_joinClauses hextends, fun _ => persists_whereClause hextends,
    persists_orderTerms hextends, ?_⟩
  · intro token entry hentry
    rcases hextends.find? hentry with ⟨later, hlater, hfixed⟩
    have htable : later.quotedTable = entry.quotedTable := (congrArg Entry.quotedTable hfixed :)
    have hcolumn : later.quotedColumn = entry.quotedColumn :=
      (congrArg Entry.quotedColumn hfixed :)
    exact ⟨later, hlater, htable, hcolumn⟩
  · exact ⟨hextends.persists_qualifiedColumn token, hextends.persists_bareColumn token⟩
  · intro herrors
    rcases noted_of_calls Call.assigned? Plan.assignments
      (fun columns pair noted => columns.bareColumn pair.1 = .ok noted.1 ∧ pair.2 = noted.2)
      (fun h _ _ hfound => ⟨h.persists_bareColumn _ _ hfound.1, hfound.2⟩)
      assigned_of_apply herrors with ⟨assigned, hassignments, hassigned⟩
    rcases noted_of_calls Call.grouped? Plan.grouping
      (fun columns token noted => columns.qualifiedColumn token = .ok noted)
      (fun h _ _ hfound => h.persists_qualifiedColumn _ _ hfound)
      grouped_of_apply herrors with ⟨grouped, hgrouping, hgrouped⟩
    exact ⟨assigned, grouped, hassignments, hgrouping, hassigned, hgrouped⟩

end Plan

namespace Squads

/-- A condition written by hand: the key of the team is odd, by whatever names the key has. -/
def odd (columns : ColumnMap) : List Fragment :=
  match columns.queryable ⟨2⟩ with
  | .ok entry =>
    [.sql (entry.quotedTable ++ "." ++ entry.quotedColumn ++ " % 2 = "), .value (.int 1)]
  | .error error => [.fail error]

theorem resolvesOnly_odd : Filter.ResolvesOnly odd := by
  refine ⟨.resolve ⟨2⟩ fun source column =>
    .write [.sql (source ++ "." ++ column ++ " % 2 = "), .value (.int 1)], fun columns => ?_⟩
  unfold odd Inquiry.steps
  cases columns.queryable ⟨2⟩ <;> rfl

/-- The key of the team is assigned before the players are joined; their foreign key stands for it by
then, and the column that was noted is still the one that it is called.  A condition that is written
by hand calls it so, too. -/
theorem names_kept_renumbered :
    (∃ entry later, start.plan.columns.find? ⟨2⟩ = some entry ∧
      renumbered.plan.columns.find? ⟨2⟩ = some later ∧ later.quotedTable = entry.quotedTable ∧
      later.quotedColumn = entry.quotedColumn) ∧
      start.plan.columns.qualifiedColumn ⟨2⟩ = .ok "\"teams\".\"id\"" ∧
      renumbered.plan.columns.qualifiedColumn ⟨2⟩ = .ok "\"teams\".\"id\"" ∧
      Filter.ResolvesOnly odd ∧
      (Filter.not (.custom odd)).render renumbered.plan.columns =
        .ok ⟨[.text "NOT (", .text "\"teams\".\"id\" % 2 = ", .mark, .text ")"], [.int 1], rfl⟩ ∧
      renumbered.plan.errors = [] ∧ renumbered.plan.assignments = [("\"id\"", .int 7)] ∧
      renumbered.plan.columns.bareColumn ⟨2⟩ = .ok "\"id\"" := by
  have hkept := start.plan.names_kept renumbering
  have hstart : ∃ entry, start.plan.columns.find? ⟨2⟩ = some entry := ⟨_, rfl⟩
  rcases hstart with ⟨entry, hentry⟩
  rcases hkept.1 ⟨2⟩ entry hentry with ⟨later, hlater, htable, hcolumn⟩
  have hqualified := (hkept.2.1 ⟨2⟩).1 "\"teams\".\"id\"" rfl
  have hresolving : (Filter.not (.custom odd)).Resolving := by
    intro steps hsteps
    have hodd : steps = odd := by simpa [Filter.leaves] using hsteps
    exact hodd ▸ resolvesOnly_odd
  have hwritten := hkept.2.2.1 (.not (.custom odd)) hresolving
    ⟨[.text "NOT (", .text "\"teams\".\"id\" % 2 = ", .mark, .text ")"], [.int 1], rfl⟩ rfl
  have hclean : renumbered.plan.errors = [] := rfl
  rcases hkept.2.2.2.2.2.2 hclean with ⟨assigned, -, hassignments, -, hassigned, -⟩
  have hnoted : renumbered.plan.assignments = [("\"id\"", .int 7)] := rfl
  -- the one note is the assignment's own
  have hone : assigned = [("\"id\"", .int 7)] := by
    have hnone : start.plan.assignments = [] := rfl
    rw [hnone, List.nil_append] at hassignments
    exact hassignments.symm.trans hnoted
  rw [hone] at hassigned
  cases hassigned with
  | cons hfirst hrest =>
      exact ⟨⟨entry, later, hentry, hlater, htable, hcolumn⟩, rfl, hqualified, resolvesOnly_odd,
        hwritten, hclean, hnoted, hfirst.1⟩

end Squads

end FieldQuery
