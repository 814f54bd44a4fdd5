import FieldQuery.Proofs.Plan.Columns
import FieldQuery.Proofs.Plan.Segments
import FieldQuery.Proofs.Plan.Sources

/-!
# Statements are made of their segments

Each writer has a counterpart that writes segments, and fails where it fails.  What the segments
spell is what is written, and the columns among them are those of known fields and of links.

Main definitions:

- `Alike`: results that fit, or the same error.
- `Makes`: segments that make a statement, and name listed sources only.

Main statement: `Plan.makes_segments`.
-/

namespace FieldQuery

open Condition

/-- Two results that fit, or the same error. -/
inductive Alike {α β : Type} (fits : α → β → Prop) : Except PlanError α → Except PlanError β → Prop
  | ok {first : α} {second : β} (h : fits first second) : Alike fits (.ok first) (.ok second)
  | error (error : PlanError) : Alike fits (.error error) (.error error)

namespace Alike

variable {α β γ δ : Type} {fits : α → β → Prop} {suits : γ → δ → Prop}
  {first : Except PlanError α} {second : Except PlanError β}

theorem bind (h : Alike fits first second) {next : α → Except PlanError γ}
    {last : β → Except PlanError δ}
    (hnext : ∀ a b, fits a b → Alike suits (next a) (last b)) :
    Alike suits (first >>= next) (second >>= last) := by
  cases h with
  | ok h => exact hnext _ _ h
  | error error => exact .error error

theorem map (h : Alike fits first second) {next : α → γ} {last : β → δ}
    (hnext : ∀ a b, fits a b → suits (next a) (last b)) :
    Alike suits (first.map next) (second.map last) := by
  cases h with
  | ok h => exact .ok (hnext _ _ h)
  | error error => exact .error error

theorem exists_of_ok {b : β} (h : Alike fits first (.ok b)) : ∃ a, first = .ok a ∧ fits a b := by
  cases h with
  | ok h => exact ⟨_, rfl, h⟩

end Alike

/-- Segments that make a statement, and name no other sources than these. -/
structure Makes (names : List String) (segments : List Segment) (statement : Statement) : Prop where
  text : Segment.text segments = symbols statement
  listed : ∀ name, .column name ∈ segments → name.source ∈ names

namespace Makes

variable {names : List String} {front back : List Segment} {first second : Statement}

theorem nil : Makes names [] .empty :=
  ⟨rfl, fun _ hmem => by cases hmem⟩

theorem single {segment : Segment} (h : ∀ name, segment = .column name → name.source ∈ names) :
    Makes names [segment] segment.statement where
  text := List.append_nil _
  listed := by
    intro name hmem
    exact h name (List.mem_singleton.1 hmem).symm

theorem other (statement : Statement) : Makes names [.other statement] statement :=
  single fun _ heq => by cases heq

theorem source (origin : Source) (correlation : Option String) :
    Makes names [.source origin correlation] (Segment.source origin correlation).statement :=
  single fun _ heq => by cases heq

theorem column {name : ColumnName} (h : name.source ∈ names) :
    Makes names [.column name] (.ofText name.text) := by
  refine single ?_
  rintro other ⟨⟩
  exact h

theorem append (h : Makes names front first) (h' : Makes names back second) :
    Makes names (front ++ back) (first ++ second) where
  text := by rw [Segment.text, List.flatMap_append, symbols_append, ← h.text, ← h'.text]; rfl
  listed := by
    intro name hmem
    rcases List.mem_append.1 hmem with hmem | hmem
    · exact h.listed name hmem
    · exact h'.listed name hmem

/-- The pieces of a text may be cut otherwise. -/
theorem of_symbols (h : Makes names front first) (heq : symbols first = symbols second) :
    Makes names front second :=
  ⟨h.text.trans heq, h.listed⟩

theorem join (separator : String) {parts : List (List Segment)} {statements : List Statement}
    (h : List.Forall₂ (Makes names) parts statements) :
    Makes names (Segment.join separator parts) (.join separator statements) := by
  induction h with
  | nil => exact nil
  | cons hfirst hrest ih =>
      cases hrest with
      | nil => exact hfirst
      | cons hsecond hothers => exact (hfirst.append (other _)).append ih

end Makes

/-- What is written without looking at its columns. -/
theorem alike_other {names : List String} (written : Except PlanError Statement) :
    Alike (Makes names) (written.map fun written => [.other written]) written := by
  cases written with
  | ok written => exact .ok (.other written)
  | error error => exact .error error

theorem symbolsOf_append (first second : String) :
    symbolsOf (first ++ second) = symbolsOf first ++ symbolsOf second := by
  simp [symbolsOf]

theorem symbols_ofText_append (first second : String) :
    symbols (.ofText (first ++ second)) = symbols (.ofText first ++ .ofText second) := by
  rw [symbols_append, symbols_ofText, symbols_ofText, symbols_ofText, symbolsOf_append]

theorem symbolsOf_intercalate (separator : String) :
    ∀ texts : List String, symbolsOf (separator.intercalate texts) =
      (symbolsOf separator).intercalate (texts.map symbolsOf)
  | [] => rfl
  | [only] => by simp
  | first :: second :: rest => by
      have hrest := symbolsOf_intercalate separator (second :: rest)
      rw [String.intercalate_cons_cons, symbolsOf_append, symbolsOf_append, hrest]
      simp

/-- Texts with a text between any two, as one text. -/
theorem Makes.intercalate {names : List String} {separator : String} {segments : List Segment}
    {texts : List String} (h : Makes names segments (.join separator (texts.map .ofText))) :
    Makes names segments (.ofText (separator.intercalate texts)) := by
  have hparts : (texts.map Statement.ofText).map symbols = texts.map symbolsOf := by
    simp
  refine h.of_symbols ?_
  rw [symbols_join, hparts, symbols_ofText, symbolsOf_intercalate]

/-! ## Conditions -/

/-- The sources of all known columns and of all links are among the names. -/
structure SourcesAmong (names : List String) (links : List Link) (columns : ColumnMap) : Prop where
  columns : ∀ entry ∈ columns.entries, entry.quotedTable ∈ names
  links : ∀ link ∈ links, link.near.source ∈ names ∧ link.far.source ∈ names

section

variable {names : List String} {links : List Link} {columns : ColumnMap}

theorem SourcesAmong.queryable (h : SourcesAmong names links columns) (token : Token) :
    Alike (fun entry text => text = entry.name.text ∧ entry.name.source ∈ names)
      (columns.queryable token) (columns.qualifiedColumn token) := by
  unfold ColumnMap.qualifiedColumn
  cases hfound : columns.queryable token with
  | error error => exact .error error
  | ok entry =>
      have hmem := List.mem_of_find?_eq_some (ColumnMap.queryable_eq_ok.1 hfound).1
      exact .ok ⟨rfl, h.columns entry hmem⟩

/-- A field that is written behind its source. -/
theorem SourcesAmong.field (h : SourcesAmong names links columns) (token : Token) :
    Alike (Makes names) ((columns.queryable token).map fun entry => [.column entry.name])
      ((columns.qualifiedColumn token).map .ofText) := by
  refine (h.queryable token).map ?_
  rintro entry _ ⟨rfl, hmem⟩
  exact .column hmem

namespace Operand

mutual

-- along the recursion of the two writers, which follow the operands and the parts of a template
theorem makes_segments (h : SourcesAmong names links columns) :
    ∀ operand : Operand, Alike (Makes names) (operand.segments columns) (operand.render columns)
  | .field token => by
      rw [segments, render]
      exact h.field token
  | .value v => by
      rw [segments, render]
      exact .ok (.other _)
  | .wrapped template operands => by
      rw [segments, render]
      refine (makes_segmentsMarks h operands (templateParts template).2).bind ?_
      intro segments written hmakes
      exact .ok ((Makes.other _).append hmakes)

theorem makes_segmentsMarks (h : SourcesAmong names links columns) :
    ∀ (operands : List Operand) (parts : List String),
      Alike (Makes names) (segmentsMarks columns operands parts)
        (renderMarks columns operands parts)
  | [], [] => by
      rw [segmentsMarks, renderMarks]
      exact .ok .nil
  | _ :: _, [] => by
      rw [segmentsMarks, renderMarks]
      exact .ok .nil
  | [], part :: parts => by
      rw [segmentsMarks, renderMarks]
      · exact .ok (.other _)
      · exact List.cons_ne_nil _ _
      · exact List.cons_ne_nil _ _
  | operand :: operands, part :: parts => by
      rw [segmentsMarks, renderMarks]
      refine (makes_segments h operand).bind ?_
      intro segments written hmakes
      refine (makes_segmentsMarks h operands parts).bind ?_
      intro others rest hothers
      exact .ok ((hmakes.append (.other _)).append hothers)

end

end Operand

namespace Fragment

theorem makes_segments (h : SourcesAmong names links columns) (fragment : Fragment) :
    Alike (Makes names) (fragment.segments columns) (fragment.render columns) := by
  cases fragment with
  | qualifiedColumn token => exact h.field token
  | sql text => exact alike_other (render columns (.sql text))
  | value v => exact alike_other (render columns (.value v))
  | bareColumn token => exact alike_other (render columns (.bareColumn token))
  | fail error => exact alike_other (render columns (.fail error))

theorem makes_segmentsAll (h : SourcesAmong names links columns) (fragments : List Fragment) :
    Alike (Makes names) (segmentsAll columns fragments) (renderAll columns fragments) := by
  induction fragments with
  | nil => exact .ok .nil
  | cons fragment rest ih =>
      refine (makes_segments h fragment).bind ?_
      intro segments written hmakes
      refine ih.bind ?_
      intro others remaining hothers
      exact .ok (hmakes.append hothers)

end Fragment

namespace Filter

/-- A link is cut into its columns. -/
theorem makes_verbatimSegments (h : SourcesAmong names links columns) (condition : String) :
    Makes names (verbatimSegments links condition) (.ofText condition) := by
  unfold verbatimSegments
  cases hfound : links.find? fun link => link.condition == condition with
  | none => exact .other _
  | some link =>
      -- the text is that of a link, so it is put together from the link's two columns
      have hmem := List.mem_of_find?_eq_some hfound
      have hcondition : link.condition = condition := by simpa using List.find?_some hfound
      have hsources := h.links link hmem
      have hmakes := ((Makes.column hsources.1).append (.other (.ofText " = "))).append
        (.column hsources.2)
      refine hmakes.of_symbols ?_
      rw [← hcondition, symbols_append, symbols_append, symbols_ofText, symbols_ofText,
        symbols_ofText, symbols_ofText, Link.condition, symbolsOf_append, symbolsOf_append]

theorem makes_segmentsEach {filters : List Filter}
    (h : ∀ filter ∈ filters,
      Alike (Makes names) (filter.segments links columns) (filter.render columns)) :
    Alike (List.Forall₂ (Makes names)) (segmentsEach links columns filters)
      (renderEach columns filters) := by
  induction filters with
  | nil =>
      rw [segmentsEach, renderEach]
      exact .ok .nil
  | cons filter rest ih =>
      rw [segmentsEach, renderEach]
      refine (h filter List.mem_cons_self).bind ?_
      intro segments written hmakes
      refine (ih fun other hother => h other (List.mem_cons_of_mem _ hother)).bind ?_
      intro others remaining hothers
      refine .ok (.cons ?_ hothers)
      -- both writers put a list of conditions in parentheses
      split
      · exact ((Makes.other _).append hmakes).append (.other _)
      · exact hmakes

/-- How lists of conditions are written in segments. -/
structure SegmentsGroup (links : List Link) (columns : ColumnMap) (group : List Filter → Filter)
    (separator : String) (empty : Statement) : Prop where
  none : (group []).segments links columns = .ok [.other empty]
  one : ∀ only, (group [only]).segments links columns = only.segments links columns
  many : ∀ first second rest, (group (first :: second :: rest)).segments links columns =
    (segmentsEach links columns (first :: second :: rest)).map (Segment.join separator)

theorem segmentsGroup_and (links : List Link) (columns : ColumnMap) :
    SegmentsGroup links columns .and " AND " alwaysText where
  none := by simp [segments]
  one := by simp [segments]
  many := by simp [segments]

theorem segmentsGroup_or (links : List Link) (columns : ColumnMap) :
    SegmentsGroup links columns .or " OR " neverText where
  none := by simp [segments]
  one := by simp [segments]
  many := by simp [segments]

theorem makes_group {group : List Filter → Filter} {separator : String} {empty : Statement}
    (hwrites : WritesGroup columns group separator empty)
    (hsegments : SegmentsGroup links columns group separator empty) {filters : List Filter}
    (ih : ∀ filter ∈ filters,
      Alike (Makes names) (filter.segments links columns) (filter.render columns)) :
    Alike (Makes names) ((group filters).segments links columns)
      ((group filters).render columns) := by
  match filters, ih with
  | [], _ =>
      rw [hwrites.none, hsegments.none]
      exact .ok (.other empty)
  | [only], ih =>
      rw [hwrites.one, hsegments.one]
      exact ih only List.mem_cons_self
  | first :: second :: rest, ih =>
      rw [hwrites.many, hsegments.many]
      exact (makes_segmentsEach ih).map fun _ _ hparts => .join separator hparts

/-- Conditions are written in segments as they are written. -/
theorem makes_segments (h : SourcesAmong names links columns) (filter : Filter) :
    Alike (Makes names) (filter.segments links columns) (filter.render columns) := by
  induction filter using Filter.induction with
  | and filters ih => exact makes_group (writesGroup_and columns) (segmentsGroup_and ..) ih
  | or filters ih => exact makes_group (writesGroup_or columns) (segmentsGroup_or ..) ih
  | not filter ih =>
      rw [segments, render]
      refine ih.bind ?_
      intro segments written hmakes
      exact .ok (((Makes.other _).append hmakes).append (.other _))
  | truth operand negated =>
      rw [segments, render]
      refine (operand.makes_segments h).bind ?_
      intro segments written hmakes
      exact .ok ((Makes.other _).append hmakes)
  | never operand =>
      rw [segments, render]
      exact .ok (.other _)
  | leaf filter hleaf =>
      cases hleaf with
      | compare left comparison right =>
          rw [segments, render]
          refine (left.makes_segments h).bind ?_
          intro segments written hleft
          refine (right.makes_segments h).bind ?_
          intro others remaining hright
          exact .ok ((hleft.append (.other _)).append hright)
      | null operand negated =>
          rw [segments, render]
          refine (operand.makes_segments h).bind ?_
          intro segments written hmakes
          exact .ok (hmakes.append (.other _))
      | inList operand first rest =>
          rw [segments, render]
          · refine (operand.makes_segments h).bind ?_
            intro segments written hmakes
            have hlist := hmakes.append
              (.other (.ofText " IN (" ++ .ofValues (first :: rest) ++ .ofText ")"))
            refine .ok (hlist.of_symbols ?_)
            simp
          · simp
          · simp
      | inQuery operand query =>
          rw [segments, render]
          refine (operand.makes_segments h).bind ?_
          intro segments written hmakes
          have hquery := hmakes.append (.other (.ofText " IN (" ++ query ++ .ofText ")"))
          refine .ok (hquery.of_symbols ?_)
          simp
      | verbatim condition =>
          rw [segments, render]
          exact .ok (makes_verbatimSegments h condition)
      | invalid error =>
          rw [segments, render]
          exact .error error
      | custom steps =>
          rw [segments, render]
          exact Fragment.makes_segmentsAll h (steps columns)

end Filter

/-! ## Clauses -/

theorem makes_renderSource {names : List String} (join : JoinClause) :
    Makes names [.source join.source join.correlation] join.renderSource := by
  rw [join.renderSource_eq]
  exact .source join.source join.correlation

theorem JoinClause.makes_segments (h : SourcesAmong names links columns) (join : JoinClause) :
    Alike (Makes names) (join.segments links columns) (join.render columns) := by
  refine (Filter.makes_segments h (.and join.on)).bind ?_
  intro segments written hmakes
  have hsource : Makes names [.source join.source join.correlation] join.renderSource :=
    makes_renderSource join
  exact .ok ((((Makes.other _).append hsource).append (.other _)).append hmakes)

end

namespace Plan

variable {names : List String} {notes : Notes} {plan : Plan}

theorem makes_joinSegments {links : List Link} {columns : ColumnMap}
    (h : SourcesAmong names links columns) (joins : List JoinClause) :
    Alike (Makes names) (joinSegments links columns joins) (joinClauses columns joins) := by
  induction joins with
  | nil => exact .ok .nil
  | cons join rest ih =>
      refine (join.makes_segments h).bind ?_
      intro segments written hmakes
      refine ih.bind ?_
      intro others remaining hothers
      exact .ok (hmakes.append hothers)

theorem makes_whereSegments {links : List Link} {columns : ColumnMap}
    (h : SourcesAmong names links columns) (filters : List Filter) :
    Alike (Makes names) (whereSegments links columns filters) (whereClause columns filters) := by
  cases filters with
  | nil => exact .ok .nil
  | cons first rest =>
      refine (Filter.makes_segments h (.and (first :: rest))).map ?_
      intro segments written hmakes
      exact (Makes.other _).append hmakes

theorem makes_termSegments {columns : ColumnMap} {links : List Link}
    (h : SourcesAmong names links columns) (terms : List OrderTerm) :
    Alike (List.Forall₂ (Makes names)) (termSegments columns terms) (orderTerms columns terms) := by
  induction terms with
  | nil => exact .ok .nil
  | cons term rest ih =>
      refine (term.operand.makes_segments h).bind ?_
      intro segments written hmakes
      refine ih.bind ?_
      intro others remaining hothers
      exact .ok (.cons (hmakes.append (.other _)) hothers)

theorem makes_orderSegments (h : SourcesAmong names notes.links plan.columns) :
    Alike (Makes names) plan.orderSegments plan.orderClause := by
  unfold orderSegments orderClause
  cases plan.order with
  | nil => exact .ok .nil
  | cons first rest =>
      refine (makes_termSegments h (first :: rest)).map ?_
      intro segments written hmakes
      exact (Makes.other _).append (.join _ hmakes)

theorem makes_fromSegments : Makes names plan.fromSegments plan.fromClause := by
  unfold fromSegments fromClause
  cases plan.source with
  | none => exact .nil
  | some source =>
      dsimp only
      rw [source.render_eq]
      exact (Makes.other _).append (.source source none)

theorem makes_sourceSegments (keyword : String) :
    Makes names (plan.sourceSegments keyword) (plan.joinSources keyword) := by
  have hsources : ∀ joins : List JoinClause, List.Forall₂ (Makes names)
      (joins.map fun join => [.source join.source join.correlation])
      (joins.map (·.renderSource)) := by
    intro joins
    rw [List.forall₂_map_left_iff, List.forall₂_map_right_iff, List.forall₂_same]
    intro join _
    exact makes_renderSource join
  unfold sourceSegments joinSources
  cases plan.allJoins with
  | nil => exact .nil
  | cons first rest => exact (Makes.other _).append (.join _ (hsources (first :: rest)))

/-- The texts that are grouped by are those of the noted fields. -/
def Groups (columns : ColumnMap) (tokens : List Token) (grouping : List String) : Prop :=
  List.Forall₂ (fun token text => ∃ entry, columns.queryable token = .ok entry ∧
    text = entry.qualified) tokens grouping

theorem Groups.columns {links : List Link} {columns : ColumnMap}
    (h : SourcesAmong names links columns)
    {tokens : List Token} {grouping : List String} (hgroups : Groups columns tokens grouping) :
    ∃ grouped, groupedNames columns tokens = .ok grouped ∧
      grouping = grouped.map ColumnName.text ∧ ∀ name ∈ grouped, name.source ∈ names := by
  induction hgroups with
  | nil => exact ⟨[], rfl, rfl, fun _ hmem => by cases hmem⟩
  | @cons token text tokens grouping hfirst _ ih =>
      rcases hfirst with ⟨entry, hentry, rfl⟩
      rcases ih with ⟨grouped, hgrouped, rfl, hnames⟩
      have hmem := List.mem_of_find?_eq_some (ColumnMap.queryable_eq_ok.1 hentry).1
      refine ⟨entry.name :: grouped, ?_, rfl, List.forall_mem_cons.2 ⟨h.columns entry hmem, hnames⟩⟩
      simp only [groupedNames, hentry, hgrouped]
      rfl

theorem makes_groupSegments {tokens : List Token} (h : SourcesAmong names notes.links plan.columns)
    (hgroups : Groups plan.columns tokens plan.grouping) :
    ∃ segments, groupSegments plan.columns tokens = .ok segments ∧
      Makes names segments plan.groupClause := by
  rcases hgroups.columns h with ⟨grouped, hgrouped, hgrouping, hnames⟩
  have hparts : List.Forall₂ (Makes names) (grouped.map fun name => [.column name])
      (plan.grouping.map .ofText) := by
    rw [hgrouping, List.map_map, List.forall₂_map_left_iff, List.forall₂_map_right_iff,
      List.forall₂_same]
    intro name hmem
    exact .column (hnames name hmem)
  have hmakes := (Makes.other (.ofText " GROUP BY ")).append (Makes.join ", " hparts).intercalate
  unfold groupClause
  generalize plan.grouping = grouping at hgroups hmakes
  cases hgroups with
  | nil => exact ⟨[], rfl, .nil⟩
  | cons hfirst hrest =>
      refine ⟨_, ?_, hmakes.of_symbols (symbols_ofText_append _ _).symm⟩
      simp only [groupSegments, hgrouped]
      rfl

theorem makes_querySegments (h : SourcesAmong names notes.links plan.columns)
    (hgroups : Groups plan.columns notes.grouped plan.grouping) :
    Alike (Makes names) (plan.querySegments notes) plan.queryClauses := by
  rcases makes_groupSegments h hgroups with ⟨grouping, hgrouping, hgroup⟩
  unfold querySegments queryClauses
  refine (makes_joinSegments h plan.allJoins).bind ?_
  intro joins joinText hjoins
  refine (makes_whereSegments h (plan.conditions.getD [])).bind ?_
  intro conditions conditionText hconditions
  rw [hgrouping]
  refine (makes_orderSegments h).bind ?_
  intro order orderText horder
  exact .ok (((((makes_fromSegments.append hjoins).append hconditions).append hgroup).append
    horder).append (.other _))

theorem makes_itemSegments (h : SourcesAmong names notes.links plan.columns) {entry : Entry}
    (hentry : entry ∈ plan.columns.entries) :
    Makes names (itemSegments plan.dialect entry) (.ofText (selectItem plan.dialect entry)) := by
  unfold itemSegments selectItem Entry.selectExpr
  cases entry.selectTarget with
  | some expression => exact .other _
  | none =>
      have hname : entry.name.source ∈ names := h.columns entry hentry
      have hmakes := (Makes.column hname).append
        (.other (.ofText (" AS " ++ plan.dialect.quote entry.label)))
      refine hmakes.of_symbols ?_
      rw [← symbols_ofText_append, ← String.append_assoc]
      rfl

/-- Every statement that a plan makes is made of its segments. -/
theorem makes_segments (h : SourcesAmong names notes.links plan.columns)
    (hgroups : Groups plan.columns notes.grouped plan.grouping) (action : Action) :
    Alike (Makes names) (plan.segments notes action) (plan.statement action) := by
  have hcheck : Alike (fun _ _ => True) plan.check plan.check := by
    cases plan.check with
    | ok table => exact .ok trivial
    | error error => exact .error error
  have hfolded : Alike (Makes names) (plan.foldedSegments notes) plan.foldedWhere :=
    makes_whereSegments h _
  have hwritten : Makes names [plan.writtenSegment] (.ofText plan.quotedTable) :=
    .source (.named plan.quotedTable) none
  cases action with
  | select =>
      refine hcheck.bind fun _ _ _ => ?_
      have hitems : ∀ entries ⊆ plan.columns.entries, List.Forall₂ (Makes names)
          (entries.map (itemSegments plan.dialect))
          ((entries.map (selectItem plan.dialect)).map .ofText) := by
        intro entries hentries
        rw [List.map_map, List.forall₂_map_left_iff, List.forall₂_map_right_iff, List.forall₂_same]
        intro entry hmem
        exact makes_itemSegments h (hentries hmem)
      have hselected : plan.columns.selected ⊆ plan.columns.entries := List.filter_subset_self _
      generalize plan.columns.selected = entries at hselected
      cases entries with
      | nil => exact .error _
      | cons first rest =>
          refine (makes_querySegments h hgroups).bind ?_
          intro segments written hmakes
          have hlist := (Makes.join ", " (hitems _ hselected)).intercalate
          have hfront := (Makes.other (.ofText "SELECT ")).append hlist
          exact .ok ((hfront.of_symbols (symbols_ofText_append _ _).symm).append hmakes)
  | count =>
      refine hcheck.bind fun _ _ _ => ?_
      refine (makes_querySegments h hgroups).bind ?_
      intro segments written hmakes
      exact .ok ((Makes.other _).append hmakes)
  | update =>
      refine hcheck.bind fun _ _ _ => ?_
      cases plan.assignments with
      | nil => exact .error _
      | cons first rest =>
          refine hfolded.bind ?_
          intro segments written hmakes
          have hverb := ((Makes.other (.ofText "UPDATE ")).append hwritten).append
            (.other (.ofText " SET "))
          have hfront : Makes names _ (.ofText ("UPDATE " ++ plan.quotedTable ++ " SET ")) :=
            hverb.of_symbols (by simp [symbolsOf_append])
          exact .ok (((hfront.append (.other _)).append (makes_sourceSegments " FROM ")).append
            hmakes)
  | delete =>
      refine hcheck.bind fun _ _ _ => ?_
      refine hfolded.bind ?_
      intro segments written hmakes
      have hfront := (Makes.other (.ofText "DELETE FROM ")).append hwritten
      exact .ok (((hfront.of_symbols (symbols_ofText_append _ _).symm).append
        (makes_sourceSegments " USING ")).append hmakes)
  | insert => exact alike_other plan.insertStatement
  | truncate => exact alike_other plan.truncateStatement

end Plan

end FieldQuery
