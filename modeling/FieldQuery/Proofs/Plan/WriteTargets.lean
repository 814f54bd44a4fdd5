import FieldQuery.Database
import FieldQuery.Proofs.Plan.Entries

/-!
# What a write names

A write names its table by the quoted name that the primary target brought along, and does not look
at the source that the plan reads from.  For a model reference the two are the same.  A derived
table is left out of the write with all that narrows it: what is written to is the table that the
innermost plan names, or whatever bears the alias of a query written by hand.

Main definitions:

- `Target.StandsAs`: the source that a primary target is read from, and its quoted name.
- `Statement.Begins`: the text that a statement begins with.

Main statement: `Query.On.write_passes_source`.
-/

namespace FieldQuery

/-- The source that a primary target is read from, and the quoted name that it brings along. -/
inductive Target.StandsAs (dialect : Dialect) : Target → Source → String → Prop
  | model (reference : ModelTarget) :
      StandsAs dialect (.model reference)
        (.named (dialect.quotedTable reference.table.schema reference.table.name))
        (dialect.quotedTable reference.table.schema reference.table.name)
  | plan {sub : Plan} {read : Statement} (hread : sub.selectStatement = .ok read) :
      StandsAs dialect (.plan sub) (.derived read sub.quotedTable) sub.quotedTable
  | raw (reference : ModelTarget) (query : RawQuery) :
      StandsAs dialect (.raw reference query)
        (.derived query.statement
          (dialect.quote (query.correlation.getD reference.table.name)))
        (dialect.quote (query.correlation.getD reference.table.name))

theorem Target.StandsAs.named_iff {dialect : Dialect} {target : Target} {source : Source}
    {name : String} (h : target.StandsAs dialect source name) :
    source = .named name ↔ ∃ reference, target = .model reference := by
  cases h with
  | model reference => simp
  | plan hread => simp
  | raw reference query => simp

namespace Plan

variable {plan next : Plan} {target : Target}

theorem standsAs_mapTarget {mapped : MappedTarget}
    (h : plan.mapTarget target = (next, .ok mapped)) (herrors : next.errors = []) :
    target.StandsAs plan.dialect mapped.source mapped.quotedTable := by
  cases target with
  | model reference =>
      rcases mapModel_result h with ⟨-, rfl⟩
      exact .model reference
  | plan sub =>
      rcases (maps_mapTarget h herrors).written with ⟨-, query, -, hquery, -⟩
      rcases mapPlan_result plan sub with ⟨errors, touched, read, heq, hread⟩
      have hmapped : (plan.mapPlan sub).2 = mapped := Except.ok.inj (congrArg Prod.snd h)
      rw [← hmapped, heq, hread query hquery]
      exact .plan hquery
  | raw reference query =>
      rcases mapRaw_result h with ⟨-, rfl⟩
      exact .raw reference query

theorem standsAs_mapRoot (h : (plan.mapRoot target).errors = []) :
    ∃ source, (plan.mapRoot target).source = some source ∧
      target.StandsAs (plan.mapRoot target).dialect source (plan.mapRoot target).quotedTable := by
  rcases mapTarget_of_mapRoot h with ⟨next, mapped, hmap, herrors⟩
  have hstands := standsAs_mapTarget hmap herrors
  have hdialect : next.dialect = plan.dialect :=
    congrArg Grounds.dialect (continues_of_mapTarget hmap).grounds
  rw [← hdialect] at hstands
  rw [mapRoot_of_ok hmap]
  exact ⟨mapped.source, rfl, hstands⟩

/-- A plan that has any statement has no errors. -/
theorem errors_of_statement {action : Action} {written : Statement}
    (h : plan.statement action = .ok written) : plan.errors = [] := by
  have hcheck : ∃ table, plan.check = .ok table := by
    cases action with
    | select => exact (bind_eq_ok.1 h).imp fun _ => And.left
    | count => exact (bind_eq_ok.1 h).imp fun _ => And.left
    | insert => exact (bind_eq_ok.1 h).imp fun _ => And.left
    | update => exact (bind_eq_ok.1 h).imp fun _ => And.left
    | delete => exact (bind_eq_ok.1 h).imp fun _ => And.left
    | truncate => exact (bind_eq_ok.1 h).imp fun _ => And.left
  rcases hcheck with ⟨table, htable⟩
  unfold check at htable
  split at htable
  · cases htable
  · assumption
  · cases htable

end Plan

/-! ## How writes begin -/

/-- The text that a statement begins with. -/
def Statement.Begins (statement : Statement) (text : String) : Prop :=
  ∃ more rest, statement.parts = .text (text ++ more) :: rest

namespace Statement

variable {statement : Statement} {text : String}

theorem begins_ofText (text more : String) : (ofText (text ++ more)).Begins text :=
  ⟨more, [], rfl⟩

theorem begins_self (text : String) : (ofText text).Begins text := by
  have hbegins := begins_ofText text ""
  rwa [String.append_empty] at hbegins

theorem Begins.append (h : statement.Begins text) (next : Statement) :
    (statement ++ next).Begins text := by
  rcases h with ⟨more, rest, hparts⟩
  exact ⟨more, rest ++ next.parts, by rw [parts_append, hparts, List.cons_append]⟩

theorem Begins.sql (h : statement.Begins text) (dialect : Dialect) :
    ∃ rest, statement.sql dialect = text ++ rest := by
  rcases h with ⟨more, rest, hparts⟩
  refine ⟨more ++ partsSql dialect 1 rest, ?_⟩
  rw [Statement.sql, hparts, partsSql, String.append_assoc]

end Statement

/-- What stands in front of the table in a write. -/
def Database.Write.verb : Database.Write → String
  | .insert => "INSERT INTO "
  | .update => "UPDATE "
  | .delete => "DELETE FROM "
  | .truncate => "TRUNCATE TABLE "

namespace Plan

variable {plan : Plan}

theorem begins_statement {write : Database.Write} {written : Statement}
    (h : plan.statement write.action = .ok written) :
    written.Begins (write.verb ++ plan.quotedTable) := by
  cases write with
  | insert =>
      rcases bind_eq_ok.1 h with ⟨-, -, hassigned⟩
      dsimp only at hassigned
      split at hassigned
      · cases hassigned
      · cases hassigned
        have hbegins := Statement.begins_ofText ("INSERT INTO " ++ plan.quotedTable)
          (" (" ++ ", ".intercalate (plan.assignments.map (·.1)) ++ ") VALUES (")
        simp only [← String.append_assoc] at hbegins
        exact (hbegins.append _).append _
  | update =>
      rcases bind_eq_ok.1 h with ⟨-, -, hassigned⟩
      dsimp only at hassigned
      split at hassigned
      · cases hassigned
      · rcases bind_eq_ok.1 hassigned with ⟨conditions, -, hwritten⟩
        cases hwritten
        exact (((Statement.begins_ofText _ _).append _).append _).append _
  | delete =>
      rcases bind_eq_ok.1 h with ⟨-, -, hbehind⟩
      rcases bind_eq_ok.1 hbehind with ⟨conditions, -, hwritten⟩
      cases hwritten
      exact ((Statement.begins_self _).append _).append _
  | truncate =>
      rcases bind_eq_ok.1 h with ⟨-, -, hwritten⟩
      cases hwritten
      exact Statement.begins_self _

/-- A write does not look at the source. -/
theorem statement_source (plan : Plan) (write : Database.Write) (source : Option Source) :
    ({ plan with source := source } : Plan).statement write.action =
      plan.statement write.action := by
  cases write with
  | insert => rfl
  | update => rfl
  | delete => rfl
  | truncate => rfl

end Plan

/-! ## Queries -/

/-- No call takes the source or the name back. -/
theorem Query.On.stands {target : Target} {query : Query} (h : query.On target)
    (herrors : query.plan.errors = []) :
    ∃ source, query.plan.source = some source ∧
      target.StandsAs query.plan.dialect source query.plan.quotedTable := by
  induction h with
  | start => exact Plan.standsAs_mapRoot herrors
  | @call before next call h hnext ih =>
      have hcontinues := Query.continues_call? hnext
      have hclean : before.plan.errors = [] := hcontinues.errors_nil herrors
      rcases ih hclean with ⟨source, hsource, hstands⟩
      have hgrounds := hcontinues.grounds
      have hdialect : next.plan.dialect = before.plan.dialect :=
        congrArg Grounds.dialect hgrounds
      have hname : next.plan.quotedTable = before.plan.quotedTable :=
        congrArg Grounds.quotedTable hgrounds
      have hkept : next.plan.source = before.plan.source := congrArg Grounds.source hgrounds
      refine ⟨source, hkept.trans hsource, ?_⟩
      rw [hdialect, hname]
      exact hstands

/-- Every write that has a statement names the quoted name that the primary target brought along.
That is the table which the plan reads if, and only if, the target is a model reference; a derived
table is no part of the statement, which is the same with any other source in its place. -/
theorem Query.On.write_passes_source {target : Target} {query : Query} (h : query.On target)
    {write : Database.Write} {written : Statement}
    (hwritten : query.plan.statement write.action = .ok written) :
    ∃ source, query.plan.source = some source ∧
      target.StandsAs query.plan.dialect source query.plan.quotedTable ∧
      (source = .named query.plan.quotedTable ↔ ∃ reference, target = .model reference) ∧
      (∃ rest, written.sql query.plan.dialect = write.verb ++ query.plan.quotedTable ++ rest) ∧
      ∀ other, ({ query.plan with source := other } : Plan).statement write.action =
        .ok written := by
  have herrors : query.plan.errors = [] := Plan.errors_of_statement hwritten
  rcases h.stands herrors with ⟨source, hsource, hstands⟩
  refine ⟨source, hsource, hstands, hstands.named_iff, ?_, ?_⟩
  · exact (Plan.begins_statement hwritten).sql query.plan.dialect
  · intro other
    rw [Plan.statement_source, hwritten]

namespace Relegation

def players : Table :=
  { name := "players"
    columns := [{ name := "id", field := "id" }, { name := "score", field := "score" }] }

/-- Five players with low scores. -/
def low : Query :=
  let query := Query.start .postgres ⟨[players]⟩ true [] (.model ⟨players, none, [⟨0⟩, ⟨1⟩]⟩)
  let plan := query.plan.apply .startWhere
    |>.apply (.filter [.compare (.field ⟨1⟩) .less (.value (.int 10))])
    |>.apply (.limit 5)
  ⟨.selecting, plan⟩

/-- A query on those players. -/
def relegated : Query :=
  .start .postgres ⟨[players]⟩ true [] (.plan low.plan)

def deletion : Statement :=
  ⟨[.text "DELETE FROM \"players\""], [], rfl⟩

theorem statement_relegated : relegated.plan.statement .delete = .ok deletion := by
  rfl

/-- Deleting the players with low scores deletes all of them. -/
theorem write_passes_source_relegated :
    relegated.plan.statement Database.Write.delete.action = .ok deletion ∧
      ∃ read, low.plan.selectStatement = .ok read ∧
        relegated.plan.source = some (.derived read "\"players\"") ∧
        read.arguments = [.int 10, .int 5] ∧ deletion.arguments = [] := by
  have hwritten : relegated.plan.statement Database.Write.delete.action = .ok deletion :=
    statement_relegated
  have hon : relegated.On (.plan low.plan) := .start
  rcases Query.On.write_passes_source hon hwritten with
    ⟨source, hsource, hstands, -⟩
  cases hstands with
  | @plan _ read hread =>
      have hname : low.plan.quotedTable = "\"players\"" := by rfl
      have harguments : low.plan.selectStatement.map (·.arguments) = .ok [.int 10, .int 5] := by
        rfl
      have hbound : read.arguments = [.int 10, .int 5] := by
        simpa [hread, Except.map] using harguments
      rw [hname] at hsource
      exact ⟨hwritten, read, hread, hsource, hbound, rfl⟩

end Relegation

end FieldQuery
