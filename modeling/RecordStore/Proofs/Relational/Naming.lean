/-
Module: RecordStore.Proofs.Relational.Naming
Purpose: The names in the statements that make the tables of a set of models.  The columns of
  a table have distinct names unless a stored field of the model is called like a time that the
  model keeps itself, and then no database can be opened for the models.  The indexes have
  distinct names unless the name of one model continues that of another with an underscore and
  words that stand before a column too, and then one statement makes the index of both.
Main exports: Schema.ShadowsTime, Schema.SharesIndexName, indexName_eq_iff,
  Database.openAll_indexes, Database.openAll_refuses, statement_names_distinct
-/
import Mathlib.Data.List.Nodup
import Mathlib.Data.List.Pairwise
import RecordStore.Proofs.Relational.Columns
import RecordStore.Proofs.Schema.Names

namespace RecordStore

namespace Schema

/-- A stored field is called like one of the times that the model keeps itself. -/
def ShadowsTime (schema : Schema) : Prop :=
  schema.timestamps = true ∧ ∃ entry ∈ schema.storedFields,
    entry.1 = createdAtField ∨ entry.1 = updatedAtField

instance : DecidablePred ShadowsTime := fun _ => inferInstanceAs (Decidable (_ ∧ _))

/-- Indexes on a column of either model have one name: the name of the longer model is that of
the shorter one with an underscore and words, and the shorter model has a column that is called
like one of the longer model behind those words and another underscore. -/
def SharesIndexName (shorter longer : Schema) : Prop :=
  ∃ words, longer.name = shorter.name ++ "_" ++ words ∧
    ∃ column ∈ longer.tableColumns, column.indexed = true ∧
      ∃ other ∈ shorter.tableColumns, other.indexed = true ∧
        other.name = words ++ "_" ++ column.name

end Schema

/-! ### Names of columns -/

namespace Schema

/-- The names of the columns: that of the key, those of the stored fields, those of the times. -/
theorem columnNames_eq (schema : Schema) :
    schema.tableColumns.map Column.name =
      idField :: (schema.storedFields.map Prod.fst ++
        if schema.timestamps then [createdAtField, updatedAtField] else []) := by
  rw [tableColumns, List.map_cons, List.map_append, List.map_map]
  cases schema.timestamps <;> rfl

theorem Named.storedNames {schema : Schema} (named : schema.Named) :
    (schema.storedFields.map Prod.fst).Nodup ∧ idField ∉ schema.storedFields.map Prod.fst := by
  have among : (schema.storedFields.map Prod.fst).Sublist (schema.fields.map Prod.fst) :=
    List.filter_sublist.map Prod.fst
  exact ⟨named.distinct.sublist among, fun member => named.keyless (among.subset member)⟩

/-- The columns have distinct names unless a stored field takes that of a time. -/
theorem Named.columnNames_nodup_iff {schema : Schema} (named : schema.Named) :
    (schema.tableColumns.map Column.name).Nodup ↔ ¬ schema.ShadowsTime := by
  obtain ⟨distinct, keyless⟩ := named.storedNames
  have times : createdAtField ≠ updatedAtField ∧ idField ≠ createdAtField ∧
    idField ≠ updatedAtField := by decide
  rw [columnNames_eq, ShadowsTime]
  cases schema.timestamps with
  | false => simpa using ⟨fun _ member => keyless (List.mem_map_of_mem member), distinct⟩
  | true =>
      rw [if_pos rfl, List.nodup_cons, List.nodup_append, List.mem_append]
      simp only [List.mem_cons, List.not_mem_nil, or_false, times, not_false_eq_true,
        keyless, and_true, true_and, distinct, List.nodup_cons, List.nodup_nil, List.forall_mem_map]
      push Not
      simp only [forall_eq_or_imp, forall_eq]

/-- Only stored fields are indexed. -/
theorem indexedNames_sublist (schema : Schema) :
    ((schema.tableColumns.filter Column.indexed).map Column.name).Sublist
      (schema.storedFields.map Prod.fst) := by
  have key : keyColumn.indexed = false := rfl
  have times : (if schema.timestamps then
      [Column.ofTime createdAtField, Column.ofTime updatedAtField] else []).filter Column.indexed =
      [] := by
    cases schema.timestamps <;> rfl
  rw [tableColumns, List.filter_cons_of_neg (by simp [key]), List.filter_append, times,
    List.append_nil]
  exact (List.filter_sublist.map Column.name).trans (by simp [Column.ofField, Function.comp_def])

end Schema

/-! ### Names of indexes -/

/-- Two indexes have one name when they are on one column, or when what stands between the
names of the models is what stands between the names of the columns. -/
theorem indexName_eq_iff {table other column key : String} :
    indexName table column = indexName other key ↔
      (table = other ∧ column = key) ∨
      (∃ words, other = table ++ "_" ++ words ∧ column = words ++ "_" ++ key) ∨
      ∃ words, table = other ++ "_" ++ words ∧ key = words ++ "_" ++ column := by
  constructor
  · intro same
    have texts : table.toList ++ '_' :: column.toList = other.toList ++ '_' :: key.toList := by
      have spelled := congrArg String.toList same
      simpa [indexName] using spelled
    rcases List.append_eq_append_iff.mp texts with ⟨rest, longer, tail⟩ | ⟨rest, longer, tail⟩
    · cases rest with
      | nil =>
          refine .inl ⟨?_, ?_⟩
          · simpa [String.toList_inj] using longer.symm
          · simpa [String.toList_inj] using tail
      | cons mark words =>
          obtain ⟨rfl, tail⟩ := List.cons_eq_cons.mp tail
          refine .inr (.inl ⟨String.ofList words, ?_, ?_⟩)
          · simpa [← String.toList_inj] using longer
          · simpa [← String.toList_inj] using tail
    · cases rest with
      | nil =>
          refine .inl ⟨?_, ?_⟩
          · simpa [String.toList_inj] using longer
          · simpa [String.toList_inj] using tail.symm
      | cons mark words =>
          obtain ⟨rfl, tail⟩ := List.cons_eq_cons.mp tail
          refine .inr (.inr ⟨String.ofList words, ?_, ?_⟩)
          · simpa [← String.toList_inj] using longer
          · simpa [← String.toList_inj] using tail
  · rintro (⟨rfl, rfl⟩ | ⟨words, rfl, rfl⟩ | ⟨words, rfl, rfl⟩)
    · rfl
    · simp [indexName, String.append_assoc]
    · simp [indexName, String.append_assoc]

namespace Database

theorem mem_indexNames {schema : Schema} {name : String} :
    name ∈ indexNames schema ↔ ∃ column ∈ schema.tableColumns, column.indexed = true ∧
      indexName schema.name column.name = name := by
  simp [indexNames, and_assoc]

/-- The indexes of one model have distinct names. -/
theorem indexNames_nodup {schema : Schema} (named : schema.Named) : (indexNames schema).Nodup := by
  have distinct := named.storedNames.1.sublist schema.indexedNames_sublist
  have injective : Function.Injective (indexName schema.name) := by
    intro column other same
    simpa [indexName] using same
  have names := distinct.map injective
  rwa [List.map_map] at names

/-- The indexes of models with distinct names have distinct names unless two of the models
share one. -/
theorem indexNames_nodup_iff {schemas : List Schema} (distinct : (schemas.map Schema.name).Nodup)
    (named : ∀ schema ∈ schemas, schema.Named) :
    (schemas.flatMap indexNames).Nodup ↔
      ∀ shorter ∈ schemas, ∀ longer ∈ schemas, ¬ shorter.SharesIndexName longer := by
  rw [List.nodup_flatMap]
  constructor
  · rintro ⟨-, apart⟩ shorter known longer listed ⟨words, longerName, column, inside, indexed,
      other, within, marked, otherName⟩
    have differ : shorter ≠ longer := by
      rintro rfl
      simpa [String.append_assoc] using congrArg String.length longerName
    have symmetric : Std.Symm (Function.onFun List.Disjoint indexNames) :=
      ⟨fun _ _ disjoint _ here there => disjoint there here⟩
    refine apart.forall known listed differ (mem_indexNames.mpr ⟨other, within, marked, rfl⟩)
      (mem_indexNames.mpr ⟨column, inside, indexed, ?_⟩)
    exact indexName_eq_iff.mpr (.inr (.inr ⟨words, longerName, otherName⟩))
  · intro unshared
    refine ⟨fun schema known => indexNames_nodup (named schema known), ?_⟩
    refine (List.pairwise_map.mp distinct).imp_of_mem fun {first second} known listed differ => ?_
    intro name here there
    obtain ⟨column, inside, indexed, rfl⟩ := mem_indexNames.mp here
    obtain ⟨other, within, marked, same⟩ := mem_indexNames.mp there
    rcases indexName_eq_iff.mp same with ⟨equal, -⟩ | ⟨words, longer, spelled⟩ |
      ⟨words, longer, spelled⟩
    · exact differ equal.symm
    · exact unshared second listed first known
        ⟨words, longer, column, inside, indexed, other, within, marked, spelled⟩
    · exact unshared first known second listed
        ⟨words, longer, other, within, marked, column, inside, indexed, spelled⟩

/-! ### Opening a database -/

/-- Names are distinct for a database when their lower-case forms are. -/
theorem areDistinct_iff {names : List String} :
    areDistinct names = true ↔ (names.map Text.lower).Nodup := by
  induction names with
  | nil => simp [areDistinct]
  | cons name rest ih =>
      have taken : rest.any (Text.sameFolded name) = true ↔
          Text.lower name ∈ rest.map Text.lower := by
        simp only [List.any_eq_true, Text.sameFolded_iff, List.mem_map]
        exact exists_congr fun other => and_congr_right fun _ => eq_comm
      rw [areDistinct, Bool.and_eq_true, ih, List.map_cons, List.nodup_cons, ← taken,
        Bool.not_eq_true', Bool.not_eq_true]

/-- The names that are added to known ones: those whose lower-case form is not taken yet. -/
def newNames (known : List String) : List String → List String
  | [] => []
  | name :: rest =>
    if known.any (Text.sameFolded name) then newNames known rest
    else name :: newNames (known ++ [name]) rest

theorem newNames_sublist (known names : List String) : (newNames known names).Sublist names := by
  induction names generalizing known with
  | nil => exact .slnil
  | cons name rest ih =>
      rw [newNames]
      split
      · exact (ih known).cons name
      · exact (ih (known ++ [name])).cons_cons name

theorem newNames_append (known first second : List String) :
    newNames known (first ++ second) =
      newNames known first ++ newNames (known ++ newNames known first) second := by
  induction first generalizing known with
  | nil => simp [newNames]
  | cons name rest ih =>
      rw [List.cons_append, newNames, newNames]
      split
      · exact ih known
      · rw [ih, List.cons_append, List.append_assoc, List.singleton_append]

/-- All names are added when their lower-case forms are distinct, from each other and from
those that are known. -/
theorem newNames_eq_self_iff (known names : List String) :
    newNames known names = names ↔ (names.map Text.lower).Nodup ∧
      ∀ name ∈ names, known.any (Text.sameFolded name) = false := by
  induction names generalizing known with
  | nil => simp [newNames]
  | cons name rest ih =>
      rw [newNames, List.forall_mem_cons]
      cases taken : known.any (Text.sameFolded name) with
      | true =>
          have shorter := (newNames_sublist known rest).length_le
          have fewer : newNames known rest ≠ name :: rest := by
            intro same
            rw [same, List.length_cons] at shorter
            omega
          simp [fewer]
      | false =>
          simp only [Bool.false_eq_true, if_false, List.cons.injEq, true_and, ih, List.any_append,
            List.any_cons, List.any_nil, Bool.or_false, Bool.or_eq_false_iff, List.map_cons,
            List.nodup_cons, List.mem_map, Text.sameFolded, beq_eq_false_iff_ne]
          grind

/-- What making an index adds to the indexes. -/
theorem indexes_createIndex? {database next : Database} {name : String}
    (made : database.createIndex? name = some next) :
    next.indexes = database.indexes ++ newNames database.indexes [name] := by
  unfold createIndex? holdsIndex at made
  split at made
  · cases made
  rw [newNames, newNames]
  split at made
  · rename_i taken
    cases made
    rw [if_pos taken, List.append_nil]
  · rename_i free
    cases made
    rw [if_neg free, newNames]

/-- A table is made anew with distinct columns, or was there. -/
theorem createTable?_eq_some {database next : Database} {schema : Schema}
    (made : database.createTable? schema = some next) :
    next.indexes = database.indexes ∧ ((database.table? schema.name).isSome ∨
      ((schema.tableColumns.map Column.name).map Text.lower).Nodup) := by
  unfold createTable? at made
  split at made
  · cases made
  split at made
  · rename_i present
    cases made
    exact ⟨rfl, .inl present⟩
  split at made
  · cases made
  split at made
  · rename_i distinct
    cases made
    exact ⟨rfl, .inr (areDistinct_iff.mp distinct)⟩
  · cases made

/-- Steps that succeed succeed one after the other. -/
theorem runSteps_append {first second : List (Database → Option Database)}
    {database made : Database} :
    database.runSteps (first ++ second) = (true, made) ↔
      ∃ between, database.runSteps first = (true, between) ∧
        between.runSteps second = (true, made) := by
  induction first generalizing database with
  | nil => simp [runSteps]
  | cons step rest ih =>
      rw [List.cons_append, runSteps, runSteps]
      cases step database with
      | none => simp
      | some next => exact ih

theorem runSteps_cons {step : Database → Option Database}
    {rest : List (Database → Option Database)} {database made : Database} :
    database.runSteps (step :: rest) = (true, made) ↔
      ∃ next, step database = some next ∧ next.runSteps rest = (true, made) := by
  rw [runSteps]
  cases step database <;> simp

theorem runSteps_indexes {names : List String} {database made : Database}
    (done : database.runSteps (names.map fun name => fun d => d.createIndex? name) = (true, made)) :
    made.indexes = database.indexes ++ newNames database.indexes names := by
  induction names generalizing database with
  | nil =>
      cases done
      rw [newNames, List.append_nil]
  | cons name rest ih =>
      obtain ⟨next, first, later⟩ := runSteps_cons.mp done
      have added := newNames_append database.indexes [name] rest
      rw [List.singleton_append] at added
      rw [ih later, indexes_createIndex? first, added, List.append_assoc]

/-- Opening adds the names of the indexes that are not taken yet. -/
theorem openAll_newNames {schemas : List Schema} {database made : Database}
    (done : database.openAll schemas = (true, made)) :
    made.indexes = database.indexes ++ newNames database.indexes (schemas.flatMap indexNames) := by
  induction schemas generalizing database with
  | nil =>
      cases done
      rw [List.flatMap_nil, newNames, List.append_nil]
  | cons schema rest ih =>
      rw [openAll, List.flatMap_cons] at done
      obtain ⟨between, first, later⟩ := runSteps_append.mp done
      obtain ⟨next, table, indexes⟩ := runSteps_cons.mp first
      have made := runSteps_indexes indexes
      rw [(createTable?_eq_some table).1] at made
      rw [ih later, made, List.flatMap_cons, newNames_append, List.append_assoc]

/-- A new database has an index for every name that is asked for exactly when the names differ
by more than case. -/
theorem openAll_indexes {schemas : List Schema} {made : Database}
    (done : empty.openAll schemas = (true, made)) :
    made.indexes = schemas.flatMap indexNames ↔
      ((schemas.flatMap indexNames).map Text.lower).Nodup := by
  have free : ∀ name ∈ schemas.flatMap indexNames,
      empty.indexes.any (Text.sameFolded name) = false := fun _ _ => rfl
  rw [openAll_newNames done]
  exact (newNames_eq_self_iff empty.indexes _).trans (and_iff_left free)

/-- No new database can be opened for a model with a column twice, if no other model takes its
table. -/
theorem openAll_refuses {schemas : List Schema} {schema : Schema} (known : schema ∈ schemas)
    (alone : ∀ other ∈ schemas, Text.sameFolded other.name schema.name → other = schema)
    (twice : ¬ (schema.tableColumns.map Column.name).Nodup) :
    (empty.openAll schemas).1 = false := by
  rw [← Bool.not_eq_true]
  intro opened
  obtain ⟨before, after, rfl, first⟩ := List.eq_append_cons_of_mem known
  have run : empty.openAll (before ++ schema :: after) =
      (true, (empty.openAll (before ++ schema :: after)).2) := Prod.ext opened rfl
  rw [openAll, List.flatMap_append, List.flatMap_cons] at run
  obtain ⟨between, earlier, later⟩ := runSteps_append.mp run
  obtain ⟨_, created, -⟩ := runSteps_append.mp later
  obtain ⟨next, table, -⟩ := runSteps_cons.mp created
  rcases (createTable?_eq_some table).2 with present | distinct
  · obtain ⟨found, hit⟩ := Option.isSome_iff_exists.mp present
    have held : between.MadeFor before := by
      have opening := MadeFor.openAll (@MadeFor.start before)
      rwa [openAll, earlier] at opening
    obtain ⟨model, listed, named, -⟩ := held found (List.mem_of_find?_eq_some hit)
    have shared : Text.sameFolded model.name schema.name := by
      rw [← named]
      simpa using List.find?_some hit
    exact first (alone model (List.mem_append_left _ listed) shared ▸ listed)
  · exact twice (distinct.of_map _)

end Database

/-- The names in the statements that make the tables of an accepted set of models.  A model's
columns have distinct names exactly when none of its stored fields is called like a time that it
keeps itself; where one is, and no other model takes the table, no new database can be opened for
the set.  The names of all indexes are distinct exactly when no two models share one, and a new
database that is opened has an index for each of them exactly when they differ by more than
case. -/
theorem statement_names_distinct {definitions : List Definition} {registry : Registry}
    (settled : ∀ definition ∈ definitions, definition.Settled)
    (built : Registry.build definitions = .ok registry) :
    (∀ schema ∈ registry.schemas,
      ((schema.tableColumns.map Column.name).Nodup ↔ ¬ schema.ShadowsTime) ∧
        (schema.ShadowsTime →
          (∀ other ∈ registry.schemas, Text.sameFolded other.name schema.name → other = schema) →
          (Database.empty.openAll registry.schemas).1 = false)) ∧
      ((registry.schemas.flatMap Database.indexNames).Nodup ↔
        ∀ shorter ∈ registry.schemas, ∀ longer ∈ registry.schemas,
          ¬ shorter.SharesIndexName longer) ∧
      ∀ made, Database.empty.openAll registry.schemas = (true, made) →
        (made.indexes = registry.schemas.flatMap Database.indexNames ↔
          ((registry.schemas.flatMap Database.indexNames).map Text.lower).Nodup) := by
  obtain ⟨distinct, made, -⟩ := Registry.build_eq_ok_iff.mp built
  rw [← Registry.names_of_define made] at distinct
  have named : ∀ schema ∈ registry.schemas, schema.Named := by
    intro schema known
    obtain ⟨definition, listed, defined⟩ := (Registry.mem_schemas_iff made).mp known
    exact (settled definition listed).named defined
  refine ⟨fun schema known => ⟨(named schema known).columnNames_nodup_iff, fun shadows alone => ?_⟩,
    Database.indexNames_nodup_iff distinct named, fun _ done => Database.openAll_indexes done⟩
  refine Database.openAll_refuses known alone fun nodup => ?_
  exact (named schema known).columnNames_nodup_iff.mp nodup shadows

/-- A user has an indexed name, and times that no field is called like. -/
theorem statement_names_distinct_user :
    let user : Definition := ⟨"user", .obj [("name", .obj [("type", .str "String"),
      ("index", .bool true)])], true, Hooks.none⟩
    let schema : Schema :=
      ⟨"user", [("name", .scalar .string { Traits.plain with indexed := true })], true, Hooks.none⟩
    let registry : Registry := ⟨[schema], [("user", [])]⟩
    user.Settled ∧ Registry.build [user] = .ok registry ∧
      (schema.tableColumns.map Column.name).Nodup ∧ ¬ schema.SharesIndexName schema ∧
      Database.empty.openAll registry.schemas = (true, ⟨[.empty schema], ["idx_user_name"]⟩) ∧
      registry.schemas.flatMap Database.indexNames = ["idx_user_name"] := by
  intro user schema registry
  have settled : user.Settled := by
    rintro members ⟨⟩
    decide
  have built : Registry.build [user] = .ok registry := rfl
  have unshadowed : ¬ schema.ShadowsTime := by decide
  have names : registry.schemas.flatMap Database.indexNames = ["idx_user_name"] := by rfl
  have opened : Database.empty.openAll registry.schemas =
      (true, ⟨[.empty schema], ["idx_user_name"]⟩) := by
    dsimp only [registry, schema]
    rfl
  obtain ⟨columns, indexes, run⟩ :=
    statement_names_distinct (List.forall_mem_singleton.mpr settled) built
  have known : schema ∈ registry.schemas := List.mem_singleton_self schema
  refine ⟨settled, built, (columns schema known).1.mpr unshadowed,
    indexes.mp ?_ schema known schema known, opened, ((run _ opened).mpr ?_).symm⟩
  · rw [names]
    exact List.nodup_singleton _
  · rw [names]
    exact List.nodup_singleton _

/-- A stored field that is called like a time makes a table with a column twice, which no
database is opened for.  Two models whose names go on to the same words have one name for two
indexes, and the second of them is not made. -/
theorem statement_names_shared :
    let stamped : Definition := ⟨"user", .obj [("createdAt", .str "DateTime")], true, Hooks.none⟩
    let user : Schema :=
      ⟨"user", [("createdAt", .scalar .dateTime Traits.plain)], true, Hooks.none⟩
    let text : Json := .obj [("type", .str "String"), ("index", .bool true)]
    let indexed : Field := .scalar .string { Traits.plain with indexed := true }
    let shorter : Schema := ⟨"a", [("b_c", indexed)], false, Hooks.none⟩
    let longer : Schema := ⟨"a_b", [("c", indexed)], false, Hooks.none⟩
    (Registry.build [stamped] = .ok ⟨[user], [("user", [])]⟩ ∧
      user.tableColumns.map Column.name = ["id", "createdAt", "createdAt", "updatedAt"] ∧
      ¬ (user.tableColumns.map Column.name).Nodup ∧
      (Database.empty.openAll [user]).1 = false) ∧
    Registry.build [⟨"a", .obj [("b_c", text)], false, Hooks.none⟩,
        ⟨"a_b", .obj [("c", text)], false, Hooks.none⟩] =
      .ok ⟨[shorter, longer], [("a", []), ("a_b", [])]⟩ ∧
      [shorter, longer].flatMap Database.indexNames = ["idx_a_b_c", "idx_a_b_c"] ∧
      ¬ ([shorter, longer].flatMap Database.indexNames).Nodup ∧
      Database.empty.openAll [shorter, longer] =
        (true, ⟨[.empty shorter, .empty longer], ["idx_a_b_c"]⟩) := by
  refine ⟨⟨rfl, rfl, ?twice, by decide +kernel⟩, rfl, rfl, ?shared, rfl⟩
  case twice =>
    change ¬ ["id", "createdAt", "createdAt", "updatedAt"].Nodup
    decide
  case shared =>
    change ¬ ["idx_a_b_c", "idx_a_b_c"].Nodup
    decide

end RecordStore
