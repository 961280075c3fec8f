/-
Module: RecordStore.Proofs.Document.Relations
Purpose: The two sides of a relation between the records of a document store.  The side that
  holds keys looks its keys up among the ids and puts what is found in the order of the keys; the
  other side asks for the records whose field is its id or a list with it.  Both come down to one
  question, whether the id of the one record is among the keys that the other holds.
Main exports: Tree.Reads, Tree.ReadAs, accepts_eq_text_iff, accepts_oneOf_iff, mem_ownedRecords,
  mem_referringRecords, relation_sides_agree
-/
import RecordStore.Proofs.Schema.Names
import RecordStore.Proofs.Store.Decidable
import RecordStore.Proofs.Store.KeyOrder
import RecordStore.Proofs.Store.Populating
import RecordStore.Proofs.Store.StoredFields

namespace RecordStore

/-- Of all texts a record has only its id for its key. -/
theorem Object.hasKey_text_iff {record : Object} {id key : String}
    (found : record.get? idField = some (.str id)) : record.hasKey (.str key) ↔ id = key := by
  simp [hasKey, found, Json.looselyEqual, Json.same, Json.looseText]

namespace Document

open RecordStore.Action (perform_bind_ok)

/-! ### What a tree is read as -/

/-- Every entry of a tree is read, as a record with the key that the entry stands under. -/
def Tree.Reads (tree : Tree) (records : List Object) : Prop :=
  List.Forall₂ (fun entry record => readRecord entry.2 = .ok record ∧
    recordKey? record = some entry.1) tree records

namespace Tree.Reads

variable {tree : Tree} {records : List Object} (given : tree.Reads records)
include given

theorem readAll : Document.readAll tree = .ok records :=
  mapM_eq_ok_iff.mpr (map_eq_map_iff_forall₂.mpr (given.imp fun _ _ => And.left))

/-- Records of one key are one record. -/
theorem eq_of_key (ordered : tree.Ordered) {record other : Object} (here : record ∈ records)
    (there : other ∈ records) (same : recordKey? record = recordKey? other) : record = other := by
  have keys : tree.map (fun entry => some entry.1) = records.map recordKey? :=
    map_eq_map_iff_forall₂.mpr (given.imp fun _ _ read => read.2.symm)
  have distinct : (records.map recordKey?).Nodup := by
    have texts := ordered.nodup_keys.map (Option.some_injective String)
    rw [List.map_map] at texts
    exact keys ▸ texts
  exact List.inj_on_of_nodup_map distinct here there same

end Tree.Reads

/-- Every entry of a tree is read, as a record whose id is the text that the entry stands
under. -/
def Tree.ReadAs (tree : Tree) (records : List Object) : Prop :=
  List.Forall₂ (fun entry record => readRecord entry.2 = .ok record ∧
    record.get? idField = some (.str entry.1)) tree records

namespace Tree.ReadAs

variable {tree : Tree} {records : List Object} (given : tree.ReadAs records)
include given

theorem reads : tree.Reads records :=
  given.imp fun _ _ read => ⟨read.1, by rw [recordKey?, read.2]; rfl⟩

theorem readAll : Document.readAll tree = .ok records := given.reads.readAll

theorem exists_id {record : Object} (member : record ∈ records) :
    ∃ id, record.get? idField = some (.str id) :=
  @forall_of_forall₂ _ _ _ (fun record : Object => ∃ id, record.get? idField = some (.str id))
    (fun entry _ read => ⟨entry.1, read.2⟩) _ _ given record member

/-- Records of one id are one record. -/
theorem eq_of_id (ordered : tree.Ordered) {record other : Object} (here : record ∈ records)
    (there : other ∈ records) (same : record.get? idField = other.get? idField) :
    record = other :=
  given.reads.eq_of_key ordered here there (by rw [recordKey?, recordKey?, same])

end Tree.ReadAs

/-! ### The two ways of matching -/

theorem equal_text_iff {value : Json} {text : String} :
    equal value (.str text) ↔ value = .str text := by
  cases value <;> simp [equal, Json.same]

/-- A stored value equals a text, or is a list with it, when the text is among the keys that
the value holds. -/
theorem accepts_eq_text_iff {stored : Option Json} {text : String} :
    (Matcher.eq (.str text)).accepts stored ↔ .str text ∈ relatedKeys stored := by
  cases stored with
  | none => simp [Matcher.accepts, relatedKeys]
  | some value =>
      cases value with
      | arr items => simp [Matcher.accepts, relatedKeys, containsEqual, equal_text_iff, Json.isArr]
      | str own => simpa [Matcher.accepts, relatedKeys, containsEqual, equal_text_iff] using eq_comm
      | _ => simp [Matcher.accepts, relatedKeys, containsEqual, equal_text_iff]

/-- A text is one of several keys when it is among them as it is. -/
theorem accepts_oneOf_iff {text : String} {keys : List Json} :
    (Matcher.oneOf keys).accepts (some (.str text)) ↔ .str text ∈ keys := by
  have alone (key : Json) : containsEqual (.str text) key ↔ key = .str text := by
    cases key with
    | str other => simpa [containsEqual, equal, Json.same] using eq_comm
    | _ => simp [containsEqual, equal, Json.same]
  simp [Matcher.accepts, alone]

/-! ### What each side resolves to -/

/-- The records that a query of one test finds, as a model shows them. -/
def shownRecords (model : Schema) (name : String) (matcher : Matcher) (records : List Object) :
    List Object :=
  ((⟨[⟨FieldPath.field name, matcher⟩], [], none, none⟩ : Query).run records).map
    (·.project (model.columnsFor .select))

/-- The records that the side which holds keys resolves to. -/
def ownedRecords (model : Schema) (records : List Object) (keys : List Json) : List Object :=
  inKeyOrder (shownRecords model idField (.oneOf keys) records) keys

/-- The records that the other side of an id resolves to. -/
def referringRecords (model : Schema) (back : String) (records : List Object) (id : String) :
    List Object :=
  shownRecords model back (.eq (.str id)) records

theorem mem_shownRecords {model : Schema} {name : String} {matcher : Matcher}
    {records : List Object} {shown : Object} :
    shown ∈ shownRecords model name matcher records ↔ ∃ record ∈ records,
      matcher.accepts (record.get? name) ∧ record.project (model.columnsFor .select) = shown := by
  simp only [shownRecords, List.mem_map, mem_run_single, and_assoc]

section Sides

variable {tree : Tree} {records : List Object} (given : tree.ReadAs records)
variable (model : Schema) {record : Object} (member : record ∈ records)
include given member

/-- A record is resolved on the side that holds keys when its id is one of them. -/
theorem mem_ownedRecords {id : String} (found : record.get? idField = some (.str id))
    (ordered : tree.Ordered) (keys : List Json) :
    record.project (model.columnsFor .select) ∈ ownedRecords model records keys ↔
      .str id ∈ keys := by
  constructor
  · intro owned
    obtain ⟨other, -, accepted, same⟩ := mem_shownRecords.mp (mem_of_mem_inKeyOrder owned)
    have id_eq : other.get? idField = some (.str id) := by
      rw [← model.id_of_shown, same, model.id_of_shown, found]
    rw [id_eq] at accepted
    exact accepts_oneOf_iff.mp accepted
  · intro listed
    have shown : (record.project (model.columnsFor .select)).get? idField = some (.str id) :=
      (model.id_of_shown record).trans found
    refine mem_inKeyOrder (mem_shownRecords.mpr ⟨record, member, ?_, rfl⟩)
      ((Object.hasKey_text_iff shown).mpr rfl) ?_ listed
    · rw [found]
      exact accepts_oneOf_iff.mpr listed
    · intro other there keyed
      obtain ⟨source, inside, -, rfl⟩ := mem_shownRecords.mp there
      obtain ⟨key, named⟩ := given.exists_id inside
      have same := (Object.hasKey_text_iff ((model.id_of_shown source).trans named)).mp keyed
      rw [given.eq_of_id ordered inside member (by rw [named, same, found])]

/-- A record is resolved on the other side of an id when the id is one of its keys. -/
theorem mem_referringRecords (ordered : tree.Ordered) (back id : String) :
    record.project (model.columnsFor .select) ∈ referringRecords model back records id ↔
      .str id ∈ relatedKeys (record.get? back) := by
  rw [referringRecords, mem_shownRecords, ← accepts_eq_text_iff]
  constructor
  · rintro ⟨other, inside, accepted, same⟩
    have ids : other.get? idField = record.get? idField := by
      rw [← model.id_of_shown, same, model.id_of_shown]
    rw [← given.eq_of_id ordered inside member ids]
    exact accepted
  · exact fun accepted => ⟨record, member, accepted, rfl⟩

end Sides

section Resolve

variable {setting : Setting} {session : Session Trees} {target : String} {model : Schema}
variable {records : List Object} (known : setting.registry.get target = .ok model)
variable (read : readAll (session.data.tree target) = .ok records)
include known read

/-- The related records of a condition with one test. -/
theorem perform_related {name : String} {value : Json} {test : Test} {matcher : Matcher}
    (plain : PathGrammar.IsName name.toList)
    (free : name ∉ [indexKey, orderKey, offsetKey, limitKey, scopeKey])
    (tested : Test.ofValue name value = .ok test) (matched : Matcher.ofTest test = .ok matcher) :
    (backend.related target [(name, value)]).perform setting session =
      (.ok (shownRecords model name matcher records),
        { session with readings := session.readings + 1 }) := by
  have planned : (Backend.plan model (some [(name, value)]) SelectOptions.plain :
      Action Trees Plan).perform setting session =
        (.ok (Plan.testing SelectOptions.plain name test), session) :=
    Backend.perform_plan_eq_ok.mpr ⟨rfl, Plan.ofCondition_single plain free tested _, rfl⟩
  have scanned := @perform_find_scan setting session model
    (Plan.testing SelectOptions.plain name test) _ rfl (compile_testing _ name matched _)
  rw [Action.name_of_get known, read] at scanned
  unfold Backend.related
  rw [perform_bind_ok _ _ ((Action.perform_schema_eq_ok setting session).mpr ⟨known, rfl⟩),
    perform_bind_ok _ _ planned, show backend.find = find from rfl, perform_bind_ok _ _ scanned]
  rfl

/-- The keys are looked up among the ids. -/
theorem perform_related_keys (keys : List Json) :
    (backend.related target (Condition.idsIn keys)).perform setting session =
      (.ok (shownRecords model idField (.oneOf keys) records),
        { session with readings := session.readings + 1 }) := by
  have tested : Test.ofValue idField (.arr [.str Operator.oneOf.text, .arr keys]) =
      .ok (.oneOf keys) := rfl
  exact perform_related known read (by simp [PathGrammar.IsName, idField]) (by decide) tested rfl

/-- The side that holds keys looks them up among the ids. -/
theorem perform_resolve_owning (field : String) (record : Object) :
    ∃ last, (backend.resolve ⟨field, target, true, .owning⟩ record).perform setting session =
      (.ok (.arr ((ownedRecords model records (relatedKeys (record.get? field))).map .obj)),
        last) :=
  Backend.perform_resolve_keys rfl record fun _ => ⟨_, perform_related_keys known read _⟩

/-- The other side asks for the records that hold its id. -/
theorem perform_resolve_referenced (field : String) {back : String}
    (plain : PathGrammar.IsName back.toList)
    (free : back ∉ [indexKey, orderKey, offsetKey, limitKey, scopeKey]) {record : Object}
    {id : String} (found : record.get? idField = some (.str id)) :
    ∃ last, (backend.resolve ⟨field, target, true, .referenced back⟩ record).perform setting
      session = (.ok (.arr ((referringRecords model back records id).map .obj)), last) := by
  have related := @perform_related setting session target model records known read back (.str id)
    (.eq (.str id)) (.eq (.str id)) plain free rfl rfl
  unfold Backend.resolve
  simp only [found]
  exact ⟨_, (perform_bind_ok _ _ related _).trans rfl⟩

variable {schema field : String}
variable (distinct : ((setting.registry.relationsOf schema).map Relation.field).Nodup)
include distinct

/-- The side that holds keys is populated with the records of the keys. -/
theorem populates_owned
    (owning : ⟨field, target, true, .owning⟩ ∈ setting.registry.relationsOf schema)
    (record : Object) :
    backend.Populates setting session schema field record
      (ownedRecords model records (relatedKeys (record.get? field))) := by
  refine Backend.populates_of_resolve find_readsOnly distinct owning ?_
  intro between agrees start same
  rw [← agrees field (.inl rfl)]
  exact perform_resolve_owning known (same ▸ read) field between

/-- The other side is populated with the records that hold the id. -/
theorem populates_referring {back : String}
    (referenced : ⟨field, target, true, .referenced back⟩ ∈ setting.registry.relationsOf schema)
    (keyless : idField ∉ (setting.registry.relationsOf schema).map Relation.field)
    (plain : PathGrammar.IsName back.toList)
    (free : back ∉ [indexKey, orderKey, offsetKey, limitKey, scopeKey]) {record : Object}
    {id : String} (found : record.get? idField = some (.str id)) :
    backend.Populates setting session schema field record
      (referringRecords model back records id) := by
  refine Backend.populates_of_resolve find_readsOnly distinct referenced ?_
  intro between agrees start same
  have keyed : between.get? idField = some (.str id) := (agrees idField (.inr keyless)).trans found
  exact perform_resolve_referenced known (same ▸ read) field plain free keyed

end Resolve

/-- Both sides of a relation tell the same story: of any two records of its models, populating
the field that holds keys shows the one exactly when populating the field on the other side shows
the other, whatever the first has in its field: nothing, a single key, a key twice, keys of other
kinds, keys of no record.  What decides it is whether the id is among the keys as it is.  This is
for models whose records can all be read, under ids that are texts. -/
theorem relation_sides_agree {definitions : List Definition} {setting : Setting}
    (built : Registry.build definitions = .ok setting.registry)
    (settled : ∀ definition ∈ definitions, definition.Settled) {session : Session Trees}
    (reached : Reached setting.registry session) {owner target field back : String}
    (owning : ⟨field, target, true, .owning⟩ ∈ setting.registry.relationsOf owner)
    (referenced : ⟨back, owner, true, .referenced field⟩ ∈ setting.registry.relationsOf target)
    (plain : PathGrammar.IsName field.toList)
    (free : field ∉ [indexKey, orderKey, offsetKey, limitKey, scopeKey])
    {owners targets : List Object} (ownersRead : (session.data.tree owner).ReadAs owners)
    (targetsRead : (session.data.tree target).ReadAs targets) :
    ∃ ownerModel targetModel, setting.registry.get owner = .ok ownerModel ∧
      setting.registry.get target = .ok targetModel ∧
      ∀ holder ∈ owners, ∀ held ∈ targets, ∃ owned referring,
        backend.Populates setting session owner field holder owned ∧
        backend.Populates setting session target back held referring ∧
        (held.project (targetModel.columnsFor .select) ∈ owned ↔
          holder.project (ownerModel.columnsFor .select) ∈ referring) ∧
        (held.project (targetModel.columnsFor .select) ∈ owned ↔
          ∃ key ∈ relatedKeys (holder.get? field), held.get? idField = some key) := by
  obtain ⟨⟨ownerModel, ownerKnown⟩, ownerNames, -⟩ :=
    Registry.relationNames_of_build built settled owning
  obtain ⟨⟨targetModel, targetKnown⟩, targetNames, keyless⟩ :=
    Registry.relationNames_of_build built settled referenced
  have ownerOrdered := (trees_keyed reached owner).ordered
  have targetOrdered := (trees_keyed reached target).ordered
  refine ⟨ownerModel, targetModel, ownerKnown, targetKnown, fun holder here held there => ?_⟩
  obtain ⟨id, found⟩ := targetsRead.exists_id there
  have owned := mem_ownedRecords targetsRead targetModel there found targetOrdered
    (relatedKeys (holder.get? field))
  have referring := mem_referringRecords ownersRead ownerModel here ownerOrdered field id
  refine ⟨_, _, populates_owned targetKnown targetsRead.readAll ownerNames owning holder,
    populates_referring ownerKnown ownersRead.readAll targetNames referenced keyless plain free
      found, owned.trans referring.symm, ?_⟩
  rw [owned, found]
  simp

/-- A user who holds the key of one organ twice, and that of another as a number: the first is
shown on both sides, the other on neither. -/
theorem relation_sides_agree_organs :
    let user : Definition := ⟨"user", .obj [("organs", .arr [.obj
      [("type", .str "Id"), ("ref", .str "organ")]])], false, Hooks.none⟩
    let organ : Definition := ⟨"organ", .obj [("users", .arr [.obj
      [("type", .str "Id"), ("ref", .str "user"), ("belong", .bool false)]])], false, Hooks.none⟩
    let organs : Field := .scalar .id { Traits.plain with target := some "organ", isList := true }
    let users : Field :=
      .scalar .id { Traits.plain with target := some "user", isList := true, belongs := some false }
    let registry : Registry := ⟨[⟨"user", [("organs", organs)], false, Hooks.none⟩,
        ⟨"organ", [("users", users)], false, Hooks.none⟩],
      [("user", [⟨"organs", "organ", true, .owning⟩]),
        ("organ", [⟨"users", "user", true, .referenced "organs"⟩])]⟩
    let setting := Setting.still registry
    let frank : Object := [("id", .str "f"), ("organs", .arr [.str "1", .int 2, .str "1"])]
    let heart : Object := [("id", .str "1")]
    let lung : Object := [("id", .str "2")]
    let create (schema : String) (values : Object) (session : Session Trees) : Session Trees :=
      (((Call.create schema values).run backend).perform setting session).2
    let session := create "user" frank (create "organ" lung (create "organ" heart
      (Session.start [])))
    Registry.build [user, organ] = .ok registry ∧ Reached registry session ∧
      session.data = [("organ", [("1", Json.text (.obj heart)), ("2", Json.text (.obj lung))]),
        ("user", [("f", Json.text (.obj frank))])] ∧
      (∃ owned referring, backend.Populates setting session "user" "organs" frank owned ∧
        backend.Populates setting session "organ" "users" heart referring ∧
        heart ∈ owned ∧ frank ∈ referring) ∧
      ∃ owned referring, backend.Populates setting session "user" "organs" frank owned ∧
        backend.Populates setting session "organ" "users" lung referring ∧
        lung ∉ owned ∧ frank ∉ referring := by
  intro user organ organs users registry setting frank heart lung create session
  have built : Registry.build [user, organ] = .ok setting.registry := rfl
  have settled : ∀ definition ∈ [user, organ], definition.Settled := by
    intro definition listed
    rcases List.mem_cons.mp listed with rfl | listed
    · rintro members ⟨⟩
      decide
    · obtain rfl := List.mem_singleton.mp listed
      rintro members ⟨⟩
      decide
  have reached : Reached setting.registry session :=
    .call (.call (.call .fresh (.create "organ" heart) setting rfl) (.create "organ" lung) setting
      rfl) (.create "user" frank) setting rfl
  have data : session.data = [("organ", [("1", Json.text (.obj heart)),
      ("2", Json.text (.obj lung))]), ("user", [("f", Json.text (.obj frank))])] := by
    decide +kernel
  have owners : (session.data.tree "user").ReadAs [frank] := by
    rw [data]
    exact .cons ⟨by decide +kernel, rfl⟩ .nil
  have targets : (session.data.tree "organ").ReadAs [heart, lung] := by
    rw [data]
    exact .cons ⟨by decide +kernel, rfl⟩ (.cons ⟨by decide +kernel, rfl⟩ .nil)
  obtain ⟨_, _, ⟨⟩, ⟨⟩, agree⟩ := relation_sides_agree built settled reached
    List.mem_cons_self List.mem_cons_self (by simp [PathGrammar.IsName]) (by decide) owners targets
  refine ⟨built, reached, data, ?_, ?_⟩
  · obtain ⟨owned, referring, shown, shown', sides, decided⟩ := agree frank List.mem_cons_self
      heart List.mem_cons_self
    have listed : heart ∈ owned := decided.mpr ⟨.str "1", List.mem_cons_self, rfl⟩
    exact ⟨owned, referring, shown, shown', listed, sides.mp listed⟩
  · obtain ⟨owned, referring, shown, shown', sides, decided⟩ := agree frank List.mem_cons_self
      lung (List.mem_cons_of_mem _ List.mem_cons_self)
    have absent : lung ∉ owned := fun listed => by
      obtain ⟨key, held, named⟩ := decided.mp listed
      cases named
      simp [frank, relatedKeys, Object.get?, Json.int] at held
    exact ⟨owned, referring, shown, shown', absent, fun refers => absent (sides.mpr refers)⟩

end Document

end RecordStore
