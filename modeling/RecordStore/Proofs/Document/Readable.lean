/-
Module: RecordStore.Proofs.Document.Readable
Purpose: What a document store can read of what it accepted.  Writing a text knows no bound
  of nesting, reading one does.  A record that nests too deeply is stored and acknowledged
  all the same; from then on neither its key nor any scan of its model finds anything but an
  error, while the other records stay readable under their keys.
Main exports: Readable, Persists, saveOne_nests, persisted_selected, persisted_unreadable
-/
import RecordStore.Proofs.Document.Creating
import RecordStore.Proofs.Document.Matching
import RecordStore.Proofs.Document.Saving
import RecordStore.Proofs.Path.Nesting
import RecordStore.Proofs.Store.Decidable

namespace RecordStore.Document

open RecordStore.Action (perform_bind_ok)
open RecordStore.Json (depth)

/-! ### Reading texts -/

/-- A record that nests at most 127 arrays and objects, itself counted; this is what is read. -/
def Readable (record : Object) : Prop := depth (.obj record) ≤ 127

instance (record : Object) : Decidable (Readable record) :=
  inferInstanceAs (Decidable (depth (.obj record) ≤ 127))

/-- A stored record is read as it was written, or refused for its nesting. -/
theorem readRecord_text {record : Object} (sound : (Json.obj record).Sound) :
    readRecord (Json.text (.obj record)) =
      if Readable record then .ok record else .error (.serialization .unreadable) := by
  unfold readRecord
  rw [Json.parse?_text sound]
  by_cases shallow : Readable record
  · rw [if_pos shallow, if_pos (show depth (.obj record) ≤ 127 from shallow)]
  · rw [if_neg shallow, if_neg (show ¬ depth (.obj record) ≤ 127 from shallow)]

/-- A scan answers every record, or fails for a single one that nests too deeply. -/
theorem readAll_of_sound {tree : Tree} {records : List Object} (holds : tree.Holds records)
    (sound : ∀ record ∈ records, (Json.obj record).Sound) :
    readAll tree = if ∀ record ∈ records, Readable record then .ok records
      else .error (.serialization .unreadable) := by
  unfold readAll
  induction holds with
  | nil => rfl
  | @cons entry record rest others written later ih =>
      obtain ⟨id, -, -, text⟩ := written
      have tail := ih fun other member => sound other (List.mem_cons_of_mem _ member)
      rw [List.mapM_cons, ← text, readRecord_text (sound record List.mem_cons_self), tail]
      simp only [List.forall_mem_cons]
      by_cases first : Readable record
      · rw [if_pos first]
        simp only [first, true_and]
        split_ifs <;> rfl
      · rw [if_neg first]
        simp only [first, false_and, if_false]
        rfl

namespace Query

/-- Without sort keys records keep their order. -/
theorem sort_unordered {query : Query} (unordered : query.order = []) (records : List Object) :
    query.sort records = records := by
  have stacked : ∀ sorted : List Object, records.foldl (fun sorted record => insertLast
      (fun left right => compareRecords query.order left right == .lt) record sorted) sorted =
        records.reverse ++ sorted := by
    induction records with
    | nil => exact fun _ => rfl
    | cons record rest ih =>
        intro sorted
        have put : insertLast (fun left right => compareRecords query.order left right == .lt)
            record sorted = record :: sorted := by
          cases sorted <;> simp [insertLast, unordered, compareRecords]
        rw [List.foldl_cons, put, ih, List.reverse_cons, List.append_assoc]
        rfl
  unfold sort
  dsimp only
  rw [stacked, List.append_nil, List.reverse_reverse]

/-- A query that asks for nothing in particular answers every record. -/
theorem run_everything (records : List Object) :
    (⟨[], [], none, none⟩ : Query).run records = records := by
  have all : records.filter (⟨[], [], none, none⟩ : Query).accepts = records :=
    List.filter_eq_self.mpr fun _ _ => rfl
  unfold run
  rw [all, sort_unordered rfl]
  rfl

end Query

/-! ### Selecting -/

section Select

variable {setting : Setting} {session : Session Trees} {schema : String} {model : Schema}
variable (known : setting.registry.get schema = .ok model)
include known

/-- A select without a condition shows what a scan reads. -/
theorem perform_select_all (columns : Option (List String)) :
    (backend.select schema none ⟨columns, .none⟩).perform setting session =
      ((readAll (session.data.tree schema)).map fun records =>
          .many (records.map (·.project (columns.getD (model.columnsFor .select)))),
        { session with readings := session.readings + 1 }) := by
  let plan := (Plan.everything SelectOptions.plain).asking ⟨columns, .none⟩
  have compiled : Query.compile plan (setting.clock session.readings) =
      .ok ⟨[], [], none, none⟩ := rfl
  have scanned := @perform_find_scan setting session model plan _ rfl compiled
  rw [Action.name_of_get known] at scanned
  rw [Backend.perform_select_excluded known rfl rfl, show backend.find = find from rfl, scanned]
  cases readAll (session.data.tree schema) with
  | error error => rfl
  | ok records =>
      simp only [Except.map, Query.run_everything]
      rfl

end Select

section Held

variable {setting : Setting} {session : Session Trees} {schema : String} {model : Schema}
variable {records : List Object} (known : setting.registry.get schema = .ok model)
variable (holds : (session.data.tree schema).Holds records)
variable (sound : ∀ record ∈ records, (Json.obj record).Sound)
include known holds sound

/-- A select without a condition answers all records, if none nests too deeply. -/
theorem select_all_of_sound (columns : Option (List String)) :
    (backend.select schema none ⟨columns, .none⟩).perform setting session =
      (if ∀ record ∈ records, Readable record then
          .ok (.many (records.map (·.project (columns.getD (model.columnsFor .select)))))
        else .error (.serialization .unreadable),
        { session with readings := session.readings + 1 }) := by
  rw [perform_select_all known, readAll_of_sound holds sound]
  split_ifs <;> rfl

/-- A select by the key of a record answers the record, unless it nests too deeply. -/
theorem select_key_of_sound (ordered : (session.data.tree schema).Ordered) {record : Object}
    (member : record ∈ records) {id key : Json} (found : record.get? idField = some id)
    (text : key.looseText = id.looseText) {condition : Condition}
    (indexed : Plan.indexOf? condition = some key) (columns : Option (List String)) :
    (backend.select schema (some condition) ⟨columns, .none⟩).perform setting session =
      (if Readable record then
          .ok (.one (some (record.project (columns.getD (model.columnsFor .select)))))
        else .error (.serialization .unreadable), session) := by
  obtain ⟨entry, inside, other, named, under, written⟩ := holds.exists_entry member
  obtain rfl : id = other := Option.some.inj (found.symm.trans named)
  have stored : (session.data.tree schema).get? (keyOf key) = some entry.2 := by
    rw [ordered.get?_eq_some_iff, show keyOf key = entry.1 from text.trans under]
    exact inside
  rw [perform_select_key known indexed, fetchRecord, stored, ← written]
  simp only [readRecord_text (sound record member)]
  split_ifs <;> rfl

end Held

/-! ### What is persisted -/

/-- A create, or a change of one record, has stored a record; the change may fail after
that, when the relation fields of its answer are resolved. -/
inductive Persists (setting : Setting) (schema : String) (session : Session Trees) :
    Object → Session Trees → Prop where
  | created {values stored : Object} {last : Session Trees}
      (done : (backend.create schema values).perform setting session = (.ok stored, last)) :
      Persists setting schema session stored last
  | changed {id : Json} {patch stored : Object} {options : SaveOptions}
      {middle last : Session Trees} {answer : Except StoreError Object}
      (written : (backend.persist schema id patch options).perform setting session =
        (.ok stored, middle))
      (done : (backend.saveOne schema id patch options).perform setting session =
        (answer, last)) :
      Persists setting schema session stored last

/-- What is persisted is put under the loose text of its id, however deep it nests. -/
theorem Persists.data_eq {setting : Setting} {schema : String} {session last : Session Trees}
    {stored : Object} (persists : Persists setting schema session stored last) :
    ∃ model id, setting.registry.get schema = .ok model ∧ stored.get? idField = some id ∧
      last.data = session.data.set schema
        ((session.data.tree schema).put (keyOf id) (Json.text (.obj stored))) := by
  cases persists with
  | @created values _ _ done =>
      cases known : setting.registry.get schema with
      | error error =>
          rw [Backend.perform_create_unknown known] at done
          cases done
      | ok model =>
          obtain ⟨other, after, id, same, found, data⟩ :=
            perform_create setting session known values
          cases same.symm.trans done
          exact ⟨model, id, rfl, found, data⟩
  | @changed _ patch _ _ middle _ _ written done =>
      obtain ⟨model, -, -, -, -, -, known, -⟩ := Backend.persist_eq_ok written
      obtain ⟨id, found, data⟩ := persist_data written
      have reads : Action.ReadsOnly (backend.populatePatched schema patch stored) :=
        fun data => Backend.populatePatched_keeps
          (fun model plan => find_readsOnly model plan data) schema patch stored
      have kept := reads.data_eq setting middle
      rw [Backend.saveOne_eq, perform_bind_ok _ _ written] at done
      rw [done] at kept
      exact ⟨model, id, known, found, kept.trans data⟩

/-- A save through names below a field without declared structure, of which nothing is stored
yet, is accepted and answered as stored, however many names there are. -/
theorem saveOne_nests {setting : Setting} {session : Session Trees} {schema root first : String}
    {rest : List String} {model : Schema} {type : FieldType} {traits : Traits} {record : Object}
    {id key : Json} (value : Json) (policy : UnknownFieldPolicy)
    (known : setting.registry.get schema = .ok model)
    (plain : model.timestamps = false ∧ model.hooks = Hooks.none)
    (unrelated : setting.registry.relationsOf schema = [])
    (declared : model.field? root = some (.scalar type traits)) (free : type.isOpaque)
    (single : traits.isList = false) (writable : Patch.isProtected model (.field root) = false)
    (named : ∀ name ∈ root :: first :: rest, PathGrammar.IsName name.toList)
    (undeclared : model.hasField (FieldPath.ofNames root (first :: rest)).raw = false)
    (fetched : fetchRecord (session.data.tree schema) id = .ok (some record))
    (keyed : record.get? idField = some key) (fresh : record.get? root = none) :
    let patch : Object := [((FieldPath.ofNames root (first :: rest)).raw, value)]
    let stored := record.insert root (value.nested (first :: rest))
    ∃ last, (backend.persist schema id patch ⟨.cover, policy⟩).perform setting session =
        (.ok stored, last) ∧
      (backend.saveOne schema id patch ⟨.cover, policy⟩).perform setting session =
        (.ok stored, last) := by
  intro patch stored
  have pair := Patch.applyPair_nests value declared free single named writable undeclared fresh
    policy
  have applied (now : String) : model.applyUpdate record patch .cover policy now =
      (.ok ⟨[(FieldPath.ofNames root (first :: rest)).raw], []⟩, stored) := by
    simp only [Schema.applyUpdate, patch, Patch.applyAll, pair, plain]
    rfl
  have other : idField ≠ root := by
    rintro rfl
    rw [fresh] at keyed
    cases keyed
  have kept : stored.get? idField = some key :=
    (Object.get?_insert_of_ne record _ other).trans keyed
  obtain ⟨last, written⟩ : ∃ last, (backend.persist schema id patch ⟨.cover, policy⟩).perform
      setting session = (.ok stored, last) := perform_persist known fetched (applied _) kept
  refine ⟨last, written, ?_⟩
  rw [Backend.saveOne_eq, perform_bind_ok _ _ written]
  refine Backend.perform_populatePatched_untouched ?_ stored
  rw [unrelated]
  exact fun ⟨_, member, _⟩ => nomatch member

/-- Whatever a create or a change of one record persists is one of the records of the tree
afterwards, and every other entry is as it was.  A select without a condition answers all
records if none of them nests too deeply, and nothing but an error for a single one that
does; a select by the key of a record answers the record unless that one nests too deeply.
This is under the assumption that the records are sound: no key occurs twice in an object,
and the text of a number is read as the number. -/
theorem persisted_selected {setting : Setting} {session last : Session Trees} {schema : String}
    {stored : Object} {records : List Object} (reached : Reached setting.registry session)
    (persists : Persists setting schema session stored last)
    (holds : (last.data.tree schema).Holds records)
    (sound : ∀ record ∈ stored :: records, (Json.obj record).Sound) :
    ∃ model id, setting.registry.get schema = .ok model ∧ stored.get? idField = some id ∧
      stored ∈ records ∧
      (∀ entry : String × String, entry.1 ≠ keyOf id →
        (entry ∈ last.data.tree schema ↔ entry ∈ session.data.tree schema)) ∧
      ∀ reader columns, reader.registry = setting.registry →
        ((backend.select schema none ⟨columns, .none⟩).perform reader last =
          (if ∀ record ∈ records, Readable record then
              .ok (.many (records.map (·.project (columns.getD (model.columnsFor .select)))))
            else .error (.serialization .unreadable),
            { last with readings := last.readings + 1 })) ∧
        ∀ record ∈ records, ∀ id condition key, record.get? idField = some id →
          Plan.indexOf? condition = some key → key.looseText = id.looseText →
          (backend.select schema (some condition) ⟨columns, .none⟩).perform reader last =
            (if Readable record then
                .ok (.one (some (record.project (columns.getD (model.columnsFor .select)))))
              else .error (.serialization .unreadable), last) := by
  obtain ⟨model, id, known, found, data⟩ := persists.data_eq
  have before := (trees_keyed reached schema).ordered
  have tree : last.data.tree schema =
      (session.data.tree schema).put (keyOf id) (Json.text (.obj stored)) := by
    rw [data, Trees.tree_set_self]
  have ordered : (last.data.tree schema).Ordered := tree ▸ before.put _ _
  have put (entry : String × String) : entry ∈ last.data.tree schema ↔
      entry = (keyOf id, Json.text (.obj stored)) ∨
        entry ∈ session.data.tree schema ∧ entry.1 ≠ keyOf id := by
    rw [tree]
    exact before.mem_put _ _ entry
  refine ⟨model, id, known, found, ?_, ?_, ?_⟩
  · obtain ⟨record, there, _, -, -, text⟩ := holds.exists_record ((put _).mpr (.inl rfl))
    have same := Json.text_injective (sound record (List.mem_cons_of_mem _ there))
      (sound stored List.mem_cons_self) text
    exact Json.obj.inj same ▸ there
  · intro entry apart
    rw [put]
    exact ⟨fun either => (either.resolve_left fun same => apart (congrArg Prod.fst same)).1,
      fun old => .inr ⟨old, apart⟩⟩
  · intro reader columns same
    have known : reader.registry.get schema = .ok model := same ▸ known
    have sound : ∀ record ∈ records, (Json.obj record).Sound :=
      fun record member => sound record (List.mem_cons_of_mem _ member)
    refine ⟨select_all_of_sound known holds sound columns, ?_⟩
    intro record member id condition key found indexed text
    exact select_key_of_sound known holds sound ordered member found text indexed columns

/-- A number two names deep is saved and read again, in a scan and by its key. -/
theorem persisted_selected_nested :
    let model : Schema := ⟨"user", [("o", .scalar .object Traits.plain)], false, Hooks.none⟩
    let setting := Setting.still ⟨[model], []⟩
    let session := (((Call.create "user" [("id", .str "u")]).run backend).perform setting
      (Session.start [])).2
    let stored : Object := [("id", .str "u"), ("o", .obj [("a", .int 1)])]
    ∃ last, (backend.saveOne "user" (.str "u") [("o.a", .int 1)] ⟨.cover, .reject⟩).perform setting
        session = (.ok stored, last) ∧
      (∃ after, (backend.select "user" none SelectOptions.plain).perform setting last =
        (.ok (.many [stored]), after)) ∧
      (backend.select "user" (some [(indexKey, .str "u")]) SelectOptions.plain).perform setting
        last = (.ok (.one (some stored)), last) := by
  intro model setting session stored
  let text := "\x7b\x22id\x22:\x22u\x22,\x22o\x22:\x7b\x22a\x22:1\x7d\x7d"
  let last : Session Trees := ⟨[("user", [("u", text)])], 2, 0, []⟩
  have written : (backend.persist "user" (.str "u") [("o.a", .int 1)] ⟨.cover, .reject⟩).perform
      setting session = (.ok stored, last) := by decide +kernel
  have done : (backend.saveOne "user" (.str "u") [("o.a", .int 1)] ⟨.cover, .reject⟩).perform
      setting session = (.ok stored, last) := by decide +kernel
  have holds : (last.data.tree "user").Holds [stored] :=
    .cons ⟨.str "u", rfl, rfl, by decide +kernel⟩ .nil
  have sound : ∀ record ∈ [stored, stored], (Json.obj record).Sound := by
    intro record member
    obtain rfl : record = stored := by simpa using member
    have one : (Json.int 1).Sound := Json.legible_int (by decide) (by decide)
    exact ⟨by decide, trivial, ⟨by decide, one, trivial⟩, trivial⟩
  have reached : Reached setting.registry session :=
    .call .fresh (.create "user" [("id", .str "u")]) setting rfl
  obtain ⟨_, id, known, found, -, -, reads⟩ :=
    persisted_selected reached (.changed written done) holds sound
  cases known
  obtain ⟨all, single⟩ := reads setting none rfl
  refine ⟨last, done, ⟨_, all⟩, ?_⟩
  exact single stored (List.mem_singleton_self stored) (.str "u") _ (.str "u") rfl rfl rfl

/-- A number 128 names deep is saved and answered as stored; the record then nests 128
objects, and it is found neither by a scan nor by its key. -/
theorem persisted_unreadable :
    let model : Schema := ⟨"user", [("o", .scalar .object Traits.plain)], false, Hooks.none⟩
    let setting := Setting.still ⟨[model], []⟩
    let session := (((Call.create "user" [("id", .str "u")]).run backend).perform setting
      (Session.start [])).2
    let path := FieldPath.ofNames "o" (List.replicate 127 "a")
    Reached setting.registry session ∧
      ∃ stored last,
        (backend.saveOne "user" (.str "u") [(path.raw, .int 1)] ⟨.cover, .reject⟩).perform setting
          session = (.ok stored, last) ∧
        Persists setting "user" session stored last ∧
        (backend.select "user" none SelectOptions.plain).perform setting last =
          (.error (.serialization .unreadable), { last with readings := last.readings + 1 }) ∧
        (backend.select "user" (some [(indexKey, .str "u")]) SelectOptions.plain).perform setting
          last = (.error (.serialization .unreadable), last) := by
  intro model setting session path
  have created : session = ⟨[("user", [("u", "\x7b\x22id\x22:\x22u\x22\x7d")])], 1, 0, []⟩ := by
    decide +kernel
  -- the names stay closed from here on, so that nothing computes on the long path
  obtain ⟨names, count, spelled⟩ : ∃ names, List.replicate 126 "a" = names ∧
      path = FieldPath.ofNames "o" ("a" :: names) := ⟨_, rfl, rfl⟩
  clear_value path
  subst spelled
  have named : ∀ name ∈ "o" :: "a" :: names, PathGrammar.IsName name.toList := by
    intro name member
    have letter : name = "o" ∨ name = "a" := by simpa [← count] using member
    rcases letter with rfl | rfl <;> simp [PathGrammar.IsName]
  have undeclared : model.hasField (FieldPath.ofNames "o" ("a" :: names)).raw = false := by
    have apart (name : String) (plain : '.' ∉ name.toList) :
        (FieldPath.ofNames "o" ("a" :: names)).raw ≠ name := FieldPath.ofNames_raw_ne plain
    simp [Schema.hasField, Schema.field?, Schema.implicitType?, Field.find?, model,
      apart idField (by decide), (apart "o" (by decide)).symm]
  have fetched : fetchRecord (session.data.tree "user") (.str "u") =
      .ok (some [("id", .str "u")]) := by
    rw [created]
    decide +kernel
  obtain ⟨last, written, done⟩ := @saveOne_nests setting session "user" "o" "a" names model
    .object Traits.plain _ _ _ (.int 1) .reject rfl ⟨rfl, rfl⟩ rfl rfl rfl rfl rfl named
    undeclared fetched rfl rfl
  let stored : Object := [("id", .str "u"), ("o", (Json.int 1).nested ("a" :: names))]
  have sound : ∀ record ∈ [stored], (Json.obj record).Sound := by
    have one : (Json.int 1).Sound := Json.legible_int (by decide) (by decide)
    have nested := Json.sound_nested one ("a" :: names)
    exact List.forall_mem_singleton.mpr
      ⟨show ["id", "o"].Nodup by decide, trivial, nested, trivial⟩
  have deep : ¬ Readable stored := by
    have nesting : depth (.obj stored) = depth ((Json.int 1).nested ("a" :: names)) + 1 := by
      simp [stored, depth, Json.depthOfMembers]
    rw [Readable, nesting, Json.depth_nested]
    simp [← count, Json.int, depth]
  have tree : last.data.tree "user" = [("u", Json.text (.obj stored))] := by
    obtain ⟨key, found, data⟩ := persist_data written
    cases found
    rw [data, created]
    rfl
  have holds : (last.data.tree "user").Holds [stored] := by
    rw [tree]
    exact .cons ⟨.str "u", rfl, rfl, rfl⟩ .nil
  have ordered : (last.data.tree "user").Ordered := by
    rw [tree]
    exact List.pairwise_singleton _ _
  have alone : stored ∈ [stored] := List.mem_singleton_self stored
  refine ⟨.call .fresh (.create "user" [("id", .str "u")]) setting rfl, stored, last, done,
    .changed written done, ?_, ?_⟩
  · have scanned := @select_all_of_sound setting last "user" model _ rfl holds sound none
    rwa [if_neg fun all => deep (all stored alone)] at scanned
  · have looked := @select_key_of_sound setting last "user" model _ rfl holds sound ordered _ alone
      (.str "u") (.str "u") rfl rfl [(indexKey, .str "u")] rfl none
    rwa [if_neg deep] at looked

end RecordStore.Document
