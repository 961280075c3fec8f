/-
Module: RecordStore.Proofs.Document.Batch
Purpose: A save that changes every record its condition finds.  One change rewrites the entry
  of its key in place, or leaves the tree alone when the patch does not apply; changes of
  different keys do not meet, so each record that is found is changed once, whatever the
  order and whatever becomes of the others.  That needs the id a stored record is read with
  to lead back to its entry, which it does not for a number that is not read as it was
  written.
Main exports: Tree.rewrite, LeadsBack, patchedEntry, saveOne_patches, Outcome,
  saveEach_patches, batch_patches
-/
import RecordStore.Proofs.Document.Matching
import RecordStore.Proofs.Document.Saving
import RecordStore.Proofs.Patch.Protection
import RecordStore.Proofs.Store.Decidable

namespace RecordStore

/-! ### Records that are read and changed -/

theorem Json.nodup_keys_settleMembers (members : List (String × Json)) {settled : Object}
    (distinct : settled.keys.Nodup) : (settleMembers members settled).keys.Nodup := by
  induction members generalizing settled with
  | nil => exact distinct
  | cons member rest ih =>
      obtain ⟨key, value⟩ := member
      exact ih (Object.nodup_keys_insert distinct key _)

/-- An update keeps the id of a record, if the hooks do. -/
theorem Schema.id_of_applyUpdate {model : Schema} {record changed patch : Object}
    {mode : UpdateMode} {policy : UnknownFieldPolicy} {now : String} {report : PatchReport}
    (hooks : ∀ record, (model.hooks.runBefore .update record).get? idField = record.get? idField)
    (distinct : record.keys.Nodup)
    (applied : model.applyUpdate record patch mode policy now = (.ok report, changed)) :
    changed.get? idField = record.get? idField := by
  obtain ⟨-, frame⟩ := Patch.applyAll_frame model mode policy distinct patch
  have kept : (Patch.applyAll model mode policy record patch).2.get? idField =
      record.get? idField :=
    Classical.byContradiction fun changed => (frame idField changed).1.2.1 rfl
  unfold applyUpdate at applied
  rcases outcome : Patch.applyAll model mode policy record patch with ⟨answer, after⟩
  rw [outcome] at applied kept
  cases answer with
  | error error => cases applied
  | ok done =>
      cases applied
      rw [hooks]
      split
      · exact (Object.get?_insert_of_ne after _ (by decide)).trans kept
      · exact kept

namespace Document

open RecordStore.Action (perform_bind perform_bind_ok perform_bind_eq_ok)

theorem nodup_keys_of_readRecord {text : String} {record : Object}
    (read : readRecord text = .ok record) : record.keys.Nodup := by
  unfold readRecord at read
  split at read
  · rename_i found parsed
    cases read
    obtain ⟨raw, -, settled⟩ := Option.map_eq_some_iff.mp parsed
    cases raw with
    | obj members =>
        cases settled
        exact Json.nodup_keys_settleMembers members List.nodup_nil
    | _ => cases settled
  · cases read

/-! ### Entries that are rewritten -/

/-- A tree with a change made to the entries of some keys. -/
def Tree.rewrite (keys : List String) (change : String × String → String × String)
    (tree : Tree) : Tree :=
  tree.map fun entry => if entry.1 ∈ keys then change entry else entry

namespace Tree

section Rewrite

variable {tree : Tree} {keys : List String} {change : String × String → String × String}

theorem rewrite_congr {keys' : List String} {change' : String × String → String × String}
    (among : ∀ key, key ∈ keys ↔ key ∈ keys')
    (same : ∀ entry ∈ tree, entry.1 ∈ keys → change entry = change' entry) :
    tree.rewrite keys change = tree.rewrite keys' change' := by
  refine List.map_congr_left fun entry inside => ?_
  by_cases member : entry.1 ∈ keys
  · rw [if_pos member, if_pos ((among _).mp member), same entry inside member]
  · rw [if_neg member, if_neg fun other => member ((among _).mpr other)]

theorem rewrite_of_unchanged (same : ∀ entry ∈ tree, entry.1 ∈ keys → change entry = entry) :
    tree.rewrite keys change = tree := by
  refine (List.map_congr_left fun entry inside => ?_).trans tree.map_id
  by_cases member : entry.1 ∈ keys
  · exact (if_pos member).trans (same entry inside member)
  · exact if_neg member

variable (keeps : ∀ entry, (change entry).1 = entry.1)
include keeps

theorem rewrite_key (entry : String × String) :
    (if entry.1 ∈ keys then change entry else entry).1 = entry.1 := by
  split
  · exact keeps entry
  · rfl

theorem Ordered.rewrite (ordered : tree.Ordered) : (tree.rewrite keys change).Ordered := by
  refine List.pairwise_map.mpr (ordered.imp fun below => ?_)
  rw [rewrite_key keeps, rewrite_key keeps]
  exact below

/-- An entry of another key stands where it stood. -/
theorem mem_of_mem_rewrite {entry : String × String} (member : entry ∈ tree.rewrite keys change)
    (apart : entry.1 ∉ keys) : entry ∈ tree := by
  obtain ⟨before, inside, rfl⟩ := List.mem_map.mp member
  rw [rewrite_key keeps] at apart
  rw [if_neg apart]
  exact inside

/-- A change of one key and then of others is one change of all of them. -/
theorem rewrite_rewrite {key : String} (fresh : key ∉ keys)
    (later : String × String → String × String) :
    (tree.rewrite [key] change).rewrite keys later =
      tree.rewrite (key :: keys) fun entry =>
        if entry.1 = key then change entry else later entry := by
  simp only [Tree.rewrite, List.map_map]
  refine List.map_congr_left fun entry _ => ?_
  by_cases here : entry.1 = key
  · have apart : (change entry).1 ∉ keys := by
      rw [keeps, here]
      exact fresh
    simp [here, apart]
  · simp [here]

end Rewrite

/-- Putting a text under a key that is there rewrites the entry of the key. -/
theorem put_eq_rewrite {tree : Tree} (ordered : tree.Ordered) {key : String}
    (present : key ∈ tree.map Prod.fst) (text : String) :
    tree.put key text = tree.rewrite [key] fun _ => (key, text) := by
  induction tree with
  | nil => cases present
  | cons first rest ih =>
      obtain ⟨above, later⟩ := List.pairwise_cons.mp ordered
      rw [put, rewrite, List.map_cons]
      split
      case h_1 order =>
          -- the key is below all that are there
          exfalso
          rcases List.mem_cons.mp present with same | member
          · exact Text.ne_of_compare_lt order same
          · obtain ⟨entry, inside, named⟩ := List.mem_map.mp member
            exact Text.ne_of_compare_lt (Std.TransCmp.lt_trans order (above entry inside))
              named.symm
      case h_2 order =>
          have same : first.1 = key := (Std.LawfulEqCmp.compare_eq_iff_eq.mp order).symm
          have others : Tree.rewrite [key] (fun _ => (key, text)) rest = rest := by
            refine rewrite_of_unchanged fun entry inside member => ?_
            exact absurd (same.trans (List.mem_singleton.mp member).symm)
              (Text.ne_of_compare_lt (above entry inside))
          rw [if_pos (List.mem_singleton.mpr same), ← rewrite, others]
      case h_3 order =>
          have other : first.1 ≠ key :=
            Text.ne_of_compare_lt (Std.OrientedCmp.gt_iff_lt.mp order)
          have inside : key ∈ rest.map Prod.fst :=
            (List.mem_cons.mp present).resolve_left (Ne.symm other)
          rw [if_neg fun member => other (List.mem_singleton.mp member), ih later inside, rewrite]

end Tree

/-- The trees of the models with that of one model replaced. -/
def Trees.Replaced (before : Trees) (schema : String) (tree : Tree) (after : Trees) : Prop :=
  after.tree schema = tree ∧ ∀ other, other ≠ schema → after.tree other = before.tree other

namespace Trees.Replaced

theorem refl (trees : Trees) (schema : String) : trees.Replaced schema (trees.tree schema) trees :=
  ⟨rfl, fun _ _ => rfl⟩

theorem set (trees : Trees) (schema : String) (tree : Tree) :
    trees.Replaced schema tree (trees.set schema tree) :=
  ⟨trees.tree_set_self schema tree, fun _ apart => trees.tree_set_of_ne apart tree⟩

theorem trans {before between after : Trees} {schema : String} {tree tree' : Tree}
    (first : before.Replaced schema tree between) (second : between.Replaced schema tree' after) :
    before.Replaced schema tree' after :=
  ⟨second.1, fun other apart => (second.2 other apart).trans (first.2 other apart)⟩

end Trees.Replaced

/-- The record an entry is read as has an id whose loose text is the key of the entry. -/
def LeadsBack (entry : String × String) : Prop :=
  ∀ record, readRecord entry.2 = .ok record → recordKey? record = some entry.1

/-- What a change of its record makes of an entry: nothing if the record cannot be read or the
patch does not apply. -/
def patchedEntry (model : Schema) (patch : Object) (options : SaveOptions) (now : Instant)
    (entry : String × String) : String × String :=
  match readRecord entry.2 with
  | .error _ => entry
  | .ok record =>
    match model.applyUpdate record patch options.mode options.policy now.text with
    | (.ok _, changed) => (entry.1, Json.text (.obj changed))
    | (.error _, _) => entry

theorem patchedEntry_key (model : Schema) (patch : Object) (options : SaveOptions)
    (now : Instant) (entry : String × String) :
    (patchedEntry model patch options now entry).1 = entry.1 := by
  unfold patchedEntry
  split
  · rfl
  · split <;> rfl

/-- The record of an entry is changed by a patch. -/
def Changes (model : Schema) (patch : Object) (options : SaveOptions) (now : Instant)
    (entry : String × String) (changed : Object) : Prop :=
  ∃ record report, readRecord entry.2 = .ok record ∧
    model.applyUpdate record patch options.mode options.policy now.text = (.ok report, changed)

theorem Changes.patchedEntry_eq {model : Schema} {patch : Object} {options : SaveOptions}
    {now : Instant} {entry : String × String} {changed : Object}
    (changes : Changes model patch options now entry changed) :
    patchedEntry model patch options now entry = (entry.1, Json.text (.obj changed)) := by
  obtain ⟨record, report, read, applied⟩ := changes
  simp only [patchedEntry, read, applied]

/-- An entry is rewritten only if its record is read and the patch applies to it. -/
theorem patchedEntry_of_unchanged {model : Schema} {patch : Object} {options : SaveOptions}
    {now : Instant} {entry : String × String}
    (fails : ∀ changed, ¬ Changes model patch options now entry changed) :
    patchedEntry model patch options now entry = entry := by
  unfold patchedEntry
  split
  · rfl
  · rename_i record read
    split
    · rename_i report changed applied
      exact absurd ⟨record, report, read, applied⟩ (fails changed)
    · rfl

/-! ### One change -/

section One

variable {setting : Setting} {session after : Session Trees} {schema : String} {model : Schema}
variable {id : Json} {patch : Object} {options : SaveOptions}
variable (known : setting.registry.get schema = .ok model)
variable (hooks : ∀ record,
  (model.hooks.runBefore .update record).get? idField = record.get? idField)
variable (ordered : (session.data.tree schema).Ordered)
variable (faithful : ∀ entry ∈ session.data.tree schema, entry.1 = keyOf id → LeadsBack entry)
include known hooks ordered faithful

/-- Where no change is stored the entry of the key is one that the patch leaves alone. -/
theorem persist_error_unchanged {error : StoreError}
    (failed : (backend.persist schema id patch options).perform setting session =
      (.error error, after)) :
    (session.data.tree schema).rewrite [keyOf id]
      (patchedEntry model patch options (setting.clock session.readings)) =
        session.data.tree schema := by
  refine Tree.rewrite_of_unchanged fun entry inside member => ?_
  refine patchedEntry_of_unchanged fun changed ⟨record, report, read, applied⟩ => ?_
  have here : entry.1 = keyOf id := List.mem_singleton.mp member
  have fetched := ordered.fetchRecord_of_mem inside here.symm read
  obtain ⟨key, found, -⟩ := Option.map_eq_some_iff.mp (faithful entry inside here record read)
  have keyed : changed.get? idField = some key :=
    (Schema.id_of_applyUpdate hooks (nodup_keys_of_readRecord read) applied).trans found
  obtain ⟨last, done⟩ := perform_persist known fetched applied keyed
  cases failed.symm.trans done

/-- A change that is stored rewrites the entry of its key and no other. -/
theorem persist_ok_changes {stored : Object}
    (done : (backend.persist schema id patch options).perform setting session =
      (.ok stored, after)) :
    (∃ entry ∈ session.data.tree schema, entry.1 = keyOf id ∧
      Changes model patch options (setting.clock session.readings) entry stored) ∧
      after.data = session.data.set schema ((session.data.tree schema).rewrite [keyOf id]
        (patchedEntry model patch options (setting.clock session.readings))) := by
  obtain ⟨other, record, between, report, changed, last, found, fetched, applied, replaced, data⟩ :=
    Backend.persist_eq_ok done
  obtain rfl : model = other := Except.ok.inj (known.symm.trans found)
  have named : model.name = schema := Action.name_of_get known
  change (fetch model id).perform setting session = _ at fetched
  rw [perform_fetch, named] at fetched
  obtain ⟨looked, rfl⟩ := Prod.mk.inj fetched
  obtain ⟨text, stands, read⟩ := fetchRecord_eq_some_iff.mp looked
  have inside : (keyOf id, text) ∈ session.data.tree schema := Tree.mem_of_get? stands
  have changes : Changes model patch options (setting.clock session.readings) (keyOf id, text)
      changed := ⟨record, report, read, applied⟩
  have key : recordKey? changed = some (keyOf id) := by
    rw [recordKey?, Schema.id_of_applyUpdate hooks (nodup_keys_of_readRecord read) applied]
    exact faithful _ inside rfl record read
  change (write model changed).perform setting _ = _ at replaced
  rcases write_cases setting { session with readings := session.readings + 1 } model changed
    with ⟨error, refused⟩ | ⟨id', keyed, written⟩
  · cases refused.symm.trans replaced
  · cases written.symm.trans replaced
    have same : keyOf id' = keyOf id := by
      simpa [recordKey?, keyed] using key
    refine ⟨⟨_, inside, rfl, changes⟩, ?_⟩
    rw [data, same, named, Tree.put_eq_rewrite ordered (List.mem_map_of_mem inside)]
    refine congrArg _ (Tree.rewrite_congr (fun _ => Iff.rfl) fun entry member here => ?_)
    have entry_eq : entry = (keyOf id, text) :=
      ordered.entry_eq member inside (List.mem_singleton.mp here)
    rw [entry_eq, changes.patchedEntry_eq]

/-- A change rewrites the entry of its key as the patch asks, also where it then fails, and no
other entry of any model.  A record that it answers is the one that it stored, outside the
relation fields. -/
theorem saveOne_patches :
    session.data.Replaced schema ((session.data.tree schema).rewrite [keyOf id]
        (patchedEntry model patch options (setting.clock session.readings)))
        ((backend.saveOne schema id patch options).perform setting session).2.data ∧
      ∀ record, ((backend.saveOne schema id patch options).perform setting session).1 =
          .ok record →
        ∃ entry ∈ session.data.tree schema, entry.1 = keyOf id ∧ ∃ changed,
          Changes model patch options (setting.clock session.readings) entry changed ∧
          Backend.AgreesOutside ((setting.registry.relationsOf schema).map Relation.field)
            changed record := by
  rw [Backend.saveOne_eq, perform_bind]
  rcases persisted : (backend.persist schema id patch options).perform setting session with
    ⟨answer, middle⟩
  cases answer with
  | error error =>
      have unchanged := persist_error_unchanged known hooks ordered faithful persisted
      rw [unchanged]
      refine ⟨?_, fun _ answered => nomatch answered⟩
      rw [persist_error_data persisted]
      exact .refl _ _
  | ok stored =>
      obtain ⟨⟨entry, inside, here, changes⟩, data⟩ :=
        persist_ok_changes known hooks ordered faithful persisted
      have reads : (backend.populatePatched schema patch stored).ReadsOnly := fun data =>
        Backend.populatePatched_keeps (fun model plan => find_readsOnly model plan data) schema
          patch stored
      refine ⟨?_, fun record answered => ⟨entry, inside, here, stored, changes, ?_⟩⟩
      · dsimp only
        rw [reads.data_eq, data]
        exact .set _ _ _
      · exact Backend.populatePatched_eq_ok (Prod.ext answered rfl)

end One

/-! ### Several changes -/

/-- What became of the change of a key. -/
abbrev Outcome := Json × Except StoreError Object

namespace Outcome

/-- The records that were answered. -/
def updated (outcomes : List Outcome) : List Object :=
  outcomes.filterMap fun outcome => outcome.2.toOption

/-- The keys whose change failed, with the errors. -/
def failed (outcomes : List Outcome) : List (Json × StoreError) :=
  outcomes.filterMap fun outcome =>
    match outcome.2 with
    | .ok _ => none
    | .error error => some (outcome.1, error)

end Outcome

/-- The changes run one after the other, each from where the one before it ended. -/
theorem perform_saveEach_cons {setting : Setting} {session last : Session Trees}
    {schema : String} {patch : Object} {options : SaveOptions} {id : Json} {rest : List Json}
    {outcomes : List Outcome}
    (done : (backend.saveEach schema patch options rest).perform setting
        ((backend.saveOne schema id patch options).perform setting session).2 =
      (.ok (Outcome.updated outcomes, Outcome.failed outcomes), last)) :
    (backend.saveEach schema patch options (id :: rest)).perform setting session =
      (.ok (Outcome.updated ((id,
          ((backend.saveOne schema id patch options).perform setting session).1) :: outcomes),
        Outcome.failed ((id,
          ((backend.saveOne schema id patch options).perform setting session).1) :: outcomes)),
        last) := by
  rw [Backend.saveEach, perform_bind_ok _ _ (Action.perform_attempt setting session _),
    perform_bind_ok _ _ done]
  cases answer : ((backend.saveOne schema id patch options).perform setting session).1 <;>
    simp [Outcome.updated, Outcome.failed, Except.toOption]

/-- Several changes of different keys each go their way: one outcome for each key, and in the
tree each entry of the keys as the patch makes it of what stood there before, at some reading
of the clock, whatever becomes of the others. -/
theorem saveEach_patches {setting : Setting} {session : Session Trees} {schema : String}
    {model : Schema} {patch : Object} {options : SaveOptions} {ids : List Json}
    (known : setting.registry.get schema = .ok model)
    (hooks : ∀ record,
      (model.hooks.runBefore .update record).get? idField = record.get? idField)
    (ordered : (session.data.tree schema).Ordered) (distinct : (ids.map keyOf).Nodup)
    (faithful : ∀ entry ∈ session.data.tree schema, entry.1 ∈ ids.map keyOf → LeadsBack entry) :
    ∃ (outcomes : List Outcome) (last : Session Trees) (stamp : String → Nat),
      (backend.saveEach schema patch options ids).perform setting session =
        (.ok (Outcome.updated outcomes, Outcome.failed outcomes), last) ∧
      outcomes.map Prod.fst = ids ∧
      session.data.Replaced schema ((session.data.tree schema).rewrite (ids.map keyOf)
        fun entry => patchedEntry model patch options (setting.clock (stamp entry.1)) entry)
        last.data ∧
      ∀ id record, (id, .ok record) ∈ outcomes →
        ∃ entry ∈ session.data.tree schema, entry.1 = keyOf id ∧ ∃ changed,
          Changes model patch options (setting.clock (stamp entry.1)) entry changed ∧
          Backend.AgreesOutside ((setting.registry.relationsOf schema).map Relation.field)
            changed record := by
  induction ids generalizing session with
  | nil =>
      refine ⟨[], session, fun _ => 0, rfl, rfl, ?_, nofun⟩
      rw [List.map_nil, Tree.rewrite_of_unchanged fun _ _ member => absurd member List.not_mem_nil]
      exact .refl _ _
  | cons id rest ih =>
      obtain ⟨fresh, others⟩ := List.nodup_cons.mp distinct
      obtain ⟨first, answers⟩ := @saveOne_patches setting session schema model id patch options
        known hooks ordered fun entry inside here =>
          faithful entry inside (here ▸ List.mem_cons_self)
      have keeps := patchedEntry_key model patch options (setting.clock session.readings)
      rcases answered : (backend.saveOne schema id patch options).perform setting session with
        ⟨answer, middle⟩
      rw [answered] at first answers
      have apart {key : String} (member : key ∈ rest.map keyOf) : key ≠ keyOf id :=
        fun same => fresh (same ▸ member)
      have untouched {entry : String × String} (inside : entry ∈ middle.data.tree schema)
          (member : entry.1 ∈ rest.map keyOf) : entry ∈ session.data.tree schema := by
        rw [first.1] at inside
        exact Tree.mem_of_mem_rewrite keeps inside fun here =>
          apart member (List.mem_singleton.mp here)
      have orderedAfter : (middle.data.tree schema).Ordered := first.1 ▸ ordered.rewrite keeps
      obtain ⟨outcomes, last, stamp, done, named, replaced, each⟩ := ih orderedAfter others
        fun entry inside member =>
          faithful entry (untouched inside member) (List.mem_cons_of_mem _ member)
      have run := @perform_saveEach_cons setting session last schema patch options id rest outcomes
        (by rw [answered]; exact done)
      rw [answered] at run
      refine ⟨(id, answer) :: outcomes, last, Function.update stamp (keyOf id) session.readings,
        run, congrArg _ named, ?_, ?_⟩
      · have whole := first.trans replaced
        rw [first.1, Tree.rewrite_rewrite keeps fresh] at whole
        refine ⟨whole.1.trans (Tree.rewrite_congr (fun _ => Iff.rfl) fun entry _ _ => ?_), whole.2⟩
        by_cases here : entry.1 = keyOf id
        · rw [if_pos here, here, Function.update_self]
        · rw [if_neg here, Function.update_of_ne here]
      · intro other record member
        rcases List.mem_cons.mp member with same | member
        · obtain ⟨rfl, rfl⟩ := Prod.mk.inj same
          obtain ⟨entry, inside, here, changes⟩ := answers record rfl
          refine ⟨entry, inside, here, ?_⟩
          rw [here, Function.update_self]
          exact changes
        · obtain ⟨entry, inside, here, changes⟩ := each other record member
          have among : entry.1 ∈ rest.map keyOf := by
            rw [here, ← named, List.map_map]
            exact List.mem_map_of_mem member
          refine ⟨entry, untouched inside among, here, ?_⟩
          rw [Function.update_of_ne (apart among)]
          exact changes

/-! ### What is selected -/

/-- Where each item has an answer none is left out. -/
theorem map_eq_map_some {α β : Type} {read : α → Option β} {items : List α}
    (each : ∀ item ∈ items, (read item).isSome) :
    items.map read = (items.filterMap read).map some := by
  induction items with
  | nil => rfl
  | cons item rest ih =>
      obtain ⟨answer, given⟩ := Option.isSome_iff_exists.mp (each item List.mem_cons_self)
      rw [List.map_cons, List.filterMap_cons_some given, List.map_cons, given,
        ih fun other member => each other (List.mem_cons_of_mem _ member)]

section Selected

variable {tree : Tree} (faithful : ∀ entry ∈ tree, LeadsBack entry)
include faithful

/-- The records that are read have the keys of the entries, one by one. -/
theorem keys_of_readAll {records : List Object} (read : readAll tree = .ok records) :
    records.map recordKey? = (tree.map Prod.fst).map some := by
  have each : List.Forall₂ (fun entry record => readRecord entry.2 = .ok record) tree records :=
    forall₂_of_mapM read
  clear read
  induction each with
  | nil => rfl
  | cons first _ ih =>
      rw [List.map_cons, faithful _ List.mem_cons_self _ first,
        ih fun entry inside => faithful entry (List.mem_cons_of_mem _ inside)]
      rfl

/-- Each record that is found among those that are read has an id, and the texts of the ids are
keys of different entries. -/
theorem ids_of_found {records found : List Object} (read : readAll tree = .ok records)
    (picked : found.Subperm records) :
    ∃ ids, found.filterMap (·.get? idField) = ids ∧ found.map (·.get? idField) = ids.map some ∧
      (ids.map keyOf).Subperm (tree.map Prod.fst) := by
  obtain ⟨keyed, fewer⟩ := Tree.keys_found (keys_of_readAll faithful read) picked
  have given : ∀ record ∈ found, (record.get? idField).isSome := fun record member => by
    simpa [recordKey?] using keyed record member
  have texts : (found.filterMap (·.get? idField)).map keyOf = found.filterMap recordKey? :=
    List.map_filterMap
  exact ⟨_, rfl, map_eq_map_some given, texts ▸ fewer⟩

end Selected

/-- A select without a key to look up shows what a query finds among the records of the tree,
and a batch goes by the ids of these. -/
theorem select_eq_found {setting : Setting} {session between : Session Trees} {schema : String}
    {model : Schema} {condition : Condition} {asked : SelectOptions} {selection : Selection}
    (known : setting.registry.get schema = .ok model)
    (unindexed : Plan.indexOf? condition = none)
    (selected : (backend.select schema (some condition) asked).perform setting session =
      (.ok selection, between)) :
    ∃ found records, readAll (session.data.tree schema) = .ok records ∧
      found.Subperm records ∧
      List.Forall₂ (Backend.Shows ((setting.registry.relationsOf schema).map Relation.field)
        (asked.columns.getD (model.columnsFor .select))) found selection.records ∧
      ∃ middle, middle.data = session.data ∧
        (backend.select schema (some condition) Backend.keyOnly).perform setting session =
          (.ok (.many (found.map (·.project [idField]))), middle) := by
  obtain ⟨other, plan, found, middle, shown, known', read, checked, matched, showing, rfl⟩ :=
    Backend.select_eq_ok selected
  obtain rfl : model = other := Except.ok.inj (known.symm.trans known')
  have scans : plan.index = none := by
    rw [Plan.ofCondition, unindexed] at read
    exact Plan.index_of_readEntries read
  change (find model plan).perform setting session = _ at matched
  have data := (find_readsOnly model plan).data_eq setting session
  rw [matched] at data
  rcases find_eq_ok matched with ⟨key, -, indexed, -⟩ | ⟨query, records, -, -, all, rfl⟩
  · cases scans.symm.trans indexed
  · rw [Action.name_of_get known] at all
    rw [scans]
    refine ⟨_, records, all, query.run_subperm records, showing, middle, data, ?_⟩
    have keyed := @Backend.perform_select_excluded _ backend setting session schema
      (some condition) model plan (some [idField]) known read checked
    have matched' : (backend.find model (plan.asking ⟨some [idField], .none⟩)).perform setting
        session = (.ok (query.run records), middle) := matched
    rw [matched'] at keyed
    simp only [scans] at keyed
    exact keyed

/-- A save with a condition that looks no key up changes every record the condition selects,
each on its own: there is one outcome for each of them; in the end each of their entries is as
the patch makes it of what it was, at some reading of the clock, or as it was if the patch does
not apply, and no other entry of any model differs; and where the clocks agree the changes lead
to the same trees in every order.  The hooks have to leave the id alone, and the id that a
stored record is read with has to lead back to its entry. -/
theorem batch_patches {registry : Registry} {session : Session Trees}
    (reached : Reached registry session) {setting : Setting} (same : setting.registry = registry)
    {schema : String} {model : Schema} (known : registry.get schema = .ok model)
    (hooks : ∀ record,
      (model.hooks.runBefore .update record).get? idField = record.get? idField)
    (faithful : ∀ entry ∈ session.data.tree schema, LeadsBack entry)
    {condition : Condition} (unindexed : Plan.indexOf? condition = none) {asked : SelectOptions}
    {selection : Selection} {between : Session Trees}
    (selected : (backend.select schema (some condition) asked).perform setting session =
      (.ok selection, between)) (patch : Object) (options : SaveOptions) :
    ∃ (found : List Object) (ids : List Json) (outcomes : List Outcome) (after : Session Trees)
      (stamp : String → Nat),
      List.Forall₂ (Backend.Shows ((registry.relationsOf schema).map Relation.field)
        (asked.columns.getD (model.columnsFor .select))) found selection.records ∧
      (∀ record ∈ found, ∃ entry ∈ session.data.tree schema, readRecord entry.2 = .ok record) ∧
      found.map (·.get? idField) = ids.map some ∧ (ids.map keyOf).Nodup ∧
      (backend.save schema patch (some condition) options).perform setting session =
        (.ok (.batch (Outcome.updated outcomes) (Outcome.failed outcomes)), after) ∧
      outcomes.map Prod.fst = ids ∧
      (∀ id record, (id, .ok record) ∈ outcomes →
        ∃ entry ∈ session.data.tree schema, entry.1 = keyOf id ∧ ∃ changed,
          Changes model patch options (setting.clock (stamp entry.1)) entry changed ∧
          Backend.AgreesOutside ((registry.relationsOf schema).map Relation.field) changed
            record) ∧
      session.data.Replaced schema ((session.data.tree schema).rewrite (ids.map keyOf)
        fun entry => patchedEntry model patch options (setting.clock (stamp entry.1)) entry)
        after.data ∧
      ∀ (order : List Json) (setting' : Setting) (session' : Session Trees), order.Perm ids →
        setting'.registry = registry → (∀ n m, setting'.clock n = setting.clock m) →
        (∀ name, session'.data.tree name = session.data.tree name) →
        ∃ answer last, (backend.saveEach schema patch options order).perform setting' session' =
            (.ok answer, last) ∧
          ∀ name, last.data.tree name = after.data.tree name := by
  subst same
  have ordered : (session.data.tree schema).Ordered := (trees_keyed reached schema).ordered
  obtain ⟨found, records, read, picked, showing, middle, data, keyed⟩ :=
    select_eq_found known unindexed selected
  obtain ⟨ids, listed, given, inside⟩ := ids_of_found faithful read picked
  have distinct : (ids.map keyOf).Nodup := by
    obtain ⟨some_of, perm, fewer⟩ := inside
    exact perm.nodup_iff.mp (ordered.nodup_keys.sublist fewer)
  have run := @saveEach_patches setting middle schema model patch options ids known hooks
    (data ▸ ordered) distinct fun entry member _ => faithful entry (data ▸ member)
  rw [data] at run
  obtain ⟨outcomes, after, stamp, done, named, replaced, answered⟩ := run
  refine ⟨found, ids, outcomes, after, stamp, showing, ?_, given, distinct, ?_, named, answered,
    replaced, ?_⟩
  · intro record member
    have all := List.mem_map_of_mem (f := @Except.ok StoreError Object) (picked.subset member)
    rw [← mapM_eq_ok_iff.mp read] at all
    exact (List.mem_map.mp all).imp fun _ => id
  · unfold Backend.save
    simp only [unindexed]
    rw [perform_bind_ok _ _ keyed]
    have asked_ids : (Selection.many (found.map (·.project [idField]))).records.filterMap
        (·.get? idField) = ids := by
      simp only [Selection.records, List.filterMap_map, ← listed]
      exact List.filterMap_congr fun record _ => record.get?_project [idField] idField
    rw [asked_ids, perform_bind_ok _ _ done]
    rfl
  · intro order setting' session' perm registered clocks trees
    have among : ∀ key, key ∈ order.map keyOf ↔ key ∈ ids.map keyOf :=
      fun key => (perm.map keyOf).mem_iff
    obtain ⟨outcomes', last, stamp', done', -, replaced', -⟩ := @saveEach_patches setting' session'
      schema model patch options order (registered ▸ known) hooks (trees schema ▸ ordered)
      ((perm.map keyOf).nodup_iff.mpr distinct)
      fun entry member _ => faithful entry (trees schema ▸ member)
    refine ⟨_, last, done', fun name => ?_⟩
    by_cases here : name = schema
    · subst here
      rw [replaced'.1, replaced.1, trees]
      refine Tree.rewrite_congr among fun entry _ _ => ?_
      rw [clocks (stamp' entry.1) (stamp entry.1)]
    · rw [replaced'.2 name here, replaced.2 name here, trees]

/-- Two is added to the number of one user and refused by the truth value of another: the first is
changed, the second reported, and the other order of the two leads to the same tree. -/
theorem batch_patches_numbers :
    let model : Schema := ⟨"user", [("n", .scalar .number Traits.plain)], false, Hooks.none⟩
    let setting := Setting.still ⟨[model], []⟩
    let create (id : String) (n : Json) : Call := .create "user" [("id", .str id), ("n", n)]
    let first := (((create "a" (.int 1)).run backend).perform setting (Session.start [])).2
    let session := (((create "b" (.bool true)).run backend).perform setting first).2
    let text (id n : String) : String :=
      "\x7b\x22id\x22:\x22" ++ id ++ "\x22,\x22n\x22:" ++ n ++ "\x7d"
    let patch : Object := [("n", .int 2)]
    let options : SaveOptions := ⟨.append, .skip⟩
    let saved := (backend.save "user" patch (some []) options).perform setting session
    let tree : Tree := [("a", text "a" "3"), ("b", text "b" "true")]
    Reached setting.registry session ∧
      session.data.tree "user" = [("a", text "a" "1"), ("b", text "b" "true")] ∧
      saved.1 = .ok (.batch [[("id", .str "a"), ("n", .int 3)]]
        [(.str "b", .patch (.invalidValue "n" .storedNotANumber))]) ∧
      saved.2.data.tree "user" = tree ∧
      ∃ (ids : List Json) (answer : _) (last : Session Trees), ids.length = 2 ∧
        (backend.saveEach "user" patch options ids.reverse).perform setting session =
          (.ok answer, last) ∧ last.data.tree "user" = tree := by
  intro model setting create first session text patch options saved tree
  have reached : Reached setting.registry session :=
    .call (.call .fresh (create "a" (.int 1)) setting rfl) (create "b" (.bool true)) setting rfl
  have stored : session.data.tree "user" = [("a", text "a" "1"), ("b", text "b" "true")] := by
    decide +kernel
  have final : saved.2.data.tree "user" = tree := by decide +kernel
  have faithful : ∀ entry ∈ session.data.tree "user", LeadsBack entry := by
    have number : readRecord (text "a" "1") = .ok [("id", .str "a"), ("n", .int 1)] := by
      decide +kernel
    have truth : readRecord (text "b" "true") = .ok [("id", .str "b"), ("n", .bool true)] := by
      decide +kernel
    rw [stored]
    refine List.forall_mem_cons.mpr ⟨?_, List.forall_mem_singleton.mpr ?_⟩
    · intro record read
      cases number.symm.trans read
      rfl
    · intro record read
      cases truth.symm.trans read
      rfl
  have selected : (backend.select "user" (some []) SelectOptions.plain).perform setting session =
      (.ok (.many [[("id", .str "a"), ("n", .int 1)], [("id", .str "b"), ("n", .bool true)]]),
        { session with readings := session.readings + 1 }) := by decide +kernel
  obtain ⟨found, ids, outcomes, after, stamp, showing, -, given, -, done, -, -, -, orders⟩ :=
    @batch_patches setting.registry session reached setting rfl "user" model rfl (fun _ => rfl)
      faithful [] rfl SelectOptions.plain _ _ selected patch options
  have length : ids.length = 2 := by
    have found_length : found.length = 2 := showing.length_eq
    have ids_length := congrArg List.length given
    rw [List.length_map, List.length_map, found_length] at ids_length
    exact ids_length.symm
  obtain ⟨answer, last, run, trees⟩ := orders ids.reverse setting session (List.reverse_perm ids)
    rfl (fun _ _ => rfl) fun _ => rfl
  obtain rfl : saved.2 = after := congrArg Prod.snd done
  exact ⟨reached, stored, by decide +kernel, final, ids, answer, last, length, run,
    (trees "user").trans final⟩

/-- Of the two doubles nearest to `5e32` the upper one is stored under its own text, and its
text is read as the lower one, whose text is no key: the record is selected and its patch
applies, but it is reported as not found and stays as it was. -/
theorem batch_misses_reread_id :
    let setting := namedSetting
    let record (word : Nat) (name : String) : Object :=
      [("id", .num (.float ⟨false, word⟩)), ("name", .str name)]
    let given := record 5096006472832567709 "a"
    let found := record 5096006472832567708 "a"
    let session := (((Call.create "user" given).run backend).perform setting
      (Session.start [])).2
    let patch : Object := [("name", .str "b")]
    let condition : Condition := [("name", .str "a")]
    Reached setting.registry session ∧
      session.data = [("user", [("5.0000000000000004e+32", Json.text (.obj given))])] ∧
      Plan.indexOf? condition = none ∧
      ((backend.select "user" (some condition) SelectOptions.plain).perform setting session).1 =
        .ok (.many [found]) ∧
      namedUser.applyUpdate found patch .cover .skip (setting.clock 1).text =
        (.ok ⟨["name"], []⟩, record 5096006472832567708 "b") ∧
      ((backend.save "user" patch (some condition) ⟨.cover, .skip⟩).perform setting session).1 =
        .ok (.batch [] [(.num (.float ⟨false, 5096006472832567708⟩),
          .recordNotFound "user" "5e+32")]) ∧
      ((backend.save "user" patch (some condition) ⟨.cover, .skip⟩).perform setting
        session).2.data = session.data := by
  intro setting record given found session patch condition
  have reached : Reached setting.registry session :=
    .call .fresh (.create "user" given) setting rfl
  exact ⟨reached, by decide +kernel, by decide, by decide +kernel, by decide +kernel,
    by decide +kernel, by decide +kernel⟩

end Document

end RecordStore
