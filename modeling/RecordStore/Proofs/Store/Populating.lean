/-
Module: RecordStore.Proofs.Store.Populating
Purpose: What populating shows in one relation field.  The chosen relations are resolved one
  after the other, each in all records.  As the fields of the others have other names, the field
  shows what its relation resolves to in the record that was given, whatever is resolved before
  and after it and in which other records.
Main exports: Backend.Populates, Backend.populates_of_resolve
-/
import Mathlib.Data.List.Nodup
import RecordStore.Proofs.Store.Reading

namespace RecordStore.Backend

open RecordStore.Action (ReadsOnly perform_bind_ok perform_bind_eq_ok)

variable {δ : Type} {backend : Backend δ} {setting : Setting} {session after : Session δ}

/-- The records that populating shows in a list field of a record, when that field alone is
populated in that record alone, and whenever other fields or records are populated with it. -/
structure Populates (backend : Backend δ) (setting : Setting) (session : Session δ)
    (schema field : String) (record : Object) (related : List Object) : Prop where
  alone : ∃ after, (backend.populate schema (.fields [field]) [record]).perform setting session =
    (.ok [record.insert field (.arr (related.map .obj))], after)
  among : ∀ extend records populated after, extend.includes field →
    (backend.populate schema extend records).perform setting session = (.ok populated, after) →
    List.Forall₂ (fun before shown => before = record →
      shown.get? field = some (.arr (related.map .obj))) records populated

/-- A record agrees with another in a relation field and in every field that no relation is
resolved in. -/
def AgreesFor (relations : List Relation) (relation : Relation) (record resolved : Object) : Prop :=
  ∀ field, field = relation.field ∨ field ∉ relations.map Relation.field →
    resolved.get? field = record.get? field

/-- What a relation of a record resolves to, whenever it is resolved while the data are the
same. -/
def ResolvesTo (backend : Backend δ) (setting : Setting) (data : δ) (relation : Relation)
    (record : Object) (value : Json) : Prop :=
  ∃ start last : Session δ, start.data = data ∧
    (backend.resolve relation record).perform setting start = (.ok value, last)

/-- The relations of a choice, one of them singled out: what is resolved before and after it has
other names. -/
theorem exists_cut {relations : List Relation}
    (distinct : (relations.map Relation.field).Nodup) {relation : Relation}
    (member : relation ∈ relations) {extend : Extend} (included : extend.includes relation.field) :
    ∃ front back : List Relation,
      (relations.filter fun other => extend.includes other.field) = front ++ relation :: back ∧
      (∀ field ∈ front.map Relation.field, field ∈ relations.map Relation.field) ∧
      relation.field ∉ front.map Relation.field ∧ relation.field ∉ back.map Relation.field := by
  have chosen : relation ∈ relations.filter fun other => extend.includes other.field :=
    List.mem_filter.mpr ⟨member, included⟩
  obtain ⟨front, back, cut⟩ := List.append_of_mem chosen
  have fewer : ((front ++ relation :: back).map Relation.field).Sublist
      (relations.map Relation.field) := by
    rw [← cut]
    exact List.filter_sublist.map Relation.field
  have apart := distinct.sublist fewer
  rw [List.map_append, List.map_cons] at apart fewer
  rw [List.nodup_middle, List.nodup_cons, List.mem_append, not_or] at apart
  exact ⟨front, back, cut, fun field inside => fewer.subset (List.mem_append_left _ inside),
    apart.1⟩

/-- The choice of one field is its relation. -/
theorem filter_includes_single {relations : List Relation}
    (distinct : (relations.map Relation.field).Nodup) {relation : Relation}
    (member : relation ∈ relations) :
    (relations.filter fun other => (Extend.fields [relation.field]).includes other.field) =
      [relation] := by
  have included : (Extend.fields [relation.field]).includes relation.field := by
    simp [Extend.includes]
  obtain ⟨front, back, cut, -, fresh, untouched⟩ := exists_cut distinct member included
  have named : ∀ other ∈ front ++ relation :: back, other.field = relation.field := by
    rw [← cut]
    intro other listed
    simpa [Extend.includes] using (List.mem_filter.mp listed).2
  have none_of {part : List Relation} (absent : relation.field ∉ part.map Relation.field)
      (inside : part ⊆ front ++ relation :: back) : part = [] := by
    refine List.eq_nil_iff_forall_not_mem.mpr fun other listed => absent ?_
    rw [← named other (inside listed)]
    exact List.mem_map_of_mem listed
  rw [cut, none_of fresh (List.subset_append_left _ _),
    none_of untouched fun other listed => List.mem_append_right _ (List.mem_cons_of_mem _ listed)]
  rfl

/-- One relation populated in one record. -/
theorem perform_populate_single {schema : String} {relation : Relation}
    (distinct : ((setting.registry.relationsOf schema).map Relation.field).Nodup)
    (member : relation ∈ setting.registry.relationsOf schema) {record : Object} {value : Json}
    (resolved : (backend.resolve relation record).perform setting session = (.ok value, after)) :
    (backend.populate schema (.fields [relation.field]) [record]).perform setting session =
      (.ok [record.insert relation.field value], after) := by
  unfold Backend.populate
  rw [perform_bind_ok _ _ (Action.perform_read setting session),
    filter_includes_single distinct member, List.foldlM_cons]
  have shown : (backend.populateField [record] relation).perform setting session =
      (.ok [record.insert relation.field value], after) := by
    unfold populateField
    rw [List.mapM_cons, bind_assoc, perform_bind_ok _ _ resolved]
    rfl
  rw [perform_bind_ok _ _ shown]
  rfl

section Populate

variable (reads : ∀ model plan, ReadsOnly (backend.find model plan))
include reads

/-- One relation is resolved in record after record, and the data stay the same. -/
theorem populateField_resolves {data : δ} (unchanged : session.data = data) {relation : Relation}
    {records populated : List Object}
    (done : (backend.populateField records relation).perform setting session =
      (.ok populated, after)) :
    List.Forall₂ (fun record shown => ∃ value,
      ResolvesTo backend setting data relation record value ∧
        shown = record.insert relation.field value) records populated := by
  refine (forall₂_of_populateField (fun start => start.data = data) ?_ unchanged done).imp ?_
  · intro record start value last same resolved
    have kept := ReadsOnly.data_eq (fun data => resolve_keeps (fun model plan =>
      reads model plan data) relation record) setting start
    rw [resolved] at kept
    exact kept.trans same
  · rintro record _ ⟨start, value, last, same, resolved, rfl⟩
    exact ⟨value, ⟨start, last, same, resolved⟩, rfl⟩

/-- Every record is shown with what the relation resolves to in a record that agrees with it. -/
theorem populate_resolves {schema : String} {extend : Extend} {relation : Relation}
    (distinct : ((setting.registry.relationsOf schema).map Relation.field).Nodup)
    (member : relation ∈ setting.registry.relationsOf schema)
    (included : extend.includes relation.field) {records populated : List Object}
    (done : (backend.populate schema extend records).perform setting session =
      (.ok populated, after)) :
    List.Forall₂ (fun record shown => ∃ between value,
      AgreesFor (setting.registry.relationsOf schema) relation record between ∧
        ResolvesTo backend setting session.data relation between value ∧
        shown.get? relation.field = some value) records populated := by
  obtain ⟨front, back, cut, known, fresh, untouched⟩ := exists_cut distinct member included
  unfold Backend.populate at done
  rw [perform_bind_ok _ _ (Action.perform_read setting session), cut, List.foldlM_append] at done
  simp only [List.foldlM_cons, perform_bind_eq_ok] at done
  obtain ⟨first, middle, before, second, last, here, behind⟩ := done
  have kept := ReadsOnly.data_eq (fun data => .foldlM _ (populateField_keeps fun model plan =>
    reads model plan data) front records) setting session
  rw [before] at kept
  -- what stands before the relation replaces neither its field nor one without a relation
  have agrees : List.Forall₂ (AgreesFor (setting.registry.relationsOf schema) relation) records
      first := by
    refine (populateEach_eq_ok before).imp fun record between agree field kind => agree field ?_
    rcases kind with rfl | unrelated
    · exact fresh
    · exact fun inside => unrelated (known field inside)
  have shown : List.Forall₂ (fun between shown => ∃ value,
      ResolvesTo backend setting session.data relation between value ∧
        shown.get? relation.field = some value) first populated := by
    refine forall₂_trans (fun between resolved shown given agree => ?_)
      (populateField_resolves reads kept here) (populateEach_eq_ok behind)
    obtain ⟨value, resolves, rfl⟩ := given
    exact ⟨value, resolves, (agree _ untouched).trans (Object.get?_insert_self _ _ _)⟩
  refine forall₂_trans (fun record between shown agree given => ?_) agrees shown
  obtain ⟨value, resolves, found⟩ := given
  exact ⟨between, value, agree, resolves, found⟩

/-- A field is populated with what its relation resolves to in all records that agree with the
one that is given. -/
theorem populates_of_resolve {schema : String} {relation : Relation} {record : Object}
    {related : List Object}
    (distinct : ((setting.registry.relationsOf schema).map Relation.field).Nodup)
    (member : relation ∈ setting.registry.relationsOf schema)
    (resolves : ∀ between, AgreesFor (setting.registry.relationsOf schema) relation record between →
      ∀ start : Session δ, start.data = session.data → ∃ last,
        (backend.resolve relation between).perform setting start =
          (.ok (.arr (related.map .obj)), last)) :
    backend.Populates setting session schema relation.field record related where
  alone := by
    obtain ⟨last, resolved⟩ := resolves record (fun _ _ => rfl) session rfl
    exact ⟨last, perform_populate_single distinct member resolved⟩
  among := by
    intro extend records populated after included done
    refine (populate_resolves reads distinct member included done).imp ?_
    rintro before shown ⟨between, value, agrees, ⟨start, _, same, resolved⟩, found⟩ rfl
    obtain ⟨last, answered⟩ := resolves between agrees start same
    cases resolved.symm.trans answered
    exact found

end Populate

end RecordStore.Backend
