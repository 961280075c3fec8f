/-
Module: RecordStore.Proofs.Store.KeyOrder
Purpose: Resolving the side of a relation that holds keys, on any store.  All keys are looked up
  at once, and what is found is put in the order of the keys.  Where at most one record has a key,
  a key is resolved to the record that has it, if the lookup of all keys finds that record.
Main exports: find?_of_perm_filter, Backend.perform_resolve_keys, Backend.ResolvesKeys,
  Backend.resolvesKeys_of_related
-/
import RecordStore.Proofs.Json.LooseText
import RecordStore.Proofs.Store.Reading
import RecordStore.Store.Relations

namespace RecordStore

/-! ### Items with a key -/

section Keyed

variable {α : Type} {items picked : List α} {accepts keyed : α → Bool}

/-- At most one of some items has a key. -/
def AtMostOne (items : List α) (keyed : α → Bool) : Prop :=
  ∀ item ∈ items, ∀ other ∈ items, keyed item → keyed other → item = other

/-- The item of a key, where at most one has it. -/
theorem AtMostOne.find?_eq_some_iff (single : AtMostOne items keyed) {item : α} :
    items.find? keyed = some item ↔ item ∈ items ∧ keyed item := by
  constructor
  · exact fun found => ⟨List.mem_of_find?_eq_some found, List.find?_some found⟩
  · rintro ⟨member, hit⟩
    obtain ⟨other, found⟩ := Option.isSome_iff_exists.mp
      (List.find?_isSome.mpr ⟨item, member, hit⟩)
    rw [found, single other (List.mem_of_find?_eq_some found) item member
      (List.find?_some found) hit]

/-- Among the accepted items, in any order, a narrower key is that of the item of the key, if this
is seen under it. -/
theorem AtMostOne.find?_of_perm_filter (single : AtMostOne items keyed)
    (same : picked.Perm (items.filter accepts)) {narrow seen : α → Bool}
    (narrower : ∀ item ∈ items, narrow item → keyed item)
    (sees : ∀ item ∈ items, keyed item → (seen item ↔ narrow item ∧ accepts item)) :
    picked.find? narrow = (items.find? keyed).filter seen := by
  have inside : ∀ item ∈ picked, item ∈ items := fun item member =>
    (List.mem_filter.mp (same.mem_iff.mp member)).1
  have fewer : AtMostOne picked narrow := fun item member other there hit hit' =>
    single item (inside item member) other (inside other there)
      (narrower item (inside item member) hit) (narrower other (inside other there) hit')
  ext item
  rw [fewer.find?_eq_some_iff, same.mem_iff, List.mem_filter, Option.filter_eq_some_iff,
    single.find?_eq_some_iff]
  constructor
  · rintro ⟨⟨member, accepted⟩, hit⟩
    have keyed := narrower item member hit
    exact ⟨⟨member, keyed⟩, (sees item member keyed).mpr ⟨hit, accepted⟩⟩
  · rintro ⟨⟨member, keyed⟩, seen⟩
    obtain ⟨hit, accepted⟩ := (sees item member keyed).mp seen
    exact ⟨⟨member, accepted⟩, hit⟩

end Keyed

/-! ### Keys of a relation -/

/-- The columns that a model shows of its own have the key. -/
theorem Schema.id_of_shown (model : Schema) (record : Object) :
    (record.project (model.columnsFor .select)).get? idField = record.get? idField := by
  rw [Object.get?_project, if_pos]
  exact List.mem_cons_self

theorem mem_of_mem_inKeyOrder {found : List Object} {keys : List Json} {record : Object}
    (member : record ∈ inKeyOrder found keys) : record ∈ found := by
  obtain ⟨key, -, first⟩ := List.mem_filterMap.mp member
  exact List.mem_of_find?_eq_some first

/-- The only record of a key stands where the key does. -/
theorem mem_inKeyOrder {found : List Object} {keys : List Json} {record : Object} {key : Json}
    (there : record ∈ found) (keyed : record.hasKey key)
    (only : ∀ other ∈ found, other.hasKey key → other = record) (listed : key ∈ keys) :
    record ∈ inKeyOrder found keys := by
  refine List.mem_filterMap.mpr ⟨key, listed, ?_⟩
  have some_found : (found.find? fun other => other.hasKey key).isSome :=
    List.find?_isSome.mpr ⟨record, there, keyed⟩
  obtain ⟨other, first⟩ := Option.isSome_iff_exists.mp some_found
  have hit := List.find?_some first
  rw [first, only other (List.mem_of_find?_eq_some first) hit]

namespace Backend

open RecordStore.Action (perform_bind_ok)

variable {δ : Type} {backend : Backend δ} {setting : Setting} {session : Session δ}

/-- The side that holds keys is resolved to what the lookup of its keys finds, in their order. -/
theorem perform_resolve_keys {relation : Relation} (owning : relation.side = .owning)
    (record : Object) {found : List Object}
    (reads : relatedKeys (record.get? relation.field) ≠ [] → ∃ last,
      (backend.related relation.target
        (Condition.idsIn (relatedKeys (record.get? relation.field)))).perform setting session =
          (.ok found, last)) :
    ∃ last, (backend.resolve relation record).perform setting session =
      (.ok (relationValue relation.many
        (inKeyOrder found (relatedKeys (record.get? relation.field)))), last) := by
  unfold resolve
  rw [owning]
  dsimp only
  cases keys : relatedKeys (record.get? relation.field) with
  | nil => exact ⟨session, rfl⟩
  | cons key rest =>
      rw [keys] at reads
      obtain ⟨last, related⟩ := reads (List.cons_ne_nil key rest)
      exact ⟨last, (perform_bind_ok _ _ related _).trans rfl⟩

/-- The side that holds keys is resolved key by key, each number or text to the record that its
lookup shows, if this is also seen among the records of all keys. -/
def ResolvesKeys (backend : Backend δ) (setting : Setting) (session : Session δ)
    (relation : Relation) (record : Object) (seen : Json → Object → Bool) : Prop :=
  ∃ related : Json → Option Object,
    (∃ last, (backend.resolve relation record).perform setting session =
      (.ok (relationValue relation.many
        ((relatedKeys (record.get? relation.field)).filterMap related)), last)) ∧
    ∀ key ∈ relatedKeys (record.get? relation.field), key.IsKey → ∃ looked last,
      (backend.select relation.target (some [(indexKey, key)]) SelectOptions.plain).perform setting
        session = (.ok (.one looked), last) ∧
      related key = looked.filter (seen key)

/-- It is resolved key by key where each lookup shows what is found of all keys, as far as this is
seen. -/
theorem resolvesKeys_of_related {relation : Relation} (owning : relation.side = .owning)
    (record : Object) {found : List Object} {seen : Json → Object → Bool}
    (reads : relatedKeys (record.get? relation.field) ≠ [] → ∃ last,
      (backend.related relation.target
        (Condition.idsIn (relatedKeys (record.get? relation.field)))).perform setting session =
          (.ok found, last))
    (each : ∀ key ∈ relatedKeys (record.get? relation.field), key.IsKey → ∃ looked last,
      (backend.select relation.target (some [(indexKey, key)]) SelectOptions.plain).perform setting
        session = (.ok (.one looked), last) ∧
      found.find? (·.hasKey key) = looked.filter (seen key)) :
    backend.ResolvesKeys setting session relation record seen :=
  ⟨fun key => found.find? (·.hasKey key), perform_resolve_keys owning record reads, each⟩

/-- Where the lookup of every key is known, so is what the side that holds the keys is resolved
to. -/
theorem ResolvesKeys.perform_resolve {relation : Relation} {record : Object}
    {seen : Json → Object → Bool}
    (resolves : backend.ResolvesKeys setting session relation record seen)
    {looked : Json → Option Object}
    (looks : ∀ key ∈ relatedKeys (record.get? relation.field), key.IsKey ∧ ∃ last,
      (backend.select relation.target (some [(indexKey, key)]) SelectOptions.plain).perform setting
        session = (.ok (.one (looked key)), last)) :
    ∃ last, (backend.resolve relation record).perform setting session =
      (.ok (relationValue relation.many ((relatedKeys (record.get? relation.field)).filterMap
        fun key => (looked key).filter (seen key))), last) := by
  obtain ⟨related, ⟨last, resolved⟩, each⟩ := resolves
  refine ⟨last, resolved.trans ?_⟩
  have same : ∀ key ∈ relatedKeys (record.get? relation.field),
      related key = (looked key).filter (seen key) := by
    intro key listed
    obtain ⟨isKey, last, answered⟩ := looks key listed
    obtain ⟨shown, _, selected, resolves⟩ := each key listed isKey
    rw [answered] at selected
    cases selected
    exact resolves
  rw [List.filterMap_congr same]

end Backend

end RecordStore
