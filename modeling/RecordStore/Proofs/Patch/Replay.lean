/-
Module: RecordStore.Proofs.Patch.Replay
Purpose: Patches that are sent twice.  What covering or merging has left at a path of names and
  positions it leaves again, and nothing else changes, as long as the field of the path is not
  written in between.  So a patch whose keys start from different fields can be replayed.
Main exports: Object.get?_set_of_ne, UpdateMode.Replaces, Patch.apply_replay,
  Patch.applyPair_replay, Patch.Separate, Patch.applyAll_replay
-/
import RecordStore.Proofs.Patch.Accumulating
import RecordStore.Proofs.Patch.Independence

namespace RecordStore

open Json Segment

/-! ### Fields that are not written -/

namespace Object

variable {record : Object} {path : FieldPath}

/-- A write leaves the fields alone that its path does not start from. -/
theorem get?_set_of_ne {name : String} (apart : name ≠ path.root) (value : Json) :
    (record.set path value).2.get? name = record.get? name := by
  rcases written : record.set path value with ⟨answer, after⟩
  cases answer with
  | error error => exact congrArg (get? · name) (edit_error written).2
  | ok done =>
      obtain ⟨filled, fits, left⟩ := writeAt_of_set written
      cases steps : path.segments with
      | nil => exact absurd steps filled
      | cons first rest =>
          rw [FieldPath.pinned, steps] at fits left
          cases first with
          | name key =>
              have root : path.root = key := by simp [FieldPath.root, steps, Segment.name?]
              rw [root] at apart
              rw [Json.obj.inj left]
              exact get?_insert_of_ne record _ apart
          | index index => exact fits.1.elim
          | element key text => exact fits.1.elim

end Object

/-- The modes whose outcome at a path is written whole, and not added to what was there. -/
def UpdateMode.Replaces (mode : UpdateMode) : Prop := mode = .cover ∨ mode = .merge

namespace Patch

/-! ### One operand -/

section Operand

variable {mode : UpdateMode} (replaces : mode.Replaces)
include replaces

theorem apply_get?_of_ne (record : Object) {path : FieldPath} {name : String}
    (apart : name ≠ path.root) (operand : Json) (resolved : Resolved) :
    (apply record path operand mode resolved).2.get? name = record.get? name := by
  have covers (value : Json) : (cover record path value).2.get? name = record.get? name := by
    rw [cover_eq]
    exact Object.get?_set_of_ne apart value
  rcases replaces with rfl | rfl
  · exact covers operand
  · simp only [apply, merge]
    split
    · rfl
    · split
      · exact covers _
      · rfl

/-- An operand that went through at a path of names and positions goes through again on every
record that reads there what it left, and changes nothing. -/
theorem apply_replay {record after later : Object} {path : FieldPath}
    (plain : AllPlain path.segments) {operand : Json} {resolved : Resolved}
    (done : apply record path operand mode resolved = (.ok (), after))
    (same : later.lookup? path = after.lookup? path) :
    apply later path operand mode resolved = (.ok (), later) := by
  have reads {value : Json} (covered : cover record path value = (.ok (), after)) :
      later.lookup? path = some value := by
    rw [same, lookup?_of_cover plain covered]
  have rewrites {value : Json} (found : later.lookup? path = some value) :
      cover later path value = (.ok (), later) := by
    rw [cover, Object.set_of_lookup? found]
  rcases replaces with rfl | rfl
  · exact rewrites (reads done)
  · simp only [apply, merge] at done ⊢
    by_cases other : (resolved.type != .object || resolved.isList) = true
    · rw [if_pos other]
    · rw [if_neg other] at done ⊢
      cases operand with
      | obj incoming =>
          have found := reads done
          simp only [storedObject_of_lookup? found, Object.overlay_again]
          exact rewrites found
      | _ => cases done

end Operand

/-! ### One pair -/

section Pair

variable {schema : Schema} {mode : UpdateMode} {policy : UnknownFieldPolicy}
variable (replaces : mode.Replaces)
include replaces

/-- A pair leaves the fields alone that its key does not start from. -/
theorem applyPair_get?_of_ne (record : Object) {name key : String}
    (apart : ¬ schema.startsFrom name key = true) (operand : Json) :
    (applyPair schema mode policy record key operand).2.get? name = record.get? name := by
  rcases applyPair_record schema mode policy record key operand with
    kept | ⟨path, resolved, read, -, -, left⟩
  · rw [kept]
  · have other : name ≠ path.root := by
      rintro rfl
      exact apart (Schema.startsFrom_iff.mpr ⟨path, read, rfl⟩)
    rw [left]
    exact apply_get?_of_ne replaces record other operand resolved

/-- A pair that went through at a path of names and positions goes through again, with the same
answer, on every record whose field it left as it is, and changes nothing. -/
theorem applyPair_replay {record after later : Object} {key : String} {operand : Json}
    {applied : Bool} (done : applyPair schema mode policy record key operand = (.ok applied, after))
    {path : FieldPath} (read : schema.path key = .ok path) (plain : AllPlain path.segments)
    (same : later.get? path.root = after.get? path.root) :
    applyPair schema mode policy later key operand = (.ok applied, later) := by
  simp only [applyPair, read] at done ⊢
  cases guarded : isProtected schema path with
  | true =>
      simp only [guarded, if_true, Prod.mk.injEq] at done ⊢
      exact ⟨done.1, trivial⟩
  | false =>
      simp only [guarded, Bool.false_eq_true, if_false] at done ⊢
      cases resolves : schema.resolve? path with
      | none =>
          rw [resolves] at done
          cases policy <;> cases done
          rfl
      | some resolved =>
          rcases outcome : apply record path operand mode resolved with ⟨answer, left⟩
          simp only [resolves, outcome] at done
          cases answer with
          | error error => cases done
          | ok nothing =>
              cases done
              simp only [apply_replay replaces plain outcome (lookup?_congr same)]

end Pair

/-! ### A whole patch -/

/-- The keys of a patch are read as paths of names and positions, no two of which start from one
field. -/
structure Separate (schema : Schema) (patch : Object) : Prop where
  plain : ∀ pair ∈ patch, ∃ path, schema.path pair.1 = .ok path ∧ AllPlain path.segments
  apart : patch.Pairwise fun one other => ∀ name,
    schema.startsFrom name one.1 = true → ¬ schema.startsFrom name other.1 = true

/-- A pair is put in front if none of the others starts from its field. -/
theorem Separate.cons {schema : Schema} {key : String} {path : FieldPath}
    (read : schema.path key = .ok path) (plain : AllPlain path.segments) (operand : Json)
    {rest : Object} (alone : ∀ pair ∈ rest, ¬ schema.startsFrom path.root pair.1 = true)
    (others : Separate schema rest) : Separate schema ((key, operand) :: rest) where
  plain := List.forall_mem_cons.mpr ⟨⟨path, read, plain⟩, others.plain⟩
  apart := by
    refine List.pairwise_cons.mpr ⟨fun pair member name starts => ?_, others.apart⟩
    obtain ⟨same, found, rfl⟩ := Schema.startsFrom_iff.mp starts
    obtain rfl : path = same := Except.ok.inj (read.symm.trans found)
    exact alone pair member

section Replay

variable {schema : Schema} {mode : UpdateMode} (policy : UnknownFieldPolicy)
variable (replaces : mode.Replaces)
include replaces

/-- A patch leaves the fields alone that none of its keys starts from. -/
theorem applyAll_get?_of_ne {name : String} (record : Object) {patch : Object}
    (apart : ∀ pair ∈ patch, ¬ schema.startsFrom name pair.1 = true) :
    (applyAll schema mode policy record patch).2.get? name = record.get? name := by
  induction patch generalizing record with
  | nil => rfl
  | cons pair rest ih =>
      obtain ⟨key, operand⟩ := pair
      obtain ⟨first, others⟩ := List.forall_mem_cons.mp apart
      have kept : (applyPair schema mode policy record key operand).2.get? name =
          record.get? name := applyPair_get?_of_ne replaces record first operand
      rcases outcome : applyPair schema mode policy record key operand with ⟨answer, between⟩
      rw [outcome] at kept
      cases answer with
      | error error => rw [applyAll_cons_error outcome, kept]
      | ok applied => rw [(applyAll_cons_ok outcome rest).2, ih between others, kept]

/-- Replaying a patch that covers or merges changes nothing: if its keys are read as paths of
names and positions that start from different fields and it goes through, it goes through again
on the record it left, with the same report, and leaves that record as it is, with its keys in
their order. -/
theorem applyAll_replay {record after : Object} {patch : Object} (separate : Separate schema patch)
    {report : PatchReport}
    (done : applyAll schema mode policy record patch = (.ok report, after)) :
    applyAll schema mode policy after patch = (.ok report, after) := by
  induction patch generalizing record report with
  | nil =>
      cases done
      rfl
  | cons pair rest ih =>
      obtain ⟨key, operand⟩ := pair
      obtain ⟨⟨path, read, plain⟩, others⟩ := List.forall_mem_cons.mp separate.plain
      obtain ⟨alone, apart⟩ := List.pairwise_cons.mp separate.apart
      obtain ⟨applied, between, more, first, later, rfl⟩ := applyAll_cons_eq_ok_iff.mp done
      -- the pairs behind leave the field of the first as that one left it
      have starts := Schema.startsFrom_iff.mpr ⟨path, read, rfl⟩
      have same := applyAll_get?_of_ne policy replaces between
        fun pair member => alone pair member path.root starts
      rw [later] at same
      have again := applyPair_replay replaces first read plain same
      exact applyAll_cons_eq_ok_iff.mpr
        ⟨applied, after, more, again, ih ⟨others, apart⟩ later, rfl⟩

end Replay

/-- A position of a list and an object that has to be made are covered, and an unknown field is
left out; then members are merged into the object that was made.  Both patches can be replayed. -/
theorem applyAll_replay_made :
    let tags : Field := .scalar .string { Traits.plain with isList := true }
    let schema : Schema :=
      ⟨"user", [("tags", tags), ("meta", .scalar .object Traits.plain)], false, Hooks.none⟩
    let record : Object := [("tags", .arr [.str "a", .str "b"])]
    let covers : Object := [("meta.a.b", .int 1), ("ghost", .null), ("tags[1]", .str "c")]
    let made : Object :=
      [("tags", .arr [.str "a", .str "c"]), ("meta", .obj [("a", .obj [("b", .int 1)])])]
    let merges : Object := [("tags", .null), ("meta.a", .obj [("c", .null), ("b", .int 2)])]
    let merged : Object := [("tags", .arr [.str "a", .str "c"]),
      ("meta", .obj [("a", .obj [("b", .int 2), ("c", .null)])])]
    applyAll schema .cover .skip record covers =
        (.ok ⟨["meta.a.b", "tags[1]"], ["ghost"]⟩, made) ∧
      applyAll schema .cover .skip made covers =
        (.ok ⟨["meta.a.b", "tags[1]"], ["ghost"]⟩, made) ∧
      applyAll schema .merge .reject made merges = (.ok ⟨["tags", "meta.a"], []⟩, merged) ∧
      applyAll schema .merge .reject merged merges = (.ok ⟨["tags", "meta.a"], []⟩, merged) := by
  intro tags schema record covers made merges merged
  have tail : schema.path "tags[1]" = .ok ⟨"tags[1]", [.name "tags", .index 1], false⟩ := rfl
  have ghost : schema.path "ghost" = .ok ⟨"ghost", [.name "ghost"], false⟩ := rfl
  have deep : schema.path "meta.a.b" =
      .ok ⟨"meta.a.b", [.name "meta", .name "a", .name "b"], false⟩ := rfl
  have list : schema.path "tags" = .ok ⟨"tags", [.name "tags"], false⟩ := rfl
  have info : schema.path "meta.a" = .ok ⟨"meta.a", [.name "meta", .name "a"], false⟩ := rfl
  have first : Separate schema covers :=
    .cons deep (by decide) _ (by decide) (.cons ghost (by decide) _ (by decide)
      (.cons tail (by decide) _ nofun ⟨nofun, .nil⟩))
  have second : Separate schema merges :=
    .cons list (by decide) _ (by decide) (.cons info (by decide) _ nofun ⟨nofun, .nil⟩)
  have covered : applyAll schema .cover .skip record covers =
      (.ok ⟨["meta.a.b", "tags[1]"], ["ghost"]⟩, made) := rfl
  have combined : applyAll schema .merge .reject made merges =
      (.ok ⟨["tags", "meta.a"], []⟩, merged) := rfl
  exact ⟨covered, applyAll_replay .skip (.inl rfl) first covered, combined,
    applyAll_replay .reject (.inr rfl) second combined⟩

end Patch

end RecordStore
