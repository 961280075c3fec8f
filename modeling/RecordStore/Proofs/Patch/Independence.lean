/-
Module: RecordStore.Proofs.Patch.Independence
Purpose: Pairs of a patch that start from different fields do not see each other.  What a pair
  answers and what it makes of its field depend on that field alone, in every mode and for
  every shape of path; so each field is changed by the pairs that start from it, in their
  order, and the order among fields plays no part.
Main exports: Object.AgreeAt, edit_same, Patch.apply_same, Schema.startsFrom,
  Patch.applyAll_fields, Patch.Reordered, Patch.applyAll_reordered
-/
import RecordStore.Proofs.Patch.Protection

namespace RecordStore

open Json

/-! ### Records that agree at a key -/

/-- Two records, in neither of which a key occurs twice, that read alike at one key. -/
structure Object.AgreeAt (key : String) (a b : Object) : Prop where
  left : a.keys.Nodup
  right : b.keys.Nodup
  same : a.get? key = b.get? key

/-- Two outcomes with the same answer, whose records read alike at a key. -/
def SameAt {α : Type} (key : String) (one other : α × Object) : Prop :=
  one.1 = other.1 ∧ one.2.get? key = other.2.get? key

/-- An edit that reads and writes the named member of an object only. -/
def Edit.Local {α : Type} (edit : Edit α) : Prop :=
  ∀ (key : String) (a b : Object), a.AgreeAt key b →
    (edit (.member a key)).1 = (edit (.member b key)).1 ∧
      (Object.ofJson (edit (.member a key)).2).get? key =
        (Object.ofJson (edit (.member b key)).2).get? key

theorem set_local (value : Json) : Edit.Local fun place => ((), place.assign value) := by
  intro key a b agree
  refine ⟨rfl, ?_⟩
  change (a.insert key value).get? key = (b.insert key value).get? key
  rw [Object.get?_insert_self, Object.get?_insert_self]

theorem take_local : Edit.Local fun place => (place.current, place.remove) := by
  intro key a b agree
  refine ⟨agree.same, ?_⟩
  change (a.erase key).get? key = (b.erase key).get? key
  rw [Object.get?_erase_self agree.left, Object.get?_erase_self agree.right]

/-! ### Reading and writing through a path -/

section Paths

variable {path : FieldPath} {a b : Object}

/-- What a path reads stands in the field it starts from. -/
theorem lookup?_congr (same : a.get? path.root = b.get? path.root) :
    a.lookup? path = b.lookup? path := by
  unfold Object.lookup?
  cases steps : path.segments with
  | nil => rfl
  | cons first rest =>
      cases first with
      | name key =>
          have root : path.root = key := by simp [FieldPath.root, steps, Segment.name?]
          rw [root] at same
          simp only [same]
      | _ => rfl

theorem lookup?_same (agree : a.AgreeAt path.root b) : a.lookup? path = b.lookup? path :=
  lookup?_congr agree.same

/-- The writing walk sees of a record what stands under the first name. -/
theorem descendTo_same {α : Type} {edit : Edit α} (alone : edit.Local) {key : String}
    (agree : a.AgreeAt key b) (rest : List Segment) :
    (descendTo path edit (.obj a) (.name key :: rest)).1 =
        (descendTo path edit (.obj b) (.name key :: rest)).1 ∧
      (Object.ofJson (descendTo path edit (.obj a) (.name key :: rest)).2).get? key =
        (Object.ofJson (descendTo path edit (.obj b) (.name key :: rest)).2).get? key := by
  cases rest with
  | nil =>
      obtain ⟨answer, left⟩ := alone key a b agree
      exact ⟨congrArg Except.ok answer, left⟩
  | cons next more =>
      have entered : enterStep path (.obj a) (.name key) next =
          enterStep path (.obj b) (.name key) next := by
        simp only [enterStep, agree.same]
      rw [descendTo_cons, descendTo_cons, entered]
      cases reached : enterStep path (.obj b) (.name key) next with
      | error error => exact ⟨rfl, agree.same⟩
      | ok entered =>
          obtain ⟨step, inner⟩ := entered
          obtain ⟨rfl, -, -⟩ := enterStep_ok reached
          refine ⟨rfl, ?_⟩
          change (a.insert key _).get? key = (b.insert key _).get? key
          rw [Object.get?_insert_self, Object.get?_insert_self]

/-- An edit through a path does the same to records that agree at the root of the path. -/
theorem edit_same {α : Type} {edit : Edit α} (alone : edit.Local)
    (agree : a.AgreeAt path.root b) :
    SameAt path.root (a.edit path edit) (b.edit path edit) := by
  have refused {error : PathError}
      (left : (descendTo path edit (.obj a) path.segments).1 = .error error)
      (right : (descendTo path edit (.obj b) path.segments).1 = .error error) :
      SameAt path.root (a.edit path edit) (b.edit path edit) := by
    simp only [Object.edit, checkWritable_eq edit, left, right]
    exact ⟨rfl, agree.same⟩
  cases steps : path.segments with
  | nil => exact refused (by rw [steps]; rfl) (by rw [steps]; rfl)
  | cons first rest =>
      cases first with
      | index index =>
          apply @refused (.typeMismatch path.raw .array)
          all_goals
            rw [steps]
            cases rest <;> rfl
      | element other text =>
          apply @refused (.typeMismatch path.raw .array)
          all_goals
            rw [steps]
            cases rest <;> rfl
      | name key =>
          have root : path.root = key := by simp [FieldPath.root, steps, Segment.name?]
          rw [root] at agree ⊢
          obtain ⟨answer, left⟩ := @descendTo_same path a b α edit alone key agree rest
          simp only [Object.edit, checkWritable_eq edit, steps, answer]
          cases (descendTo path edit (.obj b) (.name key :: rest)).1 with
          | error error => exact ⟨rfl, agree.same⟩
          | ok value => exact ⟨rfl, left⟩

theorem remove_same (agree : a.AgreeAt path.root b) :
    SameAt path.root (a.remove path) (b.remove path) := by
  unfold Object.remove
  rw [lookup?_same agree]
  cases b.lookup? path with
  | none => exact ⟨rfl, agree.same⟩
  | some value => exact edit_same take_local agree

end Paths

namespace Patch

/-! ### One operand -/

section Operands

variable {path : FieldPath} {a b : Object} (agree : a.AgreeAt path.root b)
include agree

theorem kept_same {α : Type} (answer : α) : SameAt path.root (answer, a) (answer, b) :=
  ⟨rfl, agree.same⟩

theorem refuse_same (fault : ValueFault) :
    SameAt path.root (refuse a path fault) (refuse b path fault) :=
  kept_same agree _

theorem cover_same (value : Json) :
    SameAt path.root (cover a path value) (cover b path value) := by
  obtain ⟨answer, left⟩ := edit_same (set_local value) agree
  rw [cover_eq, cover_eq]
  exact ⟨congrArg (Except.mapError PatchError.path) answer, left⟩

theorem removeAt_same : SameAt path.root (removeAt a path) (removeAt b path) := by
  obtain ⟨answer, left⟩ := remove_same agree
  rw [removeAt_eq, removeAt_eq, answer]
  exact ⟨rfl, left⟩

theorem stored?_same : stored? a path = stored? b path := by
  unfold stored?
  rw [lookup?_same agree]

theorem append_same (operand : Json) (resolved : Resolved) :
    SameAt path.root (append a path operand resolved) (append b path operand resolved) := by
  unfold append
  split
  · unfold appendItems
    rw [stored?_same agree]
    split
    · exact cover_same agree _
    · exact cover_same agree _
    · exact refuse_same agree _
  split
  · unfold appendText
    rw [stored?_same agree]
    exact cover_same agree _
  split
  · unfold appendNumber
    rw [stored?_same agree]
    split
    · exact refuse_same agree _
    split
    · exact refuse_same agree _
    split
    · exact refuse_same agree _
    · exact cover_same agree _
  split
  · exact kept_same agree _
  · exact cover_same agree _

theorem deleteItem_same (operand : Json) :
    SameAt path.root (deleteItem a path operand) (deleteItem b path operand) := by
  unfold deleteItem
  rw [lookup?_same agree]
  split
  · split
    · exact cover_same agree _
    · exact kept_same agree _
  · exact kept_same agree _

theorem delete_same (operand : Json) (resolved : Resolved) :
    SameAt path.root (delete a path operand resolved) (delete b path operand resolved) := by
  unfold delete
  split
  · exact removeAt_same agree
  split
  · exact deleteItem_same agree operand
  split
  · exact cover_same agree _
  split
  · exact cover_same agree _
  · exact removeAt_same agree

theorem merge_same (operand : Json) (resolved : Resolved) :
    SameAt path.root (merge a path operand resolved) (merge b path operand resolved) := by
  unfold merge storedObject
  rw [lookup?_same agree]
  split
  · exact kept_same agree _
  split
  · exact cover_same agree _
  · exact refuse_same agree _

/-- In every mode an operand does the same to records that agree at the root of its path. -/
theorem apply_same (operand : Json) (mode : UpdateMode) (resolved : Resolved) :
    SameAt path.root (apply a path operand mode resolved) (apply b path operand mode resolved) := by
  cases mode with
  | cover => exact cover_same agree operand
  | append => exact append_same agree operand resolved
  | delete => exact delete_same agree operand resolved
  | merge => exact merge_same agree operand resolved

end Operands

end Patch

/-! ### Pairs that start from one field -/

/-- Whether a patch key is read as a path that starts from a field. -/
def Schema.startsFrom (schema : Schema) (name key : String) : Bool :=
  match schema.path key with
  | .ok path => path.root == name
  | .error _ => false

theorem Schema.startsFrom_iff {schema : Schema} {name key : String} :
    schema.startsFrom name key = true ↔ ∃ path, schema.path key = .ok path ∧ path.root = name := by
  unfold startsFrom
  cases schema.path key <;> simp

namespace Patch

variable (schema : Schema) (mode : UpdateMode) (policy : UnknownFieldPolicy)

/-- The pairs of a patch that start from a field, in their order. -/
def pairsFrom (name : String) (patch : Object) : Object :=
  patch.filter fun pair => schema.startsFrom name pair.1

theorem pairsFrom_cons_pos {name key : String} (starts : schema.startsFrom name key = true)
    (operand : Json) (rest : Object) :
    pairsFrom schema name ((key, operand) :: rest) =
      (key, operand) :: pairsFrom schema name rest :=
  List.filter_cons_of_pos starts

theorem pairsFrom_cons_neg {name key : String} (apart : ¬ schema.startsFrom name key = true)
    (operand : Json) (rest : Object) :
    pairsFrom schema name ((key, operand) :: rest) = pairsFrom schema name rest :=
  List.filter_cons_of_neg apart

theorem starts_of_mem_pairsFrom {name : String} {patch : Object} :
    ∀ pair ∈ pairsFrom schema name patch, schema.startsFrom name pair.1 = true :=
  fun _ member => (List.mem_filter.mp member).2

/-- A pair does the same to records that agree at the field it starts from. -/
theorem applyPair_same {name : String} {a b : Object} (agree : a.AgreeAt name b) {key : String}
    (starts : schema.startsFrom name key = true) (operand : Json) :
    (applyPair schema mode policy a key operand).1 =
        (applyPair schema mode policy b key operand).1 ∧
      (applyPair schema mode policy a key operand).2.AgreeAt name
        (applyPair schema mode policy b key operand).2 := by
  obtain ⟨path, read, rfl⟩ := Schema.startsFrom_iff.mp starts
  have same : SameAt path.root (applyPair schema mode policy a key operand)
      (applyPair schema mode policy b key operand) := by
    simp only [applyPair, read]
    split
    · exact kept_same agree _
    split
    · cases policy <;> exact kept_same agree _
    · rename_i resolved resolves
      obtain ⟨answer, left⟩ := apply_same agree operand mode resolved
      rcases first : apply a path operand mode resolved with ⟨one, after⟩
      rcases second : apply b path operand mode resolved with ⟨other, last⟩
      rw [first, second] at answer left
      obtain rfl : one = other := answer
      cases one <;> exact ⟨rfl, left⟩
  exact ⟨same.1, (applyPair_frame schema mode policy agree.left key operand).1,
    (applyPair_frame schema mode policy agree.right key operand).1, same.2⟩

/-! ### A whole patch -/

/-- Pairs that start from one field do the same to records that agree at the field. -/
theorem applyAll_same {name : String} {a b : Object} (agree : a.AgreeAt name b) {patch : Object}
    (starts : ∀ pair ∈ patch, schema.startsFrom name pair.1 = true) :
    (applyAll schema mode policy a patch).1 = (applyAll schema mode policy b patch).1 ∧
      (applyAll schema mode policy a patch).2.AgreeAt name
        (applyAll schema mode policy b patch).2 := by
  induction patch generalizing a b with
  | nil => exact ⟨rfl, agree⟩
  | cons pair rest ih =>
      obtain ⟨key, operand⟩ := pair
      obtain ⟨answer, left⟩ := applyPair_same schema mode policy agree
        (starts (key, operand) List.mem_cons_self) operand
      rcases first : applyPair schema mode policy a key operand with ⟨one, after⟩
      rcases second : applyPair schema mode policy b key operand with ⟨other, last⟩
      rw [first, second] at answer left
      obtain rfl : one = other := answer
      cases one with
      | error error =>
          rw [applyAll_cons_error first, applyAll_cons_error second]
          exact ⟨rfl, left⟩
      | ok applied =>
          obtain ⟨answers, agrees⟩ := ih left fun pair member =>
            starts pair (List.mem_cons_of_mem _ member)
          simp only [applyAll, first, second]
          rcases one : applyAll schema mode policy after rest with ⟨outcome, one⟩
          rcases other : applyAll schema mode policy last rest with ⟨outcome', other⟩
          rw [one, other] at answers agrees
          obtain rfl : outcome = outcome' := answers
          cases outcome <;> exact ⟨rfl, agrees⟩

variable {schema mode policy} in
/-- What the first pair of a patch leaves decides as the patch does about every field: about
the field it starts from it is the first of the pairs, about another field none of them. -/
theorem pairsFrom_cons {record between : Object} (distinct : record.keys.Nodup) {key : String}
    {operand : Json} {applied : Bool} (first : applyPair schema mode policy record key operand =
      (.ok applied, between)) (rest : Object) (name : String) :
    ((∃ report, (applyAll schema mode policy record
          (pairsFrom schema name ((key, operand) :: rest))).1 = .ok report) ↔
        ∃ report, (applyAll schema mode policy between (pairsFrom schema name rest)).1 =
          .ok report) ∧
      (applyAll schema mode policy record
          (pairsFrom schema name ((key, operand) :: rest))).2.get? name =
        (applyAll schema mode policy between (pairsFrom schema name rest)).2.get? name := by
  by_cases starts : schema.startsFrom name key = true
  case pos =>
    obtain ⟨goes, left⟩ := applyAll_cons_ok first (pairsFrom schema name rest)
    rw [pairsFrom_cons_pos schema starts]
    exact ⟨goes, congrArg (Object.get? · name) left⟩
  case neg =>
    obtain ⟨still, frame⟩ := applyPair_frame schema mode policy distinct key operand
    rw [first] at still frame
    have kept : between.get? name = record.get? name :=
      Classical.byContradiction fun changed =>
        starts (Schema.startsFrom_iff.mpr (frame name changed).2)
    have agree : record.AgreeAt name between := ⟨distinct, still, kept.symm⟩
    obtain ⟨answers, agrees⟩ := applyAll_same schema mode policy agree
      (@starts_of_mem_pairsFrom schema name rest)
    rw [pairsFrom_cons_neg schema starts, answers]
    exact ⟨Iff.rfl, agrees.same⟩

/-- A patch goes through exactly when each of its keys is read and, for every field, the pairs
that start from the field go through on their own; then they make of the field what the patch
makes of it. -/
theorem applyAll_fields {record : Object} (distinct : record.keys.Nodup) (patch : Object) :
    ((∃ report, (applyAll schema mode policy record patch).1 = .ok report) ↔
        (∀ pair ∈ patch, ∃ path, schema.path pair.1 = .ok path) ∧
          ∀ name, ∃ report, (applyAll schema mode policy record
            (pairsFrom schema name patch)).1 = .ok report) ∧
      ((∃ report, (applyAll schema mode policy record patch).1 = .ok report) →
        ∀ name, (applyAll schema mode policy record patch).2.get? name =
          (applyAll schema mode policy record (pairsFrom schema name patch)).2.get? name) := by
  induction patch generalizing record with
  | nil => exact ⟨⟨fun done => ⟨nofun, fun _ => done⟩, fun _ => ⟨_, rfl⟩⟩, fun _ _ => rfl⟩
  | cons pair rest ih =>
      obtain ⟨key, operand⟩ := pair
      have distinctAfter := (applyPair_frame schema mode policy distinct key operand).1
      rcases first : applyPair schema mode policy record key operand with ⟨answer, between⟩
      rw [first] at distinctAfter
      cases answer with
      | error error =>
          have fails : ¬ ∃ report,
              (applyAll schema mode policy record ((key, operand) :: rest)).1 = .ok report := by
            rw [applyAll_cons_error first]
            exact fun ⟨_, done⟩ => nomatch done
          refine ⟨⟨fun done => absurd done fails, fun ⟨read, each⟩ => ?_⟩,
            fun done => absurd done fails⟩
          obtain ⟨path, reads⟩ := read (key, operand) List.mem_cons_self
          have starts : schema.startsFrom path.root key = true :=
            Schema.startsFrom_iff.mpr ⟨path, reads, rfl⟩
          obtain ⟨report, done⟩ := each path.root
          rw [pairsFrom_cons_pos schema starts, applyAll_cons_error first] at done
          cases done
      | ok applied =>
          obtain ⟨goes, left⟩ := applyAll_cons_ok first rest
          obtain ⟨decides, makes⟩ := ih distinctAfter
          have parts := pairsFrom_cons distinct first rest
          have reads : ∃ path, schema.path key = .ok path := by
            cases read : schema.path key with
            | ok path => exact ⟨path, rfl⟩
            | error error => simp [applyPair, read] at first
          refine ⟨?_, fun done name => ?_⟩
          · rw [goes, decides, List.forall_mem_cons]
            simp only [reads, true_and, fun name => (parts name).1]
          · rw [left, makes (goes.mp done) name, (parts name).2]

/-! ### Reordered patches -/

/-- The same pairs in an order that differs only between pairs that start from different
fields. -/
structure Reordered (schema : Schema) (patch others : Object) : Prop where
  perm : others.Perm patch
  kept : ∀ name, pairsFrom schema name others = pairsFrom schema name patch

/-- Pairs that start from different fields may change places: the patch goes through or fails
as before and, when it goes through, every field of the record, in which no key occurs twice,
has the same value or none, and the same keys are reported as applied and as skipped. -/
theorem applyAll_reordered {record : Object} (distinct : record.keys.Nodup)
    {patch others : Object} (same : Reordered schema patch others) :
    ((∃ report, (applyAll schema mode policy record others).1 = .ok report) ↔
        ∃ report, (applyAll schema mode policy record patch).1 = .ok report) ∧
      ∀ report report' after after',
        applyAll schema mode policy record patch = (.ok report, after) →
        applyAll schema mode policy record others = (.ok report', after') →
        (∀ name, after'.get? name = after.get? name) ∧
          report'.applied.Perm report.applied ∧ report'.skipped.Perm report.skipped := by
  obtain ⟨decides, makes⟩ := applyAll_fields schema mode policy distinct patch
  obtain ⟨decides', makes'⟩ := applyAll_fields schema mode policy distinct others
  have among : ∀ pair, pair ∈ others ↔ pair ∈ patch := fun pair => same.perm.mem_iff
  refine ⟨?_, fun report report' after after' done done' => ⟨fun name => ?_, ?_⟩⟩
  · simp only [decides, decides', among, same.kept]
  · have before := makes ⟨report, by rw [done]⟩ name
    have behind := makes' ⟨report', by rw [done']⟩ name
    rw [done] at before
    rw [done', same.kept name, ← before] at behind
    exact behind
  · obtain ⟨applied, skipped⟩ := applyAll_report schema mode policy done
    obtain ⟨applied', skipped'⟩ := applyAll_report schema mode policy done'
    rw [applied, applied', skipped, skipped']
    have keys : others.keys.Perm patch.keys := same.perm.map Prod.fst
    exact ⟨keys.filter _, keys.filter _⟩

/-- Two sums on one field stay in order while a text is added to another field before, between
or after them. -/
theorem applyAll_reordered_sums :
    let schema : Schema := ⟨"account", [("age", .scalar .number Traits.plain),
      ("name", .scalar .string Traits.plain)], false, Hooks.none⟩
    let record : Object := [("age", .int 1), ("name", .str "x")]
    let patch : Object := [("age", .int 2), ("name", .str "y"), ("age.", .int 5)]
    let others : Object := [("name", .str "y"), ("age", .int 2), ("age.", .int 5)]
    let report : PatchReport := ⟨["age", "name", "age."], []⟩
    let after : Object := [("age", .int 8), ("name", .str "xy")]
    record.keys.Nodup ∧ Reordered schema patch others ∧
      applyAll schema .append .skip record patch = (.ok report, after) ∧
      ∃ report' after', applyAll schema .append .skip record others = (.ok report', after') ∧
        (∀ name, after'.get? name = after.get? name) ∧
        report'.applied.Perm report.applied ∧ report'.skipped.Perm report.skipped := by
  intro schema record patch others report after
  have distinct : record.keys.Nodup := by decide
  have same : Reordered schema patch others := by
    refine ⟨.swap _ _ _, fun name => ?_⟩
    have age : schema.startsFrom name "age" = ("age" == name) := rfl
    have called : schema.startsFrom name "name" = ("name" == name) := rfl
    by_cases first : "age" = name
    · subst first
      rfl
    · simp [pairsFrom, patch, others, List.filter_cons, age, called, first]
  have done : applyAll schema .append .skip record patch = (.ok report, after) := rfl
  obtain ⟨either, agree⟩ := @applyAll_reordered schema .append .skip record distinct patch others
    same
  obtain ⟨report', done'⟩ := either.mpr ⟨report, by rw [done]⟩
  exact ⟨distinct, same, done, report', _, Prod.ext done' rfl,
    agree report report' after _ done (Prod.ext done' rfl)⟩

end Patch

end RecordStore
