/-
Module: RecordStore.Proofs.Answers
Purpose: Answers that may be errors, one by one and in lists.  A list is read as a whole
  exactly when each of its items is, and then the answers are those of the items; what items
  and answers have to do with each other is carried on item by item.
Main exports: mapM_eq_ok_iff, forall₂_of_mapM, exists_mapM_iff, map_eq_ok_iff, forall₂_trans
-/
import Mathlib.Data.List.Forall2
import Mathlib.Data.Set.List

namespace RecordStore

variable {ε α β γ : Type}

/-- Where every item of a list is read, the answers are those of the items, one by one. -/
theorem mapM_eq_ok_iff {read : α → Except ε β} {items : List α}
    {answers : List β} : items.mapM read = .ok answers ↔ items.map read = answers.map .ok := by
  induction items generalizing answers with
  | nil => cases answers <;> simp [pure, Except.pure]
  | cons item rest ih =>
      rw [List.mapM_cons]
      cases first : read item with
      | error fault => cases answers <;> simp [first, bind, Except.bind]
      | ok answer =>
          cases others : rest.mapM read with
          | error fault =>
              have refused : ∀ tail : List β, rest.map read ≠ tail.map .ok := by
                intro tail same
                rw [ih.mpr same] at others
                cases others
              cases answers <;> simp [first, bind, Except.bind, refused]
          | ok remaining =>
              cases answers <;>
                simp [first, bind, Except.bind, pure, Except.pure, ih.mp others,
                  (List.map_injective_iff.mpr fun _ _ => Except.ok.inj).eq_iff]

/-- Lists have the same images when items and answers have them one by one. -/
theorem map_eq_map_iff_forall₂ {image : α → γ} {image' : β → γ} {items : List α}
    {answers : List β} : items.map image = answers.map image' ↔
      List.Forall₂ (fun item answer => image item = image' answer) items answers := by
  rw [← List.forall₂_eq_eq_eq, List.forall₂_map_left_iff, List.forall₂_map_right_iff]

/-- Where every item of a list is read, each has its answer. -/
theorem forall₂_of_mapM {read : α → Except ε β} {items : List α}
    {answers : List β} (done : items.mapM read = .ok answers) :
    List.Forall₂ (fun item answer => read item = .ok answer) items answers :=
  map_eq_map_iff_forall₂.mp (mapM_eq_ok_iff.mp done)

/-- A list is read as a whole exactly when each of its items is. -/
theorem exists_mapM_iff {read : α → Except ε β} {items : List α} :
    (∃ answers, items.mapM read = .ok answers) ↔
      ∀ item ∈ items, ∃ answer, read item = .ok answer := by
  have range : (∃ answers, List.map .ok answers = items.map read) ↔
      ∀ item ∈ items, ∃ answer, .ok answer = read item := by
    have all := Set.ext_iff.mp (Set.range_list_map (Except.ok : β → Except ε β)) (items.map read)
    simpa only [Set.mem_range, Set.mem_ofPred_eq, List.forall_mem_map] using all
  constructor
  · rintro ⟨answers, all⟩ item member
    obtain ⟨answer, given⟩ := range.mp ⟨answers, (mapM_eq_ok_iff.mp all).symm⟩ item member
    exact ⟨answer, given.symm⟩
  · intro each
    obtain ⟨answers, all⟩ := range.mpr fun item member => (each item member).imp fun _ => Eq.symm
    exact ⟨answers, mapM_eq_ok_iff.mpr all.symm⟩

theorem map_eq_ok_iff {change : α → β} {answer : Except ε α} {result : β} :
    answer.map change = .ok result ↔ ∃ value, answer = .ok value ∧ change value = result := by
  cases answer <;> simp [Except.map]

/-- What each item gives its partner, all partners have. -/
theorem forall_of_forall₂ {relation : α → β → Prop} {holds : β → Prop}
    (each : ∀ item answer, relation item answer → holds answer) {items : List α}
    {answers : List β} (all : List.Forall₂ relation items answers) :
    ∀ answer ∈ answers, holds answer := by
  induction all with
  | nil => exact fun answer member => nomatch member
  | cons first _ ih => exact List.forall_mem_cons.mpr ⟨each _ _ first, ih⟩

/-- Partners of partners are partners. -/
theorem forall₂_trans {relation : α → β → Prop} {relation' : β → γ → Prop}
    {joined : α → γ → Prop}
    (joins : ∀ item middle last, relation item middle → relation' middle last → joined item last)
    {items : List α} {between : List β} {answers : List γ}
    (first : List.Forall₂ relation items between)
    (second : List.Forall₂ relation' between answers) : List.Forall₂ joined items answers := by
  induction first generalizing answers with
  | nil =>
      cases second
      exact .nil
  | cons head _ ih =>
      cases second with
      | cons next rest => exact .cons (joins _ _ _ head next) (ih rest)

/-- Partners of items that go together go together. -/
theorem forall₂_of_partners {alike : α → α → Prop} {relation : α → β → Prop}
    {same : β → β → Prop}
    (each : ∀ item other answer answer', alike item other → relation item answer →
      relation other answer' → same answer answer')
    {items others : List α} {answers answers' : List β} (all : List.Forall₂ alike items others)
    (given : List.Forall₂ relation items answers)
    (given' : List.Forall₂ relation others answers') : List.Forall₂ same answers answers' := by
  have onward : List.Forall₂ (fun item answer' => ∃ other, alike item other ∧
      relation other answer') items answers' :=
    forall₂_trans (fun item other answer' pair later => ⟨other, pair, later⟩) all given'
  refine forall₂_trans (fun answer item answer' first later => ?_) given.flip onward
  obtain ⟨other, pair, second⟩ := later
  exact each item other answer answer' pair first second

end RecordStore
