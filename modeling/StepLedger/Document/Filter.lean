import StepLedger.Document

/-!
# Filters

A `Filter` selects the documents whose fields equal given values, all of them. A field that is not
there only matches `null`.
-/

namespace StepLedger

/-- A conjunction of clauses, each a field and the value it has to have. -/
structure Filter where
  clauses : List (String × Json)

namespace Filter

/-- The filter that selects every document. -/
def all : Filter := ⟨[]⟩

/-- Add a clause. -/
def and (f : Filter) (field : String) (value : Json) : Filter := ⟨f.clauses ++ [(field, value)]⟩

/-- The filter of one clause. -/
def eq (field : String) (value : Json) : Filter := all.and field value

/-- The filter of a primary key. -/
def byId (id : Json) : Filter := eq idField id

/-- The primary key that the first clause on it asks for. -/
def idValue? (f : Filter) : Option Json :=
  (f.clauses.find? fun clause => clause.1 = idField).map (·.2)

/-- Whether a document satisfies a clause. -/
def holds (clause : String × Json) (d : Document) : Bool :=
  match d.get? clause.1 with
  | some actual => actual.same clause.2.value
  | none => clause.2.value.isNull

/-- Whether a document satisfies every clause. -/
def selects (f : Filter) (d : Document) : Bool := f.clauses.all fun clause => holds clause d

end Filter

end StepLedger
