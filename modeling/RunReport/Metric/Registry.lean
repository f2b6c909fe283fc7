import RunReport.Metric.Field

/-!
# The registry of fields

A registry is a list of fields with distinct names, in the order of their
declaration. It is built once and then only asked: for the fields of a
category, or for the field of a name.
-/

namespace RunReport

/-- The first name that occurred before, either in `earlier` or in the list. -/
def firstRepeat (earlier : List String) : List String → Option String
  | [] => none
  | name :: rest => if name ∈ earlier then some name else firstRepeat (name :: earlier) rest

/-- A list without repeats has distinct names, none of them among the earlier ones. -/
theorem nodup_of_firstRepeat {earlier names : List String} (h : firstRepeat earlier names = none) :
    names.Nodup ∧ ∀ name ∈ names, name ∉ earlier := by
  induction names generalizing earlier with
  | nil => exact ⟨List.nodup_nil, fun _ hn => absurd hn List.not_mem_nil⟩
  | cons name rest ih =>
    unfold firstRepeat at h
    split at h
    · exact absurd h (by simp)
    · rename_i fresh
      obtain ⟨distinct, apart⟩ := ih h
      refine ⟨List.nodup_cons.2 ⟨fun hm => apart name hm (List.mem_cons_self), distinct⟩, ?_⟩
      intro other hm
      rcases List.mem_cons.1 hm with rfl | hm
      · exact fresh
      · exact fun he => apart other hm (List.mem_cons_of_mem _ he)

/-- Fields with distinct names, in declaration order. -/
structure Registry where
  /-- The fields. -/
  fields : List Field
  /-- No two fields share a name. -/
  distinct : (fields.map (·.name)).Nodup

namespace Registry

/-- The registry of the given fields; a repeated name is refused. -/
def ofFields (fields : List Field) : Except Failure Registry :=
  match h : firstRepeat [] (fields.map (·.name)) with
  | some name => .error (.duplicateField name)
  | none => .ok ⟨fields, (nodup_of_firstRepeat h).1⟩

/-- The fields of a category, in declaration order. -/
def fieldsFor (r : Registry) (category : Category) : List Field :=
  r.fields.filter (·.appliesTo category)

/-- The field of a name. -/
def field? (r : Registry) (name : String) : Option Field := r.fields.find? (·.name = name)

/-- The field of a name; an unknown one is refused. -/
def get (r : Registry) (name : String) : Except Failure Field :=
  match r.field? name with
  | some f => .ok f
  | none => .error (.unknownField name "field registry")

end Registry

end RunReport
