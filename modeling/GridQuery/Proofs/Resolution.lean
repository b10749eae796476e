import GridQuery.Schema.Resolution
import GridQuery.QueryError

/-!
# Errors of property paths

A path that cannot be resolved is reported as an error about that very path.
-/

namespace GridQuery

namespace Schema

theorem path?_of_follow_error {path : String} {s : Schema} {nullable : Bool} {names : List String}
    {e : SchemaError} (h : s.follow path nullable names = .error e) : e.path? = some path := by
  induction names generalizing s nullable with
  | nil =>
    cases h
    rfl
  | cons name rest ih =>
    cases rest with
    | nil =>
      rw [follow] at h
      split at h
      · cases h
        rfl
      · cases h
    | cons next rest =>
      rw [follow] at h
      · split at h
        · cases h
          rfl
        · split at h
          · cases h
            rfl
          · exact ih h
      · simp

/-- An error of resolving carries the path that was to be resolved. -/
theorem path?_of_resolve_error {s : Schema} {path : String} {e : SchemaError}
    (h : s.resolve path = .error e) : e.path? = some path := by
  unfold resolve at h
  split at h
  · cases h
    rfl
  · simp only at h
    split at h
    · cases h
      rfl
    · split at h
      · rename_i e' he
        cases h
        exact path?_of_follow_error he
      · cases h

end Schema

namespace QueryError

/-- An error about a path becomes an error of that kind. -/
theorem ofSchemaError_code {e : SchemaError} {path : String} (h : e.path? = some path) :
    (ofSchemaError e).code = .invalidPath := by
  unfold ofSchemaError
  rw [h]
  rfl

/-- An error about a path is about that path. -/
theorem ofSchemaError_field {e : SchemaError} {path : String} (h : e.path? = some path) :
    (ofSchemaError e).field = some path := by
  unfold ofSchemaError
  rw [h]
  rfl

end QueryError

end GridQuery
