import GridQuery.Predicate.Operand
import GridQuery.Record

/-!
# References to fields

Which cell of a record a comparison looks at, and which part of it: the value
itself, the date, hour or minute of an instant, the instant at the start of its
minute, or the ordinal of a member.
-/

namespace GridQuery

/-- The part of a value that is compared. -/
inductive Access where
  | value
  | date
  | hour
  | minute
  | wholeMinute
  | ordinal (e : Enumeration)
deriving DecidableEq

/-- The name of an access. -/
def Access.name : Access → String
  | .value => "value"
  | .date => "date"
  | .hour => "hour"
  | .minute => "minute"
  | .wholeMinute => "truncated"
  | .ordinal e => "ordinal:" ++ e.name

/-- A property path and the part of its value that is compared. -/
structure FieldRef where
  path : String
  access : Access := .value
deriving DecidableEq

namespace FieldRef

/-- The names on the path. -/
def segments (f : FieldRef) : List String := pathSegments f.path

/-- The instant of a value: an instant, or a text that spells one. -/
def instant? : Value → Option Instant
  | .instant i => some i
  | .text s => Operand.instantOfText? s
  | _ => none

/-- The part of a value that is compared; `none` when the value has no such
part. -/
def project (f : FieldRef) (v : Value) : Option Operand :=
  match f.access with
  | .value => some (Operand.ofValue v)
  | .date => (instant? v).map fun i => .date i.date
  | .hour => (instant? v).map fun i => Operand.ofSmall i.time.hour
  | .minute => (instant? v).map fun i => Operand.ofSmall i.time.minute
  | .wholeMinute => ((instant? v).bind Instant.wholeMinute?).map .instant
  | .ordinal e =>
      match v with
      | .member name | .text name => (e.ordinal? name).map Operand.int
      | v => v.integer?.bind fun n => (Whole.ofInt? .int64 n).map Operand.int

/-- The reference as an SQL expression. -/
def sql (f : FieldRef) : String :=
  let column := Text.joined "." f.segments
  match f.access with
  | .value | .ordinal _ => column
  | .date => "CAST(" ++ column ++ " AS DATE)"
  | .hour => "EXTRACT(HOUR FROM " ++ column ++ ")"
  | .minute => "EXTRACT(MINUTE FROM " ++ column ++ ")"
  | .wholeMinute => "date_trunc('minute', " ++ column ++ ")"

end FieldRef

end GridQuery
